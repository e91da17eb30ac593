import PulSeed.Lib.Transition
import PulSeed.Schedule.Mutations

/-!
# The schedule engine (`runtime/schedule/engine.ts`, `entry-store.ts`)

All calls of the engine share one array of entries, `this.entries`, and one lock. A
*section* is what a call does inside `withLock`: it reads the stored entries into a new
array, works on `this.entries`, and saves whatever `this.entries` is then. Code runs
without interruption only from one `await` to the next, which is one step here; between
two steps of a section any other call may go on.

`withLock` is re-entrant by a counter for the whole engine: while one section is inside,
every other call enters at once. Only calls that find the counter at zero wait for the row
of the database that holds the lock.

`log` and `recorded` are written for the statements about runs; no step reads them. Entries
that are read back from the database are the entries that were written, writes to the
database succeed, and `randomUUID` gives no id twice.
-/

namespace PulSeed

namespace Schedule

/-! ## Calls -/

/-- `RunScheduleNowOptions`. -/
structure RunNowOptions where
  preserveEnabled : Bool := true
  allowEscalation : Bool := false
  deriving DecidableEq

/-- Why an entry is executed. -/
inductive Role
  | due
  | manual (options : RunNowOptions)
  | target
  deriving DecidableEq

/-- What is left of a call after an execution and the escalation that follows it. -/
inductive Rest
  | tick (due : List DueEntryDescriptor)
  | manual

/-- An execution of an entry. -/
structure Execution where
  entry : ScheduleEntry
  scheduledFor : Option Millis
  role : Role
  rest : Rest

/-- The argument of `applyExecutionOutcome`. -/
def Role.preserveEnabled : Role → Bool
  | due => false
  | manual options => options.preserveEnabled
  | target => false

def Role.checksEscalation : Role → Bool
  | due => true
  | manual options => options.allowEscalation
  | target => false

/-! ## Sections -/

inductive Section
  | addEntry (input : EntryInput)
  | updateEntry (id : String) (patch : UpdateInput)
  | removeEntry (id : String)
  | syncExternalSources (sourceIds : List String)
  | loadEntries
  | tick
  | findEntry (id : String)
  | applyOutcome (execution : Execution) (result : ScheduleResult)
      (sideEffects : Option (List String))
  | checkEscalation (entryId : String)

/-- The sections that `withScheduleMutation` saves and restores. -/
def Section.isMutation : Section → Bool
  | addEntry _ => true
  | updateEntry _ _ => true
  | removeEntry _ => true
  | syncExternalSources _ => true
  | _ => false

/-- What a section returns. -/
inductive Answer
  | unit
  | loaded (entries : List ScheduleEntry)
  | due (descriptors : List DueEntryDescriptor)
  | found (entry : Option ScheduleEntry)
  | applied (entry : Option ScheduleEntry)
  | escalated (entry : Option ScheduleEntry)

/-- What an awaited call of the outside world returns. -/
inductive Reply
  | none
  | health (healthy : Bool) (error : Option String)
  | fetched (raws : List (Except String ExternalScheduleEntry))
  | rejected (message : String)
  | executed (result : ScheduleResult)
  | baseline (value : String) (windowSize : ℕ)

/-- An escalation that is recorded, and the policy it was allowed by. -/
structure EscalationRecord where
  id : String
  recordedAt : Millis
  policy : EscalationConfig
  deriving DecidableEq

/-- Where a section goes on after an `await`. -/
inductive Local
  | start
  | health (sync : SyncState) (sourceId : String) (rest : List String)
  | fetch (sync : SyncState) (sourceId : String) (rest : List String)
  | syncSaved
  | tickSaved
  | reported (updated : ScheduleEntry)
  | outcomeSaved (updated : ScheduleEntry)
  | escalationSaved (idx : ℕ) (record : EscalationRecord)

/-- Nothing is left to be written. -/
def Local.settled : Local → Bool
  | tickSaved => true
  | outcomeSaved _ => true
  | escalationSaved _ _ => true
  | _ => false

/-- How a stretch of a section ends: at an `await`, at a call of `saveEntries`, or at its
return. -/
inductive Ending
  | await (next : Local)
  | save (next : Local)
  | done (answer : Answer)

/-- The end of `syncExternalSources`. -/
def endSync (sync : SyncState) (now : Millis) (entries : List ScheduleEntry) : Update × Ending :=
  ({ array := entries, fresh := some (disableMissing sync now entries) },
    if sync.changed entries then .save .syncSaved else .done .unit)

/-- The next source of `syncExternalSources`. -/
def nextSource (sync : SyncState) (sourceIds : List String) (now : Millis)
    (entries : List ScheduleEntry) : Update × Ending :=
  match sourceIds with
  | [] => endSync sync now entries
  | sourceId :: rest => ({ array := entries }, .await (.health sync sourceId rest))

/-- The escalation of an entry, if it is recorded. -/
def recordEscalation (entryId : String) (now : Millis) (entries : List ScheduleEntry) :
    Option (ℕ × ScheduleEntry × EscalationConfig) :=
  (entries.findIdx? fun entry => entry.id = entryId).bind fun idx =>
    entries[idx]?.bind fun current => (escalate now current).map fun e => (idx, e)

section

variable (nextCron : NextCron)

/-- One stretch of a section on the current entries. -/
def work (sec : Section) (l : Local) (r : Reading) (reply : Reply)
    (entries : List ScheduleEntry) : Except Stop (Update × Ending) :=
  let keep : Update := { array := entries }
  match sec, l with
  | .addEntry input, .start => do return (← addEntryInMemory nextCron input r entries, .done .unit)
  | .updateEntry id patch, .start => do
    return (← updateEntry nextCron id patch r entries, .done .unit)
  | .removeEntry id, .start => return (removeEntry id entries, .done .unit)
  | .syncExternalSources sourceIds, .start => return nextSource {} sourceIds r.now entries
  | .syncExternalSources _, .health sync sourceId rest =>
    match reply with
    | .health true _ => return (keep, .await (.fetch sync sourceId rest))
    | .health false error =>
      return nextSource (sync.failed sourceId (error.getD "source is unhealthy")) rest r.now entries
    | .rejected message => return nextSource (sync.failed sourceId message) rest r.now entries
    | _ => throw .impossible
  | .syncExternalSources _, .fetch sync sourceId rest =>
    match reply with
    | .fetched raws => do
      let (entries', sync') ← syncSource nextCron sourceId raws r sync entries
      return nextSource sync' rest r.now entries'
    | .rejected message => return nextSource (sync.failed sourceId message) rest r.now entries
    | _ => throw .impossible
  | .syncExternalSources _, .syncSaved => return (keep, .done .unit)
  | .tick, .start =>
    if entries.any (needsBudgetReset r.now) then
      return ({ array := resetBudgets r.now entries }, .save .tickSaved)
    else return (keep, .done (.due (getDueEntryDescriptors r.now entries)))
  | .tick, .tickSaved => return (keep, .done (.due (getDueEntryDescriptors r.now entries)))
  | .findEntry id, .start => return (keep, .done (.found (entries.find? fun e => e.id = id)))
  | .applyOutcome execution result _, .start => do
    let applied ← applyExecutionOutcome nextCron execution.entry.id result execution.scheduledFor
      execution.role.preserveEnabled r entries
    match applied with
    | none => return (keep, .done (.applied none))
    | some (entries', updated) => return ({ array := entries' }, .await (.reported updated))
  | .applyOutcome execution _ sideEffects, .reported updated =>
    return ({ array := applyExecutionSideEffects execution.entry.id sideEffects entries },
      .save (.outcomeSaved updated))
  | .applyOutcome _ _ _, .outcomeSaved updated => return (keep, .done (.applied (some updated)))
  | .checkEscalation entryId, .start =>
    match recordEscalation entryId r.now entries with
    | none => return (keep, .done (.escalated none))
    | some (idx, entry, policy) =>
      return ({ array := entries.set idx entry },
        .save (.escalationSaved idx ⟨entry.id, r.now, policy⟩))
  | .checkEscalation _, .escalationSaved idx _ => return (keep, .done (.escalated entries[idx]?))
  | _, _ => throw .impossible

end

/-! ## The state -/

/-- A section that is inside the lock: its lock when it holds one itself, the array before
it, and what its stretches were given. -/
structure Frame where
  held : Option ℕ
  previous : ℕ
  inputs : List (Reading × Reply) := []

/-- A call of `saveEntries`: the array it saves, what the stretch that called it was
given, and where the section goes on; nowhere at the end of a mutation. -/
structure Save where
  array : ℕ
  input : Reading × Reply
  next : Option Local
  held : Option ℕ := none

inductive Phase
  | calling
  | acquiring (startedAt : Millis) (token : ℕ)
  | acquired (token : ℕ)
  | reading (frame : Frame)
  | assigning (frame : Frame) (loaded : List ScheduleEntry)
  | working (frame : Frame) (l : Local)
  | mutated (frame : Frame) (input : Reading × Reply)
  | acquiringSave (frame : Frame) (save : Save) (startedAt : Millis) (token : ℕ)
  | acquiredSave (frame : Frame) (save : Save) (token : ℕ)
  | writing (frame : Frame) (save : Save)
  | projecting (frame : Frame) (save : Save)
  | leaving (frame : Frame) (answer : Answer)

/-- What a call does with the answer of its section. -/
inductive Cont
  | ret
  | load
  | tick
  | manual (options : RunNowOptions)
  | target (rest : Rest)
  | outcome (execution : Execution) (result : ScheduleResult)
  | escalation (rest : Rest)

/-- A call under way. -/
inductive Task
  | inSection (sec : Section) (phase : Phase) (cont : Cont)
  | assigningLoaded (entries : List ScheduleEntry)
  | executing (execution : Execution)
  | escalating (policy : EscalationConfig) (rest : Rest)
  | recordingHistory (rest : Rest)
  | finished

/-- The row of the lock. -/
structure LockRow where
  token : ℕ
  leaseUntil : Millis

/-- What of a section has been carried out: its stretches that took effect. -/
structure Operation where
  sec : Section
  inputs : List (Reading × Reply)

structure Engine where
  stored : List ScheduleEntry
  heap : List (List ScheduleEntry)
  entries : ℕ
  lockDepth : ℕ := 0
  lockRow : Option LockRow := none
  nextToken : ℕ := 0
  drawn : List String
  clock : Millis
  tasks : List Task := []
  log : List Operation := []
  recorded : List EscalationRecord := []

/-- An engine before its first call. -/
def Engine.start (stored : List ScheduleEntry) (clock : Millis) : Engine where
  stored := stored
  heap := [[]]
  entries := 0
  drawn := stored.map (·.id)
  clock := clock

namespace Engine

/-- `this.entries`. -/
def current (s : Engine) : List ScheduleEntry := (s.heap[s.entries]?).getD []

/-- `this.entries = entries` for a new array. -/
def assign (s : Engine) (entries : List ScheduleEntry) : Engine :=
  { s with
    heap := s.heap ++ [entries]
    entries := s.heap.length }

/-- An update of `this.entries`. -/
def update (s : Engine) (u : Update) : Engine :=
  let s' := { s with heap := s.heap.set s.entries u.array }
  match u.fresh with
  | none => s'
  | some entries => s'.assign entries

/-- The end of `withLock`. -/
def release (s : Engine) (held : Option ℕ) : Engine :=
  match held with
  | none => s
  | some token =>
    { s with
      lockDepth := s.lockDepth - 1
      lockRow := s.lockRow.filter fun row => row.token ≠ token }

/-- What has been carried out of a section, when it has come to its end. -/
def finishes (s : Engine) (sec : Section) (inputs : List (Reading × Reply)) : Engine :=
  { s with log := s.log ++ [⟨sec, inputs⟩] }

/-- Writing the saved array to the database. -/
def write (s : Engine) (frame : Frame) (sec : Section) (save : Save) : Engine :=
  let stored := (s.heap[save.array]?).getD []
  let s' :=
    { s with
      stored := stored
      entries := save.array }
  let s' :=
    match save.next with
    | some (.escalationSaved _ record) => { s' with recorded := s'.recorded ++ [record] }
    | _ => s'
  if save.next.all Local.settled then s'.finishes sec (frame.inputs ++ [save.input]) else s'

end Engine

/-! ## Steps -/

def scheduleLockTimeoutMs : Millis := 5000

def scheduleLockLeaseMs : Millis := 30000

/-- How an attempt to acquire the lock ends. -/
inductive Attempt
  | acquired
  | again
  | timeout

/-- An attempt of `acquireScheduleStoreLock`. -/
def attempt (s : Engine) (now startedAt : Millis) (token : ℕ) : Engine × Attempt :=
  let row := s.lockRow.filter fun row => now < row.leaseUntil
  if row.isNone then
    ({ s with lockRow := some ⟨token, now + scheduleLockLeaseMs⟩ }, .acquired)
  else ({ s with lockRow := row }, if scheduleLockTimeoutMs ≤ now - startedAt then .timeout else .again)

/-- Entering `withLock`. -/
def enter (s : Engine) (held : Option ℕ) : Engine × Phase :=
  ({ s with lockDepth := if held.isSome then s.lockDepth + 1 else s.lockDepth },
    .reading { held, previous := s.entries })

/-- `saveEntries` on the current array. -/
def beginSave (s : Engine) (frame : Frame) (input : Reading × Reply) (next : Option Local) :
    Engine × Phase :=
  let save : Save := { array := s.entries, input, next }
  if 0 < s.lockDepth then (s, .writing frame save)
  else
    ({ s with nextToken := s.nextToken + 1 },
      .acquiringSave frame save input.1.now s.nextToken)

/-- How a step of a section ends. -/
inductive Progress
  | phase (phase : Phase)
  | answer (answer : Answer)
  | failed

/-- An exception inside the lock: a mutation puts the array before it back. -/
def fail (s : Engine) (sec : Section) (frame : Frame) : Engine × Progress :=
  let s' := s.finishes sec frame.inputs
  let s' := if sec.isMutation then { s' with entries := frame.previous } else s'
  (s'.release frame.held, .failed)

section

variable (nextCron : NextCron)

/-- One stretch of a section. -/
def stepWork (s : Engine) (sec : Section) (frame : Frame) (l : Local) (r : Reading)
    (reply : Reply) : Option (Engine × Progress) :=
  match work nextCron sec l r reply s.current with
  | .error .impossible => none
  | .error .throws => some (fail s sec frame)
  | .ok (u, .await next) =>
    some (s.update u, .phase (.working { frame with inputs := frame.inputs ++ [(r, reply)] } next))
  | .ok (u, .save next) =>
    let (s', phase) := beginSave (s.update u) frame (r, reply) (some next)
    some (s', .phase phase)
  | .ok (u, .done answer) =>
    if sec.isMutation then some (s.update u, .phase (.mutated frame (r, reply)))
    else
      let s' := s.update u
      some (if l.settled then s' else s'.finishes sec (frame.inputs ++ [(r, reply)]),
        .phase (.leaving frame answer))

/-- One step of a section. -/
def stepSection (s : Engine) (sec : Section) (phase : Phase) (r : Reading) (reply : Reply) :
    Option (Engine × Progress) :=
  match phase with
  | .calling =>
    if 0 < s.lockDepth then
      let (s', phase') := enter s none
      some (s', .phase phase')
    else
      some ({ s with nextToken := s.nextToken + 1 }, .phase (.acquiring r.now s.nextToken))
  | .acquiring startedAt token =>
    match attempt s r.now startedAt token with
    | (s', .acquired) => some (s', .phase (.acquired token))
    | (s', .again) => some (s', .phase (.acquiring startedAt token))
    | (s', .timeout) => some (s', .failed)
  | .acquired token =>
    let (s', phase') := enter s (some token)
    some (s', .phase phase')
  | .reading frame =>
    match sec with
    | .loadEntries => some (s, .phase (.leaving frame (.loaded s.stored)))
    | _ => some (s, .phase (.assigning frame s.stored))
  | .assigning frame loaded => some (s.assign loaded, .phase (.working frame .start))
  | .working frame l => stepWork nextCron s sec frame l r reply
  | .mutated frame input =>
    let (s', phase') := beginSave s frame input none
    some (s', .phase phase')
  | .acquiringSave frame save startedAt token =>
    match attempt s r.now startedAt token with
    | (s', .acquired) => some (s', .phase (.acquiredSave frame save token))
    | (s', .again) => some (s', .phase (.acquiringSave frame save startedAt token))
    | (s', .timeout) => some (fail s' sec frame)
  | .acquiredSave frame save token =>
    some ({ s with lockDepth := s.lockDepth + 1 },
      .phase (.writing frame { save with held := some token }))
  | .writing frame save =>
    some (s.write frame sec save,
      .phase (.projecting { frame with inputs := frame.inputs ++ [save.input] } save))
  | .projecting frame save =>
    let s' := s.release save.held
    match save.next with
    | some l => some (s', .phase (.working frame l))
    | none => some (s', .phase (.leaving frame .unit))
  | .leaving frame answer => some (s.release frame.held, .answer answer)

end

/-- The next due entry of a tick. -/
def nextDue : List DueEntryDescriptor → Task
  | [] => .finished
  | descriptor :: due => .executing
    { entry := descriptor.entry
      scheduledFor := descriptor.scheduledFor
      role := .due
      rest := .tick due }

/-- The entry that is executed at once. -/
def immediate (entry : ScheduleEntry) (now : Millis) (role : Role) (rest : Rest) : Task :=
  .executing
    { entry :=
        { entry with
          enabled := true
          nextFireAt := now }
      scheduledFor := some now
      role
      rest }

/-- How a call goes on with the answer of its section. -/
def proceed (cont : Cont) (answer : Answer) (now : Millis) : Task :=
  match cont, answer with
  | .load, .loaded entries => .assigningLoaded entries
  | .tick, .due descriptors => nextDue descriptors
  | .manual options, .found (some entry) => immediate entry now (.manual options) .manual
  | .target rest, .found (some entry) => immediate entry now .target rest
  | .target rest, .found none => .recordingHistory rest
  | .outcome execution result, .applied updated =>
    if updated.isSome ∧ execution.role.checksEscalation = true ∧ result.isFailure = true then
      .inSection (.checkEscalation execution.entry.id) .calling (.escalation execution.rest)
    else .recordingHistory execution.rest
  | .escalation rest, .escalated (some entry) =>
    match entry.escalation with
    | some policy => .escalating policy rest
    | none => .recordingHistory rest
  | .escalation rest, .escalated none => .recordingHistory rest
  | _, _ => .finished

section

variable (nextCron : NextCron)

/-- One step of a call. -/
def stepTask (s : Engine) (task : Task) (r : Reading) (reply : Reply) : Option (Engine × Task) :=
  match task with
  | .inSection sec phase cont =>
    match stepSection nextCron s sec phase r reply with
    | none => none
    | some (s', .phase phase') => some (s', .inSection sec phase' cont)
    | some (s', .answer answer) => some (s', proceed cont answer r.now)
    | some (s', .failed) => some (s', .finished)
  | .assigningLoaded entries => some (s.assign entries, .finished)
  | .executing execution =>
    match reply with
    | .executed result =>
      let sideEffects :=
        if execution.entry.layer = .probe then
          captureExecutionSideEffects execution.entry.id s.current
        else none
      some (s, .inSection (.applyOutcome execution result sideEffects) .calling
        (.outcome execution result))
    | .baseline value windowSize =>
      if execution.entry.layer = .probe then
        some (s.update { array := updateBaseline execution.entry.id value windowSize s.current },
          task)
      else none
    | .rejected _ => some (s, .finished)
    | _ => none
  | .escalating policy rest =>
    match truthy policy.targetEntryId with
    | some id => some (s, .inSection (.findEntry id) .calling (.target rest))
    | none => some (s, .recordingHistory rest)
  | .recordingHistory rest =>
    match rest with
    | .tick due => some (s, nextDue due)
    | .manual => some (s, .finished)
  | .finished => none

/-- The calls of the engine. -/
inductive Request
  | addEntry (input : EntryInput)
  | updateEntry (id : String) (patch : UpdateInput)
  | removeEntry (id : String)
  | syncExternalSources (sourceIds : List String)
  | loadEntries
  | tick
  | runEntryNow (id : String) (options : RunNowOptions)

def Request.task : Request → Task
  | addEntry input => .inSection (.addEntry input) .calling .ret
  | updateEntry id patch => .inSection (.updateEntry id patch) .calling .ret
  | removeEntry id => .inSection (.removeEntry id) .calling .ret
  | syncExternalSources sourceIds => .inSection (.syncExternalSources sourceIds) .calling .ret
  | loadEntries => .inSection .loadEntries .calling .load
  | tick => .inSection .tick .calling .tick
  | runEntryNow id options => .inSection (.findEntry id) .calling (.manual options)

inductive Event
  | call (request : Request)
  | resume (i : ℕ) (r : Reading) (reply : Reply)

/-- New ids that were never drawn before. -/
def FreshIds (s : Engine) (uuids : List String) : Prop :=
  uuids.Nodup ∧ ∀ uuid ∈ uuids, uuid ∉ s.drawn

instance (s : Engine) (uuids : List String) : Decidable (FreshIds s uuids) :=
  inferInstanceAs (Decidable (_ ∧ _))

/-- One step of the engine: a call is made, or a call goes on to its next `await`. -/
def step (s : Engine) : Event → Option Engine
  | .call request => some { s with tasks := s.tasks ++ [request.task] }
  | .resume i r reply =>
    if FreshIds s r.uuids then
      match s.tasks[i]? with
      | none => none
      | some task =>
        match stepTask nextCron s task r reply with
        | none => none
        | some (s', task') => some
          { s' with
            drawn := s.drawn ++ r.uuids
            clock := r.now
            tasks := s.tasks.set i task' }
    else none

end

end Schedule

end PulSeed
