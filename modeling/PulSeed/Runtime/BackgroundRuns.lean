import PulSeed.Lib.LoadSave

/-!
# Background runs (`runtime/store/background-run-store.ts`)

The ledger keeps one record for each background run. A notification about a run loads the
record, changes the fields it is about and saves the whole record in a later step; `create`
saves a new record over whatever is stored. Calls overlap in any order.

A run is `Finished` when its status is terminal, and `Consistent` when it has a completion
time exactly then.

- `update`: what each call saves of what it loaded.
- `Saving`: the condition on a save under which a finished run stays finished.
- `stays_finished_iff`: **a finished run stays finished in every state of a run of the ledger,
  and its record consistent, exactly when every save meets the condition.**
-/

namespace PulSeed.BackgroundRuns

/-- `BackgroundRunKindSchema`. -/
inductive Kind
  | agent_run | coreloop_run | process_run
  deriving DecidableEq

/-- `BackgroundRunStatusSchema`. -/
inductive Status
  | queued | running | succeeded | failed | timed_out | cancelled | lost | unknown
  deriving DecidableEq

/-- `BackgroundRunTerminalStatus`. -/
def Status.isTerminal : Status → Bool
  | .succeeded | .failed | .timed_out | .cancelled | .lost => true
  | .queued | .running | .unknown => false

/-- The `notify_policy` of a run. -/
inductive NotifyPolicy
  | silent | done_only | state_changes
  deriving DecidableEq

/-- `BackgroundRunReplyTargetSourceSchema`. -/
inductive ReplyTargetSource
  | pinned_run | parent_session | none
  deriving DecidableEq

/-- The status that a run may be created with. -/
inductive InitialStatus
  | queued | running
  deriving DecidableEq

def InitialStatus.toStatus : InitialStatus → Status
  | .queued => .queued
  | .running => .running

/-- A status with which `terminal` is called: a terminal status or a key of
`TERMINAL_STATUS_ALIASES`. -/
inductive TerminalStatus
  | succeeded | failed | timed_out | cancelled | lost
  | success | completed | complete | error | timeout | timedout | canceled | cancel | missing
  deriving DecidableEq

/-- `normalizeTerminalStatus`. -/
def normalizeTerminalStatus : TerminalStatus → Status
  | .succeeded | .success | .completed | .complete => .succeeded
  | .failed | .error => .failed
  | .timed_out | .timeout | .timedout => .timed_out
  | .cancelled | .canceled | .cancel => .cancelled
  | .lost | .missing => .lost

section Ledger

/- What the ledger only passes on: reply targets, artifacts, source references and metadata. -/
variable {T A R M : Type}

variable (T A R M) in
/-- `BackgroundRunSchema`. -/
structure BackgroundRun where
  id : String
  kind : Kind
  parent_session_id : Option String
  child_session_id : Option String
  process_session_id : Option String
  goal_id : Option String
  status : Status
  notify_policy : NotifyPolicy
  reply_target_source : ReplyTargetSource
  pinned_reply_target : Option T
  title : Option String
  workspace : Option String
  created_at : Option String
  started_at : Option String
  updated_at : Option String
  completed_at : Option String
  summary : Option String
  error : Option String
  artifacts : List A
  source_refs : List R
  origin_metadata : Option M

variable (T A R M) in
/-- `BackgroundRunCreateInput`. -/
structure CreateInput where
  kind : Kind
  notify_policy : Option NotifyPolicy := none
  reply_target_source : Option ReplyTargetSource := none
  pinned_reply_target : Option T := none
  parent_session_id : Option String := none
  child_session_id : Option String := none
  process_session_id : Option String := none
  goal_id : Option String := none
  status : Option InitialStatus := none
  title : Option String := none
  workspace : Option String := none
  created_at : Option String := none
  started_at : Option String := none
  updated_at : Option String := none
  summary : Option String := none
  error : Option String := none
  artifacts : Option (List A) := none
  source_refs : Option (List R) := none
  origin_metadata : Option M := none

variable (R) in
/-- `BackgroundRunLinkInput`. -/
structure LinkInput where
  parent_session_id : Option String := none
  child_session_id : Option String := none
  process_session_id : Option String := none
  updated_at : Option String := none
  source_refs : Option (List R) := none

variable (R) in
/-- `BackgroundRunStartedInput`. -/
structure StartedInput where
  started_at : Option String := none
  updated_at : Option String := none
  process_session_id : Option String := none
  child_session_id : Option String := none
  source_refs : Option (List R) := none

variable (R) in
/-- `BackgroundRunQueuedInput`. The inner `Option` of a field that `queued` may clear is `null`,
the outer one `undefined`. -/
structure QueuedInput where
  updated_at : Option String := none
  process_session_id : Option (Option String) := none
  child_session_id : Option (Option String) := none
  summary : Option (Option String) := none
  error : Option (Option String) := none
  source_refs : Option (List R) := none

variable (A R) in
/-- `BackgroundRunTerminalInput`. -/
structure TerminalInput where
  status : TerminalStatus
  completed_at : Option String := none
  updated_at : Option String := none
  summary : Option String := none
  error : Option String := none
  artifacts : Option (List A) := none
  source_refs : Option (List R) := none

variable (T A R M) in
/-- The calls about a run. `now` is `new Date().toISOString()` where the call reads it. -/
inductive Call
  | create (input : CreateInput T A R M) (now : String)
  | link (input : LinkInput R)
  | started (input : StartedInput R) (now : String)
  | queued (input : QueuedInput R) (now : String)
  | terminal (input : TerminalInput A R) (now : String)

/-- What a call throws. -/
inductive LedgerError
  | doesNotExist | pinsNothing | pinsWithoutSource | requiresPinned
  deriving DecidableEq

/-- `validateBackgroundRunLedgerRecord`. -/
def validateBackgroundRunLedgerRecord (run : BackgroundRun T A R M) :
    Except LedgerError (BackgroundRun T A R M) :=
  if run.reply_target_source = .pinned_run ∧ run.pinned_reply_target.isNone then
    .error .pinsNothing
  else if run.reply_target_source ≠ .pinned_run ∧ run.pinned_reply_target.isSome then
    .error .pinsWithoutSource
  else if run.notify_policy ≠ .silent ∧ run.reply_target_source ≠ .pinned_run then
    .error .requiresPinned
  else .ok run

/-- The record that `create` saves. -/
def CreateInput.record (runId : String) (input : CreateInput T A R M) (now : String) :
    BackgroundRun T A R M :=
  let createdAt := (input.created_at.or input.updated_at).getD now
  { id := runId
    kind := input.kind
    parent_session_id := input.parent_session_id
    child_session_id := input.child_session_id
    process_session_id := input.process_session_id
    goal_id := input.goal_id
    status := (input.status.getD .queued).toStatus
    notify_policy := input.notify_policy.getD .done_only
    reply_target_source := input.reply_target_source.getD
      (if input.pinned_reply_target.isSome then .pinned_run else .none)
    pinned_reply_target := input.pinned_reply_target
    title := input.title
    workspace := input.workspace
    created_at := some createdAt
    started_at := input.started_at
    updated_at := some (input.updated_at.getD createdAt)
    completed_at := none
    summary := input.summary
    error := input.error
    artifacts := input.artifacts.getD []
    source_refs := input.source_refs.getD []
    origin_metadata := input.origin_metadata }

/-- The updater of `link`. -/
def BackgroundRun.link (run : BackgroundRun T A R M) (input : LinkInput R) :
    BackgroundRun T A R M :=
  { run with
    parent_session_id := input.parent_session_id.or run.parent_session_id
    child_session_id := input.child_session_id.or run.child_session_id
    process_session_id := input.process_session_id.or run.process_session_id
    updated_at := input.updated_at.or run.updated_at
    source_refs := input.source_refs.getD run.source_refs }

/-- The updater of `started`. The completion time stays as it was. -/
def BackgroundRun.started (run : BackgroundRun T A R M) (input : StartedInput R) (now : String) :
    BackgroundRun T A R M :=
  let updatedAt := (input.updated_at.or input.started_at).getD now
  { run with
    status := .running
    started_at := some ((input.started_at.or run.started_at).getD updatedAt)
    updated_at := some updatedAt
    process_session_id := input.process_session_id.or run.process_session_id
    child_session_id := input.child_session_id.or run.child_session_id
    source_refs := input.source_refs.getD run.source_refs }

/-- The updater of `queued`. -/
def BackgroundRun.queued (run : BackgroundRun T A R M) (input : QueuedInput R) (now : String) :
    BackgroundRun T A R M :=
  { run with
    status := .queued
    updated_at := some (input.updated_at.getD now)
    completed_at := none
    process_session_id := input.process_session_id.getD run.process_session_id
    child_session_id := input.child_session_id.getD run.child_session_id
    summary := input.summary.getD run.summary
    error := input.error.getD run.error
    source_refs := input.source_refs.getD run.source_refs }

/-- The updater of `terminal`. -/
def BackgroundRun.terminal (run : BackgroundRun T A R M) (input : TerminalInput A R)
    (now : String) : BackgroundRun T A R M :=
  let completedAt := (input.completed_at.or input.updated_at).getD now
  { run with
    status := normalizeTerminalStatus input.status
    completed_at := some completedAt
    updated_at := some (input.updated_at.getD completedAt)
    summary := input.summary.or run.summary
    error := input.error.or run.error
    artifacts := input.artifacts.getD run.artifacts
    source_refs := input.source_refs.getD run.source_refs }

/-- `BackgroundRunLedger.update`: what a call saves of the record it loaded. -/
def updateWith (updater : BackgroundRun T A R M → BackgroundRun T A R M)
    (existing : Option (BackgroundRun T A R M)) : Except LedgerError (BackgroundRun T A R M) :=
  match existing with
  | none => .error .doesNotExist
  | some run => validateBackgroundRunLedgerRecord (updater run)

/-- What each call saves of the record it loaded; `create` does not look at one. -/
def update (runId : String) : Call T A R M → Option (BackgroundRun T A R M) →
    Except LedgerError (Option (BackgroundRun T A R M))
  | .create input now, _ => some <$> validateBackgroundRunLedgerRecord (input.record runId now)
  | .link input, loaded => some <$> updateWith (·.link input) loaded
  | .started input now, loaded => some <$> updateWith (·.started input now) loaded
  | .queued input now, loaded => some <$> updateWith (·.queued input now) loaded
  | .terminal input now, loaded => some <$> updateWith (·.terminal input now) loaded

/-- The calls about one run of the ledger. -/
def ledger (runId : String) :
    LTS (LoadSave.State (Call T A R M) (Option (BackgroundRun T A R M)))
      (LoadSave.Event (Call T A R M)) :=
  LoadSave.system (update runId)

/-! ## Finished runs -/

/-- The stored run has a terminal status. -/
def Finished (stored : Option (BackgroundRun T A R M)) : Prop :=
  stored.any (·.status.isTerminal) = true

/-- The stored run has a completion time. -/
def Completed (stored : Option (BackgroundRun T A R M)) : Prop :=
  stored.any (·.completed_at.isSome) = true

instance (stored : Option (BackgroundRun T A R M)) : Decidable (Finished stored) :=
  inferInstanceAs (Decidable (_ = _))

/-- The stored run has a completion time exactly when it is finished. -/
def Consistent (stored : Option (BackgroundRun T A R M)) : Prop :=
  Completed stored ↔ Finished stored

variable (runId : String)

/-- A save after which a finished run is no longer finished is that of a `queued` call. -/
def LeftByQueued (m : LoadSave.State (Call T A R M) (Option (BackgroundRun T A R M))) :
    LoadSave.Event (Call T A R M) → Prop
  | .load _ => True
  | .save n => ∀ call loaded saved, LoadSave.Saves (update runId) m n call loaded saved →
      Finished m.stored → ¬ Finished saved → ∃ input now, call = .queued input now

/-- **A finished run stays finished**: its record is consistent in every state, and it is left
only by `queued` calls, so that no save of `create`, `link` or `started` makes it run again. -/
structure StaysFinished (events : List (LoadSave.Event (Call T A R M))) : Prop where
  consistent : (ledger runId).Throughout { stored := none } events fun m => Consistent m.stored
  left : (ledger runId).Always { stored := none } events (LeftByQueued runId)

/-- The saves that keep a finished run finished: no run is finished when `create` and `started`
save, and `started` did not load a finished one; what `link` saves over a finished run was
finished when it was loaded. -/
def Keeps (stored loaded : Option (BackgroundRun T A R M)) : Call T A R M → Prop
  | .create _ _ => ¬ Finished stored
  | .link _ => Finished stored → Finished loaded
  | .started _ _ => ¬ Finished stored ∧ ¬ Finished loaded
  | .queued _ _ => True
  | .terminal _ _ => True

instance Keeps.decidable (stored loaded : Option (BackgroundRun T A R M)) :
    (call : Call T A R M) → Decidable (Keeps stored loaded call)
  | .create _ _ => inferInstanceAs (Decidable (¬ _))
  | .link _ => inferInstanceAs (Decidable (_ → _))
  | .started _ _ => inferInstanceAs (Decidable (_ ∧ _))
  | .queued _ _ => instDecidableTrue
  | .terminal _ _ => instDecidableTrue

/-- What `Saving` says of the call that saves. -/
def JobKeeps (stored : Option (BackgroundRun T A R M)) :
    Option (Call T A R M × Option (BackgroundRun T A R M)) → Prop
  | none => True
  | some (call, loaded) => (update runId call loaded).isOk = true → Keeps stored loaded call

instance JobKeeps.decidable (stored : Option (BackgroundRun T A R M)) :
    (job : Option (Call T A R M × Option (BackgroundRun T A R M))) →
      Decidable (JobKeeps runId stored job)
  | none => instDecidableTrue
  | some _ => inferInstanceAs (Decidable (_ → _))

/-- The condition on a step: a call that saves keeps a finished run finished. -/
def Saving (m : LoadSave.State (Call T A R M) (Option (BackgroundRun T A R M))) :
    LoadSave.Event (Call T A R M) → Prop
  | .load _ => True
  | .save n => JobKeeps runId m.stored m.pending[n]?

instance Saving.decidable (m : LoadSave.State (Call T A R M) (Option (BackgroundRun T A R M))) :
    (event : LoadSave.Event (Call T A R M)) → Decidable (Saving runId m event)
  | .load _ => instDecidableTrue
  | .save n => JobKeeps.decidable runId m.stored m.pending[n]?

variable {runId}

theorem validate_eq_ok {run saved : BackgroundRun T A R M}
    (h : validateBackgroundRunLedgerRecord run = .ok saved) : saved = run := by
  unfold validateBackgroundRunLedgerRecord at h
  split at h
  · cases h
  split at h
  · cases h
  split at h
  · cases h
  · exact (Except.ok.inj h).symm

theorem map_validate_eq_ok {run : BackgroundRun T A R M}
    {saved : Option (BackgroundRun T A R M)}
    (h : some <$> validateBackgroundRunLedgerRecord run = .ok saved) : saved = some run := by
  cases hvalid : validateBackgroundRunLedgerRecord run with
  | error e =>
    rw [hvalid] at h
    cases h
  | ok run' =>
    rw [hvalid] at h
    rw [← validate_eq_ok hvalid]
    exact (Except.ok.inj h).symm

theorem updateWith_eq_ok {updater : BackgroundRun T A R M → BackgroundRun T A R M}
    {loaded saved : Option (BackgroundRun T A R M)}
    (h : some <$> updateWith updater loaded = .ok saved) :
    ∃ run, loaded = some run ∧ saved = some (updater run) := by
  cases loaded with
  | none => cases h
  | some run => exact ⟨run, rfl, map_validate_eq_ok h⟩

/-- **What a save leaves**: whether the run is then finished, and whether it has a completion
time, depends on what was loaded only for `link` and, in its completion time, for `started`. -/
theorem saved_cases {call : Call T A R M} {loaded saved : Option (BackgroundRun T A R M)}
    (h : update runId call loaded = .ok saved) :
    match call with
    | .create _ _ => ¬ Finished saved ∧ ¬ Completed saved
    | .link _ => (Finished saved ↔ Finished loaded) ∧ (Completed saved ↔ Completed loaded)
    | .started _ _ => ¬ Finished saved ∧ (Completed saved ↔ Completed loaded)
    | .queued _ _ => ¬ Finished saved ∧ ¬ Completed saved
    | .terminal _ _ => Finished saved ∧ Completed saved := by
  cases call with
  | create input now =>
    obtain rfl := map_validate_eq_ok h
    refine ⟨?_, nofun⟩
    rcases hstatus : input.status with _ | _ | _ <;>
      simp [Finished, CreateInput.record, hstatus, InitialStatus.toStatus, Status.isTerminal]
  | link input =>
    obtain ⟨run, rfl, rfl⟩ := updateWith_eq_ok h
    exact ⟨Iff.rfl, Iff.rfl⟩
  | started input now =>
    obtain ⟨run, rfl, rfl⟩ := updateWith_eq_ok h
    exact ⟨nofun, Iff.rfl⟩
  | queued input now =>
    obtain ⟨run, rfl, rfl⟩ := updateWith_eq_ok h
    exact ⟨nofun, nofun⟩
  | terminal input now =>
    obtain ⟨run, rfl, rfl⟩ := updateWith_eq_ok h
    refine ⟨?_, rfl⟩
    cases hstatus : input.status <;>
      simp [Finished, BackgroundRun.terminal, hstatus, normalizeTerminalStatus,
        Status.isTerminal]

/-- A save meets the condition exactly when it leaves a consistent record and leaves a finished
run finished, `queued` calls apart. -/
theorem keeps_iff {call : Call T A R M} {stored loaded saved : Option (BackgroundRun T A R M)}
    (hloaded : Consistent loaded) (h : update runId call loaded = .ok saved) :
    (Consistent saved ∧
      (Finished stored → ¬ Finished saved → ∃ input now, call = .queued input now)) ↔
      Keeps stored loaded call := by
  have hcases := saved_cases h
  unfold Consistent at hloaded ⊢
  cases call with
  | create input now =>
    dsimp only at hcases
    simp [Keeps, hcases]
  | link input =>
    dsimp only at hcases
    simp [Keeps, hcases, hloaded]
  | started input now =>
    dsimp only at hcases
    simp [Keeps, hcases, hloaded]
    tauto
  | queued input now =>
    dsimp only at hcases
    simp [Keeps, hcases]
  | terminal input now =>
    dsimp only at hcases
    simp [Keeps, hcases]

/-- What is loaded is consistent, in a state with a consistent record and consistent loads. -/
theorem step_loaded {m m' : LoadSave.State (Call T A R M) (Option (BackgroundRun T A R M))}
    {event : LoadSave.Event (Call T A R M)} (hstep : LoadSave.step (update runId) m event = some m')
    (hloaded : ∀ job ∈ m.pending, Consistent job.2) (hstored : Consistent m.stored) :
    ∀ job ∈ m'.pending, Consistent job.2 := by
  cases event with
  | load call =>
    obtain rfl := Option.some.inj hstep
    intro job hjob
    rcases List.mem_append.mp hjob with hjob | hjob
    · exact hloaded job hjob
    · obtain rfl := List.mem_singleton.mp hjob
      exact hstored
  | save n =>
    unfold LoadSave.step at hstep
    dsimp only at hstep
    split at hstep
    · cases hstep
    · obtain rfl := Option.some.inj hstep
      exact fun job hjob => hloaded job (List.mem_of_mem_eraseIdx hjob)

/-- A step from a consistent record keeps it consistent, and a finished run finished, exactly
when it meets the condition. -/
theorem saving_iff {m m' : LoadSave.State (Call T A R M) (Option (BackgroundRun T A R M))}
    {event : LoadSave.Event (Call T A R M)} (hstep : LoadSave.step (update runId) m event = some m')
    (hloaded : ∀ job ∈ m.pending, Consistent job.2) (hstored : Consistent m.stored) :
    (Consistent m'.stored ∧ LeftByQueued runId m event) ↔ Saving runId m event := by
  cases event with
  | load call =>
    obtain rfl := Option.some.inj hstep
    exact ⟨fun _ => trivial, fun _ => ⟨hstored, trivial⟩⟩
  | save n =>
    unfold LoadSave.step at hstep
    dsimp only at hstep
    unfold LeftByQueued Saving LoadSave.Saves
    dsimp only
    cases hjob : m.pending[n]? with
    | none =>
      rw [hjob] at hstep
      cases hstep
    | some job =>
      obtain ⟨call, loaded⟩ := job
      rw [hjob] at hstep
      obtain rfl := Option.some.inj hstep
      unfold JobKeeps
      cases hupdate : update runId call loaded with
      | error e =>
        refine ⟨fun _ hok => by simp [hupdate, Except.isOk, Except.toBool] at hok, fun _ => ⟨?_, ?_⟩⟩
        · simpa [hupdate, Except.toOption] using hstored
        · rintro call' loaded' saved' ⟨hjob', hupdate'⟩
          cases hjob'
          rw [hupdate] at hupdate'
          cases hupdate'
      | ok saved =>
        have hkeeps : (Consistent saved ∧ (Finished m.stored → ¬ Finished saved →
            ∃ input now, call = .queued input now)) ↔ Keeps m.stored loaded call :=
          keeps_iff (hloaded _ (List.mem_of_getElem? hjob)) hupdate
        simp only [hupdate, Except.toOption, Except.isOk, Except.toBool, Option.getD_some,
          forall_const]
        rw [← hkeeps]
        refine and_congr Iff.rfl ⟨fun hleft => hleft call loaded saved ⟨rfl, hupdate⟩, ?_⟩
        rintro hleft call' loaded' saved' ⟨hjob', hupdate'⟩
        cases hjob'
        rw [hupdate] at hupdate'
        cases hupdate'
        exact hleft

/-- **A finished run stays finished** in every state of a run of the ledger, and its record
consistent, exactly when every save of a step meets the condition. -/
theorem stays_finished_iff {events : List (LoadSave.Event (Call T A R M))}
    {m : LoadSave.State (Call T A R M) (Option (BackgroundRun T A R M))}
    (hrun : (ledger runId).Run { stored := none } events m) :
    StaysFinished runId events ↔
      (ledger runId).Always { stored := none } events (Saving runId) := by
  have hiff := hrun.throughout_and_always_iff (J := fun m => ∀ job ∈ m.pending, Consistent job.2)
    (P := fun m => Consistent m.stored) (fun _ h => nomatch h) ⟨nofun, nofun⟩
    (fun _ _ _ hstep hloaded hstored => step_loaded hstep hloaded hstored)
    fun _ _ _ hstep hloaded hstored => saving_iff hstep hloaded hstored
  exact ⟨fun h => hiff.mp ⟨h.consistent, h.left⟩, fun h => ⟨(hiff.mpr h).1, (hiff.mpr h).2⟩⟩

end Ledger

/-! Sample runs. -/

abbrev SampleCall := Call Unit Unit Unit Unit

def created : SampleCall := .create { kind := .coreloop_run, notify_policy := some .silent } "1"

/-- A run that is started, finishes, is linked to a session, queued again and started while a
link is under way. -/
def notified : List (LoadSave.Event SampleCall) :=
  LoadSave.inTurn [created, .started {} "2", .terminal { status := .complete } "3",
    .link { child_session_id := some "c" }, .queued {} "4"] ++
  [.load (.link { process_session_id := some "p" }), .load (.started {} "5"), .save 1, .save 0]

theorem stays_finished_notified : StaysFinished "r" notified := by
  obtain ⟨m, hm⟩ : ∃ m, LTS.execPartial (LoadSave.step (update "r")) { stored := none } notified =
      some m := Option.isSome_iff_exists.mp (by decide)
  exact (stays_finished_iff (LTS.run_execPartial hm)).mpr
    (LTS.ExecPartialAlways.always (f := LoadSave.step (update "r")) (by decide))

/-- A run whose notice of its start comes after that of its end. -/
def startedLate : List (LoadSave.Event SampleCall) :=
  LoadSave.inTurn [created, .terminal { status := .complete } "3", .started {} "2"]

/-- **A late `started`** turns a finished run into a running one that has a completion time. -/
theorem restarted_late :
    (∃ m, (ledger "r").Run { stored := none } startedLate m) ∧ ¬ StaysFinished "r" startedLate := by
  obtain ⟨m, hm⟩ : ∃ m, LTS.execPartial (LoadSave.step (update "r")) { stored := none }
      startedLate = some m := Option.isSome_iff_exists.mp (by decide)
  have hinconsistent : (LTS.execPartial (LoadSave.step (update "r")) { stored := none }
      startedLate).any (fun m => m.stored.any (·.completed_at.isSome) ∧
        ¬ m.stored.any (·.status.isTerminal)) = true := by decide
  rw [hm] at hinconsistent
  obtain ⟨hcompleted, hfinished⟩ := of_decide_eq_true hinconsistent
  refine ⟨⟨m, LTS.run_execPartial hm⟩, fun hstays => ?_⟩
  have hconsistent := hstays.consistent startedLate [] m (List.append_nil _).symm
    (LTS.run_execPartial hm)
  exact hfinished (hconsistent.mp hcompleted)

end PulSeed.BackgroundRuns
