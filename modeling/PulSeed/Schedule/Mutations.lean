import PulSeed.Schedule.Entry

/-!
# What the schedule engine does to its entries

The operations of `runtime/schedule/engine-mutations.ts` and `engine-execution.ts` on the
array of entries, each as the code does it between two awaits. An `Update` keeps apart what
becomes of the array itself and a new array that takes its place, since other operations
may hold the old one. The clock, random numbers and new ids of such a stretch are its
`Reading`.
-/

namespace PulSeed

namespace Schedule

/-- What the code reads of the world between two awaits: `Date.now`, `Math.random` and
`randomUUID`. -/
structure Reading where
  now : Millis
  random : ℕ → ℚ := fun _ => 1 / 2
  uuids : List String := []

/-- What becomes of the array of entries, and the new array that takes its place. -/
structure Update where
  array : List ScheduleEntry
  fresh : Option (List ScheduleEntry) := none

/-- The entries after an update. -/
def Update.entries (u : Update) : List ScheduleEntry := u.fresh.getD u.array

/-- Why a stretch of code does not go through: it throws, or it is not the one that runs
next, because it needs another reply or more ids than it is given. -/
inductive Stop
  | throws
  | impossible
  deriving DecidableEq

/-- A computation that throws when it has no result. -/
def orThrow {α : Type} : Option α → Except Stop α
  | some a => .ok a
  | none => .error .throws

def nextUuid (uuids : List String) : Except Stop (String × List String) :=
  match uuids with
  | uuid :: rest => .ok (uuid, rest)
  | [] => .error .impossible

/-! ## Mutations -/

/-- `MutableScheduleEntryInput`. -/
structure EntryInput where
  name : String := ""
  layer : ScheduleLayer
  trigger : ScheduleTrigger
  enabled : Bool := true
  metadata : Option Metadata := none
  heartbeat : Option String := none
  probe : Option String := none
  cron : Option String := none
  goalTrigger : Option String := none
  escalation : Option EscalationConfig := none
  retryPolicy : Option RetryPolicy := none
  retryState : Option RetryState := none

/-- A new entry: nothing has been recorded for it. -/
def EntryInput.entry (input : EntryInput) (id : String) (now nextFireAt : Millis) :
    ScheduleEntry where
  id := id
  name := input.name
  layer := input.layer
  trigger := input.trigger
  enabled := input.enabled
  metadata := input.metadata
  heartbeat := input.heartbeat
  probe := input.probe
  cron := input.cron
  goalTrigger := input.goalTrigger
  escalation := input.escalation
  retryPolicy := input.retryPolicy
  retryState := input.retryState
  createdAt := now
  updatedAt := now
  nextFireAt := nextFireAt

/-- `ScheduleEntryUpdateInput`, and whether the schema accepts the entry it leads to. -/
structure UpdateInput where
  name : Option String := none
  enabled : Option Bool := none
  trigger : Option ScheduleTrigger := none
  heartbeat : Option String := none
  probe : Option String := none
  cron : Option String := none
  goalTrigger : Option String := none
  escalation : Option (Option EscalationConfig) := none
  retryPolicy : Option RetryPolicy := none
  parses : Bool := true
  deriving DecidableEq

def UpdateInput.hasUpdatableFields (patch : UpdateInput) : Bool :=
  patch.name.isSome || patch.enabled.isSome || patch.trigger.isSome || patch.heartbeat.isSome ||
    patch.probe.isSome || patch.cron.isSome || patch.goalTrigger.isSome ||
    patch.escalation.isSome || patch.retryPolicy.isSome

/-- The layers for which the patch has a configuration. -/
def UpdateInput.configLayers (patch : UpdateInput) : List ScheduleLayer :=
  (patch.heartbeat.map fun _ => .heartbeat).toList ++ (patch.probe.map fun _ => .probe).toList ++
    (patch.cron.map fun _ => .cron).toList ++ (patch.goalTrigger.map fun _ => .goalTrigger).toList

section

variable (nextCron : NextCron)

/-- `addEntryInMemory`. -/
def addEntryInMemory (input : EntryInput) (r : Reading) (entries : List ScheduleEntry) :
    Except Stop Update :=
  let replayed := (truthy (input.metadata.bind (·.personalAgentReplayKey))).bind fun replayKey =>
    entries.find? fun entry =>
      entry.metadata.bind (·.personalAgentReplayKey) = some replayKey
  match replayed with
  | some _ => .ok { array := entries }
  | none => do
    let (uuid, _) ← nextUuid r.uuids
    let nextFireAt ← orThrow (computeNextFireAt nextCron input.trigger r.now (r.random 0))
    return { array := entries ++ [input.entry uuid r.now nextFireAt] }

/-- The entry that `updateEntry` stores for `current`. -/
def UpdateInput.entry (patch : UpdateInput) (current : ScheduleEntry) (r : Reading) :
    Except Stop ScheduleEntry := do
  let next :=
    { current with
      name := patch.name.getD current.name
      enabled := patch.enabled.getD current.enabled
      trigger := patch.trigger.getD current.trigger
      heartbeat := patch.heartbeat.or current.heartbeat
      probe := patch.probe.or current.probe
      cron := patch.cron.or current.cron
      goalTrigger := patch.goalTrigger.or current.goalTrigger
      retryPolicy := patch.retryPolicy.or current.retryPolicy
      escalation := patch.escalation.getD current.escalation
      updatedAt := r.now }
  if patch.trigger.isSome ∨ current.enabled = false ∧ patch.enabled = some true then
    let nextFireAt ← orThrow (computeNextFireAt nextCron next.trigger r.now (r.random 0))
    return { next with
      nextFireAt := nextFireAt
      retryState := none }
  else return next

/-- The body of `updateEntry`. -/
def updateEntry (id : String) (patch : UpdateInput) (r : Reading)
    (entries : List ScheduleEntry) : Except Stop Update :=
  match entries.findIdx? fun entry => entry.id = id with
  | none => .ok { array := entries }
  | some idx =>
    match entries[idx]? with
    | none => .ok { array := entries }
    | some current =>
      if patch.hasUpdatableFields = false then .error .throws
      else if ∃ layer ∈ patch.configLayers, current.layer ≠ layer then .error .throws
      else do
        let next ← patch.entry nextCron current r
        if patch.parses then return { array := entries, fresh := some (entries.set idx next) }
        else throw .throws

/-- The body of `removeEntry`. -/
def removeEntry (id : String) (entries : List ScheduleEntry) : Update :=
  { array := entries, fresh := some (entries.filter fun e => e.id ≠ id) }

/-! ## External sources -/

/-- `ExternalScheduleEntrySchema`; `config` is the layer's configuration when it parses. -/
structure ExternalScheduleEntry where
  externalId : String
  sourceId : String
  name : String := ""
  layer : ScheduleLayer
  trigger : ScheduleTrigger
  enabled : Bool := true
  config : Option String := none
  note : Option String := none
  deriving DecidableEq

def externalEntryKey (sourceId externalId : String) : String := sourceId ++ ":" ++ externalId

/-- The trigger of an external entry. -/
def ExternalScheduleEntry.entryTrigger (external : ExternalScheduleEntry) : ScheduleTrigger :=
  match external.trigger with
  | .cron expression _ => .cron expression "UTC"
  | .interval seconds _ => .interval seconds 0

/-- `buildExternalScheduleEntryInput`. -/
def buildExternalScheduleEntryInput (external : ExternalScheduleEntry) : Option EntryInput :=
  let base : EntryInput :=
    { name := external.name
      layer := external.layer
      trigger := external.entryTrigger
      enabled := external.enabled
      metadata := some
        { source := .external
          externalSourceId := some external.sourceId
          externalId := some external.externalId
          note := external.note } }
  match external.layer with
  | .heartbeat => external.config.map fun config => { base with heartbeat := some config }
  | .probe => external.config.map fun config => { base with probe := some config }
  | .cron => external.config.map fun config => { base with cron := some config }
  | .goalTrigger => external.config.map fun config => { base with goalTrigger := some config }

/-- `{ ...existing, ...entryInput }` and its next time. -/
def externalCandidate (input : EntryInput) (r : Reading) (existing : ScheduleEntry) :
    Except Stop ScheduleEntry := do
  let nextFireAt ←
    if existing.trigger = input.trigger then pure existing.nextFireAt
    else orThrow (computeNextFireAt nextCron input.trigger r.now (r.random 0))
  return { existing with
    name := input.name
    layer := input.layer
    trigger := input.trigger
    enabled := input.enabled
    metadata := input.metadata
    heartbeat := input.heartbeat.or existing.heartbeat
    probe := input.probe.or existing.probe
    cron := input.cron.or existing.cron
    goalTrigger := input.goalTrigger.or existing.goalTrigger
    nextFireAt := nextFireAt }

/-- What a synchronisation has done so far. -/
structure SyncState where
  seenKeys : List String := []
  reconciledSourceIds : List String := []
  errors : List (String × String) := []
  added : ℕ := 0
  updated : ℕ := 0
  skipped : ℕ := 0

/-- What it has done with the entries fetched from one source. -/
structure SourceState where
  sync : SyncState
  entries : List ScheduleEntry
  uuids : List String
  sourceIds : List String
  hadEntryErrors : Bool := false

def SourceState.skip (acc : SourceState) (sourceId message : String) : SourceState :=
  { acc with
    hadEntryErrors := true
    sync :=
      { acc.sync with
        skipped := acc.sync.skipped + 1
        errors := acc.sync.errors ++ [(sourceId, message)] } }

/-- The entry of an external id. -/
def isExternalEntry (external : ExternalScheduleEntry) (entry : ScheduleEntry) : Bool :=
  entry.metadata.any fun m => m.source = .external ∧
    m.externalSourceId = some external.sourceId ∧ m.externalId = some external.externalId

/-- Adding or updating the entry of an external id. -/
def storeExternal (external : ExternalScheduleEntry) (input : EntryInput) (r : Reading)
    (acc : SourceState) : Except Stop SourceState :=
  match acc.entries.findIdx? (isExternalEntry external) with
  | none => do
    let (uuid, uuids) ← nextUuid acc.uuids
    let nextFireAt ← orThrow (computeNextFireAt nextCron input.trigger r.now (r.random 0))
    return { acc with
      entries := acc.entries ++ [input.entry uuid r.now nextFireAt]
      uuids := uuids
      sync := { acc.sync with added := acc.sync.added + 1 } }
  | some idx =>
    match acc.entries[idx]? with
    | none => .ok acc
    | some existing => do
      let candidate ← externalCandidate nextCron input r existing
      if existing = candidate then return acc
      else return { acc with
        entries := acc.entries.set idx { candidate with updatedAt := r.now }
        sync := { acc.sync with updated := acc.sync.updated + 1 } }

/-- One fetched entry of a source, or the message of its parse error. What is recorded
before an exception stays. -/
def syncEntry (sourceId : String) (r : Reading) (acc : SourceState)
    (raw : Except String ExternalScheduleEntry) : SourceState × Option Stop :=
  match raw with
  | .error message => (acc.skip sourceId message, none)
  | .ok external =>
    let acc := { acc with sourceIds := acc.sourceIds ++ [external.sourceId] }
    match buildExternalScheduleEntryInput external with
    | none =>
      (acc.skip external.sourceId
        ("missing " ++ external.layer.name ++ " config for " ++ external.externalId), none)
    | some input =>
      let key := externalEntryKey external.sourceId external.externalId
      let acc := { acc with sync := { acc.sync with seenKeys := acc.sync.seenKeys ++ [key] } }
      match storeExternal nextCron external input r acc with
      | .ok acc' => (acc', none)
      | .error stop => (acc, some stop)

/-- The fetched entries of a source, up to the first exception. -/
def syncEntries (sourceId : String) (r : Reading) (acc : SourceState) :
    List (Except String ExternalScheduleEntry) → SourceState × Option Stop
  | [] => (acc, none)
  | raw :: raws =>
    match syncEntry nextCron sourceId r acc raw with
    | (acc', none) => syncEntries sourceId r acc' raws
    | stopped => stopped

def SyncState.failed (sync : SyncState) (sourceId message : String) : SyncState :=
  { sync with errors := sync.errors ++ [(sourceId, message)] }

/-- What a source that answered its fetch does to the entries; an exception is recorded as
an error of the source. -/
def syncSource (sourceId : String) (raws : List (Except String ExternalScheduleEntry))
    (r : Reading) (sync : SyncState) (entries : List ScheduleEntry) :
    Except Stop (List ScheduleEntry × SyncState) :=
  match syncEntries nextCron sourceId r
      { sync, entries, uuids := r.uuids, sourceIds := [sourceId] } raws with
  | (acc, none) =>
    .ok (acc.entries, if acc.hadEntryErrors then acc.sync
      else { acc.sync with
        reconciledSourceIds := acc.sync.reconciledSourceIds ++ acc.sourceIds })
  | (acc, some .throws) => .ok (acc.entries, acc.sync.failed sourceId "exception")
  | (_, some .impossible) => .error .impossible

/-- An enabled external entry of a reconciled source that the source no longer has. -/
def isMissing (sync : SyncState) (entry : ScheduleEntry) : Bool :=
  entry.enabled && entry.metadata.any fun m => m.source = .external ∧
    (truthy m.externalSourceId).any (fun sourceId => sourceId ∈ sync.reconciledSourceIds ∧
      externalEntryKey sourceId (m.externalId.getD "") ∉ sync.seenKeys)

/-- The entries with those that are missing disabled. -/
def disableMissing (sync : SyncState) (now : Millis) (entries : List ScheduleEntry) :
    List ScheduleEntry :=
  entries.map fun entry =>
    if isMissing sync entry then
      { entry with
        enabled := false
        updatedAt := now }
    else entry

/-- Whether `syncExternalSources` saves the entries itself. -/
def SyncState.changed (sync : SyncState) (entries : List ScheduleEntry) : Bool :=
  0 < sync.added ∨ 0 < sync.updated ∨ 0 < entries.countP (isMissing sync)

/-! ## Outcomes of executions -/

def addScheduleCounter (current increment : ℕ) : ℕ := min maxSafeInteger (current + increment)

def normalizeRetryPolicy (entry : ScheduleEntry) : RetryPolicy := entry.retryPolicy.getD {}

def classifyFailureKind (result : ScheduleResult) : Option FailureKind :=
  if result.isFailure then some (result.failureKind.getD .transient) else none

/-- `Math.round`. -/
def mathRound (x : ℚ) : ℚ := ⌊x + 1 / 2⌋

def computeRetryDelay (policy : RetryPolicy) (attempt : ℕ) (random : ℚ) : Millis :=
  let baseDelay := policy.initialDelayMs * policy.multiplier ^ (attempt - 1)
  let cappedDelay := min baseDelay policy.maxDelayMs
  if policy.jitterFactor ≤ 0 then cappedDelay
  else max 0 (mathRound
    (cappedDelay + cappedDelay * policy.jitterFactor * (random * 2 - 1)))

/-- The retry that follows an outcome. -/
def nextRetryState (entry : ScheduleEntry) (result : ScheduleResult)
    (scheduledFor : Option Millis) (r : Reading) : Option RetryState :=
  let policy := normalizeRetryPolicy entry
  match classifyFailureKind result with
  | none => none
  | some failureKind =>
    if policy.enabled = true ∧ failureKind ∈ policy.retryableFailureKinds then
      let current := entry.retryState
      let attempts := (current.map (·.attempts)).getD 0 + 1
      let firstFailureAt := (current.bind (·.firstFailureAt)).getD result.firedAt
      let retryScheduledFor := (current.bind (·.scheduledFor)).or
        (scheduledFor.or (entry.lastFiredAt.or (some entry.nextFireAt)))
      if attempts ≤ policy.maxAttempts ∧
          result.firedAt - firstFailureAt ≤ policy.maxRetryWindowMs then
        (date (r.now + computeRetryDelay policy attempts (r.random 0))).map fun retryAt =>
          { attempts
            nextRetryAt := some retryAt
            scheduledFor := retryScheduledFor
            lastAttemptAt := some result.firedAt
            firstFailureAt := some firstFailureAt
            lastFailureKind := some failureKind
            lastErrorMessage := result.errorMessage }
      else none
    else none

/-- The entry after an outcome, before the circuit breaker. -/
def outcomeEntry (entry : ScheduleEntry) (result : ScheduleResult)
    (scheduledFor : Option Millis) (preserveEnabled : Bool) (nextFireAt : Millis) (r : Reading) :
    ScheduleEntry :=
  { entry with
    enabled := if preserveEnabled then entry.enabled else true
    lastFiredAt := some result.firedAt
    nextFireAt := nextFireAt
    updatedAt := r.now
    totalExecutions := addScheduleCounter entry.totalExecutions 1
    totalTokensUsed := addScheduleCounter entry.totalTokensUsed result.tokensUsed
    tokensUsedToday := addScheduleCounter entry.tokensUsedToday result.tokensUsed
    consecutiveFailures :=
      if result.isFailure then addScheduleCounter entry.consecutiveFailures 1 else 0
    retryState := nextRetryState entry result scheduledFor r }

/-- The circuit breaker disables an entry that failed too often in a row. -/
def circuitBreaker (entry : ScheduleEntry) : ScheduleEntry :=
  if entry.escalation.any fun esc => 0 < esc.circuitBreakerThreshold ∧
      esc.circuitBreakerThreshold ≤ entry.consecutiveFailures then
    { entry with enabled := false }
  else entry

/-- `applyExecutionOutcome` up to the report of a failing heartbeat: the entries and the
updated entry; nothing when the entry is gone. -/
def applyExecutionOutcome (entryId : String) (result : ScheduleResult)
    (scheduledFor : Option Millis) (preserveEnabled : Bool) (r : Reading)
    (entries : List ScheduleEntry) :
    Except Stop (Option (List ScheduleEntry × ScheduleEntry)) :=
  match entries.findIdx? fun entry => entry.id = entryId with
  | none => .ok none
  | some idx =>
    match entries[idx]? with
    | none => .ok none
    | some entry => do
      let nextFireAt ← orThrow (computeNextFireAt nextCron entry.trigger r.now (r.random 1))
      let updated :=
        circuitBreaker (outcomeEntry entry result scheduledFor preserveEnabled nextFireAt r)
      return some (entries.set idx updated, updated)

end

/-- `captureExecutionSideEffects`. -/
def captureExecutionSideEffects (entryId : String) (entries : List ScheduleEntry) :
    Option (List String) :=
  (entries.find? fun entry => entry.id = entryId).map (·.baselineResults)

/-- Giving the entry with an id these baseline results. -/
def setBaseline (entryId : String) (baseline : ScheduleEntry → List String)
    (entries : List ScheduleEntry) : List ScheduleEntry :=
  match entries.findIdx? fun entry => entry.id = entryId with
  | none => entries
  | some idx =>
    match entries[idx]? with
    | none => entries
    | some entry => entries.set idx { entry with baselineResults := baseline entry }

/-- `applyExecutionSideEffects`. -/
def applyExecutionSideEffects (entryId : String) (sideEffects : Option (List String))
    (entries : List ScheduleEntry) : List ScheduleEntry :=
  match sideEffects with
  | none => entries
  | some baseline => setBaseline entryId (fun _ => baseline) entries

/-- `updateBaseline` of `executeProbe`: the new value, and the last `windowSize` kept. -/
def updateBaseline (entryId : String) (value : String) (windowSize : ℕ)
    (entries : List ScheduleEntry) : List ScheduleEntry :=
  setBaseline entryId (fun entry =>
    let updated := entry.baselineResults ++ [value]
    updated.drop (updated.length - windowSize)) entries

/-! ## Escalations -/

/-- `checkEscalation` on the entry: what it becomes when the escalation is recorded. -/
def escalate (now : Millis) (current : ScheduleEntry) : Option (ScheduleEntry × EscalationConfig) :=
  current.escalation.bind fun esc =>
    if esc.enabled = false then none
    else if ∃ lastEsc ∈ current.lastEscalationAt, now - lastEsc < esc.cooldownMinutes * 60 * 1000
    then none
    else
      let hourAgo := now - 60 * 60 * 1000
      let recentTimestamps := current.escalationTimestamps.filter fun ts => hourAgo < ts
      if esc.maxPerHour ≤ recentTimestamps.length then none
      else some
        ({ current with
           lastEscalationAt := some now
           escalationTimestamps := recentTimestamps ++ [now] }, esc)

/-! ## Budgets -/

def needsBudgetReset (now : Millis) (entry : ScheduleEntry) : Bool :=
  entry.budgetResetAt.all fun at_ => at_ ≤ now

/-- The daily budgets that have run out, started again. -/
def resetBudgets (now : Millis) (entries : List ScheduleEntry) : List ScheduleEntry :=
  entries.map fun entry =>
    if needsBudgetReset now entry then
      { entry with
        tokensUsedToday := 0
        budgetResetAt := some (now + 24 * 60 * 60 * 1000) }
    else entry

end Schedule

end PulSeed
