import Mathlib.Algebra.Order.Floor.Ring
import Mathlib.Data.Rat.Floor
import PulSeed.Runtime.Envelope

/-!
# Schedule entries (`runtime/types/schedule.ts`)

The entries of the schedule engine, what an execution returns, and the time an entry
fires next. Points in time are milliseconds. The configurations of the layers and the
members of the metadata that no operation reads are kept as their JSON texts, so that two
entries are equal exactly when their JSON texts are.
-/

namespace PulSeed

namespace Schedule

/-- `ScheduleLayerSchema`. -/
inductive ScheduleLayer
  | heartbeat | probe | cron | goalTrigger
  deriving DecidableEq, Repr

def ScheduleLayer.name : ScheduleLayer → String
  | heartbeat => "heartbeat"
  | probe => "probe"
  | cron => "cron"
  | goalTrigger => "goal_trigger"

/-- `ScheduleTriggerSchema`. -/
inductive ScheduleTrigger
  | cron (expression : String) (timezone : String)
  | interval (seconds : ℕ) (jitterFactor : ℚ)
  deriving DecidableEq

inductive EntrySource
  | manual | preset | dream | external
  deriving DecidableEq, Repr

/-- `ScheduleEntryMetadataSchema`. -/
structure Metadata where
  source : EntrySource := .manual
  externalSourceId : Option String := none
  externalId : Option String := none
  note : Option String := none
  personalAgentReplayKey : Option String := none
  others : String := ""
  deriving DecidableEq

/-- `EscalationConfigSchema`. -/
structure EscalationConfig where
  enabled : Bool := false
  targetEntryId : Option String := none
  targetGoalId : Option String := none
  cooldownMinutes : ℚ := 15
  maxPerHour : ℕ := 4
  circuitBreakerThreshold : ℕ := 10
  deriving DecidableEq

/-- `ScheduleFailureKindSchema`. -/
inductive FailureKind
  | transient | permanent
  deriving DecidableEq, Repr

/-- `ScheduleRetryPolicySchema`; the defaults are those of `DEFAULT_RETRY_POLICY`. -/
structure RetryPolicy where
  enabled : Bool := true
  initialDelayMs : Millis := 30000
  maxDelayMs : Millis := 900000
  multiplier : ℚ := 2
  jitterFactor : ℚ := 1 / 5
  maxAttempts : ℕ := 3
  maxRetryWindowMs : Millis := 86400000
  retryableFailureKinds : List FailureKind := [.transient]
  deriving DecidableEq

/-- `ScheduleRetryStateSchema`. -/
structure RetryState where
  attempts : ℕ := 0
  nextRetryAt : Option Millis := none
  scheduledFor : Option Millis := none
  lastAttemptAt : Option Millis := none
  firstFailureAt : Option Millis := none
  lastFailureKind : Option FailureKind := none
  lastErrorMessage : Option String := none
  deriving DecidableEq

/-- `ScheduleEntrySchema`. -/
structure ScheduleEntry where
  id : String
  name : String := ""
  layer : ScheduleLayer
  trigger : ScheduleTrigger
  enabled : Bool := true
  metadata : Option Metadata := none
  heartbeat : Option String := none
  probe : Option String := none
  cron : Option String := none
  goalTrigger : Option String := none
  escalation : Option EscalationConfig := none
  retryPolicy : Option RetryPolicy := none
  retryState : Option RetryState := none
  baselineResults : List String := []
  createdAt : Millis
  updatedAt : Millis
  lastFiredAt : Option Millis := none
  nextFireAt : Millis
  consecutiveFailures : ℕ := 0
  lastEscalationAt : Option Millis := none
  escalationTimestamps : List Millis := []
  totalExecutions : ℕ := 0
  totalTokensUsed : ℕ := 0
  maxTokensPerDay : ℕ := 100000
  tokensUsedToday : ℕ := 0
  budgetResetAt : Option Millis := none
  deriving DecidableEq

inductive ResultStatus
  | ok | degraded | down | skipped | error | escalated
  deriving DecidableEq, Repr

/-- `ScheduleResultSchema`. -/
structure ScheduleResult where
  status : ResultStatus
  firedAt : Millis
  errorMessage : Option String := none
  failureKind : Option FailureKind := none
  tokensUsed : ℕ := 0
  deriving DecidableEq

def ScheduleResult.isFailure (result : ScheduleResult) : Bool :=
  result.status = .error ∨ result.status = .down

/-! ## When an entry fires next -/

/-- `new Date(ms)`: whole milliseconds, and nothing beyond the range of dates. -/
def date (ms : ℚ) : Option Millis :=
  if |ms| ≤ 8640000000000000 then some (if 0 ≤ ms then ⌊ms⌋ else ⌈ms⌉) else none

/-- The parser of cron expressions: the next time after `now` in a time zone, or nothing
when it rejects the expression. -/
abbrev NextCron := String → String → Millis → Option Millis

/-- `computeNextFireAt`; `random` is what `Math.random` returns. -/
def computeNextFireAt (nextCron : NextCron) (trigger : ScheduleTrigger) (now : Millis)
    (random : ℚ) : Option Millis :=
  match trigger with
  | .cron expression timezone =>
    nextCron expression (if timezone = "" then "UTC" else timezone) now
  | .interval seconds jitterFactor =>
    (date (now + seconds * 1000)).bind fun nextTime =>
      (if 0 < jitterFactor then
        date (nextTime + seconds * 1000 * jitterFactor * (random * 2 - 1))
      else some nextTime).bind fun nextTime =>
        if nextTime < now + 1000 then date (now + 1000) else some nextTime

/-! ## Entries that are due -/

inductive RunReason
  | retry | cadence | manualRun
  deriving DecidableEq, Repr

structure DueEntryDescriptor where
  entry : ScheduleEntry
  reason : RunReason
  scheduledFor : Option Millis
  deriving DecidableEq

def getRetryScheduledFor (entry : ScheduleEntry) (retryState : RetryState) : Option Millis :=
  retryState.scheduledFor.or (entry.lastFiredAt.or (some entry.nextFireAt))

/-- `getDueEntryDescriptors` for one entry. -/
def dueEntryDescriptor (now : Millis) (entry : ScheduleEntry) : Option DueEntryDescriptor :=
  if ¬ entry.enabled then none
  else match entry.retryState.bind fun s => s.nextRetryAt.map fun at_ => (s, at_) with
    | some (retryState, nextRetryAt) =>
      if nextRetryAt ≤ now then
        some ⟨entry, .retry, getRetryScheduledFor entry retryState⟩
      else none
    | none =>
      if entry.nextFireAt ≤ now then some ⟨entry, .cadence, some entry.nextFireAt⟩ else none

def getDueEntryDescriptors (now : Millis) (entries : List ScheduleEntry) :
    List DueEntryDescriptor :=
  entries.filterMap (dueEntryDescriptor now)

end Schedule

end PulSeed
