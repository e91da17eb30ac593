import PulSeed.Drive.Satisficing
import PulSeed.Lib.Transition

/-!
# The run of a goal (`orchestrator/loop/durable-loop.ts`, `durable-loop/decision-engine.ts`)

A run makes one iteration after another. After each it decides whether to stop:
`evaluateRunDecision` looks at the result and at three counters, of iterations in a row that
failed, were denied approval, and escalated. An iteration that throws has no result; it is
counted in the loop itself.

What the loop asks of others is part of a `Turn`, one pass through its body: the signals to
stop, the answers of the budgets, and the iteration.
-/

namespace PulSeed.DurableLoop

open Drive (CompletionJudgment)

/-! ## Results -/

/-- `TaskCycleResult.action`. -/
inductive TaskAction
  | completed | keep | discard | escalate | approval_denied | capability_acquiring
  deriving DecidableEq

inductive DeadlineFinalizationMode
  | no_deadline | exploration | consolidation | finalization | missed_deadline
  deriving DecidableEq

/-- `LoopResult.finalStatus`. -/
inductive FinalStatus
  | completed | stalled | max_iterations | error | stopped | finalization
  deriving DecidableEq

/-- The fields of `LoopIterationResult` that a run reads. `taskAction` is
`taskResult?.action`, `escalationLevel` is `stallReport?.escalation_level` and
`finalizationMode` is `finalizationStatus?.mode`. -/
structure LoopIterationResult where
  completionJudgment : CompletionJudgment := ⟨false, [], [], false⟩
  error : Option String := none
  taskAction : Option TaskAction := none
  skipped : Bool := false
  stallDetected : Bool := false
  escalationLevel : Option ℕ := none
  finalizationMode : Option DeadlineFinalizationMode := none
  deriving DecidableEq

/-! ## The decision -/

/-- `CoreLoopRunCounters`. -/
structure Counters where
  consecutiveErrors : ℕ := 0
  consecutiveDenied : ℕ := 0
  consecutiveEscalations : ℕ := 0
  deriving DecidableEq

/-- Where `evaluateRunDecision` stops the run. -/
inductive StopReason
  | finalization | complete | errors | denied | escalations | stall
  deriving DecidableEq

/-- The final status that it returns there. -/
def StopReason.finalStatus : StopReason → FinalStatus
  | .finalization => .finalization
  | .complete => .completed
  | .errors => .error
  | .denied => .stopped
  | .escalations | .stall => .stalled

/-- `CoreLoopRunDecision`. -/
structure Decision where
  counters : Counters
  stop : Option StopReason := none
  deriving DecidableEq

/-- The result is one of a goal in finalization. -/
def LoopIterationResult.finalizing (result : LoopIterationResult) : Bool :=
  result.finalizationMode = some .finalization || result.finalizationMode = some .missed_deadline

/-- A counter goes on with a result that counts, and starts again with another. -/
def advance (counts : Prop) [Decidable counts] (counter : ℕ) : ℕ :=
  if counts then counter + 1 else 0

/-- `evaluateRunDecision`. -/
def evaluateRunDecision (result : LoopIterationResult)
    (loopIndex minIterations maxConsecutiveErrors : ℕ) (counters : Counters) : Decision :=
  if result.finalizing then ⟨counters, some .finalization⟩
  else if result.completionJudgment.is_complete ∧ minIterations ≤ loopIndex + 1 then
    ⟨counters, some .complete⟩
  else
    let next := { counters with
      consecutiveErrors := advance (result.error ≠ none) counters.consecutiveErrors }
    if result.error ≠ none ∧ maxConsecutiveErrors ≤ next.consecutiveErrors then
      ⟨next, some .errors⟩
    else
      let next := { next with
        consecutiveDenied :=
          advance (result.taskAction = some .approval_denied) next.consecutiveDenied }
      if result.taskAction = some .approval_denied ∧ 3 ≤ next.consecutiveDenied then
        ⟨next, some .denied⟩
      else
        let next := { next with
          consecutiveEscalations :=
            advance (result.taskAction = some .escalate) next.consecutiveEscalations }
        if result.taskAction = some .escalate ∧ 3 ≤ next.consecutiveEscalations then
          ⟨next, some .escalations⟩
        else if result.stallDetected ∧ ∃ level ∈ result.escalationLevel, 3 ≤ level then
          ⟨next, some .stall⟩
        else ⟨next, none⟩

/-! ## The loop -/

/-- The configuration of a run; `maxIterations` is missing unless the run policy is
`bounded`. -/
structure Config where
  minIterations : ℕ := 1
  maxConsecutiveErrors : ℕ := 3
  maxIterations : Option ℕ := some 100

/-- Why a run is left before an iteration. -/
inductive Halt
  | aborted
  | stopped
  | budgetExhausted
  /-- The gate of the runtime budget, with its final status `finalization` or `stopped`. -/
  | budgetGate (finalization : Bool)
  deriving DecidableEq

/-- One pass through the body of the loop. -/
inductive Turn
  | halted (why : Halt)
  /-- The iteration throws. -/
  | threw (aborted : Bool)
  /-- The iteration returns; `allowed` is the answer of the iteration budget, `stopped`
  whether the run has been told to stop in the meantime. -/
  | returned (result : LoopIterationResult) (allowed stopped : Bool)
  deriving DecidableEq

/-- Where the loop is left. -/
inductive Ending
  | halted (why : Halt)
  | abortedIteration
  | thrownErrors
  | budgetRefused
  | decided (reason : StopReason)
  | stopped
  deriving DecidableEq

/-- The variables of the loop. -/
structure RunState where
  loopIndex : ℕ
  decisionCounters : Counters := {}
  iterations : List LoopIterationResult := []
  finalStatus : FinalStatus
  ending : Option Ending := none
  deriving DecidableEq

variable (config : Config) (startLoopIndex : ℕ)

/-- The state before the first iteration. -/
def start : RunState where
  loopIndex := startLoopIndex
  finalStatus := if config.maxIterations.isSome then .max_iterations else .stopped

/-- The loop is left. -/
def RunState.leave (s : RunState) (ending : Ending) (finalStatus : FinalStatus) : RunState :=
  { s with ending := some ending, finalStatus }

/-- The final status of a run that is left before an iteration. -/
def Halt.finalStatus (current : FinalStatus) : Halt → FinalStatus
  | .aborted | .stopped => .stopped
  | .budgetExhausted => if config.maxIterations.isSome then .max_iterations else current
  | .budgetGate finalization => if finalization then .finalization else .stopped

/-- The end of the body, with the result of the iteration. -/
def RunState.record (s : RunState) (result : LoopIterationResult) (stopped : Bool) : RunState :=
  let decision := evaluateRunDecision result s.loopIndex config.minIterations
    config.maxConsecutiveErrors s.decisionCounters
  let s := { s with
    iterations := s.iterations ++ [result]
    decisionCounters := decision.counters }
  match decision.stop with
  | some reason => s.leave (.decided reason) reason.finalStatus
  | none => if stopped then s.leave .stopped .stopped else { s with loopIndex := s.loopIndex + 1 }

/-- The body of the loop. -/
def pass (s : RunState) : Turn → RunState
  | .halted why => s.leave (.halted why) (why.finalStatus config s.finalStatus)
  | .threw aborted =>
    if aborted then s.leave .abortedIteration .stopped
    else
      let consecutiveErrors := s.decisionCounters.consecutiveErrors + 1
      let s := { s with decisionCounters := { s.decisionCounters with consecutiveErrors } }
      if config.maxConsecutiveErrors ≤ consecutiveErrors then s.leave .thrownErrors .error
      else { s with loopIndex := s.loopIndex + 1 }
  | .returned result allowed stopped =>
    -- only an iteration that is not skipped consumes the budget
    if !result.skipped && !allowed then { s with ending := some .budgetRefused }
    else s.record config result stopped

/-- The condition of the loop. -/
def RunState.continues (s : RunState) : Bool :=
  s.ending = none && config.maxIterations.all fun maxIterations =>
    s.loopIndex < startLoopIndex + maxIterations

def step (s : RunState) (turn : Turn) : Option RunState :=
  if s.continues config startLoopIndex then some (pass config s turn) else none

/-- The system of a run. -/
def runLTS : LTS RunState Turn := .ofPartial (step config startLoopIndex)

/-! ## Completion -/

/-- The decision to complete the run. -/
theorem stop_complete_iff (result : LoopIterationResult)
    (loopIndex minIterations maxConsecutiveErrors : ℕ) (counters : Counters) :
    (evaluateRunDecision result loopIndex minIterations maxConsecutiveErrors counters).stop =
        some .complete ↔
      result.finalizing = false ∧ result.completionJudgment.is_complete = true ∧
        minIterations ≤ loopIndex + 1 := by
  unfold evaluateRunDecision
  by_cases hfinal : result.finalizing = true
  · simp [hfinal]
  · rw [if_neg hfinal]
    have hfinal := Bool.eq_false_of_not_eq_true hfinal
    by_cases hcomplete : result.completionJudgment.is_complete = true ∧
        minIterations ≤ loopIndex + 1
    · rw [if_pos hcomplete]
      exact iff_of_true rfl ⟨hfinal, hcomplete⟩
    · rw [if_neg hcomplete]
      refine iff_of_false ?_ fun h => hcomplete h.2
      dsimp only
      split_ifs <;> simp

/-- **A run is completed** by an iteration that is complete, from the first index on that
`minIterations` allows, unless the goal is in finalization or the budget is used up. -/
theorem pass_completed_iff {config : Config} {s : RunState} (hs : s.finalStatus ≠ .completed)
    (result : LoopIterationResult) (allowed stopped : Bool) :
    (pass config s (.returned result allowed stopped)).finalStatus = .completed ↔
      (result.skipped = true ∨ allowed = true) ∧ result.finalizing = false ∧
        result.completionJudgment.is_complete = true ∧
          config.minIterations ≤ s.loopIndex + 1 := by
  have hdecision := stop_complete_iff result s.loopIndex config.minIterations
    config.maxConsecutiveErrors s.decisionCounters
  unfold pass
  dsimp only
  by_cases hrefused : (!result.skipped && !allowed) = true
  · rw [if_pos hrefused]
    refine iff_of_false hs fun h => ?_
    rcases h.1 with hskipped | hallowed
    · simp [hskipped] at hrefused
    · simp [hallowed] at hrefused
  · rw [if_neg hrefused, ← hdecision]
    have hgoes : result.skipped = true ∨ allowed = true := by
      cases hskipped : result.skipped with
      | true => exact .inl rfl
      | false =>
        cases hallowed : allowed with
        | true => exact .inr rfl
        | false => exact absurd (by simp [hskipped, hallowed]) hrefused
    rw [and_iff_right hgoes]
    unfold RunState.record
    dsimp only
    split
    · next reason hreason =>
      rw [hreason]
      cases reason <;> simp [RunState.leave, StopReason.finalStatus]
    · next hreason =>
      rw [hreason]
      cases stopped with
      | true => simp [RunState.leave]
      | false => simpa using hs

/-- No other turn completes a run. -/
theorem pass_not_completed {config : Config} {s : RunState} (hs : s.finalStatus ≠ .completed)
    {turn : Turn} (hturn : ∀ result allowed stopped, turn ≠ .returned result allowed stopped) :
    (pass config s turn).finalStatus ≠ .completed := by
  cases turn with
  | halted why =>
    unfold pass RunState.leave Halt.finalStatus
    dsimp only
    cases why with
    | aborted => exact nofun
    | stopped => exact nofun
    | budgetExhausted =>
      dsimp only
      split
      · exact nofun
      · exact hs
    | budgetGate finalization => cases finalization <;> exact nofun
  | threw aborted =>
    unfold pass
    dsimp only
    split_ifs
    · exact nofun
    · exact nofun
    · exact hs
  | returned result allowed stopped => exact absurd rfl (hturn result allowed stopped)

/-- A run that goes on is not completed. -/
theorem pass_continuing {config : Config} {s : RunState} (hs : s.finalStatus ≠ .completed)
    {turn : Turn} (hending : (pass config s turn).ending = none) :
    (pass config s turn).finalStatus ≠ .completed := by
  cases turn with
  | halted why => exact nomatch hending
  | threw aborted => exact pass_not_completed hs (by simp)
  | returned result allowed stopped =>
    intro hcompleted
    have hstop := ((pass_completed_iff hs result allowed stopped).mp hcompleted)
    have hdecision := (stop_complete_iff result s.loopIndex config.minIterations
      config.maxConsecutiveErrors s.decisionCounters).mpr hstop.2
    have hgoes : (!result.skipped && !allowed) = false := by
      rcases hstop.1 with hskipped | hallowed
      · simp [hskipped]
      · simp [hallowed]
    unfold pass at hending
    dsimp only at hending
    rw [hgoes] at hending
    unfold RunState.record at hending
    simp [hdecision, RunState.leave] at hending

end PulSeed.DurableLoop
