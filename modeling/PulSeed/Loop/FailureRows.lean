import PulSeed.Lib.History
import PulSeed.Loop.DurableRun

/-!
# Iterations in a row that fail

A run stops with an error when too many executed iterations in a row have failed, and stops
when three in a row were denied or escalated. The counters of the loop count otherwise: an
iteration that was skipped has a result without an error and without a task, and resets
them; one that throws resets the counters of denials and escalations not at all.

So a row can go on unseen across skipped iterations. Where they come only between rows, the
run stops as it should (`rows_respected`).
-/

namespace PulSeed.DurableLoop

/-! ## Rows -/

/-- An executed iteration. -/
inductive Executed
  | threw
  | result (r : LoopIterationResult)

/-- The iteration of a turn, if it was executed: an iteration is not that was skipped or
aborted, or that the run drops because the budget is used up. -/
def Turn.executed : Turn → Option Executed
  | .halted _ => none
  | .threw aborted => if aborted then none else some .threw
  | .returned result allowed _ =>
    if result.skipped || !allowed then none else some (.result result)

def Executed.failed : Executed → Bool
  | .threw => true
  | .result r => r.error ≠ none

def Executed.denied : Executed → Bool
  | .threw => false
  | .result r => r.taskAction = some .approval_denied

def Executed.escalated : Executed → Bool
  | .threw => false
  | .result r => r.taskAction = some .escalate

/-- The number of the last executed iterations in a row with a property. -/
def row (p : Executed → Bool) (turns : List Turn) : ℕ := streak p (turns.filterMap Turn.executed)

theorem row_concat_of_none {p : Executed → Bool} {turns : List Turn} {turn : Turn}
    (h : turn.executed = none) : row p (turns ++ [turn]) = row p turns := by
  simp [row, h]

theorem row_concat_of_some {p : Executed → Bool} {turns : List Turn} {turn : Turn}
    {executed : Executed} (h : turn.executed = some executed) :
    row p (turns ++ [turn]) = if p executed then row p turns + 1 else 0 := by
  simp [row, h, streak_concat]

variable (config : Config)

/-- The run stops by the time a row is full, with an error when it is a row of failures; and
it does not stop for a row that is not full. -/
structure RowsRespected (turns : List Turn) (s : RunState) : Prop where
  failures : 0 < row Executed.failed turns →
    config.maxConsecutiveErrors ≤ row Executed.failed turns →
    s.finalStatus = .error ∧ s.ending ≠ none
  denials : 3 ≤ row Executed.denied turns → s.ending ≠ none
  escalations : 3 ≤ row Executed.escalated turns → s.ending ≠ none
  only_failures : s.finalStatus = .error → 0 < row Executed.failed turns ∧
    config.maxConsecutiveErrors ≤ row Executed.failed turns
  only_denials : s.ending = some (.decided .denied) → 3 ≤ row Executed.denied turns
  only_escalations : s.ending = some (.decided .escalations) → 3 ≤ row Executed.escalated turns

/-- The decision stops the run before it looks at the rows. -/
def StopsAtOnce (result : LoopIterationResult) (loopIndex : ℕ) : Prop :=
  result.finalizing = true ∨
    (result.completionJudgment.is_complete = true ∧ config.minIterations ≤ loopIndex + 1)

instance (result : LoopIterationResult) (loopIndex : ℕ) :
    Decidable (StopsAtOnce config result loopIndex) :=
  inferInstanceAs (Decidable (_ ∨ _))

/-- A skipped iteration comes between rows, when all counters are 0, unless the run stops
with it; one that throws does not come within a row of denials or escalations, unless it
fills the row of failures; and one that fills this row is not complete or in
finalization. -/
def RowsKept (s : RunState) : Turn → Prop
  | .halted _ => True
  | .threw aborted => aborted = true ∨
      config.maxConsecutiveErrors ≤ s.decisionCounters.consecutiveErrors + 1 ∨
      (s.decisionCounters.consecutiveDenied = 0 ∧ s.decisionCounters.consecutiveEscalations = 0)
  | .returned result allowed _ =>
    if result.skipped then
      StopsAtOnce config result s.loopIndex ∨
      (s.decisionCounters = {} ∧ result.error = none ∧
        result.taskAction ≠ some .approval_denied ∧ result.taskAction ≠ some .escalate)
    else allowed = false ∨ result.error = none ∨ ¬ StopsAtOnce config result s.loopIndex ∨
      s.decisionCounters.consecutiveErrors + 1 < config.maxConsecutiveErrors

instance (s : RunState) : ∀ turn, Decidable (RowsKept config s turn)
  | .halted _ => instDecidableTrue
  | .threw _ => inferInstanceAs (Decidable (_ ∨ _ ∨ _))
  | .returned result allowed stopped => by
    unfold RowsKept
    infer_instance

section Proofs

variable {config} {startLoopIndex : ℕ}

/-! ## The decision -/

variable (config) in
theorem evaluateRunDecision_cases (result : LoopIterationResult) (loopIndex : ℕ)
    (counters : Counters) :
    let decision := evaluateRunDecision result loopIndex config.minIterations
      config.maxConsecutiveErrors counters
    (StopsAtOnce config result loopIndex ∧
      (decision.stop = some .finalization ∨ decision.stop = some .complete)) ∨
    (¬ StopsAtOnce config result loopIndex ∧ result.error ≠ none ∧
      config.maxConsecutiveErrors ≤ counters.consecutiveErrors + 1 ∧
      decision.stop = some .errors) ∨
    (¬ StopsAtOnce config result loopIndex ∧
      (result.error ≠ none → counters.consecutiveErrors + 1 < config.maxConsecutiveErrors) ∧
      ((result.taskAction = some .approval_denied ∧ 3 ≤ counters.consecutiveDenied + 1 ∧
          decision.stop = some .denied) ∨
        (result.taskAction = some .escalate ∧ 3 ≤ counters.consecutiveEscalations + 1 ∧
          decision.stop = some .escalations) ∨
        ((result.taskAction = some .approval_denied → counters.consecutiveDenied + 1 < 3) ∧
          (result.taskAction = some .escalate → counters.consecutiveEscalations + 1 < 3) ∧
          (decision.stop = some .stall ∨ decision.stop = none) ∧
          decision.counters =
            { consecutiveErrors := advance (result.error ≠ none) counters.consecutiveErrors
              consecutiveDenied :=
                advance (result.taskAction = some .approval_denied) counters.consecutiveDenied
              consecutiveEscalations :=
                advance (result.taskAction = some .escalate)
                  counters.consecutiveEscalations }))) := by
  intro decision
  simp only [decision]
  unfold evaluateRunDecision StopsAtOnce
  split
  · next h => exact .inl ⟨.inl h, .inl rfl⟩
  next hfinalizing =>
  split
  · next h => exact .inl ⟨.inr h, .inr rfl⟩
  next hcomplete =>
  have honce : ¬ (result.finalizing = true ∨
      (result.completionJudgment.is_complete = true ∧
        config.minIterations ≤ loopIndex + 1)) := by
    rintro (h | h)
    · exact hfinalizing h
    · exact hcomplete h
  refine .inr ?_
  dsimp only
  split
  · next h => exact .inl ⟨honce, h.1, by simpa [advance, h.1] using h.2, rfl⟩
  next herrors =>
  refine .inr ⟨honce, fun herror => ?_, ?_⟩
  · by_contra hfull
    exact herrors ⟨herror, by rw [advance, if_pos herror]; omega⟩
  split
  · next h => exact .inl ⟨h.1, by simpa [advance, h.1] using h.2, rfl⟩
  next hdenied =>
  refine .inr ?_
  split
  · next h => exact .inl ⟨h.1, by simpa [advance, h.1] using h.2, rfl⟩
  next hescalated =>
  refine .inr ⟨fun haction => ?_, fun haction => ?_, ?_⟩
  · by_contra hfull
    exact hdenied ⟨haction, by rw [advance, if_pos haction]; omega⟩
  · by_contra hfull
    exact hescalated ⟨haction, by rw [advance, if_pos haction]; omega⟩
  split
  · exact ⟨.inl rfl, rfl⟩
  · exact ⟨.inr rfl, rfl⟩

/-! ## One turn -/

/-- While the run goes on, the counters are the rows, no row is full, and there is no
error. -/
structure Counted (config : Config) (turns : List Turn) (s : RunState) : Prop where
  failures : s.decisionCounters.consecutiveErrors = row Executed.failed turns
  denials : s.decisionCounters.consecutiveDenied = row Executed.denied turns
  escalations : s.decisionCounters.consecutiveEscalations = row Executed.escalated turns
  failures_lt : 0 < row Executed.failed turns →
    row Executed.failed turns < config.maxConsecutiveErrors
  denials_lt : row Executed.denied turns < 3
  escalations_lt : row Executed.escalated turns < 3
  no_error : s.finalStatus ≠ .error

/-- A run that has counted and goes on respects the rows. -/
theorem Counted.respected {turns : List Turn} {s : RunState} (h : Counted config turns s)
    (hending : s.ending = none) : RowsRespected config turns s where
  failures := by
    intro hpos hfull
    have hlt := h.failures_lt hpos
    omega
  denials := by
    intro hfull
    have hlt := h.denials_lt
    omega
  escalations := by
    intro hfull
    have hlt := h.escalations_lt
    omega
  only_failures herror := absurd herror h.no_error
  only_denials hdecided := by
    rw [hending] at hdecided
    cases hdecided
  only_escalations hdecided := by
    rw [hending] at hdecided
    cases hdecided

/-- A run that is left for another reason than a row respects the rows, when no row of
failures is full. -/
theorem respected_of_ending {turns : List Turn} {s : RunState} (hending : s.ending ≠ none)
    (hfailures : 0 < row Executed.failed turns →
      row Executed.failed turns < config.maxConsecutiveErrors)
    (hstatus : s.finalStatus ≠ .error) (hdenied : s.ending ≠ some (.decided .denied))
    (hescalated : s.ending ≠ some (.decided .escalations)) :
    RowsRespected config turns s where
  failures := by
    intro hpos hfull
    have hlt := hfailures hpos
    omega
  denials _ := hending
  escalations _ := hending
  only_failures herror := absurd herror hstatus
  only_denials h := absurd h hdenied
  only_escalations h := absurd h hescalated

/-- What is to be shown of a pass through the loop. -/
def PassRespected (config : Config) (turns : List Turn) (turn : Turn) (s' : RunState) : Prop :=
  (s'.ending = none → Counted config (turns ++ [turn]) s') ∧
    RowsRespected config (turns ++ [turn]) s'

theorem PassRespected.of_counted {turns : List Turn} {turn : Turn} {s' : RunState}
    (h : Counted config (turns ++ [turn]) s') (hending : s'.ending = none) :
    PassRespected config turns turn s' :=
  ⟨fun _ => h, h.respected hending⟩

theorem PassRespected.of_ending {turns : List Turn} {turn : Turn} {s' : RunState}
    (hending : s'.ending ≠ none) (h : RowsRespected config (turns ++ [turn]) s') :
    PassRespected config turns turn s' :=
  ⟨fun hnone => absurd hnone hending, h⟩

theorem Halt.finalStatus_ne_error {current : FinalStatus} (h : current ≠ .error) (why : Halt) :
    why.finalStatus config current ≠ .error := by
  cases why with
  | aborted => nofun
  | stopped => nofun
  | budgetExhausted =>
    show (if config.maxIterations.isSome then FinalStatus.max_iterations else current) ≠ .error
    split
    · nofun
    · exact h
  | budgetGate finalization => cases finalization <;> nofun

variable {s : RunState} {turns : List Turn}

theorem halted_respected (h : Counted config turns s) (why : Halt) :
    PassRespected config turns (.halted why) (pass config s (.halted why)) := by
  refine .of_ending nofun (respected_of_ending nofun ?_ ?_ nofun nofun)
  · rw [row_concat_of_none rfl]
    exact h.failures_lt
  · exact Halt.finalStatus_ne_error h.no_error why

theorem threw_respected (h : Counted config turns s) {aborted : Bool}
    (hkept : RowsKept config s (.threw aborted)) (hending : s.ending = none) :
    PassRespected config turns (.threw aborted) (pass config s (.threw aborted)) := by
  cases aborted with
  | true =>
    refine .of_ending nofun (respected_of_ending nofun ?_ nofun nofun nofun)
    rw [row_concat_of_none rfl]
    exact h.failures_lt
  | false =>
    have hthrew : (Turn.threw false).executed = some .threw := rfl
    have hfailed : row Executed.failed (turns ++ [.threw false]) =
        row Executed.failed turns + 1 := row_concat_of_some hthrew
    have hdenied : row Executed.denied (turns ++ [.threw false]) = 0 := row_concat_of_some hthrew
    have hescalated : row Executed.escalated (turns ++ [.threw false]) = 0 :=
      row_concat_of_some hthrew
    have hcount := h.failures
    simp only [pass, Bool.false_eq_true, if_false]
    split
    · next hfull =>
      refine .of_ending nofun ⟨fun _ _ => ⟨rfl, nofun⟩, fun _ => nofun, fun _ => nofun, fun _ => ?_,
        nofun, nofun⟩
      rw [hfailed]
      omega
    · next hroom =>
      refine .of_counted ?_ hending
      -- the failures have room, so no row of denials or escalations is under way
      rcases hkept with hkept | hkept | ⟨hnodenied, hnoescalated⟩
      · cases hkept
      · exact absurd hkept hroom
      · constructor
        · simp only [hfailed, hcount]
        · rw [hdenied]
          exact hnodenied
        · rw [hescalated]
          exact hnoescalated
        · intro _
          rw [hfailed]
          omega
        · omega
        · omega
        · exact h.no_error

/-- The decision about the next result of the run. -/
def RunState.decide (config : Config) (s : RunState) (result : LoopIterationResult) : Decision :=
  evaluateRunDecision result s.loopIndex config.minIterations config.maxConsecutiveErrors
    s.decisionCounters

theorem record_of_stop {result : LoopIterationResult} {reason : StopReason}
    (hstop : (s.decide config result).stop = some reason) (stopped : Bool) :
    (s.record config result stopped).ending = some (.decided reason) ∧
      (s.record config result stopped).finalStatus = reason.finalStatus := by
  unfold RunState.decide at hstop
  simp [RunState.record, hstop, RunState.leave]

/-- A result that fills no row keeps the count. -/
theorem record_of_counted {turn : Turn} {result : LoopIterationResult} {stopped : Bool}
    (hending : s.ending = none)
    (hstop : (s.decide config result).stop = some .stall ∨ (s.decide config result).stop = none)
    (hcounted : Counted config (turns ++ [turn])
      { s with decisionCounters := (s.decide config result).counters }) :
    PassRespected config turns turn (s.record config result stopped) := by
  rcases hstop with hstop | hstop
  · obtain ⟨hdecided, hstatus⟩ := record_of_stop hstop stopped
    refine .of_ending (by rw [hdecided]; nofun) (respected_of_ending (by rw [hdecided]; nofun)
      hcounted.failures_lt ?_ ?_ ?_)
    · rw [hstatus]
      nofun
    · rw [hdecided]
      nofun
    · rw [hdecided]
      nofun
  · unfold RunState.decide at hstop
    unfold RunState.record
    dsimp only
    rw [hstop]
    cases stopped with
    | true =>
      exact .of_ending nofun (respected_of_ending nofun hcounted.failures_lt nofun nofun nofun)
    | false =>
      refine .of_counted ?_ hending
      constructor
      · exact hcounted.failures
      · exact hcounted.denials
      · exact hcounted.escalations
      · exact hcounted.failures_lt
      · exact hcounted.denials_lt
      · exact hcounted.escalations_lt
      · exact hcounted.no_error

/-- A result that ends the run before the rows are looked at. -/
theorem record_at_once {turn : Turn} {result : LoopIterationResult} {stopped : Bool}
    (hstop : (s.decide config result).stop = some .finalization ∨
      (s.decide config result).stop = some .complete)
    (hfailures : 0 < row Executed.failed (turns ++ [turn]) →
      row Executed.failed (turns ++ [turn]) < config.maxConsecutiveErrors) :
    PassRespected config turns turn (s.record config result stopped) := by
  rcases hstop with hstop | hstop
  all_goals
    obtain ⟨hdecided, hstatus⟩ := record_of_stop hstop stopped
    refine .of_ending (by rw [hdecided]; nofun) (respected_of_ending (by rw [hdecided]; nofun)
      hfailures ?_ ?_ ?_)
    · rw [hstatus]
      nofun
    · rw [hdecided]
      nofun
    · rw [hdecided]
      nofun

theorem skipped_respected (h : Counted config turns s) {result : LoopIterationResult}
    {allowed stopped : Bool} (hskipped : result.skipped = true)
    (hkept : RowsKept config s (.returned result allowed stopped)) (hending : s.ending = none) :
    PassRespected config turns (.returned result allowed stopped)
      (s.record config result stopped) := by
  have hnone : (Turn.returned result allowed stopped).executed = none := by
    simp [Turn.executed, hskipped]
  have hrows : ∀ p, row p (turns ++ [.returned result allowed stopped]) = row p turns :=
    fun _ => row_concat_of_none hnone
  simp only [RowsKept, hskipped, if_true] at hkept
  have hcases := evaluateRunDecision_cases config result s.loopIndex s.decisionCounters
  by_cases honce : StopsAtOnce config result s.loopIndex
  · rcases hcases with ⟨-, hstop⟩ | ⟨hnot, -⟩ | ⟨hnot, -⟩
    · refine record_at_once hstop ?_
      rw [hrows]
      exact h.failures_lt
    · exact absurd honce hnot
    · exact absurd honce hnot
  · rcases hkept with hkept | ⟨hzero, herror, hdenied, hescalated⟩
    · exact absurd hkept honce
    rcases hcases with ⟨hyes, -⟩ | ⟨-, hyes, -⟩ |
      ⟨-, -, ⟨hyes, -⟩ | ⟨hyes, -⟩ | ⟨-, -, hstop, hcounters⟩⟩
    · exact absurd hyes honce
    · exact absurd herror hyes
    · exact absurd hyes hdenied
    · exact absurd hyes hescalated
    · -- between rows a skipped iteration resets nothing
      refine record_of_counted hending hstop ?_
      have hreset : (s.decide config result).counters = s.decisionCounters := by
        unfold RunState.decide
        rw [hcounters, hzero]
        simp [advance, herror, hdenied, hescalated]
      rw [hreset]
      constructor
      · rw [hrows]; exact h.failures
      · rw [hrows]; exact h.denials
      · rw [hrows]; exact h.escalations
      · rw [hrows]; exact h.failures_lt
      · rw [hrows]; exact h.denials_lt
      · rw [hrows]; exact h.escalations_lt
      · exact h.no_error

theorem executed_respected (h : Counted config turns s) {result : LoopIterationResult}
    {stopped : Bool} (hskipped : result.skipped = false)
    (hkept : RowsKept config s (.returned result true stopped)) (hending : s.ending = none) :
    PassRespected config turns (.returned result true stopped)
      (s.record config result stopped) := by
  have hsome : (Turn.returned result true stopped).executed = some (.result result) := by
    simp [Turn.executed, hskipped]
  have hfailed : row Executed.failed (turns ++ [.returned result true stopped]) =
      advance (result.error ≠ none) s.decisionCounters.consecutiveErrors := by
    rw [row_concat_of_some hsome, h.failures]
    simp [Executed.failed, advance]
  have hdenied : row Executed.denied (turns ++ [.returned result true stopped]) =
      advance (result.taskAction = some .approval_denied)
        s.decisionCounters.consecutiveDenied := by
    rw [row_concat_of_some hsome, h.denials]
    simp [Executed.denied, advance]
  have hescalated : row Executed.escalated (turns ++ [.returned result true stopped]) =
      advance (result.taskAction = some .escalate)
        s.decisionCounters.consecutiveEscalations := by
    rw [row_concat_of_some hsome, h.escalations]
    simp [Executed.escalated, advance]
  -- a row of failures that is not full before the result is not full after one with room
  have hroom : (result.error ≠ none →
      s.decisionCounters.consecutiveErrors + 1 < config.maxConsecutiveErrors) →
      0 < row Executed.failed (turns ++ [.returned result true stopped]) →
      row Executed.failed (turns ++ [.returned result true stopped]) <
        config.maxConsecutiveErrors := by
    rw [hfailed]
    unfold advance
    intro hlt hpos
    split
    · next herror => exact hlt herror
    · next herror =>
      rw [if_neg herror] at hpos
      omega
  simp only [RowsKept, hskipped, Bool.false_eq_true, if_false, Bool.true_eq_false,
    false_or] at hkept
  rcases evaluateRunDecision_cases config result s.loopIndex s.decisionCounters with
    ⟨honce, hstop⟩ | ⟨-, herror, hfull, hstop⟩ | ⟨-, hlt, hcases⟩
  · refine record_at_once hstop (hroom fun herror => ?_)
    rcases hkept with hkept | hkept | hkept
    · exact absurd hkept herror
    · exact absurd honce hkept
    · exact hkept
  · obtain ⟨hdecided, hstatus⟩ := record_of_stop hstop stopped
    refine .of_ending (by rw [hdecided]; nofun) ⟨fun _ _ => ⟨hstatus, by rw [hdecided]; nofun⟩,
      fun _ => by rw [hdecided]; nofun, fun _ => by rw [hdecided]; nofun, fun _ => ?_, ?_, ?_⟩
    · rw [hfailed, advance, if_pos herror]
      omega
    · rw [hdecided]
      nofun
    · rw [hdecided]
      nofun
  · have hfailures := hroom hlt
    rcases hcases with ⟨haction, hfull, hstop⟩ | ⟨haction, hfull, hstop⟩ |
      ⟨hnodenied, hnoescalated, hstop, hcounters⟩
    · obtain ⟨hdecided, hstatus⟩ := record_of_stop hstop stopped
      refine .of_ending (by rw [hdecided]; nofun) ⟨fun hpos hlong => ?_,
        fun _ => by rw [hdecided]; nofun, fun _ => by rw [hdecided]; nofun, ?_, fun _ => ?_, ?_⟩
      · have hshort := hfailures hpos
        omega
      · rw [hstatus]
        nofun
      · rw [hdenied, advance, if_pos haction]
        exact hfull
      · rw [hdecided]
        nofun
    · obtain ⟨hdecided, hstatus⟩ := record_of_stop hstop stopped
      refine .of_ending (by rw [hdecided]; nofun) ⟨fun hpos hlong => ?_,
        fun _ => by rw [hdecided]; nofun, fun _ => by rw [hdecided]; nofun, ?_, ?_, fun _ => ?_⟩
      · have hshort := hfailures hpos
        omega
      · rw [hstatus]
        nofun
      · rw [hdecided]
        nofun
      · rw [hescalated, advance, if_pos haction]
        exact hfull
    · refine record_of_counted hending hstop ?_
      unfold RunState.decide
      rw [hcounters]
      constructor
      · exact hfailed.symm
      · exact hdenied.symm
      · exact hescalated.symm
      · exact hfailures
      · rw [hdenied]
        unfold advance
        split
        · next haction => exact hnodenied haction
        · omega
      · rw [hescalated]
        unfold advance
        split
        · next haction => exact hnoescalated haction
        · omega
      · exact h.no_error

theorem step_respected {s' : RunState} {turn : Turn}
    (hstep : step config startLoopIndex s turn = some s') (hkept : RowsKept config s turn)
    (hcounted : s.ending = none → Counted config turns s) :
    PassRespected config turns turn s' := by
  unfold step RunState.continues at hstep
  split at hstep
  · next hcontinues =>
    rw [Bool.and_eq_true, decide_eq_true_iff] at hcontinues
    have h := hcounted hcontinues.1
    obtain rfl := Option.some.inj hstep
    cases turn with
    | halted why => exact halted_respected h why
    | threw aborted => exact threw_respected h hkept hcontinues.1
    | returned result allowed stopped =>
      cases hskipped : result.skipped with
      | true =>
        have hpass : pass config s (.returned result allowed stopped) =
            s.record config result stopped := by
          simp [pass, hskipped]
        rw [hpass]
        exact skipped_respected h hskipped hkept hcontinues.1
      | false =>
        cases allowed with
        | true =>
          have hpass : pass config s (.returned result true stopped) =
              s.record config result stopped := by
            simp [pass]
          rw [hpass]
          exact executed_respected h hskipped hkept hcontinues.1
        | false =>
          have hnone : (Turn.returned result false stopped).executed = none := by
            simp [Turn.executed]
          have hpass : pass config s (.returned result false stopped) =
              { s with ending := some .budgetRefused } := by
            simp [pass, hskipped]
          rw [hpass]
          refine .of_ending (by simp) (respected_of_ending (by simp) ?_ h.no_error (by simp) (by simp))
          rw [row_concat_of_none hnone]
          exact h.failures_lt
  · cases hstep

end Proofs

/-! ## Runs -/

variable (startLoopIndex : ℕ)

/-- **Full rows stop the run** and nothing else does in their name, in every run in which
skipped iterations come between rows only. -/
theorem rows_respected (turns : List Turn)
    (hkept : (runLTS config startLoopIndex).Always (start config startLoopIndex) turns
      (RowsKept config)) :
    ∀ before after s, turns = before ++ after →
      (runLTS config startLoopIndex).Run (start config startLoopIndex) before s →
      RowsRespected config before s := by
  intro before after s hsplit hrun
  subst hsplit
  replace hkept := hkept.take
  have hinv : (s.ending = none → Counted config before s) ∧ RowsRespected config before s := by
    have hstatus : (start config startLoopIndex).finalStatus ≠ .error := by
      unfold start
      dsimp only
      split
      · nofun
      · nofun
    have hstart : Counted config [] (start config startLoopIndex) :=
      ⟨rfl, rfl, rfl, nofun, by decide, by decide, hstatus⟩
    induction hrun with
    | nil => exact ⟨fun _ => hstart, hstart.respected rfl⟩
    | snoc hrun hstep ih => exact step_respected hstep (hkept.last hrun) (ih hkept.init).1
  exact hinv.2

/-- A result of an iteration that found no state change. -/
def unchanged : Turn := .returned { skipped := true } true false

/-- Approval is denied. -/
def denied : Turn := .returned { taskAction := some .approval_denied } true false

/-- A failure, skipped iterations, and a row of denials. -/
def refusals : List Turn :=
  [unchanged, .threw false, .returned {} true false, unchanged, denied, denied, denied]

theorem rows_respected_refusals :
    ∃ s, (runLTS {} 0).Run (start {} 0) refusals s ∧ RowsRespected {} refusals s := by
  obtain ⟨s, hs⟩ : ∃ s, LTS.execPartial (step {} 0) (start {} 0) refusals = some s :=
    Option.isSome_iff_exists.mp (by decide)
  have hrun := LTS.run_execPartial hs
  exact ⟨s, hrun, rows_respected {} 0 refusals (LTS.ExecPartialAlways.always (by decide))
    refusals [] s (List.append_nil _).symm hrun⟩

/-- Every iteration that is executed throws; between them nothing changes. -/
def hidden : List Turn := [.threw false, unchanged, .threw false, unchanged, .threw false]

/-- **Three failures in a row** do not stop the run. -/
theorem hidden_not_respected :
    ¬ ∀ before after s, hidden = before ++ after →
      (runLTS {} 0).Run (start {} 0) before s → RowsRespected {} before s := by
  intro hall
  have hends : (LTS.execPartial (step {} 0) (start {} 0) hidden).any
      (fun s => s.ending = none) = true := by decide
  obtain ⟨s, hs, hgoes⟩ := (Option.any_eq_true _ _).mp hends
  have hfull := (hall hidden [] s (by simp) (LTS.run_execPartial hs)).failures (by decide)
    (by decide)
  exact hfull.2 (of_decide_eq_true hgoes)

end PulSeed.DurableLoop
