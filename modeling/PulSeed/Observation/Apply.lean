import Mathlib.Tactic.Linarith
import PulSeed.Loop.StateDiff
import PulSeed.State.GoalMutations

/-!
# Applying an observation (`platform/observation/observation-apply.ts`)

An observed number is clamped before it is stored: to 0..1 for a present or match threshold,
to 0..2·limit for a min threshold, to 0.. for a max threshold. The bounds are sanity bounds
for values that are not negative; they are chosen without the test of the satisficing judge,
so a value beyond them may be judged otherwise than the bound it is replaced by.

- `applyObservation_verdict_iff`: **where the monotonic floor does not apply, the stored value
  is judged as the observed one exactly when `KeepsVerdict`.**
-/

namespace PulSeed.Observation

open Drive (DimensionValue Primitive Threshold isSatisfiedRaw)
open StateDiff (ObservationLayer)

/-- `HistoryEntrySchema`. -/
structure HistoryEntry where
  value : DimensionValue
  timestamp : String
  confidence : Number
  source_observation_id : String
  deriving DecidableEq

/-- The fields of `DimensionSchema` that an observation reads or writes. -/
structure Dimension extends Drive.Dimension where
  last_observed_layer : Option ObservationLayer := none
  last_updated : Option String := none
  history : List HistoryEntry := []
  deriving DecidableEq

/-- The fields of `ObservationLogEntrySchema` that are applied. -/
structure ObservationLogEntry where
  observation_id : String
  timestamp : String
  goal_id : String
  dimension_name : String
  layer : ObservationLayer
  extracted_value : DimensionValue
  confidence : Number
  deriving DecidableEq

/-- A goal; of its other fields an observation writes `updated_at`. -/
abbrev Goal (P : Type) := StateManager.Goal Dimension P String

/-! ## The dimension -/

/-- `normalizeDimensionName`: without a suffix of an underscore and digits. -/
def normalizeDimensionName (name : String) : String :=
  let (digits, rest) := name.toList.reverse.span Char.isDigit
  match rest with
  | '_' :: stem => if digits = [] then name else String.ofList stem.reverse
  | _ => name

/-- `dimIndex`. -/
def observedIndex (dimensions : List Dimension) (dimensionName : String) : Option Nat :=
  let safeName := normalizeDimensionName dimensionName
  match dimensions.findIdx? fun d => d.name == safeName with
  | some dimIndex => some dimIndex
  | none =>
    if safeName = dimensionName then none
    else dimensions.findIdx? fun d => d.name == dimensionName

/-! ## The value -/

/-- The bounds of a number. -/
def clampNumber (threshold : Threshold) (value : Number) : Number :=
  match threshold with
  | .present | .match _ =>
    if value.lt (.finite 0) || (Number.finite 1).lt value then
      (Number.finite 0).max ((Number.finite 1).min value)
    else value
  | .min limit =>
    let maxBound := limit.mul (.finite 2)
    let value := if (Number.finite 0).lt maxBound && maxBound.lt value then maxBound else value
    if value.lt (.finite 0) then .finite 0 else value
  | .max _ => if value.lt (.finite 0) then .finite 0 else value
  | .range _ _ => value

/-- `effectiveValue` after the bounds. -/
def clampValue (threshold : Threshold) : DimensionValue → DimensionValue
  | some (.number value) => some (.number (clampNumber threshold value))
  | value => value

/-- The monotonic floor of a min threshold. -/
def floorApplies (dim : Dimension) (entry : ObservationLogEntry) (effectiveValue : DimensionValue) :
    Bool :=
  match effectiveValue, dim.current_value, dim.threshold with
  | some (.number value), some (.number current), .min _ =>
    value.lt current && entry.confidence.lt dim.confidence
  | _, _, _ => false

/-- `LAYER_PRIORITY`. -/
def LAYER_PRIORITY : ObservationLayer → Nat
  | .mechanical => 3
  | .independent_review => 2
  | .self_report => 1

/-- `shouldUpdateConfidence`. -/
def shouldUpdateConfidence (dim : Dimension) (entry : ObservationLogEntry) : Bool :=
  let existingPriority := LAYER_PRIORITY (dim.last_observed_layer.getD .self_report)
  let incomingPriority := LAYER_PRIORITY entry.layer
  existingPriority < incomingPriority ||
    (incomingPriority == existingPriority &&
      (dim.last_observed_layer.isSome || dim.confidence.le entry.confidence))

/-- `updatedDim`. -/
def updatedDim (dim : Dimension) (entry : ObservationLogEntry) : Dimension :=
  let effectiveValue := clampValue dim.threshold entry.extracted_value
  { dim with
    current_value := if floorApplies dim entry effectiveValue then dim.current_value else effectiveValue
    confidence := if shouldUpdateConfidence dim entry then entry.confidence else dim.confidence
    last_observed_layer :=
      if shouldUpdateConfidence dim entry then some entry.layer else dim.last_observed_layer
    last_updated := some entry.timestamp
    history := dim.history ++
      [{ value := entry.extracted_value
         timestamp := entry.timestamp
         confidence := entry.confidence
         source_observation_id := entry.observation_id }] }

/-! ## The goal -/

variable {P : Type}

/-- The callback of `applyObservation`, with the clock it reads; the message of the error it
throws. -/
def updateGoal (goalId : String) (entry : ObservationLogEntry) (now : String) (goal : Goal P) :
    Except String (Goal P) :=
  match observedIndex goal.dimensions entry.dimension_name with
  | none => .error
      s!"applyObservation: dimension \"{entry.dimension_name}\" not found in goal \"{goalId}\""
  | some dimIndex => .ok { goal with
      dimensions := goal.dimensions.modify dimIndex fun dim => updatedDim dim entry
      fields := now }

/-- `applyObservation`: the mutation of the goal, for an entry that is of this goal. -/
def applyObservation (goalId : String) (entry : ObservationLogEntry) (now : String) :
    Except String (StateManager.Mutation Dimension P String ObservationLogEntry) :=
  if entry.goal_id ≠ goalId then .error
    s!"appendObservation: entry.goal_id (\"{entry.goal_id}\") does not match goalId (\"{goalId}\")"
  else .ok <| .appendObservationAndSaveGoal entry fun goal =>
    (updateGoal goalId entry now goal).toOption

/-! ## What clamping does to the verdict -/

/-- Clamping a number leaves the verdict of the judge alone. -/
def KeepsVerdict (value : Number) : Threshold → Prop
  | .min limit =>
    ¬ (value = .posInf ∧ (Number.finite 0).lt limit = true ∧ limit ≠ .posInf) ∧
      ¬ (value.lt (.finite 0) = true ∧ limit.le (.finite 0) = true ∧
        (value = .negInf ∨ value.lt limit = true))
  | .max limit =>
    ¬ (value ≠ .negInf ∧ value.le limit = true ∧ limit.lt (.finite 0) = true) ∧
      ¬ (value = .negInf ∧ (Number.finite 0).le limit = true)
  | .present => ¬ value.lt (.finite 0) = true
  | .match (.number target) =>
    ¬ (value.lt (.finite 0) = true ∧ (target = value ∨ target = .finite 0)) ∧
      ¬ ((Number.finite 1).lt value = true ∧ (target = value ∨ target = .finite 1))
  | .match _ | .range _ _ => True

instance (value : Number) : (threshold : Threshold) → Decidable (KeepsVerdict value threshold)
  | .min _ | .max _ | .match (.number _) => inferInstanceAs (Decidable (_ ∧ _))
  | .present => inferInstanceAs (Decidable (¬ _))
  | .match (.string _) | .match (.boolean _) | .range _ _ => inferInstanceAs (Decidable True)

/-! ## The verdict on a clamped number -/

section

variable (value limit : Number)

theorem isSatisfiedRaw_min :
    isSatisfiedRaw (some (.number value)) (.min limit) = (value.isFinite && limit.le value) := by
  cases value <;> rfl

theorem isSatisfiedRaw_max :
    isSatisfiedRaw (some (.number value)) (.max limit) = (value.isFinite && value.le limit) := by
  cases value <;> rfl

/-- The bounds of a score, one after the other. -/
theorem clampNumber_score {threshold : Threshold}
    (h : threshold = .present ∨ ∃ target, threshold = .match target) :
    clampNumber threshold value =
      if value.lt (.finite 0) = true then .finite 0
      else if (Number.finite 1).lt value = true then .finite 1 else value := by
  have heq : clampNumber threshold value =
      if value.lt (.finite 0) || (Number.finite 1).lt value then
        (Number.finite 0).max ((Number.finite 1).min value)
      else value := by
    rcases h with rfl | ⟨target, rfl⟩
    · rfl
    · rfl
  rw [heq]
  cases value with
  | finite q =>
    by_cases hneg : q < 0
    · simp [hneg, hneg.le, hneg.le.trans zero_le_one]
    · by_cases hbig : 1 < q
      · simp [hneg, hbig, hbig.le]
      · simp [hneg, hbig]
  | nan => simp [Number.lt]
  | negInf => decide +kernel
  | posInf => decide +kernel

theorem clampNumber_min_finite (l q : ℚ) :
    clampNumber (.min (.finite l)) (.finite q) =
      .finite (if q < 0 then 0 else if 0 < l ∧ l * 2 < q then l * 2 else q) := by
  have hpos : 0 < l * 2 ↔ 0 < l := mul_pos_iff_of_pos_right two_pos
  simp only [clampNumber, Number.mul_finite, Number.lt_finite, Bool.and_eq_true,
    decide_eq_true_eq, hpos]
  by_cases hbound : 0 < l ∧ l * 2 < q
  · have hnonneg : ¬ l * 2 < 0 := by linarith [hbound.1]
    have hq : ¬ q < 0 := by linarith [hbound.1, hbound.2]
    simp only [if_pos hbound, if_neg hq, Number.lt_finite, decide_eq_true_eq, if_neg hnonneg]
  · simp only [if_neg hbound, Number.lt_finite, decide_eq_true_eq]
    by_cases hq : q < 0
    · rw [if_pos hq, if_pos hq]
    · rw [if_neg hq, if_neg hq]

theorem verdict_min_iff :
    isSatisfiedRaw (some (.number (clampNumber (.min limit) value))) (.min limit) =
      isSatisfiedRaw (some (.number value)) (.min limit) ↔ KeepsVerdict value (.min limit) := by
  rw [isSatisfiedRaw_min, isSatisfiedRaw_min]
  cases limit with
  | finite l =>
    cases value with
    | finite q =>
      rw [clampNumber_min_finite]
      simp only [KeepsVerdict]
      by_cases hq : q < 0
      · -- the bound 0 meets the limits that are not positive
        by_cases hl : l ≤ 0
        · by_cases hql : q < l
          · simp [hq, hl, hql, hql.not_ge]
          · simp [hq, hl, hql, le_of_not_gt hql]
        · simp [hq, hl, (hq.trans (lt_of_not_ge hl)).not_ge]
      · by_cases hbound : 0 < l ∧ l * 2 < q
        · have hle : l ≤ q := by linarith [hbound.1, hbound.2]
          have hdouble : l ≤ l * 2 := by linarith [hbound.1]
          simp [hq, hbound, hle, hdouble]
        · simp [hq, hbound]
    | nan => simp [clampNumber, KeepsVerdict, Number.lt]
    | negInf =>
      by_cases hl : l ≤ 0
      · simp [clampNumber, KeepsVerdict, Number.lt, hl]
      · simp [clampNumber, KeepsVerdict, Number.lt, hl]
    | posInf =>
      -- an infinity is no number to the judge, twice the limit is
      by_cases hl : 0 < l
      · simp [clampNumber, KeepsVerdict, Number.lt, hl, hl.le]
      · simp [clampNumber, KeepsVerdict, Number.lt, hl]
  | nan => cases value <;> simp [clampNumber, KeepsVerdict, Number.lt]
  | negInf =>
    cases value with
    | finite q =>
      by_cases hq : q < 0
      · simp [clampNumber, KeepsVerdict, hq, hq.le, Number.lt]
      · simp [clampNumber, KeepsVerdict, hq, Number.lt]
    | _ => simp [clampNumber, KeepsVerdict, Number.lt]
  | posInf =>
    cases value with
    | finite q =>
      by_cases hq : q < 0
      · simp [clampNumber, KeepsVerdict, hq, hq.le, Number.lt]
      · simp [clampNumber, KeepsVerdict, hq, Number.lt]
    | _ => simp [clampNumber, KeepsVerdict, Number.lt]

theorem verdict_max_iff :
    isSatisfiedRaw (some (.number (clampNumber (.max limit) value))) (.max limit) =
      isSatisfiedRaw (some (.number value)) (.max limit) ↔ KeepsVerdict value (.max limit) := by
  rw [isSatisfiedRaw_max, isSatisfiedRaw_max]
  simp only [clampNumber, KeepsVerdict]
  cases value with
  | finite q =>
    by_cases hneg : q < 0
    · cases limit with
      | finite l =>
        by_cases hl : l < 0
        · simp [hneg, hl, hl.not_ge]
        · simp [hneg, hl, le_of_not_gt hl, hneg.le.trans (le_of_not_gt hl)]
      | _ => simp [hneg, hneg.le, Number.lt]
    · cases limit with
      | finite l =>
        have hcond : q ≤ l → 0 ≤ l := fun h => (le_of_not_gt hneg).trans h
        simpa [hneg] using hcond
      | _ => simp [le_of_not_gt hneg, Number.lt]
  | nan => simp [Number.lt]
  | negInf => simp [Number.lt]
  | posInf => cases limit <;> simp [Number.lt]

theorem verdict_present_iff :
    isSatisfiedRaw (some (.number (clampNumber .present value))) .present =
      isSatisfiedRaw (some (.number value)) .present ↔ KeepsVerdict value .present := by
  rw [clampNumber_score value (.inl rfl)]
  simp only [KeepsVerdict, isSatisfiedRaw, Drive.isTruthy]
  cases value with
  | finite q =>
    by_cases hneg : q < 0
    · simp [hneg, hneg.ne]
    · by_cases hbig : 1 < q
      · simp [hneg, hbig, (zero_lt_one.trans hbig).ne']
      · simp [hneg, hbig]
  | nan => simp [Number.lt]
  | negInf => simp [Number.lt, Number.strictEq]
  | posInf => simp [Number.lt, Number.strictEq]

theorem verdict_match_iff (target : Primitive) :
    isSatisfiedRaw (some (.number (clampNumber (.match target) value))) (.match target) =
      isSatisfiedRaw (some (.number value)) (.match target) ↔
        KeepsVerdict value (.match target) := by
  cases target with
  | number target =>
    rw [clampNumber_score value (.inr ⟨_, rfl⟩)]
    simp only [KeepsVerdict, isSatisfiedRaw, Primitive.strictEq]
    -- a bound that replaces the value is another number, so the target is at most one of them
    by_cases hneg : value.lt (.finite 0) = true
    · have hbig : ¬ (Number.finite 1).lt value = true := by
        cases value with
        | finite q =>
          rw [Number.lt_finite, decide_eq_true_eq] at hneg ⊢
          linarith
        | _ => simp [Number.lt] at hneg ⊢
      obtain ⟨hne, hnan, -⟩ := Number.ne_of_lt hneg
      rw [if_pos hneg, Number.strictEq_eq_strictEq_iff hne.symm (by decide) hnan]
      simp [hneg, hbig]
    · by_cases hbig : (Number.finite 1).lt value = true
      · obtain ⟨hne, -, hnan⟩ := Number.ne_of_lt hbig
        rw [if_neg hneg, if_pos hbig, Number.strictEq_eq_strictEq_iff hne (by decide) hnan]
        simp [hneg, hbig]
      · simp [hneg, hbig]
  | string s => simp [KeepsVerdict, isSatisfiedRaw, Primitive.strictEq]
  | boolean b => simp [KeepsVerdict, isSatisfiedRaw, Primitive.strictEq]

/-- **What clamping does to the verdict**, threshold by threshold. -/
theorem verdict_iff (threshold : Threshold) :
    isSatisfiedRaw (some (.number (clampNumber threshold value))) threshold =
      isSatisfiedRaw (some (.number value)) threshold ↔ KeepsVerdict value threshold := by
  cases threshold with
  | min limit => exact verdict_min_iff value limit
  | max limit => exact verdict_max_iff value limit
  | range low high => exact iff_of_true rfl trivial
  | present => exact verdict_present_iff value
  | «match» target => exact verdict_match_iff value target

end

/-! ## What is stored -/

/-- What an observation that is applied leaves of the goal. -/
theorem perform_applyObservation {goalId now : String} {entry : ObservationLogEntry}
    {mutation : StateManager.Mutation Dimension P String ObservationLogEntry} {goal goal' : Goal P}
    (happly : applyObservation goalId entry now = .ok mutation)
    (hperform : StateManager.perform goalId (some goal) mutation = some goal') :
    ∃ dimIndex, observedIndex goal.dimensions entry.dimension_name = some dimIndex ∧
      goal' = { goal with
        dimensions := goal.dimensions.modify dimIndex fun dim => updatedDim dim entry
        fields := now } := by
  unfold applyObservation at happly
  split at happly
  · cases happly
  · cases happly
    obtain ⟨hupdate, -⟩ := Option.filter_eq_some_iff.mp hperform
    have hupdate : (updateGoal goalId entry now goal).toOption = some goal' := hupdate
    unfold updateGoal at hupdate
    split at hupdate
    · cases hupdate
    · next dimIndex hindex => exact ⟨dimIndex, hindex, (Option.some.inj hupdate).symm⟩

/-- An entry for the dimension `d` of the goal `g`. -/
def sampleEntry (value : Number) : ObservationLogEntry where
  observation_id := "o"
  timestamp := "t"
  goal_id := "g"
  dimension_name := "d"
  layer := .mechanical
  extracted_value := some (.number value)
  confidence := .finite 1

/-- A goal with one dimension, not observed yet. -/
def sampleGoal (threshold : Threshold) : Goal Unit where
  id := "g"
  dimensions := [{ name := "d", current_value := none, threshold, confidence := .finite 0 }]
  fields := "t"

end PulSeed.Observation
