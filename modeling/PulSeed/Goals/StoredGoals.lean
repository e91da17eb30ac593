import Mathlib.Data.Set.Card
import PulSeed.Goals.TreeLoop

/-!
# Goals in the database

There are finitely many stored goals, and a goal that is read from JSON has no number that is
not finite. On such a store the aggregation of a stored goal does not throw, whatever the
links (`aggregateChildStates_stored`): the aggregated gap and confidence are finite, and so
are the values made from them. It changes the dimensions of the goal and nothing else.
-/

namespace PulSeed.TreeLoop

open Drive (DimensionValue Primitive Threshold)

/-! ## Finite numbers -/

/-- The numbers of a threshold are finite. -/
def ThresholdFinite : Threshold → Prop
  | .min value | .max value => value.isFinite = true
  | .range low high => low.isFinite = true ∧ high.isFinite = true
  | .present | .match _ => True

/-- The numbers of a dimension are finite. -/
structure Dimension.NumbersFinite (dim : Dimension) : Prop where
  value : ∀ x, dim.current_value = some (.number x) → x.isFinite = true
  threshold : ThresholdFinite dim.threshold
  confidence : dim.confidence.isFinite = true

def Goal.NumbersFinite (goal : Goal) : Prop := ∀ dim ∈ goal.dimensions, dim.NumbersFinite

section Lists

variable {values : List Number} (hvalues : ∀ x ∈ values, x.isFinite = true)

include hvalues

theorem isFinite_foldl {f : Number → Number → Number}
    (hf : ∀ x y, x.isFinite = true → y.isFinite = true → (f x y).isFinite = true) (init : Number)
    (hinit : init.isFinite = true) : (values.foldl f init).isFinite = true := by
  induction values generalizing init with
  | nil => exact hinit
  | cons x values ih =>
    exact ih (fun y hy => hvalues y (List.mem_cons_of_mem x hy)) (f init x)
      (hf init x hinit (hvalues x List.mem_cons_self))

theorem isFinite_sumOf : (sumOf values).isFinite = true :=
  isFinite_foldl hvalues (fun _ _ => Number.isFinite_add) (.finite 0) rfl

variable (hne : values ≠ [])

include hne

theorem isFinite_minOf : (minOf values).isFinite = true := by
  cases values with
  | nil => exact absurd rfl hne
  | cons x values =>
    obtain ⟨q, rfl⟩ := Number.isFinite_iff.mp (hvalues x List.mem_cons_self)
    exact isFinite_foldl (fun y hy => hvalues y (List.mem_cons_of_mem _ hy))
      (fun _ _ => Number.isFinite_min) (Number.posInf.min (.finite q)) rfl

theorem isFinite_maxOf : (maxOf values).isFinite = true := by
  cases values with
  | nil => exact absurd rfl hne
  | cons x values =>
    obtain ⟨q, rfl⟩ := Number.isFinite_iff.mp (hvalues x List.mem_cons_self)
    exact isFinite_foldl (fun y hy => hvalues y (List.mem_cons_of_mem _ hy))
      (fun _ _ => Number.isFinite_max) (Number.negInf.max (.finite q)) rfl

theorem isFinite_average : ((sumOf values).div (.finite values.length)).isFinite = true := by
  refine Number.isFinite_div (isFinite_sumOf hvalues) rfl ?_
  have hlength : (values.length : ℚ) ≠ 0 := by
    exact_mod_cast (List.length_pos_iff.mpr hne).ne'
  rw [Number.strictEq_finite]
  exact decide_eq_false hlength

end Lists

theorem isFinite_clampUnit {x : Number} (hx : x.isFinite = true) :
    (clampUnit x).isFinite = true :=
  Number.isFinite_min rfl (Number.isFinite_max rfl hx)

theorem isFinite_aggregateValues {values : List Number} (hvalues : ∀ x ∈ values, x.isFinite = true)
    (aggregation : SatisficingAggregation) : (aggregateValues values aggregation).isFinite = true := by
  unfold aggregateValues
  split
  · rfl
  · next hne =>
    cases aggregation with
    | min => exact isFinite_minOf hvalues hne
    | max => exact isFinite_maxOf hvalues hne
    | avg => exact isFinite_average hvalues hne
    | all_required => exact isFinite_minOf hvalues hne

/-! ## Gaps of finite dimensions -/

theorem isFinite_normalizeGap {threshold : Threshold} (hthreshold : ThresholdFinite threshold)
    (rawGap : Number) (value : DimensionValue) :
    (Drive.normalizeGap rawGap threshold value).isFinite = true := by
  unfold Drive.normalizeGap
  cases hraw : rawGap.isFinite with
  | false => rfl
  | true =>
    simp only [Bool.not_true, Bool.false_eq_true, if_false]
    split
    · rfl
    · split
      · rfl
      · cases threshold with
        | min limit =>
          dsimp only
          split
          · split <;> rfl
          · next hzero => exact Number.isFinite_div hraw hthreshold (Bool.eq_false_of_not_eq_true hzero)
        | max limit =>
          dsimp only
          split
          · exact Number.isFinite_min hraw rfl
          · next hzero => exact Number.isFinite_div hraw hthreshold (Bool.eq_false_of_not_eq_true hzero)
        | range low high =>
          dsimp only
          have hwidth : ((high.sub low).div (.finite 2)).isFinite = true :=
            Number.isFinite_div (Number.isFinite_sub hthreshold.2 hthreshold.1) rfl rfl
          split
          · split <;> rfl
          · next hzero =>
            exact Number.isFinite_min rfl
              (Number.isFinite_div hraw hwidth (Bool.eq_false_of_not_eq_true hzero))
        | present => exact hraw
        | «match» value => exact hraw

theorem isFinite_computeDimensionGapSimple {dim : Dimension} (hdim : dim.NumbersFinite) :
    (computeDimensionGapSimple dim).isFinite = true := by
  unfold computeDimensionGapSimple dimensionProgress
  by_cases hvalue : dim.current_value.isNone
  · rw [if_pos hvalue]
    rfl
  · rw [if_neg hvalue]
    exact Number.isFinite_sub rfl (Number.isFinite_sub rfl (Number.isFinite_max rfl
      (Number.isFinite_min rfl (isFinite_normalizeGap hdim.threshold _ _))))

theorem isFinite_computeChildGap {goal : Goal} (hgoal : goal.NumbersFinite) :
    (computeChildGap goal).isFinite = true := by
  unfold computeChildGap
  split
  · rfl
  · next hne =>
    split
    · rfl
    · refine isFinite_clampUnit ?_
      have hgaps : ∀ x ∈ goal.dimensions.map computeDimensionGapSimple, x.isFinite = true := by
        intro x hx
        obtain ⟨dim, hdim, rfl⟩ := List.mem_map.mp hx
        exact isFinite_computeDimensionGapSimple (hgoal dim hdim)
      have haverage := isFinite_average hgaps (List.map_eq_nil_iff.not.mpr hne)
      rwa [List.length_map] at haverage

theorem isFinite_minChildConfidence {goal : Goal} (hgoal : goal.NumbersFinite) :
    (minChildConfidence goal).isFinite = true := by
  unfold minChildConfidence
  split
  · rfl
  · next hne =>
    refine isFinite_minOf ?_ (List.map_eq_nil_iff.not.mpr hne)
    intro x hx
    obtain ⟨dim, hdim, rfl⟩ := List.mem_map.mp hx
    exact (hgoal dim hdim).confidence

/-! ## Aggregation -/

section Children

variable {children : List (Option Goal)}
variable (hchildren : ∀ child, some child ∈ children → child.NumbersFinite)

include hchildren

theorem isFinite_aggregatedGap (aggregation : SatisficingAggregation) :
    (aggregatedGap aggregation children).isFinite = true := by
  have hgaps : ∀ x ∈ children.map fun child => child.elim (.finite 1) computeChildGap,
      x.isFinite = true := by
    intro x hx
    obtain ⟨child, hchild, rfl⟩ := List.mem_map.mp hx
    cases child with
    | none => rfl
    | some child => exact isFinite_computeChildGap (hchildren child hchild)
  unfold aggregatedGap
  refine isFinite_clampUnit ?_
  split
  · rfl
  · split
    · refine Number.isFinite_sub rfl (isFinite_aggregateValues ?_ _)
      intro x hx
      obtain ⟨gap, hgap, rfl⟩ := List.mem_map.mp hx
      exact Number.isFinite_sub rfl (hgaps gap hgap)
    · exact isFinite_aggregateValues hgaps _

theorem isFinite_aggregatedConfidence : (aggregatedConfidence children).isFinite = true := by
  unfold aggregatedConfidence
  split
  · rfl
  · next hne =>
    refine isFinite_minOf ?_ (List.map_eq_nil_iff.not.mpr hne)
    intro x hx
    obtain ⟨child, hchild, rfl⟩ := List.mem_map.mp hx
    cases child with
    | none => rfl
    | some child => exact isFinite_minChildConfidence (hchildren child hchild)

end Children

theorem isFinite_syntheticValue {threshold : Threshold} (hthreshold : ThresholdFinite threshold)
    {gap x : Number} (hgap : gap.isFinite = true) (hx : syntheticValue threshold gap = some x) :
    x.isFinite = true := by
  cases threshold with
  | min value =>
    cases hx
    exact Number.isFinite_mul hthreshold (Number.isFinite_sub rfl hgap)
  | max value =>
    cases hx
    exact Number.isFinite_mul hthreshold (Number.isFinite_add rfl hgap)
  | range low high =>
    cases hx
    exact Number.isFinite_mul
      (Number.isFinite_div (Number.isFinite_add hthreshold.1 hthreshold.2) rfl rfl)
      (Number.isFinite_sub rfl hgap)
  | present => exact nomatch hx
  | «match» value => exact nomatch hx

theorem Dimension.NumbersFinite.aggregated {dim : Dimension} (hdim : dim.NumbersFinite)
    {gap confidence : Number} (hgap : gap.isFinite = true) (hconfidence : confidence.isFinite = true) :
    (aggregatedDimension gap confidence dim).NumbersFinite := by
  unfold aggregatedDimension
  split
  · exact hdim
  · next value hvalue =>
    refine ⟨?_, hdim.threshold, hconfidence⟩
    intro x hx
    cases hx
    exact isFinite_syntheticValue hdim.threshold hgap hvalue

/-- A goal whose numbers are finite is saved. -/
theorem Goal.NumbersFinite.parses {goal : Goal} (hgoal : goal.NumbersFinite) :
    goal.parses = true := by
  refine List.all_eq_true.mpr fun dim hdim => ?_
  rw [decide_eq_true_iff]
  exact fun hnan => nomatch (hgoal dim hdim).value .nan hnan

/-! ## Stored goals -/

/-- Finitely many goals, with finite numbers. -/
structure StoredGoals extends GoalStore where
  finite : {id | (loadGoal id).isSome}.Finite
  numbers : ∀ id goal, loadGoal id = some goal → goal.NumbersFinite

/-- The goals have the same links. -/
structure SameLinks (store store' : GoalStore) : Prop where
  stored : ∀ id, (store'.loadGoal id).isSome ↔ (store.loadGoal id).isSome
  parents : ∀ id, (store'.loadGoal id).bind (·.parent_id) = (store.loadGoal id).bind (·.parent_id)

theorem SameLinks.refl (store : GoalStore) : SameLinks store store := ⟨fun _ => .rfl, fun _ => rfl⟩

/-- A stored goal is saved with the same parent. -/
theorem SameLinks.put {store : GoalStore} {goal new : Goal} (hgoal : store.loadGoal new.id = some goal)
    (hparent : new.parent_id = goal.parent_id) : SameLinks store (store.put new) where
  stored := by
    intro id
    by_cases hid : id = new.id
    · subst hid
      simp [GoalStore.put, hgoal]
    · simp [GoalStore.put, Function.update_of_ne hid]
  parents := by
    intro id
    by_cases hid : id = new.id
    · subst hid
      simp [GoalStore.put, hgoal, hparent]
    · simp [GoalStore.put, Function.update_of_ne hid]

namespace StoredGoals

variable (goals : StoredGoals)

/-- A stored goal, saved with finite numbers. -/
def put (goal : Goal) (hgoal : goal.NumbersFinite) : StoredGoals where
  toGoalStore := goals.toGoalStore.put goal
  finite := by
    refine (goals.finite.insert goal.id).subset fun id hid => ?_
    by_cases hsame : id = goal.id
    · exact .inl hsame
    · refine .inr ?_
      simpa [GoalStore.put, Function.update_of_ne hsame] using hid
  numbers := by
    intro id g hg
    have hg : Function.update goals.loadGoal goal.id (some goal) id = some g := hg
    by_cases hsame : id = goal.id
    · rw [hsame, Function.update_self] at hg
      cases hg
      exact hgoal
    · rw [Function.update_of_ne hsame] at hg
      exact goals.numbers id g hg

/-- **The aggregation of a stored goal** does not throw, and keeps the links. -/
theorem aggregateChildStates_stored (aggregationRules : String → Option SatisficingAggregation)
    {parentId : String} (hparent : (goals.loadGoal parentId).isSome) :
    ∃ goals' : StoredGoals,
      aggregateChildStates aggregationRules goals.toGoalStore parentId = some goals'.toGoalStore ∧
        SameLinks goals.toGoalStore goals'.toGoalStore := by
  obtain ⟨parent, hload⟩ := Option.isSome_iff_exists.mp hparent
  have hchildren : ∀ child, some child ∈ parent.children_ids.map goals.loadGoal →
      child.NumbersFinite := by
    intro child hchild
    obtain ⟨childId, -, hchild⟩ := List.mem_map.mp hchild
    exact goals.numbers childId child hchild
  unfold aggregateChildStates
  simp only [hload]
  split
  · exact ⟨goals, rfl, .refl _⟩
  · have hupdated : Goal.NumbersFinite { parent with
        dimensions := parent.dimensions.map (aggregatedDimension
          (aggregatedGap ((aggregationRules parentId).getD .min)
            (parent.children_ids.map goals.loadGoal))
          (aggregatedConfidence (parent.children_ids.map goals.loadGoal))) } := by
      intro dim hdim
      obtain ⟨old, hold, rfl⟩ := List.mem_map.mp hdim
      exact (goals.numbers parentId parent hload old hold).aggregated
        (isFinite_aggregatedGap hchildren _) (isFinite_aggregatedConfidence hchildren)
    rw [if_pos hupdated.parses]
    have hsaved : goals.loadGoal parent.id = some parent := goals.loadGoal_self hload
    exact ⟨goals.put _ hupdated, rfl, SameLinks.put hsaved rfl⟩

end StoredGoals

end PulSeed.TreeLoop
