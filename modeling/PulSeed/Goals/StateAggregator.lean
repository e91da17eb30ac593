import Mathlib.Data.List.Sort
import PulSeed.Drive.Satisficing

/-!
# Aggregation of a goal tree (`orchestrator/goal/state-aggregator.ts`, `subgoal-curriculum.ts`)

The stored goals, the roll-up of the gaps of the children into the dimensions of their
parent, the ancestors that become complete with a goal, and the difficulty of a subgoal.
Saving a goal parses it: what is not a number is refused.

The times of updates are left out, as is what an aggregation returns: nothing reads them.
-/

namespace PulSeed.TreeLoop

open Drive (GoalStatus Threshold)

/-! ## Goals -/

/-- `GoalNodeTypeEnum`. -/
inductive GoalNodeType
  | goal | subgoal | milestone | leaf
  deriving DecidableEq

/-- `loop_status`. -/
inductive LoopStatus
  | idle | running | paused
  deriving DecidableEq

/-- `GapAggregationEnum`. -/
inductive GapAggregation
  | max | weighted_avg | sum
  deriving DecidableEq

/-- `SatisficingAggregationEnum`. -/
inductive SatisficingAggregation
  | min | avg | max | all_required
  deriving DecidableEq

/-- A dimension with its weight in an average. -/
structure Dimension extends Drive.Dimension where
  weight : Number := .finite 1
  deriving DecidableEq

/-- The fields of `GoalSchema` that the loops of a tree read or write. -/
structure Goal where
  id : String
  parent_id : Option String := none
  node_type : GoalNodeType := .goal
  status : GoalStatus := .active
  dimensions : List Dimension := []
  gap_aggregation : GapAggregation := .max
  children_ids : List String := []
  uncertainty_weight : Number := .finite 1
  decomposition_depth : ℕ := 0
  loop_status : LoopStatus := .idle
  deriving DecidableEq

/-- The stored goals; each is found under its id. -/
structure GoalStore where
  loadGoal : String → Option Goal
  loadGoal_id : ∀ {id goal}, loadGoal id = some goal → goal.id = id

theorem GoalStore.loadGoal_self (store : GoalStore) {id : String} {goal : Goal}
    (h : store.loadGoal id = some goal) : store.loadGoal goal.id = some goal := by
  rw [store.loadGoal_id h, h]

/-- A goal, saved. -/
def GoalStore.put (store : GoalStore) (goal : Goal) : GoalStore where
  loadGoal := Function.update store.loadGoal goal.id (some goal)
  loadGoal_id := by
    intro id g h
    by_cases hid : id = goal.id
    · subst hid
      rw [Function.update_self] at h
      cases h
      rfl
    · rw [Function.update_of_ne hid] at h
      exact store.loadGoal_id h

theorem GoalStore.loadGoal_put (store : GoalStore) (goal : Goal) (id : String) :
    (store.put goal).loadGoal id = if id = goal.id then some goal else store.loadGoal id :=
  Function.update_apply ..

/-- `GoalSchema.parse`, for values that an update has computed. -/
def Goal.parses (goal : Goal) : Bool :=
  goal.dimensions.all fun dim => dim.current_value ≠ some (.number .nan)

/-! ## Gaps -/

/-- `Math.min(...values)`. -/
def minOf (values : List Number) : Number := values.foldl Number.min .posInf

/-- `Math.max(...values)`. -/
def maxOf (values : List Number) : Number := values.foldl Number.max .negInf

/-- `values.reduce((sum, v) => sum + v, 0)`. -/
def sumOf (values : List Number) : Number := values.foldl Number.add (.finite 0)

/-- `Math.min(1, Math.max(0, x))`. -/
def clampUnit (x : Number) : Number := (Number.finite 1).min ((Number.finite 0).max x)

/-- `dimensionProgress`. -/
def dimensionProgress (value : Drive.DimensionValue) (threshold : Threshold) : Option Number :=
  if value.isNone then none
  else
    let normalizedGap :=
      Drive.normalizeGap (Drive.computeRawGap value threshold) threshold value
    some ((Number.finite 1).sub ((Number.finite 0).max ((Number.finite 1).min normalizedGap)))

/-- `computeDimensionGapSimple`. -/
def computeDimensionGapSimple (dim : Dimension) : Number :=
  match dimensionProgress dim.current_value dim.threshold with
  | none => .finite 1
  | some progress => (Number.finite 1).sub progress

/-- `computeChildGap`. -/
def computeChildGap (goal : Goal) : Number :=
  if goal.dimensions = [] then .finite 0
  else if goal.status = .completed ∨ goal.status = .cancelled ∨ goal.status = .abandoned then
    .finite 0
  else
    clampUnit ((sumOf (goal.dimensions.map computeDimensionGapSimple)).div
      (.finite goal.dimensions.length))

/-- `minChildConfidence`. -/
def minChildConfidence (goal : Goal) : Number :=
  if goal.dimensions = [] then .finite 1 else minOf (goal.dimensions.map (·.confidence))

/-- `aggregateValues`. -/
def aggregateValues (values : List Number) (aggregation : SatisficingAggregation) : Number :=
  if values = [] then .finite 0
  else
    match aggregation with
    | .min => minOf values
    | .max => maxOf values
    | .avg => (sumOf values).div (.finite values.length)
    | .all_required => minOf values

/-- `aggregateGaps`, with one weight for each gap. -/
def aggregateGaps (childGaps : List Number) (method : GapAggregation) (weights : List Number) :
    Number :=
  if childGaps = [] then .finite 0
  else
    match method with
    | .max => maxOf childGaps
    | .sum => sumOf childGaps
    | .weighted_avg =>
      let totalWeight := sumOf weights
      if totalWeight.strictEq (.finite 0) then .finite 0
      else (sumOf (List.zipWith Number.mul childGaps weights)).div totalWeight

/-! ## Aggregation -/

/-- The value that stands for an aggregated gap, for a numeric threshold. -/
def syntheticValue (threshold : Threshold) (clampedGap : Number) : Option Number :=
  match threshold with
  | .min value => some (value.mul ((Number.finite 1).sub clampedGap))
  | .max value => some (value.mul ((Number.finite 1).add clampedGap))
  | .range low high =>
    some (((low.add high).div (.finite 2)).mul ((Number.finite 1).sub clampedGap))
  | .present | .match _ => none

/-- A dimension of the parent after the aggregation. -/
def aggregatedDimension (clampedGap aggregatedConfidence : Number) (dim : Dimension) :
    Dimension :=
  match syntheticValue dim.threshold clampedGap with
  | none => dim
  | some value =>
    { dim with current_value := some (.number value), confidence := aggregatedConfidence }

/-- `clampedGap`, from the gaps of the children; a missing child counts as fully unmet. -/
def aggregatedGap (aggregation : SatisficingAggregation) (children : List (Option Goal)) :
    Number :=
  let gapValues := children.map fun child => child.elim (.finite 1) computeChildGap
  let gap :=
    if children = [] then .finite 0
    else
      match aggregation with
      | .all_required =>
        (Number.finite 1).sub
          (aggregateValues (gapValues.map fun g => (Number.finite 1).sub g) .all_required)
      | aggregation => aggregateValues gapValues aggregation
  clampUnit gap

/-- `aggregatedConfidence`, from the confidences of the children. -/
def aggregatedConfidence (children : List (Option Goal)) : Number :=
  if children = [] then .finite 1
  else minOf (children.map fun child => child.elim (.finite 0) minChildConfidence)

/-- `aggregateChildStates`: the store after it, unless it throws. -/
def aggregateChildStates (aggregationRules : String → Option SatisficingAggregation)
    (store : GoalStore) (parentId : String) : Option GoalStore :=
  match store.loadGoal parentId with
  | none => none
  | some parent =>
    let children := parent.children_ids.map store.loadGoal
    let clampedGap := aggregatedGap ((aggregationRules parentId).getD .min) children
    if children = [] ∨ parent.dimensions = [] then some store
    else
      let updated := { parent with
        dimensions :=
          parent.dimensions.map (aggregatedDimension clampedGap (aggregatedConfidence children)) }
      if updated.parses then some (store.put updated) else none

/-- The child no longer keeps its parent from being complete. -/
def isDone (store : GoalStore) (effectivelyComplete : List String) (childId : String) : Bool :=
  childId ∈ effectivelyComplete ||
    (store.loadGoal childId).any fun child =>
      child.status = .completed || child.status = .cancelled || child.status = .abandoned

/-- The walk of `checkCompletionCascade`; `none` stands for one that does not end within so
many ancestors. -/
def completionCascade (store : GoalStore) :
    ℕ → List String → String → Option (List String)
  | 0, _, _ => none
  | depth + 1, effectivelyComplete, currentId =>
    match ((store.loadGoal currentId).bind (·.parent_id)).bind store.loadGoal with
    | none => some []
    | some parent =>
      if parent.children_ids.all (isDone store effectivelyComplete) then
        (completionCascade store depth (effectivelyComplete ++ [parent.id]) parent.id).map
          (parent.id :: ·)
      else some []

/-- `checkCompletionCascade`. -/
def checkCompletionCascade (store : GoalStore) (depth : ℕ) (goalId : String) :
    Option (List String) :=
  completionCascade store depth [goalId] goalId

/-! ## Difficulty -/

/-- `NEAR_COMPLETE_GAP_THRESHOLD`. -/
def NEAR_COMPLETE_GAP_THRESHOLD : ℚ := 1 / 10

/-- `estimateDifficulty`. -/
def estimateDifficulty (goal : Goal) : Number :=
  if goal.dimensions = [] then .finite (1 / 2)
  else
    let gapValues := goal.dimensions.map fun dim =>
      (Drive.calculateDimensionGap dim.toDimension goal.uncertainty_weight).normalized_gap
    let minConfidence := minOf (goal.dimensions.map (·.confidence))
    let aggregatedGap := aggregateGaps gapValues goal.gap_aggregation
      (goal.dimensions.map (·.weight))
    if aggregatedGap.lt (.finite NEAR_COMPLETE_GAP_THRESHOLD) then .finite (1 / 2)
    else clampUnit (aggregatedGap.mul ((Number.finite 1).sub minConfidence))

/-- An eligible leaf. -/
structure CurriculumEntry where
  id : String
  depth : ℕ
  difficulty : Number

/-- The comparison of `curriculumSort` puts the first not after the second. -/
def CurriculumEntry.notAfter (a b : CurriculumEntry) : Bool :=
  let aDist := (a.difficulty.sub (.finite (1 / 2))).abs
  let bDist := (b.difficulty.sub (.finite (1 / 2))).abs
  if aDist.strictEq bDist then b.depth ≤ a.depth
  else !((Number.finite 0).lt (aDist.sub bDist))

/-- `curriculumSort`, a stable sort. -/
def curriculumSort (entries : List CurriculumEntry) : List CurriculumEntry :=
  entries.insertionSort fun a b => a.notAfter b = true

end PulSeed.TreeLoop
