import PulSeed.Drive.Gap

/-!
# The satisficing judge (`platform/drive/satisficing-judge.ts`, `satisficing-propagation.ts`)

A dimension is satisfied when its value meets its threshold, whatever its gap. A goal is
complete when all its dimensions are met in two judgments in a row: the judge counts, for
every goal, the judgments in a row that found them met. A goal with children is judged by
the children.

The callback `onSatisficingJudgment` and the time of a judgment are left out.
-/

namespace PulSeed.Drive

/-! ## Dimensions -/

/-- `isSatisfiedRaw`. -/
def isSatisfiedRaw (value : DimensionValue) (threshold : Threshold) : Bool :=
  match value with
  | none => false
  | some current =>
    match threshold with
    | .min limit => (toNumberOrNull value).any fun c => limit.le (.finite c)
    | .max limit => (toNumberOrNull value).any fun c => (Number.finite c).le limit
    | .range low high =>
      (toNumberOrNull value).any fun c => low.le (.finite c) && (Number.finite c).le high
    | .present => isTruthy value
    | .match target => current.strictEq target

inductive ConfidenceTier where
  | high
  | medium
  | low
  deriving DecidableEq, Repr

/-- `getConfidenceTier`. -/
def getConfidenceTier (confidence : Number) : ConfidenceTier :=
  if (Number.finite (17 / 20)).le confidence then .high
  else if (Number.finite (1 / 2)).le confidence then .medium
  else .low

/-- `getCeiling`. -/
def getCeiling : ConfidenceTier → ℚ
  | .high => 1
  | .medium => 17 / 20
  | .low => 3 / 5

/-- `dimensionProgress` of a value that is not missing, and 0 otherwise: the method
`computeActualProgress`. -/
def computeActualProgress (dim : Dimension) : Number :=
  if dim.current_value.isNone then .finite 0
  else
    let rawGap := computeRawGap dim.current_value dim.threshold
    let normalizedGap := normalizeGap rawGap dim.threshold dim.current_value
    (Number.finite 1).sub ((Number.finite 0).max ((Number.finite 1).min normalizedGap))

/-- `getNumericThresholdValue`. -/
def getNumericThresholdValue : Threshold → Option Number
  | .min value | .max value => some value
  | .range _ high => some high
  | .present => none
  | .match (.number value) => some value
  | .match _ => none

/-- `DimensionSatisfaction`. -/
structure DimensionSatisfaction where
  dimension_name : String
  is_satisfied : Bool
  current_value : Option ℚ
  threshold_value : Option Number
  confidence : Number
  confidence_tier : ConfidenceTier
  effective_progress : Number
  progress_ceiling : ℚ
  deriving DecidableEq, Repr

/-- `isDimensionSatisfied`. -/
def isDimensionSatisfied (dim : Dimension) : DimensionSatisfaction :=
  let tier := getConfidenceTier dim.confidence
  let ceiling := getCeiling tier
  { dimension_name := dim.name
    is_satisfied := isSatisfiedRaw dim.current_value dim.threshold
    current_value := toNumberOrNull dim.current_value
    threshold_value := getNumericThresholdValue dim.threshold
    confidence := dim.confidence
    confidence_tier := tier
    effective_progress := (computeActualProgress dim).min (.finite ceiling)
    progress_ceiling := ceiling }

/-! ## Goals -/

/-- `GoalStatusEnum`. -/
inductive GoalStatus where
  | active
  | completed
  | cancelled
  | waiting
  | archived
  | abandoned
  deriving DecidableEq, Repr

/-- The fields of a goal that the judge reads. -/
structure Goal where
  id : String
  status : GoalStatus := .active
  dimensions : List Dimension
  children_ids : List String := []
  deriving DecidableEq, Repr

/-- `SatisficingStatus`. -/
inductive SatisficingStatus where
  | satisficed
  | converged_satisficed
  | stalled
  | in_progress
  deriving DecidableEq, Repr

/-- `convergenceStatuses`, a map that may be missing. -/
abbrev ConvergenceStatuses := Option (String → Option SatisficingStatus)

/-- `CompletionJudgment`. -/
structure CompletionJudgment where
  is_complete : Bool
  blocking_dimensions : List String
  low_confidence_dimensions : List String
  needs_verification_task : Bool
  deriving DecidableEq, Repr

/-- `satisficingStreak`; a goal without an entry counts as 0. -/
abbrev Streaks := String → Nat

/-- The satisfaction of a dimension of a goal: one that has converged counts as satisfied. -/
def satisfaction (goal : Goal) (convergenceStatuses : ConvergenceStatuses) (dim : Dimension) :
    DimensionSatisfaction :=
  let base := isDimensionSatisfied dim
  let status := convergenceStatuses.bind fun statuses => statuses s!"{goal.id}:{dim.name}"
  if base.is_satisfied = false ∧ status = some .converged_satisficed then
    { base with
      is_satisfied := true
      confidence_tier := if base.confidence_tier = .low then .medium else base.confidence_tier }
  else base

/-- `blockingDimensions`. -/
def blockingDimensions (goal : Goal) (convergenceStatuses : ConvergenceStatuses) :
    List String :=
  ((goal.dimensions.map (satisfaction goal convergenceStatuses)).filter
    (!·.is_satisfied)).map (·.dimension_name)

/-- `lowConfidenceDimensions`. -/
def lowConfidenceDimensions (goal : Goal) (convergenceStatuses : ConvergenceStatuses) :
    List String :=
  ((goal.dimensions.map (satisfaction goal convergenceStatuses)).filter
    (·.confidence_tier == .low)).map (·.dimension_name)

/-- `allDimensionsMet`. -/
def allDimensionsMet (goal : Goal) (convergenceStatuses : ConvergenceStatuses) : Bool :=
  blockingDimensions goal convergenceStatuses = [] ∧
    lowConfidenceDimensions goal convergenceStatuses = []

/-- `isGoalComplete`: the judgment, and the streaks after it. -/
def isGoalComplete (goal : Goal) (convergenceStatuses : ConvergenceStatuses)
    (satisficingStreak : Streaks) : CompletionJudgment × Streaks :=
  if goal.dimensions = [] then
    ({ is_complete := true
       blocking_dimensions := []
       low_confidence_dimensions := []
       needs_verification_task := false }, satisficingStreak)
  else
    let satisfactions := goal.dimensions.map (satisfaction goal convergenceStatuses)
    let streak := satisficingStreak goal.id + 1
    let isComplete := allDimensionsMet goal convergenceStatuses && 2 ≤ streak
    ({ is_complete := isComplete
       blocking_dimensions := blockingDimensions goal convergenceStatuses
       low_confidence_dimensions := lowConfidenceDimensions goal convergenceStatuses
       needs_verification_task := satisfactions.any fun s =>
         s.is_satisfied && s.confidence.lt (.finite (17 / 20)) },
      -- a confirmed completion and an unmet dimension both start the count again
      Function.update satisficingStreak goal.id
        (if allDimensionsMet goal convergenceStatuses = true ∧ isComplete = false then streak
          else 0))

/-! ## Trees -/

/-- What a goal with children was judged on: its judgment, and those of its children that
were judged. -/
structure Report where
  goal : Goal
  judgment : CompletionJudgment
  children : List CompletionJudgment
  deriving DecidableEq, Repr

/-- The variables of the loop over the children, with the streaks and, as a record of what
happens, the judgments made. -/
structure Tally where
  blockingDimensions : List String := []
  lowConfidenceDimensions : List String := []
  needsVerification : Bool := false
  satisficingStreak : Streaks
  judged : List CompletionJudgment := []
  reports : List Report := []

/-- `if (!dims.includes(dim)) dims.push(dim)`, for each of the new ones. -/
def pushNew (dims new : List String) : List String :=
  new.foldl (fun dims dim => if dim ∈ dims then dims else dims ++ [dim]) dims

/-- The tally after the judgment of a child. -/
def Tally.add (tally : Tally) (judgment : CompletionJudgment) (streaks : Streaks)
    (reports : List Report) : Tally where
  blockingDimensions := if judgment.is_complete then tally.blockingDimensions
    else pushNew tally.blockingDimensions judgment.blocking_dimensions
  lowConfidenceDimensions := if judgment.is_complete then tally.lowConfidenceDimensions
    else pushNew tally.lowConfidenceDimensions judgment.low_confidence_dimensions
  needsVerification := tally.needsVerification || judgment.needs_verification_task
  satisficingStreak := streaks
  judged := tally.judged ++ [judgment]
  reports := tally.reports ++ reports

section Tree

variable (loadGoal : String → Option Goal) (convergenceStatuses : ConvergenceStatuses)

/-- The loop over the children. -/
def judgeChildren
    (judge : String → Streaks → Option (CompletionJudgment × Streaks × List Report)) :
    List String → Tally → Option Tally
  | [], tally => some tally
  | childId :: rest, tally =>
    match loadGoal childId with
    | none => judgeChildren judge rest
        { tally with blockingDimensions := tally.blockingDimensions ++ [childId] }
    | some child =>
      if child.status = .cancelled then judgeChildren judge rest tally
      else
        match judge childId tally.satisficingStreak with
        | none => none
        | some (judgment, streaks, reports) =>
          judgeChildren judge rest (tally.add judgment streaks reports)

/-- The judgment of a goal with children. -/
def Tally.judgment (tally : Tally) : CompletionJudgment where
  is_complete := tally.blockingDimensions = [] ∧ tally.lowConfidenceDimensions = []
  blocking_dimensions := tally.blockingDimensions
  low_confidence_dimensions := tally.lowConfidenceDimensions
  needs_verification_task := tally.needsVerification

/-- `judgeTreeCompletion`, for a recursion of the given depth. -/
def judgeTreeCompletion :
    Nat → String → Streaks → Option (CompletionJudgment × Streaks × List Report)
  | 0, _, _ => none
  | depth + 1, rootId, satisficingStreak =>
    match loadGoal rootId with
    | none => some (⟨false, [], [], false⟩, satisficingStreak, [])
    | some goal =>
      if goal.children_ids = [] then
        let (judgment, streaks) := isGoalComplete goal convergenceStatuses satisficingStreak
        some (judgment, streaks, [])
      else
        (judgeChildren loadGoal (judgeTreeCompletion depth) goal.children_ids
          { satisficingStreak }).map fun tally =>
            (tally.judgment, tally.satisficingStreak,
              tally.reports ++ [⟨goal, tally.judgment, tally.judged⟩])

end Tree

end PulSeed.Drive
