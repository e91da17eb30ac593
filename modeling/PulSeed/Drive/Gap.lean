import PulSeed.Drive.Values

/-!
# Gap calculation (`platform/drive/gap-calculator.ts`)

The gap of a dimension in three steps: the raw gap in the unit of the threshold, the
normalized gap, and the gap weighted by the confidence of the observation.
-/

namespace PulSeed.Drive

/-- `x || 1`. -/
def orOne (x : Number) : Number := if x = .nan ∨ x.strictEq (.finite 0) = true then .finite 1 else x

/-- `fullNumericGap`; the thresholds that are not numeric have none. -/
def fullNumericGap : Threshold → Number
  | .min value | .max value => orOne value.abs
  | .range low high => orOne (high.sub low).abs
  | .present | .match _ => .finite 1

/-- `computeRawGap` of a missing value. -/
def missingRawGap : Threshold → Number
  | .min value => value
  | .max value => if (Number.finite 0).lt value then value else .finite 1
  | .range low high => high.sub low
  | .present => .finite 1
  | .match _ => .finite 1

/-- `computeRawGap`. -/
def computeRawGap (currentValue : DimensionValue) (threshold : Threshold) : Number :=
  match currentValue with
  | none => missingRawGap threshold
  | some value =>
    match threshold with
    | .min limit =>
      match toFiniteNumberOrNull (some value) with
      | none => fullNumericGap threshold
      | some current => (Number.finite 0).max (limit.sub (.finite current))
    | .max limit =>
      match toFiniteNumberOrNull (some value) with
      | none => fullNumericGap threshold
      | some current => (Number.finite 0).max ((Number.finite current).sub limit)
    | .range low high =>
      match toFiniteNumberOrNull (some value) with
      | none => fullNumericGap threshold
      | some current =>
        ((Number.finite 0).max (low.sub (.finite current))).add
          ((Number.finite 0).max ((Number.finite current).sub high))
    | .present => if isTruthy (some value) then .finite 0 else .finite 1
    | .match target =>
      match value with
      -- a number is a score between 0 and 1, whatever it is matched with
      | .number x =>
        if x.isFinite then (Number.finite 0).max ((Number.finite 1).min ((Number.finite 1).sub x))
        else .finite 1
      | value => if value.strictEq target then .finite 0 else .finite 1

/-- `normalizeGap`. -/
def normalizeGap (rawGap : Number) (threshold : Threshold) (currentValue : DimensionValue) :
    Number :=
  if !rawGap.isFinite then .finite 1
  else if threshold.isNumeric && currentValue.isSome &&
      (toFiniteNumberOrNull currentValue).isNone then .finite 1
  else if currentValue.isNone then .finite 1
  else
    match threshold with
    | .min limit =>
      if limit.strictEq (.finite 0) then
        if (Number.finite 0).lt rawGap then .finite 1 else .finite 0
      else rawGap.div limit
    | .max limit =>
      if limit.strictEq (.finite 0) then rawGap.min (.finite 1)
      else rawGap.div limit
    | .range low high =>
      let halfWidth := (high.sub low).div (.finite 2)
      if halfWidth.strictEq (.finite 0) then
        if (Number.finite 0).lt rawGap then .finite 1 else .finite 0
      else (Number.finite 1).min (rawGap.div halfWidth)
    | .present => rawGap
    | .match _ => rawGap

/-- `applyConfidenceWeight`. -/
def applyConfidenceWeight (normalizedGap confidence uncertaintyWeight : Number)
    (currentValueIsNull : Bool) : Number :=
  if currentValueIsNull then normalizedGap
  else
    let weighted := normalizedGap.mul
      ((Number.finite 1).add (((Number.finite 1).sub confidence).mul uncertaintyWeight))
    (Number.finite 1).min weighted

/-- `WeightedGap`. -/
structure WeightedGap where
  dimension_name : String
  raw_gap : Number
  normalized_gap : Number
  normalized_weighted_gap : Number
  confidence : Number
  uncertainty_weight : Number
  deriving DecidableEq, Repr

/-- `calculateDimensionGap`. -/
def calculateDimensionGap (dim : Dimension) (globalUncertaintyWeight : Number) : WeightedGap :=
  let effectiveWeight := dim.uncertainty_weight.getD globalUncertaintyWeight
  let rawGap := computeRawGap dim.current_value dim.threshold
  let normalizedGap := normalizeGap rawGap dim.threshold dim.current_value
  { dimension_name := dim.name
    raw_gap := rawGap
    normalized_gap := normalizedGap
    normalized_weighted_gap := applyConfidenceWeight normalizedGap dim.confidence effectiveWeight
      dim.current_value.isNone
    confidence := dim.confidence
    uncertainty_weight := effectiveWeight }

end PulSeed.Drive
