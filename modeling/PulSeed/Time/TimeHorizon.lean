import PulSeed.Lib.TimeValue

/-!
# The time horizon (`platform/time/time-horizon-engine.ts`)

The engine estimates how fast the gap of a goal closes from the observations of it, says
whether that is fast enough for the deadline, and when the goal will be reached.

A date that is read is what `new Date(...).getTime()` gives: a number of milliseconds, or not a
number. A date that is written is a `TimeValue`; a function that would write another one throws
(`none`). The clock gives the milliseconds since the epoch, and is read anew for each date.
Arithmetic is exact, and the square root a parameter.
-/

namespace PulSeed.Time

/-- `EPSILON`. -/
def EPSILON : ℚ := 1 / 1000000000

/-- `MAX_PACING_RATIO`. -/
def MAX_PACING_RATIO : ℚ := 1000000

/-- The milliseconds of an hour. -/
def HOUR_MS : ℚ := 3600000

/-- `GapObservation`. -/
structure GapObservation where
  timestamp : Number
  normalizedGap : Number

/-- `PacingStatus`. -/
inductive PacingStatus where
  | ahead
  | on_track
  | behind
  | critical
  | no_deadline
  deriving DecidableEq, Repr

/-- `PacingRecommendation`. -/
inductive PacingRecommendation where
  | maintain_course
  | increase_effort
  | consider_strategy_change
  | escalate_to_user
  | sustainable_pace_ok
  | sustainable_pace_declining
  deriving DecidableEq, Repr

/-- A threshold of the pacing ratio, as the schema admits it. -/
structure PacingThreshold where
  value : ℚ
  positive : 0 < value
  bounded : value ≤ MAX_PACING_RATIO

/-- A share, as the schema admits it. -/
structure Share where
  value : ℚ
  bounds : 0 ≤ value ∧ value ≤ 1

/-- `pacing_thresholds`. -/
structure PacingThresholds where
  ahead : PacingThreshold := ⟨4 / 5, by decide +kernel, by decide +kernel⟩
  behind : PacingThreshold := ⟨6 / 5, by decide +kernel, by decide +kernel⟩
  critical : PacingThreshold := ⟨2, by decide +kernel, by decide +kernel⟩

/-- The fields of `TimeHorizonConfig` that the pacing and the projection read. -/
structure TimeHorizonConfig where
  velocity_window_size : ℕ+ := 10
  velocity_ema_alpha : Share := ⟨3 / 10, by decide +kernel⟩
  pacing_thresholds : PacingThresholds := {}
  min_observations_for_projection : ℕ+ := 3
  sustainable_pace_decline_threshold : Share := ⟨3 / 10, by decide +kernel⟩

/-! ## Velocity -/

/-- The hours between two dates. -/
def hoursBetween (first last : Number) : Number := (last.sub first).div (.finite HOUR_MS)

/-- The velocity from one observation to the next. -/
def pointVelocity (prev curr : GapObservation) : Option Number :=
  let hoursElapsed := hoursBetween prev.timestamp curr.timestamp
  if hoursElapsed.le (.finite 0) then none
  else some ((prev.normalizedGap.sub curr.normalizedGap).div hoursElapsed)

/-- `calcPointVelocities`. -/
def calcPointVelocities (history : List GapObservation) (windowSize : ℕ) : List Number :=
  let window := history.drop (history.length - (windowSize + 1))
  (window.zip window.tail).filterMap fun pair => pointVelocity pair.1 pair.2

/-- `calcEmaVelocity`. -/
def calcEmaVelocity (pointVelocities : List Number) (alpha : Share) : Number :=
  match pointVelocities with
  | [] => .finite 0
  | first :: rest => rest.foldl (fun ema velocity =>
      ((Number.finite alpha.value).mul velocity).add
        ((Number.finite (1 - alpha.value)).mul ema)) first

/-- `calcStddev`. -/
def calcStddev (sqrt : Number → Number) (values : List Number) : Number :=
  if values.length < 2 then .finite 0
  else
    let mean := (values.foldl Number.add (Number.finite 0)).div (.finite values.length)
    let squares := values.foldl (fun (sum v : Number) => sum.add ((v.sub mean).mul (v.sub mean)))
      (.finite 0)
    let variance := squares.div (.finite values.length)
    sqrt variance

/-! ## Pacing -/

/-- `clampPacingRatio`. -/
def clampPacingRatio (value : Number) : Number :=
  if !value.isFinite then .finite MAX_PACING_RATIO
  else (value.max (.finite 0)).min (.finite MAX_PACING_RATIO)

/-- `classifyStatus`. -/
def TimeHorizonConfig.classifyStatus (config : TimeHorizonConfig) (pacingRatio : Number) :
    PacingStatus :=
  if pacingRatio.lt (.finite config.pacing_thresholds.ahead.value) then .ahead
  else if pacingRatio.lt (.finite config.pacing_thresholds.behind.value) then .on_track
  else if pacingRatio.lt (.finite config.pacing_thresholds.critical.value) then .behind
  else .critical

/-- `deriveRecommendation`. -/
def deriveRecommendation (status : PacingStatus) (confidence : ℚ) (isVelocityDeclining : Bool) :
    PacingRecommendation :=
  match status with
  | .ahead | .on_track => .maintain_course
  | .behind => if 3 / 5 ≤ confidence then .consider_strategy_change else .increase_effort
  | .critical => if 3 / 5 ≤ confidence then .escalate_to_user else .consider_strategy_change
  | .no_deadline => if isVelocityDeclining then .sustainable_pace_declining else .sustainable_pace_ok

/-- `isVelocityDeclining`. -/
def TimeHorizonConfig.isVelocityDeclining (config : TimeHorizonConfig)
    (history : List GapObservation) : Bool :=
  if history.length < 2 then false
  else
    let allVelocities := calcPointVelocities history history.length
    let recentVelocities := calcPointVelocities history config.velocity_window_size
    let historicalEma := calcEmaVelocity allVelocities config.velocity_ema_alpha
    let recentEma := calcEmaVelocity recentVelocities config.velocity_ema_alpha
    if historicalEma.le (.finite 0) then true
    else recentEma.lt
      (historicalEma.mul (.finite (1 - config.sustainable_pace_decline_threshold.value)))

/-- `requiredVelocity`: the gap over the hours that remain. -/
def requiredVelocity (currentGap timeRemainingHours : Number) : Number :=
  if (Number.finite 0).lt timeRemainingHours then currentGap.div timeRemainingHours else .posInf

/-- `effectiveVelocity`. -/
def effectiveVelocity (velocityPerHour : Number) : Number := velocityPerHour.max (.finite EPSILON)

/-- `pacingRatio`. -/
def pacingRatio (currentGap timeRemainingHours velocityPerHour : Number) : Number :=
  clampPacingRatio
    ((requiredVelocity currentGap timeRemainingHours).div (effectiveVelocity velocityPerHour))

/-! ## Projection -/

/-- What `Date.now()` gives for the three dates of a projection. -/
structure Clock where
  estimated : ℕ
  optimistic : ℕ
  pessimistic : ℕ

/-- `addHoursToNow`, which throws a `RangeError` when there is no such date. -/
def addHoursToNow (now : ℕ) (hours : Number) : Option TimeValue :=
  TimeValue.clip ((Number.finite now).add (hours.mul (.finite HOUR_MS)))

/-- `confidenceInterval`. -/
structure ConfidenceInterval where
  optimistic : TimeValue
  pessimistic : TimeValue
  deriving DecidableEq

/-- `CompletionProjection`. -/
structure CompletionProjection where
  estimatedDate : Option TimeValue
  confidenceInterval : Option ConfidenceInterval
  isAchievable : Bool
  deriving DecidableEq

/-- `projectCompletion`. -/
def projectCompletion (clock : Clock) (velocity velocityStddev remainingGap : Number) :
    Option CompletionProjection :=
  if velocity.le (.finite 0) then some ⟨none, none, false⟩
  else do
    let hoursRemaining := remainingGap.div velocity
    let estimatedDate ← addHoursToNow clock.estimated hoursRemaining
    let optimisticVelocity := velocity.add velocityStddev
    let pessimisticVelocity := (velocity.sub velocityStddev).max (.finite EPSILON)
    let optimisticHours := remainingGap.div optimisticVelocity
    let pessimisticHours := remainingGap.div pessimisticVelocity
    let optimistic ← addHoursToNow clock.optimistic optimisticHours
    let pessimistic ← addHoursToNow clock.pessimistic pessimisticHours
    return ⟨some estimatedDate, some ⟨optimistic, pessimistic⟩, true⟩

/-! ## The engine -/

/-- `PacingResult`. -/
structure PacingResult where
  status : PacingStatus
  velocityPerHour : Number
  velocityStddev : Number
  projectedCompletionDate : Option TimeValue
  timeRemainingHours : Option Number
  pacingRatio : Option Number
  confidence : ℚ
  recommendation : PacingRecommendation

/-- `velocityPerHour` of a history. -/
def TimeHorizonConfig.velocityPerHour (config : TimeHorizonConfig)
    (history : List GapObservation) : Number :=
  calcEmaVelocity (calcPointVelocities history config.velocity_window_size)
    config.velocity_ema_alpha

/-- `velocityStddev` of a history. -/
def TimeHorizonConfig.velocityStddev (config : TimeHorizonConfig) (sqrt : Number → Number)
    (history : List GapObservation) : Number :=
  calcStddev sqrt (calcPointVelocities history config.velocity_window_size)

/-- `evaluatePacing`, with the clock that `hoursFromNow` reads and that of the projection. -/
def TimeHorizonConfig.evaluatePacing (config : TimeHorizonConfig) (sqrt : Number → Number)
    (now : ℕ) (clock : Clock) (currentGap : Number) (deadline : Option Number)
    (history : List GapObservation) : Option PacingResult :=
  let velocityPerHour := config.velocityPerHour history
  let velocityStddev := config.velocityStddev sqrt history
  let observationCount := history.length
  let confidence := min 1 ((observationCount : ℚ) / config.min_observations_for_projection)
  match deadline with
  | none =>
    some {
      status := .no_deadline
      velocityPerHour
      velocityStddev
      projectedCompletionDate := none
      timeRemainingHours := none
      pacingRatio := none
      confidence
      recommendation :=
        deriveRecommendation .no_deadline confidence (config.isVelocityDeclining history) }
  | some deadline => do
    let timeRemainingHours := hoursBetween (.finite now) deadline
    let pacingRatio := Time.pacingRatio currentGap timeRemainingHours velocityPerHour
    let status := config.classifyStatus pacingRatio
    let recommendation := deriveRecommendation status confidence false
    let projected :=
      if config.min_observations_for_projection ≤ observationCount ∧
          (Number.finite 0).lt velocityPerHour = true then
        (projectCompletion clock velocityPerHour velocityStddev currentGap).map some
      else some none
    let projection ← projected
    return {
      status
      velocityPerHour
      velocityStddev
      projectedCompletionDate := projection.bind (·.estimatedDate)
      timeRemainingHours := some timeRemainingHours
      pacingRatio := some pacingRatio
      confidence
      recommendation }

/-- `TimeBudgetWithWait`. -/
structure TimeBudgetWithWait where
  totalHours : Option Number
  elapsedHours : Number
  remainingHours : Option Number
  percentElapsed : Option Number
  percentGapRemaining : Number
  canAffordWait : Number → Bool

/-- `getTimeBudget`. -/
def TimeHorizonConfig.getTimeBudget (config : TimeHorizonConfig) (now : ℕ)
    (deadline : Option Number) (startTime currentGap initialGap velocityPerHour : Number) :
    TimeBudgetWithWait :=
  let elapsedHours := hoursBetween startTime (.finite now)
  let totalHours := deadline.map (hoursBetween startTime)
  let remainingHours := deadline.map (hoursBetween (.finite now))
  {
    totalHours
    elapsedHours
    remainingHours
    percentElapsed := totalHours.bind fun totalHours =>
      if (Number.finite 0).lt totalHours then some (elapsedHours.div totalHours) else none
    percentGapRemaining :=
      if (Number.finite 0).lt initialGap then currentGap.div initialGap else .finite 0
    canAffordWait := fun waitHours =>
      if velocityPerHour.le (.finite 0) then false
      else
        match remainingHours with
        | none => true
        | some remainingHours =>
          let newRemainingHours := remainingHours.sub waitHours
          if newRemainingHours.le (.finite 0) then false
          else
            let newRequiredVelocity := currentGap.div newRemainingHours
            let newPacingRatio := newRequiredVelocity.div (velocityPerHour.max (.finite EPSILON))
            newPacingRatio.le (.finite config.pacing_thresholds.critical.value) }

end PulSeed.Time
