import PulSeed.Lib.ObjectMap
import PulSeed.Portfolio.Strategies

/-!
# Rebalancing a portfolio (`orchestrator/strategy/portfolio-manager.ts`, `-rebalance.ts`, `-allocation.ts`)

`rebalance` scores the running strategies, terminates those that meet a condition for it,
hands what they held to the remaining ones, and shares the whole anew by score when the
scores differ enough. It reports every allocation that it changes, and for each of them it
has started an update of the stored portfolio that it does not await: `updateStrategyAllocation`
loads the portfolio, puts in the one allocation and saves it.

The fields of a strategy that only the scoring reads come as its `measures`, and so do the
current gaps, the history of rebalances and the time. Numbers are exact rationals.
-/

namespace PulSeed.PortfolioManager

open StrategyManager

/-! ## Records -/

/-- The fields of `PortfolioConfigSchema` that a rebalance reads. -/
structure PortfolioConfig where
  min_allocation : ℚ := 1 / 10
  max_allocation : ℚ := 7 / 10
  effectiveness_min_tasks : ℚ := 3
  score_ratio_threshold : ℚ := 2
  termination_stall_count : ℚ := 3
  termination_resource_multiplier : ℚ := 2
  termination_min_rebalances : ℚ := 3

/-- `EffectivenessRecord`. -/
structure EffectivenessRecord where
  strategy_id : String
  gap_delta_attributed : ℚ
  sessions_consumed : ℕ
  effectiveness_score : Option ℚ
  last_calculated_at : String
  deriving DecidableEq

/-- `AllocationAdjustment`. -/
structure AllocationAdjustment where
  strategy_id : String
  old_allocation : ℚ
  new_allocation : ℚ
  reason : String
  deriving DecidableEq

/-- `RebalanceTriggerTypeEnum`. -/
inductive RebalanceTriggerType where
  | periodic
  | strategy_terminated
  | stall_detected
  | score_change
  deriving DecidableEq

/-- `RebalanceResult`. -/
structure RebalanceResult where
  triggered_by : RebalanceTriggerType
  timestamp : String
  adjustments : List AllocationAdjustment := []
  terminated_strategies : List String := []
  new_generation_needed : Bool := false
  deriving DecidableEq

/-- The fields of a strategy that the scoring reads. -/
structure StrategyMeasures where
  target_dimensions : List String
  tasks_generated : List String
  consecutive_stall_count : ℕ
  /-- `resource_estimate.sessions`. -/
  estimatedSessions : ℕ

/-- What a rebalance reads besides the portfolio. -/
structure RebalanceContext where
  config : PortfolioConfig
  measures : String → StrategyMeasures
  loadCurrentGapForDimension : String → Option ℚ
  rebalanceHistory : List RebalanceResult
  now : String

/-- `x.toFixed(digits)`, for numbers below 10²¹. -/
def toFixed (digits : ℕ) (x : ℚ) : String :=
  let n := (|x| * 10 ^ digits + 1 / 2).floor.toNat
  let fraction := toString (n % 10 ^ digits)
  (if x < 0 then "-" else "") ++ toString (n / 10 ^ digits) ++ "." ++
    String.ofList (List.replicate (digits - fraction.length) '0') ++ fraction

variable (ctx : RebalanceContext)

/-! ## Scores -/

/-- `calculateGapDeltaForStrategy`. -/
def calculateGapDeltaForStrategy (strategy : Strategy) : ℚ :=
  ((ctx.measures strategy.id).target_dimensions.filterMap fun dimension =>
    (ctx.loadCurrentGapForDimension dimension).map fun currentGap =>
      strategy.gap_snapshot_at_start.getD 1 - currentGap).sum

/-- The record of one strategy. -/
def effectivenessRecord (strategy : Strategy) : EffectivenessRecord :=
  let sessionsConsumed := (ctx.measures strategy.id).tasks_generated.length
  let gapDelta := calculateGapDeltaForStrategy ctx strategy
  { strategy_id := strategy.id
    gap_delta_attributed := gapDelta
    sessions_consumed := sessionsConsumed
    effectiveness_score :=
      if ctx.config.effectiveness_min_tasks ≤ sessionsConsumed then
        some (if 0 < sessionsConsumed then gapDelta / sessionsConsumed else 0)
      else none
    last_calculated_at := ctx.now }

/-- The running strategies. -/
def runningStrategies (strategies : List Strategy) : List Strategy :=
  strategies.filter (·.state.running)

/-- `calculateEffectiveness`. -/
def calculateEffectiveness (strategies : List Strategy) : List EffectivenessRecord :=
  (runningStrategies strategies).map (effectivenessRecord ctx)

/-! ## Terminations -/

/-- `countConsecutiveLowestRebalances`. -/
def countConsecutiveLowestRebalances (strategyId : String) (history : List RebalanceResult)
    (minAllocation : ℚ) : ℕ :=
  (history.reverse.takeWhile fun rebalance =>
    (rebalance.adjustments.find? (·.strategy_id == strategyId)).any
      (·.new_allocation ≤ minAllocation)).length

/-- `checkStrategyTermination`. -/
def checkStrategyTermination (strategy : Strategy) (records : List EffectivenessRecord) : Bool :=
  let measures := ctx.measures strategy.id
  let sessionsConsumed := measures.tasks_generated.length
  if ctx.config.termination_stall_count ≤ measures.consecutive_stall_count then true
  else if 0 < measures.estimatedSessions ∧ measures.estimatedSessions *
      ctx.config.termination_resource_multiplier < sessionsConsumed then true
  else if strategy.allocation ≤ ctx.config.min_allocation then
    match (records.find? (·.strategy_id == strategy.id)).bind (·.effectiveness_score) with
    | none => false
    | some score =>
      let otherScores := (records.filter (·.strategy_id != strategy.id)).filterMap
        (·.effectiveness_score)
      otherScores ≠ [] ∧ (∀ s ∈ otherScores, score ≤ s) ∧
        ctx.config.termination_min_rebalances ≤ countConsecutiveLowestRebalances strategy.id
          ctx.rebalanceHistory ctx.config.min_allocation
  else false

/-- The loop over the running strategies: the stored portfolio after it, and the strategies
terminated. -/
def terminateStrategies (records : List EffectivenessRecord) :
    Portfolio → List Strategy → Except StrategyError (Portfolio × List String)
  | portfolio, [] => .ok (portfolio, [])
  | portfolio, strategy :: rest =>
    if checkStrategyTermination ctx strategy records then
      match perform portfolio (.updateState strategy.id .terminated none ctx.now) with
      | (_, .error e) => .error e
      | (portfolio, .ok _) =>
        (terminateStrategies records portfolio rest).map fun (portfolio, ids) =>
          (portfolio, strategy.id :: ids)
    else terminateStrategies records portfolio rest

/-! ## Adjustments -/

/-- `Math.abs(newAllocation - oldAllocation) > 0.001`: the update is started and reported. -/
def adjustment (strategy : Strategy) (newAllocation : ℚ) (reason : String) :
    Option AllocationAdjustment :=
  if 1 / 1000 < |newAllocation - strategy.allocation| then
    some
      { strategy_id := strategy.id
        old_allocation := strategy.allocation
        new_allocation := newAllocation
        reason }
  else none

/-- `redistributeAllocation`. -/
def redistributeAllocation (remaining : List Strategy) (records : List EffectivenessRecord)
    (freedAllocation : ℚ) : List AllocationAdjustment :=
  if remaining = [] ∨ freedAllocation ≤ 0 then []
  else
    let score (s : Strategy) : ℚ :=
      ((records.find? (·.strategy_id == s.id)).bind (·.effectiveness_score)).getD 0
    let totalScore := (remaining.map fun s => max (score s) 0).sum
    remaining.filterMap fun strategy =>
      let proportion :=
        if 0 < totalScore then max (score strategy) 0 / totalScore else 1 / remaining.length
      adjustment strategy
        (min ctx.config.max_allocation (strategy.allocation + freedAllocation * proportion))
        "Redistribution from terminated strategy"

/-- The stable sort by score, the highest first. -/
def sortRecords (records : List EffectivenessRecord) : List EffectivenessRecord :=
  records.mergeSort fun a b => b.effectiveness_score.getD 0 ≤ a.effectiveness_score.getD 0

/-- `newAllocations`, before they are scaled. -/
def targetAllocations (strategies : List Strategy) (sorted : List EffectivenessRecord)
    (totalScore : ℚ) : ObjectMap String ℚ :=
  sorted.foldl (fun newAllocations record =>
    match strategies.find? (·.id == record.strategy_id) with
    | none => newAllocations
    | some strategy =>
      let proportion := max (record.effectiveness_score.getD 0) 0 / totalScore
      newAllocations.set strategy.id
        (max ctx.config.min_allocation (min ctx.config.max_allocation proportion))) ObjectMap.empty

/-- `adjustAllocations`. -/
def adjustAllocations (strategies : List Strategy) (scoredRecords : List EffectivenessRecord) :
    List AllocationAdjustment :=
  let sorted := sortRecords scoredRecords
  let totalScore := (sorted.map fun r => max (r.effectiveness_score.getD 0) 0).sum
  if totalScore ≤ 0 then []
  else
    let targets := (targetAllocations ctx strategies sorted totalScore).entries
    let rawSum := (targets.map Prod.snd).sum
    let newAllocations :=
      if 0 < rawSum ∧ 1 / 1000 < |rawSum - 1| then
        targets.map fun (id, alloc) => (id, max ctx.config.min_allocation (alloc * (1 / rawSum)))
      else targets
    newAllocations.filterMap fun (strategyId, newAllocation) =>
      (strategies.find? (·.id == strategyId)).bind fun strategy =>
        let score := (scoredRecords.find? (·.strategy_id == strategyId)).bind
          (·.effectiveness_score)
        let effectiveness := (score.map (toFixed 3)).getD "N/A"
        adjustment strategy newAllocation
          s!"Score-based rebalancing (effectiveness: {effectiveness})"

/-- The scores are positive and the highest is so many times the lowest. -/
def scoresDiverge (scoredRecords : List EffectivenessRecord) : Bool :=
  let scores := scoredRecords.filterMap (·.effectiveness_score)
  match scores.max?, scores.min? with
  | some maxScore, some minScore =>
    2 ≤ scoredRecords.length ∧ 0 < minScore ∧
      ctx.config.score_ratio_threshold ≤ maxScore / minScore
  | _, _ => false

/-! ## The rebalance -/

/-- `rebalance` on a stored portfolio: the portfolio as stored when it returns, the updates
it has started apart, and the result. -/
def rebalancePortfolio (portfolio : Portfolio) (trigger : RebalanceTriggerType) :
    Except StrategyError (Portfolio × RebalanceResult) := do
  let records := calculateEffectiveness ctx portfolio.strategies
  let activeStrategies := runningStrategies portfolio.strategies
  let (stored, terminated) ← terminateStrategies ctx records portfolio activeStrategies
  let remainingStrategies := activeStrategies.filter (·.id ∉ terminated)
  let redistributed :=
    if terminated ≠ [] ∧ remainingStrategies ≠ [] then
      let freedAllocation := (terminated.map fun id =>
        ((activeStrategies.find? (·.id == id)).map (·.allocation)).getD 0).sum
      redistributeAllocation ctx remainingStrategies records freedAllocation
    else []
  let scoredRecords := records.filter fun r =>
    r.effectiveness_score.isSome && remainingStrategies.any (·.id == r.strategy_id)
  let adjusted :=
    if scoresDiverge ctx scoredRecords then
      adjustAllocations ctx remainingStrategies scoredRecords
    else []
  return (stored,
    { triggered_by := trigger
      timestamp := ctx.now
      adjustments := redistributed ++ adjusted
      terminated_strategies := terminated
      new_generation_needed := remainingStrategies = [] ∧ terminated ≠ [] })

/-- `rebalance`. -/
def rebalance (portfolio : Option Portfolio) (trigger : RebalanceTriggerType) :
    Except StrategyError (Option Portfolio × RebalanceResult) :=
  match portfolio with
  | none => .ok (none, { triggered_by := trigger, timestamp := ctx.now })
  | some portfolio =>
    (rebalancePortfolio ctx portfolio trigger).map fun (stored, result) => (some stored, result)

/-! ## The updates -/

/-- The strategies with one allocation put in. -/
def withAllocation (strategies : List Strategy) (strategyId : String) (allocation : ℚ) :
    Except StrategyError (List Strategy) :=
  strategies.mapM fun s =>
    if s.id = strategyId then parseStrategy { s.toStrategyFields with allocation } else .ok s

theorem withAllocation_ids {strategies updated : List Strategy} {strategyId : String}
    {allocation : ℚ} (h : withAllocation strategies strategyId allocation = .ok updated) :
    updated.map (·.id) = strategies.map (·.id) := by
  refine mapM_ids h fun s _ s' hs => ?_
  split at hs
  · rw [parseStrategy_ok hs]
  · cases hs
    rfl

/-- `updateStrategyAllocation` on the portfolio it has loaded: what it saves, unless it
throws. -/
def updateStrategyAllocation (portfolio : Portfolio) (strategyId : String) (allocation : ℚ) :
    Except StrategyError Portfolio :=
  match h : withAllocation portfolio.strategies strategyId allocation with
  | .ok updated => .ok ⟨portfolio.goal_id, updated, withAllocation_ids h ▸ portfolio.ids_nodup⟩
  | .error e => .error e

/-- The update that was started for a reported adjustment; there is none to save when no
portfolio is stored. -/
def startedUpdate (a : AllocationAdjustment) (portfolio : Option Portfolio) :
    Option (Option Portfolio) :=
  portfolio.bind fun portfolio =>
    match updateStrategyAllocation portfolio a.strategy_id a.new_allocation with
    | .ok updated => some (some updated)
    | .error _ => none

/-- The allocation that a portfolio holds for a strategy. -/
def allocationOf (portfolio : Portfolio) (strategyId : String) : Option ℚ :=
  (portfolio.strategies.find? (·.id == strategyId)).map (·.allocation)

end PulSeed.PortfolioManager
