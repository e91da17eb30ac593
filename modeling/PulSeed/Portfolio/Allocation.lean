import Mathlib.Tactic.Linarith
import Mathlib.Tactic.Positivity
import PulSeed.Goals.DependencySchedule
import PulSeed.Lib.Proportion
import PulSeed.Portfolio.Rebalance

/-!
# Shares of several goals (`orchestrator/strategy/portfolio-allocation.ts`)

`allocateResources` gives the first goals a share of the whole: a floor for each of them, and what
is left in proportion to their weights. The others wait, with no share. `rebalanceOnStall` hands
the shares of stalled goals to those that make progress.

**The shares sum to the whole and keep the floor and the order of the weights**
(`allocateResources_shares`). **Nothing is lost or given to a goal that waits when a goal stalls,
exactly when no share is cut off and no part falls to such a goal** (`rebalance_lawful_iff`).

Numbers are exact rationals.
-/

namespace PulSeed.CrossGoalPortfolio

open Goals (DependencySchedule)
open PortfolioManager (toFixed)

/-! ## Records -/

/-- `CrossGoalAllocationSchema`; a share is a part of the whole. -/
structure CrossGoalAllocation where
  goal_id : String
  priority : ℚ
  resource_share : ℚ
  adjustment_reason : String
  deriving DecidableEq

/-- `GoalPriorityFactorsSchema`, of which the allocation reads two. -/
structure GoalPriorityFactors where
  goal_id : String
  computed_priority : ℚ

/-- `MomentumTrendEnum`. -/
inductive MomentumTrend
  | accelerating | steady | decelerating | stalled
  deriving DecidableEq

/-- `MomentumInfoSchema`. -/
structure MomentumInfo where
  goalId : String
  recentProgress : ℚ
  velocity : ℚ
  trend : MomentumTrend
  deriving DecidableEq

abbrev MomentumMap := ObjectMap String MomentumInfo

/-- `AllocationStrategyTypeEnum`. -/
inductive AllocationStrategyType
  | equal | priority | momentum | dependency_aware
  deriving DecidableEq

/-- `AllocationStrategySchema`. -/
structure AllocationStrategy where
  type : AllocationStrategyType
  momentumWeight : Option ℚ := none

/-- `AllocationConfig`; the schema of the portfolio lets at least one goal be active. -/
structure AllocationConfig where
  max_concurrent_goals : ℕ := 5
  min_goal_share : ℚ := 1 / 10
  one_le_max : 1 ≤ max_concurrent_goals := by decide

/-! ## Allocation -/

/-- The weight of an active goal, and the reason that names the strategy. -/
def strategyWeight (strategy : Option AllocationStrategy) (momentumMap : Option MomentumMap)
    (depSchedule : Option DependencySchedule) : (GoalPriorityFactors → ℚ) × String :=
  match (strategy.map (·.type)).getD .priority, momentumMap, depSchedule with
  | .equal, _, _ => (fun _ => 1, "equal allocation")
  | .momentum, some momentumMap, _ =>
    if 0 < momentumMap.entries.length then
      let momentumWeight := (strategy.bind (·.momentumWeight)).getD (1 / 2)
      (fun p =>
        let vel := ((momentumMap.get? p.goal_id).map fun mom => max mom.velocity 0).getD 0
        (1 - momentumWeight) * p.computed_priority + momentumWeight * vel, "momentum-weighted")
    else (fun p => p.computed_priority, "priority")
  | .dependency_aware, _, some depSchedule =>
    let unblockedGoals := (depSchedule.phases.filter (·.blockedBy = [])).flatMap (·.goalIds)
    (fun p =>
      let w := p.computed_priority
      let w := if p.goal_id ∈ depSchedule.criticalPath then w * (3 / 2) else w
      if p.goal_id ∈ unblockedGoals then w * (6 / 5) else w, "dependency_aware")
  | _, _, _ => (fun p => p.computed_priority, "priority")

/-- The final share of a goal of weight `w`, of `n` active ones. -/
def finalShare (config : AllocationConfig) (n : ℕ) (totalWeight w : ℚ) : ℚ :=
  let reservedTotal := n * config.min_goal_share
  if 1 ≤ reservedTotal then 1 / n
  else
    let remainingBudget := 1 - reservedTotal
    if totalWeight = 0 then config.min_goal_share + remainingBudget / n
    else config.min_goal_share + remainingBudget * (w / totalWeight)

/-- The allocation of an active goal. -/
def activeAllocation (config : AllocationConfig) (n : ℕ) (totalWeight : ℚ)
    (weight : GoalPriorityFactors → ℚ) (strategyReason : String) (p : GoalPriorityFactors) :
    CrossGoalAllocation :=
  let raw := if totalWeight = 0 then 1 / (n : ℚ) else weight p / totalWeight
  { goal_id := p.goal_id
    priority := p.computed_priority
    resource_share := finalShare config n totalWeight (weight p)
    adjustment_reason :=
      if raw < config.min_goal_share then
        s!"min_goal_share floor applied (raw={toFixed 3 raw}, strategy={strategyReason})"
      else s!"{strategyReason}: weight={toFixed 3 (weight p)}" }

def waitingAllocation (config : AllocationConfig) (p : GoalPriorityFactors) :
    CrossGoalAllocation where
  goal_id := p.goal_id
  priority := p.computed_priority
  resource_share := 0
  adjustment_reason := s!"waiting: exceeds max_concurrent_goals ({config.max_concurrent_goals})"

/-- `allocateResources`. -/
def allocateResources (priorities : List GoalPriorityFactors) (config : AllocationConfig)
    (strategy : Option AllocationStrategy) (momentumMap : Option MomentumMap)
    (depSchedule : Option DependencySchedule) : List CrossGoalAllocation :=
  let activeCount := min priorities.length config.max_concurrent_goals
  let activePriorities := priorities.take activeCount
  let waitingAllocations := (priorities.drop activeCount).map (waitingAllocation config)
  match activePriorities with
  | [] => waitingAllocations
  | [p] =>
    { goal_id := p.goal_id
      priority := p.computed_priority
      resource_share := 1
      adjustment_reason := "sole active goal" } :: waitingAllocations
  | activePriorities =>
    let (weight, strategyReason) := strategyWeight strategy momentumMap depSchedule
    let totalWeight := (activePriorities.map weight).sum
    activePriorities.map
      (activeAllocation config activePriorities.length totalWeight weight strategyReason)
      ++ waitingAllocations

/-! ## The shares -/

section Shares

variable (config : AllocationConfig) {n : ℕ} {totalWeight : ℚ}

/-- The share is the floor, and a proportional part of the rest. -/
theorem finalShare_eq (htotal : 0 ≤ totalWeight) (w : ℚ) :
    finalShare config n totalWeight w =
      if 1 ≤ n * config.min_goal_share then (1 : ℚ) / n
      else config.min_goal_share +
        (1 - n * config.min_goal_share) * portion totalWeight n w := by
  unfold finalShare portion
  dsimp only
  split
  · rfl
  · by_cases hzero : totalWeight = 0
    · rw [if_pos hzero, if_neg (not_lt.mpr hzero.le), mul_one_div]
    · rw [if_neg hzero, if_pos (lt_of_le_of_ne htotal (Ne.symm hzero))]

theorem finalShare_floor (htotal : 0 ≤ totalWeight) {w : ℚ} (hw : 0 ≤ w) :
    min config.min_goal_share ((1 : ℚ) / n) ≤ finalShare config n totalWeight w := by
  rw [finalShare_eq config htotal]
  split
  · exact min_le_right _ _
  · next hroom =>
    refine (min_le_left _ _).trans (le_add_of_nonneg_right ?_)
    exact mul_nonneg (sub_nonneg.mpr (not_le.mp hroom).le) (portion_nonneg hw)

theorem finalShare_mono (htotal : 0 ≤ totalWeight) {w w' : ℚ} (h : w ≤ w') :
    finalShare config n totalWeight w ≤ finalShare config n totalWeight w' := by
  rw [finalShare_eq config htotal, finalShare_eq config htotal]
  split
  · exact le_refl _
  · next hroom =>
    have hportion : portion totalWeight n w ≤ portion totalWeight n w' := by
      unfold portion
      split
      · next hpos => exact div_le_div_of_nonneg_right h hpos.le
      · exact le_refl _
    exact add_le_add_right (mul_le_mul_of_nonneg_left hportion
      (sub_nonneg.mpr (not_le.mp hroom).le)) _

theorem sum_finalShare {weights : List ℚ} (hne : weights ≠ []) (hweights : ∀ w ∈ weights, 0 ≤ w) :
    (weights.map (finalShare config weights.length weights.sum)).sum = 1 := by
  have hlength : (weights.length : ℚ) ≠ 0 := by
    exact_mod_cast (List.length_pos_iff.mpr hne).ne'
  have hshares : ∀ w ∈ weights, finalShare config weights.length weights.sum w = _ :=
    fun w _ => finalShare_eq config (List.sum_nonneg hweights) w
  rw [List.map_congr_left hshares]
  by_cases hroom : 1 ≤ weights.length * config.min_goal_share
  · simp only [if_pos hroom]
    rw [List.map_const', List.sum_replicate, nsmul_eq_mul, mul_one_div_cancel hlength]
  · simp only [if_neg hroom]
    have hportions := sum_portion (fun w => w) hne
    rw [List.map_id'] at hportions
    rw [List.sum_map_add, List.sum_map_mul_left, hportions, List.map_const', List.sum_replicate,
      nsmul_eq_mul, mul_one]
    exact add_sub_cancel _ _

end Shares

/-- The allocations: that of a sole active goal is its final share, too. -/
theorem allocateResources_eq (priorities : List GoalPriorityFactors) (config : AllocationConfig)
    (strategy : Option AllocationStrategy) (momentumMap : Option MomentumMap)
    (depSchedule : Option DependencySchedule) {weight : GoalPriorityFactors → ℚ}
    (hweight : weight = (strategyWeight strategy momentumMap depSchedule).1)
    {active : List GoalPriorityFactors}
    (hactive : active = priorities.take (min priorities.length config.max_concurrent_goals))
    (hweights : ∀ p ∈ active, 0 ≤ weight p) :
    ∃ allocation : GoalPriorityFactors → CrossGoalAllocation,
      allocateResources priorities config strategy momentumMap depSchedule =
        active.map allocation ++
          (priorities.drop (min priorities.length config.max_concurrent_goals)).map
            (waitingAllocation config) ∧
      ∀ p ∈ active, (allocation p).goal_id = p.goal_id ∧ (allocation p).resource_share =
        finalShare config active.length (active.map weight).sum (weight p) := by
  unfold allocateResources
  dsimp only
  rw [← hactive]
  split
  · exact ⟨waitingAllocation config, rfl, nofun⟩
  · next p hsole =>
    refine ⟨fun p => ⟨p.goal_id, p.computed_priority, 1, "sole active goal"⟩, rfl, fun q hq => ?_⟩
    obtain rfl := List.mem_singleton.mp hq
    have hsum := sum_finalShare config (List.cons_ne_nil (weight q) [])
      (List.forall_mem_singleton.mpr (hweights q List.mem_cons_self))
    simp only [List.map_cons, List.map_nil, List.sum_cons, List.sum_nil, add_zero,
      List.length_singleton] at hsum ⊢
    exact ⟨trivial, hsum.symm⟩
  · rw [← hweight]
    exact ⟨_, rfl, fun p _ => ⟨rfl, rfl⟩⟩

/-- The active goals and their allocations, in the same order. -/
structure SharesRight (config : AllocationConfig) (weight : GoalPriorityFactors → ℚ)
    (active : List (GoalPriorityFactors × CrossGoalAllocation)) : Prop where
  floor : ∀ a ∈ active, min config.min_goal_share ((1 : ℚ) / active.length) ≤ a.2.resource_share
  monotone : ∀ a ∈ active, ∀ b ∈ active, weight a.1 ≤ weight b.1 →
    a.2.resource_share ≤ b.2.resource_share
  sum : (active.map (·.2.resource_share)).sum = 1

/-- **The first goals share the whole**: at most as many as the configuration allows; each has its
floor, none has more than one of a higher weight; the others wait. -/
theorem allocateResources_shares (priorities : List GoalPriorityFactors) (config : AllocationConfig)
    (strategy : Option AllocationStrategy) (momentumMap : Option MomentumMap)
    (depSchedule : Option DependencySchedule) (hne : priorities ≠ [])
    (hweights : ∀ p ∈ priorities, 0 ≤ (strategyWeight strategy momentumMap depSchedule).1 p) :
    let allocations := allocateResources priorities config strategy momentumMap depSchedule
    let n := min priorities.length config.max_concurrent_goals
    allocations.map (·.goal_id) = priorities.map (·.goal_id) ∧
      n ≤ config.max_concurrent_goals ∧
      SharesRight config (strategyWeight strategy momentumMap depSchedule).1
        ((priorities.take n).zip (allocations.take n)) ∧
      ∀ a ∈ allocations.drop n, a.resource_share = 0 := by
  intro allocations n
  have hactive : ∀ p ∈ priorities.take n,
      0 ≤ (strategyWeight strategy momentumMap depSchedule).1 p :=
    fun p hp => hweights p (List.mem_of_mem_take hp)
  obtain ⟨allocation, hallocations, hallocation⟩ :=
    allocateResources_eq priorities config strategy momentumMap depSchedule rfl rfl hactive
  set weight := (strategyWeight strategy momentumMap depSchedule).1
  have hlength : (priorities.take n).length = n := List.length_take_of_le (min_le_left _ _)
  have hmap : ((priorities.take n).map allocation).length = n := by
    rw [List.length_map, hlength]
  have htake : allocations.take n = (priorities.take n).map allocation :=
    (congrArg (List.take n) hallocations).trans (List.take_left' hmap)
  have hdrop : allocations.drop n = (priorities.drop n).map (waitingAllocation config) :=
    (congrArg (List.drop n) hallocations).trans (List.drop_left' hmap)
  have hzip : (priorities.take n).zip (allocations.take n) =
      (priorities.take n).map fun p => (p, allocation p) := by
    rw [htake]
    simpa using List.zip_map' (f := id) (g := allocation) (l := priorities.take n)
  refine ⟨?_, min_le_right _ _, ?_, ?_⟩
  · have hids : (priorities.take n).map (fun p => (allocation p).goal_id) =
        (priorities.take n).map (·.goal_id) :=
      List.map_congr_left fun p hp => (hallocation p hp).1
    calc allocations.map (·.goal_id)
      _ = (priorities.take n).map (·.goal_id) ++ (priorities.drop n).map (·.goal_id) := by
        refine (congrArg (List.map (·.goal_id)) hallocations).trans ?_
        rw [← hids, List.map_append, List.map_map, List.map_map]
        rfl
      _ = priorities.map (·.goal_id) := by rw [← List.map_append, List.take_append_drop]
  · have hpos : priorities.take n ≠ [] := by
      rw [← List.length_pos_iff, hlength]
      exact lt_min (List.length_pos_iff.mpr hne) config.one_le_max
    have htotal : 0 ≤ ((priorities.take n).map weight).sum :=
      List.sum_nonneg (List.forall_mem_map.mpr hactive)
    rw [hzip]
    refine ⟨?_, ?_, ?_⟩
    · rw [List.length_map]
      refine List.forall_mem_map.mpr fun p hp => ?_
      rw [(hallocation p hp).2]
      exact finalShare_floor config htotal (hactive p hp)
    · refine List.forall_mem_map.mpr fun p hp => List.forall_mem_map.mpr fun q hq hle => ?_
      rw [(hallocation p hp).2, (hallocation q hq).2]
      exact finalShare_mono config htotal hle
    · have hshares := sum_finalShare config (mt List.map_eq_nil_iff.mp hpos)
        (List.forall_mem_map.mpr hactive)
      rw [List.length_map, List.map_map] at hshares
      rw [List.map_map, ← hshares]
      exact congrArg List.sum (List.map_congr_left fun p hp => (hallocation p hp).2)
  · rw [hdrop]
    exact List.forall_mem_map.mpr fun p _ => rfl

/-- Weights are not negative where priorities are not: the schema keeps `momentumWeight` within
`[0, 1]`. -/
theorem strategyWeight_nonneg {strategy : Option AllocationStrategy}
    (hstrategy : ∀ s ∈ strategy, ∀ w ∈ s.momentumWeight, 0 ≤ w ∧ w ≤ 1)
    (momentumMap : Option MomentumMap) (depSchedule : Option DependencySchedule)
    {p : GoalPriorityFactors} (hp : 0 ≤ p.computed_priority) :
    0 ≤ (strategyWeight strategy momentumMap depSchedule).1 p := by
  unfold strategyWeight
  split
  · exact zero_le_one
  · split
    · dsimp only
      refine add_nonneg (mul_nonneg (sub_nonneg.mpr ?_) hp) (mul_nonneg ?_ ?_)
      · cases hweight : strategy.bind (·.momentumWeight) with
        | none => norm_num
        | some w =>
          obtain ⟨s, hs, hw⟩ := Option.bind_eq_some_iff.mp hweight
          exact (hstrategy s hs w hw).2
      · cases hweight : strategy.bind (·.momentumWeight) with
        | none => norm_num
        | some w =>
          obtain ⟨s, hs, hw⟩ := Option.bind_eq_some_iff.mp hweight
          exact (hstrategy s hs w hw).1
      · cases ObjectMap.get? _ p.goal_id with
        | none => exact le_refl _
        | some mom => exact le_max_right _ _
    · exact hp
  · dsimp only
    split <;> split <;> linarith
  · exact hp

/-- Three goals for two places, with a floor of two fifths. -/
theorem allocateResources_shares_sample :
    let priorities := [⟨"g1", 3 / 4⟩, ⟨"g2", 1 / 4⟩, ⟨"g3", 0⟩]
    let config : AllocationConfig := { max_concurrent_goals := 2, min_goal_share := 2 / 5 }
    SharesRight config (·.computed_priority)
      ((priorities.take 2).zip
        ((allocateResources priorities config none none none).take 2)) := by
  intro priorities config
  have hpriorities : ∀ p ∈ priorities, 0 ≤ p.computed_priority := by decide +kernel
  have hstrategy : ∀ s ∈ (none : Option AllocationStrategy), ∀ w ∈ s.momentumWeight,
      0 ≤ w ∧ w ≤ 1 := nofun
  have hweights : ∀ p ∈ priorities, 0 ≤ (strategyWeight none none none).1 p :=
    fun p hp => strategyWeight_nonneg hstrategy none none (hpriorities p hp)
  exact (allocateResources_shares priorities config none none none nofun hweights).2.2.1

/-! ## Stalled goals -/

/-- The actions of `RebalanceActionSchema`. -/
inductive RebalanceActionType
  | reduce | increase | suspend
  deriving DecidableEq

/-- `RebalanceActionSchema`. -/
structure RebalanceAction where
  goalId : String
  action : RebalanceActionType
  reason : String
  previousShare : ℚ
  newShare : ℚ
  deriving DecidableEq

/-- `clamp`. -/
def clamp (value lo hi : ℚ) : ℚ := min (max value lo) hi

variable (momentumMap : MomentumMap)

/-- The goal is known to stall. -/
def isStalled (alloc : CrossGoalAllocation) : Bool :=
  (momentumMap.get? alloc.goal_id).any (·.trend = .stalled)

/-- The goal is known not to stall. -/
def isProgressing (alloc : CrossGoalAllocation) : Bool :=
  (momentumMap.get? alloc.goal_id).any (·.trend ≠ .stalled)

/-- `vel`. -/
def velocityOf (alloc : CrossGoalAllocation) : ℚ :=
  max (((momentumMap.get? alloc.goal_id).map (·.velocity)).getD 0) 0

def stalledGoals (currentAllocations : List CrossGoalAllocation) : List CrossGoalAllocation :=
  currentAllocations.filter (isStalled momentumMap)

def progressingGoals (currentAllocations : List CrossGoalAllocation) : List CrossGoalAllocation :=
  currentAllocations.filter (isProgressing momentumMap)

def reduceAction (alloc : CrossGoalAllocation) : RebalanceAction where
  goalId := alloc.goal_id
  action := .reduce
  reason := "stalled: momentum velocity ≈ 0"
  previousShare := alloc.resource_share
  newShare := 0

/-- What one of `count` progressing goals gets of the shares of the stalled ones. -/
def increaseAction (redistributeTotal totalVelocity : ℚ) (count : ℕ)
    (alloc : CrossGoalAllocation) : RebalanceAction :=
  let vel := velocityOf momentumMap alloc
  let bonus :=
    if 0 < totalVelocity then redistributeTotal * (vel / totalVelocity)
    else redistributeTotal / count
  { goalId := alloc.goal_id
    action := .increase
    reason := s!"received share from stalled goals (velocity={toFixed 4 vel})"
    previousShare := alloc.resource_share
    newShare := clamp (alloc.resource_share + bonus) 0 1 }

/-- `rebalanceOnStall`. -/
def rebalanceOnStall (currentAllocations : List CrossGoalAllocation) : List RebalanceAction :=
  let stalled := stalledGoals momentumMap currentAllocations
  let progressing := progressingGoals momentumMap currentAllocations
  if stalled = [] then []
  else if progressing = [] then []
  else
    let redistributeTotal := (stalled.map (·.resource_share)).sum
    let totalVelocity := (progressing.map (velocityOf momentumMap)).sum
    stalled.map reduceAction ++
      progressing.map
        (increaseAction momentumMap redistributeTotal totalVelocity progressing.length)

/-- What the actions of a rebalance keep: the shares in total, and which goals wait. -/
structure Lawful (actions : List RebalanceAction) : Prop where
  total : (actions.map (·.newShare)).sum = (actions.map (·.previousShare)).sum
  nonneg : ∀ action ∈ actions, 0 ≤ action.newShare
  waiting : ∀ action ∈ actions, action.previousShare = 0 → action.newShare = 0
  count : actions.countP (0 < ·.newShare) ≤ actions.countP (0 < ·.previousShare)

/-- The share that the stalled goals free. -/
def freedShare (currentAllocations : List CrossGoalAllocation) : ℚ :=
  ((stalledGoals momentumMap currentAllocations).map (·.resource_share)).sum

/-- The part of the freed share that is due to a progressing goal. -/
def part (currentAllocations : List CrossGoalAllocation) (alloc : CrossGoalAllocation) : ℚ :=
  freedShare momentumMap currentAllocations *
    portion ((progressingGoals momentumMap currentAllocations).map (velocityOf momentumMap)).sum
      (progressingGoals momentumMap currentAllocations).length (velocityOf momentumMap alloc)

section Rebalance

variable {momentumMap} {currentAllocations : List CrossGoalAllocation}

theorem velocityOf_nonneg (alloc : CrossGoalAllocation) : 0 ≤ velocityOf momentumMap alloc :=
  le_max_right _ _

theorem freedShare_nonneg (hshares : ∀ a ∈ currentAllocations, 0 ≤ a.resource_share) :
    0 ≤ freedShare momentumMap currentAllocations :=
  List.sum_nonneg (List.forall_mem_map.mpr fun a ha => hshares a (List.mem_of_mem_filter ha))

theorem part_nonneg (hshares : ∀ a ∈ currentAllocations, 0 ≤ a.resource_share)
    (alloc : CrossGoalAllocation) : 0 ≤ part momentumMap currentAllocations alloc :=
  mul_nonneg (freedShare_nonneg hshares) (portion_nonneg (velocityOf_nonneg alloc))

/-- The parts are all of what is freed. -/
theorem sum_part (hprogressing : progressingGoals momentumMap currentAllocations ≠ []) :
    ((progressingGoals momentumMap currentAllocations).map
      (part momentumMap currentAllocations)).sum = freedShare momentumMap currentAllocations := by
  unfold part
  rw [List.sum_map_mul_left, sum_portion _ hprogressing, mul_one]

theorem increaseAction_newShare (hshares : ∀ a ∈ currentAllocations, 0 ≤ a.resource_share)
    {alloc : CrossGoalAllocation} (halloc : alloc ∈ currentAllocations) :
    (increaseAction momentumMap (freedShare momentumMap currentAllocations)
        ((progressingGoals momentumMap currentAllocations).map (velocityOf momentumMap)).sum
        (progressingGoals momentumMap currentAllocations).length alloc).newShare =
      min (alloc.resource_share + part momentumMap currentAllocations alloc) 1 := by
  have hpart : 0 ≤ part momentumMap currentAllocations alloc := part_nonneg hshares alloc
  have hbonus : ∀ total freed vel : ℚ, ∀ n : ℕ,
      (if 0 < total then freed * (vel / total) else freed / n) = freed * portion total n vel := by
    intro total freed vel n
    unfold portion
    split
    · rfl
    · rw [mul_one_div]
  unfold increaseAction clamp
  dsimp only
  rw [hbonus]
  exact congrArg (min · 1) (max_eq_left (add_nonneg (hshares alloc halloc) hpart))

/-- No part is due where nothing is freed, or where others are faster than a goal that stands. -/
theorem part_eq_zero_iff (hprogressing : progressingGoals momentumMap currentAllocations ≠ [])
    (alloc : CrossGoalAllocation) :
    part momentumMap currentAllocations alloc = 0 ↔
      freedShare momentumMap currentAllocations = 0 ∨
        0 < ((progressingGoals momentumMap currentAllocations).map (velocityOf momentumMap)).sum ∧
          velocityOf momentumMap alloc = 0 := by
  unfold part
  rw [mul_eq_zero]
  refine or_congr_right ?_
  unfold portion
  split
  · next hpos => rw [div_eq_zero_iff, or_iff_left hpos.ne', and_iff_right hpos]
  · next hpos =>
    have hlength : ((progressingGoals momentumMap currentAllocations).length : ℚ) ≠ 0 := by
      exact_mod_cast (List.length_pos_iff.mpr hprogressing).ne'
    exact iff_of_false (one_div_ne_zero hlength) (fun h => hpos h.1)

/-- A goal and the stalled ones hold no more than all goals together. -/
theorem resource_share_add_freedShare_le
    (hshares : ∀ a ∈ currentAllocations, 0 ≤ a.resource_share) {alloc : CrossGoalAllocation}
    (halloc : alloc ∈ progressingGoals momentumMap currentAllocations) :
    alloc.resource_share + freedShare momentumMap currentAllocations ≤
      (currentAllocations.map (·.resource_share)).sum := by
  have hprogressing : ∀ a ∈ progressingGoals momentumMap currentAllocations,
      0 ≤ a.resource_share := fun a ha => hshares a (List.mem_of_mem_filter ha)
  have hone : alloc.resource_share ≤
      ((progressingGoals momentumMap currentAllocations).map (·.resource_share)).sum :=
    List.single_le_sum (List.forall_mem_map.mpr hprogressing) _ (List.mem_map_of_mem halloc)
  refine (add_le_add_left hone _).trans ?_
  unfold freedShare progressingGoals stalledGoals
  rw [sum_map_filter, sum_map_filter, ← List.sum_map_add]
  refine List.sum_le_sum fun a ha => ?_
  unfold isProgressing isStalled
  cases momentumMap.get? a.goal_id with
  | none => simpa using hshares a ha
  | some mom => by_cases htrend : mom.trend = .stalled <;> simp [htrend]

/-- A share within a whole is never cut off. -/
theorem resource_share_add_part_le (hshares : ∀ a ∈ currentAllocations, 0 ≤ a.resource_share)
    (htotal : (currentAllocations.map (·.resource_share)).sum ≤ 1) {alloc : CrossGoalAllocation}
    (halloc : alloc ∈ progressingGoals momentumMap currentAllocations) :
    alloc.resource_share + part momentumMap currentAllocations alloc ≤ 1 := by
  have hpart : part momentumMap currentAllocations alloc ≤
      freedShare momentumMap currentAllocations := by
    rw [← sum_part (List.ne_nil_of_mem halloc)]
    exact List.single_le_sum (List.forall_mem_map.mpr fun a _ => part_nonneg hshares a) _
      (List.mem_map_of_mem halloc)
  exact (add_le_add_right hpart _).trans
    ((resource_share_add_freedShare_le hshares halloc).trans htotal)

variable (momentumMap) in
/-- The actions, when there are goals of both kinds. -/
def movingActions (currentAllocations : List CrossGoalAllocation) : List RebalanceAction :=
  (stalledGoals momentumMap currentAllocations).map reduceAction ++
    (progressingGoals momentumMap currentAllocations).map
      (increaseAction momentumMap (freedShare momentumMap currentAllocations)
        ((progressingGoals momentumMap currentAllocations).map (velocityOf momentumMap)).sum
        (progressingGoals momentumMap currentAllocations).length)

theorem movingActions_total (hshares : ∀ a ∈ currentAllocations, 0 ≤ a.resource_share)
    (hprogressing : progressingGoals momentumMap currentAllocations ≠ []) :
    ((movingActions momentumMap currentAllocations).map (·.newShare)).sum =
        ((movingActions momentumMap currentAllocations).map (·.previousShare)).sum ↔
      ∀ alloc ∈ progressingGoals momentumMap currentAllocations,
        alloc.resource_share + part momentumMap currentAllocations alloc ≤ 1 := by
  set progressing := progressingGoals momentumMap currentAllocations
  have hnew : ((movingActions momentumMap currentAllocations).map (·.newShare)).sum =
      (progressing.map fun alloc =>
        min (alloc.resource_share + part momentumMap currentAllocations alloc) 1).sum := by
    unfold movingActions
    rw [List.map_append, List.sum_append, List.map_map, List.map_map]
    have hzero : ((stalledGoals momentumMap currentAllocations).map
        ((·.newShare) ∘ reduceAction)).sum = 0 :=
      List.sum_eq_zero (List.forall_mem_map.mpr fun _ _ => rfl)
    rw [hzero, zero_add]
    exact congrArg List.sum (List.map_congr_left fun alloc halloc =>
      increaseAction_newShare hshares (List.mem_of_mem_filter halloc))
  have hprevious : ((movingActions momentumMap currentAllocations).map (·.previousShare)).sum =
      (progressing.map fun alloc =>
        alloc.resource_share + part momentumMap currentAllocations alloc).sum := by
    unfold movingActions
    rw [List.map_append, List.sum_append, List.map_map, List.map_map, List.sum_map_add,
      sum_part hprogressing, add_comm]
    rfl
  rw [hnew, hprevious, sum_map_eq_iff_of_le fun _ _ => min_le_left _ _]
  exact forall₂_congr fun _ _ => min_eq_left_iff

theorem movingActions_waiting (hshares : ∀ a ∈ currentAllocations, 0 ≤ a.resource_share) :
    (∀ action ∈ movingActions momentumMap currentAllocations,
        action.previousShare = 0 → action.newShare = 0) ↔
      ∀ alloc ∈ progressingGoals momentumMap currentAllocations,
        alloc.resource_share = 0 → part momentumMap currentAllocations alloc = 0 := by
  unfold movingActions
  rw [List.forall_mem_append, List.forall_mem_map, List.forall_mem_map]
  have hreduce : ∀ alloc ∈ stalledGoals momentumMap currentAllocations,
      (reduceAction alloc).previousShare = 0 → (reduceAction alloc).newShare = 0 :=
    fun _ _ _ => rfl
  rw [and_iff_right hreduce]
  refine forall₂_congr fun alloc halloc => imp_congr_right fun hzero => ?_
  rw [increaseAction_newShare hshares (List.mem_of_mem_filter halloc)]
  have hpart : 0 ≤ part momentumMap currentAllocations alloc := part_nonneg hshares alloc
  have hshare : alloc.resource_share = 0 := hzero
  rw [hshare, zero_add]
  constructor
  · intro hmin
    refine le_antisymm ?_ hpart
    exact (min_le_iff.mp hmin.le).resolve_right (not_le.mpr zero_lt_one)
  · intro hzero
    rw [hzero, min_eq_left zero_le_one]

theorem movingActions_nonneg (hshares : ∀ a ∈ currentAllocations, 0 ≤ a.resource_share) :
    ∀ action ∈ movingActions momentumMap currentAllocations,
      0 ≤ action.previousShare ∧ 0 ≤ action.newShare := by
  unfold movingActions
  rw [List.forall_mem_append, List.forall_mem_map, List.forall_mem_map]
  refine ⟨fun alloc halloc => ⟨hshares alloc (List.mem_of_mem_filter halloc), le_refl _⟩,
    fun alloc halloc => ?_⟩
  have hmem := List.mem_of_mem_filter halloc
  refine ⟨hshares alloc hmem, ?_⟩
  rw [increaseAction_newShare hshares hmem]
  exact le_min (add_nonneg (hshares alloc hmem) (part_nonneg hshares alloc)) zero_le_one

end Rebalance

/-- Nothing moves; or no share is cut off at one, and a goal that waits gets nothing: nothing is
freed, or the goal stands and others do not. -/
def KeepsShares (currentAllocations : List CrossGoalAllocation) : Prop :=
  let progressing := progressingGoals momentumMap currentAllocations
  stalledGoals momentumMap currentAllocations = [] ∨ progressing = [] ∨
    ∀ alloc ∈ progressing,
      alloc.resource_share + part momentumMap currentAllocations alloc ≤ 1 ∧
        (alloc.resource_share = 0 → freedShare momentumMap currentAllocations = 0 ∨
          0 < (progressing.map (velocityOf momentumMap)).sum ∧ velocityOf momentumMap alloc = 0)

/-- **Nothing is lost, and nothing goes to a goal that waits, exactly when no share is cut off and
no part falls to such a goal.** -/
theorem rebalance_lawful_iff (currentAllocations : List CrossGoalAllocation)
    (hshares : ∀ a ∈ currentAllocations, 0 ≤ a.resource_share) :
    Lawful (rebalanceOnStall momentumMap currentAllocations) ↔
      KeepsShares momentumMap currentAllocations := by
  unfold rebalanceOnStall KeepsShares
  dsimp only
  by_cases hstalled : stalledGoals momentumMap currentAllocations = []
  · rw [if_pos hstalled]
    exact iff_of_true ⟨rfl, nofun, nofun, le_refl _⟩ (.inl hstalled)
  by_cases hprogressing : progressingGoals momentumMap currentAllocations = []
  · rw [if_neg hstalled, if_pos hprogressing]
    exact iff_of_true ⟨rfl, nofun, nofun, le_refl _⟩ (.inr (.inl hprogressing))
  rw [if_neg hstalled, if_neg hprogressing, or_iff_right hstalled, or_iff_right hprogressing,
    forall₂_and, ← movingActions_total hshares hprogressing]
  simp only [← part_eq_zero_iff hprogressing]
  rw [← movingActions_waiting hshares]
  refine ⟨fun h => ⟨h.total, h.waiting⟩, fun ⟨htotal, hwaiting⟩ =>
    ⟨htotal, fun action haction => (movingActions_nonneg hshares action haction).2, hwaiting, ?_⟩⟩
  refine List.countP_mono_left fun action haction hnew => ?_
  rw [decide_eq_true_iff] at hnew ⊢
  exact lt_of_le_of_ne (movingActions_nonneg hshares action haction).1
    fun hzero => hnew.ne' (hwaiting action haction hzero.symm)

/-- `g1` stalls; `g2` and the goals that wait are steady. -/
def sampleMomentum : MomentumMap where
  entries :=
    [("g1", ⟨"g1", 0, 0, .stalled⟩), ("g2", ⟨"g2", 1 / 5, 1 / 5, .steady⟩),
      ("w1", ⟨"w1", 1 / 5, 1 / 5, .steady⟩), ("w2", ⟨"w2", 1 / 5, 1 / 5, .steady⟩)]
  nodupKeys := by decide

def sampleAllocations : List CrossGoalAllocation :=
  [⟨"g1", 1 / 2, 2 / 5, ""⟩, ⟨"g2", 1 / 2, 3 / 5, ""⟩]

/-- Without the goals that wait, all is kept. -/
theorem rebalance_lawful_iff_sample :
    Lawful (rebalanceOnStall sampleMomentum sampleAllocations) :=
  (rebalance_lawful_iff sampleMomentum sampleAllocations (by decide +kernel)).mpr
    (by unfold KeepsShares; decide +kernel)

/-- Both goals that wait get a part: four goals share what was for two. -/
theorem rebalance_starts_waiting :
    ¬Lawful (rebalanceOnStall sampleMomentum
      (sampleAllocations ++ [⟨"w1", 0, 0, "waiting"⟩, ⟨"w2", 0, 0, "waiting"⟩])) :=
  fun h => absurd h.count (by decide +kernel)

end PulSeed.CrossGoalPortfolio
