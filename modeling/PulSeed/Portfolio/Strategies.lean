import Mathlib.Algebra.Order.Field.Rat
import Mathlib.Algebra.BigOperators.Group.List.Lemmas
import PulSeed.Lib.Transition
import PulSeed.Lib.Traverse

/-!
# Strategy portfolios (`orchestrator/strategy/strategy-manager.ts`, `-base.ts`, `-helpers.ts`)

The strategies of a goal, as records that have passed their schema, and the operations
that change which of them are running. Every operation loads the portfolio, computes new
records, parses each of them and saves the portfolio; an operation that throws saves
nothing. `perform` is one such call, and `portfolioLTS` the runs of calls.

Numbers are exact rationals. What an operation reads from elsewhere (the time, the current
gaps, the tools that are registered, the feedback on executions) comes with the call. The
history of finished strategies, the wait schedule and the tasks are not modelled: no
operation reads them back into the portfolio.
-/

namespace PulSeed.StrategyManager

/-! ## Strategies -/

/-- `StrategyStateEnum`. -/
inductive StrategyState where
  | candidate
  | active
  | evaluating
  | suspended
  | completed
  | terminated
  deriving DecidableEq, Repr

instance : ToString StrategyState where
  toString
    | .candidate => "candidate"
    | .active => "active"
    | .evaluating => "evaluating"
    | .suspended => "suspended"
    | .completed => "completed"
    | .terminated => "terminated"

/-- `state === "active" || state === "evaluating"`. -/
def StrategyState.running : StrategyState → Bool
  | .active | .evaluating => true
  | _ => false

/-- `VALID_TRANSITIONS`. -/
def VALID_TRANSITIONS : StrategyState → List StrategyState
  | .candidate => [.active]
  | .active => [.completed, .terminated, .evaluating]
  | .evaluating => [.active, .terminated]
  | .suspended => [.active, .terminated]
  | .completed => []
  | .terminated => []

/-- `StrategySmokeStatusSchema`. -/
inductive SmokeStatus where
  | not_run
  | promote
  | defer
  | retire
  deriving DecidableEq, Repr

/-- `StrategyExplorationRoleSchema`. -/
inductive ExplorationRole where
  | exploitation
  | adjacent_exploration
  | divergent_exploration
  deriving DecidableEq, Repr

/-- `StrategyExplorationExpectedCostSchema`. -/
inductive ExpectedCost where
  | low
  | medium
  | high
  deriving DecidableEq, Repr

/-- `exploration.phase`. -/
inductive ExplorationPhase where
  | normal
  | divergent_stall_recovery
  deriving DecidableEq, Repr

/-- The fields of `StrategyExplorationMetadataSchema` that the selection reads. -/
structure Exploration where
  phase : ExplorationPhase := .normal
  role : ExplorationRole
  novelty_score : ℚ
  similarity_to_recent_failures : ℚ := 0
  expected_cost : ExpectedCost
  downrank_reason : Option String := none
  smoke : SmokeStatus := .not_run
  deriving DecidableEq, Repr

/-- The fields that make a strategy a `WaitStrategy`; it has all of them or none. -/
structure WaitFields where
  wait_reason : String
  wait_until : String
  measurement_plan : String
  deriving DecidableEq, Repr

/-- The fields of `StrategySchema` and `WaitStrategySchema` that the operations read or
write, before parsing. -/
structure StrategyFields where
  id : String
  primary_dimension : String
  hypothesis : String
  state : StrategyState := .candidate
  allocation : ℚ := 0
  created_at : String
  started_at : Option String := none
  completed_at : Option String := none
  gap_snapshot_at_start : Option ℚ := none
  effectiveness_score : Option ℚ := none
  required_tools : List String := []
  exploration : Option Exploration := none
  wait : Option WaitFields := none
  deriving DecidableEq, Repr

/-- The fields that the schema rejects: `StrategyUnitIntervalSchema` for the allocation,
`StrategyNonnegativeFiniteNumberSchema` for the gap. -/
def StrategyFields.issues (s : StrategyFields) : List String :=
  (if 0 ≤ s.allocation ∧ s.allocation ≤ 1 then [] else ["allocation"]) ++
    (if ∀ gap ∈ s.gap_snapshot_at_start, 0 ≤ gap then [] else ["gap_snapshot_at_start"])

/-- `Strategy`: fields that have been parsed. -/
structure Strategy extends StrategyFields where
  parses : toStrategyFields.issues = []
  deriving DecidableEq

/-- `isWaitStrategy`. -/
def isWaitStrategy (s : Strategy) : Bool := s.wait.isSome

/-- What a call throws: an error of its own, or that of the schema with the fields it names. -/
inductive StrategyError where
  | thrown (message : String)
  | schema (paths : List String)
  deriving DecidableEq, Repr

/-- `parseStrategy`. -/
def parseStrategy (s : StrategyFields) : Except StrategyError Strategy :=
  if h : s.issues = [] then .ok ⟨s, h⟩ else .error (.schema s.issues)

theorem StrategyFields.issues_eq_nil {s : StrategyFields} :
    s.issues = [] ↔ (0 ≤ s.allocation ∧ s.allocation ≤ 1) ∧
      ∀ gap ∈ s.gap_snapshot_at_start, 0 ≤ gap := by
  unfold StrategyFields.issues
  rw [List.append_eq_nil_iff]
  simp only [ite_eq_left_iff, List.cons_ne_nil, imp_false, not_not]

/-- A strategy that has been parsed is the record that was parsed. -/
theorem parseStrategy_ok {fields : StrategyFields} {s : Strategy}
    (h : parseStrategy fields = .ok s) : s.toStrategyFields = fields := by
  unfold parseStrategy at h
  split at h
  · cases h
    rfl
  · cases h

theorem parseStrategy_succeeds {fields : StrategyFields} (s : Strategy)
    (hallocation : 0 ≤ fields.allocation ∧ fields.allocation ≤ 1)
    (hgap : fields.gap_snapshot_at_start = s.gap_snapshot_at_start) :
    ∃ s', parseStrategy fields = .ok s' :=
  ⟨_, dif_pos (StrategyFields.issues_eq_nil.mpr
    ⟨hallocation, hgap ▸ (StrategyFields.issues_eq_nil.mp s.parses).2⟩)⟩

theorem parseStrategy_error {fields : StrategyFields} {e : StrategyError}
    (h : parseStrategy fields = .error e) : fields.issues ≠ [] := by
  unfold parseStrategy at h
  split at h
  · cases h
  · next hissues => exact hissues

/-! ## Activation -/

/-- What `canAffordWait` is asked. -/
structure AffordInput where
  strategy : Strategy
  waitHours : Option ℚ
  currentGap : ℚ
  initialGap : ℚ
  startedAt : String

/-- `WaitStrategyActivationContext`, with what else an activation reads: the time, the
milliseconds of a date (`none` for an invalid one) and the stored gaps. -/
structure ActivationContext where
  getCurrentGap : String → Option ℚ
  canAffordWait : Option (AffordInput → Bool)
  loadCurrentGapForDimension : String → Option ℚ
  getTime : String → Option Int
  now : String

/-- The hours until `wait_until`, none of them negative; `none` stands for not a number. -/
def ActivationContext.waitHours (ctx : ActivationContext) (wait_until : String) : Option ℚ :=
  (ctx.getTime wait_until).bind fun untilMs =>
    (ctx.getTime ctx.now).map fun nowMs => max 0 (((untilMs - nowMs : Int) : ℚ) / 3600000)

/-- The validation of one strategy in `activateMultiple`; it returns the baseline of a wait
strategy. -/
def checkActivation (goalId : String) (strategies : List Strategy) (ctx : ActivationContext)
    (id : String) : Except StrategyError (Option (String × ℚ)) :=
  match strategies.find? (·.id == id) with
  | none => .error <| .thrown
      s!"activateMultiple: strategy \"{id}\" not found in portfolio for goal \"{goalId}\""
  | some s =>
    if s.state ≠ .candidate then .error <| .thrown
      s!"activateMultiple: strategy \"{s.id}\" is not in candidate state (current: {s.state})"
    else
      match s.wait with
      | none => .ok none
      | some wait =>
        let currentGap := (ctx.getCurrentGap s.primary_dimension).or
          (ctx.loadCurrentGapForDimension s.primary_dimension)
        let baseline := (s.gap_snapshot_at_start.or currentGap).getD 1
        let refused := ctx.canAffordWait.any fun canAffordWait => !canAffordWait
          { strategy := s
            waitHours := ctx.waitHours wait.wait_until
            currentGap := currentGap.getD baseline
            initialGap := baseline
            startedAt := ctx.now }
        if refused then .error <| .thrown
          s!"activateMultiple: WaitStrategy \"{s.id}\" cannot be activated because the goal cannot afford waiting"
        else .ok (some (s.id, baseline))

/-- The validation of all strategies, and `waitBaselines`. -/
def checkActivations (goalId : String) (strategies : List Strategy) (ctx : ActivationContext)
    (ids : List String) : Except StrategyError (List (String × ℚ)) :=
  (ids.mapM (checkActivation goalId strategies ctx)).map (·.filterMap id)

/-- The allocation of each of `count` strategies that are activated together. -/
def equalSplit (count : Nat) : ℚ :=
  if count = 1 then 1 else min (max (1 / count) (1 / 10)) (7 / 10)

/-- `activateMultiple`: the strategies of the portfolio after it, and those activated. -/
def activateMultiple (goalId : String) (strategies : List Strategy) (ids : List String)
    (ctx : ActivationContext) : Except StrategyError (List Strategy × List Strategy) :=
  if ids = [] then .error (.thrown "activateMultiple: strategyIds must not be empty")
  else do
    let waitBaselines ← checkActivations goalId strategies ctx ids
    let updated ← strategies.mapM fun s =>
      if s.id ∈ ids then
        parseStrategy { s.toStrategyFields with
          state := .active
          started_at := some ctx.now
          allocation := equalSplit ids.length
          gap_snapshot_at_start := (waitBaselines.lookup s.id).or s.gap_snapshot_at_start }
      else .ok s
    return (updated, updated.filter (·.id ∈ ids))

/-! ## Selection of a candidate -/

/-- `ExecutionFeedback`, the part that is read. -/
structure ExecutionFeedback where
  strategyId : String
  success : Bool
  deriving DecidableEq, Repr

/-- What `activateBestCandidate` reads of the manager: the names of the registered tools
(`none` without a registry), the feedback on executions and the order of strings. -/
structure SelectionContext where
  toolNames : Option (List String)
  executionHistory : List ExecutionFeedback
  localeCompare : String → String → Ordering

/-- `scoreCandidate`. -/
def scoreCandidate (s : Strategy) : ℚ :=
  match s.exploration with
  | none => 0
  | some exploration =>
    if exploration.smoke = .retire then -100
    else
      let roleScore : ℚ := match exploration.role with
        | .divergent_exploration => 3
        | .adjacent_exploration => 3 / 2
        | .exploitation => 1 / 2
      let smokeScore : ℚ := match exploration.smoke with
        | .promote => 2
        | .defer => -1
        | _ => 0
      let downrank : ℚ := if exploration.downrank_reason.isSome then -3 / 2 else 0
      let costPenalty : ℚ := match exploration.expected_cost with
        | .high => -2 / 5
        | .medium => -1 / 10
        | .low => 1 / 5
      roleScore + smokeScore + downrank + costPenalty + exploration.novelty_score
        - exploration.similarity_to_recent_failures

/-- `rankDivergentCandidates`. -/
def rankDivergentCandidates (localeCompare : String → String → Ordering)
    (candidates : List Strategy) : List Strategy :=
  candidates.mergeSort fun left right =>
    (compareOfLessAndEq (scoreCandidate right) (scoreCandidate left)
      |>.then (localeCompare left.created_at right.created_at)
      |>.then (localeCompare left.id right.id)) != .gt

/-- `executionStats.get(key)`: how many executions, and how many of them successful. -/
def executionStats (history : List ExecutionFeedback) (key : String) : Option (Nat × Nat) :=
  let feedback := history.filter (·.strategyId == key)
  if feedback = [] then none else some (feedback.length, (feedback.filter (·.success)).length)

/-- `getHistoryPenalty`. -/
def getHistoryPenalty (history : List ExecutionFeedback) (s : Strategy) : ℚ :=
  match (executionStats history s.id).or (executionStats history s.hypothesis) with
  | none => 0
  | some (total, success) =>
    if total < 3 then 0 else if (success : ℚ) / total < 3 / 10 then -1 / 5 else 0

/-- The stable sort by score, the highest first. -/
def sortByScore (score : Strategy → ℚ) (candidates : List Strategy) : List Strategy :=
  candidates.mergeSort fun a b => score b ≤ score a

/-- The candidates in the order in which `activateBestCandidate` prefers them. -/
def rankedCandidates (sel : SelectionContext) (strategies : List Strategy) : List Strategy :=
  let candidatePool := strategies.filter fun s =>
    s.state == .candidate && !(s.exploration.any (·.smoke == .retire))
  let candidates :=
    if candidatePool.any (·.exploration.any (·.phase == .divergent_stall_recovery)) then
      rankDivergentCandidates sel.localeCompare candidatePool
    else candidatePool
  let penalty := getHistoryPenalty sel.executionHistory
  match sel.toolNames, candidates.any (·.required_tools ≠ []) with
  | some names, true => sortByScore (fun c =>
      -((c.required_tools.filter (· ∉ names)).length : ℚ) + penalty c) candidates
  | _, _ => if sel.executionHistory = [] then candidates else sortByScore penalty candidates

/-- `activateBestCandidate` of the class `StrategyManager`, which has `activateMultiple`. -/
def activateBestCandidate (goalId : String) (strategies : List Strategy)
    (sel : SelectionContext) (ctx : ActivationContext) :
    Except StrategyError (List Strategy × List Strategy) :=
  match (rankedCandidates sel strategies).head? with
  | none => .error <| .thrown
      s!"activateBestCandidate: no candidates found for goal \"{goalId}\""
  | some best => activateMultiple goalId strategies [best.id] ctx

/-! ## The other operations -/

/-- `portfolio.strategies.map((s) => s.id === updated.id ? updated : s)`. -/
def replaceStrategy (strategies : List Strategy) (updated : Strategy) : List Strategy :=
  strategies.map fun s => if s.id = updated.id then updated else s

/-- The strategies that share what another one frees or is given. -/
def othersRunning (strategies : List Strategy) (id : String) : List Strategy :=
  strategies.filter fun s => s.id ≠ id && s.state.running

/-- `reduce((sum, s) => sum + s.allocation, 0)`. -/
def totalAllocation (strategies : List Strategy) : ℚ :=
  (strategies.map fun s => s.allocation).sum

/-- The allocation that `redistributeAllocation` gives to one of the remaining strategies. -/
def enlarged (remaining : List Strategy) (freedAllocation : ℚ) (s : Strategy) : ℚ :=
  let total := totalAllocation remaining
  s.allocation + freedAllocation *
    (if 0 < total then s.allocation / total else 1 / remaining.length)

/-- `redistributeAllocation`. -/
def redistributeAllocation (strategies : List Strategy) (excludeId : String)
    (freedAllocation : ℚ) : Except StrategyError (List Strategy) :=
  let remaining := othersRunning strategies excludeId
  if remaining = [] ∨ freedAllocation ≤ 0 then .ok strategies
  else strategies.mapM fun s =>
    if remaining.any (·.id == s.id) then
      parseStrategy { s.toStrategyFields with allocation := enlarged remaining freedAllocation s }
    else .ok s

/-- `terminateStrategy`. -/
def terminateStrategy (goalId : String) (strategies : List Strategy) (id now : String) :
    Except StrategyError (List Strategy × Strategy) :=
  match strategies.find? (·.id == id) with
  | none => .error <| .thrown
      s!"terminateStrategy: strategy \"{id}\" not found in portfolio for goal \"{goalId}\""
  | some strategy => do
    let terminated ← parseStrategy { strategy.toStrategyFields with
      state := .terminated, completed_at := some now, allocation := 0 }
    let updated ← redistributeAllocation (replaceStrategy strategies terminated) id
      strategy.allocation
    return (updated, terminated)

/-- `suspendStrategy`. -/
def suspendStrategy (goalId : String) (strategies : List Strategy) (id : String) :
    Except StrategyError (List Strategy × Strategy) :=
  match strategies.find? (·.id == id) with
  | none => .error <| .thrown
      s!"suspendStrategy: strategy \"{id}\" not found in portfolio for goal \"{goalId}\""
  | some strategy =>
    if strategy.state.running then do
      let suspended ← parseStrategy { strategy.toStrategyFields with
        state := .suspended, allocation := 0 }
      let updated ← redistributeAllocation (replaceStrategy strategies suspended) id
        strategy.allocation
      return (updated, suspended)
    else .error <| .thrown
      s!"suspendStrategy: strategy \"{id}\" must be active or evaluating (current: {strategy.state})"

/-- The allocation that `resumeStrategy` leaves to one of the others. -/
def shrunk (others : List Strategy) (remaining : ℚ) (s : Strategy) : ℚ :=
  let totalOtherAlloc := totalAllocation others
  if 0 < totalOtherAlloc then s.allocation / totalOtherAlloc * remaining
  else remaining / others.length

/-- `resumeStrategy`. -/
def resumeStrategy (goalId : String) (strategies : List Strategy) (id : String)
    (allocation : ℚ) : Except StrategyError (List Strategy × Strategy) :=
  if allocation < 0 ∨ 1 < allocation then .error <| .thrown
    s!"resumeStrategy: allocation must be in [0, 1], got {allocation}"
  else
    match strategies.find? (·.id == id) with
    | none => .error <| .thrown
        s!"resumeStrategy: strategy \"{id}\" not found in portfolio for goal \"{goalId}\""
    | some strategy =>
      if strategy.state ≠ .suspended then .error <| .thrown
        s!"resumeStrategy: strategy \"{id}\" must be suspended (current: {strategy.state})"
      else do
        let resumed ← parseStrategy { strategy.toStrategyFields with
          state := .active, allocation := allocation }
        let others := othersRunning strategies id
        let updated ← strategies.mapM fun s =>
          if s.id = id then .ok resumed
          else if others.any (·.id == s.id) then
            parseStrategy { s.toStrategyFields with
              allocation := shrunk others (1 - allocation) s }
          else .ok s
        return (updated, resumed)

/-- `updateState`. -/
def updateState (strategies : List Strategy) (id : String) (newState : StrategyState)
    (effectiveness_score : Option ℚ) (now : String) :
    Except StrategyError (List Strategy × Strategy) :=
  match strategies.find? (·.id == id) with
  | none => .error <| .thrown s!"updateState: strategy \"{id}\" not found in any portfolio"
  | some strategy =>
    if newState ∈ VALID_TRANSITIONS strategy.state then do
      let updated ← parseStrategy { strategy.toStrategyFields with
        state := newState
        completed_at := if newState = .completed ∨ newState = .terminated then some now
          else strategy.completed_at
        effectiveness_score := effectiveness_score.or strategy.effectiveness_score }
      return (replaceStrategy strategies updated, updated)
    else .error <| .thrown
      s!"updateState: invalid transition \"{strategy.state}\" → \"{newState}\" for strategy \"{id}\""

/-! ## Calls -/

/-- A call of the manager on the portfolio of the goal. -/
inductive Call where
  | activateMultiple (ids : List String) (ctx : ActivationContext)
  | activateBestCandidate (sel : SelectionContext) (ctx : ActivationContext)
  | terminateStrategy (id now : String)
  | suspendStrategy (id : String)
  | resumeStrategy (id : String) (allocation : ℚ)
  | updateState (id : String) (newState : StrategyState) (effectiveness_score : Option ℚ)
      (now : String)

/-- The strategies after a call that returns, and those it returns or updates. -/
def Call.run (goalId : String) (strategies : List Strategy) :
    Call → Except StrategyError (List Strategy × List Strategy)
  | .activateMultiple ids ctx => StrategyManager.activateMultiple goalId strategies ids ctx
  | .activateBestCandidate sel ctx => StrategyManager.activateBestCandidate goalId strategies sel ctx
  | .terminateStrategy id now =>
    (StrategyManager.terminateStrategy goalId strategies id now).map fun (l, s) => (l, [s])
  | .suspendStrategy id =>
    (StrategyManager.suspendStrategy goalId strategies id).map fun (l, s) => (l, [s])
  | .resumeStrategy id allocation =>
    (StrategyManager.resumeStrategy goalId strategies id allocation).map fun (l, s) => (l, [s])
  | .updateState id newState effectiveness_score now =>
    (StrategyManager.updateState strategies id newState effectiveness_score now).map
      fun (l, s) => (l, [s])

/-! ## The portfolio -/

/-- `Portfolio`. No two of its strategies have the same id: `generateCandidates` stores a
candidate only when its id is new, and `createWaitStrategy` draws a random one. -/
structure Portfolio where
  goal_id : String
  strategies : List Strategy
  ids_nodup : (strategies.map (·.id)).Nodup

theorem mapM_ids {f : Strategy → Except StrategyError Strategy}
    {strategies updated : List Strategy} (h : strategies.mapM f = .ok updated)
    (hf : ∀ s ∈ strategies, ∀ s', f s = .ok s' → s'.id = s.id) :
    updated.map (·.id) = strategies.map (·.id) :=
  map_eq_of_forall₂ (mapM_ok_iff.mp h) hf

theorem replaceStrategy_ids (strategies : List Strategy) (updated : Strategy) :
    (replaceStrategy strategies updated).map (·.id) = strategies.map (·.id) := by
  unfold replaceStrategy
  rw [List.map_map]
  refine List.map_congr_left fun s _ => ?_
  show (if s.id = updated.id then updated else s).id = s.id
  split
  · next heq => exact heq.symm
  · rfl

theorem activateMultiple_ids {goalId : String} {strategies : List Strategy} {ids : List String}
    {ctx : ActivationContext} {updated activated : List Strategy}
    (h : activateMultiple goalId strategies ids ctx = .ok (updated, activated)) :
    updated.map (·.id) = strategies.map (·.id) := by
  unfold activateMultiple at h
  split at h
  · cases h
  · obtain ⟨waitBaselines, -, h⟩ := bind_ok_iff.mp h
    obtain ⟨updated', hmap, heq⟩ := bind_ok_iff.mp h
    cases heq
    refine mapM_ids hmap fun s _ s' hs => ?_
    split at hs
    · rw [parseStrategy_ok hs]
    · cases hs
      rfl

theorem redistributeAllocation_ids {strategies updated : List Strategy} {excludeId : String}
    {freedAllocation : ℚ}
    (h : redistributeAllocation strategies excludeId freedAllocation = .ok updated) :
    updated.map (·.id) = strategies.map (·.id) := by
  unfold redistributeAllocation at h
  dsimp only at h
  split at h
  · cases h
    rfl
  · refine mapM_ids h fun s _ s' hs => ?_
    split at hs
    · rw [parseStrategy_ok hs]
    · cases hs
      rfl

/-- A termination replaces the strategy and redistributes its allocation. -/
theorem terminateStrategy_ok {goalId : String} {strategies updated : List Strategy}
    {id now : String} {terminated : Strategy}
    (h : terminateStrategy goalId strategies id now = .ok (updated, terminated)) :
    ∃ strategy, strategies.find? (·.id == id) = some strategy ∧ terminated.id = strategy.id ∧
      terminated.state = .terminated ∧
      redistributeAllocation (replaceStrategy strategies terminated) id strategy.allocation =
        .ok updated := by
  unfold terminateStrategy at h
  split at h
  · cases h
  · next strategy hfind =>
    obtain ⟨terminated', hparse, h⟩ := bind_ok_iff.mp h
    obtain ⟨updated', hupdated, heq⟩ := bind_ok_iff.mp h
    cases heq
    refine ⟨strategy, hfind, ?_, ?_, hupdated⟩ <;> rw [parseStrategy_ok hparse]

/-- So does a suspension, of a running strategy. -/
theorem suspendStrategy_ok {goalId : String} {strategies updated : List Strategy} {id : String}
    {suspended : Strategy}
    (h : suspendStrategy goalId strategies id = .ok (updated, suspended)) :
    ∃ strategy, strategies.find? (·.id == id) = some strategy ∧
      strategy.state.running = true ∧ suspended.id = strategy.id ∧
      suspended.state = .suspended ∧
      redistributeAllocation (replaceStrategy strategies suspended) id strategy.allocation =
        .ok updated := by
  unfold suspendStrategy at h
  split at h
  · cases h
  · next strategy hfind =>
    split at h
    · next hrunning =>
      obtain ⟨suspended', hparse, h⟩ := bind_ok_iff.mp h
      obtain ⟨updated', hupdated, heq⟩ := bind_ok_iff.mp h
      cases heq
      refine ⟨strategy, hfind, hrunning, ?_, ?_, hupdated⟩ <;> rw [parseStrategy_ok hparse]
    · cases h

/-- A resumption gives a suspended strategy its allocation and shrinks the others. -/
theorem resumeStrategy_ok {goalId : String} {strategies updated : List Strategy} {id : String}
    {allocation : ℚ} {resumed : Strategy}
    (h : resumeStrategy goalId strategies id allocation = .ok (updated, resumed)) :
    ∃ strategy, strategies.find? (·.id == id) = some strategy ∧ strategy.state = .suspended ∧
      resumed.id = strategy.id ∧ resumed.state = .active ∧ resumed.allocation = allocation ∧
      strategies.mapM (fun s =>
        if s.id = id then .ok resumed
        else if (othersRunning strategies id).any (·.id == s.id) then
          parseStrategy { s.toStrategyFields with
            allocation := shrunk (othersRunning strategies id) (1 - allocation) s }
        else .ok s) = .ok updated := by
  unfold resumeStrategy at h
  split at h
  · cases h
  · split at h
    · cases h
    · next strategy hfind =>
      split at h
      · cases h
      · next hstate =>
        obtain ⟨resumed', hparse, h⟩ := bind_ok_iff.mp h
        obtain ⟨updated', hupdated, heq⟩ := bind_ok_iff.mp h
        cases heq
        refine ⟨strategy, hfind, not_not.mp hstate, ?_, ?_, ?_, hupdated⟩ <;>
          rw [parseStrategy_ok hparse]

/-- An update replaces the strategy by one in the new state, with the same allocation. -/
theorem updateState_ok {strategies l : List Strategy} {id : String} {newState : StrategyState}
    {effectiveness_score : Option ℚ} {now : String} {updated : Strategy}
    (h : updateState strategies id newState effectiveness_score now = .ok (l, updated)) :
    ∃ strategy, strategies.find? (·.id == id) = some strategy ∧
      newState ∈ VALID_TRANSITIONS strategy.state ∧ updated.id = strategy.id ∧
      updated.state = newState ∧ updated.allocation = strategy.allocation ∧
      l = replaceStrategy strategies updated := by
  unfold updateState at h
  split at h
  · cases h
  · next strategy hfind =>
    split at h
    · next hvalid =>
      obtain ⟨updated', hparse, heq⟩ := bind_ok_iff.mp h
      cases heq
      refine ⟨strategy, hfind, hvalid, ?_, ?_, ?_, rfl⟩ <;> rw [parseStrategy_ok hparse]
    · cases h

theorem found_id {strategies : List Strategy} {id : String} {s : Strategy}
    (h : strategies.find? (·.id == id) = some s) : s.id = id :=
  beq_iff_eq.mp (List.find?_some (p := fun s : Strategy => s.id == id) h)

/-- **No operation changes the ids.** -/
theorem run_ids {goalId : String} {strategies updated answer : List Strategy} {call : Call}
    (h : call.run goalId strategies = .ok (updated, answer)) :
    updated.map (·.id) = strategies.map (·.id) := by
  cases call with
  | activateMultiple ids ctx => exact activateMultiple_ids h
  | activateBestCandidate sel ctx =>
    have h : activateBestCandidate goalId strategies sel ctx = .ok (updated, answer) := h
    unfold activateBestCandidate at h
    split at h
    · cases h
    · exact activateMultiple_ids h
  | terminateStrategy id now =>
    obtain ⟨⟨l, s⟩, hcall, heq⟩ := map_ok_iff.mp h
    cases heq
    obtain ⟨strategy, -, -, -, hl⟩ := terminateStrategy_ok hcall
    rw [redistributeAllocation_ids hl, replaceStrategy_ids]
  | suspendStrategy id =>
    obtain ⟨⟨l, s⟩, hcall, heq⟩ := map_ok_iff.mp h
    cases heq
    obtain ⟨strategy, -, -, -, -, hl⟩ := suspendStrategy_ok hcall
    rw [redistributeAllocation_ids hl, replaceStrategy_ids]
  | resumeStrategy id allocation =>
    obtain ⟨⟨l, resumed⟩, hcall, heq⟩ := map_ok_iff.mp h
    cases heq
    obtain ⟨strategy, hfind, -, hid, -, -, hl⟩ := resumeStrategy_ok hcall
    refine mapM_ids hl fun s _ s' hs => ?_
    split at hs
    · next heq =>
      cases hs
      rw [hid, found_id hfind, heq]
    · split at hs
      · rw [parseStrategy_ok hs]
      · cases hs
        rfl
  | updateState id newState effectiveness_score now =>
    obtain ⟨⟨l, s⟩, hcall, heq⟩ := map_ok_iff.mp h
    cases heq
    obtain ⟨strategy, -, -, -, -, -, rfl⟩ := updateState_ok hcall
    rw [replaceStrategy_ids]

/-- A call: one that throws leaves the portfolio as it was stored. -/
def perform (p : Portfolio) (call : Call) :
    Portfolio × Except StrategyError (List Strategy) :=
  match h : call.run p.goal_id p.strategies with
  | .ok (updated, answer) => (⟨p.goal_id, updated, run_ids h ▸ p.ids_nodup⟩, .ok answer)
  | .error e => (p, .error e)

/-- The system of a goal's portfolio. -/
def portfolioLTS : LTS Portfolio (Call × Except StrategyError (List Strategy)) := .ofFn perform

end PulSeed.StrategyManager
