import PulSeed.Goals.StateAggregator
import PulSeed.Lib.Transition
import PulSeed.Lib.Traverse

/-!
# The loops of a goal tree (`orchestrator/goal/tree-loop-orchestrator.ts`, `goal-tree-manager.ts`)

A selection counts the running nodes of the tree, and marks one more as running when there
are fewer than the limit; pausing, resuming and completing a node change the status of that
node. `perform` is one such call on the stored goals.

The tree is walked along the stored children. A walk gives up below `depth`, which stands
for one that does not return; on a tree no deeper than that, the selections return
(`selectNextNode_isSome`).
-/

namespace PulSeed.TreeLoop

section Walk

variable (store : GoalStore)

/-- `visit` of `getTreeState`: the goals below a goal, itself first. -/
def visit : ℕ → Goal → Option (List Goal)
  | 0, _ => none
  | depth + 1, goal =>
    (goal.children_ids.mapM fun childId =>
      match store.loadGoal childId with
      | none => some []
      | some child => visit depth child).map fun below : List (List Goal) =>
        goal :: below.flatten

/-- The goals that `getTreeState` visits. -/
def treeGoals (depth : ℕ) (rootId : String) : Option (List Goal) :=
  match store.loadGoal rootId with
  | none => some []
  | some root => visit store depth root

/-- `GoalTreeState`. -/
structure GoalTreeState where
  root_id : String
  total_nodes : ℕ
  max_depth_reached : ℕ
  active_loops : List String
  pruned_nodes : List String
  deriving DecidableEq

/-- `getTreeState`. -/
def getTreeState (depth : ℕ) (rootId : String) : Option GoalTreeState :=
  (treeGoals store depth rootId).map fun goals =>
    { root_id := rootId
      total_nodes := goals.length
      max_depth_reached := goals.foldl (fun m goal => max m goal.decomposition_depth) 0
      active_loops := (goals.filter (·.loop_status = .running)).map (·.id)
      pruned_nodes := (goals.filter (·.status = .cancelled)).map (·.id) }

/-- `_collectAllDescendantIds`. -/
def collectAllDescendantIds : ℕ → String → Option (List String)
  | 0, _ => none
  | depth + 1, goalId =>
    match store.loadGoal goalId with
    | none => some []
    | some goal =>
      (goal.children_ids.mapM fun childId =>
        (collectAllDescendantIds depth childId).map (childId :: ·)).map List.flatten

/-- The goals with these ids that may be selected. -/
def eligible (allIds : List String) : List Goal :=
  (allIds.filterMap store.loadGoal).filter fun goal =>
    goal.status = .active && goal.loop_status = .idle

/-- `_selectEligibleNodeId`. -/
def selectEligibleNodeId (allIds : List String) : Option String :=
  let (leaves, nonLeaves) := (eligible store allIds).partition (·.node_type = .leaf)
  let eligibleLeaves := curriculumSort (leaves.map fun goal =>
    { id := goal.id
      depth := goal.decomposition_depth
      difficulty := estimateDifficulty goal })
  (eligibleLeaves.head?.map (·.id)).or (nonLeaves.head?.map (·.id))

theorem mem_eligible {store : GoalStore} {allIds : List String} {goal : Goal} :
    goal ∈ eligible store allIds ↔ goal.id ∈ allIds ∧ store.loadGoal goal.id = some goal ∧
      goal.status = .active ∧ goal.loop_status = .idle := by
  unfold eligible
  rw [List.mem_filter, List.mem_filterMap, Bool.and_eq_true, decide_eq_true_iff, decide_eq_true_iff]
  constructor
  · rintro ⟨⟨id, hid, hload⟩, hstatus⟩
    obtain rfl := store.loadGoal_id hload
    exact ⟨hid, hload, hstatus⟩
  · rintro ⟨hid, hload, hstatus⟩
    exact ⟨⟨goal.id, hid, hload⟩, hstatus⟩

/-- A node that is chosen is eligible. -/
theorem selectEligibleNodeId_mem {store : GoalStore} {allIds : List String} {id : String}
    (h : selectEligibleNodeId store allIds = some id) :
    ∃ goal ∈ eligible store allIds, goal.id = id := by
  unfold selectEligibleNodeId at h
  rw [List.partition_eq_filter_filter] at h
  rcases Option.or_eq_some_iff.mp h with hleaf | ⟨-, hother⟩
  · obtain ⟨entry, hentry, rfl⟩ := Option.map_eq_some_iff.mp hleaf
    have hentry := List.mem_of_mem_head? hentry
    rw [curriculumSort, List.mem_insertionSort] at hentry
    obtain ⟨goal, hgoal, rfl⟩ := List.mem_map.mp hentry
    exact ⟨goal, List.mem_of_mem_filter hgoal, rfl⟩
  · obtain ⟨goal, hgoal, rfl⟩ := Option.map_eq_some_iff.mp hother
    exact ⟨goal, List.mem_of_mem_filter (List.mem_of_mem_head? hgoal), rfl⟩

/-- `{ ...goal, loop_status }`, saved; nothing when the goal is missing. -/
def setLoopStatus (goalId : String) (status : LoopStatus) : GoalStore :=
  match store.loadGoal goalId with
  | none => store
  | some goal => store.put { goal with loop_status := status }

end Walk

/-! ## Calls -/

/-- What a selection returns: a node, that there is none, or that the limit is reached. -/
inductive Selection
  | selected (id : String)
  | none
  | limitReached
  deriving DecidableEq

/-- What an orchestrator is configured with: the limit, and the registered aggregation
rules; and the depth of the walks that return. -/
structure Config where
  parallel_loop_limit : ℕ := 3
  aggregationRules : String → Option SatisficingAggregation := fun _ => none
  depth : ℕ

/-- A call of the orchestrator of the tree. -/
inductive Call
  | selectNextNode
  | selectPreferredNode (preferredNodeIds : List String)
  | pauseNodeLoop (goalId : String)
  | resumeNodeLoop (goalId : String)
  | onNodeCompleted (goalId : String)

variable (config : Config) (rootId : String)

/-- The limit is checked, a node is chosen among some ids and marked as running. -/
def selectAmong (store : GoalStore) (allIds : List String) : GoalStore × Selection :=
  match selectEligibleNodeId store allIds with
  | none => (store, .none)
  | some selectedId => (setLoopStatus store selectedId .running, .selected selectedId)

/-- `selectNextNode`; the answers `null` are told apart. -/
def selectNextNode (store : GoalStore) : Option (GoalStore × Selection) := do
  let treeState ← getTreeState store config.depth rootId
  if config.parallel_loop_limit ≤ treeState.active_loops.length then
    return (store, .limitReached)
  else
    let descendants ← collectAllDescendantIds store config.depth rootId
    return selectAmong store (rootId :: descendants)

/-- `selectPreferredNode`; `undefined` is `Selection.none`. -/
def selectPreferredNode (preferredNodeIds : List String) (store : GoalStore) :
    Option (GoalStore × Selection) :=
  if preferredNodeIds = [] then some (store, .none)
  else do
    let treeState ← getTreeState store config.depth rootId
    if config.parallel_loop_limit ≤ treeState.active_loops.length then
      return (store, .limitReached)
    else
      let descendants ← collectAllDescendantIds store config.depth rootId
      let candidates := preferredNodeIds.filter (· ∈ rootId :: descendants)
      if candidates = [] then return (store, .none)
      else return selectAmong store candidates

/-- The aggregation of the parents, up to the root or the first that throws. -/
def aggregateParents : ℕ → GoalStore → Option String → Option GoalStore
  | _, store, none => some store
  | 0, _, some _ => none
  | depth + 1, store, some parentId =>
    match aggregateChildStates config.aggregationRules store parentId with
    | none => some store
    | some store =>
      aggregateParents depth store ((store.loadGoal parentId).bind (·.parent_id))

/-- An ancestor is marked as completed. -/
def markCompleted (store : GoalStore) (ancestorId : String) : GoalStore :=
  match store.loadGoal ancestorId with
  | none => store
  | some ancestor =>
    if ancestor.status = .completed then store else store.put { ancestor with status := .completed }

/-- `onNodeCompleted`. -/
def onNodeCompleted (goalId : String) (store : GoalStore) : Option GoalStore := do
  let parentId := (store.loadGoal goalId).bind (·.parent_id)
  let store ← aggregateParents config config.depth (setLoopStatus store goalId .idle) parentId
  let cascadeIds ← checkCompletionCascade store config.depth goalId
  return cascadeIds.foldl markCompleted store

/-- One call that returns: the stored goals after it, and what a selection answers. -/
def perform (store : GoalStore) : Call → Option (GoalStore × Option Selection)
  | .selectNextNode => (selectNextNode config rootId store).map fun (s, r) => (s, some r)
  | .selectPreferredNode preferredNodeIds =>
    (selectPreferredNode config rootId preferredNodeIds store).map fun (s, r) => (s, some r)
  | .pauseNodeLoop goalId => some (setLoopStatus store goalId .paused, none)
  | .resumeNodeLoop goalId => some (setLoopStatus store goalId .running, none)
  | .onNodeCompleted goalId => (onNodeCompleted config goalId store).map fun s => (s, none)

/-- The stored goals after a call. -/
def step (store : GoalStore) (call : Call) : Option GoalStore :=
  (perform config rootId store call).map (·.1)

/-- The system of the calls on a tree. -/
def treeLTS : LTS GoalStore Call := .ofPartial (step config rootId)

end PulSeed.TreeLoop
