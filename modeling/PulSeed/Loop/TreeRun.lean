import PulSeed.Goals.RunningNodes
import PulSeed.Goals.Traversals

/-!
# Tree iterations (`orchestrator/loop/tree-loop-runner.ts`)

An iteration in tree mode first sees to the tree: a root without children is refined, and
one that has children starts again if the index of the loop is 0. Both reset the loops of all
nodes. It then selects a node, among those with a pending directive if there are any; a root
that still has no children is iterated itself.

`beginIteration` is that much of `runTreeIteration`, and `endIteration` what follows the
iteration of a selected node. What the refinement of the root stores is a parameter.
-/

namespace PulSeed.TreeLoop

open Relation

/-! ## The tree -/

/-- The goal is the root or is reached from it along the children. -/
def InTree (store : GoalStore) (rootId id : String) : Prop :=
  ReflTransGen (fun a b => b ∈ childIds store a) rootId id

section InTree

variable {store store' : GoalStore} {rootId : String}

/-- The ids of the tree, when the walk over the descendants returns. -/
theorem mem_descendants {depth : ℕ} {ids : List String} {id : String}
    (h : collectAllDescendantIds store depth rootId = some ids) :
    id ∈ rootId :: ids ↔ InTree store rootId id := by
  rw [(collectAllDescendantIds_iff.mp ⟨depth, h⟩).mem_iff]
  constructor
  · rintro ⟨x, hx, hpath⟩
    exact List.mem_singleton.mp hx ▸ hpath
  · exact fun hpath => ⟨rootId, List.mem_singleton_self rootId, hpath⟩

theorem SameTree.childIds_eq (h : SameTree store store') : childIds store' = childIds store := by
  funext id
  have hid := h id
  unfold childIds
  cases hload : store.loadGoal id with
  | none =>
    rw [hload] at hid
    rw [Option.map_eq_none_iff.mp hid]
  | some goal =>
    rw [hload] at hid
    obtain ⟨goal', hload', hchildren⟩ := Option.map_eq_some_iff.mp hid
    rw [hload']
    exact hchildren

theorem SameTree.inTree (h : SameTree store store') : InTree store' rootId = InTree store rootId := by
  unfold InTree
  rw [h.childIds_eq]

theorem SameTree.descendants_eq (h : SameTree store store') (depth : ℕ) (id : String) :
    collectAllDescendantIds store' depth id = collectAllDescendantIds store depth id := by
  induction depth generalizing id with
  | zero => rfl
  | succ depth ih =>
    rw [collectAllDescendantIds_succ, collectAllDescendantIds_succ, h.childIds_eq]
    unfold collectBelow
    rw [funext ih]

/-- The goals that are visited are in the tree. -/
theorem visit_inTree {depth : ℕ} {goal : Goal} {goals : List Goal}
    (hgoal : store.loadGoal goal.id = some goal) (h : visit store depth goal = some goals)
    {g : Goal} (hg : g ∈ goals) : InTree store goal.id g.id := by
  induction depth generalizing goal goals with
  | zero => cases h
  | succ depth ih =>
    obtain ⟨below, hbelow, rfl⟩ := Option.map_eq_some_iff.mp h
    rcases List.mem_cons.mp hg with rfl | hg
    · exact .refl
    · obtain ⟨children, hchildren, hg⟩ := List.mem_flatten.mp hg
      obtain ⟨childId, hmem, hchild⟩ := mapM_some_mem hbelow hchildren
      cases hload : store.loadGoal childId with
      | none =>
        rw [hload] at hchild
        cases hchild
        cases hg
      | some child =>
        rw [hload] at hchild
        have hpath := ih (store.loadGoal_self hload) hchild hg
        rw [store.loadGoal_id hload] at hpath
        refine ReflTransGen.head ?_ hpath
        unfold childIds
        rwa [hgoal]

theorem treeGoals_inTree {depth : ℕ} {goals : List Goal}
    (h : treeGoals store depth rootId = some goals) {g : Goal} (hg : g ∈ goals) :
    InTree store rootId g.id := by
  unfold treeGoals at h
  cases hload : store.loadGoal rootId with
  | none =>
    rw [hload] at h
    cases h
    cases hg
  | some root =>
    rw [hload] at h
    have hpath := visit_inTree (store.loadGoal_self hload) h hg
    rwa [store.loadGoal_id hload] at hpath

/-- Where the walk over the descendants returns, so does that over the goals. -/
theorem visit_isSome_of_descendants {depth : ℕ} {goal : Goal} {ids : List String}
    (hgoal : store.loadGoal goal.id = some goal)
    (h : collectAllDescendantIds store depth goal.id = some ids) :
    (visit store depth goal).isSome = true := by
  induction depth generalizing goal ids with
  | zero => cases h
  | succ depth ih =>
    unfold collectAllDescendantIds at h
    rw [hgoal] at h
    obtain ⟨lists, hlists, -⟩ := Option.map_eq_some_iff.mp h
    unfold visit
    rw [Option.isSome_map]
    refine mapM_isSome fun childId hchild => ?_
    cases hload : store.loadGoal childId with
    | none => rfl
    | some child =>
      obtain ⟨below, hbelow⟩ : ∃ below,
          collectAllDescendantIds store depth childId = some below := by
        obtain ⟨_, -, hvalue⟩ := mapM_some_value hlists hchild
        obtain ⟨below, hbelow, -⟩ := Option.map_eq_some_iff.mp hvalue
        exact ⟨below, hbelow⟩
      rw [← store.loadGoal_id hload] at hbelow
      exact ih (store.loadGoal_self hload) hbelow

end InTree

/-! ## The iteration, up to its selection -/

/-- The reset of one node in `startTreeExecution`. -/
def resetLoop (store : GoalStore) (id : String) : GoalStore :=
  match store.loadGoal id with
  | none => store
  | some goal =>
    if goal.loop_status = .idle then store else store.put { goal with loop_status := .idle }

/-- What an iteration is made on: the root itself, a node of the tree, or nothing. -/
inductive Chosen
  | flat
  | node (id : String)
  | nothing
  deriving DecidableEq

section Iteration

variable (config : Config) (rootId : String)

/-- `startTreeExecution`. The configuration that it is given has the limit which the
orchestrator has already. -/
def startTreeExecution (store : GoalStore) : Option GoalStore :=
  match store.loadGoal rootId with
  | none => some store
  | some _ => (collectAllDescendantIds store config.depth rootId).map fun descendants =>
    (rootId :: descendants).foldl resetLoop store

/-- The refinement of a root without children, or the reset of a tree: the stored goals, and
whether the iteration falls back to the root. `refined` is what `ensureGoalRefined` leaves
stored, if it does not throw. -/
def prepare (loopIndex : ℕ) (refined : Option GoalStore) (store : GoalStore) :
    Option (GoalStore × Bool) :=
  match store.loadGoal rootId with
  | none => some (store, false)
  | some root =>
    if root.children_ids = [] then
      match refined with
      | none => some (store, true)
      | some refined => (startTreeExecution config rootId refined).map fun started =>
        (started, decide (childIds started rootId = []))
    else if loopIndex = 0 then
      (startTreeExecution config rootId store).map fun started => (started, false)
    else some (store, false)

/-- What an iteration makes of a selection. -/
def Selection.chosen : Selection → Chosen
  | .selected id => .node id
  | .none | .limitReached => .nothing

/-- The selection of a node: a preferred one, or any. `pending` tells the goals with a pending
directive. -/
def selectNode (pending : Option (String → Bool)) (turns : ℕ) (store : GoalStore) :
    Option (GoalStore × Selection) := do
  let preferredNodeIds ← collectDirectivePreferredTreeNodeIds pending store turns rootId
  if preferredNodeIds = [] then selectNextNode config rootId store
  else
    let (store, selection) ← selectPreferredNode config rootId preferredNodeIds store
    match selection with
    | .none => selectNextNode config rootId store
    | .selected id => return (store, .selected id)
    | .limitReached => return (store, .limitReached)

/-- The iteration, up to its selection. -/
def beginIteration (loopIndex : ℕ) (refined : Option GoalStore) (pending : Option (String → Bool))
    (turns : ℕ) (store : GoalStore) : Option (GoalStore × Chosen) := do
  let (store, flat) ← prepare config rootId loopIndex refined store
  if flat then return (store, .flat)
  else
    let (store, selection) ← selectNode config rootId pending turns store
    return (store, selection.chosen)

/-- The end of an iteration on a selected node: the ancestors are aggregated, and the node is
completed or released. -/
def endIteration (selectedNodeId : String) (complete : Bool) (store : GoalStore) :
    Option GoalStore := do
  let store ← aggregateParents config config.depth store (parentOf store selectedNodeId)
  if complete then onNodeCompleted config selectedNodeId store
  else return setLoopStatus store selectedNodeId .idle

end Iteration

/-! ## What the iteration leaves -/

section Reset

variable {store : GoalStore}

/-- The goal, as `startTreeExecution` leaves it. -/
def Goal.reset (goal : Goal) : Goal := { goal with loop_status := .idle }

@[simp] theorem Goal.reset_id (goal : Goal) : goal.reset.id = goal.id := rfl

theorem Goal.reset_of_idle {goal : Goal} (h : goal.loop_status = .idle) : goal.reset = goal := by
  unfold Goal.reset
  rw [← h]

theorem loadGoal_resetLoop (store : GoalStore) (a id : String) :
    (resetLoop store a).loadGoal id =
      if id = a then (store.loadGoal id).map Goal.reset else store.loadGoal id := by
  unfold resetLoop
  cases hload : store.loadGoal a with
  | none =>
    dsimp only
    by_cases hid : id = a
    · rw [if_pos hid, hid, hload]
      rfl
    · rw [if_neg hid]
  | some goal =>
    obtain rfl := store.loadGoal_id hload
    dsimp only
    by_cases hid : id = goal.id
    · rw [if_pos hid, hid, hload, Option.map_some]
      by_cases hidle : goal.loop_status = .idle
      · rw [if_pos hidle, hload, Goal.reset_of_idle hidle]
      · rw [if_neg hidle, GoalStore.loadGoal_put, if_pos rfl]
        rfl
    · rw [if_neg hid]
      by_cases hidle : goal.loop_status = .idle
      · rw [if_pos hidle]
      · rw [if_neg hidle, GoalStore.loadGoal_put, if_neg hid]

theorem loadGoal_foldl_resetLoop (ids : List String) (store : GoalStore) (id : String) :
    (ids.foldl resetLoop store).loadGoal id =
      if id ∈ ids then (store.loadGoal id).map Goal.reset else store.loadGoal id := by
  induction ids generalizing store with
  | nil => rfl
  | cons a ids ih =>
    rw [List.foldl_cons, ih, loadGoal_resetLoop]
    by_cases ha : id = a
    · have htwice : Goal.reset ∘ Goal.reset = Goal.reset := rfl
      simp [ha, Option.map_map, htwice]
    · simp [ha]

/-- **A tree that is started** has the loops of all its nodes reset. -/
theorem loadGoal_startTreeExecution {config : Config} {rootId : String} {store started : GoalStore}
    (h : startTreeExecution config rootId store = some started) (id : String) :
    (InTree store rootId id → started.loadGoal id = (store.loadGoal id).map Goal.reset) ∧
      (¬InTree store rootId id → started.loadGoal id = store.loadGoal id) := by
  unfold startTreeExecution at h
  cases hroot : store.loadGoal rootId with
  | none =>
    rw [hroot] at h
    cases h
    refine ⟨fun hid => ?_, fun _ => rfl⟩
    -- nothing is reached from a root that is missing
    rcases hid.cases_head with rfl | ⟨child, hchild, -⟩
    · rw [hroot]
      rfl
    · unfold childIds at hchild
      rw [hroot] at hchild
      cases hchild
  | some root =>
    rw [hroot] at h
    obtain ⟨descendants, hdescendants, rfl⟩ := Option.map_eq_some_iff.mp h
    rw [loadGoal_foldl_resetLoop, ← mem_descendants hdescendants]
    exact ⟨fun hid => if_pos hid, fun hid => if_neg hid⟩

theorem startTreeExecution_sameTree {config : Config} {rootId : String}
    {store started : GoalStore} (h : startTreeExecution config rootId store = some started) :
    SameTree store started := by
  intro id
  obtain ⟨hin, hout⟩ := loadGoal_startTreeExecution h id
  by_cases hid : InTree store rootId id
  · rw [hin hid, Option.map_map]
    rfl
  · rw [hout hid]

end Reset

/-! ## The selection -/

section Selection

variable (config : Config) (rootId : String) {store store' : GoalStore}

/-- A node that may be selected: it is active and idle, and the limit leaves room. -/
structure Selectable (store : GoalStore) (id : String) : Prop where
  ready : ∃ goal, store.loadGoal id = some goal ∧ goal.status = .active ∧
    goal.loop_status = .idle
  inTree : InTree store rootId id
  descendants : ∃ ids, collectAllDescendantIds store config.depth rootId = some ids
  room : ∃ treeState, getTreeState store config.depth rootId = some treeState ∧
    treeState.active_loops.length < config.parallel_loop_limit

/-- A node is selected and marked as running, or nothing is stored. -/
def Selects (store store' : GoalStore) (selection : Selection) : Prop :=
  (∃ id, selection = .selected id ∧ store' = setLoopStatus store id .running ∧
    Selectable config rootId store id) ∨ (∀ id, selection ≠ .selected id) ∧ store' = store

variable {config rootId}

theorem selectAmong_selects {treeState : GoalTreeState} {ids allIds : List String}
    (hstate : getTreeState store config.depth rootId = some treeState)
    (hroom : treeState.active_loops.length < config.parallel_loop_limit)
    (hdescendants : collectAllDescendantIds store config.depth rootId = some ids)
    (hids : ∀ id ∈ allIds, id ∈ rootId :: ids) :
    Selects config rootId store (selectAmong store allIds).1 (selectAmong store allIds).2 := by
  unfold selectAmong
  cases hselected : selectEligibleNodeId store allIds with
  | none => exact .inr ⟨nofun, rfl⟩
  | some id =>
    obtain ⟨goal, hgoal, rfl⟩ := selectEligibleNodeId_mem hselected
    obtain ⟨hmem, hload, hstatus, hidle⟩ := mem_eligible.mp hgoal
    refine .inl ⟨goal.id, rfl, rfl, ⟨goal, hload, hstatus, hidle⟩, ?_, ⟨ids, hdescendants⟩,
      treeState, hstate, hroom⟩
    exact (mem_descendants hdescendants).mp (hids _ hmem)

theorem selectNextNode_selects {selection : Selection}
    (h : selectNextNode config rootId store = some (store', selection)) :
    Selects config rootId store store' selection := by
  obtain ⟨treeState, hstate, h⟩ := Option.bind_eq_some_iff.mp h
  split at h
  · cases h
    exact .inr ⟨nofun, rfl⟩
  · next hroom =>
    obtain ⟨ids, hids, h⟩ := Option.bind_eq_some_iff.mp h
    have hselects := selectAmong_selects hstate (not_le.mp hroom) hids fun _ hid => hid
    rwa [Option.some.inj h] at hselects

theorem selectPreferredNode_selects {preferredNodeIds : List String} {selection : Selection}
    (h : selectPreferredNode config rootId preferredNodeIds store = some (store', selection)) :
    Selects config rootId store store' selection := by
  unfold selectPreferredNode at h
  split at h
  · cases h
    exact .inr ⟨nofun, rfl⟩
  · obtain ⟨treeState, hstate, h⟩ := Option.bind_eq_some_iff.mp h
    split at h
    · cases h
      exact .inr ⟨nofun, rfl⟩
    · next hroom =>
      obtain ⟨ids, hids, h⟩ := Option.bind_eq_some_iff.mp h
      dsimp only at h
      split at h
      · cases h
        exact .inr ⟨nofun, rfl⟩
      · have hamong : ∀ id ∈ preferredNodeIds.filter (· ∈ rootId :: ids), id ∈ rootId :: ids :=
          fun id hid => of_decide_eq_true (List.mem_filter.mp hid).2
        have hselects := selectAmong_selects hstate (not_le.mp hroom) hids hamong
        rwa [Option.some.inj h] at hselects

/-- **A selection** marks one selectable node as running, or stores nothing. -/
theorem selectNode_selects {pending : Option (String → Bool)} {turns : ℕ} {selection : Selection}
    (h : selectNode config rootId pending turns store = some (store', selection)) :
    Selects config rootId store store' selection := by
  obtain ⟨preferredNodeIds, -, h⟩ := Option.bind_eq_some_iff.mp h
  split at h
  · exact selectNextNode_selects h
  · obtain ⟨⟨left, selection'⟩, hpreferred, hrest⟩ := Option.bind_eq_some_iff.mp h
    have hselects := selectPreferredNode_selects hpreferred
    cases selection' with
    | selected id =>
      cases hrest
      exact hselects
    | limitReached =>
      cases hrest
      exact hselects
    | none =>
      rcases hselects with ⟨_, heq, -⟩ | ⟨-, rfl⟩
      · exact nomatch heq
      · exact selectNextNode_selects hrest

theorem eligible_of_none {allIds : List String} (h : selectEligibleNodeId store allIds = none) :
    eligible store allIds = [] := by
  unfold selectEligibleNodeId at h
  rw [List.partition_eq_filter_filter] at h
  obtain ⟨hleaves, hothers⟩ := Option.or_eq_none_iff.mp h
  have hleaves := List.head?_eq_none_iff.mp (Option.map_eq_none_iff.mp hleaves)
  have hothers := List.head?_eq_none_iff.mp (Option.map_eq_none_iff.mp hothers)
  unfold curriculumSort at hleaves
  have hsorted := (hleaves ▸ (List.perm_insertionSort ..).symm).eq_nil
  rw [List.map_eq_nil_iff, List.filter_eq_nil_iff] at hsorted
  rw [List.filter_eq_nil_iff] at hothers
  refine List.eq_nil_iff_forall_not_mem.mpr fun goal hgoal => ?_
  have hleaf := hsorted goal hgoal
  have hother := hothers goal hgoal
  simp only [Function.comp_apply, Bool.not_eq_true] at hleaf hother
  rw [hleaf] at hother
  exact nomatch hother

/-- A node in the tree of a root that is missing is the root. -/
theorem InTree.root_stored {id : String} (h : InTree store rootId id)
    (hid : (store.loadGoal id).isSome) : ∃ root, store.loadGoal rootId = some root := by
  rcases h.cases_head with rfl | ⟨child, hchild, -⟩
  · exact Option.isSome_iff_exists.mp hid
  · unfold childIds at hchild
    cases hroot : store.loadGoal rootId with
    | none =>
      rw [hroot] at hchild
      cases hchild
    | some root => exact ⟨root, rfl⟩

/-- **A selectable node** is selected when a directive is pending for it alone. -/
theorem Selectable.selected {id : String} (h : Selectable config rootId store id) :
    ∃ pending turns, selectNode config rootId pending turns store =
      some (setLoopStatus store id .running, .selected id) := by
  obtain ⟨⟨goal, hload, hstatus, hidle⟩, hin, ⟨ids, hids⟩, treeState, hstate, hroom⟩ := h
  have hunfolds := collectAllDescendantIds_iff.mp ⟨_, hids⟩
  obtain ⟨queued, hqueued, hperm⟩ := dequeue_of_unfolds _ hunfolds rfl
  have hmem : id ∈ rootId :: ids := (mem_descendants hids).mpr hin
  obtain ⟨root, hroot⟩ := hin.root_stored (Option.isSome_of_eq_some hload)
  refine ⟨some (· == id), (rootId :: ids).length, ?_⟩
  have hpreferred : ∃ copies, collectDirectivePreferredTreeNodeIds (some (· == id)) store
      (rootId :: ids).length rootId = some copies ∧ id ∈ copies ∧ ∀ x ∈ copies, x = id := by
    unfold collectDirectivePreferredTreeNodeIds queuedIds
    rw [hroot, hqueued]
    refine ⟨_, rfl, List.mem_filter.mpr ⟨hperm.mem_iff.mpr hmem, ?_⟩, ?_⟩
    · simp [isStored, hload]
    · intro x hx
      have hx := (List.mem_filter.mp hx).2
      exact eq_of_beq (Bool.and_eq_true_iff.mp hx).2
  obtain ⟨copies, hcopies, hcopy, hall⟩ := hpreferred
  have hcandidates : copies.filter (· ∈ rootId :: ids) = copies :=
    List.filter_eq_self.mpr fun x hx => decide_eq_true (hall x hx ▸ hmem)
  have hselected : selectEligibleNodeId store copies = some id := by
    have hgoal : goal ∈ eligible store copies := by
      obtain rfl := store.loadGoal_id hload
      exact mem_eligible.mpr ⟨hcopy, hload, hstatus, hidle⟩
    cases hchoice : selectEligibleNodeId store copies with
    | none =>
      rw [eligible_of_none hchoice] at hgoal
      cases hgoal
    | some chosen =>
      obtain ⟨other, hother, rfl⟩ := selectEligibleNodeId_mem hchoice
      rw [hall _ (mem_eligible.mp hother).1]
  have hne : copies ≠ [] := List.ne_nil_of_mem hcopy
  unfold selectNode selectPreferredNode
  simp only [hcopies, hstate, hids, Option.bind_eq_bind, Option.bind_some, if_neg hne,
    if_neg (not_le.mpr hroom), hcandidates, selectAmong, hselected]
  rfl

end Selection

end PulSeed.TreeLoop
