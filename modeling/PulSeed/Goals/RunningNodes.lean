import Mathlib.Data.List.Dedup
import PulSeed.Goals.TreeLoop

/-!
# The running nodes of a goal tree

The selections keep the number of running nodes within the limit: they count before they
mark one more. No other call adds a running node, except a resumption, which marks its node
as running without counting.

So the limit is kept in a run exactly when every resumption of a node of the tree that is
not running finds fewer running nodes than the limit (`running_bounded_iff`).
-/

namespace PulSeed.TreeLoop

/-! ## The nodes of the tree -/

/-- The goal is running. -/
def running (store : GoalStore) (id : String) : Bool :=
  (store.loadGoal id).any (·.loop_status = .running)

/-- The ids of the goals that are visited. -/
def treeIds (store : GoalStore) (depth : ℕ) (rootId : String) : List String :=
  ((treeGoals store depth rootId).getD []).map (·.id)

/-- The number of nodes of the tree that are running. -/
def runningNodes (config : Config) (rootId : String) (store : GoalStore) : ℕ :=
  (treeIds store config.depth rootId).dedup.countP (running store)

/-- At most as many nodes are running as the limit allows. -/
def Bounded (config : Config) (rootId : String) (store : GoalStore) : Prop :=
  runningNodes config rootId store ≤ config.parallel_loop_limit

/-- A resumption of a node of the tree finds it running or finds a free slot. -/
def FindsSlot (config : Config) (rootId : String) (store : GoalStore) : Call → Prop
  | .resumeNodeLoop goalId =>
    goalId ∈ treeIds store config.depth rootId → running store goalId = false →
      runningNodes config rootId store < config.parallel_loop_limit
  | _ => True

instance (config : Config) (rootId : String) (store : GoalStore) :
    (call : Call) → Decidable (FindsSlot config rootId store call)
  | .resumeNodeLoop _ => inferInstanceAs (Decidable (_ → _ → _))
  | .selectNextNode | .selectPreferredNode _ | .pauseNodeLoop _ | .onNodeCompleted _ =>
    instDecidableTrue

/-- A goal that is visited is stored under its id. -/
theorem visit_stored {store : GoalStore} {depth : ℕ} {goal : Goal} {goals : List Goal}
    (hgoal : store.loadGoal goal.id = some goal) (h : visit store depth goal = some goals)
    {g : Goal} (hg : g ∈ goals) : store.loadGoal g.id = some g := by
  induction depth generalizing goal goals with
  | zero => cases h
  | succ depth ih =>
    obtain ⟨below, hbelow, rfl⟩ := Option.map_eq_some_iff.mp h
    rcases List.mem_cons.mp hg with rfl | hg
    · exact hgoal
    · obtain ⟨children, hchildren, hg⟩ := List.mem_flatten.mp hg
      obtain ⟨childId, -, hchild⟩ := mapM_some_mem hbelow hchildren
      cases hload : store.loadGoal childId with
      | none =>
        rw [hload] at hchild
        cases hchild
        cases hg
      | some child =>
        rw [hload] at hchild
        exact ih (store.loadGoal_self hload) hchild hg

theorem treeGoals_stored {store : GoalStore} {depth : ℕ} {rootId : String} {goals : List Goal}
    (h : treeGoals store depth rootId = some goals) {g : Goal} (hg : g ∈ goals) :
    store.loadGoal g.id = some g := by
  unfold treeGoals at h
  cases hload : store.loadGoal rootId with
  | none =>
    rw [hload] at h
    cases h
    cases hg
  | some root =>
    rw [hload] at h
    exact visit_stored (store.loadGoal_self hload) h hg

/-- **The loops that are counted are at least as many** as the running nodes: a node that
is reached twice is counted twice. -/
theorem runningNodes_le_active {config : Config} {rootId : String} {store : GoalStore}
    {treeState : GoalTreeState} (h : getTreeState store config.depth rootId = some treeState) :
    runningNodes config rootId store ≤ treeState.active_loops.length := by
  obtain ⟨goals, hgoals, rfl⟩ := Option.map_eq_some_iff.mp h
  have hcount : (treeIds store config.depth rootId).countP (running store) =
      goals.countP (·.loop_status = .running) := by
    unfold treeIds
    rw [hgoals, Option.getD_some, List.countP_map]
    refine List.countP_congr fun g hg => ?_
    dsimp only [Function.comp_apply]
    unfold running
    rw [treeGoals_stored hgoals hg]
    rfl
  dsimp only
  rw [List.length_map, ← List.countP_eq_length_filter, ← hcount]
  exact (List.dedup_sublist _).countP_le

/-! ## Saves -/

/-- The stored goals have the same children. -/
def SameTree (store store' : GoalStore) : Prop :=
  ∀ id, (store'.loadGoal id).map (·.children_ids) = (store.loadGoal id).map (·.children_ids)

theorem visit_ids {store store' : GoalStore} (h : SameTree store store') (depth : ℕ)
    {goal goal' : Goal} (hid : goal'.id = goal.id)
    (hchildren : goal'.children_ids = goal.children_ids) :
    (visit store' depth goal').map (List.map (·.id)) =
      (visit store depth goal).map (List.map (·.id)) := by
  induction depth generalizing goal goal' with
  | zero => rfl
  | succ depth ih =>
    unfold visit
    rw [hchildren, Option.map_map, Option.map_map]
    have hflat : ∀ g : Goal, (List.map (·.id) ∘ fun below : List (List Goal) => g :: below.flatten) =
        (fun ids : List (List String) => g.id :: ids.flatten) ∘ List.map (List.map (·.id)) := by
      intro g
      funext below
      simp [List.map_flatten]
    rw [hflat, hflat, hid, ← Option.map_map, ← Option.map_map]
    refine congrArg _ (mapM_map_congr fun childId _ => ?_)
    have hsame := h childId
    cases hload : store.loadGoal childId with
    | none =>
      rw [hload] at hsame
      rw [Option.map_eq_none_iff.mp hsame]
    | some child =>
      rw [hload] at hsame
      obtain ⟨child', hload', hchildren'⟩ := Option.map_eq_some_iff.mp hsame
      rw [hload']
      refine ih ?_ hchildren'
      rw [store'.loadGoal_id hload', store.loadGoal_id hload]

/-- **The tree is that of the children.** -/
theorem treeIds_congr {store store' : GoalStore} (h : SameTree store store') (depth : ℕ)
    (rootId : String) : treeIds store' depth rootId = treeIds store depth rootId := by
  have hids : (treeGoals store' depth rootId).map (List.map (·.id)) =
      (treeGoals store depth rootId).map (List.map (·.id)) := by
    have hsame := h rootId
    unfold treeGoals
    cases hload : store.loadGoal rootId with
    | none =>
      rw [hload] at hsame
      rw [Option.map_eq_none_iff.mp hsame]
    | some root =>
      rw [hload] at hsame
      obtain ⟨root', hload', hchildren⟩ := Option.map_eq_some_iff.mp hsame
      rw [hload']
      refine visit_ids h depth ?_ hchildren
      rw [store'.loadGoal_id hload', store.loadGoal_id hload]
  unfold treeIds
  cases hgoals : treeGoals store depth rootId with
  | none =>
    rw [hgoals] at hids
    rw [Option.map_eq_none_iff.mp hids]
  | some goals =>
    rw [hgoals] at hids
    obtain ⟨goals', hgoals', heq⟩ := Option.map_eq_some_iff.mp hids
    rw [hgoals']
    exact heq

/-- The same tree, and no node runs that did not. -/
def Quiet (store store' : GoalStore) : Prop :=
  SameTree store store' ∧ ∀ id, running store' id = true → running store id = true

theorem Quiet.refl (store : GoalStore) : Quiet store store := ⟨fun _ => rfl, fun _ h => h⟩

theorem Quiet.trans {a b c : GoalStore} (h : Quiet a b) (h' : Quiet b c) : Quiet a c :=
  ⟨fun id => (h'.1 id).trans (h.1 id), fun id hid => h.2 id (h'.2 id hid)⟩

theorem Quiet.runningNodes_le {store store' : GoalStore} (h : Quiet store store')
    (config : Config) (rootId : String) :
    runningNodes config rootId store' ≤ runningNodes config rootId store := by
  unfold runningNodes
  rw [treeIds_congr h.1]
  exact List.countP_mono_left fun id _ hid => h.2 id hid

theorem put_sameTree {store : GoalStore} {id : String} {old new : Goal}
    (hold : store.loadGoal id = some old) (hnew : new.id = old.id)
    (hchildren : new.children_ids = old.children_ids) : SameTree store (store.put new) := by
  intro id'
  unfold GoalStore.put
  dsimp only
  by_cases hid : id' = new.id
  · subst hid
    rw [Function.update_self, hnew, store.loadGoal_self hold, Option.map_some, Option.map_some,
      hchildren]
  · rw [Function.update_of_ne hid]

theorem running_put (store : GoalStore) (new : Goal) (id : String) :
    running (store.put new) id =
      if id = new.id then decide (new.loop_status = .running) else running store id := by
  unfold running GoalStore.put
  dsimp only
  by_cases hid : id = new.id
  · subst hid
    rw [Function.update_self, if_pos rfl]
    rfl
  · rw [Function.update_of_ne hid, if_neg hid]

/-- A save that keeps the children and does not start the goal. -/
theorem put_quiet {store : GoalStore} {id : String} {old new : Goal}
    (hold : store.loadGoal id = some old) (hnew : new.id = old.id)
    (hchildren : new.children_ids = old.children_ids)
    (hrunning : new.loop_status = .running → old.loop_status = .running) :
    Quiet store (store.put new) := by
  refine ⟨put_sameTree hold hnew hchildren, fun id' h => ?_⟩
  rw [running_put] at h
  split at h
  · next hid =>
    subst hid
    unfold running
    rw [hnew, store.loadGoal_self hold]
    exact decide_eq_true (hrunning (of_decide_eq_true h))
  · exact h

/-! ## Calls that start no node -/

theorem setLoopStatus_quiet (store : GoalStore) (goalId : String) {status : LoopStatus}
    (hstatus : status ≠ .running) : Quiet store (setLoopStatus store goalId status) := by
  unfold setLoopStatus
  cases hload : store.loadGoal goalId with
  | none => exact Quiet.refl store
  | some goal => exact put_quiet hload rfl rfl fun h => absurd h hstatus

theorem aggregateChildStates_quiet {rules : String → Option SatisficingAggregation}
    {store store' : GoalStore} {parentId : String}
    (h : aggregateChildStates rules store parentId = some store') : Quiet store store' := by
  unfold aggregateChildStates at h
  cases hload : store.loadGoal parentId with
  | none =>
    rw [hload] at h
    cases h
  | some parent =>
    rw [hload] at h
    dsimp only at h
    split at h
    · cases h
      exact Quiet.refl store
    · split at h
      · cases h
        exact put_quiet hload rfl rfl id
      · cases h

theorem aggregateParents_quiet {config : Config} {depth : ℕ} {store store' : GoalStore}
    {parentId : Option String} (h : aggregateParents config depth store parentId = some store') :
    Quiet store store' := by
  induction depth generalizing store parentId with
  | zero =>
    cases parentId with
    | none =>
      cases h
      exact Quiet.refl _
    | some parentId => cases h
  | succ depth ih =>
    cases parentId with
    | none =>
      cases h
      exact Quiet.refl _
    | some parentId =>
      rw [aggregateParents] at h
      cases haggregate : aggregateChildStates config.aggregationRules store parentId with
      | none =>
        rw [haggregate] at h
        cases h
        exact Quiet.refl _
      | some store₁ =>
        rw [haggregate] at h
        exact (aggregateChildStates_quiet haggregate).trans (ih h)

theorem markCompleted_quiet (store : GoalStore) (ancestorId : String) :
    Quiet store (markCompleted store ancestorId) := by
  unfold markCompleted
  cases hload : store.loadGoal ancestorId with
  | none => exact Quiet.refl store
  | some ancestor =>
    dsimp only
    split
    · exact Quiet.refl store
    · exact put_quiet hload rfl rfl id

theorem foldl_markCompleted_quiet (ids : List String) (store : GoalStore) :
    Quiet store (ids.foldl markCompleted store) := by
  induction ids generalizing store with
  | nil => exact Quiet.refl store
  | cons id ids ih => exact (markCompleted_quiet store id).trans (ih _)

/-- **A completion starts no node.** -/
theorem onNodeCompleted_quiet {config : Config} {goalId : String} {store store' : GoalStore}
    (h : onNodeCompleted config goalId store = some store') : Quiet store store' := by
  obtain ⟨store₁, haggregate, h⟩ := Option.bind_eq_some_iff.mp h
  obtain ⟨ids, -, h⟩ := Option.bind_eq_some_iff.mp h
  cases h
  exact (setLoopStatus_quiet store goalId (by decide)).trans
    ((aggregateParents_quiet haggregate).trans (foldl_markCompleted_quiet ids store₁))

/-! ## Calls that start a node -/

theorem setLoopStatus_sameTree (store : GoalStore) (goalId : String) (status : LoopStatus) :
    SameTree store (setLoopStatus store goalId status) := by
  unfold setLoopStatus
  cases hload : store.loadGoal goalId with
  | none => exact fun _ => rfl
  | some goal => exact put_sameTree hload rfl rfl

theorem running_start (store : GoalStore) (goalId id : String) :
    running (setLoopStatus store goalId .running) id =
      (running store id || (id == goalId && (store.loadGoal goalId).isSome)) := by
  unfold setLoopStatus
  cases hload : store.loadGoal goalId with
  | none => simp
  | some goal =>
    dsimp only
    rw [running_put, store.loadGoal_id hload]
    split
    · next hid => simp [hid]
    · next hid => simp [hid]

/-- In a list without duplicates, one more element with a property is counted once. -/
theorem countP_or_eq {l : List String} (hl : l.Nodup) (p : String → Bool) (a : String) :
    l.countP (fun x => p x || x == a) =
      l.countP p + if a ∈ l ∧ p a = false then 1 else 0 := by
  induction l with
  | nil => rfl
  | cons b l ih =>
    obtain ⟨hb, hl⟩ := List.nodup_cons.mp hl
    rw [List.countP_cons, List.countP_cons, ih hl]
    by_cases hab : b = a
    · subst hab
      cases p b <;> simp [hb]
    · have hba : a ≠ b := fun h => hab h.symm
      simp only [List.mem_cons, hba, false_or, beq_eq_false_iff_ne.mpr hab, Bool.or_false]
      omega

/-- **Starting a node** adds one to the running nodes when it is a node of the tree that
was not running. -/
theorem runningNodes_start (config : Config) (rootId : String) (store : GoalStore)
    (goalId : String) :
    runningNodes config rootId (setLoopStatus store goalId .running) =
      runningNodes config rootId store +
        if goalId ∈ treeIds store config.depth rootId ∧ running store goalId = false then 1
        else 0 := by
  unfold runningNodes
  rw [treeIds_congr (setLoopStatus_sameTree store goalId .running)]
  cases hload : store.loadGoal goalId with
  | none =>
    have hout : goalId ∉ treeIds store config.depth rootId := by
      intro hmem
      unfold treeIds at hmem
      obtain ⟨g, hg, rfl⟩ := List.mem_map.mp hmem
      cases hgoals : treeGoals store config.depth rootId with
      | none =>
        rw [hgoals] at hg
        cases hg
      | some goals =>
        rw [hgoals] at hg
        rw [treeGoals_stored hgoals hg] at hload
        cases hload
    rw [if_neg fun h => hout h.1, Nat.add_zero]
    refine List.countP_congr fun id _ => ?_
    rw [running_start, hload]
    simp
  | some goal =>
    have hcount := countP_or_eq (List.nodup_dedup (treeIds store config.depth rootId))
      (running store) goalId
    simp only [List.mem_dedup] at hcount
    rw [← hcount]
    refine List.countP_congr fun id _ => ?_
    rw [running_start, hload]
    simp

theorem selectAmong_bounded {config : Config} {rootId : String} {store : GoalStore}
    (hfree : runningNodes config rootId store < config.parallel_loop_limit)
    (allIds : List String) : Bounded config rootId (selectAmong store allIds).1 := by
  unfold selectAmong
  cases selectEligibleNodeId store allIds with
  | none => exact hfree.le
  | some selectedId =>
    unfold Bounded
    dsimp only
    rw [runningNodes_start]
    split
    · exact hfree
    · exact hfree.le

/-- **A selection keeps the limit.** -/
theorem selectNextNode_bounded {config : Config} {rootId : String} {store store' : GoalStore}
    {selection : Selection} (hstore : Bounded config rootId store)
    (h : selectNextNode config rootId store = some (store', selection)) :
    Bounded config rootId store' := by
  obtain ⟨treeState, hstate, h⟩ := Option.bind_eq_some_iff.mp h
  split at h
  · cases h
    exact hstore
  · next hfree =>
    obtain ⟨descendants, -, h⟩ := Option.bind_eq_some_iff.mp h
    have hslot := lt_of_le_of_lt (runningNodes_le_active hstate) (not_le.mp hfree)
    have hbounded := selectAmong_bounded hslot (rootId :: descendants)
    rwa [Option.some.inj h] at hbounded

/-- So does that of a preferred node. -/
theorem selectPreferredNode_bounded {config : Config} {rootId : String}
    {store store' : GoalStore} {selection : Selection} {preferredNodeIds : List String}
    (hstore : Bounded config rootId store)
    (h : selectPreferredNode config rootId preferredNodeIds store = some (store', selection)) :
    Bounded config rootId store' := by
  unfold selectPreferredNode at h
  split at h
  · cases h
    exact hstore
  · obtain ⟨treeState, hstate, h⟩ := Option.bind_eq_some_iff.mp h
    split at h
    · cases h
      exact hstore
    · next hfree =>
      obtain ⟨descendants, -, h⟩ := Option.bind_eq_some_iff.mp h
      dsimp only at h
      split at h
      · cases h
        exact hstore
      · have hslot := lt_of_le_of_lt (runningNodes_le_active hstate) (not_le.mp hfree)
        have hbounded := selectAmong_bounded hslot
          (preferredNodeIds.filter (· ∈ rootId :: descendants))
        rwa [Option.some.inj h] at hbounded

/-! ## Runs -/

theorem step_bounded_iff {config : Config} {rootId : String} {store store' : GoalStore}
    {call : Call} (hstore : Bounded config rootId store)
    (h : step config rootId store call = some store') :
    Bounded config rootId store' ↔ FindsSlot config rootId store call := by
  obtain ⟨⟨store', selection⟩, hperform, rfl⟩ := Option.map_eq_some_iff.mp h
  cases call with
  | selectNextNode =>
    obtain ⟨⟨s, r⟩, hselect, heq⟩ := Option.map_eq_some_iff.mp hperform
    cases heq
    exact iff_of_true (selectNextNode_bounded hstore hselect) trivial
  | selectPreferredNode preferredNodeIds =>
    obtain ⟨⟨s, r⟩, hselect, heq⟩ := Option.map_eq_some_iff.mp hperform
    cases heq
    exact iff_of_true (selectPreferredNode_bounded hstore hselect) trivial
  | pauseNodeLoop goalId =>
    cases hperform
    exact iff_of_true
      (((setLoopStatus_quiet store goalId (by decide)).runningNodes_le config rootId).trans hstore)
      trivial
  | onNodeCompleted goalId =>
    obtain ⟨s, hcompleted, heq⟩ := Option.map_eq_some_iff.mp hperform
    cases heq
    exact iff_of_true
      (((onNodeCompleted_quiet hcompleted).runningNodes_le config rootId).trans hstore) trivial
  | resumeNodeLoop goalId =>
    cases hperform
    unfold Bounded at hstore ⊢
    unfold FindsSlot
    dsimp only
    rw [runningNodes_start, ← and_imp]
    split
    · next hnew => exact ⟨fun hle _ => hle, fun hall => hall hnew⟩
    · next hold => exact iff_of_true hstore fun hnew => absurd hnew hold

/-- **The running nodes are within the limit in every state of a run exactly when every
resumption of the run finds its node running or a slot free.** -/
theorem running_bounded_iff {config : Config} {rootId : String} {s₀ s : GoalStore}
    {calls : List Call} (h₀ : Bounded config rootId s₀)
    (hrun : (treeLTS config rootId).Run s₀ calls s) :
    (treeLTS config rootId).Throughout s₀ calls (Bounded config rootId) ↔
      (treeLTS config rootId).Always s₀ calls (FindsSlot config rootId) :=
  hrun.throughout_iff_partial h₀ fun _ _ _ hstep hstore => step_bounded_iff hstore hstep

/-! ## Sample runs -/

/-- A root with two leaves. -/
def sampleGoals : GoalStore where
  loadGoal := fun id =>
    if id = "root" then some { id := id, children_ids := ["a", "b"] }
    else if id = "a" ∨ id = "b" then
      some { id := id, parent_id := some "root", node_type := .leaf }
    else none
  loadGoal_id := by
    intro id goal h
    split at h
    · cases h
      rfl
    · split at h
      · cases h
        rfl
      · cases h

/-- One loop at a time. -/
def sampleConfig : Config where
  parallel_loop_limit := 1
  depth := 3

def sampleCalls : List Call :=
  [.selectNextNode, .selectNextNode, .pauseNodeLoop "a", .resumeNodeLoop "b", .onNodeCompleted "b",
    .resumeNodeLoop "a", .resumeNodeLoop "a"]

theorem running_bounded_sample :
    ∃ s, (treeLTS sampleConfig "root").Run sampleGoals sampleCalls s ∧
      (treeLTS sampleConfig "root").Throughout sampleGoals sampleCalls
        (Bounded sampleConfig "root") := by
  obtain ⟨s, hs⟩ : ∃ s, LTS.execPartial (step sampleConfig "root") sampleGoals sampleCalls = some s :=
    Option.isSome_iff_exists.mp (by decide +kernel)
  have hrun := LTS.run_execPartial hs
  have h₀ : Bounded sampleConfig "root" sampleGoals := by
    unfold Bounded
    decide +kernel
  exact ⟨s, hrun, (running_bounded_iff h₀ hrun).mpr
    (LTS.ExecPartialAlways.always (by decide +kernel))⟩

/-- **A paused node is resumed beside the one selected in its place.** -/
theorem resumption_exceeds_limit :
    ∃ s, (treeLTS sampleConfig "root").Run sampleGoals
        [.selectNextNode, .pauseNodeLoop "a", .selectNextNode, .resumeNodeLoop "a"] s ∧
      runningNodes sampleConfig "root" sampleGoals = 0 ∧
      sampleConfig.parallel_loop_limit = 1 ∧ runningNodes sampleConfig "root" s = 2 := by
  have h : ((LTS.execPartial (step sampleConfig "root") sampleGoals
      [.selectNextNode, .pauseNodeLoop "a", .selectNextNode, .resumeNodeLoop "a"]).any fun s =>
        runningNodes sampleConfig "root" s = 2) = true := by
    decide +kernel
  obtain ⟨s, hs, hcount⟩ := (Option.any_eq_true _ _).mp h
  exact ⟨s, LTS.run_execPartial hs, by decide +kernel, rfl, of_decide_eq_true hcount⟩

end PulSeed.TreeLoop
