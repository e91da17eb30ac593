import PulSeed.Loop.TreeRun

/-!
# Interrupted runs of a tree

A run that stops leaves nodes running, and a checkpoint from which the next run takes the
index of its first iteration. The tree starts again at the index 0 only. So the next run
leaves such nodes running when it continues from a checkpoint, and a node that was completed
is selected again: a completion releases the node, and does not complete its goal.

**In every sequence of runs the first iterations find no node running but the one they select,
and no completed node is selected that still meets its thresholds, exactly when** the runs
start at 0, refine their root, or find no node running, and when each such node is inactive or
its loop is not idle, or the limit is reached (`resumes_iff`).
-/

namespace PulSeed.TreeLoop

open Relation

/-! ## What an iteration starts from -/

section Inputs

variable (rootId : String) (loopIndex : ℕ) (refined : Option GoalStore) (store : GoalStore)

/-- The stored goals once a root without children is refined. -/
def refinedStore : GoalStore :=
  match store.loadGoal rootId with
  | none => store
  | some root => if root.children_ids = [] then refined.getD store else store

/-- The loops of the tree are reset. -/
def restarts : Bool :=
  match store.loadGoal rootId with
  | none => false
  | some root => if root.children_ids = [] then refined.isSome else loopIndex = 0

end Inputs

section Prepare

variable {config : Config} {rootId : String} {loopIndex : ℕ} {refined : Option GoalStore}
variable {store prepared : GoalStore} {flat : Bool}

theorem prepare_eq : prepare config rootId loopIndex refined store =
    (if restarts rootId loopIndex refined store = true then
      startTreeExecution config rootId (refinedStore rootId refined store)
    else some (refinedStore rootId refined store)).map fun prepared =>
      (prepared, (store.loadGoal rootId).isSome && decide (childIds prepared rootId = [])) := by
  unfold prepare restarts refinedStore
  cases hroot : store.loadGoal rootId with
  | none => rfl
  | some root =>
    dsimp only
    by_cases hchildren : root.children_ids = []
    · simp only [if_pos hchildren]
      cases refined with
      | none => simp [childIds, hroot, hchildren]
      | some refined => rfl
    · simp only [if_neg hchildren]
      have hkept : ∀ started, SameTree store started → childIds started rootId ≠ [] := by
        intro started hsame
        rw [hsame.childIds_eq]
        unfold childIds
        rwa [hroot]
      by_cases hindex : loopIndex = 0
      · simp only [if_pos hindex, decide_eq_true hindex, if_pos]
        cases hstart : startTreeExecution config rootId store with
        | none => rfl
        | some started => simp [hkept started (startTreeExecution_sameTree hstart)]
      · simp [hindex, hkept store fun _ => rfl]

/-- **The preparation** keeps the tree, and resets its nodes if it restarts. -/
theorem prepare_spec (h : prepare config rootId loopIndex refined store = some (prepared, flat)) :
    SameTree (refinedStore rootId refined store) prepared ∧
    (∀ id, InTree (refinedStore rootId refined store) rootId id → prepared.loadGoal id =
      if restarts rootId loopIndex refined store = true
      then ((refinedStore rootId refined store).loadGoal id).map Goal.reset
      else (refinedStore rootId refined store).loadGoal id) ∧
    (flat = true ↔ (store.loadGoal rootId).isSome = true ∧
      childIds (refinedStore rootId refined store) rootId = []) := by
  rw [prepare_eq] at h
  obtain ⟨_, hprepared, heq⟩ := Option.map_eq_some_iff.mp h
  obtain ⟨rfl, rfl⟩ := Prod.mk.inj heq
  by_cases hrestarts : restarts rootId loopIndex refined store = true
  · rw [if_pos hrestarts] at hprepared
    have hsame := startTreeExecution_sameTree hprepared
    refine ⟨hsame, fun id hid => ?_, ?_⟩
    · rw [if_pos hrestarts]
      exact (loadGoal_startTreeExecution hprepared id).1 hid
    · rw [Bool.and_eq_true, decide_eq_true_iff, hsame.childIds_eq]
  · rw [if_neg hrestarts] at hprepared
    obtain rfl := Option.some.inj hprepared
    refine ⟨fun _ => rfl, fun id _ => ?_, ?_⟩
    · rw [if_neg hrestarts]
    · rw [Bool.and_eq_true, decide_eq_true_iff]

end Prepare

/-! ## The first iteration -/

/-- The iteration is made on the goal. -/
def Chosen.Runs (rootId : String) : Chosen → String → Prop
  | .flat, id => id = rootId
  | .node chosen, id => id = chosen
  | .nothing, _ => False

/-- No node is left running but the one that is chosen, so that every active node that is not
paused may be selected. -/
structure Recovered (rootId : String) (store : GoalStore) (chosen : Chosen) : Prop where
  notRunning : ∀ id, InTree store rootId id → running store id = true → chosen.Runs rootId id
  selectable : ∀ goal, InTree store rootId goal.id → store.loadGoal goal.id = some goal →
    goal.status = .active → goal.loop_status ≠ .paused →
      goal.loop_status = .idle ∨ chosen.Runs rootId goal.id

/-- The iteration resets the tree, or finds no node of it running. -/
def StartsClean (rootId : String) (loopIndex : ℕ) (store : GoalStore) : Prop :=
  loopIndex = 0 ∨ childIds store rootId = [] ∨
    ∀ id, InTree store rootId id → running store id = false

section First

variable {config : Config} {rootId : String} {loopIndex : ℕ} {refined : Option GoalStore}
variable {store store' : GoalStore} {chosen : Chosen}

theorem Recovered.of_notRunning
    (h : ∀ id, InTree store rootId id → running store id = true → chosen.Runs rootId id) :
    Recovered rootId store chosen where
  notRunning := h
  selectable goal hin hload _ hpaused := by
    cases hstatus : goal.loop_status with
    | idle => exact .inl rfl
    | paused => exact absurd hstatus hpaused
    | running =>
      refine .inr (h goal.id hin ?_)
      unfold running
      rw [hload, Option.any_some, hstatus]
      rfl

/-- The parts of an iteration, up to its selection. -/
theorem beginIteration_eq_some {pending : Option (String → Bool)} {turns : ℕ}
    (h : beginIteration config rootId loopIndex refined pending turns store =
      some (store', chosen)) :
    ∃ prepared flat, prepare config rootId loopIndex refined store = some (prepared, flat) ∧
      ((flat = true ∧ store' = prepared ∧ chosen = .flat) ∨
        (flat = false ∧ ∃ selection, Selects config rootId prepared store' selection ∧
          chosen = selection.chosen)) := by
  obtain ⟨⟨prepared, flat⟩, hprepared, hrest⟩ := Option.bind_eq_some_iff.mp h
  refine ⟨prepared, flat, hprepared, ?_⟩
  cases flat with
  | true =>
    cases hrest
    exact .inl ⟨rfl, rfl, rfl⟩
  | false =>
    obtain ⟨⟨left, selection⟩, hselected, hrest⟩ := Option.bind_eq_some_iff.mp hrest
    cases hrest
    exact .inr ⟨rfl, selection, selectNode_selects hselected, rfl⟩

/-- A goal that is reset is not running. -/
theorem not_running_reset {id : String} {goal : Option Goal}
    (h : store.loadGoal id = goal.map Goal.reset) : running store id = false := by
  unfold running
  rw [h]
  cases goal with
  | none => rfl
  | some goal => rfl

/-- A start that is clean leaves nothing running, but a root that is iterated itself. -/
theorem StartsClean.prepared (h : StartsClean rootId loopIndex store) {prepared : GoalStore}
    {flat : Bool}
    (hprepared : prepare config rootId loopIndex refined store = some (prepared, flat))
    {id : String} (hin : InTree prepared rootId id) (hrunning : running prepared id = true) :
    flat = true ∧ id = rootId := by
  obtain ⟨hsame, hloads, hflat⟩ := prepare_spec hprepared
  rw [hsame.inTree] at hin
  have hload := hloads id hin
  by_cases hrestarts : restarts rootId loopIndex refined store = true
  · rw [if_pos hrestarts] at hload
    exact absurd hrunning (by simp [not_running_reset hload])
  · rw [if_neg hrestarts] at hload
    unfold restarts at hrestarts
    unfold refinedStore at hflat hin hload
    cases hroot : store.loadGoal rootId with
    | none =>
      -- the root is missing, and with it the tree
      rw [hroot] at hin hload
      obtain ⟨root, hload'⟩ := hin.root_stored (by
        unfold running at hrunning
        rw [hload] at hrunning
        exact Option.isSome_of_any hrunning)
      rw [hroot] at hload'
      cases hload'
    | some root =>
      rw [hroot] at hrestarts hflat hin hload
      dsimp only at hrestarts hflat hin hload
      by_cases hchildren : root.children_ids = []
      · -- the root is iterated itself
        rw [if_pos hchildren] at hrestarts hflat hin
        obtain rfl := Option.not_isSome_iff_eq_none.mp hrestarts
        have hnone : childIds store rootId = [] := by
          unfold childIds
          rwa [hroot]
        refine ⟨hflat.mpr ⟨rfl, hnone⟩, ?_⟩
        rcases hin.cases_head with rfl | ⟨child, hchild, -⟩
        · rfl
        · rw [Option.getD_none, hnone] at hchild
          cases hchild
      · rw [if_neg hchildren] at hrestarts hin hload
        rcases h with hindex | hnone | hquiet
        · exact absurd (decide_eq_true hindex) hrestarts
        · unfold childIds at hnone
          rw [hroot] at hnone
          exact absurd hnone hchildren
        · have hnot := hquiet id hin
          unfold running at hnot hrunning
          rw [hload, hnot] at hrunning
          cases hrunning

/-- **The first iteration** recovers exactly when it starts clean. -/
theorem recovered_iff {pending : Option (String → Bool)} {turns : ℕ}
    (h : beginIteration config rootId loopIndex refined pending turns store =
      some (store', chosen)) :
    Recovered rootId store' chosen ↔ StartsClean rootId loopIndex store := by
  obtain ⟨prepared, flat, hprepared, hchoice⟩ := beginIteration_eq_some h
  constructor
  · intro hrecovered
    by_contra hdirty
    obtain ⟨hindex, hchildren, hquiet⟩ : loopIndex ≠ 0 ∧ childIds store rootId ≠ [] ∧
        ¬∀ id, InTree store rootId id → running store id = false := by
      simpa [StartsClean, not_or] using hdirty
    obtain ⟨id, hid⟩ := not_forall.mp hquiet
    obtain ⟨hin, hrunning⟩ := Classical.not_imp.mp hid
    have hrunning := Bool.eq_true_of_not_eq_false hrunning
    -- the tree is as it was
    have hkept : prepare config rootId loopIndex refined store = some (store, false) := by
      unfold prepare
      unfold childIds at hchildren
      cases hroot : store.loadGoal rootId with
      | none => rfl
      | some root =>
        rw [hroot] at hchildren
        dsimp only at hchildren ⊢
        rw [if_neg hchildren, if_neg hindex]
    rw [hkept] at hprepared
    cases hprepared
    rcases hchoice with ⟨hflat, -⟩ | ⟨-, selection, hselects, rfl⟩
    · exact nomatch hflat
    · rcases hselects with ⟨chosen, rfl, rfl, hselectable⟩ | ⟨hnone, rfl⟩
      · have hruns := hrecovered.notRunning id
          (by rwa [(setLoopStatus_sameTree store chosen .running).inTree])
          (by rw [running_start, hrunning, Bool.true_or])
        obtain rfl : id = chosen := hruns
        obtain ⟨goal, hload, -, hidle⟩ := hselectable.ready
        unfold running at hrunning
        rw [hload, Option.any_some, hidle] at hrunning
        exact nomatch hrunning
      · have hruns := hrecovered.notRunning id hin hrunning
        cases selection with
        | selected id => exact hnone id rfl
        | none => exact hruns
        | limitReached => exact hruns
  · intro hclean
    refine .of_notRunning fun id hin hrunning => ?_
    rcases hchoice with ⟨rfl, rfl, rfl⟩ | ⟨rfl, selection, hselects, rfl⟩
    · exact (hclean.prepared hprepared hin hrunning).2
    · rcases hselects with ⟨chosen, rfl, rfl, hselectable⟩ | ⟨-, rfl⟩
      · rw [(setLoopStatus_sameTree prepared chosen .running).inTree] at hin
        rw [running_start, Bool.or_eq_true, Bool.and_eq_true] at hrunning
        rcases hrunning with hrunning | ⟨hid, -⟩
        · exact nomatch (hclean.prepared hprepared hin hrunning).1
        · exact eq_of_beq hid
      · exact nomatch (hclean.prepared hprepared hin hrunning).1

end First

/-! ## Any iteration -/

/-- The goal meets all its thresholds. -/
def meetsThresholds (goal : Goal) : Bool :=
  goal.dimensions.all fun dim => (Drive.isDimensionSatisfied dim.toDimension).is_satisfied

/-- The stored goal meets all its thresholds. -/
def satisfies (store : GoalStore) (id : String) : Bool := (store.loadGoal id).any meetsThresholds

/-- The iteration may select the node: the node is active, and it is idle and finds room
unless the tree starts again. -/
structure Offered (config : Config) (rootId : String) (loopIndex : ℕ) (refined : Option GoalStore)
    (store : GoalStore) (id : String) : Prop where
  active : ∃ goal, (refinedStore rootId refined store).loadGoal id = some goal ∧
    goal.status = .active ∧
      (restarts rootId loopIndex refined store = true ∨ goal.loop_status = .idle)
  inTree : InTree (refinedStore rootId refined store) rootId id
  children : childIds (refinedStore rootId refined store) rootId ≠ []
  descendants : ∃ ids,
    collectAllDescendantIds (refinedStore rootId refined store) config.depth rootId = some ids
  room : ∃ treeState,
    getTreeState (refinedStore rootId refined store) config.depth rootId = some treeState ∧
      (if restarts rootId loopIndex refined store = true then 0
        else treeState.active_loops.length) < config.parallel_loop_limit

section Offered

variable {config : Config} {rootId : String} {loopIndex : ℕ} {refined : Option GoalStore}
variable {store prepared : GoalStore} {flat : Bool} {id : String}

/-- No loop is active in a tree in which no node is running. -/
theorem active_loops_eq_nil {treeState : GoalTreeState}
    (hstate : getTreeState store config.depth rootId = some treeState)
    (hquiet : ∀ id, InTree store rootId id → running store id = false) :
    treeState.active_loops = [] := by
  obtain ⟨goals, hgoals, rfl⟩ := Option.map_eq_some_iff.mp hstate
  refine List.map_eq_nil_iff.mpr (List.filter_eq_nil_iff.mpr fun goal hgoal hrunning => ?_)
  have hnot := hquiet goal.id (treeGoals_inTree hgoals hgoal)
  unfold running at hnot
  rw [treeGoals_stored hgoals hgoal, Option.any_some] at hnot
  exact nomatch hnot.symm.trans hrunning

theorem getTreeState_of_descendants {ids : List String}
    (h : collectAllDescendantIds store config.depth rootId = some ids) :
    ∃ treeState, getTreeState store config.depth rootId = some treeState := by
  have hgoals : (treeGoals store config.depth rootId).isSome = true := by
    unfold treeGoals
    cases hload : store.loadGoal rootId with
    | none => rfl
    | some root =>
      rw [← store.loadGoal_id hload] at h
      exact visit_isSome_of_descendants (store.loadGoal_self hload) h
  obtain ⟨goals, hgoals⟩ := Option.isSome_iff_exists.mp hgoals
  exact ⟨_, Option.map_eq_some_iff.mpr ⟨goals, hgoals, rfl⟩⟩

/-- A tree whose loops are reset is selected from alike. -/
theorem selectable_iff_offered
    (hprepared : prepare config rootId loopIndex refined store = some (prepared, flat)) :
    flat = false ∧ Selectable config rootId prepared id ↔
      Offered config rootId loopIndex refined store id := by
  obtain ⟨hsame, hloads, hflat⟩ := prepare_spec hprepared
  have hrooted : ∀ goal, (refinedStore rootId refined store).loadGoal id = some goal →
      InTree (refinedStore rootId refined store) rootId id →
        (store.loadGoal rootId).isSome = true := by
    intro goal hload hin
    obtain ⟨root, hroot⟩ := hin.root_stored (Option.isSome_of_eq_some hload)
    unfold refinedStore at hroot
    cases hmissing : store.loadGoal rootId with
    | none =>
      rw [hmissing] at hroot
      exact absurd (hroot.symm.trans hmissing) (Option.some_ne_none root)
    | some root => rfl
  by_cases hrestarts : restarts rootId loopIndex refined store = true
  · simp only [if_pos hrestarts] at hloads
    have hquiet : ∀ id, InTree prepared rootId id → running prepared id = false := fun id hid =>
      not_running_reset (hloads id (hsame.inTree ▸ hid))
    constructor
    · rintro ⟨hnot, ⟨goal, hload, hstatus, -⟩, hin, hids, treeState, hstate, hroom⟩
      rw [hsame.inTree] at hin
      rw [hsame.descendants_eq] at hids
      obtain ⟨goal', hload', rfl⟩ := Option.map_eq_some_iff.mp ((hloads id hin).symm.trans hload)
      obtain ⟨ids, hids⟩ := hids
      obtain ⟨treeState', hstate'⟩ := getTreeState_of_descendants hids
      refine ⟨⟨goal', hload', hstatus, .inl hrestarts⟩, hin, fun hnone => ?_, ⟨ids, hids⟩,
        treeState', hstate', ?_⟩
      · rw [hflat.mpr ⟨hrooted goal' hload' hin, hnone⟩] at hnot
        exact absurd hnot.symm Bool.false_ne_true
      · rw [if_pos hrestarts]
        exact Nat.lt_of_le_of_lt (Nat.zero_le _) hroom
    · rintro ⟨⟨goal, hload, hstatus, -⟩, hin, hchildren, ⟨ids, hids⟩, _, _, hroom⟩
      rw [if_pos hrestarts] at hroom
      have hids' : collectAllDescendantIds prepared config.depth rootId = some ids := by
        rw [hsame.descendants_eq, hids]
      obtain ⟨treeState, hstate⟩ := getTreeState_of_descendants hids'
      refine ⟨Bool.eq_false_of_not_eq_true fun h => hchildren (hflat.mp h).2,
        ⟨goal.reset, ?_, hstatus, rfl⟩, hsame.inTree ▸ hin, ⟨ids, hids'⟩, treeState, hstate, ?_⟩
      · rw [hloads id hin, hload]
        rfl
      · rw [active_loops_eq_nil hstate hquiet]
        exact hroom
  · simp only [if_neg hrestarts] at hloads
    rw [prepare_eq, if_neg hrestarts] at hprepared
    cases hprepared
    constructor
    · rintro ⟨hnot, ⟨goal, hload, hstatus, hidle⟩, hin, hids, treeState, hstate, hroom⟩
      refine ⟨⟨goal, hload, hstatus, .inr hidle⟩, hin, fun hnone => ?_, hids, treeState, hstate,
        ?_⟩
      · rw [hflat.mpr ⟨hrooted goal hload hin, hnone⟩] at hnot
        exact absurd hnot.symm Bool.false_ne_true
      · rwa [if_neg hrestarts]
    · rintro ⟨⟨goal, hload, hstatus, hidle⟩, hin, hchildren, hids, treeState, hstate, hroom⟩
      rw [if_neg hrestarts] at hroom
      exact ⟨Bool.eq_false_of_not_eq_true fun h => hchildren (hflat.mp h).2,
        ⟨goal, hload, hstatus, hidle.resolve_left hrestarts⟩, hin, hids, treeState, hstate, hroom⟩

/-- Where the walks return, so does the preparation. -/
theorem Offered.prepares (h : Offered config rootId loopIndex refined store id) :
    ∃ prepared flat, prepare config rootId loopIndex refined store = some (prepared, flat) := by
  rw [prepare_eq]
  obtain ⟨ids, hids⟩ := h.descendants
  split
  · unfold startTreeExecution
    cases (refinedStore rootId refined store).loadGoal rootId with
    | none => exact ⟨_, _, rfl⟩
    | some root =>
      rw [hids]
      exact ⟨_, _, rfl⟩
  · exact ⟨_, _, rfl⟩

/-- **A node is selected**, for some pending directives, exactly when it is offered. -/
theorem selected_iff_offered :
    (∃ pending turns store', beginIteration config rootId loopIndex refined pending turns store =
      some (store', .node id)) ↔ Offered config rootId loopIndex refined store id := by
  constructor
  · rintro ⟨pending, turns, store', h⟩
    obtain ⟨prepared, flat, hprepared, ⟨-, -, hnode⟩ | ⟨rfl, selection, hselects, hnode⟩⟩ :=
      beginIteration_eq_some h
    · exact nomatch hnode
    · rcases hselects with ⟨chosen, rfl, -, hselectable⟩ | ⟨hnone, -⟩
      · cases hnode
        exact (selectable_iff_offered hprepared).mp ⟨rfl, hselectable⟩
      · cases selection with
        | selected id => exact absurd rfl (hnone id)
        | none => exact nomatch hnode
        | limitReached => exact nomatch hnode
  · intro h
    obtain ⟨prepared, flat, hprepared⟩ := h.prepares
    obtain ⟨rfl, hselectable⟩ := (selectable_iff_offered hprepared).mpr h
    obtain ⟨pending, turns, hselected⟩ := hselectable.selected
    refine ⟨pending, turns, setLoopStatus prepared id .running, ?_⟩
    unfold beginIteration
    rw [hprepared, Option.bind_eq_bind, Option.bind_some]
    simp only [Bool.false_eq_true, if_false, hselected, Option.bind_eq_bind, Option.bind_some]
    rfl

/-- The thresholds are met as before the selection. -/
theorem satisfies_selected {pending : Option (String → Bool)} {turns : ℕ} {store' : GoalStore}
    (h : beginIteration config rootId loopIndex refined pending turns store =
      some (store', .node id)) :
    satisfies store' id = satisfies (refinedStore rootId refined store) id := by
  obtain ⟨prepared, flat, hprepared, ⟨-, -, hnode⟩ | ⟨rfl, selection, hselects, hnode⟩⟩ :=
    beginIteration_eq_some h
  · exact nomatch hnode
  obtain ⟨hsame, hloads, -⟩ := prepare_spec hprepared
  rcases hselects with ⟨chosen, rfl, rfl, hselectable⟩ | ⟨hnone, -⟩
  · cases hnode
    have hload := hloads id (hsame.inTree ▸ hselectable.inTree)
    obtain ⟨goal, hgoal, -⟩ := hselectable.ready
    have hstored : (setLoopStatus prepared id .running).loadGoal id =
        some { goal with loop_status := .running } := by
      unfold setLoopStatus
      rw [hgoal]
      dsimp only
      rw [GoalStore.loadGoal_put, if_pos (prepared.loadGoal_id hgoal).symm]
    unfold satisfies
    rw [hstored]
    rw [hgoal] at hload
    split at hload
    · obtain ⟨goal', hgoal', rfl⟩ := Option.map_eq_some_iff.mp hload.symm
      rw [hgoal']
      rfl
    · rw [← hload]
      rfl
  · cases selection with
    | selected id => exact absurd rfl (hnone id)
    | none => exact nomatch hnode
    | limitReached => exact nomatch hnode

end Offered

/-! ## Runs -/

/-- A run in progress: the index of the loop, whether no iteration has been made yet, and the
node that is iterated. -/
structure CurrentRun where
  loopIndex : ℕ
  first : Bool := true
  current : Option String := none

/-- What runs of a root leave and find: the stored goals, the cycle number of the checkpoint,
which is 0 without one, and the nodes for which `onNodeCompleted` was called. -/
structure Session where
  store : GoalStore
  cycle_number : ℕ := 0
  completed : List String := []
  run : Option CurrentRun := none

/-- An event of a session. -/
inductive Event
  /-- A run starts, at the cycle number that `restoreFromCheckpoint` returns. -/
  | start
  /-- An iteration selects a node. -/
  | iterate (refined : Option GoalStore) (pending : Option (String → Bool)) (turns : ℕ)
  /-- The iteration of the node has returned, with the judgment that it is complete or not. -/
  | iterated (complete : Bool)
  | saveLoopCheckpoint
  /-- The loop goes on, after any kind of iteration. -/
  | next
  /-- The run ends or is interrupted, wherever it is. -/
  | stop
  /-- Goals are stored by others, or by the iteration of the node. -/
  | change (store : GoalStore)

/-- The node that is iterated and released afterwards. -/
def Chosen.selected : Chosen → Option String
  | .node id => some id
  | .flat | .nothing => none

section Session

variable (config : Config) (rootId : String)

/-- One event. -/
def Session.step (s : Session) : Event → Option Session
  | .start => some { s with run := some { loopIndex := s.cycle_number } }
  | .iterate refined pending turns => do
    let run ← s.run
    let (store, chosen) ←
      beginIteration config rootId run.loopIndex refined pending turns s.store
    return { s with store, run := some { run with first := false, current := chosen.selected } }
  | .iterated complete => do
    let run ← s.run
    let selectedNodeId ← run.current
    let store ← endIteration config selectedNodeId complete s.store
    return { s with
      store
      completed := if complete then selectedNodeId :: s.completed else s.completed
      run := some { run with current := none } }
  | .saveLoopCheckpoint => s.run.map fun run => { s with cycle_number := run.loopIndex + 1 }
  | .next => s.run.map fun run =>
    { s with run := some { run with loopIndex := run.loopIndex + 1, current := none } }
  | .stop => some { s with run := none }
  | .change store => some { s with store }

/-- The system of the runs of a root. -/
def sessionLTS : LTS Session Event := .ofPartial (Session.step config rootId)

/-- An iteration does as it should, whatever directives are pending: the first of a run
recovers the tree, and no node is selected that was completed and still meets its
thresholds. -/
def Resumes (s : Session) : Event → Prop
  | .iterate refined _ _ => ∀ run, s.run = some run → ∀ pending turns store' chosen,
    beginIteration config rootId run.loopIndex refined pending turns s.store =
        some (store', chosen) →
      (run.first = true → Recovered rootId store' chosen) ∧
        ∀ id, chosen = .node id → id ∈ s.completed → satisfies store' id = false
  | _ => True

/-- An iteration finds what it needs: the first of a run starts clean, and no node is offered
that was completed and still meets its thresholds. -/
def Settled (s : Session) : Event → Prop
  | .iterate refined _ _ => ∀ run, s.run = some run →
    (run.first = true → StartsClean rootId run.loopIndex s.store) ∧
      ∀ id, Offered config rootId run.loopIndex refined s.store id → id ∈ s.completed →
        satisfies (refinedStore rootId refined s.store) id = false
  | _ => True

variable {config rootId}

/-- **One event.** -/
theorem resumes_iff_settled {s s' : Session} {event : Event}
    (h : Session.step config rootId s event = some s') :
    Resumes config rootId s event ↔ Settled config rootId s event := by
  cases event with
  | iterate refined pending turns =>
    obtain ⟨run, hrun, h⟩ := Option.bind_eq_some_iff.mp h
    obtain ⟨⟨store', chosen⟩, hbegin, -⟩ := Option.bind_eq_some_iff.mp h
    constructor
    · intro hresumes run' hrun'
      obtain rfl : run = run' := Option.some.inj (hrun.symm.trans hrun')
      refine ⟨fun hfirst => ?_, fun id hoffered hcompleted => ?_⟩
      · exact (recovered_iff hbegin).mp ((hresumes run hrun _ _ _ _ hbegin).1 hfirst)
      · obtain ⟨_, _, _, hselected⟩ := selected_iff_offered.mpr hoffered
        rw [← satisfies_selected hselected]
        exact (hresumes run hrun _ _ _ _ hselected).2 id rfl hcompleted
    · intro hsettled run' hrun' pending' turns' store' chosen hbegin'
      obtain ⟨hclean, hoffered⟩ := hsettled run' hrun'
      refine ⟨fun hfirst => (recovered_iff hbegin').mpr (hclean hfirst), ?_⟩
      rintro id rfl hcompleted
      rw [satisfies_selected hbegin']
      exact hoffered id (selected_iff_offered.mp ⟨_, _, _, hbegin'⟩) hcompleted
  | start => exact .rfl
  | iterated complete => exact .rfl
  | saveLoopCheckpoint => exact .rfl
  | next => exact .rfl
  | stop => exact .rfl
  | change store => exact .rfl

/-- **Every iteration of a sequence of runs** does as it should exactly when it finds what it
needs. -/
theorem resumes_iff {s₀ s : Session} {events : List Event}
    (hrun : (sessionLTS config rootId).Run s₀ events s) :
    (sessionLTS config rootId).Always s₀ events (Resumes config rootId) ↔
      (sessionLTS config rootId).Always s₀ events (Settled config rootId) :=
  hrun.always_congr fun _ _ _ hstep => resumes_iff_settled hstep

end Session

/-! A root with two children, one of which an interrupted run has left running. -/

def interruptedGoals : GoalStore where
  loadGoal id :=
    if id = "r" then some { id := "r", children_ids := ["a", "b"] }
    else if id = "a" then some { id := "a", parent_id := some "r", node_type := .leaf }
    else if id = "b" then some { id := "b", parent_id := some "r", loop_status := .running }
    else none
  loadGoal_id := by
    intro id goal h
    split at h
    · next hid => cases h; exact hid.symm
    · split at h
      · next hid => cases h; exact hid.symm
      · split at h
        · next hid => cases h; exact hid.symm
        · exact nomatch h

def twoLevels : Config where
  depth := 3

theorem resumes_from_zero :
    (sessionLTS twoLevels "r").Always { store := interruptedGoals } [.start, .iterate none none 0]
      (Resumes twoLevels "r") := by
  have hrun : ∃ s, (sessionLTS twoLevels "r").Run { store := interruptedGoals }
      [.start, .iterate none none 0] s := ⟨_, LTS.run_execPartial rfl⟩
  refine (resumes_iff hrun.choose_spec).mpr (LTS.ExecPartialAlways.always ⟨trivial, ?_, trivial⟩)
  rintro _ ⟨⟩
  exact ⟨fun _ => .inl rfl, fun _ _ h => nomatch h⟩

/-- From the cycle number 1 the first iteration selects the one child, and leaves the other
running; and a child that was completed is selected again. -/
theorem interrupted_not_resumed :
    (¬(sessionLTS twoLevels "r").Always { store := interruptedGoals, cycle_number := 1 }
      [.start, .iterate none none 0] (Resumes twoLevels "r")) ∧
    ¬(sessionLTS twoLevels "r").Always { store := interruptedGoals }
      [.start, .iterate none none 0, .iterated true, .next, .iterate none none 0]
      (Resumes twoLevels "r") := by
  constructor
  · intro h
    have hresumes := h [.start] (.iterate none none 0) [] _ rfl (LTS.run_execPartial rfl)
    have hrecovered := (hresumes _ rfl none 0 _ _ rfl).1 rfl
    have hruns : "b" = "a" := hrecovered.notRunning "b" (.single (by decide)) rfl
    exact absurd hruns (by decide)
  · intro h
    have hresumes := h [.start, .iterate none none 0, .iterated true, .next]
      (.iterate none none 0) [] _ rfl (LTS.run_execPartial rfl)
    exact nomatch (hresumes _ rfl none 0 _ _ rfl).2 "a" rfl List.mem_cons_self

end PulSeed.TreeLoop
