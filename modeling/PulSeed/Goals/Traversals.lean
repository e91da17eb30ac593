import PulSeed.Goals.StoredGoals
import PulSeed.Lib.Unfolding

/-!
# Walks along the links of goals (`tree-loop-runner.ts`, `tree-loop-orchestrator.ts`, `state-aggregator.ts`)

Five walks follow the links between stored goals: `collectDirectivePreferredTreeNodeIds` and
`_collectAllDescendantIds` go down along the children, the aggregations of an iteration and of
`onNodeCompleted` and `checkCompletionCascade` go up along the parents. None of them marks
where it has been, as `deleteGoal` and `archiveGoal` of the state manager do.

So a walk down meets a goal once for each path of child links to it, and a walk up goes round
a cycle of parents. **All five end within as many steps as there are stored goals exactly when
there are no more paths down than that, and no ancestor is its own ancestor**
(`walks_end_iff`). A step follows the links of one stored goal.
-/

namespace PulSeed.TreeLoop

open Relation

section Links

variable (store : GoalStore)

/-- The goal with an id is stored. -/
def isStored (id : String) : Bool := (store.loadGoal id).isSome

/-- The child links of a goal; a goal that is not stored has none. -/
def childIds (id : String) : List String :=
  match store.loadGoal id with
  | none => []
  | some goal => goal.children_ids

/-- The parent link of a goal. -/
def parentOf (id : String) : Option String := (store.loadGoal id).bind (·.parent_id)

/-- The one is the stored parent link of the other. -/
def IsParent (id parentId : String) : Prop := parentOf store id = some parentId

end Links

/-! ## The walks down -/

/-- The loop of `collectDirectivePreferredTreeNodeIds`: the ids that it takes from its queue. -/
def queuedIds (store : GoalStore) (turns : ℕ) (rootId : String) : Option (List String) :=
  dequeue (childIds store) turns [rootId]

/-- `collectDirectivePreferredTreeNodeIds`; `none` stands for a loop of more turns. -/
def collectDirectivePreferredTreeNodeIds (getPendingDirective : Option (String → Bool))
    (store : GoalStore) (turns : ℕ) (rootId : String) : Option (List String) :=
  match getPendingDirective with
  | none => some []
  | some getPendingDirective =>
    match store.loadGoal rootId with
    | none => some []
    | some _ => (queuedIds store turns rootId).map
        (List.filter fun currentId => isStored store currentId && getPendingDirective currentId)

section Down

variable (store : GoalStore)

/-- The calls of `_collectAllDescendantIds` on some children. -/
def collectBelow (depth : ℕ) (ids : List String) : Option (List String) :=
  (ids.mapM fun childId =>
    (collectAllDescendantIds store depth childId).map (childId :: ·)).map List.flatten

theorem collectAllDescendantIds_succ (depth : ℕ) (goalId : String) :
    collectAllDescendantIds store (depth + 1) goalId =
      collectBelow store depth (childIds store goalId) := by
  unfold collectAllDescendantIds childIds
  cases store.loadGoal goalId with
  | none => rfl
  | some goal => rfl

theorem collectBelow_cons (depth : ℕ) (id : String) (ids : List String) :
    collectBelow store depth (id :: ids) =
      (collectAllDescendantIds store depth id).bind fun below =>
        (collectBelow store depth ids).map fun rest => id :: (below ++ rest) := by
  unfold collectBelow
  rw [List.mapM_cons]
  cases collectAllDescendantIds store depth id with
  | none => rfl
  | some below =>
    cases ids.mapM fun childId =>
        (collectAllDescendantIds store depth childId).map (childId :: ·) with
    | none => rfl
    | some lists => rfl

variable {store}

theorem collectBelow_of_unfolds {depth : ℕ} {queue nodes : List String}
    (h : Unfolds (childIds store) queue nodes) (hdepth : nodes.length ≤ depth) :
    collectBelow store depth queue = some nodes := by
  induction h generalizing depth with
  | nil => rfl
  | @cons id queue below nodes _ _ ihbelow ih =>
    rw [List.length_cons, List.length_append] at hdepth
    obtain ⟨depth, rfl⟩ : ∃ d, depth = d + 1 := ⟨depth - 1, by omega⟩
    rw [collectBelow_cons, collectAllDescendantIds_succ, ihbelow (by omega), ih (by omega)]
    rfl

theorem unfolds_of_collectBelow {depth : ℕ} {queue nodes : List String}
    (h : collectBelow store depth queue = some nodes) :
    Unfolds (childIds store) queue nodes := by
  induction depth generalizing queue nodes with
  | zero =>
    cases queue with
    | nil =>
      cases h
      exact .nil
    | cons id queue =>
      rw [collectBelow_cons] at h
      exact nomatch h
  | succ depth ih =>
    induction queue generalizing nodes with
    | nil =>
      cases h
      exact .nil
    | cons id queue ihqueue =>
      rw [collectBelow_cons, collectAllDescendantIds_succ] at h
      obtain ⟨below, hbelow, h⟩ := Option.bind_eq_some_iff.mp h
      obtain ⟨rest, hrest, rfl⟩ := Option.map_eq_some_iff.mp h
      exact .cons (ih hbelow) (ihqueue hrest)

/-- **The descendants are collected** exactly when the child links unfold. -/
theorem collectAllDescendantIds_iff {goalId : String} {ids : List String} :
    (∃ depth, collectAllDescendantIds store depth goalId = some ids) ↔
      Unfolds (childIds store) [goalId] (goalId :: ids) := by
  rw [Unfolds.single_iff]
  constructor
  · rintro ⟨depth, h⟩
    cases depth with
    | zero => exact nomatch h
    | succ depth =>
      rw [collectAllDescendantIds_succ] at h
      exact ⟨ids, unfolds_of_collectBelow h, rfl⟩
  · rintro ⟨below, hbelow, hids⟩
    cases hids
    refine ⟨ids.length + 1, ?_⟩
    rw [collectAllDescendantIds_succ, collectBelow_of_unfolds hbelow le_rfl]

theorem childIds_of_missing {id : String} (h : isStored store id = false) :
    childIds store id = [] := by
  unfold isStored at h
  unfold childIds
  rw [Option.isSome_eq_false_iff, Option.isNone_iff_eq_none] at h
  rw [h]

end Down

/-! ## The walks up -/

section Up

variable {store store' : GoalStore}

theorem SameLinks.isParent (h : SameLinks store store') : IsParent store' = IsParent store := by
  funext id parentId
  unfold IsParent parentOf
  rw [h.parents]

theorem SameLinks.storedIds (h : SameLinks store store') :
    {id | isStored store' id} = {id | isStored store id} :=
  Set.ext fun id => h.stored id

/-- No ancestor of a goal is its own ancestor. -/
def NoCycleAbove (store : GoalStore) (id : String) : Prop :=
  ∀ a, ReflTransGen (IsParent store) id a → ¬TransGen (IsParent store) a a

theorem NoCycleAbove.parent {id parentId : String} (h : NoCycleAbove store id)
    (hparent : IsParent store id parentId) : NoCycleAbove store parentId :=
  fun a ha => h a (ha.head hparent)

/-- How many stored goals are met above a goal, itself included. -/
noncomputable def above (store : GoalStore) (id : String) : ℕ :=
  (reach (IsParent store) {id | isStored store id} id).ncard

variable (goals : StoredGoals) (config : Config)

theorem above_parent_lt {id parentId : String} (hid : isStored goals.toGoalStore id)
    (hcycle : NoCycleAbove goals.toGoalStore id) (hparent : IsParent goals.toGoalStore id parentId) :
    above goals.toGoalStore parentId < above goals.toGoalStore id :=
  ncard_reach_lt goals.finite hid hparent (hcycle id .refl)

theorem above_le (id : String) :
    above goals.toGoalStore id ≤ {id | isStored goals.toGoalStore id}.ncard :=
  Set.ncard_le_ncard (fun _ h => h.1) goals.finite

theorem above_pos {id : String} (hid : isStored goals.toGoalStore id) :
    0 < above goals.toGoalStore id :=
  (Set.ncard_pos (goals.finite.subset fun _ h => h.1)).mpr ⟨id, hid, .refl⟩

/-- The aggregations of the ancestors end where no ancestor is its own. -/
theorem aggregateParents_isSome {n : ℕ} {goals : StoredGoals} {id : String}
    (hid : isStored goals.toGoalStore id) (hcycle : NoCycleAbove goals.toGoalStore id)
    (hn : above goals.toGoalStore id ≤ n) :
    (aggregateParents config n goals.toGoalStore (parentOf goals.toGoalStore id)).isSome := by
  induction n generalizing goals id with
  | zero => exact absurd hn (Nat.not_le_of_lt (above_pos goals hid))
  | succ n ih =>
    cases hparent : parentOf goals.toGoalStore id with
    | none => rfl
    | some parentId =>
      have hless := above_parent_lt goals hid hcycle hparent
      have hcycle := hcycle.parent hparent
      unfold aggregateParents
      by_cases hstored : isStored goals.toGoalStore parentId
      · obtain ⟨goals', haggregate, hsame⟩ :=
          goals.aggregateChildStates_stored config.aggregationRules hstored
        simp only [haggregate]
        refine ih ((hsame.stored parentId).mpr hstored) ?_ ?_
        · rwa [NoCycleAbove, hsame.isParent]
        · rw [above, hsame.isParent, hsame.storedIds]
          exact Nat.le_of_lt_succ (Nat.lt_of_lt_of_le hless hn)
      · have hmissing : goals.loadGoal parentId = none := Option.not_isSome_iff_eq_none.mp hstored
        have hthrows : aggregateChildStates config.aggregationRules goals.toGoalStore parentId =
            none := by
          unfold aggregateChildStates
          rw [hmissing]
        rw [hthrows]
        rfl

/-- Some ancestor of a goal is its own ancestor. -/
def CycleAbove (store : GoalStore) (id : String) : Prop :=
  ∃ a, ReflTransGen (IsParent store) id a ∧ TransGen (IsParent store) a a

theorem not_noCycleAbove {store : GoalStore} {id : String} :
    ¬NoCycleAbove store id ↔ CycleAbove store id := by
  unfold NoCycleAbove CycleAbove
  push Not
  exact .rfl

/-- A goal below a cycle of parents has a parent that is so. -/
theorem CycleAbove.parent {store : GoalStore} {id : String} (h : CycleAbove store id) :
    ∃ parentId, parentOf store id = some parentId ∧ CycleAbove store parentId := by
  obtain ⟨a, ha, hcycle⟩ := h
  rcases ha.cases_head with rfl | ⟨parentId, hparent, ha⟩
  · obtain ⟨parentId, hparent, hback⟩ := TransGen.head'_iff.mp hcycle
    exact ⟨parentId, hparent, _, hback, hcycle⟩
  · exact ⟨parentId, hparent, a, ha, hcycle⟩

/-- **Below a cycle of parents** the aggregations do not end. -/
theorem aggregateParents_eq_none {n : ℕ} {goals : StoredGoals} {id : String}
    (hcycle : CycleAbove goals.toGoalStore id) :
    aggregateParents config n goals.toGoalStore (parentOf goals.toGoalStore id) = none := by
  induction n generalizing goals id with
  | zero =>
    obtain ⟨parentId, hparent, -⟩ := hcycle.parent
    rw [hparent]
    rfl
  | succ n ih =>
    obtain ⟨parentId, hparent, hcycle⟩ := hcycle.parent
    have hstored : isStored goals.toGoalStore parentId := by
      obtain ⟨_, hnext, -⟩ := hcycle.parent
      obtain ⟨goal, hgoal, -⟩ := Option.bind_eq_some_iff.mp hnext
      exact Option.isSome_of_eq_some hgoal
    obtain ⟨goals', haggregate, hsame⟩ :=
      goals.aggregateChildStates_stored config.aggregationRules hstored
    rw [hparent]
    unfold aggregateParents
    simp only [haggregate]
    exact ih (by rwa [CycleAbove, hsame.isParent])

/-- The cascade ends where no ancestor is its own. -/
theorem completionCascade_isSome {n : ℕ} {goals : StoredGoals} {effectivelyComplete : List String}
    {id : String} (hid : isStored goals.toGoalStore id)
    (hcycle : NoCycleAbove goals.toGoalStore id) (hn : above goals.toGoalStore id ≤ n) :
    (completionCascade goals.toGoalStore n effectivelyComplete id).isSome := by
  induction n generalizing effectivelyComplete id with
  | zero => exact absurd hn (Nat.not_le_of_lt (above_pos goals hid))
  | succ n ih =>
    unfold completionCascade
    split
    · rfl
    · next parent hload =>
      obtain ⟨parentId, hparent, hload⟩ := Option.bind_eq_some_iff.mp hload
      obtain rfl := goals.loadGoal_id hload
      split
      · rw [Option.isSome_map]
        refine ih (Option.isSome_of_eq_some hload) (hcycle.parent hparent) ?_
        have hless := above_parent_lt goals hid hcycle hparent
        exact Nat.le_of_lt_succ (Nat.lt_of_lt_of_le hless hn)
      · rfl

end Up

/-! ## All walks -/

/-- The number of stored goals. -/
noncomputable def StoredGoals.count (goals : StoredGoals) : ℕ :=
  {id | isStored goals.toGoalStore id}.ncard

/-- The walks from a goal end, after as many steps as there are stored goals at the most. -/
structure WalksEnd (config : Config) (goals : StoredGoals) (id : String) : Prop where
  /-- `collectDirectivePreferredTreeNodeIds`: a step is a stored goal from the queue. -/
  collect : ∃ turns ids, queuedIds goals.toGoalStore turns id = some ids ∧
    ids.countP (isStored goals.toGoalStore) ≤ goals.count ∧ ∀ getPendingDirective,
      (collectDirectivePreferredTreeNodeIds getPendingDirective goals.toGoalStore turns id).isSome
  /-- `_collectAllDescendantIds`: a step is a call for a stored goal. -/
  descendants : ∃ depth ids, collectAllDescendantIds goals.toGoalStore depth id = some ids ∧
    (id :: ids).countP (isStored goals.toGoalStore) ≤ goals.count
  /-- The aggregations of `runTreeIteration`: a step is one of them. -/
  propagate : (aggregateParents config goals.count goals.toGoalStore
    (parentOf goals.toGoalStore id)).isSome
  /-- The aggregations of `onNodeCompleted`, which first releases the node. -/
  complete : (aggregateParents config goals.count (setLoopStatus goals.toGoalStore id .idle)
    (parentOf goals.toGoalStore id)).isSome
  /-- `checkCompletionCascade`: a step is a turn of its loop. -/
  cascade : (checkCompletionCascade goals.toGoalStore goals.count id).isSome

/-- The links from a goal: there are no more paths of child links to stored goals than stored
goals, and no ancestor is its own. -/
structure LinksBounded (goals : StoredGoals) (id : String) : Prop where
  down : (paths (childIds goals.toGoalStore) (isStored goals.toGoalStore) id).encard ≤ goals.count
  up : NoCycleAbove goals.toGoalStore id

theorem setLoopStatus_stored (goals : StoredGoals) (id : String) (status : LoopStatus) :
    ∃ goals' : StoredGoals, setLoopStatus goals.toGoalStore id status = goals'.toGoalStore ∧
      SameLinks goals.toGoalStore goals'.toGoalStore := by
  unfold setLoopStatus
  cases hload : goals.loadGoal id with
  | none => exact ⟨goals, rfl, .refl _⟩
  | some goal =>
    have hnumbers : Goal.NumbersFinite { goal with loop_status := status } :=
      goals.numbers id goal hload
    have hsaved : goals.loadGoal goal.id = some goal := goals.loadGoal_self hload
    exact ⟨goals.put _ hnumbers, rfl, .put hsaved rfl⟩

/-- **Every walk ends** after as many steps as there are stored goals at the most, exactly when
the links from its start are bounded. -/
theorem walks_end_iff (config : Config) (goals : StoredGoals) (id : String)
    (hid : (goals.loadGoal id).isSome) : WalksEnd config goals id ↔ LinksBounded goals id := by
  have hpaths := unfolds_iff_paths (childIds goals.toGoalStore) (fun _ => childIds_of_missing)
    (n := goals.count) (x := id)
  constructor
  · intro h
    constructor
    · obtain ⟨depth, ids, hids, hcount⟩ := h.descendants
      exact hpaths.mp ⟨_, collectAllDescendantIds_iff.mp ⟨depth, hids⟩, hcount⟩
    · by_contra hcycle
      have hends := h.propagate
      rw [aggregateParents_eq_none config (not_noCycleAbove.mp hcycle)] at hends
      exact nomatch hends
  · intro h
    obtain ⟨nodes, hnodes, hcount⟩ := hpaths.mpr h.down
    have habove := above_le goals id
    refine ⟨?_, ?_, aggregateParents_isSome config hid h.up habove, ?_,
      completionCascade_isSome hid h.up habove⟩
    · obtain ⟨ids, hids, hperm⟩ := dequeue_of_unfolds _ hnodes rfl
      refine ⟨nodes.length, ids, hids, hperm.countP_eq _ ▸ hcount, fun getPendingDirective => ?_⟩
      unfold collectDirectivePreferredTreeNodeIds queuedIds
      rw [hids]
      cases getPendingDirective with
      | none => rfl
      | some getPendingDirective =>
        dsimp only
        split <;> rfl
    · obtain ⟨below, -, rfl⟩ := Unfolds.single_iff.mp hnodes
      obtain ⟨depth, hdepth⟩ := collectAllDescendantIds_iff.mpr hnodes
      exact ⟨depth, below, hdepth, hcount⟩
    · obtain ⟨goals', hidle, hsame⟩ := setLoopStatus_stored goals id .idle
      rw [hidle, ← show parentOf goals'.toGoalStore id = parentOf goals.toGoalStore id from
        hsame.parents id]
      refine aggregateParents_isSome config ((hsame.stored id).mpr hid) ?_ ?_
      · rw [NoCycleAbove, hsame.isParent]
        exact h.up
      · rw [above, hsame.isParent, hsame.storedIds]
        exact habove

/-! A goal and its child, which is its parent as well in the cyclic store. -/

def linkedGoal (cyclic : Bool) : Goal where
  id := "goal"
  parent_id := if cyclic then some "child" else none
  children_ids := ["child"]

def linkedChild (cyclic : Bool) : Goal where
  id := "child"
  parent_id := some "goal"
  children_ids := if cyclic then ["goal"] else []

def linkedStore (cyclic : Bool) : GoalStore where
  loadGoal id :=
    if id = "goal" then some (linkedGoal cyclic)
    else if id = "child" then some (linkedChild cyclic)
    else none
  loadGoal_id := by
    intro id goal h
    split at h
    · next hid =>
      cases h
      exact hid.symm
    · split at h
      · next hid =>
        cases h
        exact hid.symm
      · exact nomatch h

theorem linkedStore_stored (cyclic : Bool) :
    {id | isStored (linkedStore cyclic) id} = {"goal", "child"} := by
  ext id
  change (if id = "goal" then _ else if id = "child" then _ else none : Option Goal).isSome ↔ _
  by_cases hgoal : id = "goal"
  · simp [hgoal]
  · by_cases hchild : id = "child" <;> simp [hgoal, hchild]

def linkedGoals (cyclic : Bool) : StoredGoals where
  toGoalStore := linkedStore cyclic
  finite := by
    have hstored := linkedStore_stored cyclic
    unfold isStored at hstored
    rw [hstored]
    exact Set.toFinite _
  numbers := by
    intro id goal h dim hdim
    change (if id = "goal" then _ else if id = "child" then _ else none) = _ at h
    split at h
    · cases h
      exact nomatch hdim
    · split at h
      · cases h
        exact nomatch hdim
      · exact nomatch h

theorem walks_end_sample :
    (linkedGoals false).loadGoal "goal" = some (linkedGoal false) ∧
      WalksEnd { depth := 2 } (linkedGoals false) "goal" := by
  have hcount : (linkedGoals false).count = 2 := by
    unfold StoredGoals.count
    rw [show {id | isStored (linkedGoals false).toGoalStore id} = {"goal", "child"} from
      linkedStore_stored false]
    exact Set.ncard_pair (by decide)
  refine ⟨rfl, (walks_end_iff _ _ _ rfl).mpr ⟨?_, ?_⟩⟩
  · refine (unfolds_iff_paths _ fun _ => childIds_of_missing).mp ⟨["goal", "child"], ?_, ?_⟩
    · exact Unfolds.single_iff.mpr ⟨["child"], Unfolds.single_iff.mpr ⟨[], .nil, rfl⟩, rfl⟩
    · rw [hcount]
      decide
  · intro a ha hcycle
    have hnone {x : String} : ¬IsParent (linkedGoals false).toGoalStore "goal" x := nofun
    rcases ha.cases_head with rfl | ⟨_, hparent, -⟩
    · obtain ⟨_, hparent, -⟩ := TransGen.head'_iff.mp hcycle
      exact hnone hparent
    · exact hnone hparent

/-- On a cycle of parents the aggregations do not end. -/
theorem walks_end_not_cyclic : ¬WalksEnd { depth := 2 } (linkedGoals true) "goal" := by
  intro h
  have hcycle : CycleAbove (linkedGoals true).toGoalStore "goal" :=
    ⟨"goal", .refl, .tail (.single (show IsParent _ "goal" "child" from rfl)) rfl⟩
  have hends := h.propagate
  rw [aggregateParents_eq_none { depth := 2 } hcycle] at hends
  exact nomatch hends

end PulSeed.TreeLoop
