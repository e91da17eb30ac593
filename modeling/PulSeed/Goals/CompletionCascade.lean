import PulSeed.Goals.Traversals
import PulSeed.Lib.Digraph

/-!
# The ancestors that a goal completes (`orchestrator/goal/state-aggregator.ts`)

`checkCompletionCascade` goes up along the parents while all children of the parent are terminal,
the goal it began with, or parents it has passed. In a store without cycles of parents it ends,
and what it returns is the longest such chain: every other one is a part of it from the start
(`checkCompletionCascade_longest`).
-/

namespace PulSeed.TreeLoop

open Relation

/-- The statuses that `checkCompletionCascade` takes for done. -/
def Terminal (store : GoalStore) (id : String) : Prop :=
  ∃ goal, store.loadGoal id = some goal ∧
    (goal.status = .completed ∨ goal.status = .cancelled ∨ goal.status = .abandoned)

/-- The goal is stored, and its children are terminal or among the ones given. -/
def ChildrenDone (store : GoalStore) (done : List String) (id : String) : Prop :=
  ∃ goal, store.loadGoal id = some goal ∧
    ∀ childId ∈ goal.children_ids, childId ∈ done ∨ Terminal store childId

/-- A chain upwards from a goal, where the goals of `done` count as complete. -/
structure CascadeFrom (store : GoalStore) (done : List String) (currentId : String)
    (chain : List String) : Prop where
  /-- Each is the parent of the one before, the first that of the goal. -/
  successive : (currentId :: chain).IsChain (IsParent store)
  children : ∀ before id after, chain = before ++ id :: after →
    ChildrenDone store (done ++ before) id

/-- A chain of ancestors whose children are all terminal, the goal, or earlier in the chain. -/
def Cascade (store : GoalStore) (goalId : String) (chain : List String) : Prop :=
  CascadeFrom store [goalId] goalId chain

variable {store : GoalStore}

theorem CascadeFrom.nil (done : List String) (currentId : String) :
    CascadeFrom store done currentId [] where
  successive := .singleton _
  children before id after h := by simp at h

theorem cascadeFrom_cons {done chain : List String} {currentId id : String} :
    CascadeFrom store done currentId (id :: chain) ↔
      IsParent store currentId id ∧ ChildrenDone store done id ∧
        CascadeFrom store (done ++ [id]) id chain := by
  constructor
  · intro h
    obtain ⟨hparent, hchain⟩ := List.isChain_cons_cons.mp h.successive
    refine ⟨hparent, ?_, hchain, fun before next after heq => ?_⟩
    · simpa using h.children [] id chain rfl
    · have hnext := h.children (id :: before) next after (by rw [heq]; rfl)
      rwa [List.append_cons] at hnext
  · rintro ⟨hparent, hid, hchain⟩
    refine ⟨List.isChain_cons_cons.mpr ⟨hparent, hchain.successive⟩, ?_⟩
    intro before next after heq
    cases before with
    | nil =>
      obtain ⟨rfl, -⟩ := List.cons.inj heq
      rwa [List.append_nil]
    | cons first before =>
      obtain ⟨rfl, hrest⟩ := List.cons.inj heq
      rw [List.append_cons]
      exact hchain.children before next after hrest

theorem isDone_iff {done : List String} {childId : String} :
    isDone store done childId = true ↔ childId ∈ done ∨ Terminal store childId := by
  unfold isDone Terminal
  simp only [Bool.or_eq_true, decide_eq_true_eq, Option.any_eq_true, or_assoc]

theorem childrenDone_iff {done : List String} {parent : Goal}
    (h : store.loadGoal parent.id = some parent) :
    parent.children_ids.all (isDone store done) = true ↔ ChildrenDone store done parent.id := by
  unfold ChildrenDone
  simp only [List.all_eq_true, isDone_iff, h, Option.some.injEq, exists_eq_left']

/-- **What the walk returns is a chain, and every chain is a part of it.** -/
theorem completionCascade_longest {depth : ℕ} {done chain : List String} {currentId : String}
    (h : completionCascade store depth done currentId = some chain) :
    CascadeFrom store done currentId chain ∧
      ∀ chain', CascadeFrom store done currentId chain' → chain' <+: chain := by
  induction depth generalizing done chain currentId with
  | zero => cases h
  | succ depth ih =>
    unfold completionCascade at h
    split at h
    · next hnone =>
      cases h
      refine ⟨.nil _ _, fun chain' hchain' => ?_⟩
      cases chain' with
      | nil => exact List.nil_prefix
      | cons id chain' =>
        -- the parent of a longer chain would be stored
        obtain ⟨hparent, ⟨goal, hgoal, -⟩, -⟩ := cascadeFrom_cons.mp hchain'
        unfold IsParent parentOf at hparent
        rw [hparent, Option.bind_some, hgoal] at hnone
        cases hnone
    · next parent hload =>
      obtain ⟨parentId, hparent, hload⟩ := Option.bind_eq_some_iff.mp hload
      obtain rfl := store.loadGoal_id hload
      split at h
      · next hdone =>
        obtain ⟨rest, hrest, rfl⟩ := Option.map_eq_some_iff.mp h
        obtain ⟨hchain, hlongest⟩ := ih hrest
        refine ⟨cascadeFrom_cons.mpr ⟨hparent, (childrenDone_iff hload).mp hdone, hchain⟩, ?_⟩
        intro chain' hchain'
        cases chain' with
        | nil => exact List.nil_prefix
        | cons id chain' =>
          obtain ⟨hid, -, hchain'⟩ := cascadeFrom_cons.mp hchain'
          obtain rfl : parent.id = id := Option.some.inj (hparent.symm.trans hid)
          exact (List.prefix_cons_inj _).mpr (hlongest chain' hchain')
      · next hdone =>
        cases h
        refine ⟨.nil _ _, fun chain' hchain' => ?_⟩
        cases chain' with
        | nil => exact List.nil_prefix
        | cons id chain' =>
          obtain ⟨hid, hready, -⟩ := cascadeFrom_cons.mp hchain'
          obtain rfl : parent.id = id := Option.some.inj (hparent.symm.trans hid)
          exact absurd ((childrenDone_iff hload).mpr hready) hdone

/-- The walk ends within as many steps as there are stored goals, and one. -/
theorem checkCompletionCascade_isSome (goals : StoredGoals) (goalId : String)
    (hacyclic : Acyclic (IsParent goals.toGoalStore)) {depth : ℕ} (hdepth : goals.count < depth) :
    (checkCompletionCascade goals.toGoalStore depth goalId).isSome := by
  unfold checkCompletionCascade
  cases hload : goals.loadGoal goalId with
  | some goal =>
    have hstored : isStored goals.toGoalStore goalId := Option.isSome_of_eq_some hload
    refine completionCascade_isSome hstored ?_ ((above_le goals goalId).trans hdepth.le)
    exact fun a _ hcycle => hacyclic a hcycle
  | none =>
    obtain ⟨n, rfl⟩ := Nat.exists_eq_succ_of_ne_zero (Nat.ne_zero_of_lt hdepth)
    unfold completionCascade
    rw [hload]
    rfl

/-- **The longest chain of ancestors that the goal completes** is what the walk returns, however
many steps it is given beyond those it needs. -/
theorem checkCompletionCascade_longest (goals : StoredGoals) (goalId : String)
    (hacyclic : Acyclic (IsParent goals.toGoalStore)) :
    ∃ chain,
      (∀ depth, goals.count < depth →
        checkCompletionCascade goals.toGoalStore depth goalId = some chain) ∧
      Cascade goals.toGoalStore goalId chain ∧
      ∀ chain', Cascade goals.toGoalStore goalId chain' → chain' <+: chain := by
  obtain ⟨chain, hchain⟩ := Option.isSome_iff_exists.mp
    (checkCompletionCascade_isSome goals goalId hacyclic (Nat.lt_succ_self _))
  obtain ⟨hcascade, hlongest⟩ := completionCascade_longest hchain
  refine ⟨chain, fun depth hdepth => ?_, hcascade, hlongest⟩
  obtain ⟨other, hother⟩ := Option.isSome_iff_exists.mp
    (checkCompletionCascade_isSome goals goalId hacyclic hdepth)
  obtain ⟨hcascade', hlongest'⟩ := completionCascade_longest hother
  have heq : other = chain :=
    (hlongest other hcascade').eq_of_length_le (hlongest' chain hcascade).length_le
  rw [hother, heq]

/-- On the goal with one child. -/
theorem checkCompletionCascade_longest_sample :
    Acyclic (IsParent (linkedGoals false).toGoalStore) ∧
      ∃ chain,
        (∀ depth, (linkedGoals false).count < depth →
          checkCompletionCascade (linkedGoals false).toGoalStore depth "child" = some chain) ∧
        Cascade (linkedGoals false).toGoalStore "child" chain ∧
        ∀ chain', Cascade (linkedGoals false).toGoalStore "child" chain' → chain' <+: chain := by
  have hnone {x : String} : ¬ IsParent (linkedGoals false).toGoalStore "goal" x := nofun
  have hacyclic : Acyclic (IsParent (linkedGoals false).toGoalStore) := by
    intro x hcycle
    obtain ⟨y, hy, hback⟩ := TransGen.head'_iff.mp hcycle
    have hgoal : y = "goal" := by
      change ((if x = "goal" then _ else if x = "child" then _ else none : Option Goal).bind _) = _
        at hy
      split at hy
      · cases hy
      · split at hy
        · exact (Option.some.inj hy).symm
        · cases hy
    subst hgoal
    rcases hback.cases_head with rfl | ⟨_, hparent, -⟩
    · exact hnone hy
    · exact hnone hparent
  exact ⟨hacyclic, checkCompletionCascade_longest (linkedGoals false) "child" hacyclic⟩

end PulSeed.TreeLoop
