import PulSeed.Goals.DependencyGraph

/-!
# Dependency schedules (`orchestrator/strategy/portfolio-scheduling.ts`)

`buildDependencySchedule` groups goals into phases and computes a critical path. The
loop over the phases ends on every graph: a phase takes at least one goal from the
remaining ones, and when none is ready the rest becomes the last phase. The critical
path is computed by a recursion that follows the prerequisites of a goal and knows only
the goals it has *finished*, so on a cycle it calls itself for ever.

A recursive call is a definition with the depth of the stack as its first argument,
`none` when the stack is used up: to return is to return with some depth. The schedule
is returned exactly when the prerequisites between the goals are acyclic
(`schedule_returns_iff`).
-/

namespace PulSeed.Goals

open Relation

/-- `DependencyPhase`. -/
structure DependencyPhase where
  phase : Nat
  goalIds : List String
  blockedBy : List String
  deriving DecidableEq, Repr

/-- `DependencySchedule`. -/
structure DependencySchedule where
  phases : List DependencyPhase
  criticalPath : List String
  deriving DecidableEq, Repr

/-- `[...new Set(values)]`. -/
def asSet (values : List String) : List String := values.eraseDups

/-- `getPrerequisites`. -/
def DependencyGraph.getPrerequisites (g : DependencyGraph) (goalId : String) :
    List DependencyEdge :=
  g.edges.filter fun e => e.toGoalId == goalId && e.type == .prerequisite && e.status == .active

/-- `getBlockingGoals`. -/
def DependencyGraph.getBlockingGoals (g : DependencyGraph) (goalId : String) : List String :=
  (g.getPrerequisites goalId).map fun e => e.fromGoalId

/-- `prereqMap.get(id)`, empty for a goal that is not scheduled. -/
def prereqMap (goalIds : List String) (g : DependencyGraph) (id : String) : List String :=
  if id ∈ goalIds then asSet ((g.getBlockingGoals id).filter (· ∈ goalIds)) else []

section Scheduling

variable (prereqs : String → List String)

/-! ## The phases -/

/-- `readyGoals`: the remaining goals whose prerequisites are completed. -/
def readyGoals (completed remaining : List String) : List String :=
  remaining.filter fun id => (prereqs id).all (· ∈ completed)

/-- `remaining.delete(id)` for the ready goals. -/
def withoutGoals (remaining ready : List String) : List String :=
  remaining.filter (· ∉ ready)

theorem withoutGoals_length_lt {completed remaining : List String}
    (h : readyGoals prereqs completed remaining ≠ []) :
    (withoutGoals remaining (readyGoals prereqs completed remaining)).length <
      remaining.length := by
  obtain ⟨id, hid⟩ := List.exists_mem_of_ne_nil _ h
  have hremaining : id ∈ remaining := List.mem_of_mem_filter hid
  refine List.length_filter_lt_length_iff_exists.mpr ⟨id, hremaining, ?_⟩
  simpa using hid

/-- The loop over the phases. -/
def buildPhases (phaseIndex : Nat) (completed remaining : List String) : List DependencyPhase :=
  if remaining = [] then []
  else
    let ready := readyGoals prereqs completed remaining
    if ready = [] then
      -- a cycle: the remaining goals form the last phase
      [{ phase := phaseIndex
         goalIds := remaining
         blockedBy := asSet (remaining.flatMap fun id =>
           (prereqs id).filter (· ∉ completed)) }]
    else
      { phase := phaseIndex, goalIds := ready, blockedBy := asSet (ready.flatMap prereqs) }
        :: buildPhases (phaseIndex + 1) (completed ++ ready) (withoutGoals remaining ready)
termination_by remaining.length
decreasing_by exact withoutGoals_length_lt prereqs ‹_›

/-! ## The critical path -/

/-- The maps `dp` and `parent`. -/
structure Memo where
  dp : String → Option Nat
  parent : String → Option (Option String)

/-- `dp.set(id, length)` and `parent.set(id, p)`. -/
def Memo.set (memo : Memo) (id : String) (length : Nat) (p : Option String) : Memo where
  dp := Function.update memo.dp id (some length)
  parent := Function.update memo.parent id (some p)

/-- The loop of `longestFrom` over the prerequisites: the best length and parent so far. -/
def longestAmong (longestFrom : String → Memo → Option (Nat × Memo)) :
    List String → Nat → Option String → Memo → Option (Nat × Option String × Memo)
  | [], best, bestParent, memo => some (best, bestParent, memo)
  | p :: ps, best, bestParent, memo =>
    match longestFrom p memo with
    | none => none
    | some (len, memo) =>
      if best < len then longestAmong longestFrom ps len (some p) memo
      else longestAmong longestFrom ps best bestParent memo

/-- `longestFrom`, with the depth of the stack that is left. -/
def longestFrom : Nat → String → Memo → Option (Nat × Memo)
  | 0, _, _ => none
  | depth + 1, id, memo =>
    match memo.dp id with
    | some cached => some (cached, memo)
    | none =>
      match prereqs id with
      | [] => some (1, memo.set id 1 none)
      | ps =>
        (longestAmong (longestFrom depth) ps 0 none memo).map fun (best, bestParent, memo) =>
          (best + 1, memo.set id (best + 1) bestParent)

/-- The loop that computes `longestFrom` for all goals. -/
def longestFromAll (depth : Nat) : List String → Memo → Option Memo
  | [], memo => some memo
  | id :: ids, memo =>
    (longestFrom prereqs depth id memo).bind fun (_, memo) => longestFromAll depth ids memo

/-- The goal with the highest length, and that length. -/
def maxGoal (memo : Memo) (goalIds : List String) : Nat × String :=
  goalIds.foldl (fun (maxLen, goal) id =>
    let len := (memo.dp id).getD 0
    if maxLen < len then (len, id) else (maxLen, goal)) (0, goalIds.headD "")

/-- The loop along the parents, with the number of its rounds that are left. -/
def followParents (memo : Memo) : Nat → Option String → List String → Option (List String)
  | _, none, path => some path
  | 0, some _, _ => none
  | rounds + 1, some current, path =>
    followParents memo rounds ((memo.parent current).join) (current :: path)

/-- `computeCriticalPath`. -/
def computeCriticalPath (depth : Nat) (goalIds : List String) : Option (List String) :=
  (longestFromAll prereqs depth goalIds ⟨fun _ => none, fun _ => none⟩).bind fun memo =>
    let (maxLen, goal) := maxGoal memo goalIds
    if maxLen = 0 then some [] else followParents memo depth (some goal) []

end Scheduling

/-- `buildDependencySchedule`. -/
def buildDependencySchedule (depth : Nat) (goalIds : List String) (g : DependencyGraph) :
    Option DependencySchedule :=
  if goalIds = [] then some ⟨[], []⟩
  else
    let phases := buildPhases (prereqMap goalIds g) 0 [] (asSet goalIds)
    (computeCriticalPath (prereqMap goalIds g) depth goalIds).map fun criticalPath =>
      ⟨phases, criticalPath⟩

/-! ## The recursion ends on an acyclic graph -/

section Termination

variable {prereqs : String → List String}

/-- Enough stack for each of finitely many goals is enough stack for all of them. -/
theorem exists_depth (ps : List String) {P : String → Nat → Prop}
    (h : ∀ p ∈ ps, ∃ N, ∀ n, N ≤ n → P p n) : ∃ N, ∀ n, N ≤ n → ∀ p ∈ ps, P p n := by
  induction ps with
  | nil => exact ⟨0, by simp⟩
  | cons q ps ih =>
    obtain ⟨N₁, h₁⟩ := h q (List.mem_cons_self ..)
    obtain ⟨N₂, h₂⟩ := ih fun p hp => h p (List.mem_cons_of_mem _ hp)
    refine ⟨max N₁ N₂, fun n hn p hp => ?_⟩
    rcases List.mem_cons.mp hp with rfl | hp
    · exact h₁ n (le_trans (le_max_left ..) hn)
    · exact h₂ n (le_trans (le_max_right ..) hn) p hp

theorem longestAmong_isSome {f : String → Memo → Option (Nat × Memo)} {ps : List String}
    (h : ∀ p ∈ ps, ∀ memo, (f p memo).isSome = true) (best : Nat) (bestParent : Option String)
    (memo : Memo) : (longestAmong f ps best bestParent memo).isSome = true := by
  induction ps generalizing best bestParent memo with
  | nil => rfl
  | cons p ps ih =>
    have hrest := ih fun q hq => h q (List.mem_cons_of_mem _ hq)
    unfold longestAmong
    split
    · next hnone =>
      have hp := h p (List.mem_cons_self ..) memo
      rw [hnone] at hp
      cases hp
    · split <;> exact hrest ..

/-- **The recursion returns for an accessible goal**, whatever has been memoised. -/
theorem longestFrom_isSome {id : String} (hacc : Acc (fun p id => p ∈ prereqs id) id) :
    ∃ N, ∀ n, N ≤ n → ∀ memo, (longestFrom prereqs n id memo).isSome = true := by
  induction hacc with
  | intro id _ ih =>
    obtain ⟨N, hN⟩ := exists_depth (prereqs id)
      (P := fun p n => ∀ memo, (longestFrom prereqs n p memo).isSome = true) ih
    refine ⟨N + 1, fun n hn memo => ?_⟩
    obtain ⟨depth, rfl⟩ : ∃ depth, n = depth + 1 := ⟨n - 1, by omega⟩
    unfold longestFrom
    split
    · rfl
    · split
      · rfl
      · rw [Option.isSome_map]
        exact longestAmong_isSome (hN depth (by omega)) 0 none memo

theorem longestFromAll_isSome {depth : Nat} {ids : List String}
    (h : ∀ id ∈ ids, ∀ memo, (longestFrom prereqs depth id memo).isSome = true) (memo : Memo) :
    (longestFromAll prereqs depth ids memo).isSome = true := by
  induction ids generalizing memo with
  | nil => rfl
  | cons id ids ih =>
    obtain ⟨⟨len, memo'⟩, hsome⟩ :=
      Option.isSome_iff_exists.mp (h id (List.mem_cons_self ..) memo)
    unfold longestFromAll
    rw [hsome]
    exact ih (fun id' hid' => h id' (List.mem_cons_of_mem _ hid')) memo'

/-! ## The path along the parents -/

/-- The parents that are kept are prerequisites. -/
def ParentsOk (prereqs : String → List String) (memo : Memo) : Prop :=
  ∀ id p, memo.parent id = some (some p) → p ∈ prereqs id

theorem ParentsOk.set {memo : Memo} (h : ParentsOk prereqs memo) {id : String}
    {parent : Option String} (hparent : ∀ p, parent = some p → p ∈ prereqs id) (length : Nat) :
    ParentsOk prereqs (memo.set id length parent) := by
  intro x p hx
  by_cases hxid : x = id
  · subst hxid
    simp only [Memo.set, Function.update_self, Option.some.injEq] at hx
    exact hparent p hx
  · exact h x p ((Function.update_of_ne hxid ..).symm.trans hx)

/-- What holds of the memo and is kept by every call is kept by the loop over `ps`, whose
parent is the given one or a member of `ps`. -/
theorem longestAmong_keeps {P : Memo → Prop} {f : String → Memo → Option (Nat × Memo)}
    {ps : List String} (hf : ∀ p ∈ ps, ∀ memo len memo', f p memo = some (len, memo') →
      P memo → P memo') {best best' : Nat} {bestParent bestParent' : Option String}
    {memo memo' : Memo}
    (h : longestAmong f ps best bestParent memo = some (best', bestParent', memo'))
    (hmemo : P memo) :
    P memo' ∧ (bestParent' = bestParent ∨ ∃ p ∈ ps, bestParent' = some p) := by
  induction ps generalizing best bestParent memo with
  | nil =>
    cases h
    exact ⟨hmemo, .inl rfl⟩
  | cons p ps ih =>
    unfold longestAmong at h
    split at h
    · cases h
    · next len memo₁ hcall =>
      have hmemo₁ := hf p (List.mem_cons_self ..) memo len memo₁ hcall hmemo
      have hrest := fun q hq => hf q (List.mem_cons_of_mem _ hq)
      split at h
      · obtain ⟨hP, hparent⟩ := ih hrest h hmemo₁
        refine ⟨hP, .inr ?_⟩
        rcases hparent with hparent | ⟨q, hq, hparent⟩
        · exact ⟨p, List.mem_cons_self .., hparent⟩
        · exact ⟨q, List.mem_cons_of_mem _ hq, hparent⟩
      · obtain ⟨hP, hparent⟩ := ih hrest h hmemo₁
        refine ⟨hP, ?_⟩
        rcases hparent with hparent | ⟨q, hq, hparent⟩
        · exact .inl hparent
        · exact .inr ⟨q, List.mem_cons_of_mem _ hq, hparent⟩

theorem longestFrom_parents {depth : Nat} {id : String} {memo memo' : Memo} {len : Nat}
    (h : longestFrom prereqs depth id memo = some (len, memo')) (hmemo : ParentsOk prereqs memo) :
    ParentsOk prereqs memo' := by
  induction depth generalizing id memo memo' len with
  | zero => cases h
  | succ depth ih =>
    unfold longestFrom at h
    split at h
    · cases h
      exact hmemo
    · split at h
      · cases h
        exact hmemo.set (by simp) 1
      · obtain ⟨⟨best, bestParent, memo₁⟩, hloop, heq⟩ := Option.map_eq_some_iff.mp h
        cases heq
        obtain ⟨hmemo₁, hparent⟩ := longestAmong_keeps (fun _ _ _ _ _ hcall => ih hcall) hloop hmemo
        refine hmemo₁.set ?_ _
        rintro p rfl
        rcases hparent with hparent | ⟨q, hq, hparent⟩
        · cases hparent
        · cases hparent
          exact hq

theorem longestFromAll_parents {depth : Nat} {ids : List String} {memo memo' : Memo}
    (h : longestFromAll prereqs depth ids memo = some memo') (hmemo : ParentsOk prereqs memo) :
    ParentsOk prereqs memo' := by
  induction ids generalizing memo with
  | nil =>
    cases h
    exact hmemo
  | cons id ids ih =>
    obtain ⟨⟨len, memo₁⟩, hcall, hrest⟩ := Option.bind_eq_some_iff.mp h
    exact ih hrest (longestFrom_parents hcall hmemo)

/-- **The path ends at an accessible goal.** -/
theorem followParents_isSome {id : String} (hacc : Acc (fun p id => p ∈ prereqs id) id) :
    ∃ N, ∀ n, N ≤ n → ∀ memo, ParentsOk prereqs memo → ∀ path,
      (followParents memo n (some id) path).isSome = true := by
  induction hacc with
  | intro id _ ih =>
    obtain ⟨N, hN⟩ := exists_depth (prereqs id) (P := fun p n => ∀ memo,
      ParentsOk prereqs memo → ∀ path, (followParents memo n (some p) path).isSome = true) ih
    refine ⟨N + 1, fun n hn memo hmemo path => ?_⟩
    obtain ⟨rounds, rfl⟩ : ∃ rounds, n = rounds + 1 := ⟨n - 1, by omega⟩
    unfold followParents
    cases hparent : (memo.parent id).join with
    | none => cases rounds <;> rfl
    | some p =>
      have hp : memo.parent id = some (some p) := Option.join_eq_some_iff.mp hparent
      exact hN rounds (by omega) p (hmemo id p hp) memo hmemo _

theorem maxGoal_mem (memo : Memo) {goalIds : List String} (hne : goalIds ≠ []) :
    (maxGoal memo goalIds).2 ∈ goalIds := by
  have hfold : ∀ (ids : List String) (acc : Nat × String), acc.2 ∈ goalIds →
      (∀ id ∈ ids, id ∈ goalIds) → (ids.foldl (fun (maxLen, goal) id =>
        let len := (memo.dp id).getD 0
        if maxLen < len then (len, id) else (maxLen, goal)) acc).2 ∈ goalIds := by
    intro ids
    induction ids with
    | nil => exact fun _ hacc _ => hacc
    | cons id ids ih =>
      intro acc hacc hids
      rw [List.foldl_cons]
      refine ih _ ?_ fun id' hid' => hids id' (List.mem_cons_of_mem _ hid')
      dsimp only
      split
      · exact hids id (List.mem_cons_self ..)
      · exact hacc
  refine hfold goalIds _ ?_ fun _ h => h
  cases goalIds with
  | nil => exact absurd rfl hne
  | cons id ids => exact List.mem_cons_self ..

/-! ## A recursion that returns has seen no cycle -/

/-- The memo holds the lengths of accessible goals only. -/
def MemoOk (prereqs : String → List String) (memo : Memo) : Prop :=
  ∀ id, memo.dp id ≠ none → Acc (fun p id => p ∈ prereqs id) id

theorem MemoOk.set {memo : Memo} (h : MemoOk prereqs memo) {id : String}
    (hacc : Acc (fun p id => p ∈ prereqs id) id) (length : Nat) (parent : Option String) :
    MemoOk prereqs (memo.set id length parent) := by
  intro x hx
  by_cases hxid : x = id
  · exact hxid ▸ hacc
  · exact h x fun hnone => hx ((Function.update_of_ne hxid ..).trans hnone)

/-- A loop that returns has called its function with a result for every member. -/
theorem longestAmong_all {P : Memo → Prop} {Q : String → Prop}
    {f : String → Memo → Option (Nat × Memo)} {ps : List String}
    (hf : ∀ p memo len memo', f p memo = some (len, memo') → P memo → P memo' ∧ Q p)
    {best best' : Nat} {bestParent bestParent' : Option String} {memo memo' : Memo}
    (h : longestAmong f ps best bestParent memo = some (best', bestParent', memo'))
    (hmemo : P memo) : P memo' ∧ ∀ p ∈ ps, Q p := by
  induction ps generalizing best bestParent memo with
  | nil =>
    cases h
    exact ⟨hmemo, by simp⟩
  | cons p ps ih =>
    unfold longestAmong at h
    split at h
    · cases h
    · next len memo₁ hcall =>
      obtain ⟨hmemo₁, hp⟩ := hf p memo len memo₁ hcall hmemo
      have hrest : P memo' ∧ ∀ q ∈ ps, Q q := by
        split at h <;> exact ih h hmemo₁
      refine ⟨hrest.1, fun q hq => ?_⟩
      rcases List.mem_cons.mp hq with rfl | hq
      · exact hp
      · exact hrest.2 q hq

/-- **A call that returns was made for an accessible goal.** -/
theorem longestFrom_acc {depth : Nat} {id : String} {memo memo' : Memo} {len : Nat}
    (h : longestFrom prereqs depth id memo = some (len, memo')) (hmemo : MemoOk prereqs memo) :
    MemoOk prereqs memo' ∧ Acc (fun p id => p ∈ prereqs id) id := by
  induction depth generalizing id memo memo' len with
  | zero => cases h
  | succ depth ih =>
    unfold longestFrom at h
    split at h
    · next cached hcached =>
      cases h
      exact ⟨hmemo, hmemo id (by simp [hcached])⟩
    · split at h
      · next hnil =>
        cases h
        have hacc : Acc (fun p id => p ∈ prereqs id) id :=
          ⟨id, fun p hp => absurd hp (by simp [hnil])⟩
        exact ⟨hmemo.set hacc 1 none, hacc⟩
      · obtain ⟨⟨best, bestParent, memo₁⟩, hloop, heq⟩ := Option.map_eq_some_iff.mp h
        cases heq
        obtain ⟨hmemo₁, hall⟩ := longestAmong_all (fun _ _ _ _ hcall => ih hcall) hloop hmemo
        exact ⟨hmemo₁.set ⟨id, hall⟩ _ _, ⟨id, hall⟩⟩

theorem longestFromAll_acc {depth : Nat} {ids : List String} {memo memo' : Memo}
    (h : longestFromAll prereqs depth ids memo = some memo') (hmemo : MemoOk prereqs memo) :
    ∀ id ∈ ids, Acc (fun p id => p ∈ prereqs id) id := by
  induction ids generalizing memo with
  | nil => simp
  | cons id ids ih =>
    obtain ⟨⟨len, memo₁⟩, hcall, hrest⟩ := Option.bind_eq_some_iff.mp h
    obtain ⟨hmemo₁, hacc⟩ := longestFrom_acc hcall hmemo
    intro id' hid'
    rcases List.mem_cons.mp hid' with rfl | hid'
    · exact hacc
    · exact ih hrest hmemo₁ id' hid'

/-- The critical path is computed when the prerequisites are well founded. -/
theorem computeCriticalPath_isSome (hwf : WellFounded fun p id => p ∈ prereqs id)
    {goalIds : List String} (hne : goalIds ≠ []) :
    ∃ depth, (computeCriticalPath prereqs depth goalIds).isSome = true := by
  obtain ⟨N₁, h₁⟩ := exists_depth goalIds
    (P := fun id n => ∀ memo, (longestFrom prereqs n id memo).isSome = true)
    fun id _ => longestFrom_isSome (hwf.apply id)
  obtain ⟨N₂, h₂⟩ := exists_depth goalIds (P := fun id n => ∀ memo,
    ParentsOk prereqs memo → ∀ path, (followParents memo n (some id) path).isSome = true)
    fun id _ => followParents_isSome (hwf.apply id)
  refine ⟨max N₁ N₂, ?_⟩
  obtain ⟨memo, hmemo⟩ := Option.isSome_iff_exists.mp (longestFromAll_isSome
    (h₁ (max N₁ N₂) (le_max_left ..)) ⟨fun _ => none, fun _ => none⟩)
  have hparents : ParentsOk prereqs memo :=
    longestFromAll_parents hmemo fun _ _ hnone => (by cases hnone)
  unfold computeCriticalPath
  rw [hmemo, Option.bind_some]
  dsimp only
  split
  · rfl
  · exact h₂ _ (le_max_right ..) _ (maxGoal_mem memo hne) memo hparents []

end Termination

/-! ## Schedules -/

/-- An active prerequisite edge leads from `p` to `id`, and both goals are scheduled. -/
def DependencyGraph.Blocks (g : DependencyGraph) (goalIds : List String) (p id : String) : Prop :=
  p ∈ goalIds ∧ id ∈ goalIds ∧ g.Prerequisite p id

theorem mem_prereqMap_iff {g : DependencyGraph} {goalIds : List String} {p id : String} :
    p ∈ prereqMap goalIds g id ↔ g.Blocks goalIds p id := by
  unfold prereqMap DependencyGraph.Blocks
  by_cases hid : id ∈ goalIds
  · rw [if_pos hid, asSet, List.mem_eraseDups, List.mem_filter, ← DependencyGraph.mem_adjacency_iff]
    unfold DependencyGraph.getBlockingGoals DependencyGraph.getPrerequisites
      DependencyGraph.activePrerequisiteAdjacency DependencyEdge.isActivePrerequisite
    simp only [List.mem_map, List.mem_filter, Bool.and_eq_true, beq_iff_eq, decide_eq_true_eq]
    constructor
    · rintro ⟨⟨e, ⟨hmem, ⟨hto, htype⟩, hstatus⟩, hfrom⟩, hp⟩
      exact ⟨hp, hid, e, ⟨hmem, ⟨htype, hstatus⟩, hfrom⟩, hto⟩
    · rintro ⟨hp, -, e, ⟨hmem, ⟨htype, hstatus⟩, hfrom⟩, hto⟩
      exact ⟨⟨e, ⟨hmem, ⟨hto, htype⟩, hstatus⟩, hfrom⟩, hp⟩
  · rw [if_neg hid]
    simp [hid]

theorem prereqMap_eq_blocks (g : DependencyGraph) (goalIds : List String) :
    (fun p id => p ∈ prereqMap goalIds g id) = g.Blocks goalIds :=
  funext₂ fun _ _ => propext mem_prereqMap_iff

theorem schedule_of_acyclic {goalIds : List String} {g : DependencyGraph}
    (h : Acyclic (g.Blocks goalIds)) :
    ∃ depth, (buildDependencySchedule depth goalIds g).isSome = true := by
  by_cases hne : goalIds = []
  · exact ⟨0, by simp [buildDependencySchedule, hne]⟩
  · have hwf := h.wellFounded (s := {id | id ∈ goalIds}) (List.finite_toSet goalIds)
      fun p id hblocks => ⟨hblocks.1, hblocks.2.1⟩
    rw [← prereqMap_eq_blocks] at hwf
    obtain ⟨depth, hpath⟩ := computeCriticalPath_isSome hwf hne
    refine ⟨depth, ?_⟩
    unfold buildDependencySchedule
    rw [if_neg hne, Option.isSome_map]
    exact hpath

theorem acyclic_of_schedule {depth : Nat} {goalIds : List String} {g : DependencyGraph}
    (h : (buildDependencySchedule depth goalIds g).isSome = true) :
    Acyclic (g.Blocks goalIds) := by
  intro id hcycle
  obtain ⟨p, hlast, -⟩ := TransGen.head'_iff.mp hcycle
  have hid : id ∈ goalIds := hlast.1
  unfold buildDependencySchedule at h
  rw [if_neg (List.ne_nil_of_mem hid), Option.isSome_map] at h
  obtain ⟨path, hpath⟩ := Option.isSome_iff_exists.mp h
  obtain ⟨memo, hmemo, -⟩ := Option.bind_eq_some_iff.mp hpath
  have hacc := longestFromAll_acc hmemo (fun _ hnone => absurd rfl hnone) id hid
  rw [prereqMap_eq_blocks] at hacc
  exact not_acc_of_cycle hcycle hacc

/-- **A schedule is returned exactly when the active prerequisites between the goals are
acyclic.** -/
theorem schedule_returns_iff (goalIds : List String) (g : DependencyGraph) :
    (∃ depth, (buildDependencySchedule depth goalIds g).isSome = true) ↔
      Acyclic (g.Blocks goalIds) :=
  ⟨fun ⟨_, h⟩ => acyclic_of_schedule h, schedule_of_acyclic⟩

/-- Two goals that are prerequisites of each other. -/
def sampleCycle : DependencyGraph where
  nodes := ["a", "b"]
  edges := [{ fromGoalId := "a", toGoalId := "b", type := .prerequisite, createdAt := "1" },
    { fromGoalId := "b", toGoalId := "a", type := .prerequisite, createdAt := "2" }]
  updatedAt := "2"

/-- **No schedule for a cycle**, however deep the stack. -/
theorem schedule_cycle_diverges :
    ¬ ∃ depth, (buildDependencySchedule depth ["a", "b"] sampleCycle).isSome = true := by
  have hab : sampleCycle.Blocks ["a", "b"] "a" "b" :=
    ⟨by simp, by simp, _, List.mem_cons_self .., rfl, rfl, rfl⟩
  have hba : sampleCycle.Blocks ["a", "b"] "b" "a" :=
    ⟨by simp, by simp, _, List.mem_cons_of_mem _ (List.mem_cons_self ..), rfl, rfl, rfl⟩
  rintro ⟨depth, h⟩
  exact acyclic_of_schedule h "a" (.tail (.single hab) hba)

end PulSeed.Goals
