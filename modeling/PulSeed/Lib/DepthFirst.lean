import PulSeed.Lib.Digraph
import Mathlib.Data.List.Chain

/-!
# Depth-first search for a cycle

A search along an adjacency function that keeps the nodes it has visited and the path it is on.
Reaching a node of the path again closes a cycle; a visited node off the path is not entered again.

- `visit`, `visitAll`: the search from a node, and from the nodes of a list until a cycle is found.
- `Inv`: the path is a path of the graph, and from a visited node off the path no cycle is reached.
- `visit_spec`: **the search ends**, with a cycle of the graph or with its node done.
- `visitAll_spec`: what each of the searches establishes, all of them do.
-/

namespace PulSeed.DepthFirst

open Relation

universe u

variable {α : Type u}

/-! ## Cycles -/

/-- A list of at least two nodes, each with an edge to the next, that ends where it starts. -/
structure IsCycle (r : α → α → Prop) (cycle : List α) : Prop where
  closed : cycle.head? = cycle.getLast?
  long : 2 ≤ cycle.length
  path : cycle.IsChain r

theorem transGen_of_isChain {r : α → α → Prop} {x y : α} {l : List α}
    (h : (x :: (l ++ [y])).IsChain r) : TransGen r x y := by
  induction l generalizing x with
  | nil => exact .single (List.isChain_cons_cons.mp h).1
  | cons z l ih =>
    obtain ⟨hxz, hrest⟩ := List.isChain_cons_cons.mp h
    exact .head hxz (ih hrest)

theorem IsCycle.not_acyclic {r : α → α → Prop} {cycle : List α} (h : IsCycle r cycle) :
    ¬ Acyclic r := by
  obtain ⟨hclosed, hlong, hpath⟩ := h
  match cycle, hlong with
  | x :: z :: l, _ =>
    obtain ⟨l', y, hl⟩ : ∃ l' y, z :: l = l' ++ [y] :=
      ⟨_, _, (List.dropLast_append_getLast (List.cons_ne_nil z l)).symm⟩
    rw [hl] at hclosed hpath
    rw [← List.cons_append, List.getLast?_concat, List.cons_append, List.head?_cons] at hclosed
    cases hclosed
    exact fun hacyclic => hacyclic x (transGen_of_isChain hpath)

/-! ## The search -/

/-- The nodes visited so far, and the path that the search is on. -/
structure State (α : Type u) where
  visited : List α
  inStack : List α
  stackPath : List α

section Search

variable [DecidableEq α]

/-- The search goes on to a node. -/
def State.enter (st : State α) (node : α) : State α where
  visited := node :: st.visited
  inStack := node :: st.inStack
  stackPath := st.stackPath ++ [node]

/-- The search is done with a node, the last of its path. -/
def State.leave (st : State α) (node : α) : State α :=
  { st with
    inStack := st.inStack.filter (· ≠ node)
    stackPath := st.stackPath.dropLast }

/-- The nodes of a list, until one leads to a cycle. -/
def visitAll (visit : α → State α → Option (Option (List α) × State α)) :
    List α → State α → Option (Option (List α) × State α)
  | [], st => some (none, st)
  | node :: nodes, st =>
    match visit node st with
    | some (none, st) => visitAll visit nodes st
    | found => found

/-- The search from a node, to a depth; `none` when the depth is used up. -/
def visit (adj : α → List α) : ℕ → α → State α → Option (Option (List α) × State α)
  | 0, _, _ => none
  | depth + 1, node, st =>
    if node ∈ st.inStack then
      some (some (st.stackPath.drop (st.stackPath.idxOf node) ++ [node]), st)
    else if node ∈ st.visited then some (none, st)
    else
      match visitAll (visit adj depth) (adj node) (st.enter node) with
      | some (none, st) => some (none, st.leave node)
      | found => found

/-! ## What the search keeps -/

/-- The path is a path of the graph, and what is visited and off it leads to no cycle. -/
structure Inv (adj : α → List α) (st : State α) : Prop where
  inStack : ∀ x, x ∈ st.inStack ↔ x ∈ st.stackPath
  visited : ∀ x ∈ st.stackPath, x ∈ st.visited
  path : st.stackPath.IsChain fun u v => v ∈ adj u
  finished : ∀ x ∈ st.visited, x ∉ st.stackPath → Acc (fun v u => v ∈ adj u) x

/-- A later state of the search on the same path. -/
structure Later (adj : α → List α) (st st' : State α) : Prop where
  inv : Inv adj st'
  stackPath : st'.stackPath = st.stackPath
  visited : ∀ x ∈ st.visited, x ∈ st'.visited

/-- The search from the nodes of a list has found a cycle, or is done with them. -/
def Outcome (adj : α → List α) (st : State α) (nodes : List α) : Option (List α) × State α → Prop
  | (some cycle, _) => IsCycle (fun u v => v ∈ adj u) cycle
  | (none, st') => Later adj st st' ∧ ∀ x ∈ nodes, x ∈ st'.visited ∧ x ∉ st'.stackPath

variable {adj : α → List α} {st st' st'' : State α} {node : α} {nodes : List α}

omit [DecidableEq α] in
theorem Later.trans (h : Later adj st st') (h' : Later adj st' st'') : Later adj st st'' where
  inv := h'.inv
  stackPath := h'.stackPath.trans h.stackPath
  visited x hx := h'.visited x (h.visited x hx)

omit [DecidableEq α] in
/-- **What each search establishes, all of them do.** -/
theorem visitAll_spec (search : α → State α → Option (Option (List α) × State α))
    (nodes : List α) (hinv : Inv adj st) (hsearch : ∀ x ∈ nodes, ∀ st', Later adj st st' →
      ∃ result, search x st' = some result ∧ Outcome adj st' [x] result) :
    ∃ result, visitAll search nodes st = some result ∧ Outcome adj st nodes result := by
  induction nodes generalizing st with
  | nil => exact ⟨_, rfl, ⟨hinv, rfl, fun _ => id⟩, fun x hx => absurd hx (List.not_mem_nil)⟩
  | cons x nodes ih =>
    obtain ⟨⟨_ | cycle, st'⟩, hvisit, houtcome⟩ :=
      hsearch x List.mem_cons_self st ⟨hinv, rfl, fun _ => id⟩
    · obtain ⟨hlater, hdone⟩ := houtcome
      obtain ⟨hx, hoff⟩ := hdone x List.mem_cons_self
      obtain ⟨result, hall, hresult⟩ := ih hlater.inv fun y hy st'' hlater' =>
        hsearch y (List.mem_cons_of_mem _ hy) st'' (hlater.trans hlater')
      refine ⟨result, ?_, ?_⟩
      · rw [visitAll, hvisit]
        exact hall
      · obtain ⟨_ | cycle, st''⟩ := result
        · obtain ⟨hlater', hdone'⟩ := hresult
          refine ⟨hlater.trans hlater', fun y hy => ?_⟩
          rcases List.mem_cons.mp hy with rfl | hy
          · exact ⟨hlater'.visited y hx, hlater'.stackPath ▸ hoff⟩
          · exact hdone' y hy
        · exact hresult
    · refine ⟨(some cycle, st'), ?_, houtcome⟩
      rw [visitAll, hvisit]

/-- Reaching a node of the path again closes a cycle. -/
theorem isCycle_of_mem (hpath : st.stackPath.IsChain fun u v => v ∈ adj u)
    (hedge : ∀ u ∈ st.stackPath.getLast?, node ∈ adj u) (hnode : node ∈ st.stackPath) :
    IsCycle (fun u v => v ∈ adj u) (st.stackPath.drop (st.stackPath.idxOf node) ++ [node]) := by
  obtain ⟨rest, hdrop⟩ : ∃ rest, st.stackPath.drop (st.stackPath.idxOf node) = node :: rest := by
    have hlt := List.idxOf_lt_length_iff.mpr hnode
    refine ⟨st.stackPath.drop (st.stackPath.idxOf node + 1), ?_⟩
    rw [List.drop_eq_getElem_cons hlt, List.getElem_idxOf hlt]
  refine ⟨?_, ?_, ?_⟩
  · rw [hdrop, List.getLast?_concat]
    rfl
  · rw [hdrop]
    simp
  · refine List.isChain_append.mpr ⟨hpath.drop _, List.isChain_singleton _, ?_⟩
    intro u hu v hv
    have hlast : u ∈ st.stackPath.getLast? := by
      rw [List.getLast?_drop, if_neg (by
        rw [not_le]
        exact List.idxOf_lt_length_iff.mpr hnode)] at hu
      exact hu
    cases hv
    exact hedge u hlast

omit [DecidableEq α] in
/-- **Going on to a node** that is not visited keeps the path. -/
theorem Inv.enter (hinv : Inv adj st) (hedge : ∀ u ∈ st.stackPath.getLast?, node ∈ adj u) :
    Inv adj (st.enter node) where
  inStack x := by
    show x ∈ node :: st.inStack ↔ x ∈ st.stackPath ++ [node]
    rw [List.mem_cons, List.mem_append, List.mem_singleton, hinv.inStack, or_comm]
  visited x hx := by
    rcases List.mem_append.mp hx with hx | hx
    · exact List.mem_cons_of_mem _ (hinv.visited x hx)
    · exact List.mem_cons.mpr (.inl (List.mem_singleton.mp hx))
  path := List.isChain_append.mpr ⟨hinv.path, List.isChain_singleton _, fun u hu v hv => by
    cases hv
    exact hedge u hu⟩
  finished x hx hoff := by
    rcases List.mem_cons.mp hx with rfl | hx
    · exact absurd (List.mem_append_right _ (List.mem_singleton_self x)) hoff
    · exact hinv.finished x hx fun hmem => hoff (List.mem_append_left _ hmem)

/-- **Being done with a node**: its neighbours lead to no cycle, and so neither does it. -/
theorem Later.leave (hinv : Inv adj st) (hnode : node ∉ st.stackPath)
    (hlater : Later adj (st.enter node) st')
    (hdone : ∀ x ∈ adj node, x ∈ st'.visited ∧ x ∉ st'.stackPath) :
    Later adj st (st'.leave node) ∧ node ∈ st'.visited := by
  have hpath : (st'.leave node).stackPath = st.stackPath := by
    show st'.stackPath.dropLast = st.stackPath
    rw [hlater.stackPath]
    exact List.dropLast_concat
  have hvisited : node ∈ st'.visited := hlater.visited node List.mem_cons_self
  refine ⟨⟨⟨fun x => ?_, fun x hx => ?_, hpath ▸ hinv.path, fun x hx hoff => ?_⟩, hpath,
    fun x hx => hlater.visited x (List.mem_cons_of_mem _ hx)⟩, hvisited⟩
  · rw [hpath]
    show x ∈ st'.inStack.filter (· ≠ node) ↔ _
    rw [List.mem_filter, hlater.inv.inStack, hlater.stackPath]
    show x ∈ st.stackPath ++ [node] ∧ _ ↔ _
    rw [List.mem_append, List.mem_singleton, decide_eq_true_eq]
    constructor
    · rintro ⟨hx | hx, hne⟩
      · exact hx
      · exact absurd hx hne
    · exact fun hx => ⟨.inl hx, fun heq => hnode (heq ▸ hx)⟩
  · rw [hpath] at hx
    exact hlater.visited x (List.mem_cons_of_mem _ (hinv.visited x hx))
  · rw [hpath] at hoff
    by_cases hx' : x = node
    · rw [hx']
      exact ⟨node, fun y hy => hlater.inv.finished y (hdone y hy).1 (hdone y hy).2⟩
    · refine hlater.inv.finished x hx fun hmem => ?_
      rw [hlater.stackPath] at hmem
      rcases List.mem_append.mp hmem with hmem | hmem
      · exact hoff hmem
      · exact hx' (List.mem_singleton.mp hmem)

/-! ## The depth -/

/-- The nodes of a list that are not visited. -/
def unvisited (all visited : List α) : List α := all.filter (· ∉ visited)

theorem unvisited_length_le (all : List α) {visited visited' : List α}
    (h : ∀ x ∈ visited, x ∈ visited') :
    (unvisited all visited').length ≤ (unvisited all visited).length := by
  refine (List.monotone_filter_right all fun x hx => ?_).length_le
  rw [decide_eq_true_eq] at hx ⊢
  exact fun hmem => hx (h x hmem)

theorem unvisited_length_lt {all visited : List α} (hmem : node ∈ all) (hnew : node ∉ visited) :
    (unvisited all (node :: visited)).length < (unvisited all visited).length := by
  have hsplit : unvisited all (node :: visited) =
      (unvisited all visited).filter (· ≠ node) := by
    unfold unvisited
    rw [List.filter_filter]
    exact List.filter_congr fun x _ => by simp
  rw [hsplit]
  refine List.length_filter_lt_length_iff_exists.mpr ⟨node, ?_, by simp⟩
  exact List.mem_filter.mpr ⟨hmem, by simpa using hnew⟩

/-- **The search from a node ends**, with a cycle or with the node done, when its depth is more
than the number of nodes that are not visited. -/
theorem visit_spec (all : List α) (hall : ∀ x ∈ all, ∀ y ∈ adj x, y ∈ all) {depth : ℕ}
    (hinv : Inv adj st) (hnode : node ∈ all)
    (hedge : ∀ u ∈ st.stackPath.getLast?, node ∈ adj u)
    (hdepth : (unvisited all st.visited).length < depth) :
    ∃ result, visit adj depth node st = some result ∧ Outcome adj st [node] result := by
  induction depth generalizing node st with
  | zero => exact absurd hdepth (Nat.not_lt_zero _)
  | succ depth ih =>
    unfold visit
    by_cases hstack : node ∈ st.inStack
    · rw [if_pos hstack]
      exact ⟨_, rfl, isCycle_of_mem hinv.path hedge ((hinv.inStack node).mp hstack)⟩
    have hoff : node ∉ st.stackPath := fun h => hstack ((hinv.inStack node).mpr h)
    rw [if_neg hstack]
    by_cases hvisited : node ∈ st.visited
    · rw [if_pos hvisited]
      refine ⟨_, rfl, ⟨hinv, rfl, fun _ => id⟩, fun x hx => ?_⟩
      rw [List.mem_singleton.mp hx]
      exact ⟨hvisited, hoff⟩
    rw [if_neg hvisited]
    have hless := unvisited_length_lt hnode hvisited
    obtain ⟨result, hresult, houtcome⟩ := visitAll_spec (visit adj depth) (adj node)
      (hinv.enter hedge) fun x hx st' hlater => by
        refine ih hlater.inv (hall node hnode x hx) (fun u hu => ?_) ?_
        · -- The last node of the path is the one whose neighbours are visited.
          rw [hlater.stackPath, State.enter, List.getLast?_concat] at hu
          cases hu
          exact hx
        · have hle := unvisited_length_le all hlater.visited
          have hless' : (unvisited all (st.enter node).visited).length <
              (unvisited all st.visited).length := hless
          omega
    rw [hresult]
    obtain ⟨_ | cycle, st'⟩ := result
    · obtain ⟨hlater, hdone⟩ := houtcome
      obtain ⟨hlater', hmem⟩ := Later.leave hinv hoff hlater hdone
      refine ⟨_, rfl, hlater', fun x hx => ?_⟩
      rw [List.mem_singleton.mp hx, hlater'.stackPath]
      exact ⟨hmem, hoff⟩
    · exact ⟨_, rfl, houtcome⟩

end Search

end PulSeed.DepthFirst
