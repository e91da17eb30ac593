import Mathlib.Data.Set.Card
import Mathlib.Data.Set.Finite.Lattice
import Mathlib.Logic.Relation

/-!
# Walks along links without marks

A walk that follows the links of a node each time it meets the node, and does not mark where
it has been, meets each node once for each path to it.

- `Unfolds next queue nodes`: the nodes that are met below those of a queue, one subtree
  after the other; there are none if some path does not end.
- `dequeue`: the walk with a queue. It ends when the queue unfolds, and meets the same nodes
  in another order (`dequeue_of_unfolds`).
- `paths`: the paths from a node to the nodes that count, each by the positions of the links
  on it. **A node unfolds exactly when its paths are finitely many, and then meets as many
  nodes that count** (`unfolds_iff_paths`).
- `reach`: the nodes that are reached. Along a link from a node that is not on a cycle there
  are fewer of them (`ncard_reach_lt`), which bounds a walk along single links.
-/

namespace PulSeed

open Relation

universe u

variable {α : Type u} (next : α → List α)

/-! ## Unfolding -/

/-- The nodes met below a queue. -/
inductive Unfolds : List α → List α → Prop
  | nil : Unfolds [] []
  | cons {x : α} {queue below nodes : List α} :
      Unfolds (next x) below → Unfolds queue nodes → Unfolds (x :: queue) (x :: (below ++ nodes))

namespace Unfolds

variable {next}

theorem append {q r l k : List α} (h : Unfolds next q l) (h' : Unfolds next r k) :
    Unfolds next (q ++ r) (l ++ k) := by
  induction h with
  | nil => exact h'
  | cons hbelow _ _ ih =>
    rw [List.cons_append, List.cons_append, List.append_assoc]
    exact .cons hbelow ih

theorem single_iff {x : α} {l : List α} :
    Unfolds next [x] l ↔ ∃ below, Unfolds next (next x) below ∧ l = x :: below := by
  constructor
  · rintro (_ | ⟨hbelow, hnil⟩)
    cases hnil
    exact ⟨_, hbelow, by simp⟩
  · rintro ⟨below, hbelow, rfl⟩
    simpa using Unfolds.cons hbelow .nil

theorem of_forall {q : List α} (h : ∀ x ∈ q, ∃ l, Unfolds next [x] l) : ∃ l, Unfolds next q l := by
  induction q with
  | nil => exact ⟨[], .nil⟩
  | cons x q ih =>
    obtain ⟨l, hl⟩ := ih fun y hy => h y (List.mem_cons_of_mem x hy)
    obtain ⟨_, hx⟩ := h x List.mem_cons_self
    obtain ⟨below, hbelow, -⟩ := single_iff.mp hx
    exact ⟨_, .cons hbelow hl⟩

/-- **The nodes that are met** are those that the queue reaches. -/
theorem mem_iff {q l : List α} (h : Unfolds next q l) {y : α} :
    y ∈ l ↔ ∃ x ∈ q, ReflTransGen (fun a b => b ∈ next a) x y := by
  induction h with
  | nil => simp
  | @cons x queue below nodes _ _ ihbelow ih =>
    rw [List.mem_cons, List.mem_append, ihbelow, ih]
    constructor
    · rintro (rfl | ⟨z, hz, hpath⟩ | ⟨z, hz, hpath⟩)
      · exact ⟨y, List.mem_cons_self, .refl⟩
      · exact ⟨x, List.mem_cons_self, hpath.head hz⟩
      · exact ⟨z, List.mem_cons_of_mem x hz, hpath⟩
    · rintro ⟨z, hz, hpath⟩
      rcases List.mem_cons.mp hz with rfl | hz
      · rcases hpath.cases_head with rfl | ⟨w, hw, hpath⟩
        · exact .inl rfl
        · exact .inr (.inl ⟨w, hw, hpath⟩)
      · exact .inr (.inr ⟨z, hz, hpath⟩)

end Unfolds

/-! ## The walk with a queue -/

/-- The nodes taken from a queue, to which the links of each are added; `none` stands for a
walk of more turns. -/
def dequeue : ℕ → List α → Option (List α)
  | _, [] => some []
  | 0, _ :: _ => none
  | turns + 1, x :: queue => (dequeue turns (queue ++ next x)).map (x :: ·)

theorem dequeue_of_unfolds {n : ℕ} {queue nodes : List α} (h : Unfolds next queue nodes)
    (hn : nodes.length = n) : ∃ l, dequeue next n queue = some l ∧ l.Perm nodes := by
  induction n generalizing queue nodes with
  | zero =>
    obtain rfl := List.eq_nil_of_length_eq_zero hn
    cases h
    exact ⟨[], rfl, .refl _⟩
  | succ n ih =>
    cases h with
    | nil => exact nomatch hn
    | @cons x queue below nodes hbelow hrest =>
      have hlength : (nodes ++ below).length = n := by
        rw [List.length_cons, List.length_append] at hn
        rw [List.length_append]
        omega
      obtain ⟨l, hl, hperm⟩ := ih (hrest.append hbelow) hlength
      refine ⟨x :: l, ?_, (hperm.trans List.perm_append_comm).cons x⟩
      rw [dequeue, hl]
      rfl

/-! ## Paths -/

/-- The node at the end of a path, which is given by the positions of its links. -/
def endOf : List ℕ → α → Option α
  | [], x => some x
  | i :: path, x => (next x)[i]?.bind (endOf path)

variable (counts : α → Bool)

/-- The paths from a node to the nodes that count. -/
def paths (x : α) : Set (List ℕ) := {path | (endOf next path x).any counts = true}

/-- The paths that start with a link to one of these nodes. -/
def pathsInto (queue : List α) : Set (List ℕ) :=
  {path | ∃ i rest x, path = i :: rest ∧ queue[i]? = some x ∧ rest ∈ paths next counts x}

theorem paths_eq (x : α) : paths next counts x =
    {path | path = [] ∧ counts x = true} ∪ pathsInto next counts (next x) := by
  ext path
  cases path with
  | nil => simp [paths, endOf, pathsInto]
  | cons i rest =>
    simp only [paths, endOf, pathsInto, Set.mem_union, Set.mem_ofPred_eq, reduceCtorEq, false_and,
      false_or, List.cons.injEq, Option.any_bind]
    cases hi : (next x)[i]? with
    | none => simp [hi]
    | some y => simp [hi]

theorem pathsInto_nil : pathsInto next counts [] = ∅ := by
  ext path
  simp [pathsInto]

/-- The first of the nodes, or a later one. -/
theorem pathsInto_cons (x : α) (queue : List α) : pathsInto next counts (x :: queue) =
    (0 :: ·) '' paths next counts x ∪
      List.modifyHead (· + 1) '' pathsInto next counts queue := by
  ext path
  constructor
  · rintro ⟨i, rest, y, rfl, hy, hrest⟩
    cases i with
    | zero =>
      cases hy
      exact .inl ⟨rest, hrest, rfl⟩
    | succ i => exact .inr ⟨i :: rest, ⟨i, rest, y, rfl, hy, hrest⟩, rfl⟩
  · rintro (⟨rest, hrest, rfl⟩ | ⟨_, ⟨i, rest, y, rfl, hy, hrest⟩, rfl⟩)
    · exact ⟨0, rest, x, rfl, rfl, hrest⟩
    · exact ⟨i + 1, rest, y, rfl, hy, hrest⟩

theorem encard_pathsInto_cons (x : α) (queue : List α) :
    (pathsInto next counts (x :: queue)).encard =
      (paths next counts x).encard + (pathsInto next counts queue).encard := by
  have hshift : Function.Injective (List.modifyHead fun i : ℕ => i + 1) := by
    intro a b hab
    cases a <;> cases b <;> simp_all [List.modifyHead]
  rw [pathsInto_cons, Set.encard_union_eq, List.cons_injective.encard_image, hshift.encard_image]
  refine Set.disjoint_left.mpr ?_
  rintro _ ⟨rest, -, rfl⟩ ⟨_, ⟨i, rest', y, rfl, -⟩, hsame⟩
  exact Nat.succ_ne_zero i (List.cons.inj hsame).1

theorem encard_paths (x : α) : (paths next counts x).encard =
    (if counts x then 1 else 0) + (pathsInto next counts (next x)).encard := by
  rw [paths_eq, Set.encard_union_eq]
  · cases counts x <;> simp
  · refine Set.disjoint_left.mpr ?_
    rintro path ⟨rfl, -⟩ ⟨i, rest, y, hpath, -⟩
    exact nomatch hpath

/-- There is one path to each occurrence of a node that counts. -/
theorem Unfolds.encard_pathsInto {queue nodes : List α} (h : Unfolds next queue nodes) :
    (pathsInto next counts queue).encard = nodes.countP counts := by
  induction h with
  | nil => simp [pathsInto_nil]
  | @cons x queue below nodes _ _ ihbelow ih =>
    rw [encard_pathsInto_cons, encard_paths, ihbelow, ih, List.countP_cons, List.countP_append]
    push_cast
    rw [add_assoc, add_comm]

theorem Unfolds.encard_paths {x : α} {nodes : List α} (h : Unfolds next [x] nodes) :
    (paths next counts x).encard = nodes.countP counts := by
  have hinto := Unfolds.encard_pathsInto next counts h
  rwa [encard_pathsInto_cons, pathsInto_nil, Set.encard_empty, add_zero] at hinto

variable {counts} (hleaf : ∀ x, counts x = false → next x = [])

include hleaf

/-- When the paths have a longest one, the node unfolds. -/
theorem unfolds_of_bounded {n : ℕ} {x : α} (hn : ∀ path ∈ paths next counts x, path.length < n) :
    ∃ nodes, Unfolds next [x] nodes := by
  induction n generalizing x with
  | zero =>
    have hx : counts x = false := by
      refine Bool.eq_false_of_not_eq_true fun hx => ?_
      exact Nat.not_lt_zero _ (hn [] hx)
    have hnext : Unfolds next (next x) [] := by
      rw [hleaf x hx]
      exact .nil
    exact ⟨[x], Unfolds.single_iff.mpr ⟨[], hnext, rfl⟩⟩
  | succ n ih =>
    have hchildren : ∃ below, Unfolds next (next x) below := by
      refine Unfolds.of_forall fun y hy => ih fun path hpath => ?_
      obtain ⟨i, hi⟩ := List.getElem?_of_mem hy
      have hlong := hn (i :: path) (by
        rw [paths_eq]
        exact .inr ⟨i, path, y, rfl, hi, hpath⟩)
      exact Nat.lt_of_succ_lt_succ hlong
    obtain ⟨below, hbelow⟩ := hchildren
    exact ⟨_, Unfolds.single_iff.mpr ⟨below, hbelow, rfl⟩⟩

/-- **A node unfolds exactly when its paths are finitely many**, and then meets as many nodes
that count. -/
theorem unfolds_iff_paths {n : ℕ} {x : α} :
    (∃ nodes, Unfolds next [x] nodes ∧ nodes.countP counts ≤ n) ↔
      (paths next counts x).encard ≤ n := by
  constructor
  · rintro ⟨nodes, hnodes, hn⟩
    rw [Unfolds.encard_paths next counts hnodes]
    exact_mod_cast hn
  · intro hn
    have hfinite : (paths next counts x).Finite := Set.finite_of_encard_le_coe hn
    obtain ⟨longest, hlongest⟩ := (hfinite.image List.length).bddAbove
    obtain ⟨nodes, hnodes⟩ := unfolds_of_bounded next hleaf fun path hpath =>
      Nat.lt_succ_of_le (hlongest ⟨path, hpath, rfl⟩)
    rw [Unfolds.encard_paths next counts hnodes] at hn
    exact ⟨nodes, hnodes, by exact_mod_cast hn⟩

omit hleaf

/-! ## Reaching -/

/-- The nodes of a set that a node reaches. -/
def reach (r : α → α → Prop) (s : Set α) (x : α) : Set α := {y ∈ s | ReflTransGen r x y}

/-- **Along a link that is not on a cycle** fewer nodes are reached. -/
theorem ncard_reach_lt {r : α → α → Prop} {s : Set α} (hs : s.Finite) {x y : α} (hx : x ∈ s)
    (hxy : r x y) (hcycle : ¬TransGen r x x) : (reach r s y).ncard < (reach r s x).ncard := by
  refine Set.ncard_lt_ncard ?_ (hs.subset fun z hz => hz.1)
  refine ⟨fun z hz => ⟨hz.1, hz.2.head hxy⟩, fun hback => ?_⟩
  have hyx := (hback ⟨hx, .refl⟩).2
  exact hcycle (.head' hxy hyx)

end PulSeed
