import PulSeed.Lib.Layers
import Mathlib.Data.List.Perm.Subperm
import Mathlib.Data.List.Sort
import Mathlib.Logic.Function.Basic

/-!
# Ordering by counting in-degrees

Kahn's algorithm: each node has the number of its prerequisites that are not taken yet, and those
with none wait in a queue. A round takes the first node of the queue, counts it off at the nodes
that require it, and adds those that have none left. The queue may be put in any order in between.

- `loop`: the rounds, for a graph given by its edges, with repetitions.
- `Inv`: what holds between two rounds, and `Counting` while a node is counted off.
- `loop_spec`: **the order has, once each and after all they require, the nodes that require
  nothing but nodes of the order**, and so (`Ordering.mem_iff_acc`) those that require no cycle.
- `loop_filter`: with a sorted queue, the nodes that require nothing come in sorted order.
-/

namespace PulSeed.Kahn

open Relation Layers

universe u

variable {α : Type u} [DecidableEq α]

/-! ## The algorithm -/

/-- The counts of prerequisites that are left, and the nodes that have none. -/
structure State (α : Type u) where
  inDegree : α → ℤ
  queue : List α

/-- A prerequisite of a node is counted off. -/
def release (sort : List α → List α) (st : State α) (neighbor : α) : State α where
  inDegree := Function.update st.inDegree neighbor (st.inDegree neighbor - 1)
  queue :=
    if st.inDegree neighbor - 1 = 0 then sort (st.queue ++ [neighbor])
    else st.queue

/-- The rounds, from the nodes taken so far; `none` when the rounds are used up. -/
def loop (adj : α → List α) (sort : List α → List α) :
    ℕ → State α → List α → Option (List α)
  | _, ⟨_, []⟩, result => some result
  | 0, ⟨_, _ :: _⟩, _ => none
  | rounds + 1, ⟨inDegree, node :: queue⟩, result =>
    loop adj sort rounds ((adj node).foldl (release sort) ⟨inDegree, queue⟩) (result ++ [node])

/-! ## The edges -/

/-- The nodes that require a node, as often as they do. -/
def dependents (edges : List (α × α)) (node : α) : List α :=
  (edges.filter fun e => e.1 = node).map Prod.snd

/-- How many prerequisites of a node are not taken. -/
def waiting (edges : List (α × α)) (result : List α) (x : α) : ℕ :=
  edges.countP fun e => e.2 = x ∧ e.1 ∉ result

section Edges

variable {edges : List (α × α)} {nodes result queue : List α} {node x y : α}

theorem mem_dependents : x ∈ dependents edges node ↔ (node, x) ∈ edges := by
  unfold dependents
  rw [List.mem_map]
  constructor
  · rintro ⟨⟨y, z⟩, he, rfl⟩
    obtain ⟨hmem, hy⟩ := List.mem_filter.mp he
    obtain rfl : y = node := by simpa using hy
    exact hmem
  · exact fun he => ⟨(node, x), List.mem_filter.mpr ⟨he, by simp⟩, rfl⟩

theorem waiting_eq_zero_iff :
    waiting edges result x = 0 ↔ ∀ y, (y, x) ∈ edges → y ∈ result := by
  unfold waiting
  rw [List.countP_eq_zero]
  constructor
  · intro h y he
    by_contra hy
    exact h (y, x) he (by simpa using hy)
  · rintro h ⟨y, z⟩ he hz
    obtain ⟨rfl, hy⟩ : z = x ∧ y ∉ result := by simpa using hz
    exact hy (h y he)

/-- Taking a node is counted off at the nodes that require it, as often as they do. -/
theorem waiting_concat (hnode : node ∉ result) :
    waiting edges result x =
      waiting edges (result ++ [node]) x + (dependents edges node).count x := by
  unfold waiting dependents
  induction edges with
  | nil => rfl
  | cons e edges ih =>
    rw [List.countP_cons, List.countP_cons, ih, List.filter_cons]
    by_cases hfrom : e.1 = node
    · have hnew : e.1 ∈ result ++ [node] := by simp [hfrom]
      by_cases hto : e.2 = x
      · simp [hto, hfrom, hnode]
        omega
      · simp [hto, hfrom]
    · have hsame : e.1 ∈ result ++ [node] ↔ e.1 ∈ result := by simp [hfrom]
      simp only [hsame, hfrom, decide_false, Bool.false_eq_true, if_false]
      omega

end Edges

/-! ## Counting a node off -/

/-- While a node is counted off: the counts still have the nodes that are not reached yet, and the
nodes that are taken or in the queue are those with nothing left. -/
structure Counting (edges : List (α × α)) (nodes result rest : List α) (st : State α) : Prop where
  nodup : (result ++ st.queue).Nodup
  inside : ∀ x ∈ result ++ st.queue, x ∈ nodes
  degree : ∀ x, st.inDegree x = (waiting edges result x + rest.count x : ℕ)
  ready : ∀ x ∈ nodes, x ∈ result ++ st.queue ↔ st.inDegree x = 0

section Counting

variable {edges : List (α × α)} {nodes result rest : List α} {st : State α} {node : α}
  {sort : List α → List α}

theorem Counting.release (hsort : ∀ l, (sort l).Perm l) (hnode : node ∈ nodes)
    (h : Counting edges nodes result (node :: rest) st) :
    Counting edges nodes result rest (release sort st node) := by
  have hdegree : st.inDegree node - 1 = (waiting edges result node + rest.count node : ℕ) := by
    rw [h.degree, List.count_cons_self]
    omega
  -- The node is counted at least once more, so that it is not in the queue yet.
  have hfresh : node ∉ result ++ st.queue := by
    rw [h.ready node hnode]
    omega
  have hcount : ∀ x, (Kahn.release sort st node).inDegree x =
      (waiting edges result x + rest.count x : ℕ) := by
    intro x
    show Function.update st.inDegree node _ x = _
    by_cases hx : x = node
    · rw [hx, Function.update_self, hdegree]
    · rw [Function.update_of_ne hx, h.degree, List.count_cons_of_ne (Ne.symm hx)]
  by_cases hzero : st.inDegree node - 1 = 0
  · have hqueue : (result ++ (Kahn.release sort st node).queue).Perm
        (node :: (result ++ st.queue)) := by
      show (result ++ if st.inDegree node - 1 = 0 then _ else _).Perm _
      rw [if_pos hzero]
      refine ((hsort _).append_left result).trans ?_
      rw [← List.append_assoc]
      exact List.perm_append_singleton node _
    refine ⟨hqueue.nodup_iff.mpr (List.nodup_cons.mpr ⟨hfresh, h.nodup⟩), fun x hx => ?_, hcount,
      fun x hx => ?_⟩
    · rcases List.mem_cons.mp (hqueue.mem_iff.mp hx) with rfl | hx
      · exact hnode
      · exact h.inside x hx
    · rw [hqueue.mem_iff, List.mem_cons]
      by_cases hxn : x = node
      · rw [hcount, hxn, ← hdegree]
        exact iff_of_true (.inl rfl) hzero
      · rw [or_iff_right hxn, h.ready x hx, hcount, h.degree,
          List.count_cons_of_ne (Ne.symm hxn)]
  · have hqueue : (Kahn.release sort st node).queue = st.queue := if_neg hzero
    refine ⟨hqueue ▸ h.nodup, hqueue ▸ h.inside, hcount, fun x hx => ?_⟩
    rw [hqueue]
    by_cases hxn : x = node
    · rw [hcount, hxn, ← hdegree]
      exact iff_of_false hfresh hzero
    · rw [h.ready x hx, hcount, h.degree, List.count_cons_of_ne (Ne.symm hxn)]

/-- **A node is counted off** at all that require it. -/
theorem Counting.foldl (hsort : ∀ l, (sort l).Perm l) (hrest : ∀ x ∈ rest, x ∈ nodes)
    (h : Counting edges nodes result rest st) :
    Counting edges nodes result [] (rest.foldl (Kahn.release sort) st) := by
  induction rest generalizing st with
  | nil => exact h
  | cons node rest ih =>
    exact ih (fun x hx => hrest x (List.mem_cons_of_mem _ hx))
      (h.release hsort (hrest node List.mem_cons_self))

end Counting

/-! ## The rounds -/

/-- Each node of the order comes after all that it requires. -/
def Ordered (edges : List (α × α)) (order : List α) : Prop :=
  ∀ before x after, order = before ++ x :: after → ∀ y, (y, x) ∈ edges → y ∈ before

/-- What holds between two rounds. -/
structure Inv (edges : List (α × α)) (nodes result : List α) (st : State α) : Prop where
  counting : Counting edges nodes result [] st
  ordered : Ordered edges result

/-- The order that the rounds end with. -/
structure Ordering (edges : List (α × α)) (nodes order : List α) : Prop where
  nodup : order.Nodup
  ordered : Ordered edges order
  mem_iff : ∀ x, x ∈ order ↔ x ∈ nodes ∧ ∀ y, (y, x) ∈ edges → y ∈ order

section Rounds

variable {edges : List (α × α)} {nodes result queue order : List α} {st : State α}
  {inDegree : α → ℤ} {node x : α} {sort : List α → List α} {rounds : ℕ}

omit [DecidableEq α] in
theorem Ordered.concat (h : Ordered edges result) (hnode : ∀ y, (y, node) ∈ edges → y ∈ result) :
    Ordered edges (result ++ [node]) := by
  intro before x after heq y hy
  rcases List.eq_nil_or_concat after with rfl | ⟨after, last, rfl⟩
  · obtain ⟨rfl, hx⟩ := List.append_inj' heq rfl
    obtain rfl : node = x := by simpa using hx
    exact hnode y hy
  · rw [List.concat_eq_append, ← List.cons_append, ← List.append_assoc] at heq
    exact h before x after (List.append_inj' heq rfl).1 y hy

/-- **A round** takes the first node of the queue. -/
theorem Inv.round (hsort : ∀ l, (sort l).Perm l) (hedges : ∀ e ∈ edges, e.2 ∈ nodes)
    (h : Inv edges nodes result ⟨inDegree, node :: queue⟩) :
    Inv edges nodes (result ++ [node])
      ((dependents edges node).foldl (release sort) ⟨inDegree, queue⟩) := by
  have hnode : node ∈ nodes := h.counting.inside node (by simp)
  have hzero : inDegree node = 0 := (h.counting.ready node hnode).mp (by simp)
  have hrequired : ∀ y, (y, node) ∈ edges → y ∈ result := by
    rw [← waiting_eq_zero_iff]
    have hdegree := h.counting.degree node
    rw [List.count_nil] at hdegree
    have : (waiting edges result node : ℤ) = 0 := by
      rw [← hzero]
      exact hdegree.symm
    exact_mod_cast this
  have hsplit : result ++ node :: queue = (result ++ [node]) ++ queue := by simp
  have hnew : node ∉ result := fun hmem =>
    List.disjoint_of_nodup_append h.counting.nodup hmem List.mem_cons_self
  refine ⟨Counting.foldl hsort (fun x hx => hedges _ (mem_dependents.mp hx)) ⟨?_, ?_, ?_, ?_⟩,
    h.ordered.concat hrequired⟩
  · exact hsplit ▸ h.counting.nodup
  · exact fun x hx => h.counting.inside x (hsplit ▸ hx)
  · intro x
    rw [← waiting_concat hnew]
    exact h.counting.degree x
  · intro x hx
    rw [← hsplit]
    exact h.counting.ready x hx

theorem Inv.ordering (h : Inv edges nodes result ⟨inDegree, []⟩) : Ordering edges nodes result := by
  have hmem : result ++ [] = result := List.append_nil result
  refine ⟨hmem ▸ h.counting.nodup, h.ordered, fun x => ?_⟩
  have hzero : inDegree x = 0 ↔ ∀ y, (y, x) ∈ edges → y ∈ result := by
    have hdegree : inDegree x = (waiting edges result x + [].count x : ℕ) := h.counting.degree x
    rw [← waiting_eq_zero_iff, hdegree, List.count_nil]
    exact Int.natCast_eq_zero
  rw [← hzero]
  constructor
  · intro hx
    have hx' : x ∈ nodes := h.counting.inside x (hmem.symm ▸ hx)
    exact ⟨hx', (h.counting.ready x hx').mp (hmem.symm ▸ hx)⟩
  · rintro ⟨hx, hdegree⟩
    exact hmem ▸ (h.counting.ready x hx).mpr hdegree

/-- **The rounds end with an order**, when there are as many as nodes. -/
theorem loop_spec (hsort : ∀ l, (sort l).Perm l) (hedges : ∀ e ∈ edges, e.2 ∈ nodes)
    (h : Inv edges nodes result st) (hrounds : nodes.length ≤ result.length + rounds) :
    ∃ order, loop (dependents edges) sort rounds st result = some order ∧
      Ordering edges nodes order := by
  induction rounds generalizing result st with
  | zero =>
    obtain ⟨inDegree, _ | ⟨node, queue⟩⟩ := st
    · exact ⟨result, rfl, h.ordering⟩
    · -- The nodes are all taken, and the queue has none that is.
      have hlength := (h.counting.nodup.subperm fun x hx => h.counting.inside x hx).length_le
      rw [List.length_append, List.length_cons] at hlength
      omega
  | succ rounds ih =>
    obtain ⟨inDegree, _ | ⟨node, queue⟩⟩ := st
    · exact ⟨result, rfl, h.ordering⟩
    · refine ih (h.round hsort hedges) ?_
      rw [List.length_append, List.length_singleton]
      omega

/-! ## What the order has -/

omit [DecidableEq α] in
theorem Ordering.acc (h : Ordering edges nodes order) (hx : x ∈ order) :
    Acc (fun y x => (y, x) ∈ edges) x := by
  have hfirst : ∀ n before rest, order = before ++ rest → before.length = n →
      ∀ x ∈ before, Acc (fun y x => (y, x) ∈ edges) x := by
    intro n
    induction n with
    | zero =>
      intro before rest _ hlength x hx
      rw [List.length_eq_zero_iff.mp hlength] at hx
      exact absurd hx (List.not_mem_nil)
    | succ n ih =>
      intro before rest heq hlength x hx
      rcases List.eq_nil_or_concat before with rfl | ⟨before, last, rfl⟩
      · exact absurd hx (List.not_mem_nil)
      rw [List.concat_eq_append, List.append_assoc] at heq
      have hbefore := ih before _ heq (by simpa using hlength)
      rw [List.concat_eq_append, List.mem_append, List.mem_singleton] at hx
      rcases hx with hx | rfl
      · exact hbefore x hx
      · exact ⟨x, fun y hy => hbefore y (h.ordered before x rest heq y hy)⟩
  exact hfirst _ order [] (List.append_nil order).symm rfl x hx

omit [DecidableEq α] in
/-- **The order has the nodes that are accessible**, and so those that require no cycle. -/
theorem Ordering.mem_iff_acc (h : Ordering edges nodes order) (hedges : ∀ e ∈ edges, e.1 ∈ nodes) :
    x ∈ order ↔ x ∈ nodes ∧ Acc (fun y x => (y, x) ∈ edges) x := by
  constructor
  · exact fun hx => ⟨((h.mem_iff x).mp hx).1, h.acc hx⟩
  · rintro ⟨hx, hacc⟩
    induction hacc with
    | intro x _ ih => exact (h.mem_iff x).mpr ⟨hx, fun y hy => ih y hy (hedges (y, x) hy)⟩

end Rounds

/-! ## A sorted queue -/

section Sorted

variable {le : α → α → Prop} [DecidableRel le] [Std.Total le] [IsTrans α le] [Std.Antisymm le]
  {p : α → Prop} [DecidablePred p] {queue nodes result order : List α} {st : State α} {x : α}
  {adj : α → List α} {rounds : ℕ}

omit [DecidableEq α] in
/-- A new node leaves the others of a sorted queue in their order. -/
theorem filter_insertionSort_concat (hqueue : queue.Pairwise le) (hx : ¬ p x) :
    ((queue ++ [x]).insertionSort le).filter p = queue.filter p := by
  have hperm : (((queue ++ [x]).insertionSort le).filter p).Perm (queue.filter p) := by
    refine ((List.perm_insertionSort le _).filter _).trans (.of_eq ?_)
    rw [List.filter_append, List.filter_singleton]
    simp [hx]
  exact hperm.eq_of_pairwise (fun a b _ _ hab hba => antisymm hab hba)
    ((List.pairwise_insertionSort le _).filter _) (hqueue.filter _)

/-- Counting off nodes that a test does not find leaves those that it finds as they are. -/
theorem foldl_release_filter (st : State α) (hnodes : ∀ y ∈ nodes, ¬ p y) (hqueue : st.queue.Pairwise le) :
    (nodes.foldl (release (List.insertionSort le)) st).queue.Pairwise le ∧
      (nodes.foldl (release (List.insertionSort le)) st).queue.filter p = st.queue.filter p := by
  induction nodes generalizing st with
  | nil => exact ⟨hqueue, rfl⟩
  | cons y nodes ih =>
    have hone : (release (List.insertionSort le) st y).queue.Pairwise le ∧
        (release (List.insertionSort le) st y).queue.filter p = st.queue.filter p := by
      unfold release
      dsimp only
      split
      · exact ⟨List.pairwise_insertionSort le _,
          filter_insertionSort_concat hqueue (hnodes y List.mem_cons_self)⟩
      · exact ⟨hqueue, rfl⟩
    obtain ⟨hsorted, hfilter⟩ := ih _ (fun z hz => hnodes z (List.mem_cons_of_mem _ hz)) hone.1
    exact ⟨hsorted, hfilter.trans hone.2⟩

/-- **The nodes that require nothing** come in the order of the queue that the rounds start
with. -/
theorem loop_filter (hp : ∀ x, ∀ y ∈ adj x, ¬ p y) (hqueue : st.queue.Pairwise le)
    (h : loop adj (List.insertionSort le) rounds st result = some order) :
    order.filter p = (result ++ st.queue).filter p := by
  induction rounds generalizing result st with
  | zero =>
    obtain ⟨inDegree, _ | ⟨node, queue⟩⟩ := st
    · cases h
      rw [List.append_nil]
    · cases h
  | succ rounds ih =>
    obtain ⟨inDegree, _ | ⟨node, queue⟩⟩ := st
    · cases h
      rw [List.append_nil]
    · obtain ⟨hsorted, hfilter⟩ :=
        foldl_release_filter ⟨inDegree, queue⟩ (hp node) (List.pairwise_cons.mp hqueue).2
      rw [ih hsorted h, List.filter_append, hfilter, ← List.filter_append, List.append_assoc]
      rfl

end Sorted

end PulSeed.Kahn
