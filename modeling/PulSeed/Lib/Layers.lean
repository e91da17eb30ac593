import PulSeed.Lib.Digraph

/-!
# Layers of a dependency relation

The nodes of a list are taken in layers: first those that depend on nothing, then those that
depend on nodes of earlier layers alone. What is left when a layer would be empty is taken at
once. A node that depends on something outside the list is never ready, and neither is what
depends on such a node.

- `Settled`, `settled_iff`: what is in the first layers, by the length of its dependency chains.
- `layersFrom`: the layers, with `layersFrom_perm` (each node is in one of them),
  `layersFrom_order` (what a settled node depends on is in an earlier one) and
  `layersFrom_inside_iff` (when dependencies outside the list change nothing).
-/

namespace PulSeed.Layers

open Relation

universe u

variable {α : Type u}

/-! ## Chains -/

/-- There are `n` dependencies in a row that end at a node. -/
def Chain (r : α → α → Prop) : ℕ → α → Prop
  | 0, _ => True
  | n + 1, x => ∃ y, r y x ∧ Chain r n y

theorem Chain.pred {r : α → α → Prop} {n : ℕ} {x : α} (h : Chain r (n + 1) x) : Chain r n x := by
  induction n generalizing x with
  | zero => trivial
  | succ n ih =>
    obtain ⟨y, hyx, hy⟩ := h
    exact ⟨y, hyx, ih hy⟩

theorem Chain.mono {r : α → α → Prop} {m n : ℕ} {x : α} (h : Chain r n x) (hle : m ≤ n) :
    Chain r m x := by
  induction n, hle using Nat.le_induction with
  | base => exact h
  | succ n _ ih => exact ih h.pred

/-- A chain as the list of its nodes. -/
theorem chain_iff_list {r : α → α → Prop} {n : ℕ} {x : α} :
    Chain r n x ↔ ∃ nodes : List α, nodes.IsChain r ∧ nodes.getLast? = some x ∧
      nodes.length = n + 1 := by
  induction n generalizing x with
  | zero =>
    refine iff_of_true trivial ⟨[x], List.isChain_singleton x, rfl, rfl⟩
  | succ n ih =>
    constructor
    · rintro ⟨y, hyx, hy⟩
      obtain ⟨nodes, hchain, hlast, hlength⟩ := ih.mp hy
      refine ⟨nodes ++ [x], List.isChain_append.mpr ⟨hchain, List.isChain_singleton x, ?_⟩,
        by simp, by simp [hlength]⟩
      intro a ha b hb
      rw [hlast, Option.mem_some_iff] at ha
      rw [List.head?_singleton, Option.mem_some_iff] at hb
      exact ha ▸ hb ▸ hyx
    · rintro ⟨nodes, hchain, hlast, hlength⟩
      obtain ⟨front, rfl⟩ := List.getLast?_eq_some_iff.mp hlast
      rw [List.length_append, List.length_singleton, Nat.add_right_cancel_iff] at hlength
      have hne : front ≠ [] := by
        rintro rfl
        cases hlength
      obtain ⟨hfront, -, hlink⟩ := List.isChain_append.mp hchain
      exact ⟨front.getLast hne, hlink _ (List.getLast?_eq_some_getLast hne) _ rfl,
        ih.mpr ⟨front, hfront, List.getLast?_eq_some_getLast hne, hlength⟩⟩

/-- The longest chain that ends at a node. -/
structure Height (r : α → α → Prop) (x : α) (n : ℕ) : Prop where
  chain : Chain r n x
  longest : ¬ Chain r (n + 1) x

theorem Height.le {r : α → α → Prop} {x : α} {m n : ℕ} (h : Height r x n) (hm : Chain r m x) :
    m ≤ n := by
  by_contra hlt
  exact h.longest (hm.mono (by omega))

theorem Height.unique {r : α → α → Prop} {x : α} {m n : ℕ} (h : Height r x n)
    (h' : Height r x m) : m = n :=
  le_antisymm (h.le h'.chain) (h'.le h.chain)

/-- A node is on a cycle or downstream of one. -/
def AfterCycle (r : α → α → Prop) (x : α) : Prop := ∃ y, TransGen r y y ∧ ReflTransGen r y x

/-- Where each node of a list has a property from some number on, all of them have it from some
number on. -/
theorem exists_common {P : ℕ → α → Prop} (hmono : ∀ n x, P n x → P (n + 1) x) (xs : List α)
    (h : ∀ x ∈ xs, ∃ n, P n x) : ∃ n, ∀ x ∈ xs, P n x := by
  have hle : ∀ m n x, m ≤ n → P m x → P n x := by
    intro m n x hmn hm
    induction n, hmn using Nat.le_induction with
    | base => exact hm
    | succ n _ ih => exact hmono n x ih
  induction xs with
  | nil => exact ⟨0, fun x hx => absurd hx (List.not_mem_nil)⟩
  | cons x xs ih =>
    obtain ⟨n, hn⟩ := h x List.mem_cons_self
    obtain ⟨m, hm⟩ := ih fun y hy => h y (List.mem_cons_of_mem _ hy)
    refine ⟨max n m, fun y hy => ?_⟩
    rcases List.mem_cons.mp hy with rfl | hy
    · exact hle _ _ _ (le_max_left _ _) hn
    · exact hle _ _ _ (le_max_right _ _) (hm y hy)

theorem chain_of_cycle {r : α → α → Prop} {y : α} (hcycle : TransGen r y y) (n : ℕ) {x : α}
    (hyx : TransGen r y x) : Chain r n x := by
  induction n generalizing x with
  | zero => trivial
  | succ n ih =>
    obtain ⟨z, hyz, hzx⟩ := TransGen.tail'_iff.mp hyx
    rcases reflTransGen_iff_eq_or_transGen.mp hyz with rfl | hyz
    · exact ⟨z, hzx, ih hcycle⟩
    · exact ⟨z, hzx, ih hyz⟩

/-- The dependencies that lead to a node that is not after a cycle are well founded. -/
theorem wellFounded_of_not_afterCycle {r : α → α → Prop} {nodes : List α}
    (hr : ∀ x y, r x y → x ∈ nodes) {x : α} (hno : ¬ AfterCycle r x) :
    WellFounded fun u v => r u v ∧ ReflTransGen r v x := by
  have hacyclic : Acyclic fun u v => r u v ∧ ReflTransGen r v x := by
    intro y hy
    refine hno ⟨y, TransGen.mono (fun _ _ h => h.1) _ _ hy, ?_⟩
    obtain ⟨z, -, hzy⟩ := TransGen.tail'_iff.mp hy
    exact hzy.2
  refine hacyclic.wellFounded (s := {y | y ∈ x :: nodes}) (List.finite_toSet _) ?_
  rintro u v ⟨huv, hvx⟩
  refine ⟨List.mem_cons_of_mem _ (hr u v huv), ?_⟩
  rcases ReflTransGen.cases_head hvx with rfl | ⟨w, hvw, -⟩
  · exact List.mem_cons_self
  · exact List.mem_cons_of_mem _ (hr v w hvw)

/-- **The nodes with chains of every length** are those on a cycle or downstream of one. -/
theorem afterCycle_iff {r : α → α → Prop} {nodes : List α} (hr : ∀ x y, r x y → x ∈ nodes)
    (x : α) : AfterCycle r x ↔ ∀ n, Chain r n x := by
  constructor
  · rintro ⟨y, hcycle, hyx⟩ n
    exact chain_of_cycle hcycle n (hcycle.trans_left hyx)
  · intro hchain
    by_contra hno
    -- The dependencies that lead to the node are acyclic, and chains to them are bounded.
    have hwf := wellFounded_of_not_afterCycle hr hno
    have hbounded : ∀ v, ReflTransGen r v x → ∃ n, ¬ Chain r n v := by
      intro v
      induction v using hwf.induction with
      | _ v ih =>
        intro hvx
        obtain ⟨n, hn⟩ := exists_common (P := fun n u => r u v → ¬ Chain r n u)
          (fun n u h huv hchain => h huv hchain.pred) nodes fun u hu => by
            by_cases huv : r u v
            · obtain ⟨n, hn⟩ := ih u ⟨huv, hvx⟩ (.head huv hvx)
              exact ⟨n, fun _ => hn⟩
            · exact ⟨0, fun h => absurd h huv⟩
        exact ⟨n + 1, fun ⟨u, huv, hu⟩ => hn u (hr u v huv) huv hu⟩
    obtain ⟨n, hn⟩ := hbounded x .refl
    exact hn (hchain n)

/-- **The accessible nodes** are those that are not after a cycle. -/
theorem acc_iff_not_afterCycle {r : α → α → Prop} {nodes : List α}
    (hr : ∀ x y, r x y → x ∈ nodes) {x : α} : Acc r x ↔ ¬ AfterCycle r x := by
  constructor
  · rintro hacc ⟨y, hcycle, hyx⟩
    refine not_acc_of_cycle hcycle ?_
    clear hcycle
    induction hyx with
    | refl => exact hacc
    | tail _ hstep ih => exact ih (hacc.inv hstep)
  · intro hno
    have hwf := wellFounded_of_not_afterCycle hr hno
    have hall : ∀ v, ReflTransGen r v x → Acc r v := by
      intro v
      induction v using hwf.induction with
      | _ v ih => exact fun hvx => ⟨v, fun u huv => ih u ⟨huv, hvx⟩ (.head huv hvx)⟩
    exact hall x .refl

/-! ## What is settled -/

/-- The dependencies among the nodes of a list. -/
def Inside (r : α → α → Prop) (nodes : List α) (y x : α) : Prop := y ∈ nodes ∧ r y x

/-- A node depends, through others or not, on something outside the list. -/
inductive Stranded (r : α → α → Prop) (nodes : List α) : α → Prop
  | outside {y x : α} : r y x → y ∉ nodes → Stranded r nodes x
  | after {y x : α} : r y x → y ∈ nodes → Stranded r nodes y → Stranded r nodes x

/-- The nodes of the first `n` layers. -/
def Settled (r : α → α → Prop) (nodes : List α) : ℕ → α → Prop
  | 0, _ => False
  | n + 1, x => ∀ y, r y x → y ∈ nodes ∧ Settled r nodes n y

section Settled

variable {r : α → α → Prop} {nodes : List α} {n : ℕ} {x : α}

theorem Settled.succ (h : Settled r nodes n x) : Settled r nodes (n + 1) x := by
  induction n generalizing x with
  | zero => exact h.elim
  | succ n ih => exact fun y hyx => ⟨(h y hyx).1, ih (h y hyx).2⟩

theorem Settled.mono {m : ℕ} (h : Settled r nodes m x) (hle : m ≤ n) : Settled r nodes n x := by
  induction n, hle using Nat.le_induction with
  | base => exact h
  | succ n _ ih => exact ih.succ

/-- Where a layer is empty, so are all that follow. -/
theorem Settled.of_stable {m : ℕ}
    (hstable : ∀ y ∈ nodes, Settled r nodes (m + 1) y → Settled r nodes m y)
    (h : Settled r nodes n x) (hx : x ∈ nodes) : Settled r nodes m x := by
  induction n generalizing x with
  | zero => exact h.elim
  | succ n ih => exact hstable x hx fun y hyx => ⟨(h y hyx).1, ih (h y hyx).2 (h y hyx).1⟩

/-- **What is in the first `n` layers**: what depends on nothing outside the list, and has no
chain of `n` dependencies. -/
theorem settled_iff :
    Settled r nodes n x ↔ ¬ Chain (Inside r nodes) n x ∧ (n = 0 ∨ ¬ Stranded r nodes x) := by
  induction n generalizing x with
  | zero => exact iff_of_false id fun h => h.1 trivial
  | succ n ih =>
    constructor
    · intro h
      refine ⟨?_, .inr ?_⟩
      · rintro ⟨y, ⟨-, hyx⟩, hy⟩
        exact (ih.mp (h y hyx).2).1 hy
      · rintro (⟨hyx, hout⟩ | ⟨hyx, -, hy⟩)
        · exact hout (h _ hyx).1
        · rcases (ih.mp (h _ hyx).2).2 with rfl | hnot
          · exact (h _ hyx).2
          · exact hnot hy
    · rintro ⟨hchain, hzero | hstranded⟩ y hyx
      · exact absurd hzero (Nat.succ_ne_zero n)
      have hy : y ∈ nodes := by
        by_contra hout
        exact hstranded (.outside hyx hout)
      refine ⟨hy, ih.mpr ⟨fun h => hchain ⟨y, ⟨hy, hyx⟩, h⟩, .inr fun h => ?_⟩⟩
      exact hstranded (.after hyx hy h)

/-- Without the dependencies outside the list, only the chains count. -/
theorem settled_inside_iff :
    Settled (Inside r nodes) nodes n x ↔ ¬ Chain (Inside r nodes) n x := by
  induction n generalizing x with
  | zero => exact iff_of_false id fun h => h trivial
  | succ n ih =>
    constructor
    · rintro h ⟨y, hyx, hy⟩
      exact ih.mp (h y hyx).2 hy
    · exact fun h y hyx => ⟨hyx.1, ih.mpr fun hy => h ⟨y, hyx, hy⟩⟩

/-- Without dependencies outside the list, the chains alone decide. -/
theorem settled_iff_chain (hr : ∀ x y, r x y → x ∈ nodes) :
    Settled r nodes n x ↔ ¬ Chain r n x := by
  have hinside : Inside r nodes = r :=
    funext fun y => funext fun x => propext ⟨fun h => h.2, fun h => ⟨hr y x h, h⟩⟩
  have hiff : Settled (Inside r nodes) nodes n x ↔ ¬ Chain (Inside r nodes) n x :=
    settled_inside_iff
  rwa [hinside] at hiff

theorem settled_iff_inside :
    Settled r nodes n x ↔ Settled (Inside r nodes) nodes n x ∧ ¬ Stranded r nodes x := by
  rw [settled_iff, settled_inside_iff]
  refine and_congr_right fun hchain => ?_
  cases n with
  | zero => exact absurd trivial hchain
  | succ n => simp

end Settled

/-! ## The layers -/

section Layers

open Classical

/-- What is not in the first `n` layers. -/
noncomputable def leftAt (settled : ℕ → α → Prop) (nodes : List α) (n : ℕ) : List α :=
  nodes.filter fun x => ¬ settled n x

/-- The layer after the first `n`. -/
noncomputable def layerAt (settled : ℕ → α → Prop) (nodes : List α) (n : ℕ) : List α :=
  (leftAt settled nodes n).filter fun x => settled (n + 1) x

/-- The layers after the first `n`, at most so many. What is left when a layer would be empty is
the last one. -/
noncomputable def layersFrom (settled : ℕ → α → Prop) (nodes : List α) :
    ℕ → ℕ → List (List α)
  | 0, _ => []
  | turns + 1, n =>
    if leftAt settled nodes n = [] then []
    else if layerAt settled nodes n = [] then [leftAt settled nodes n]
    else layerAt settled nodes n :: layersFrom settled nodes turns (n + 1)

variable {settled settled' : ℕ → α → Prop} {r : α → α → Prop} {nodes : List α} {turns n : ℕ}
  {x : α}

@[simp] theorem mem_leftAt : x ∈ leftAt settled nodes n ↔ x ∈ nodes ∧ ¬ settled n x := by
  simp [leftAt]

@[simp] theorem mem_layerAt :
    x ∈ layerAt settled nodes n ↔ x ∈ nodes ∧ ¬ settled n x ∧ settled (n + 1) x := by
  simp [layerAt, and_assoc]

theorem leftAt_congr (h : ∀ x ∈ nodes, settled n x ↔ settled' n x) :
    leftAt settled nodes n = leftAt settled' nodes n :=
  List.filter_congr fun x hx => by rw [h x hx]

theorem layerAt_congr (h : ∀ x ∈ nodes, settled n x ↔ settled' n x)
    (hnext : ∀ x ∈ nodes, settled (n + 1) x ↔ settled' (n + 1) x) :
    layerAt settled nodes n = layerAt settled' nodes n := by
  unfold layerAt
  rw [leftAt_congr h]
  refine List.filter_congr fun x hx => ?_
  rw [hnext x (mem_leftAt.mp hx).1]

theorem layersFrom_congr (h : ∀ n, ∀ x ∈ nodes, settled n x ↔ settled' n x) :
    layersFrom settled nodes turns n = layersFrom settled' nodes turns n := by
  induction turns generalizing n with
  | zero => rfl
  | succ turns ih =>
    unfold layersFrom
    rw [leftAt_congr (h n), layerAt_congr (h n) (h (n + 1)), ih]

/-- A layer settles its nodes: what is in it or was in an earlier one is in the layers so far. -/
theorem settled_or_mem_layerAt :
    (x ∈ nodes ∧ Settled r nodes n x) ∨ x ∈ layerAt (Settled r nodes) nodes n ↔
      x ∈ nodes ∧ Settled r nodes (n + 1) x := by
  rw [mem_layerAt]
  constructor
  · rintro (⟨hx, h⟩ | ⟨hx, -, h⟩)
    · exact ⟨hx, h.succ⟩
    · exact ⟨hx, h⟩
  · rintro ⟨hx, h⟩
    by_cases hsettled : Settled r nodes n x
    · exact .inl ⟨hx, hsettled⟩
    · exact .inr ⟨hx, hsettled, h⟩

/-- What is left after a layer. -/
theorem filter_not_mem_layerAt :
    (leftAt (Settled r nodes) nodes n).filter (· ∉ layerAt (Settled r nodes) nodes n) =
      leftAt (Settled r nodes) nodes (n + 1) := by
  unfold leftAt
  rw [List.filter_filter]
  refine List.filter_congr fun x hx => ?_
  rw [Bool.eq_iff_iff]
  simp only [mem_layerAt, Bool.and_eq_true, decide_eq_true_eq, not_and]
  constructor
  · rintro ⟨hnot, hleft⟩
    exact hnot hx hleft
  · exact fun hnot => ⟨fun _ _ => hnot, fun h => hnot h.succ⟩

/-- The layer and what is left after it. -/
theorem layerAt_append_perm :
    (layerAt (Settled r nodes) nodes n ++ leftAt (Settled r nodes) nodes (n + 1)).Perm
      (leftAt (Settled r nodes) nodes n) := by
  have hsplit := List.filter_append_perm (fun x => decide (Settled r nodes (n + 1) x))
    (leftAt (Settled r nodes) nodes n)
  have hleft : (leftAt (Settled r nodes) nodes n).filter
      (fun x => !decide (Settled r nodes (n + 1) x)) = leftAt (Settled r nodes) nodes (n + 1) := by
    unfold leftAt
    rw [List.filter_filter]
    refine List.filter_congr fun x _ => ?_
    by_cases hx : Settled r nodes (n + 1) x
    · simp [hx]
    · have hnot : ¬ Settled r nodes n x := fun h => hx h.succ
      simp [hx, hnot]
  rwa [hleft] at hsplit

theorem leftAt_zero : leftAt (Settled r nodes) nodes 0 = nodes :=
  List.filter_eq_self.mpr fun _ _ => by simp [Settled]

/-- Nothing is left later where nothing is left. -/
theorem leftAt_later {m : ℕ} (h : leftAt (Settled r nodes) nodes m = []) (hle : m ≤ n) :
    leftAt (Settled r nodes) nodes n = [] := by
  refine List.eq_nil_iff_forall_not_mem.mpr fun x hx => ?_
  obtain ⟨hmem, hnot⟩ := mem_leftAt.mp hx
  have hleft : x ∈ leftAt (Settled r nodes) nodes m :=
    mem_leftAt.mpr ⟨hmem, fun hsettled => hnot (hsettled.mono hle)⟩
  rw [h] at hleft
  exact absurd hleft (List.not_mem_nil)

/-- A layer that is not empty leaves less. -/
theorem leftAt_length_lt (h : layerAt (Settled r nodes) nodes n ≠ []) :
    (leftAt (Settled r nodes) nodes (n + 1)).length <
      (leftAt (Settled r nodes) nodes n).length := by
  have hperm : (layerAt (Settled r nodes) nodes n ++ leftAt (Settled r nodes) nodes (n + 1)).Perm
      (leftAt (Settled r nodes) nodes n) := layerAt_append_perm
  have hlength := hperm.length_eq
  rw [List.length_append] at hlength
  have hpos := List.length_pos_iff.mpr h
  omega

/-- Each node that is not in an earlier layer is in one of the layers. -/
theorem layersFrom_perm (h : (leftAt (Settled r nodes) nodes n).length ≤ turns) :
    (layersFrom (Settled r nodes) nodes turns n).flatten.Perm
      (leftAt (Settled r nodes) nodes n) := by
  induction turns generalizing n with
  | zero => rw [List.length_eq_zero_iff.mp (Nat.le_zero.mp h)]; exact .nil
  | succ turns ih =>
    unfold layersFrom
    split
    · next hleft => rw [hleft]; exact .nil
    split
    · rw [List.flatten_singleton]
    · next hlayer =>
      have hless := leftAt_length_lt hlayer
      exact ((ih (by omega)).append_left _).trans layerAt_append_perm

/-- **What a settled node depends on** is in an earlier layer. -/
theorem layersFrom_order {before after : List (List α)} {layer : List α} {y : α}
    (h : layersFrom (Settled r nodes) nodes turns n = before ++ layer :: after)
    (hx : x ∈ layer) {m : ℕ} (hsettled : Settled r nodes m x) (hyx : r y x) :
    y ∈ before.flatten ∨ Settled r nodes n y := by
  induction turns generalizing n before with
  | zero => exact absurd h (by simp [layersFrom])
  | succ turns ih =>
    unfold layersFrom at h
    split at h
    · exact absurd h (by simp)
    split at h
    · next hlayer =>
      -- The last layer: nothing in it is ever settled.
      have hlast : layer = leftAt (Settled r nodes) nodes n := by
        cases before with
        | nil => exact (List.cons.inj h).1.symm
        | cons => simp at h
      rw [hlast, mem_leftAt] at hx
      refine absurd (hsettled.of_stable (m := n) (fun z hz hnext => ?_) hx.1) hx.2
      by_contra hleft
      have hz' : z ∈ layerAt (Settled r nodes) nodes n := mem_layerAt.mpr ⟨hz, hleft, hnext⟩
      rw [hlayer] at hz'
      exact absurd hz' (List.not_mem_nil)
    · cases before with
      | nil =>
        obtain ⟨rfl, -⟩ := List.cons.inj h
        exact .inr ((mem_layerAt.mp hx).2.2 y hyx).2
      | cons first before =>
        obtain ⟨hfirst, hrest⟩ := List.cons.inj h
        rcases ih hrest with hmem | hnext
        · exact .inl (List.mem_append_right _ hmem)
        by_cases hy : Settled r nodes n y
        · exact .inr hy
        have hmem : y ∈ nodes := by
          cases m with
          | zero => exact hsettled.elim
          | succ m => exact (hsettled y hyx).1
        exact .inl (List.mem_append_left _ (hfirst ▸ mem_layerAt.mpr ⟨hmem, hy, hnext⟩))

/-! ## Dependencies outside the list -/

theorem layersFrom_eq_nil (h : leftAt settled nodes n = []) :
    layersFrom settled nodes turns n = [] := by
  cases turns with
  | zero => rfl
  | succ turns => exact if_pos h

/-- Where the layers are the same, something that has a layer without the dependencies outside
the list and depends on one is in the last layer, with all that depends on one and no others. -/
theorem last_of_layersFrom_eq {m : ℕ}
    (heq : layersFrom (Settled r nodes) nodes turns n =
      layersFrom (Settled (Inside r nodes) nodes) nodes turns n)
    (hturns : (leftAt (Settled (Inside r nodes) nodes) nodes n).length ≤ turns)
    (hx : x ∈ nodes) (hstranded : Stranded r nodes x) (hnm : n ≤ m)
    (hnot : ¬ Settled (Inside r nodes) nodes m x)
    (hnext : Settled (Inside r nodes) nodes (m + 1) x) :
    (∀ y ∈ nodes, Settled (Inside r nodes) nodes (m + 1) y) ∧
      ∀ y ∈ nodes, Stranded r nodes y ↔ ¬ Settled (Inside r nodes) nodes m y := by
  have hnever (k : ℕ) {y : α} (hy : Stranded r nodes y) : ¬ Settled r nodes k y :=
    fun h => (settled_iff_inside.mp h).2 hy
  induction turns generalizing n with
  | zero =>
    have hleft : x ∈ leftAt (Settled (Inside r nodes) nodes) nodes n :=
      mem_leftAt.mpr ⟨hx, fun h => hnot (h.mono hnm)⟩
    rw [List.length_eq_zero_iff.mp (Nat.le_zero.mp hturns)] at hleft
    exact absurd hleft (List.not_mem_nil)
  | succ turns ih =>
    have hleft : leftAt (Settled r nodes) nodes n ≠ [] :=
      List.ne_nil_of_mem (mem_leftAt.mpr ⟨hx, hnever n hstranded⟩)
    have hleft' : leftAt (Settled (Inside r nodes) nodes) nodes n ≠ [] :=
      List.ne_nil_of_mem (mem_leftAt.mpr ⟨hx, fun h => hnot (h.mono hnm)⟩)
    have hlayer' : layerAt (Settled (Inside r nodes) nodes) nodes n ≠ [] := by
      intro hempty
      refine hnot ((hnext.of_stable (m := n) (fun z hz hz' => ?_) hx).mono hnm)
      by_contra hz''
      exact absurd (hempty ▸ mem_layerAt.mpr ⟨hz, hz'', hz'⟩) (List.not_mem_nil)
    have hperm : (layerAt (Settled (Inside r nodes) nodes) nodes n ++
        leftAt (Settled (Inside r nodes) nodes) nodes (n + 1)).Perm
          (leftAt (Settled (Inside r nodes) nodes) nodes n) := layerAt_append_perm
    have hlength := hperm.length_eq
    rw [List.length_append] at hlength
    have hpos := List.length_pos_iff.mpr hlayer'
    unfold layersFrom at heq
    rw [if_neg hleft, if_neg hleft', if_neg hlayer'] at heq
    by_cases hlayer : layerAt (Settled r nodes) nodes n = []
    · rw [if_pos hlayer] at heq
      obtain ⟨hlast, hrest⟩ := List.cons.inj heq
      have hmem : x ∈ layerAt (Settled (Inside r nodes) nodes) nodes n :=
        hlast ▸ mem_leftAt.mpr ⟨hx, hnever n hstranded⟩
      obtain rfl : n = m := by
        by_contra hne
        exact hnot ((mem_layerAt.mp hmem).2.2.mono (by omega))
      have hall : ∀ y ∈ nodes, Settled (Inside r nodes) nodes (n + 1) y := by
        have hperm : (layersFrom (Settled (Inside r nodes) nodes) nodes turns (n + 1)).flatten.Perm
            (leftAt (Settled (Inside r nodes) nodes) nodes (n + 1)) := layersFrom_perm (by omega)
        rw [← hrest] at hperm
        intro y hy
        by_contra hleft
        exact absurd (hperm.mem_iff.mpr (mem_leftAt.mpr ⟨hy, hleft⟩)) (List.not_mem_nil)
      refine ⟨hall, fun y hy => ⟨fun hstranded => ?_, fun hleft => ?_⟩⟩
      · exact (mem_layerAt.mp (hlast ▸ mem_leftAt.mpr ⟨hy, hnever n hstranded⟩)).2.1
      · by_contra hstranded
        have hmem : y ∈ layerAt (Settled r nodes) nodes n := mem_layerAt.mpr
          ⟨hy, fun h => hleft (settled_iff_inside.mp h).1,
            settled_iff_inside.mpr ⟨hall y hy, hstranded⟩⟩
        rw [hlayer] at hmem
        exact absurd hmem (List.not_mem_nil)
    · rw [if_neg hlayer] at heq
      obtain ⟨hfirst, hrest⟩ := List.cons.inj heq
      have hne : n ≠ m := by
        rintro rfl
        have hmem : x ∈ layerAt (Settled r nodes) nodes n :=
          hfirst ▸ mem_layerAt.mpr ⟨hx, hnot, hnext⟩
        exact hnever _ hstranded (mem_layerAt.mp hmem).2.2
      exact ih hrest (by omega) (by omega)

/-- Where exactly the last layer depends on something outside the list, it is what is left in
the end, and so the last layer all the same. -/
theorem layersFrom_eq_of_last {m : ℕ} (hnm : n ≤ m)
    (hall : ∀ y ∈ nodes, Settled (Inside r nodes) nodes (m + 1) y)
    (hlast : ∀ y ∈ nodes, Stranded r nodes y ↔ ¬ Settled (Inside r nodes) nodes m y) :
    layersFrom (Settled r nodes) nodes turns n =
      layersFrom (Settled (Inside r nodes) nodes) nodes turns n := by
  have hsettled (k : ℕ) (hk : k ≤ m) (y : α) (hy : y ∈ nodes) :
      Settled r nodes k y ↔ Settled (Inside r nodes) nodes k y := by
    rw [settled_iff_inside, and_iff_left_of_imp]
    exact fun h hstranded => (hlast y hy).mp hstranded (h.mono hk)
  induction turns generalizing n with
  | zero => rfl
  | succ turns ih =>
    unfold layersFrom
    rw [leftAt_congr (hsettled n hnm)]
    rcases Nat.lt_or_eq_of_le hnm with hlt | rfl
    · rw [layerAt_congr (hsettled n hnm) (hsettled (n + 1) hlt), ih hlt]
    · have hlayer : layerAt (Settled r nodes) nodes n = [] := by
        refine List.eq_nil_iff_forall_not_mem.mpr fun y hy => ?_
        obtain ⟨hmem, hnot, hnext⟩ := mem_layerAt.mp hy
        rw [hsettled n le_rfl y hmem] at hnot
        exact (settled_iff_inside.mp hnext).2 ((hlast y hmem).mpr hnot)
      have hlayer' : layerAt (Settled (Inside r nodes) nodes) nodes n =
          leftAt (Settled (Inside r nodes) nodes) nodes n :=
        List.filter_eq_self.mpr fun y hy => by simpa using hall y (mem_leftAt.mp hy).1
      have hdone : leftAt (Settled (Inside r nodes) nodes) nodes (n + 1) = [] :=
        List.eq_nil_iff_forall_not_mem.mpr fun y hy =>
          (mem_leftAt.mp hy).2 (hall y (mem_leftAt.mp hy).1)
      rw [if_pos hlayer, hlayer', layersFrom_eq_nil hdone]
      split
      · rfl
      · rfl

/-- **When dependencies outside the list change nothing**: whatever depends on one is on or
downstream of a cycle, or there is no cycle and what depends on one is what has the longest
chains. -/
theorem layersFrom_inside_iff (h : nodes.length ≤ turns) :
    layersFrom (Settled r nodes) nodes turns 0 =
        layersFrom (Settled (Inside r nodes) nodes) nodes turns 0 ↔
      (∀ x ∈ nodes, Stranded r nodes x → AfterCycle (Inside r nodes) x) ∨
      ∃ n, (∀ x ∈ nodes, ¬ Chain (Inside r nodes) (n + 1) x) ∧
        ∀ x ∈ nodes, Stranded r nodes x ↔ Chain (Inside r nodes) n x := by
  have hcycle : ∀ x, AfterCycle (Inside r nodes) x ↔ ∀ n, Chain (Inside r nodes) n x :=
    afterCycle_iff fun y x (h : Inside r nodes y x) => h.1
  have hsettled (n : ℕ) (x : α) : Settled (Inside r nodes) nodes n x ↔
      ¬ Chain (Inside r nodes) n x := settled_inside_iff
  constructor
  · intro heq
    by_contra hnot
    push Not at hnot
    obtain ⟨⟨x, hx, hstranded, hfree⟩, hnot⟩ := hnot
    rw [hcycle] at hfree
    push Not at hfree
    -- The layer of a node that waits for something outside the list.
    have hlayer := Nat.find_spec hfree
    obtain ⟨m, hm⟩ : ∃ m, Nat.find hfree = m + 1 := by
      refine Nat.exists_eq_succ_of_ne_zero fun hzero => ?_
      rw [hzero] at hlayer
      exact hlayer trivial
    have hbefore : Chain (Inside r nodes) m x := by
      by_contra hno
      exact Nat.find_min hfree (by omega) hno
    rw [hm] at hlayer
    obtain ⟨hall, hlast⟩ := last_of_layersFrom_eq heq
      ((List.length_filter_le _ _).trans h) hx hstranded (Nat.zero_le m)
      (by rw [hsettled]; exact not_not.mpr hbefore) ((hsettled ..).mpr hlayer)
    obtain ⟨y, hy, hdiff⟩ := hnot m fun y hy => (hsettled ..).mp (hall y hy)
    have hiff := hlast y hy
    rw [hsettled, not_not] at hiff
    tauto
  · rintro (hall | ⟨m, hall, hlast⟩)
    · refine layersFrom_congr fun n x hx => ?_
      rw [settled_iff_inside, and_iff_left_of_imp]
      exact fun hsettle hstranded =>
        (hsettled n x).mp hsettle ((hcycle x).mp (hall x hx hstranded) n)
    · refine layersFrom_eq_of_last (Nat.zero_le m) (fun y hy => (hsettled ..).mpr (hall y hy))
        fun y hy => ?_
      rw [hsettled, not_not]
      exact hlast y hy

/-! ### Acyclic dependencies -/

/-- Without cycles there is a layer as long as something is left. -/
theorem layerAt_ne_nil (hr : ∀ x y, r x y → x ∈ nodes) (hacyclic : Acyclic r)
    (hleft : leftAt (Settled r nodes) nodes n ≠ []) : layerAt (Settled r nodes) nodes n ≠ [] := by
  intro hempty
  obtain ⟨x, hx⟩ := List.exists_mem_of_ne_nil _ hleft
  obtain ⟨hmem, hnot⟩ := mem_leftAt.mp hx
  have hstable : ∀ y ∈ nodes, Settled r nodes (n + 1) y → Settled r nodes n y := by
    intro y hy hnext
    by_contra hleft
    exact absurd (hempty ▸ mem_layerAt.mpr ⟨hy, hleft, hnext⟩) (List.not_mem_nil)
  have hchains : ∀ m, Chain r m x := by
    intro m
    by_contra hchain
    exact hnot (((settled_iff_chain hr).mpr hchain).of_stable hstable hmem)
  obtain ⟨y, hcycle, -⟩ := (afterCycle_iff hr x).mpr hchains
  exact hacyclic y hcycle

/-- **The layers are numbered by the longest chains.** -/
theorem layersFrom_getElem? (hr : ∀ x y, r x y → x ∈ nodes) (hacyclic : Acyclic r)
    (hturns : (leftAt (Settled r nodes) nodes n).length ≤ turns) (i : ℕ) :
    (layersFrom (Settled r nodes) nodes turns n)[i]? =
      if leftAt (Settled r nodes) nodes (n + i) = [] then none
      else some (layerAt (Settled r nodes) nodes (n + i)) := by
  induction turns generalizing n i with
  | zero =>
    have hnil : leftAt (Settled r nodes) nodes n = [] := List.length_eq_zero_iff.mp (by omega)
    have hlater : leftAt (Settled r nodes) nodes (n + i) = [] := leftAt_later hnil (by omega)
    rw [if_pos hlater]
    rfl
  | succ turns ih =>
    unfold layersFrom
    by_cases hleft : leftAt (Settled r nodes) nodes n = []
    · rw [if_pos hleft, if_pos (leftAt_later hleft (by omega))]
      rfl
    · have hlayer := layerAt_ne_nil hr hacyclic hleft
      rw [if_neg hleft, if_neg hlayer]
      cases i with
      | zero =>
        have hleft' : leftAt (Settled r nodes) nodes (n + 0) ≠ [] := hleft
        rw [if_neg hleft']
        rfl
      | succ i =>
        have hless := leftAt_length_lt hlayer
        rw [List.getElem?_cons_succ, ih (by omega), Nat.add_right_comm, Nat.add_assoc]

end Layers

end PulSeed.Layers
