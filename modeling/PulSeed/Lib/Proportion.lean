import Mathlib.Algebra.BigOperators.Ring.List
import Mathlib.Algebra.Order.BigOperators.Group.List
import Mathlib.Algebra.Order.Field.Basic
import Mathlib.Data.List.Count

/-!
# Proportional parts

A quantity is divided among the members of a list in proportion to their weights, or
equally when the weights sum to nothing. The parts sum to the whole (`sum_portion`), and
none of them is negative (`portion_nonneg`). Sums over part of a list are sums over the
list with the other members left out (`sum_map_filter`, `sum_map_ite_const`). Sums of members in
order are equal when the members are (`sum_map_eq_iff_of_le`).
-/

namespace PulSeed

universe u v

section Portion

variable {K : Type u} [Field K] [LinearOrder K] [IsStrictOrderedRing K]

/-- The part of a member of weight `a`, in a list of `n` members with weights that sum to
`total`. -/
def portion (total : K) (n : Nat) (a : K) : K := if 0 < total then a / total else 1 / n

theorem portion_nonneg {total a : K} {n : Nat} (ha : 0 ≤ a) : 0 ≤ portion total n a := by
  unfold portion
  split
  · next htotal => exact div_nonneg ha htotal.le
  · exact div_nonneg zero_le_one (Nat.cast_nonneg n)

/-- **The parts sum to the whole.** -/
theorem sum_portion {α : Type v} {l : List α} (f : α → K) (hne : l ≠ []) :
    (l.map fun a => portion (l.map f).sum l.length (f a)).sum = 1 := by
  unfold portion
  by_cases htotal : 0 < (l.map f).sum
  · simp only [if_pos htotal, div_eq_mul_inv]
    rw [List.sum_map_mul_right, mul_inv_cancel₀ htotal.ne']
  · simp only [if_neg htotal]
    have hlength : (l.length : K) ≠ 0 := by
      rw [Nat.cast_ne_zero]
      exact fun h => hne (List.eq_nil_of_length_eq_zero h)
    rw [List.map_const', List.sum_replicate, nsmul_eq_mul, mul_one_div_cancel hlength]

end Portion

section Filter

variable {α : Type v} {M : Type u}

theorem sum_map_filter [AddMonoid M] (p : α → Bool) (f : α → M) (l : List α) :
    ((l.filter p).map f).sum = (l.map fun a => if p a = true then f a else 0).sum := by
  induction l with
  | nil => rfl
  | cons a l ih =>
    rw [List.filter_cons, List.map_cons, List.sum_cons, ← ih]
    split
    · rw [List.map_cons, List.sum_cons]
    · rw [zero_add]

theorem sum_map_ite_const [Semiring M] (p : α → Bool) (c : M) (l : List α) :
    (l.map fun a => if p a = true then c else 0).sum = l.countP p * c := by
  rw [← sum_map_filter p (fun _ => c), List.map_const', List.sum_replicate, nsmul_eq_mul,
    List.countP_eq_length_filter]

end Filter

section Compare

/-- Sums of members in order are equal when the members are. -/
theorem sum_map_eq_iff_of_le {α : Type v} {M : Type u} [AddCommMonoid M] [PartialOrder M]
    [IsOrderedCancelAddMonoid M] {l : List α} {f g : α → M} (h : ∀ a ∈ l, f a ≤ g a) :
    (l.map f).sum = (l.map g).sum ↔ ∀ a ∈ l, f a = g a := by
  induction l with
  | nil => exact ⟨nofun, fun _ => rfl⟩
  | cons a l ih =>
    have hl : ∀ b ∈ l, f b ≤ g b := fun b hb => h b (List.mem_cons_of_mem _ hb)
    rw [List.map_cons, List.map_cons, List.sum_cons, List.sum_cons, List.forall_mem_cons, ← ih hl]
    exact add_eq_add_iff_eq_and_eq (h a List.mem_cons_self) (List.sum_le_sum hl)

end Compare

end PulSeed
