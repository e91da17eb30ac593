import Mathlib

/-!
# Cuts taken in order

An excess is taken from amounts that stand in an order: each member gives as much of it as
it has before the next one gives anything (`cutOf`). Together they give the excess or all
they have (`sum_cutOf`), and who gives something finds the members before it empty
(`cutOf_eq_of_rank_lt`).

The amounts may be limits on quantities of their own. Cutting the limits by the excess of
the quantities does not always bring what is under the limits down to the target: a cut in
a limit that was not reached takes nothing away. `sum_limited_le_iff` says when it does.
-/

namespace PulSeed

universe u

variable {κ : Type u} [DecidableEq κ]

/-- What a member gives of the excess. -/
def cutOf (amount : κ → ℕ) : List κ → ℕ → κ → ℕ
  | [], _, _ => 0
  | k :: order, excess, j =>
    if j = k then min (amount k) excess else cutOf amount order (excess - amount k) j

variable {amount : κ → ℕ}

@[simp] theorem cutOf_self (k : κ) (order : List κ) (excess : ℕ) :
    cutOf amount (k :: order) excess k = min (amount k) excess := if_pos rfl

theorem cutOf_of_ne {j k : κ} (hne : j ≠ k) (order : List κ) (excess : ℕ) :
    cutOf amount (k :: order) excess j = cutOf amount order (excess - amount k) j := if_neg hne

theorem cutOf_le (order : List κ) (excess : ℕ) (j : κ) :
    cutOf amount order excess j ≤ amount j := by
  induction order generalizing excess with
  | nil => exact Nat.zero_le _
  | cons k order ih =>
    by_cases hj : j = k
    · subst hj
      rw [cutOf_self]
      exact min_le_left _ _
    · rw [cutOf_of_ne hj]
      exact ih _

/-- Nothing is cut when there is no excess. -/
@[simp] theorem cutOf_zero (order : List κ) (j : κ) : cutOf amount order 0 j = 0 := by
  induction order with
  | nil => rfl
  | cons k order ih =>
    by_cases hj : j = k
    · subst hj
      rw [cutOf_self, min_eq_right (Nat.zero_le _)]
    · rw [cutOf_of_ne hj, Nat.zero_sub]
      exact ih

theorem cutOf_of_not_mem {order : List κ} {j : κ} (hj : j ∉ order) (excess : ℕ) :
    cutOf amount order excess j = 0 := by
  induction order generalizing excess with
  | nil => rfl
  | cons k order ih =>
    rw [List.mem_cons, not_or] at hj
    rw [cutOf_of_ne hj.1]
    exact ih hj.2 _

/-- Only the amounts of the members count. -/
theorem cutOf_congr {amount' : κ → ℕ} {order : List κ} (h : ∀ k ∈ order, amount' k = amount k)
    (excess : ℕ) (j : κ) : cutOf amount' order excess j = cutOf amount order excess j := by
  induction order generalizing excess with
  | nil => rfl
  | cons k order ih =>
    have hrest := fun l hl => h l (List.mem_cons_of_mem k hl)
    unfold cutOf
    rw [h k List.mem_cons_self, ih hrest]

/-- The first member does not change what the others give of the rest. -/
theorem map_cutOf_cons {β : Type*} {k : κ} {order : List κ} (hk : k ∉ order) (excess : ℕ)
    (f : κ → ℕ → β) :
    (order.map fun j => f j (cutOf amount (k :: order) excess j)) =
      order.map fun j => f j (cutOf amount order (excess - amount k) j) := by
  refine List.map_congr_left fun j hj => ?_
  rw [cutOf_of_ne]
  rintro rfl
  exact hk hj

/-- **Together the members give the excess**, or all they have. -/
theorem sum_cutOf (amount : κ → ℕ) {order : List κ} (hnodup : order.Nodup) (excess : ℕ) :
    (order.map (cutOf amount order excess)).sum = min (order.map amount).sum excess := by
  induction order generalizing excess with
  | nil => exact (Nat.zero_min _).symm
  | cons k order ih =>
    obtain ⟨hk, hnodup⟩ := List.nodup_cons.mp hnodup
    have hrest := ih hnodup (excess - amount k)
    rw [List.map_cons, List.sum_cons, cutOf_self, List.map_cons, List.sum_cons,
      map_cutOf_cons hk excess fun _ cut => cut, hrest]
    omega

/-- **Who gives something finds the members before it empty.** -/
theorem cutOf_eq_of_rank_lt {rank : κ → ℕ} {order : List κ}
    (hrank : order.Pairwise fun j k => rank j < rank k) {excess : ℕ} {j k : κ} (hj : j ∈ order)
    (hjk : rank j < rank k) (hk : 0 < cutOf amount order excess k) :
    cutOf amount order excess j = amount j := by
  induction order generalizing excess with
  | nil => cases hj
  | cons l order ih =>
    obtain ⟨hl, hrank⟩ := List.pairwise_cons.mp hrank
    have hkl : k ≠ l := by
      rintro rfl
      -- the first member has the least rank
      cases hj with
      | head => exact lt_irrefl _ hjk
      | tail _ hj => exact lt_asymm hjk (hl j hj)
    rw [cutOf_of_ne hkl] at hk
    by_cases hjl : j = l
    · subst hjl
      rw [cutOf_self]
      refine min_eq_left (le_of_lt ?_)
      by_contra hle
      rw [Nat.sub_eq_zero_of_le (not_lt.mp hle), cutOf_zero] at hk
      exact lt_irrefl _ hk
    · rw [cutOf_of_ne hjl]
      exact ih hrank (List.mem_of_ne_of_mem hjl hj) hk

/-! ## Limits -/

variable (used : κ → ℕ) {cut : κ → ℕ}

omit [DecidableEq κ] in
/-- What is under the limits after a cut, what was above them and the cut are the
quantities and the part of the cut that took nothing away. -/
theorem sum_limited {order : List κ} (hcut : ∀ k ∈ order, cut k ≤ amount k) :
    (order.map fun k => min (used k) (amount k - cut k)).sum +
        (order.map fun k => used k - amount k).sum + (order.map cut).sum =
      (order.map used).sum + (order.map fun k => min (amount k - used k) (cut k)).sum := by
  induction order with
  | nil => rfl
  | cons k order ih =>
    have hrest := ih fun j hj => hcut j (List.mem_cons_of_mem _ hj)
    have hk := hcut k List.mem_cons_self
    simp only [List.map_cons, List.sum_cons]
    omega

omit [DecidableEq κ] in
/-- What is under the limits after a cut fits beside the cut. -/
theorem sum_limited_add_le {order : List κ} (hcut : ∀ k ∈ order, cut k ≤ amount k) :
    (order.map fun k => min (used k) (amount k - cut k)).sum + (order.map cut).sum ≤
      (order.map amount).sum := by
  induction order with
  | nil => exact le_rfl
  | cons k order ih =>
    have hrest := ih fun j hj => hcut j (List.mem_cons_of_mem _ hj)
    have hk := hcut k List.mem_cons_self
    simp only [List.map_cons, List.sum_cons]
    omega

variable (amount) in
/-- **The cut limits keep the quantities within the target** exactly when the part of the
cut that took nothing away is at most what was above the limits. -/
theorem sum_limited_le_iff {order : List κ} (hnodup : order.Nodup) {target excess : ℕ}
    (hexcess : (order.map used).sum = target + excess) :
    (order.map fun k => min (used k) (amount k - cutOf amount order excess k)).sum ≤ target ↔
      (order.map fun k => min (amount k - used k) (cutOf amount order excess k)).sum ≤
        (order.map fun k => used k - amount k).sum := by
  have hle : ∀ k ∈ order, cutOf amount order excess k ≤ amount k :=
    fun k _ => cutOf_le order excess k
  have haccount := sum_limited used hle
  have hunder := sum_limited_add_le used hle
  have hcut := sum_cutOf amount hnodup excess
  by_cases hall : excess ≤ (order.map amount).sum
  · -- the whole excess was cut
    rw [min_eq_right hall] at hcut
    omega
  · -- every limit was cut to nothing, and both sides hold
    rw [min_eq_left (le_of_not_ge hall)] at hcut
    omega

end PulSeed
