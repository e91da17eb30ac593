import Mathlib.Algebra.Order.Field.Rat
import Mathlib.Algebra.Order.Ring.Rat

/-!
# Numbers with infinities

The numbers of a program that has an infinity of either sign and a "not a number", over
the rationals: the finite operations are exact, and the others follow the floating-point
standard. The two zeros are one.
-/

namespace PulSeed

/-- A number: finite, infinite, or not a number. -/
inductive Number where
  | nan
  | negInf
  | finite (q : ℚ)
  | posInf
  deriving DecidableEq, Repr

namespace Number

def isFinite : Number → Bool
  | .finite _ => true
  | _ => false

def neg : Number → Number
  | .nan => .nan
  | .negInf => .posInf
  | .finite q => .finite (-q)
  | .posInf => .negInf

def add : Number → Number → Number
  | .nan, _ | _, .nan | .posInf, .negInf | .negInf, .posInf => .nan
  | .finite a, .finite b => .finite (a + b)
  | .posInf, _ | _, .posInf => .posInf
  | .negInf, _ | _, .negInf => .negInf

def sub (a b : Number) : Number := a.add b.neg

/-- The infinity of a sign, for a quantity that is not zero. -/
def infinity (sign : ℚ) : Number :=
  if 0 < sign then .posInf else if sign < 0 then .negInf else .nan

def mul : Number → Number → Number
  | .nan, _ | _, .nan => .nan
  | .finite a, .finite b => .finite (a * b)
  | .posInf, .finite a | .finite a, .posInf => infinity a
  | .negInf, .finite a | .finite a, .negInf => infinity (-a)
  | .posInf, .posInf | .negInf, .negInf => .posInf
  | .posInf, .negInf | .negInf, .posInf => .negInf

def div : Number → Number → Number
  | .nan, _ | _, .nan => .nan
  | .finite a, .finite b => if b = 0 then infinity a else .finite (a / b)
  | .finite _, .posInf | .finite _, .negInf => .finite 0
  | .posInf, .finite b => if b < 0 then .negInf else .posInf
  | .negInf, .finite b => if b < 0 then .posInf else .negInf
  | .posInf, _ | .negInf, _ => .nan

/-- `a <= b`, false when one of them is not a number. -/
def le : Number → Number → Bool
  | .nan, _ | _, .nan => false
  | .negInf, _ | _, .posInf => true
  | .posInf, _ | _, .negInf => false
  | .finite a, .finite b => a ≤ b

/-- `a < b`. -/
def lt (a b : Number) : Bool := a.le b && !b.le a

/-- `a === b`. -/
def strictEq (a b : Number) : Bool := a.le b && b.le a

def max (a b : Number) : Number :=
  if a = .nan ∨ b = .nan then .nan else if a.le b then b else a

def min (a b : Number) : Number :=
  if a = .nan ∨ b = .nan then .nan else if a.le b then a else b

def abs : Number → Number
  | .nan => .nan
  | .finite q => .finite |q|
  | .negInf | .posInf => .posInf

/-! ## Finite numbers -/

variable (a b : ℚ)

@[simp] theorem isFinite_finite : (finite a).isFinite = true := rfl

@[simp] theorem neg_finite : (finite a).neg = finite (-a) := rfl

@[simp] theorem add_finite : (finite a).add (finite b) = finite (a + b) := rfl

@[simp] theorem sub_finite : (finite a).sub (finite b) = finite (a - b) := by
  rw [sub, neg_finite, add_finite, sub_eq_add_neg]

@[simp] theorem mul_finite : (finite a).mul (finite b) = finite (a * b) := rfl

theorem div_finite (a : ℚ) {b : ℚ} (hb : b ≠ 0) : (finite a).div (finite b) = finite (a / b) :=
  if_neg hb

theorem div_posInf {b : ℚ} (hb : 0 ≤ b) : posInf.div (finite b) = posInf := if_neg (not_lt.mpr hb)

@[simp] theorem le_finite : (finite a).le (finite b) = decide (a ≤ b) := rfl

@[simp] theorem lt_finite : (finite a).lt (finite b) = decide (a < b) := by
  rw [lt, le_finite, le_finite, ← decide_not, ← Bool.decide_and]
  exact decide_eq_decide.mpr lt_iff_le_not_ge.symm

@[simp] theorem strictEq_finite : (finite a).strictEq (finite b) = decide (a = b) := by
  rw [strictEq, le_finite, le_finite, ← Bool.decide_and]
  exact decide_eq_decide.mpr le_antisymm_iff.symm

@[simp] theorem max_finite : (finite a).max (finite b) = finite (Max.max a b) := by
  unfold max
  rw [if_neg (by simp), le_finite]
  by_cases hab : a ≤ b
  · rw [if_pos (decide_eq_true hab), max_eq_right hab]
  · rw [if_neg (by simpa using hab), max_eq_left (le_of_not_ge hab)]

@[simp] theorem min_finite : (finite a).min (finite b) = finite (Min.min a b) := by
  unfold min
  rw [if_neg (by simp), le_finite]
  by_cases hab : a ≤ b
  · rw [if_pos (decide_eq_true hab), min_eq_left hab]
  · rw [if_neg (by simpa using hab), min_eq_right (le_of_not_ge hab)]

@[simp] theorem abs_finite : (finite a).abs = finite |a| := rfl

/-! ## The infinities -/

@[simp] theorem isFinite_nan : nan.isFinite = false := rfl

@[simp] theorem isFinite_negInf : negInf.isFinite = false := rfl

@[simp] theorem isFinite_posInf : posInf.isFinite = false := rfl

@[simp] theorem nan_le (x : Number) : nan.le x = false := by cases x <;> rfl

@[simp] theorem le_nan (x : Number) : x.le nan = false := by cases x <;> rfl

@[simp] theorem negInf_le_finite : negInf.le (finite a) = true := rfl

@[simp] theorem finite_le_negInf : (finite a).le negInf = false := rfl

@[simp] theorem finite_le_posInf : (finite a).le posInf = true := rfl

@[simp] theorem posInf_le_finite : posInf.le (finite a) = false := rfl

@[simp] theorem negInf_le_negInf : negInf.le negInf = true := rfl

@[simp] theorem negInf_le_posInf : negInf.le posInf = true := rfl

@[simp] theorem posInf_le_negInf : posInf.le negInf = false := rfl

@[simp] theorem posInf_le_posInf : posInf.le posInf = true := rfl

@[simp] theorem negInf_mul_two : negInf.mul (finite 2) = negInf := by simp [mul, infinity]

@[simp] theorem posInf_mul_two : posInf.mul (finite 2) = posInf := by simp [mul, infinity]

@[simp] theorem nan_mul (x : Number) : nan.mul x = nan := by cases x <;> rfl

theorem strictEq_iff {x y : Number} : x.strictEq y = true ↔ x = y ∧ x ≠ nan := by
  cases x with
  | finite a =>
    cases y with
    | finite b => simp
    | _ => simp [strictEq]
  | nan => simp [strictEq]
  | negInf => cases y <;> simp [strictEq]
  | posInf => cases y <;> simp [strictEq]

theorem ne_of_lt {x y : Number} (h : x.lt y = true) : x ≠ y ∧ x ≠ nan ∧ y ≠ nan := by
  refine ⟨?_, ?_, ?_⟩
  · rintro rfl
    simp [lt] at h
  · rintro rfl
    simp [lt] at h
  · rintro rfl
    simp [lt] at h

/-- Two numbers compare in the same way with a third one exactly when that is neither. -/
theorem strictEq_eq_strictEq_iff {x y z : Number} (hxy : x ≠ y) (hx : x ≠ nan) (hy : y ≠ nan) :
    x.strictEq z = y.strictEq z ↔ ¬ (z = y ∨ z = x) := by
  rw [Bool.eq_iff_iff, strictEq_iff, strictEq_iff]
  constructor
  · rintro h (rfl | rfl)
    · exact hxy (h.mpr ⟨rfl, hy⟩).1
    · exact hxy (h.mp ⟨rfl, hx⟩).1.symm
  · intro h
    rw [not_or] at h
    exact ⟨fun heq => absurd heq.1.symm h.2, fun heq => absurd heq.1.symm h.1⟩

theorem isFinite_iff {x : Number} : x.isFinite = true ↔ ∃ q, x = finite q := by
  constructor
  · intro h
    cases x with
    | finite q => exact ⟨q, rfl⟩
    | nan => cases h
    | negInf => cases h
    | posInf => cases h
  · rintro ⟨q, rfl⟩
    rfl

section Closed

variable {x y : Number} (hx : x.isFinite = true) (hy : y.isFinite = true)

include hx hy

theorem isFinite_add : (x.add y).isFinite = true := by
  obtain ⟨a, rfl⟩ := isFinite_iff.mp hx
  obtain ⟨b, rfl⟩ := isFinite_iff.mp hy
  rfl

theorem isFinite_sub : (x.sub y).isFinite = true := by
  obtain ⟨a, rfl⟩ := isFinite_iff.mp hx
  obtain ⟨b, rfl⟩ := isFinite_iff.mp hy
  rfl

theorem isFinite_mul : (x.mul y).isFinite = true := by
  obtain ⟨a, rfl⟩ := isFinite_iff.mp hx
  obtain ⟨b, rfl⟩ := isFinite_iff.mp hy
  rfl

theorem isFinite_max : (x.max y).isFinite = true := by
  obtain ⟨a, rfl⟩ := isFinite_iff.mp hx
  obtain ⟨b, rfl⟩ := isFinite_iff.mp hy
  rw [max_finite, isFinite_finite]

theorem isFinite_min : (x.min y).isFinite = true := by
  obtain ⟨a, rfl⟩ := isFinite_iff.mp hx
  obtain ⟨b, rfl⟩ := isFinite_iff.mp hy
  rw [min_finite, isFinite_finite]

theorem isFinite_div (hzero : y.strictEq (.finite 0) = false) : (x.div y).isFinite = true := by
  obtain ⟨a, rfl⟩ := isFinite_iff.mp hx
  obtain ⟨b, rfl⟩ := isFinite_iff.mp hy
  rw [strictEq_finite, decide_eq_false_iff_not] at hzero
  rw [div_finite a hzero, isFinite_finite]

end Closed

end Number

end PulSeed
