import Mathlib.Algebra.Order.Field.Basic
import Mathlib.Tactic.Linarith
import Mathlib.Tactic.NormNum
import PulSeed.Drive.Satisficing

/-!
# Gap and satisfaction

With full confidence the gap of a dimension should lie between 0 and 1 and vanish exactly
when the dimension is satisfied. Two things decide whether it does. The normalized gap is
the raw one divided by the threshold (or by half the width of the range), so it has the
sign of the threshold (`SignKept`), and for a threshold that bounds one side nothing keeps
it below 1 (`WithinOne`). And where a value is matched, the gap takes a number for a score
while the judge compares it.
-/

namespace PulSeed.Drive

/-- The gap lies in `[0, 1]`, and is 0 exactly when the dimension is satisfied. -/
def Agrees (gap : Number) (satisfied : Bool) : Prop :=
  ∃ q : ℚ, gap = .finite q ∧ 0 ≤ q ∧ q ≤ 1 ∧ (q = 0 ↔ satisfied = true)

/-- A number that is a full score. -/
def FullScore : Number → Prop
  | .finite score => 1 ≤ score
  | _ => False

/-- The bounds of the range are in order, or the value is on the right side of the only
bound that is finite, or one of them cannot be met. -/
def RangeKept (c : ℚ) : Number → Number → Prop
  | .finite low, .finite high => low ≤ high
  | .negInf, .finite high => c ≤ high
  | .finite low, .posInf => low ≤ c
  | _, _ => True

/-- The gap is not negative and vanishes exactly for a satisfied dimension. -/
def SignKept (value : DimensionValue) : Threshold → Prop
  | .min limit => ∀ c, numericValue value = some c →
    limit.le (.finite c) = true ∨ (Number.finite 0).le limit = true
  | .max limit => ∀ c, numericValue value = some c →
    (Number.finite c).le limit = true ∨ (Number.finite 0).le limit = true ∨ limit = .negInf
  | .range low high => ∀ c, numericValue value = some c → RangeKept c low high
  | .present => True
  | .match target => ∀ x, value = some (.number x) →
    ((Primitive.number x).strictEq target = true ↔ FullScore x)

/-- The gap is at most 1. -/
def WithinOne (value : DimensionValue) : Threshold → Prop
  | .min limit => ∀ c, numericValue value = some c →
    limit.le (.finite c) = true ∨ limit.le (.finite 0) = true ∨ 0 ≤ c ∨ limit = .posInf
  | .max limit => ∀ c, numericValue value = some c →
    (Number.finite c).le limit = true ∨ limit.le (.finite 0) = true ∨
      ∃ t, limit = .finite t ∧ c ≤ 2 * t
  | _ => True

/-- The normalized gap of a value. -/
def normalizedGap (value : DimensionValue) (threshold : Threshold) : Number :=
  normalizeGap (computeRawGap value threshold) threshold value

/-! ## One threshold at a time -/

/-- What is to be shown of a normalized gap. -/
def GapSpec (value : DimensionValue) (threshold : Threshold) (q : ℚ) : Prop :=
  (0 ≤ q ∧ (q = 0 ↔ isSatisfiedRaw value threshold = true) ↔ SignKept value threshold) ∧
    (q ≤ 1 ↔ WithinOne value threshold)

section Numeric

variable {value : Primitive} {c : ℚ}

theorem normalizedGap_min (h : numericValue (some value) = some c) (limit : Number) :
    normalizedGap (some value) (.min limit) =
      let rawGap := (Number.finite 0).max (limit.sub (.finite c))
      if !rawGap.isFinite then .finite 1
      else if limit.strictEq (.finite 0) then
        if (Number.finite 0).lt rawGap then .finite 1 else .finite 0
      else rawGap.div limit := by
  simp [normalizedGap, normalizeGap, computeRawGap, toFiniteNumberOrNull, h]

theorem normalizedGap_max (h : numericValue (some value) = some c) (limit : Number) :
    normalizedGap (some value) (.max limit) =
      let rawGap := (Number.finite 0).max ((Number.finite c).sub limit)
      if !rawGap.isFinite then .finite 1
      else if limit.strictEq (.finite 0) then rawGap.min (.finite 1)
      else rawGap.div limit := by
  simp [normalizedGap, normalizeGap, computeRawGap, toFiniteNumberOrNull, h]

theorem normalizedGap_range (h : numericValue (some value) = some c) (low high : Number) :
    normalizedGap (some value) (.range low high) =
      let rawGap := ((Number.finite 0).max (low.sub (.finite c))).add
        ((Number.finite 0).max ((Number.finite c).sub high))
      let halfWidth := (high.sub low).div (.finite 2)
      if !rawGap.isFinite then .finite 1
      else if halfWidth.strictEq (.finite 0) then
        if (Number.finite 0).lt rawGap then .finite 1 else .finite 0
      else (Number.finite 1).min (rawGap.div halfWidth) := by
  simp [normalizedGap, normalizeGap, computeRawGap, toFiniteNumberOrNull, h]

/-- A value that is no number has the full gap under a numeric threshold. -/
theorem normalizedGap_of_none (h : numericValue (some value) = none) {threshold : Threshold}
    (hnumeric : threshold.isNumeric = true) :
    normalizedGap (some value) threshold = .finite 1 := by
  unfold normalizedGap normalizeGap toFiniteNumberOrNull
  rw [h, hnumeric]
  split <;> rfl

/-- **A lower bound.** -/
theorem min_spec (h : numericValue (some value) = some c) {limit : Number}
    (hlimit : limit ≠ .nan) :
    ∃ q, normalizedGap (some value) (.min limit) = .finite q ∧
      GapSpec (some value) (.min limit) q := by
  rw [normalizedGap_min h]
  have hspec : ∀ q, GapSpec (some value) (.min limit) q ↔
      (0 ≤ q ∧ (q = 0 ↔ limit.le (.finite c) = true) ↔
        limit.le (.finite c) = true ∨ (Number.finite 0).le limit = true) ∧
      (q ≤ 1 ↔ limit.le (.finite c) = true ∨ limit.le (.finite 0) = true ∨ 0 ≤ c ∨
        limit = .posInf) := by
    intro q
    simp [GapSpec, SignKept, WithinOne, isSatisfiedRaw, toNumberOrNull, h]
  simp only [hspec]
  cases limit with
  | nan => exact absurd rfl hlimit
  | posInf => exact ⟨1, rfl, by simp [Number.le], by simp⟩
  | negInf => exact ⟨0, rfl, by simp [Number.le], by simp [Number.le]⟩
  | finite t =>
    simp only [Number.sub_finite, Number.max_finite, Number.isFinite_finite, Bool.not_true,
      Bool.false_eq_true, if_false, Number.strictEq_finite, Number.lt_finite, Number.le_finite,
      decide_eq_true_eq, reduceCtorEq, or_false]
    rcases le_or_gt t c with hle | hlt
    · -- the bound is met
      have hraw : max 0 (t - c) = 0 := max_eq_left (by linarith)
      refine ⟨0, ?_, by simp [hle], by simp [hle]⟩
      rw [hraw]
      by_cases ht : t = 0
      · simp [ht]
      · rw [if_neg ht, Number.div_finite _ ht, zero_div]
    · have hraw : max 0 (t - c) = t - c := max_eq_right (by linarith)
      by_cases ht : t = 0
      · refine ⟨1, ?_, ?_, ?_⟩
        · rw [if_pos ht, hraw, if_pos (by linarith)]
        · simp [ht]
          linarith
        · simp [ht]
      · refine ⟨(t - c) / t, by rw [if_neg ht, hraw, Number.div_finite _ ht], ?_, ?_⟩
        · rcases lt_or_gt_of_ne ht with hneg | hpos
          · have hq : (t - c) / t < 0 := div_neg_of_pos_of_neg (by linarith) hneg
            refine iff_of_false (fun h => absurd h.1 (not_le.mpr hq)) ?_
            rintro (h | h) <;> linarith
          · have hq : 0 < (t - c) / t := div_pos (by linarith) hpos
            refine iff_of_true ⟨hq.le, iff_of_false hq.ne' (by linarith)⟩ (.inr hpos.le)
        · rcases lt_or_gt_of_ne ht with hneg | hpos
          · have hq : (t - c) / t < 0 := div_neg_of_pos_of_neg (by linarith) hneg
            exact iff_of_true (by linarith) (.inr (.inl hneg.le))
          · rw [div_le_one hpos]
            constructor
            · exact fun h => .inr (.inr (by linarith))
            · rintro (h | h | h) <;> linarith

/-- **An upper bound.** -/
theorem max_spec (h : numericValue (some value) = some c) {limit : Number}
    (hlimit : limit ≠ .nan) :
    ∃ q, normalizedGap (some value) (.max limit) = .finite q ∧
      GapSpec (some value) (.max limit) q := by
  rw [normalizedGap_max h]
  have hspec : ∀ q, GapSpec (some value) (.max limit) q ↔
      (0 ≤ q ∧ (q = 0 ↔ (Number.finite c).le limit = true) ↔
        (Number.finite c).le limit = true ∨ (Number.finite 0).le limit = true ∨
          limit = .negInf) ∧
      (q ≤ 1 ↔ (Number.finite c).le limit = true ∨ limit.le (.finite 0) = true ∨
        ∃ t, limit = .finite t ∧ c ≤ 2 * t) := by
    intro q
    simp [GapSpec, SignKept, WithinOne, isSatisfiedRaw, toNumberOrNull, h]
  simp only [hspec]
  cases limit with
  | nan => exact absurd rfl hlimit
  | posInf => exact ⟨0, rfl, by simp [Number.le], by simp [Number.le]⟩
  | negInf => exact ⟨1, rfl, by simp [Number.le], by simp [Number.le]⟩
  | finite t =>
    simp only [Number.sub_finite, Number.max_finite, Number.min_finite, Number.isFinite_finite,
      Bool.not_true, Bool.false_eq_true, if_false, Number.strictEq_finite, Number.le_finite,
      decide_eq_true_eq, reduceCtorEq, or_false, Number.finite.injEq, exists_eq_left']
    rcases le_or_gt c t with hle | hlt
    · -- the bound is met
      have hraw : max 0 (c - t) = 0 := max_eq_left (by linarith)
      refine ⟨0, ?_, by simp [hle], by simp [hle]⟩
      rw [hraw]
      by_cases ht : t = 0
      · simp [ht]
      · rw [if_neg ht, Number.div_finite _ ht, zero_div]
    · have hraw : max 0 (c - t) = c - t := max_eq_right (by linarith)
      by_cases ht : t = 0
      · refine ⟨min (c - t) 1, by rw [if_pos ht, hraw], ?_, ?_⟩
        · have hq : 0 < min (c - t) 1 := lt_min (by linarith) one_pos
          exact iff_of_true ⟨hq.le, iff_of_false hq.ne' (by linarith)⟩ (.inr ht.ge)
        · exact iff_of_true (min_le_right _ _) (.inr (.inl ht.le))
      · refine ⟨(c - t) / t, by rw [if_neg ht, hraw, Number.div_finite _ ht], ?_, ?_⟩
        · rcases lt_or_gt_of_ne ht with hneg | hpos
          · have hq : (c - t) / t < 0 := div_neg_of_pos_of_neg (by linarith) hneg
            refine iff_of_false (fun h => absurd h.1 (not_le.mpr hq)) ?_
            rintro (h | h) <;> linarith
          · have hq : 0 < (c - t) / t := div_pos (by linarith) hpos
            exact iff_of_true ⟨hq.le, iff_of_false hq.ne' (by linarith)⟩ (.inr hpos.le)
        · rcases lt_or_gt_of_ne ht with hneg | hpos
          · have hq : (c - t) / t < 0 := div_neg_of_pos_of_neg (by linarith) hneg
            exact iff_of_true (by linarith) (.inr (.inl hneg.le))
          · rw [div_le_one hpos]
            constructor
            · exact fun h => .inr (.inr (by linarith))
            · rintro (h | h | h) <;> linarith

/-- What a value misses of a range, on either side. -/
theorem outside_eq_zero_iff (low high c : ℚ) :
    max 0 (low - c) + max 0 (c - high) = 0 ↔ low ≤ c ∧ c ≤ high := by
  rw [add_eq_zero_iff_of_nonneg (le_max_left ..) (le_max_left ..), max_eq_left_iff,
    max_eq_left_iff, sub_nonpos, sub_nonpos]

/-- A range with finite bounds. -/
theorem range_finite_spec (low high c : ℚ) :
    ∃ q : ℚ, (let rawGap := max 0 (low - c) + max 0 (c - high)
      if (high - low) / 2 = 0 then if 0 < rawGap then 1 else 0
      else min 1 (rawGap / ((high - low) / 2))) = q ∧
      (0 ≤ q ∧ (q = 0 ↔ low ≤ c ∧ c ≤ high) ↔ low ≤ high) ∧ q ≤ 1 := by
  have hnonneg : 0 ≤ max 0 (low - c) + max 0 (c - high) :=
    add_nonneg (le_max_left ..) (le_max_left ..)
  refine ⟨_, rfl, ?_⟩
  dsimp only
  rw [← outside_eq_zero_iff]
  generalize hraw : max 0 (low - c) + max 0 (c - high) = rawGap at hnonneg ⊢
  rcases lt_trichotomy low high with hlt | heq | hgt
  · have hhalf : 0 < (high - low) / 2 := by linarith
    rw [if_neg hhalf.ne']
    refine ⟨iff_of_true ⟨le_min zero_le_one (div_nonneg hnonneg hhalf.le), ?_⟩ hlt.le,
      min_le_left ..⟩
    constructor
    · intro hmin
      rcases min_choice 1 (rawGap / ((high - low) / 2)) with h | h
      · rw [h] at hmin
        exact absurd hmin one_ne_zero
      · rw [h] at hmin
        exact (div_eq_zero_iff.mp hmin).resolve_right hhalf.ne'
    · rintro rfl
      rw [zero_div]
      exact min_eq_right zero_le_one
  · have hhalf : (high - low) / 2 = 0 := by linarith
    rw [if_pos hhalf]
    split
    · next hpos => exact ⟨iff_of_true ⟨zero_le_one, iff_of_false one_ne_zero hpos.ne'⟩ heq.le, le_rfl⟩
    · next hnot =>
      have hzero : rawGap = 0 := le_antisymm (not_lt.mp hnot) hnonneg
      exact ⟨iff_of_true ⟨le_rfl, iff_of_true rfl hzero⟩ heq.le, zero_le_one⟩
  · -- the bounds are the wrong way round: no value is inside, and the width is negative
    have hhalf : (high - low) / 2 < 0 := by linarith
    have hpos : 0 < rawGap := by
      refine lt_of_le_of_ne hnonneg fun hzero => ?_
      obtain ⟨h₁, h₂⟩ := (outside_eq_zero_iff low high c).mp (hraw.trans hzero.symm)
      linarith
    have hq : rawGap / ((high - low) / 2) < 0 := div_neg_of_pos_of_neg hpos hhalf
    rw [if_neg hhalf.ne]
    refine ⟨iff_of_false (fun h => ?_) (not_le.mpr hgt), min_le_left ..⟩
    exact absurd (h.1.trans (min_le_right ..)) (not_le.mpr hq)

/-- **A range.** -/
theorem range_spec (h : numericValue (some value) = some c) {low high : Number}
    (hlow : low ≠ .nan) (hhigh : high ≠ .nan) :
    ∃ q, normalizedGap (some value) (.range low high) = .finite q ∧
      GapSpec (some value) (.range low high) q := by
  rw [normalizedGap_range h]
  have hspec : ∀ q, GapSpec (some value) (.range low high) q ↔
      (0 ≤ q ∧ (q = 0 ↔ low.le (.finite c) = true ∧ (Number.finite c).le high = true) ↔
        RangeKept c low high) ∧ q ≤ 1 := by
    intro q
    simp [GapSpec, SignKept, WithinOne, isSatisfiedRaw, toNumberOrNull, h]
  simp only [hspec]
  cases low with
  | nan => exact absurd rfl hlow
  | posInf =>
    refine ⟨1, ?_, by simp [RangeKept, Number.le], le_rfl⟩
    cases high with
    | nan => exact absurd rfl hhigh
    | posInf | negInf => rfl
    | finite u =>
      rw [Number.sub_finite c u, Number.max_finite]
      rfl
  | negInf =>
    cases high with
    | nan => exact absurd rfl hhigh
    | posInf => exact ⟨0, rfl, by simp [RangeKept, Number.le], zero_le_one⟩
    | negInf => exact ⟨1, rfl, by simp [RangeKept, Number.le], le_rfl⟩
    | finite u =>
      refine ⟨0, ?_, by simp [RangeKept, Number.le], zero_le_one⟩
      rw [Number.sub_finite c u, Number.max_finite]
      rfl
  | finite l =>
    rw [Number.sub_finite l c, Number.max_finite]
    cases high with
    | nan => exact absurd rfl hhigh
    | posInf => exact ⟨0, rfl, by simp [RangeKept, Number.le], zero_le_one⟩
    | negInf => exact ⟨1, rfl, by simp [RangeKept, Number.le], le_rfl⟩
    | finite u =>
      obtain ⟨q, hq, hkept, hone⟩ := range_finite_spec l u c
      refine ⟨q, ?_, by simpa [RangeKept] using hkept, hone⟩
      rw [← hq]
      simp only [Number.sub_finite, Number.max_finite, Number.add_finite, Number.isFinite_finite,
        Bool.not_true, Bool.false_eq_true, if_false, Number.strictEq_finite, Number.lt_finite,
        decide_eq_true_eq, Number.div_finite _ (two_ne_zero (α := ℚ))]
      split
      · split <;> rfl
      · next hhalf => rw [Number.div_finite _ hhalf, Number.min_finite]

end Numeric

theorem present_spec (value : Primitive) :
    ∃ q, normalizedGap (some value) .present = .finite q ∧ GapSpec (some value) .present q := by
  have hgap : normalizedGap (some value) .present =
      .finite (if isTruthy (some value) = true then 0 else 1) := by
    unfold normalizedGap computeRawGap
    dsimp only
    split <;> rfl
  refine ⟨_, hgap, ?_⟩
  by_cases htruthy : isTruthy (some value) = true <;>
    simp [GapSpec, SignKept, WithinOne, isSatisfiedRaw, htruthy]

/-- **A value to match**: a number is a score, anything else is compared. -/
theorem match_spec (value target : Primitive) :
    ∃ q, normalizedGap (some value) (.match target) = .finite q ∧
      GapSpec (some value) (.match target) q := by
  have hcompared : (∀ x, value ≠ .number x) →
      ∃ q, normalizedGap (some value) (.match target) = .finite q ∧
        GapSpec (some value) (.match target) q := by
    intro hvalue
    refine ⟨if value.strictEq target = true then 0 else 1, ?_, ?_⟩
    · cases value with
      | number x => exact absurd rfl (hvalue x)
      | string s =>
        unfold normalizedGap computeRawGap
        dsimp only
        split <;> rfl
      | boolean b =>
        unfold normalizedGap computeRawGap
        dsimp only
        split <;> rfl
    · by_cases heq : value.strictEq target = true <;>
        simp [GapSpec, SignKept, WithinOne, isSatisfiedRaw, heq, hvalue]
  cases value with
  | string s => exact hcompared fun x => by simp
  | boolean b => exact hcompared fun x => by simp
  | number x =>
    cases x with
    | nan | posInf | negInf =>
      exact ⟨1, rfl, by simp [GapSpec, SignKept, WithinOne, isSatisfiedRaw, FullScore]⟩
    | finite score =>
      refine ⟨max 0 (min 1 (1 - score)), ?_, ?_⟩
      · have hraw : computeRawGap (some (.number (.finite score))) (.match target) =
            .finite (max 0 (min 1 (1 - score))) := by
          simp [computeRawGap]
        unfold normalizedGap
        rw [hraw]
        rfl
      · have hzero : max 0 (min 1 (1 - score)) = 0 ↔ 1 ≤ score := by
          rw [max_eq_left_iff, min_le_iff, sub_nonpos]
          exact ⟨fun h => h.resolve_left (by norm_num), .inr⟩
        have hsign : SignKept (some (.number (.finite score))) (.match target) ↔
            ((Primitive.number (.finite score)).strictEq target = true ↔ 1 ≤ score) := by
          simp [SignKept, FullScore]
        refine ⟨?_, iff_of_true (max_le zero_le_one (min_le_left ..)) trivial⟩
        rw [hzero, hsign, and_iff_right (le_max_left ..)]
        exact ⟨Iff.symm, Iff.symm⟩

/-! ## Every threshold -/

/-- **The normalized gap of any value under any threshold.** -/
theorem normalizedGap_spec (value : DimensionValue) {threshold : Threshold}
    (hadmitted : threshold.Admitted) :
    ∃ q, normalizedGap value threshold = .finite q ∧ GapSpec value threshold q := by
  cases value with
  | none =>
    have hnull : normalizedGap none threshold = .finite 1 := by
      unfold normalizedGap normalizeGap
      split
      · rfl
      · split <;> rfl
    refine ⟨1, hnull, ?_⟩
    cases threshold <;> simp [GapSpec, SignKept, WithinOne, isSatisfiedRaw, numericValue]
  | some value =>
    cases hvalue : numericValue (some value) with
    | none =>
      cases threshold with
      | min limit =>
        exact ⟨1, normalizedGap_of_none hvalue rfl, by
          simp [GapSpec, SignKept, WithinOne, isSatisfiedRaw, toNumberOrNull, hvalue]⟩
      | max limit =>
        exact ⟨1, normalizedGap_of_none hvalue rfl, by
          simp [GapSpec, SignKept, WithinOne, isSatisfiedRaw, toNumberOrNull, hvalue]⟩
      | range low high =>
        exact ⟨1, normalizedGap_of_none hvalue rfl, by
          simp [GapSpec, SignKept, WithinOne, isSatisfiedRaw, toNumberOrNull, hvalue]⟩
      | present => exact present_spec value
      | «match» target => exact match_spec value target
    | some c =>
      cases threshold with
      | min limit => exact min_spec hvalue hadmitted
      | max limit => exact max_spec hvalue hadmitted
      | range low high => exact range_spec hvalue hadmitted.1 hadmitted.2
      | present => exact present_spec value
      | «match» target => exact match_spec value target

theorem agrees_normalized_iff (value : DimensionValue) {threshold : Threshold}
    (hadmitted : threshold.Admitted) :
    Agrees (normalizedGap value threshold) (isSatisfiedRaw value threshold) ↔
      SignKept value threshold ∧ WithinOne value threshold := by
  obtain ⟨q, hgap, hsign, hone⟩ := normalizedGap_spec value hadmitted
  rw [← hsign, ← hone]
  constructor
  · rintro ⟨q', hq', hnonneg, hle, hzero⟩
    rw [hgap] at hq'
    cases hq'
    exact ⟨⟨hnonneg, hzero⟩, hle⟩
  · rintro ⟨⟨hnonneg, hzero⟩, hle⟩
    exact ⟨q, hgap, hnonneg, hle, hzero⟩

/-- With full confidence a finite weight leaves the gap, but for the bound of 1. -/
theorem applyConfidenceWeight_full (q weight : ℚ) :
    applyConfidenceWeight (.finite q) (.finite 1) (.finite weight) false =
      .finite (min 1 q) := by
  simp [applyConfidenceWeight]

theorem applyConfidenceWeight_infinite (q : ℚ) {weight : Number}
    (hweight : weight.isFinite = false) :
    applyConfidenceWeight (.finite q) (.finite 1) weight false = .nan := by
  cases weight with
  | finite w => cases hweight
  | nan | posInf | negInf =>
    simp [applyConfidenceWeight, Number.mul, Number.add, Number.infinity, Number.min]

theorem agrees_weighted_iff (value : DimensionValue) {threshold : Threshold}
    (hadmitted : threshold.Admitted) (weight : Number) :
    Agrees (applyConfidenceWeight (normalizedGap value threshold) (.finite 1) weight
        value.isNone) (isSatisfiedRaw value threshold) ↔
      SignKept value threshold ∧ (value = none ∨ weight.isFinite = true) := by
  obtain ⟨q, hgap, hsign, hone⟩ := normalizedGap_spec value hadmitted
  cases value with
  | none =>
    have hwithin : WithinOne none threshold := by
      cases threshold <;> simp [WithinOne, numericValue]
    have hnormalized := agrees_normalized_iff none hadmitted
    rw [and_iff_left hwithin] at hnormalized
    rw [and_iff_left (.inl rfl)]
    exact hnormalized
  | some value =>
    rw [hgap, ← hsign]
    show Agrees (applyConfidenceWeight (.finite q) (.finite 1) weight false) _ ↔ _
    cases weight with
    | finite w =>
      rw [applyConfidenceWeight_full, and_iff_left (.inr rfl)]
      have hzero : min 1 q = 0 ↔ q = 0 := by
        constructor
        · intro hmin
          rcases min_choice 1 q with h | h
          · rw [h] at hmin
            exact absurd hmin one_ne_zero
          · rw [← h, hmin]
        · rintro rfl
          exact min_eq_right zero_le_one
      have hnonneg : 0 ≤ min 1 q ↔ 0 ≤ q := by
        rw [le_min_iff, and_iff_right zero_le_one]
      constructor
      · rintro ⟨q', hq', hnonneg', -, hzero'⟩
        cases hq'
        exact ⟨hnonneg.mp hnonneg', hzero.symm.trans hzero'⟩
      · rintro ⟨hnonneg', hzero'⟩
        exact ⟨min 1 q, rfl, hnonneg.mpr hnonneg', min_le_left .., hzero.trans hzero'⟩
    | nan | posInf | negInf =>
      rw [applyConfidenceWeight_infinite q rfl]
      refine iff_of_false (fun ⟨_, h, _⟩ => nomatch h) ?_
      rintro ⟨-, h | h⟩ <;> cases h

/-- A dimension that loses money: the target is 10, the value -5. -/
def sampleDimension : Dimension where
  name := "revenue"
  current_value := some (.number (.finite (-5)))
  threshold := .min (.finite 10)
  confidence := .finite 1

end PulSeed.Drive
