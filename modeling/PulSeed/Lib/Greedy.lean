import Mathlib.Algebra.BigOperators.Group.List.Basic

/-!
# Greedy selection

Elements with weights are taken in turn while the running total fits: `takeFitting` passes
over an element that does not fit and goes on, `fittingStart` stops there.
-/

namespace PulSeed

universe u v

variable {α : Type u} {M : Type v} [AddMonoid M]

/-- What is selected when an element that does not fit is passed over. -/
def takeFitting (weight : α → M) (fits : M → Bool) : M → List α → List α
  | _, [] => []
  | total, a :: l =>
    if fits (total + weight a) then a :: takeFitting weight fits (total + weight a) l
    else takeFitting weight fits total l

/-- The elements before the first one that does not fit. -/
def fittingStart (weight : α → M) (fits : M → Bool) : M → List α → List α
  | _, [] => []
  | total, a :: l =>
    if fits (total + weight a) then a :: fittingStart weight fits (total + weight a) l else []

/-- The first element that does not fit and what stands behind it. -/
def refused (weight : α → M) (fits : M → Bool) : M → List α → List α
  | _, [] => []
  | total, a :: l =>
    if fits (total + weight a) then refused weight fits (total + weight a) l else a :: l

section Basic

variable {weight : α → M} {fits : M → Bool} {total : M} {a : α}

theorem takeFitting_cons_of_fits (h : fits (total + weight a) = true) (l : List α) :
    takeFitting weight fits total (a :: l) =
      a :: takeFitting weight fits (total + weight a) l := if_pos h

theorem takeFitting_cons_of_not_fits (h : fits (total + weight a) = false) (l : List α) :
    takeFitting weight fits total (a :: l) = takeFitting weight fits total l :=
  if_neg (Bool.eq_false_iff.mp h)

variable (weight fits) in
theorem takeFitting_sublist (total : M) (l : List α) :
    (takeFitting weight fits total l).Sublist l := by
  induction l generalizing total with
  | nil => exact .slnil
  | cons a l ih =>
    unfold takeFitting
    split
    · exact (ih _).cons_cons a
    · exact (ih _).cons a

variable (weight fits) in
theorem fittingStart_append_refused (total : M) (l : List α) :
    fittingStart weight fits total l ++ refused weight fits total l = l := by
  induction l generalizing total with
  | nil => rfl
  | cons a l ih =>
    unfold fittingStart refused
    split
    · rw [List.cons_append, ih]
    · rfl

variable (weight fits) in
/-- What is selected: the elements before the first refusal, and the selection among the
others in what those leave. -/
theorem takeFitting_eq (total : M) (l : List α) :
    takeFitting weight fits total l = fittingStart weight fits total l ++
      takeFitting weight fits (total + ((fittingStart weight fits total l).map weight).sum)
        (refused weight fits total l) := by
  induction l generalizing total with
  | nil => rfl
  | cons a l ih =>
    by_cases h : fits (total + weight a) = true
    · have hstart : fittingStart weight fits total (a :: l) =
          a :: fittingStart weight fits (total + weight a) l := if_pos h
      have hrefused : refused weight fits total (a :: l) =
          refused weight fits (total + weight a) l := if_pos h
      rw [takeFitting_cons_of_fits h, hstart, hrefused, List.map_cons, List.sum_cons,
        ← add_assoc, List.cons_append, ← ih]
    · have hstart : fittingStart weight fits total (a :: l) = [] := if_neg h
      have hrefused : refused weight fits total (a :: l) = a :: l := if_neg h
      rw [hstart, hrefused, List.map_nil, List.sum_nil, add_zero, List.nil_append]

variable (weight fits total) in
theorem takeFitting_eq_nil_iff {l : List α} :
    takeFitting weight fits total l = [] ↔ ∀ a ∈ l, fits (total + weight a) = false := by
  induction l with
  | nil => exact ⟨fun _ => nofun, fun _ => rfl⟩
  | cons a l ih =>
    rw [List.forall_mem_cons, ← ih]
    constructor
    · intro h
      cases ha : fits (total + weight a) with
      | true =>
        rw [takeFitting_cons_of_fits ha] at h
        cases h
      | false => exact ⟨rfl, (takeFitting_cons_of_not_fits ha l).symm.trans h⟩
    · rintro ⟨ha, h⟩
      rw [takeFitting_cons_of_not_fits ha]
      exact h

/-- The first refusal does not fit behind what was selected before it. -/
theorem not_fits_of_refused {l rest : List α} (h : refused weight fits total l = a :: rest) :
    fits (total + ((fittingStart weight fits total l).map weight).sum + weight a) = false := by
  induction l generalizing total with
  | nil => cases h
  | cons b l ih =>
    unfold refused at h
    by_cases hb : fits (total + weight b) = true
    · rw [if_pos hb] at h
      have hstart : fittingStart weight fits total (b :: l) =
          b :: fittingStart weight fits (total + weight b) l := if_pos hb
      rw [hstart, List.map_cons, List.sum_cons, ← add_assoc]
      exact ih h
    · rw [if_neg hb] at h
      cases h
      have hstart : fittingStart weight fits total (a :: rest) = [] := if_neg hb
      rw [hstart, List.map_nil, List.sum_nil, add_zero]
      exact Bool.eq_false_iff.mpr hb

variable (weight fits total) in
/-- What does not fit behind all that stands before it is among the refused. -/
theorem refused_eq_append {before : List α} (rest : List α)
    (h : fits (total + (before.map weight).sum + weight a) = false) :
    ∃ between, refused weight fits total (before ++ a :: rest) = between ++ a :: rest := by
  induction before generalizing total with
  | nil =>
    rw [List.map_nil, List.sum_nil, add_zero] at h
    exact ⟨[], if_neg (Bool.eq_false_iff.mp h)⟩
  | cons b before ih =>
    rw [List.map_cons, List.sum_cons, ← add_assoc] at h
    by_cases hb : fits (total + weight b) = true
    · obtain ⟨between, hbetween⟩ := ih _ h
      exact ⟨between, (if_pos hb).trans hbetween⟩
    · exact ⟨b :: before, if_neg hb⟩

variable (weight fits) in
theorem fits_fittingStart (hstart : fits total = true) (l : List α) :
    fits (total + ((fittingStart weight fits total l).map weight).sum) = true := by
  induction l generalizing total with
  | nil =>
    rw [fittingStart, List.map_nil, List.sum_nil, add_zero]
    exact hstart
  | cons a l ih =>
    unfold fittingStart
    split
    · next h =>
      rw [List.map_cons, List.sum_cons, ← add_assoc]
      exact ih h
    · rw [List.map_nil, List.sum_nil, add_zero]
      exact hstart

end Basic

end PulSeed
