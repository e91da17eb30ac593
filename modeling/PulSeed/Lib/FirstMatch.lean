import Mathlib.Data.List.Basic

/-!
# The first element that satisfies a test

A list as a table whose rows are found by a test `p`, the first one that satisfies it. A
new row in the place of the first one is seen through every filter: what other tests find
stays, and of the rows that `p` finds only the first is replaced.
-/

namespace PulSeed

namespace FirstMatch

variable {α : Type*} {p q : α → Bool} {l : List α} {idx : ℕ} {a b : α}

theorem find?_of_findIdx? (h : l.findIdx? p = some idx) : l.find? p = l[idx]? := by
  rw [List.find?_eq_bind_findIdx?_getElem?, h, Option.bind_some]

/-- The rows before and after the first one that `p` finds. -/
theorem exists_split (h : l.findIdx? p = some idx) : ∃ before a after, l = before ++ a :: after ∧
    (∀ x ∈ before, p x = false) ∧ p a = true ∧ l[idx]? = some a ∧
      ∀ b, l.set idx b = before ++ b :: after := by
  obtain ⟨hlt, hp, hbefore⟩ := List.findIdx?_eq_some_iff_getElem.mp h
  refine ⟨l.take idx, l[idx], l.drop (idx + 1), ?_, fun x hx => ?_, hp,
    List.getElem?_eq_getElem hlt, fun b => ?_⟩
  · rw [← List.drop_eq_getElem_cons hlt, List.take_append_drop]
  · obtain ⟨i, hi, rfl⟩ := List.mem_iff_getElem.mp hx
    rw [List.length_take] at hi
    rw [List.getElem_take]
    simpa using hbefore i (by omega)
  · rw [List.set_eq_take_append_cons_drop, if_pos hlt]

/-- What a test finds that finds neither the old row nor the new one. -/
theorem filter_set_of_disjoint (h : l.findIdx? p = some idx) (hdisjoint : ∀ x, p x = true → q x = false)
    (hb : p b = true) : (l.set idx b).filter q = l.filter q := by
  obtain ⟨before, a, after, rfl, -, ha, -, hset⟩ := exists_split h
  rw [hset]
  simp [hdisjoint a ha, hdisjoint b hb]

/-- Of the rows that `p` finds the first is replaced. -/
theorem filter_set_first (h : l.findIdx? p = some idx) (hb : p b = true) :
    (l.set idx b).filter p = b :: (l.filter p).tail := by
  obtain ⟨before, a, after, rfl, hbefore, ha, -, hset⟩ := exists_split h
  have hnone : before.filter p = [] := List.filter_eq_nil_iff.mpr fun x hx => by simp [hbefore x hx]
  rw [hset]
  simp [hnone, ha, hb]

/-- A new row at the end, when `p` finds none. -/
theorem filter_append_first (h : l.findIdx? p = none) (hb : p b = true) :
    (l ++ [b]).filter p = b :: (l.filter p).tail := by
  have hnone : l.filter p = [] := by
    rw [List.findIdx?_eq_none_iff] at h
    exact List.filter_eq_nil_iff.mpr fun x hx => by simp [h x hx]
  simp [hnone, hb]

theorem filter_append_of_disjoint (hdisjoint : ∀ x, p x = true → q x = false) (hb : p b = true) :
    (l ++ [b]).filter q = l.filter q := by
  simp [hdisjoint b hb]

end FirstMatch

end PulSeed
