import Mathlib.Data.List.Basic

/-!
# A condition on each member of a list at its turn

The members of a list act on a state one after another. `InTurn` says that each of them meets a
condition on the state that those before it have left; `AtTurn` finds the state at the turn of a
member.
-/

namespace PulSeed

universe u v

variable {σ : Type u} {α : Type v} {step : σ → α → σ}

/-- A member of a list meets a condition on the state that those before it have left. -/
def AtTurn (step : σ → α → σ) (P : σ → α → Prop) (s : σ) (l : List α) : Prop :=
  ∃ before a after, l = before ++ a :: after ∧ P (before.foldl step s) a

/-- Every member of a list meets a condition on the state that those before it have left. -/
def InTurn (step : σ → α → σ) (P : σ → α → Prop) (s : σ) : List α → Prop
  | [] => True
  | a :: l => P s a ∧ InTurn step P (step s a) l

theorem atTurn_nil {P : σ → α → Prop} {s : σ} : ¬ AtTurn step P s [] := by
  rintro ⟨before, a, after, hl, -⟩
  exact List.cons_ne_nil a after (List.append_eq_nil_iff.mp hl.symm).2

theorem atTurn_cons {P : σ → α → Prop} {s : σ} {a : α} {l : List α} :
    AtTurn step P s (a :: l) ↔ P s a ∨ AtTurn step P (step s a) l := by
  constructor
  · rintro ⟨before, a', after, hl, hP⟩
    cases before with
    | nil =>
      obtain ⟨rfl, rfl⟩ := List.cons.inj hl
      exact .inl hP
    | cons first before =>
      obtain ⟨rfl, rfl⟩ := List.cons.inj hl
      exact .inr ⟨before, a', after, rfl, hP⟩
  · rintro (hP | ⟨before, a', after, rfl, hP⟩)
    · exact ⟨[], a, l, rfl, hP⟩
    · exact ⟨a :: before, a', after, rfl, hP⟩

theorem InTurn.mem {P : σ → α → Prop} {s : σ} {a : α} {l : List α} (h : InTurn step P s l)
    (ha : a ∈ l) : ∃ s', P s' a := by
  induction l generalizing s with
  | nil => cases ha
  | cons b l ih =>
    rcases List.mem_cons.mp ha with rfl | ha
    · exact ⟨s, h.1⟩
    · exact ih h.2 ha

/-- **Either every member meets a condition at its turn, or one fails it at its turn.** -/
theorem not_inTurn_iff {P : σ → α → Prop} {s : σ} {l : List α} :
    ¬ InTurn step P s l ↔ AtTurn step (fun s a => ¬ P s a) s l := by
  induction l generalizing s with
  | nil => exact iff_of_false (fun h => h trivial) atTurn_nil
  | cons a l ih => rw [InTurn, atTurn_cons, ← ih, not_and_or]

end PulSeed
