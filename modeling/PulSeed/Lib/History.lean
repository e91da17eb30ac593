import PulSeed.Lib.ObjectMap
import PulSeed.Lib.Transition

/-!
# Histories

The streak of a history is the number of its last entries in a row with a property. What
holds at every point of a history is found by looking at one more entry
(`everywhere_iff`).

A map holds the state of a component for each key, and a request goes to the component of
its key; a key that is missing from the map has a component in the initial state. The
requests and answers of one key are those of the component alone
(`exec_perKey_filter`): the components do not disturb each other.
-/

namespace PulSeed

universe u v w x

/-! ## Streaks -/

section Streak

variable {α : Type u} (p : α → Bool)

/-- The number of the last entries in a row with the property. -/
def streak (l : List α) : ℕ := (l.reverse.takeWhile p).length

@[simp] theorem streak_nil : streak p [] = 0 := rfl

theorem streak_concat (l : List α) (a : α) :
    streak p (l ++ [a]) = if p a then streak p l + 1 else 0 := by
  unfold streak
  rw [List.reverse_append]
  cases hp : p a with
  | true => simp [hp]
  | false => simp [hp]

end Streak

/-! ## Every point of a history -/

/-- **Exact rule for histories**: when one more entry keeps `P` exactly under the condition
`C`, then `P` holds at every point of a history exactly when all entries meet `C`. -/
theorem everywhere_iff {α : Type u} {P : List α → Prop} {C : List α → α → Prop} (hstart : P [])
    (hstep : ∀ before a, P before → (P (before ++ [a]) ↔ C before a)) (l : List α) :
    (∀ before after, l = before ++ after → P before) ↔
      ∀ before a after, l = before ++ a :: after → C before a := by
  constructor
  · intro hall before a after hsplit
    have hbefore := hall before (a :: after) hsplit
    have hafter := hall (before ++ [a]) after (by simp [hsplit])
    exact (hstep before a hbefore).mp hafter
  · intro hall before
    induction before using List.reverseRecOn with
    | nil => exact fun _ _ => hstart
    | append_singleton before a ih =>
      intro after hsplit
      have hsplit : l = before ++ a :: after := by simp [hsplit]
      exact (hstep before a (ih (a :: after) hsplit)).mpr (hall before a after hsplit)

/-! ## Components -/

variable {κ : Type u} [DecidableEq κ] {S : Type v} {I : Type w} {O : Type x}
variable (key : I → κ) (init : S) (f : S → I → S × O)

/-- The request is handled by the component of its key. -/
def perKey (m : ObjectMap κ S) (i : I) : ObjectMap κ S × O :=
  let r := f ((m.get? (key i)).getD init) i
  (m.set (key i) r.1, r.2)

theorem perKey_get? (m : ObjectMap κ S) (i : I) (k : κ) :
    ((perKey key init f m i).1.get? k).getD init =
      if key i = k then (f ((m.get? k).getD init) i).1 else (m.get? k).getD init := by
  unfold perKey
  rw [ObjectMap.get?_set]
  by_cases hk : key i = k
  · subst hk
    simp
  · rw [if_neg (Ne.symm hk), if_neg hk]

/-- **The history of one key** is that of its component. -/
theorem exec_perKey_filter (m : ObjectMap κ S) (is : List I) (k : κ) :
    (LTS.exec (perKey key init f) m is).1.filter (fun l => decide (key l.1 = k)) =
      (LTS.exec f ((m.get? k).getD init) (is.filter fun i => decide (key i = k))).1 := by
  induction is generalizing m with
  | nil => rfl
  | cons i is ih =>
    simp only [LTS.exec, List.filter_cons, decide_eq_true_eq]
    have hnext := ih (perKey key init f m i).1
    rw [perKey_get?] at hnext
    by_cases hk : key i = k
    · rw [if_pos hk, if_pos hk, LTS.exec, hnext, if_pos hk]
      simp [perKey, hk]
    · rw [if_neg hk, if_neg hk, hnext, if_neg hk]

theorem exec_requests {S' : Type*} (g : S' → I → S' × O) (s : S') (is : List I) :
    (LTS.exec g s is).1.map Prod.fst = is := by
  induction is generalizing s with
  | nil => rfl
  | cons i is ih => simp only [LTS.exec, List.map_cons, ih]

/-- **The requests of other keys** do not matter for the history of one. -/
theorem exec_perKey_alone (m : ObjectMap κ S) (is : List I) (k : κ) :
    (LTS.exec (perKey key init f) m is).1.filter (fun l => decide (key l.1 = k)) =
      (LTS.exec (perKey key init f) m (is.filter fun i => decide (key i = k))).1 := by
  have hall : ∀ l ∈ (LTS.exec (perKey key init f) m (is.filter fun i => decide (key i = k))).1,
      decide (key l.1 = k) = true := by
    intro l hl
    have hmem := List.mem_map_of_mem (f := Prod.fst) hl
    rw [exec_requests] at hmem
    exact (List.mem_filter.mp hmem).2
  rw [exec_perKey_filter, ← List.filter_eq_self.mpr hall, exec_perKey_filter, List.filter_filter]
  simp

end PulSeed
