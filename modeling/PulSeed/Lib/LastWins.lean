import Mathlib.Data.List.Basic
import Mathlib.Data.List.Induction
import Mathlib.Data.List.Perm.Basic
import Mathlib.Data.List.Nodup

/-!
# Values that the last element decides

A list of records is folded into one, field by field: a field has the value of the last record
that gives it one.

- `foldFirst`: a list folded into its first element, with `foldFirst_induction`.
- `lastSome`: the value of the last element that has one.
- `lastSome_perm_iff`: **it does not depend on the order exactly when all values agree.**
-/

namespace PulSeed.LastWins

universe u v

variable {α : Type u} {β : Type v}

/-! ## Folding into the first element -/

/-- The elements folded into the first one. -/
def foldFirst (op : α → α → α) : List α → Option α
  | [] => none
  | x :: xs => some (xs.foldl op x)

section FoldFirst

variable {op : α → α → α} {xs : List α} {x result : α}

theorem foldFirst_concat :
    foldFirst op (xs ++ [x]) = some ((foldFirst op xs).elim x (op · x)) := by
  cases xs with
  | nil => rfl
  | cons a xs =>
    rw [List.cons_append]
    unfold foldFirst
    simp only [List.foldl_append]
    rfl

theorem foldFirst_eq_none_iff : foldFirst op xs = none ↔ xs = [] := by
  cases xs <;> simp [foldFirst]

/-- **What holds of one element and is kept by the operation** holds of the result. -/
theorem foldFirst_induction {P : List α → α → Prop} (one : ∀ x, P [x] x)
    (more : ∀ xs result x, P xs result → P (xs ++ [x]) (op result x))
    (h : foldFirst op xs = some result) : P xs result := by
  induction xs using List.reverseRecOn generalizing result with
  | nil => cases h
  | append_singleton xs x ih =>
    rw [foldFirst_concat] at h
    cases hfold : foldFirst op xs with
    | none =>
      rw [hfold] at h
      cases h
      rw [foldFirst_eq_none_iff.mp hfold]
      exact one x
    | some before =>
      rw [hfold] at h
      cases h
      exact more xs before x (ih hfold)

/-- A field of a result that an operation on the fields decides. -/
theorem foldFirst_map {op' : β → β → β} {f : α → β} (hf : ∀ a b, f (op a b) = op' (f a) (f b))
    (h : foldFirst op xs = some x) : foldFirst op' (xs.map f) = some (f x) := by
  refine foldFirst_induction (P := fun xs x => foldFirst op' (xs.map f) = some (f x)) ?_ ?_ h
  · exact fun x => rfl
  · intro xs result x ih
    rw [List.map_append, List.map_singleton, foldFirst_concat, ih, hf]
    rfl

/-- The order does not matter to an operation that is commutative and associative. -/
theorem foldFirst_perm {ys : List α} (hcomm : ∀ a b, op a b = op b a)
    (hassoc : ∀ a b c, op (op a b) c = op a (op b c)) (h : xs.Perm ys) :
    foldFirst op xs = foldFirst op ys := by
  have hright : RightCommutative op :=
    ⟨fun a b c => by rw [hassoc, hcomm b c, ← hassoc]⟩
  induction h with
  | nil => rfl
  | cons x h ih => exact congrArg some (h.foldl_eq x)
  | swap x y xs =>
    show some (xs.foldl op (op y x)) = some (xs.foldl op (op x y))
    rw [hcomm]
  | trans _ _ ih ih' => exact ih.trans ih'

end FoldFirst

/-! ## The last value -/

/-- The value of the last element that has one. -/
def lastSome (f : α → Option β) (xs : List α) : Option β := (xs.filterMap f).getLast?

section LastSome

variable {f : α → Option β} {xs ys : List α} {x : α} {b : β}

@[simp] theorem lastSome_nil : lastSome f [] = none := rfl

@[simp] theorem lastSome_singleton : lastSome f [x] = f x := by
  unfold lastSome
  cases h : f x <;> simp [h]

theorem lastSome_append : lastSome f (xs ++ ys) = (lastSome f ys).or (lastSome f xs) := by
  unfold lastSome
  rw [List.filterMap_append, List.getLast?_append]

theorem lastSome_cons : lastSome f (x :: xs) = (lastSome f xs).or (f x) := by
  rw [← List.singleton_append, lastSome_append, lastSome_singleton]

theorem exists_of_lastSome (h : lastSome f xs = some b) : ∃ x ∈ xs, f x = some b :=
  List.mem_filterMap.mp (List.mem_of_getLast? h)

theorem lastSome_eq_none_iff : lastSome f xs = none ↔ ∀ x ∈ xs, f x = none := by
  unfold lastSome
  rw [List.getLast?_eq_none_iff, List.filterMap_eq_nil_iff]

/-- A field of a result that the later element decides has the last value. -/
theorem lastSome_foldFirst {op : α → α → α} (hf : ∀ a b, f (op a b) = (f b).or (f a))
    (h : foldFirst op xs = some x) : f x = lastSome f xs := by
  refine foldFirst_induction (P := fun xs x => f x = lastSome f xs) ?_ ?_ h
  · exact fun x => lastSome_singleton.symm
  · intro xs result x ih
    rw [hf, ih, lastSome_append, lastSome_singleton]

theorem lastSome_flatMap {γ : Type*} {g : γ → List α} {zs : List γ} :
    lastSome f (zs.flatMap g) = lastSome (fun z => lastSome f (g z)) zs := by
  induction zs with
  | nil => rfl
  | cons z zs ih => rw [List.flatMap_cons, lastSome_append, lastSome_cons, ih]

theorem lastSome_map {γ : Type*} {g : β → γ} :
    lastSome (fun x => (f x).map g) xs = (lastSome f xs).map g := by
  unfold lastSome
  rw [← List.map_filterMap, List.getLast?_map]

/-- The values of the elements are all the same. -/
def Agree (f : α → Option β) (xs : List α) : Prop :=
  ∀ x ∈ xs, ∀ y ∈ xs, ∀ a b, f x = some a → f y = some b → a = b

theorem Agree.perm (h : Agree f xs) (hperm : ys.Perm xs) : Agree f ys :=
  fun x hx y hy => h x (hperm.mem_iff.mp hx) y (hperm.mem_iff.mp hy)

theorem Agree.lastSome_eq_some_iff (h : Agree f xs) :
    lastSome f xs = some b ↔ ∃ x ∈ xs, f x = some b := by
  constructor
  · exact exists_of_lastSome
  · rintro ⟨x, hx, hb⟩
    cases hlast : lastSome f xs with
    | none => exact absurd (lastSome_eq_none_iff.mp hlast x hx) (by simp [hb])
    | some a =>
      obtain ⟨y, hy, ha⟩ := exists_of_lastSome hlast
      rw [h y hy x hx a b ha hb]

theorem Agree.lastSome_perm (h : Agree f xs) (hperm : ys.Perm xs) :
    lastSome f ys = lastSome f xs := by
  refine Option.ext fun b => ?_
  rw [(h.perm hperm).lastSome_eq_some_iff, h.lastSome_eq_some_iff]
  simp only [hperm.mem_iff]

/-- Any element can come last. -/
theorem exists_perm_append (hx : x ∈ xs) : ∃ ys : List α, (ys ++ [x]).Perm xs := by
  obtain ⟨before, after, rfl⟩ := List.append_of_mem hx
  refine ⟨before ++ after, ?_⟩
  rw [List.append_assoc]
  have hcomm : (after ++ [x]).Perm ([x] ++ after) := List.perm_append_comm
  exact hcomm.append_left before

/-- **The last value does not depend on the order** exactly when all values agree. -/
theorem lastSome_perm_iff :
    (∀ ys : List α, ys.Perm xs → lastSome f ys = lastSome f xs) ↔ Agree f xs := by
  constructor
  · have hlast : ∀ x ∈ xs, ∀ a, f x = some a →
        (∀ ys : List α, ys.Perm xs → lastSome f ys = lastSome f xs) → lastSome f xs = some a := by
      intro x hx a ha hall
      obtain ⟨ys, hys⟩ := exists_perm_append hx
      rw [← hall _ hys, lastSome_append, lastSome_singleton, ha]
      rfl
    intro hall x hx y hy a b ha hb
    exact Option.some.inj ((hlast x hx a ha hall).symm.trans (hlast y hy b hb hall))
  · exact fun h ys hperm => h.lastSome_perm hperm

end LastSome

end PulSeed.LastWins
