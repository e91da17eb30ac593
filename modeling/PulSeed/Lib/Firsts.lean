import Mathlib.Data.List.Nodup
import Mathlib.Data.List.Sort

/-!
# The first element of each key

A list is rebuilt from some of its keys, each standing for the first element that has it.

- `firsts`: the first elements of a list of keys, with `map_key_firsts`.
- `firsts_perm_iff`: **they are all the elements with these keys** exactly when none of the keys
  is the key of two elements.
- `filter_perm_flatMap`: a list by its keys.
-/

namespace PulSeed.Firsts

universe u v

variable {α : Type u} {κ : Type v} [DecidableEq κ] {key : α → κ} {l : List α} {keys : List κ}

/-- The first element of each of the keys. -/
def firsts (key : α → κ) (l : List α) (keys : List κ) : List α :=
  keys.filterMap fun k => l.find? fun a => key a = k

theorem firsts_cons (k : κ) : firsts key l (k :: keys) =
    (l.find? fun a => key a = k).toList ++ firsts key l keys := by
  unfold firsts
  cases hfind : l.find? fun a => key a = k with
  | none => exact List.filterMap_cons_none hfind
  | some a => exact List.filterMap_cons_some hfind

theorem exists_first {k : κ} (hk : k ∈ l.map key) :
    ∃ a ∈ l, key a = k ∧ (l.find? fun a => key a = k) = some a := by
  obtain ⟨b, hb, hkey⟩ := List.mem_map.mp hk
  obtain ⟨a, ha⟩ := Option.isSome_iff_exists.mp
    ((List.find?_isSome (p := fun a => key a = k)).mpr ⟨b, hb, by simpa using hkey⟩)
  exact ⟨a, List.mem_of_find?_eq_some ha, by simpa using List.find?_some ha, ha⟩

theorem firsts_filter (p : κ → Bool) :
    (firsts key l keys).filter (fun a => p (key a)) = firsts key l (keys.filter p) := by
  induction keys with
  | nil => rfl
  | cons k keys ih =>
    rw [firsts_cons, List.filter_append, ih, List.filter_cons]
    cases hfind : l.find? fun a => key a = k with
    | none =>
      split
      · rw [firsts_cons, hfind]
        rfl
      · rfl
    | some a =>
      have hkey : key a = k := by simpa using List.find?_some hfind
      rw [Option.toList_some, List.filter_singleton, hkey]
      cases p k with
      | true =>
        rw [if_pos rfl, firsts_cons, hfind]
        rfl
      | false => rfl

theorem mem_of_mem_firsts {a : α} (h : a ∈ firsts key l keys) : a ∈ l ∧ key a ∈ keys := by
  obtain ⟨k, hk, hfind⟩ := List.mem_filterMap.mp h
  obtain rfl : key a = k := by simpa using List.find?_some hfind
  exact ⟨List.mem_of_find?_eq_some hfind, hk⟩

/-- The first elements have the keys, in their order. -/
theorem map_key_firsts (hkeys : ∀ k ∈ keys, k ∈ l.map key) : (firsts key l keys).map key = keys := by
  induction keys with
  | nil => rfl
  | cons k keys ih =>
    obtain ⟨a, -, hkey, hfind⟩ := exists_first (hkeys k List.mem_cons_self)
    rw [firsts_cons, hfind, Option.toList_some, List.singleton_append, List.map_cons, hkey,
      ih fun k' hk' => hkeys k' (List.mem_cons_of_mem _ hk')]

/-- **A list by its keys.** -/
theorem filter_perm_flatMap (hkeys : keys.Nodup) :
    (l.filter fun a => key a ∈ keys).Perm (keys.flatMap fun k => l.filter fun a => key a = k) := by
  induction keys with
  | nil => simp
  | cons k keys ih =>
    obtain ⟨hk, hkeys⟩ := List.nodup_cons.mp hkeys
    rw [List.flatMap_cons]
    refine (List.filter_append_perm (fun a => key a = k) _).symm.trans ?_
    rw [List.filter_filter, List.filter_filter]
    refine List.Perm.append (.of_eq (List.filter_congr fun a _ => ?_))
      ((List.Perm.of_eq (List.filter_congr fun a _ => ?_)).trans (ih hkeys))
    · by_cases ha : key a = k <;> simp [ha]
    · by_cases ha : key a = k
      · simp [ha, hk]
      · simp [ha]

/-- Where no other element has the key, the first one with it is the only one. -/
theorem filter_key_eq {k : κ} (hcount : (l.map key).count k ≤ 1) :
    (l.filter fun a => key a = k) = (l.find? fun a => key a = k).toList := by
  induction l with
  | nil => rfl
  | cons a l ih =>
    rw [List.map_cons, List.count_cons] at hcount
    rw [List.filter_cons, List.find?_cons]
    by_cases ha : key a = k
    · have hnone : (l.map key).count k = 0 := by
        simp only [ha, beq_self_eq_true, if_true] at hcount
        omega
      have hnil : (l.filter fun a => key a = k) = [] := by
        refine List.filter_eq_nil_iff.mpr fun b hb hkey => ?_
        exact List.count_eq_zero.mp hnone (List.mem_map.mpr ⟨b, hb, by simpa using hkey⟩)
      simp [ha, hnil]
    · simp only [ha, decide_false, Bool.false_eq_true, if_false]
      refine ih ?_
      omega

/-- **The first elements are all that have one of the keys** exactly when no two elements share
one. -/
theorem firsts_perm_iff (hkeys : keys.Nodup) (hmem : ∀ k ∈ keys, k ∈ l.map key) :
    (firsts key l keys).Perm (l.filter fun a => key a ∈ keys) ↔
      ∀ k ∈ keys, (l.map key).count k ≤ 1 := by
  constructor
  · intro hperm k hk
    have hmap := hperm.map key
    rw [map_key_firsts hmem] at hmap
    have hcount : (l.map key).count k = ((l.filter fun a => key a ∈ keys).map key).count k := by
      have hfilter : (l.filter fun a => key a ∈ keys).map key = (l.map key).filter (· ∈ keys) := by
        rw [List.filter_map]
        rfl
      rw [hfilter, List.count_filter (by simpa using hk)]
    rw [hcount, ← hmap.count_eq]
    exact List.nodup_iff_count_le_one.mp hkeys k
  · intro hcount
    refine List.Perm.trans (.of_eq ?_) (filter_perm_flatMap hkeys).symm
    unfold firsts
    rw [List.filterMap_eq_flatMap_toList]
    exact List.flatMap_congr fun k hk => (filter_key_eq (hcount k hk)).symm

/-- Elements with distinct keys, whose keys no other element has, are the first ones. -/
theorem firsts_map_key {part : List α} (hpart : ∀ a ∈ part, a ∈ l)
    (hunique : ∀ a ∈ part, ∀ b ∈ l, key b = key a → b = a) :
    firsts key l (part.map key) = part := by
  unfold firsts
  rw [List.filterMap_map]
  refine (List.filterMap_congr fun a ha => ?_).trans List.filterMap_some
  obtain ⟨b, hb, hkey, hfind⟩ := exists_first (List.mem_map_of_mem (f := key) (hpart a ha))
  show (l.find? fun b => key b = key a) = some a
  rw [hfind, hunique a ha b hb hkey]

/-- Where what a test finds comes after what it does not find, the list is the two parts. -/
theorem eq_filter_append {p : α → Prop} [DecidablePred p]
    (h : l.Pairwise fun a b => p a → p b) :
    l = l.filter (¬ p ·) ++ l.filter p := by
  induction l with
  | nil => rfl
  | cons a l ih =>
    obtain ⟨hfirst, hrest⟩ := List.pairwise_cons.mp h
    by_cases ha : p a
    · have hall : ∀ b ∈ a :: l, p b := by
        intro b hb
        rcases List.mem_cons.mp hb with rfl | hb
        · exact ha
        · exact hfirst b hb ha
      have hnil : (a :: l).filter (¬ p ·) = [] :=
        List.filter_eq_nil_iff.mpr fun b hb => by simpa using hall b hb
      rw [hnil, List.nil_append, List.filter_eq_self.mpr fun b hb => by simpa using hall b hb]
    · rw [List.filter_cons_of_pos (by simpa using ha), List.filter_cons_of_neg (by simpa using ha),
        List.cons_append, ← ih hrest]

end PulSeed.Firsts
