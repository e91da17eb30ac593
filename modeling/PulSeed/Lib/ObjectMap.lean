import Mathlib.Data.List.Nodup
import Mathlib.Logic.Function.Basic

/-!
# Insertion-ordered maps

The source keeps its tables in JavaScript objects and `Map`s: finite maps from
keys to values that remember the order in which the keys were first assigned.
`ObjectMap κ α` is such a map as a list of entries with distinct keys. Assigning
an existing key keeps its position, a new key goes to the end, `delete` drops
the entry. A lookup consults own entries only.

Everything is stated at the lookup: `get?_set`, `get?_delete` say what an update
does, `mem_entries_iff` relates the entries to the lookup, and `foldl_set_fresh`
says that building a map by successive assignments of fresh keys lists them in
order. The last section has the same for a list of members that need not have
distinct keys, such as the members of a JSON value.
-/

namespace PulSeed

universe u v

/-- A finite map that lists its entries in the order of first assignment. -/
@[ext]
structure ObjectMap (κ : Type u) (α : Type v) where
  entries : List (κ × α)
  nodupKeys : (entries.map Prod.fst).Nodup

namespace ObjectMap

variable {κ : Type u} {α : Type v} [DecidableEq κ]

/-- The keys, in order of first assignment. -/
def keys (m : ObjectMap κ α) : List κ := m.entries.map Prod.fst

/-- The object `{}`. -/
def empty : ObjectMap κ α := ⟨[], List.nodup_nil⟩

/-- `m[k]`. -/
def get? (m : ObjectMap κ α) (k : κ) : Option α :=
  (m.entries.find? fun e => decide (e.1 = k)).map Prod.snd

/-- `m[k] = v`: in place when `k` is a key, at the end otherwise. -/
def setEntries (l : List (κ × α)) (k : κ) (v : α) : List (κ × α) :=
  if k ∈ l.map Prod.fst then l.map fun e => if e.1 = k then (k, v) else e
  else l ++ [(k, v)]

theorem setEntries_keys (l : List (κ × α)) (k : κ) (v : α) :
    (setEntries l k v).map Prod.fst =
      if k ∈ l.map Prod.fst then l.map Prod.fst else l.map Prod.fst ++ [k] := by
  unfold setEntries
  split
  · rw [List.map_map]
    refine List.map_congr_left fun e _ => ?_
    by_cases h : e.1 = k <;> simp [h]
  · simp

/-- `m[k] = v`. -/
def set (m : ObjectMap κ α) (k : κ) (v : α) : ObjectMap κ α where
  entries := setEntries m.entries k v
  nodupKeys := by
    rw [setEntries_keys]
    split
    · exact m.nodupKeys
    · next h => exact List.Nodup.append m.nodupKeys (by simp) (by simpa using h)

/-- `delete m[k]`. -/
def delete (m : ObjectMap κ α) (k : κ) : ObjectMap κ α where
  entries := m.entries.filter fun e => decide (e.1 ≠ k)
  nodupKeys := m.nodupKeys.sublist (List.filter_sublist.map Prod.fst)

omit [DecidableEq κ] in
/-- Entries with distinct keys are determined by their key. -/
theorem entry_unique {l : List (κ × α)} (h : (l.map Prod.fst).Nodup) {k : κ} {v w : α}
    (hv : (k, v) ∈ l) (hw : (k, w) ∈ l) : v = w := by
  have := List.inj_on_of_nodup_map h hv hw rfl
  exact congrArg Prod.snd this

/-- With distinct keys, searching the key of a member finds that member. -/
theorem find?_key {key : α → κ} {l : List α} (h : (l.map key).Nodup) {a : α} (ha : a ∈ l) :
    (l.find? fun b => decide (key b = key a)) = some a := by
  cases hfind : l.find? fun b => decide (key b = key a) with
  | none =>
    have := List.find?_eq_none.mp hfind a ha
    simp at this
  | some b =>
    have hkey : key b = key a := by simpa using List.find?_some hfind
    rw [List.inj_on_of_nodup_map h (List.mem_of_find?_eq_some hfind) ha hkey]

theorem find?_entry {l : List (κ × α)} (h : (l.map Prod.fst).Nodup) {k : κ} {v : α}
    (hmem : (k, v) ∈ l) : (l.find? fun e => decide (e.1 = k)) = some (k, v) := find?_key h hmem

theorem mem_entries_iff {m : ObjectMap κ α} {k : κ} {v : α} :
    (k, v) ∈ m.entries ↔ m.get? k = some v := by
  unfold get?
  constructor
  · intro hmem
    rw [find?_entry m.nodupKeys hmem]
    rfl
  · intro hget
    obtain ⟨e, hfind, rfl⟩ := Option.map_eq_some_iff.mp hget
    have hk : e.1 = k := by simpa using List.find?_some hfind
    subst hk
    exact List.mem_of_find?_eq_some hfind

theorem mem_keys_iff {m : ObjectMap κ α} {k : κ} : k ∈ m.keys ↔ ∃ v, m.get? k = some v := by
  unfold keys
  simp only [List.mem_map, Prod.exists, exists_and_right, exists_eq_right, mem_entries_iff]

theorem not_mem_keys_iff {m : ObjectMap κ α} {k : κ} : k ∉ m.keys ↔ m.get? k = none := by
  rw [mem_keys_iff, Option.eq_none_iff_forall_ne_some]
  simp

@[simp] theorem get?_empty (k : κ) : (empty : ObjectMap κ α).get? k = none := rfl

omit [DecidableEq κ] in
@[simp] theorem entries_empty : (empty : ObjectMap κ α).entries = [] := rfl

/-- Two lookups agree when the entries with that key agree. -/
theorem get?_congr {m m' : ObjectMap κ α} {k : κ}
    (h : ∀ v, (k, v) ∈ m.entries ↔ (k, v) ∈ m'.entries) : m.get? k = m'.get? k := by
  ext v
  rw [← mem_entries_iff, ← mem_entries_iff, h v]

theorem get?_set (m : ObjectMap κ α) (k k' : κ) (v : α) :
    (m.set k v).get? k' = if k' = k then some v else m.get? k' := by
  by_cases hk : k' = k
  · subst hk
    rw [if_pos rfl, ← mem_entries_iff]
    show (k', v) ∈ setEntries m.entries k' v
    unfold setEntries
    split
    · next hmem =>
      obtain ⟨e, he, hek⟩ := List.mem_map.mp hmem
      exact List.mem_map.mpr ⟨e, he, by simp [hek]⟩
    · simp
  · rw [if_neg hk]
    refine get?_congr fun w => ?_
    show (k', w) ∈ setEntries m.entries k v ↔ _
    unfold setEntries
    split
    · constructor
      · intro hmem
        obtain ⟨e, he, heq⟩ := List.mem_map.mp hmem
        by_cases hek : e.1 = k
        · rw [if_pos hek] at heq
          exact absurd (congrArg Prod.fst heq).symm hk
        · rw [if_neg hek] at heq
          exact heq ▸ he
      · intro hmem
        exact List.mem_map.mpr ⟨(k', w), hmem, by simp [hk]⟩
    · simp [hk]

@[simp] theorem get?_set_self (m : ObjectMap κ α) (k : κ) (v : α) :
    (m.set k v).get? k = some v := by
  rw [get?_set, if_pos rfl]

theorem get?_delete (m : ObjectMap κ α) (k k' : κ) :
    (m.delete k).get? k' = if k' = k then none else m.get? k' := by
  by_cases hk : k' = k
  · subst hk
    rw [if_pos rfl, ← not_mem_keys_iff]
    simp [keys, delete]
  · rw [if_neg hk]
    refine get?_congr fun w => ?_
    simp [delete, hk]

/-- An assignment, as an update of the lookup function. -/
theorem get?_set_eq_update (m : ObjectMap κ α) (k : κ) (v : α) :
    (m.set k v).get? = Function.update m.get? k (some v) := by
  funext k'
  rw [get?_set, Function.update_apply]

/-- A deletion, as an update of the lookup function. -/
theorem get?_delete_eq_update (m : ObjectMap κ α) (k : κ) :
    (m.delete k).get? = Function.update m.get? k none := by
  funext k'
  rw [get?_delete, Function.update_apply]

/-- Assigning a fresh key appends its entry. -/
theorem entries_set_fresh {m : ObjectMap κ α} {k : κ} (v : α) (h : m.get? k = none) :
    (m.set k v).entries = m.entries ++ [(k, v)] := by
  have hk : k ∉ m.entries.map Prod.fst := not_mem_keys_iff.mpr h
  show setEntries m.entries k v = _
  unfold setEntries
  rw [if_neg hk]

/-- Assigning to a key the value it has changes nothing. -/
theorem set_self {m : ObjectMap κ α} {k : κ} {v : α} (h : m.get? k = some v) :
    m.set k v = m := by
  have hentries : (m.set k v).entries = m.entries := by
    have hkey : k ∈ m.entries.map Prod.fst := mem_keys_iff.mpr ⟨v, h⟩
    show setEntries m.entries k v = _
    unfold setEntries
    rw [if_pos hkey]
    refine (List.map_congr_left fun e he => ?_).trans (List.map_id _)
    obtain ⟨k', w⟩ := e
    by_cases hk : k' = k
    · subst hk
      simp [entry_unique m.nodupKeys (mem_entries_iff.mpr h) he]
    · simp [hk]
  cases m
  simpa [set] using hentries

/-- **Building a map by assignments of fresh keys**: when the keys of `l` are
distinct and new to `m`, assigning the entries of `l` in turn appends them. -/
theorem foldl_set_fresh (l : List (κ × α)) (m : ObjectMap κ α)
    (hl : (l.map Prod.fst).Nodup) (hnew : ∀ e ∈ l, m.get? e.1 = none) :
    (l.foldl (fun m e => m.set e.1 e.2) m).entries = m.entries ++ l := by
  induction l generalizing m with
  | nil => simp
  | cons e rest ih =>
    rw [List.map_cons, List.nodup_cons] at hl
    have hfresh := hnew e (List.mem_cons_self ..)
    rw [List.foldl_cons, ih (m.set e.1 e.2) hl.2, entries_set_fresh _ hfresh, List.append_assoc]
    · rfl
    · intro e' he'
      have hne : e'.1 ≠ e.1 := fun h => hl.1 (h ▸ List.mem_map_of_mem he')
      rw [get?_set, if_neg hne]
      exact hnew e' (List.mem_cons_of_mem _ he')

/-! ## Lists of members -/

/-- `m[k]` of a list of members. -/
def lookup (l : List (κ × α)) (k : κ) : Option α :=
  (l.find? fun e => decide (e.1 = k)).map Prod.snd

/-- `delete m[k]` of a list of members. -/
def deleteEntries (l : List (κ × α)) (k : κ) : List (κ × α) :=
  l.filter fun e => decide (e.1 ≠ k)

@[simp] theorem lookup_nil (k : κ) : lookup ([] : List (κ × α)) k = none := rfl

theorem lookup_cons (e : κ × α) (l : List (κ × α)) (k : κ) :
    lookup (e :: l) k = if e.1 = k then some e.2 else lookup l k := by
  unfold lookup
  by_cases h : e.1 = k <;> simp [h]

theorem lookup_append (l l' : List (κ × α)) (k : κ) :
    lookup (l ++ l') k = (lookup l k).or (lookup l' k) := by
  unfold lookup
  rw [List.find?_append]
  cases l.find? fun e => decide (e.1 = k) <;> rfl

theorem lookup_eq_none_of_not_mem {l : List (κ × α)} {k : κ} (h : k ∉ l.map Prod.fst) :
    lookup l k = none := by
  induction l with
  | nil => rfl
  | cons e l ih =>
    rw [List.map_cons, List.mem_cons, not_or] at h
    rw [lookup_cons, if_neg fun he => h.1 he.symm, ih h.2]

theorem lookup_setEntries (l : List (κ × α)) (k k' : κ) (v : α) :
    lookup (setEntries l k v) k' = if k' = k then some v else lookup l k' := by
  unfold setEntries
  split
  · next hmem =>
    induction l with
    | nil => simp at hmem
    | cons e l ih =>
      rw [List.map_cons, lookup_cons, lookup_cons]
      by_cases he : e.1 = k
      · by_cases hk : k' = k
        · simp [he, hk]
        · have hmap : lookup (l.map fun e => if e.1 = k then (k, v) else e) k' = lookup l k' := by
            by_cases hl : k ∈ l.map Prod.fst
            · rw [ih hl, if_neg hk]
            · congr 1
              refine (List.map_congr_left fun e' he' => ?_).trans (List.map_id l)
              refine if_neg fun h => hl ?_
              rw [← h]
              exact List.mem_map_of_mem he'
          rw [if_pos he, if_neg (Ne.symm hk), hmap, if_neg hk,
            if_neg fun h => hk (h.symm.trans he)]
      · have hl : k ∈ l.map Prod.fst := by
          rw [List.map_cons, List.mem_cons] at hmem
          exact hmem.resolve_left fun h => he h.symm
        rw [if_neg he, ih hl]
        by_cases hk : k' = k
        · rw [hk, if_neg he, if_pos rfl, if_pos rfl]
        · rw [if_neg hk, if_neg hk]
  · next hmem =>
    rw [lookup_append, lookup_cons, lookup_nil]
    by_cases hk : k' = k
    · rw [hk, if_pos rfl, if_pos rfl, lookup_eq_none_of_not_mem hmem]
      rfl
    · rw [if_neg hk, if_neg (Ne.symm hk), Option.or_none]

theorem lookup_deleteEntries (l : List (κ × α)) (k k' : κ) :
    lookup (deleteEntries l k) k' = if k' = k then none else lookup l k' := by
  induction l with
  | nil => simp [deleteEntries]
  | cons e l ih =>
    have hcons : deleteEntries (e :: l) k =
        if e.1 = k then deleteEntries l k else e :: deleteEntries l k := by
      unfold deleteEntries
      by_cases he : e.1 = k <;> simp [he]
    rw [hcons, lookup_cons]
    by_cases he : e.1 = k
    · rw [if_pos he, ih]
      by_cases hk : k' = k
      · rw [if_pos hk, if_pos hk]
      · rw [if_neg hk, if_neg hk, if_neg fun h => hk (h.symm.trans he)]
    · rw [if_neg he, lookup_cons, ih]
      by_cases hk : k' = k
      · rw [hk, if_neg he, if_pos rfl, if_pos rfl]
      · rw [if_neg hk, if_neg hk]

end ObjectMap

end PulSeed
