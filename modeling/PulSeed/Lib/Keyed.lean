import PulSeed.Lib.ObjectMap

/-!
# Tables keyed by a column

A database table is a list of rows of which no two have the same primary key.
`Keyed key` is such a table, where `key` reads the primary key off a row; its rows are
found under their own keys by construction. `upsert` inserts a row or replaces the one
with its key (`INSERT … ON CONFLICT(key) DO UPDATE`).

`find_upsert` says what an upsert does to a lookup and `mem_rows_iff` relates the rows to
the lookups.
-/

namespace PulSeed

universe u v

/-- A table whose rows are found under their key. -/
structure Keyed {κ : Type u} [DecidableEq κ] {α : Type v} (key : α → κ) where
  table : ObjectMap κ α
  keyed : ∀ k row, table.get? k = some row → key row = k

namespace Keyed

variable {κ : Type u} [DecidableEq κ] {α : Type v} {key : α → κ}

def empty : Keyed key where
  table := .empty
  keyed := nofun

/-- The row with a key. -/
def find (t : Keyed key) (k : κ) : Option α := t.table.get? k

/-- All rows. -/
def rows (t : Keyed key) : List α := t.table.entries.map Prod.snd

def upsert (t : Keyed key) (row : α) : Keyed key where
  table := t.table.set (key row) row
  keyed := by
    intro k r hr
    rw [ObjectMap.get?_set] at hr
    split at hr
    · next hk =>
      cases hr
      exact hk.symm
    · exact t.keyed k r hr

theorem key_of_find {t : Keyed key} {k : κ} {row : α} (h : t.find k = some row) : key row = k :=
  t.keyed k row h

@[simp] theorem find_empty (k : κ) : (empty : Keyed key).find k = none := rfl

theorem find_upsert (t : Keyed key) (row : α) (k : κ) :
    (t.upsert row).find k = if k = key row then some row else t.find k :=
  t.table.get?_set (key row) k row

theorem mem_rows_iff {t : Keyed key} {row : α} : row ∈ t.rows ↔ t.find (key row) = some row := by
  unfold rows find
  constructor
  · intro h
    obtain ⟨⟨k, r⟩, hmem, rfl⟩ := List.mem_map.mp h
    have hget := ObjectMap.mem_entries_iff.mp hmem
    rwa [t.keyed k r hget]
  · exact fun h => List.mem_map.mpr ⟨_, ObjectMap.mem_entries_iff.mpr h, rfl⟩

theorem nodup_rows (t : Keyed key) : t.rows.Nodup := by
  refine List.Nodup.of_map key ?_
  have hkeys : t.rows.map key = t.table.entries.map Prod.fst := by
    unfold rows
    rw [List.map_map]
    refine List.map_congr_left fun e he => ?_
    exact t.keyed e.1 e.2 (ObjectMap.mem_entries_iff.mp he)
  rw [hkeys]
  exact t.table.nodupKeys

theorem mem_rows_of_find {t : Keyed key} {k : κ} {row : α} (h : t.find k = some row) :
    row ∈ t.rows := by
  rw [mem_rows_iff, key_of_find h]
  exact h

/-- The rows after an upsert. -/
theorem mem_rows_upsert {t : Keyed key} {row r : α} :
    r ∈ (t.upsert row).rows ↔ r = row ∨ r ∈ t.rows ∧ key r ≠ key row := by
  rw [mem_rows_iff, mem_rows_iff, find_upsert]
  by_cases h : key r = key row
  · rw [if_pos h]
    constructor
    · exact fun hr => .inl (Option.some.inj hr).symm
    · rintro (rfl | ⟨-, hne⟩)
      · rfl
      · exact absurd h hne
  · rw [if_neg h]
    constructor
    · exact fun hr => .inr ⟨hr, h⟩
    · rintro (rfl | ⟨hr, -⟩)
      · exact absurd rfl h
      · exact hr

/-- `DELETE FROM … WHERE`. -/
def deleteWhere (t : Keyed key) (p : α → Bool) : Keyed key where
  table :=
    { entries := t.table.entries.filter fun e => !p e.2
      nodupKeys := t.table.nodupKeys.sublist (List.filter_sublist.map Prod.fst) }
  keyed := by
    intro k r hr
    rw [← ObjectMap.mem_entries_iff] at hr
    exact t.keyed k r (ObjectMap.mem_entries_iff.mp (List.mem_of_mem_filter hr))

theorem find_deleteWhere_eq_some {t : Keyed key} {p : α → Bool} {k : κ} {r : α} :
    (t.deleteWhere p).find k = some r ↔ t.find k = some r ∧ p r = false := by
  unfold find
  rw [← ObjectMap.mem_entries_iff, ← ObjectMap.mem_entries_iff]
  exact List.mem_filter.trans (and_congr_right' (by simp))

theorem find_deleteWhere (t : Keyed key) (p : α → Bool) (k : κ) :
    (t.deleteWhere p).find k = (t.find k).filter fun r => !p r := by
  ext r
  rw [find_deleteWhere_eq_some, Option.filter_eq_some_iff, Bool.not_eq_true']

theorem mem_rows_deleteWhere {t : Keyed key} {p : α → Bool} {r : α} :
    r ∈ (t.deleteWhere p).rows ↔ r ∈ t.rows ∧ p r = false := by
  rw [mem_rows_iff, mem_rows_iff, find_deleteWhere_eq_some]

/-- `INSERT … ON CONFLICT DO NOTHING`. -/
def insertNew (t : Keyed key) (row : α) : Keyed key :=
  if (t.find (key row)).isSome then t else t.upsert row

theorem mem_rows_insertNew {t : Keyed key} {row r : α} :
    r ∈ (t.insertNew row).rows ↔ r ∈ t.rows ∨ r = row ∧ t.find (key row) = none := by
  unfold insertNew
  by_cases htaken : (t.find (key row)).isSome
  · rw [if_pos htaken]
    have hfound : t.find (key row) ≠ none := Option.isSome_iff_ne_none.mp htaken
    exact ⟨.inl, fun h => h.resolve_right fun hnew => hfound hnew.2⟩
  · rw [if_neg htaken, mem_rows_upsert]
    have hfree := Option.not_isSome_iff_eq_none.mp htaken
    constructor
    · rintro (rfl | ⟨hr, -⟩)
      · exact .inr ⟨rfl, hfree⟩
      · exact .inl hr
    · rintro (hr | ⟨rfl, -⟩)
      · refine .inr ⟨hr, fun hkey => ?_⟩
        rw [← hkey, mem_rows_iff.mp hr] at hfree
        exact nomatch hfree
      · exact .inl rfl

theorem find_eq_none_iff {t : Keyed key} {k : κ} : t.find k = none ↔ ∀ r ∈ t.rows, key r ≠ k := by
  rw [Option.eq_none_iff_forall_ne_some]
  constructor
  · rintro hnone r hr rfl
    exact hnone r (mem_rows_iff.mp hr)
  · exact fun h r hr => h r (mem_rows_of_find hr) (key_of_find hr)

end Keyed

end PulSeed
