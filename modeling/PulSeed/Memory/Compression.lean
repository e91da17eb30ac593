import Mathlib.Data.List.Nodup
import PulSeed.Memory.ShortTerm

/-!
# Compression loses no memories

A recording and a compression both write the whole list of entries, made from what they loaded
before. What was recorded in between is lost, unless it is in the list or its lessons are
stored.

- `Store.Summarised`: an entry is one of those that a compression has drawn lessons from.
- `Safe`: recorded entries are kept, and a compression that reports no entries changed none.
- `Current`: a write is made from a list that still has every stored entry, and the index is
  written after a purge.
- `safe_of_current`: **memories are safe in every state of a run whose steps are all current.**
-/

namespace PulSeed.Memory

/-- An entry is among those that a compression has summarised, which passed its quality check
and stored its lessons. -/
def Store.Summarised (store : Store) (e : ShortTermEntry) : Prop :=
  ∃ stored ∈ store.longTerm, e ∈ stored.sourceEntries ∧
    (validateCompressionQuality stored.lessons stored.sourceEntries).passed = true

/-- Each entry whose recording has resolved is stored or summarised, and a compression that
reports that it compressed no entries has changed none. -/
structure Safe (s : State) : Prop where
  kept : ∀ r ∈ s.recordings, r.phase = .resolved →
    r.entry ∈ s.store.entries ∨ s.store.Summarised r.entry
  reported : ∀ c ∈ s.compressions, ∀ result, c.phase = .resolved result →
    result.entries_compressed = 0 → c.changed = false

/-- A list has every stored entry that is not summarised. -/
def Store.Covered (store : Store) (entries : List ShortTermEntry) : Prop :=
  ∀ e ∈ store.entries, e ∈ entries ∨ store.Summarised e

/-- A write is made from a list that has every stored entry that is not summarised, and the
index is written after a purge that has changed the entries. -/
def Current (s : State) : Event → Prop
  | .recordAccess n true => ∀ r, s.recordings[n]? = some r → ∀ entries,
    r.phase = .append entries → s.store.Covered entries
  | .compressAccess n true => ∀ c, s.compressions[n]? = some c → ∀ allEntries lessons,
    c.phase = .purge allEntries lessons → s.store.Covered allEntries
  | .compressAccess n false => ∀ c, s.compressions[n]? = some c → ∀ allEntries lessons,
    c.phase = .unindex allEntries lessons → c.changed = false
  | _ => True

section Lists

variable {α β : Type} {xs : List α} {n : ℕ} {a b x : α}

/-- An element is kept by a change at a position, unless it is the one there. -/
theorem eq_or_mem_set (h : xs[n]? = some a) (hx : x ∈ xs) : x = a ∨ x ∈ xs.set n b := by
  obtain ⟨m, hm⟩ := List.mem_iff_getElem?.mp hx
  by_cases hmn : n = m
  · subst hmn
    exact .inl (Option.some.inj (hm.symm.trans h))
  · exact .inr (List.mem_iff_getElem?.mpr ⟨m, (List.getElem?_set_ne hmn).trans hm⟩)

theorem mem_set_self (h : xs[n]? = some a) : b ∈ xs.set n b :=
  List.mem_iff_getElem?.mpr ⟨n, List.getElem?_set_self (List.getElem?_eq_some_iff.mp h).1⟩

theorem map_set_of_eq {f : α → β} (h : xs[n]? = some a) (hf : f b = f a) :
    (xs.set n b).map f = xs.map f := by
  refine List.ext_getElem? fun m => ?_
  rw [List.getElem?_map, List.getElem?_map, List.getElem?_set]
  split
  · next hnm =>
    subst hnm
    rw [h, if_pos (List.getElem?_eq_some_iff.mp h).1]
    exact congrArg some hf
  · rfl

end Lists

/-! ## The rows of the table -/

theorem foldl_upsert {rows entries : List ShortTermEntry}
    (h : ((rows ++ entries).map (·.id)).Nodup) : entries.foldl upsert rows = rows ++ entries := by
  induction entries generalizing rows with
  | nil => rw [List.append_nil]; rfl
  | cons e entries ih =>
    have hrows : upsert rows e = rows ++ [e] := by
      unfold upsert
      rw [List.filter_eq_self.mpr]
      intro row hrow
      rw [List.map_append, List.nodup_append] at h
      have hne := h.2.2 row.id (List.mem_map_of_mem hrow) e.id List.mem_cons_self
      simpa using hne
    rw [List.foldl_cons, hrows, ih (by simpa using h)]
    simp

/-- Entries with different ids are inserted as they are. -/
theorem replaceShortTermEntries_of_nodup {entries : List ShortTermEntry}
    (h : (entries.map (·.id)).Nodup) : replaceShortTermEntries entries = entries :=
  foldl_upsert h

theorem mem_remainingEntries {retentionLimit : ℕ} {entries : List ShortTermEntry}
    (h : (entries.map (·.id)).Nodup) {e : ShortTermEntry} (he : e ∈ entries) :
    e ∈ remainingEntries retentionLimit entries ∨ e ∈ expiredEntries retentionLimit entries := by
  by_cases hid : e.id ∈ (expiredEntries retentionLimit entries).map (·.id)
  · obtain ⟨e', he', heq⟩ := List.mem_map.mp hid
    exact .inr (List.inj_on_of_nodup_map h (List.mem_of_mem_filter he') he heq ▸ he')
  · exact .inl (List.mem_filter.mpr ⟨he, decide_eq_true hid⟩)

/-! ## What the calls hold -/

/-- The entry of a recording may be in the table. -/
def RecordPhase.written : RecordPhase → Prop
  | .load | .append _ => False
  | .index | .resolved | .rejected => True

/-- The entries that a compression has loaded. -/
def CompressionPhase.loaded : CompressionPhase → Option (List ShortTermEntry)
  | .distill allEntries | .store allEntries _ | .account allEntries _ | .purge allEntries _
  | .unindex allEntries _ => some allEntries
  | .load | .resolved _ | .rejected => none

/-- Entries that were in the table at some time. -/
structure Snapshot (recordings : List Recording) (entries : List ShortTermEntry) : Prop where
  nodup : (entries.map (·.id)).Nodup
  written : ∀ e ∈ entries, ∃ r ∈ recordings, r.entry = e ∧ r.phase.written

theorem Snapshot.mono {recordings recordings' : List Recording} {entries : List ShortTermEntry}
    (h : Snapshot recordings entries)
    (hmono : ∀ r ∈ recordings, r.phase.written →
      ∃ r' ∈ recordings', r'.entry = r.entry ∧ r'.phase.written) :
    Snapshot recordings' entries := by
  refine ⟨h.nodup, fun e he => ?_⟩
  obtain ⟨r, hr, rfl, hwritten⟩ := h.written e he
  exact hmono r hr hwritten

/-- A part of a snapshot is one. -/
theorem Snapshot.sublist {recordings : List Recording} {entries entries' : List ShortTermEntry}
    (h : Snapshot recordings entries) (hsub : entries'.Sublist entries) :
    Snapshot recordings entries' :=
  ⟨h.nodup.sublist (hsub.map _), fun e he => h.written e (hsub.subset he)⟩

/-- The table and what the calls have loaded of it are snapshots. -/
structure Loaded (s : State) : Prop where
  ids : (s.recordings.map (·.entry.id)).Nodup
  table : Snapshot s.recordings s.store.entries
  appends : ∀ r ∈ s.recordings, ∀ entries, r.phase = .append entries →
    Snapshot s.recordings entries
  compressions : ∀ c ∈ s.compressions, ∀ entries, c.phase.loaded = some entries →
    Snapshot s.recordings entries

section Steps

variable {retentionLimit : ℕ} {s s' : State} {store store' : Store} {r r' : Recording}
  {c c' : Compression} {ok : Bool}

/-- What the accesses of a recording do. -/
theorem Recording.access_cases (h : r.access store ok = some (store', r')) :
    (ok = true ∧ r.phase = .load ∧ store' = store ∧
      r' = { r with phase := .append store.entries }) ∨
    (∃ entries, ok = true ∧ r.phase = .append entries ∧
      store' = { store with entries := replaceShortTermEntries (entries ++ [r.entry]) } ∧
      r' = { r with phase := .index }) ∨
    (ok = true ∧ r.phase = .index ∧ store' = store ∧ r' = { r with phase := .resolved }) ∨
    (ok = false ∧ store' = store ∧ r' = { r with phase := .rejected }) := by
  obtain ⟨entry, phase⟩ := r
  cases ok with
  | true =>
    cases phase with
    | load =>
      obtain ⟨rfl, rfl⟩ := Prod.mk.inj (Option.some.inj h)
      exact .inl ⟨rfl, rfl, rfl, rfl⟩
    | append entries =>
      obtain ⟨rfl, rfl⟩ := Prod.mk.inj (Option.some.inj h)
      exact .inr (.inl ⟨entries, rfl, rfl, rfl, rfl⟩)
    | index =>
      obtain ⟨rfl, rfl⟩ := Prod.mk.inj (Option.some.inj h)
      exact .inr (.inr (.inl ⟨rfl, rfl, rfl, rfl⟩))
    | resolved => cases h
    | rejected => cases h
  | false =>
    cases phase with
    | resolved => cases h
    | rejected => cases h
    | _ =>
      obtain ⟨rfl, rfl⟩ := Prod.mk.inj (Option.some.inj h)
      exact .inr (.inr (.inr ⟨rfl, rfl, rfl⟩))

/-- What the accesses of a compression do. -/
theorem Compression.access_cases (h : c.access retentionLimit store ok = some (store', c')) :
    (c.phase = .load ∧ store' = store ∧ c' = { c with phase := .resolved nothingExpired }) ∨
    (c.phase = .load ∧ expiredEntries retentionLimit store.entries ≠ [] ∧ store' = store ∧
      c' = { c with phase := .distill store.entries }) ∨
    (∃ allEntries lessons, c.phase = .store allEntries lessons ∧
      store' = { store with longTerm := store.longTerm ++
        [{ lessons, sourceEntries := expiredEntries retentionLimit allEntries }] } ∧
      c' = { c with phase := .account allEntries lessons }) ∨
    (∃ allEntries lessons, c.phase = .account allEntries lessons ∧ store' = store ∧
      c' = { c with phase := .purge allEntries lessons }) ∨
    (∃ allEntries lessons, ok = true ∧ c.phase = .purge allEntries lessons ∧
      store' = { store with
        entries := replaceShortTermEntries (remainingEntries retentionLimit allEntries) } ∧
      c' = { phase := .unindex allEntries lessons, changed := store'.entries ≠ store.entries }) ∨
    (∃ allEntries lessons result, c.phase = .unindex allEntries lessons ∧ store' = store ∧
      result = compressed (expiredEntries retentionLimit allEntries) lessons ∧
      c' = { c with phase := .resolved result }) ∨
    (c.phase = .load ∧ store' = store ∧ c' = { c with phase := .rejected }) ∨
    (ok = false ∧ (∀ result, c.phase ≠ .resolved result) ∧ store' = store ∧
      c' = { c with phase := .resolved compressionFailed }) := by
  obtain ⟨phase, changed⟩ := c
  cases ok with
  | true =>
    cases phase with
    | load =>
      simp only [Compression.access] at h
      split at h
      · obtain ⟨rfl, rfl⟩ := Prod.mk.inj (Option.some.inj h)
        exact .inl ⟨rfl, rfl, rfl⟩
      · next hexpired =>
        obtain ⟨rfl, rfl⟩ := Prod.mk.inj (Option.some.inj h)
        exact .inr (.inl ⟨rfl, hexpired, rfl, rfl⟩)
    | distill allEntries => cases h
    | store allEntries lessons =>
      obtain ⟨rfl, rfl⟩ := Prod.mk.inj (Option.some.inj h)
      exact .inr (.inr (.inl ⟨_, _, rfl, rfl, rfl⟩))
    | account allEntries lessons =>
      obtain ⟨rfl, rfl⟩ := Prod.mk.inj (Option.some.inj h)
      exact .inr (.inr (.inr (.inl ⟨_, _, rfl, rfl, rfl⟩)))
    | purge allEntries lessons =>
      obtain ⟨rfl, rfl⟩ := Prod.mk.inj (Option.some.inj h)
      exact .inr (.inr (.inr (.inr (.inl ⟨_, _, rfl, rfl, rfl, rfl⟩))))
    | unindex allEntries lessons =>
      obtain ⟨rfl, rfl⟩ := Prod.mk.inj (Option.some.inj h)
      exact .inr (.inr (.inr (.inr (.inr (.inl ⟨_, _, _, rfl, rfl, rfl, rfl⟩)))))
    | resolved result => cases h
    | rejected => cases h
  | false =>
    cases phase with
    | load =>
      obtain ⟨rfl, rfl⟩ := Prod.mk.inj (Option.some.inj h)
      exact .inr (.inr (.inr (.inr (.inr (.inr (.inl ⟨rfl, rfl, rfl⟩))))))
    | distill allEntries => cases h
    | resolved result => cases h
    | rejected => cases h
    | _ =>
      obtain ⟨rfl, rfl⟩ := Prod.mk.inj (Option.some.inj h)
      exact .inr (.inr (.inr (.inr (.inr (.inr (.inr ⟨rfl, by simp, rfl, rfl⟩))))))

/-- What the end of the language-model calls does. -/
theorem Compression.distilled_cases {answer : Option (List Lesson)}
    (h : c.distilled retentionLimit answer = some c') :
    ∃ allEntries, c.phase = .distill allEntries ∧
      ((∃ result, result.entries_compressed = 0 ∧ c' = { c with phase := .resolved result }) ∨
        ∃ lessons, (validateCompressionQuality lessons
            (expiredEntries retentionLimit allEntries)).passed = true ∧
          c' = { c with phase := .store allEntries lessons }) := by
  obtain ⟨phase, changed⟩ := c
  cases phase with
  | distill allEntries =>
    refine ⟨allEntries, rfl, ?_⟩
    cases answer with
    | none => exact .inl ⟨compressionFailed, rfl, (Option.some.inj h).symm⟩
    | some rawLessons =>
      simp only [Compression.distilled] at h
      split at h
      · next hpassed => exact .inr ⟨_, hpassed, (Option.some.inj h).symm⟩
      · exact .inl ⟨_, rfl, (Option.some.inj h).symm⟩
  | _ => cases h

end Steps

/-! ## The steps of the system -/

section Run

variable {retentionLimit : ℕ} {s s' : State} {event : Event}

/-- What a step is a step of. -/
theorem step_cases (h : step retentionLimit s event = some s') :
    (∃ entry, (∀ r ∈ s.recordings, r.entry.id ≠ entry.id) ∧
      s' = { s with recordings := s.recordings ++ [{ entry }] }) ∨
    (∃ n ok r r' store, event = .recordAccess n ok ∧ s.recordings[n]? = some r ∧
      r.access s.store ok = some (store, r') ∧
      s' = { s with store, recordings := s.recordings.set n r' }) ∨
    s' = { s with compressions := s.compressions ++ [{}] } ∨
    (∃ n ok c c' store, event = .compressAccess n ok ∧ s.compressions[n]? = some c ∧
      c.access retentionLimit s.store ok = some (store, c') ∧
      s' = { s with store, compressions := s.compressions.set n c' }) ∨
    ∃ n answer c c', s.compressions[n]? = some c ∧
      c.distilled retentionLimit answer = some c' ∧
      s' = { s with compressions := s.compressions.set n c' } := by
  cases event with
  | record entry =>
    simp only [step] at h
    split at h
    · next hfresh => exact .inl ⟨entry, hfresh, (Option.some.inj h).symm⟩
    · cases h
  | recordAccess n ok =>
    obtain ⟨r, hr, h⟩ := Option.bind_eq_some_iff.mp h
    obtain ⟨⟨store, r'⟩, haccess, rfl⟩ := Option.map_eq_some_iff.mp h
    exact .inr (.inl ⟨n, ok, r, r', store, rfl, hr, haccess, rfl⟩)
  | compress => exact .inr (.inr (.inl (Option.some.inj h).symm))
  | compressAccess n ok =>
    obtain ⟨c, hc, h⟩ := Option.bind_eq_some_iff.mp h
    obtain ⟨⟨store, c'⟩, haccess, rfl⟩ := Option.map_eq_some_iff.mp h
    exact .inr (.inr (.inr (.inl ⟨n, ok, c, c', store, rfl, hc, haccess, rfl⟩)))
  | distilled n answer =>
    obtain ⟨c, hc, h⟩ := Option.bind_eq_some_iff.mp h
    obtain ⟨c', hdistilled, rfl⟩ := Option.map_eq_some_iff.mp h
    exact .inr (.inr (.inr (.inr ⟨n, answer, c, c', hc, hdistilled, rfl⟩)))

/-- A recording that goes on keeps its entry, and an entry that may be in the table. -/
theorem Recording.access_written {r r' : Recording} {store store' : Store} {ok : Bool}
    (h : r.access store ok = some (store', r')) :
    r'.entry = r.entry ∧ (r.phase.written → r'.phase.written) := by
  rcases Recording.access_cases h with ⟨-, hphase, -, rfl⟩ | ⟨_, -, hphase, -, rfl⟩ |
    ⟨-, -, -, rfl⟩ | ⟨-, -, rfl⟩
  · exact ⟨rfl, fun hwritten => by rw [hphase] at hwritten; exact hwritten.elim⟩
  · exact ⟨rfl, fun _ => trivial⟩
  · exact ⟨rfl, fun _ => trivial⟩
  · exact ⟨rfl, fun _ => trivial⟩

/-- The entry of a recording that has not written is in no snapshot. -/
theorem Snapshot.not_mem {recordings : List Recording} {entries : List ShortTermEntry}
    (h : Snapshot recordings entries) (hids : (recordings.map (·.entry.id)).Nodup)
    {r : Recording} (hr : r ∈ recordings) (hnot : ¬ r.phase.written) :
    r.entry.id ∉ entries.map (·.id) := by
  intro hmem
  obtain ⟨e, he, hid⟩ := List.mem_map.mp hmem
  obtain ⟨r', hr', rfl, hwritten⟩ := h.written e he
  exact hnot (List.inj_on_of_nodup_map hids hr' hr hid ▸ hwritten)

/-- The list that a recording writes. -/
theorem Loaded.append (h : Loaded s) {r : Recording} (hr : r ∈ s.recordings)
    {entries : List ShortTermEntry} (hphase : r.phase = .append entries) :
    ((entries ++ [r.entry]).map (·.id)).Nodup := by
  have hsnapshot := h.appends r hr entries hphase
  have hnot := hsnapshot.not_mem h.ids hr (by rw [hphase]; exact id)
  rw [List.map_append, List.nodup_append]
  refine ⟨hsnapshot.nodup, List.nodup_singleton _, ?_⟩
  rintro id hid _ hlast rfl
  have hid' : id = r.entry.id := List.mem_singleton.mp hlast
  exact hnot (hid' ▸ hid)

/-- A list that a compression writes. -/
theorem Loaded.remaining (h : Loaded s) {c : Compression} (hc : c ∈ s.compressions)
    {entries : List ShortTermEntry} (hphase : c.phase.loaded = some entries) :
    Snapshot s.recordings (remainingEntries retentionLimit entries) :=
  (h.compressions c hc entries hphase).sublist List.filter_sublist

theorem Loaded.step (h : Loaded s) (hstep : step retentionLimit s event = some s') :
    Loaded s' := by
  rcases step_cases hstep with ⟨entry, hfresh, rfl⟩ | ⟨n, ok, r, r', store, -, hr, haccess, rfl⟩ |
    rfl | ⟨n, ok, c, c', store, -, hc, haccess, rfl⟩ | ⟨n, answer, c, c', hc, hdistilled, rfl⟩
  · have hmono : ∀ r ∈ s.recordings, r.phase.written →
        ∃ r' ∈ s.recordings ++ [({ entry } : Recording)],
          r'.entry = r.entry ∧ r'.phase.written :=
      fun r hr hwritten => ⟨r, List.mem_append_left _ hr, rfl, hwritten⟩
    refine ⟨?_, h.table.mono hmono, fun r hr entries hphase => ?_,
      fun c hc entries hphase => (h.compressions c hc entries hphase).mono hmono⟩
    · rw [List.map_append, List.nodup_append]
      refine ⟨h.ids, List.nodup_singleton _, ?_⟩
      rintro id hid _ hlast rfl
      obtain ⟨r, hr, heq⟩ := List.mem_map.mp hid
      exact hfresh r hr (heq.trans (List.mem_singleton.mp hlast))
    · rcases List.mem_append.mp hr with hr | hr
      · exact (h.appends r hr entries hphase).mono hmono
      · rw [List.mem_singleton.mp hr] at hphase
        exact nomatch hphase
  · obtain ⟨hentry, hwritten⟩ := Recording.access_written haccess
    have hmem := List.mem_of_getElem? hr
    have hmono : ∀ r₀ ∈ s.recordings, r₀.phase.written →
        ∃ r₁ ∈ s.recordings.set n r', r₁.entry = r₀.entry ∧ r₁.phase.written := by
      intro r₀ hr₀ hwritten₀
      rcases eq_or_mem_set (b := r') hr hr₀ with rfl | hr₀
      · exact ⟨r', mem_set_self hr, hentry, hwritten hwritten₀⟩
      · exact ⟨r₀, hr₀, rfl, hwritten₀⟩
    have hids : ((s.recordings.set n r').map (·.entry.id)).Nodup := by
      rw [map_set_of_eq (f := fun r : Recording => r.entry.id) hr (congrArg (·.id) hentry)]
      exact h.ids
    have happends : ∀ r₀ ∈ s.recordings.set n r', ∀ entries, r₀.phase = .append entries →
        Snapshot s.recordings entries := by
      intro r₀ hr₀ entries hphase
      rcases List.mem_or_eq_of_mem_set hr₀ with hr₀ | rfl
      · exact h.appends r₀ hr₀ entries hphase
      · rcases Recording.access_cases haccess with ⟨-, -, -, rfl⟩ | ⟨_, -, -, -, rfl⟩ |
          ⟨-, -, -, rfl⟩ | ⟨-, -, rfl⟩
        · exact RecordPhase.append.inj hphase ▸ h.table
        · exact nomatch hphase
        · exact nomatch hphase
        · exact nomatch hphase
    refine ⟨hids, ?_, fun r₀ hr₀ entries hphase => (happends r₀ hr₀ entries hphase).mono hmono,
      fun c hc entries hphase => (h.compressions c hc entries hphase).mono hmono⟩
    rcases Recording.access_cases haccess with ⟨-, -, rfl, -⟩ | ⟨entries, -, hphase, rfl, rfl⟩ |
      ⟨-, -, rfl, -⟩ | ⟨-, rfl, -⟩
    · exact h.table.mono hmono
    · have hnodup := h.append hmem hphase
      refine ⟨?_, fun e he => ?_⟩
      · dsimp only
        rwa [replaceShortTermEntries_of_nodup hnodup]
      · dsimp only at he
        rw [replaceShortTermEntries_of_nodup hnodup] at he
        rcases List.mem_append.mp he with he | he
        · exact ((h.appends r hmem entries hphase).mono hmono).written e he
        · exact ⟨_, mem_set_self hr, (List.mem_singleton.mp he).symm, trivial⟩
    · exact h.table.mono hmono
    · exact h.table.mono hmono
  · refine ⟨h.ids, h.table, h.appends, fun c hc entries hphase => ?_⟩
    rcases List.mem_append.mp hc with hc | hc
    · exact h.compressions c hc entries hphase
    · rw [List.mem_singleton.mp hc] at hphase
      exact nomatch hphase
  · have hmem := List.mem_of_getElem? hc
    have hloaded : ∀ entries, c'.phase.loaded = some entries → Snapshot s.recordings entries := by
      intro entries hphase
      rcases Compression.access_cases haccess with ⟨-, -, rfl⟩ | ⟨-, -, -, rfl⟩ |
        ⟨_, _, hbefore, -, rfl⟩ | ⟨_, _, hbefore, -, rfl⟩ | ⟨_, _, -, hbefore, -, rfl⟩ |
        ⟨_, _, _, -, -, -, rfl⟩ | ⟨-, -, rfl⟩ | ⟨-, -, -, rfl⟩
      · exact nomatch hphase
      · exact Option.some.inj hphase ▸ h.table
      · exact h.compressions c hmem entries (by rw [hbefore]; exact hphase)
      · exact h.compressions c hmem entries (by rw [hbefore]; exact hphase)
      · exact h.compressions c hmem entries (by rw [hbefore]; exact hphase)
      · exact nomatch hphase
      · exact nomatch hphase
      · exact nomatch hphase
    refine ⟨h.ids, ?_, h.appends, fun c₀ hc₀ entries hphase => ?_⟩
    · rcases Compression.access_cases haccess with ⟨-, rfl, -⟩ | ⟨-, -, rfl, -⟩ |
        ⟨_, _, -, rfl, -⟩ | ⟨_, _, -, rfl, -⟩ | ⟨allEntries, _, -, hphase, rfl, -⟩ |
        ⟨_, _, _, -, rfl, -, -⟩ | ⟨-, rfl, -⟩ | ⟨-, -, rfl, -⟩
      · exact h.table
      · exact h.table
      · exact h.table
      · exact h.table
      · have hloaded : c.phase.loaded = some allEntries := by rw [hphase]; rfl
        have hsnapshot : Snapshot s.recordings (remainingEntries retentionLimit allEntries) :=
          h.remaining hmem hloaded
        dsimp only
        rwa [replaceShortTermEntries_of_nodup hsnapshot.nodup]
      · exact h.table
      · exact h.table
      · exact h.table
    · rcases List.mem_or_eq_of_mem_set hc₀ with hc₀ | rfl
      · exact h.compressions c₀ hc₀ entries hphase
      · exact hloaded entries hphase
  · have hmem := List.mem_of_getElem? hc
    refine ⟨h.ids, h.table, h.appends, fun c₀ hc₀ entries hphase => ?_⟩
    rcases List.mem_or_eq_of_mem_set hc₀ with hc₀ | rfl
    · exact h.compressions c₀ hc₀ entries hphase
    · obtain ⟨allEntries, hbefore, ⟨_, -, rfl⟩ | ⟨_, -, rfl⟩⟩ :=
        Compression.distilled_cases hdistilled
      · exact nomatch hphase
      · exact h.compressions c hmem entries (by rw [hbefore]; exact hphase)

/-! ## What is kept -/

/-- An entry is stored or summarised. -/
def Store.Holds (store : Store) (e : ShortTermEntry) : Prop :=
  e ∈ store.entries ∨ store.Summarised e

/-- Where a compression is: it has loaded expired entries, its lessons pass the quality check
when it stores them, they are stored when it purges, and what it has changed it reports. -/
structure Compression.Sound (retentionLimit : ℕ) (longTerm : List StoredLessons)
    (c : Compression) : Prop where
  loaded : ∀ allEntries, c.phase.loaded = some allEntries →
    expiredEntries retentionLimit allEntries ≠ []
  passed : ∀ allEntries lessons, c.phase = .store allEntries lessons →
    (validateCompressionQuality lessons (expiredEntries retentionLimit allEntries)).passed = true
  stored : ∀ allEntries lessons, c.phase = .account allEntries lessons ∨
      c.phase = .purge allEntries lessons ∨ c.phase = .unindex allEntries lessons →
    { lessons, sourceEntries := expiredEntries retentionLimit allEntries } ∈ longTerm
  changed : c.changed = true → (∃ allEntries lessons, c.phase = .unindex allEntries lessons) ∨
    ∃ result, c.phase = .resolved result ∧ result.entries_compressed ≠ 0

theorem Compression.Sound.mono {longTerm longTerm' : List StoredLessons} {c : Compression}
    (h : c.Sound retentionLimit longTerm) (hsub : longTerm ⊆ longTerm') :
    c.Sound retentionLimit longTerm' :=
  ⟨h.loaded, h.passed, fun _ _ hphase => hsub (h.stored _ _ hphase), h.changed⟩

/-- What the store and the calls keep along a run with current steps. -/
structure Keeps (retentionLimit : ℕ) (s : State) : Prop where
  recorded : ∀ r ∈ s.recordings, r.phase = .index ∨ r.phase = .resolved → s.store.Holds r.entry
  checked : ∀ stored ∈ s.store.longTerm,
    (validateCompressionQuality stored.lessons stored.sourceEntries).passed = true
  compressions : ∀ c ∈ s.compressions, c.Sound retentionLimit s.store.longTerm

theorem Keeps.safe (h : Keeps retentionLimit s) : Safe s := by
  refine ⟨fun r hr hphase => h.recorded r hr (.inr hphase), fun c hc result hphase hzero => ?_⟩
  cases hchanged : c.changed with
  | false => rfl
  | true =>
    rcases (h.compressions c hc).changed hchanged with ⟨_, _, hunindex⟩ | ⟨_, hresolved, hpos⟩
    · exact nomatch hphase.symm.trans hunindex
    · rw [CompressionPhase.resolved.inj (hphase.symm.trans hresolved)] at hzero
      exact absurd hzero hpos

theorem Store.Holds.mono {store store' : Store} {e : ShortTermEntry} (h : store.Holds e)
    (hentries : ∀ e ∈ store.entries, store'.Holds e) (hsub : store.longTerm ⊆ store'.longTerm) :
    store'.Holds e := by
  rcases h with h | ⟨stored, hmem, hsource, hpassed⟩
  · exact hentries e h
  · exact .inr ⟨stored, hsub hmem, hsource, hpassed⟩

/-- A recording that writes a current list drops no entry, and stores its own. -/
theorem Recording.access_holds {r r' : Recording} {store store' : Store} {ok : Bool}
    (haccess : r.access store ok = some (store', r'))
    (hcurrent : ok = true → ∀ entries, r.phase = .append entries →
      store.Covered entries ∧ ((entries ++ [r.entry]).map (·.id)).Nodup) :
    store'.longTerm = store.longTerm ∧ (∀ e ∈ store.entries, store'.Holds e) ∧
      (r'.phase = .index → store'.Holds r'.entry) := by
  rcases Recording.access_cases haccess with ⟨-, -, rfl, rfl⟩ | ⟨entries, hok, hphase, rfl, rfl⟩ |
    ⟨-, -, rfl, rfl⟩ | ⟨-, rfl, rfl⟩
  · exact ⟨rfl, fun e he => .inl he, nofun⟩
  · obtain ⟨hcovered, hnodup⟩ := hcurrent hok entries hphase
    have hwritten := replaceShortTermEntries_of_nodup hnodup
    refine ⟨rfl, fun e he => ?_, fun _ => .inl ?_⟩
    · rcases hcovered e he with he | hsummarised
      · exact .inl (hwritten.symm ▸ List.mem_append_left _ he)
      · exact .inr hsummarised
    · exact hwritten.symm ▸ List.mem_append_right _ (List.mem_singleton_self _)
  · exact ⟨rfl, fun e he => .inl he, nofun⟩
  · exact ⟨rfl, fun e he => .inl he, nofun⟩

/-- A compression goes on soundly, unless the index is not written after a purge. -/
theorem Compression.Sound.access {c c' : Compression} {store store' : Store} {ok : Bool}
    (h : c.Sound retentionLimit store.longTerm)
    (haccess : c.access retentionLimit store ok = some (store', c'))
    (hcurrent : ok = false → ∀ allEntries lessons, c.phase = .unindex allEntries lessons →
      c.changed = false) :
    c'.Sound retentionLimit store'.longTerm := by
  have hunchanged (hphase : ∀ allEntries lessons, c.phase ≠ .unindex allEntries lessons)
      (hresult : ∀ result, c.phase ≠ .resolved result) : c.changed ≠ true := by
    intro hchanged
    rcases h.changed hchanged with ⟨allEntries, lessons, heq⟩ | ⟨result, heq, -⟩
    · exact hphase allEntries lessons heq
    · exact hresult result heq
  rcases Compression.access_cases haccess with ⟨hphase, rfl, rfl⟩ |
    ⟨hphase, hexpired, rfl, rfl⟩ | ⟨allEntries, lessons, hphase, rfl, rfl⟩ |
    ⟨allEntries, lessons, hphase, rfl, rfl⟩ | ⟨allEntries, lessons, -, hphase, rfl, rfl⟩ |
    ⟨allEntries, lessons, _, hphase, rfl, rfl, rfl⟩ | ⟨hphase, rfl, rfl⟩ |
    ⟨hok, hopen, rfl, rfl⟩
  · exact ⟨nofun, nofun, by simp, fun hchanged => absurd hchanged
      (hunchanged (by simp [hphase]) (by simp [hphase]))⟩
  · refine ⟨fun all hall => ?_, nofun, by simp, fun hchanged => absurd hchanged
      (hunchanged (by simp [hphase]) (by simp [hphase]))⟩
    exact Option.some.inj hall ▸ hexpired
  · refine ⟨fun all hall => ?_, nofun, fun all lessons' hafter => ?_, fun hchanged =>
      absurd hchanged (hunchanged (by simp [hphase]) (by simp [hphase]))⟩
    · exact h.loaded all (by rw [hphase]; exact hall)
    · obtain ⟨rfl, rfl⟩ : allEntries = all ∧ lessons = lessons' := by simpa using hafter
      exact List.mem_append_right _ (List.mem_singleton_self _)
  · refine ⟨fun all hall => ?_, nofun, fun all lessons' hafter => ?_, fun hchanged =>
      absurd hchanged (hunchanged (by simp [hphase]) (by simp [hphase]))⟩
    · exact h.loaded all (by rw [hphase]; exact hall)
    · obtain ⟨rfl, rfl⟩ : allEntries = all ∧ lessons = lessons' := by simpa using hafter
      exact h.stored _ _ (.inl hphase)
  · refine ⟨fun all hall => ?_, nofun, fun all lessons' hafter => ?_, fun _ =>
      .inl ⟨allEntries, lessons, rfl⟩⟩
    · exact h.loaded all (by rw [hphase]; exact hall)
    · obtain ⟨rfl, rfl⟩ : allEntries = all ∧ lessons = lessons' := by simpa using hafter
      exact h.stored _ _ (.inr (.inl hphase))
  · refine ⟨nofun, nofun, by simp, fun _ => .inr ⟨_, rfl, ?_⟩⟩
    have hexpired := h.loaded allEntries (by rw [hphase]; rfl)
    exact fun hzero => hexpired (List.length_eq_zero_iff.mp hzero)
  · exact ⟨nofun, nofun, by simp, fun hchanged => absurd hchanged
      (hunchanged (by simp [hphase]) (by simp [hphase]))⟩
  · refine ⟨nofun, nofun, by simp, fun hchanged => ?_⟩
    rcases h.changed hchanged with ⟨allEntries, lessons, hphase⟩ | ⟨result, hphase, -⟩
    · exact absurd ((hcurrent hok _ _ hphase).symm.trans hchanged) (by simp)
    · exact absurd hphase (hopen result)

/-- A compression that writes a current list drops no entry that is not summarised. -/
theorem Compression.Sound.access_holds {c c' : Compression} {store store' : Store} {ok : Bool}
    (h : c.Sound retentionLimit store.longTerm)
    (hchecked : ∀ stored ∈ store.longTerm,
      (validateCompressionQuality stored.lessons stored.sourceEntries).passed = true)
    (haccess : c.access retentionLimit store ok = some (store', c'))
    (hcurrent : ok = true → ∀ allEntries lessons, c.phase = .purge allEntries lessons →
      store.Covered allEntries ∧ (allEntries.map (·.id)).Nodup) :
    store.longTerm ⊆ store'.longTerm ∧ (∀ e ∈ store.entries, store'.Holds e) ∧
      ∀ stored ∈ store'.longTerm,
        (validateCompressionQuality stored.lessons stored.sourceEntries).passed = true := by
  rcases Compression.access_cases haccess with ⟨-, rfl, -⟩ | ⟨-, -, rfl, -⟩ |
    ⟨allEntries, lessons, hphase, rfl, -⟩ | ⟨_, _, -, rfl, -⟩ |
    ⟨allEntries, lessons, hok, hphase, rfl, -⟩ | ⟨_, _, _, -, rfl, -, -⟩ | ⟨-, rfl, -⟩ |
    ⟨-, -, rfl, -⟩
  · exact ⟨List.Subset.refl _, fun e he => .inl he, hchecked⟩
  · exact ⟨List.Subset.refl _, fun e he => .inl he, hchecked⟩
  · refine ⟨List.subset_append_left _ _, fun e he => .inl he, fun stored hmem => ?_⟩
    rcases List.mem_append.mp hmem with hmem | hmem
    · exact hchecked stored hmem
    · rw [List.mem_singleton.mp hmem]
      exact h.passed allEntries lessons hphase
  · exact ⟨List.Subset.refl _, fun e he => .inl he, hchecked⟩
  · obtain ⟨hcovered, hnodup⟩ := hcurrent hok _ _ hphase
    have hwritten := replaceShortTermEntries_of_nodup
      (hnodup.sublist ((List.filter_sublist (p := fun e : ShortTermEntry => decide
        (e.id ∉ (expiredEntries retentionLimit allEntries).map (·.id)))).map _))
    refine ⟨List.Subset.refl _, fun e he => ?_, hchecked⟩
    rcases hcovered e he with he | hsummarised
    · have hside : e ∈ remainingEntries retentionLimit allEntries ∨
          e ∈ expiredEntries retentionLimit allEntries := mem_remainingEntries hnodup he
      rcases hside with he | he
      · exact .inl (hwritten.symm ▸ he)
      · have hstored := h.stored _ _ (.inr (.inl hphase))
        exact .inr ⟨_, hstored, he, hchecked _ hstored⟩
    · exact .inr hsummarised
  · exact ⟨List.Subset.refl _, fun e he => .inl he, hchecked⟩
  · exact ⟨List.Subset.refl _, fun e he => .inl he, hchecked⟩
  · exact ⟨List.Subset.refl _, fun e he => .inl he, hchecked⟩

/-- **A current step keeps everything.** -/
theorem Keeps.step (h : Keeps retentionLimit s) (hloaded : Loaded s)
    (hstep : Memory.step retentionLimit s event = some s') (hcurrent : Current s event) :
    Keeps retentionLimit s' := by
  rcases step_cases hstep with ⟨entry, -, rfl⟩ | ⟨n, ok, r, r', store, rfl, hr, haccess, rfl⟩ |
    rfl | ⟨n, ok, c, c', store, rfl, hc, haccess, rfl⟩ | ⟨n, answer, c, c', hc, hdistilled, rfl⟩
  · refine ⟨fun r hr hphase => ?_, h.checked, h.compressions⟩
    rcases List.mem_append.mp hr with hr | hr
    · exact h.recorded r hr hphase
    · rw [List.mem_singleton.mp hr] at hphase
      exact absurd hphase (by simp)
  · have hmem := List.mem_of_getElem? hr
    obtain ⟨hlong, hentries, hindex⟩ := Recording.access_holds haccess fun hok entries hphase => by
      subst hok
      exact ⟨hcurrent r hr entries hphase, hloaded.append hmem hphase⟩
    have hholds : ∀ e, s.store.Holds e → store.Holds e := fun e he =>
      he.mono hentries (hlong ▸ List.Subset.refl _)
    refine ⟨fun r₀ hr₀ hphase => ?_, fun stored hstored => h.checked stored (hlong ▸ hstored),
      fun c hc => (h.compressions c hc).mono (hlong ▸ List.Subset.refl _)⟩
    rcases List.mem_or_eq_of_mem_set hr₀ with hr₀ | rfl
    · exact hholds _ (h.recorded r₀ hr₀ hphase)
    · rcases hphase with hphase | hphase
      · exact hindex hphase
      · -- A recording that resolves has written its entry before.
        rcases Recording.access_cases haccess with ⟨-, -, -, rfl⟩ | ⟨_, -, -, -, rfl⟩ |
          ⟨-, hbefore, -, rfl⟩ | ⟨-, -, rfl⟩
        · exact nomatch hphase
        · exact nomatch hphase
        · exact hholds _ (h.recorded r hmem (.inl hbefore))
        · exact nomatch hphase
  · refine ⟨h.recorded, h.checked, fun c hc => ?_⟩
    rcases List.mem_append.mp hc with hc | hc
    · exact h.compressions c hc
    · rw [List.mem_singleton.mp hc]
      exact ⟨nofun, nofun, by simp, nofun⟩
  · have hsound := h.compressions c (List.mem_of_getElem? hc)
    obtain ⟨hsub, hentries, hchecked⟩ := hsound.access_holds h.checked haccess
      fun hok allEntries lessons hphase => by
        subst hok
        exact ⟨hcurrent c hc allEntries lessons hphase,
          (hloaded.compressions c (List.mem_of_getElem? hc) allEntries (by rw [hphase]; rfl)).nodup⟩
    refine ⟨fun r hr hphase => (h.recorded r hr hphase).mono hentries hsub, hchecked,
      fun c₀ hc₀ => ?_⟩
    rcases List.mem_or_eq_of_mem_set hc₀ with hc₀ | rfl
    · exact (h.compressions c₀ hc₀).mono hsub
    · refine hsound.access haccess fun hok allEntries lessons hphase => ?_
      subst hok
      exact hcurrent c hc allEntries lessons hphase
  · have hsound := h.compressions c (List.mem_of_getElem? hc)
    refine ⟨h.recorded, h.checked, fun c₀ hc₀ => ?_⟩
    rcases List.mem_or_eq_of_mem_set hc₀ with hc₀ | rfl
    · exact h.compressions c₀ hc₀
    obtain ⟨allEntries, hphase, hend⟩ := Compression.distilled_cases hdistilled
    have hunchanged : c.changed ≠ true := by
      intro hchanged
      rcases hsound.changed hchanged with ⟨_, _, heq⟩ | ⟨_, heq, -⟩
      · exact nomatch hphase.symm.trans heq
      · exact nomatch hphase.symm.trans heq
    rcases hend with ⟨result, -, rfl⟩ | ⟨lessons, hpassed, rfl⟩
    · exact ⟨nofun, nofun, by simp, fun hchanged => absurd hchanged hunchanged⟩
    · refine ⟨fun all hall => hsound.loaded all (by rw [hphase]; exact hall),
        fun all lessons' hstore => ?_, by simp, fun hchanged => absurd hchanged hunchanged⟩
      obtain ⟨rfl, rfl⟩ := CompressionPhase.store.inj hstore
      exact hpassed

theorem initial_loaded {entries : List ShortTermEntry} (h : (entries.map (·.id)).Nodup) :
    Loaded (initial entries) := by
  have hrecordings : (initial entries).recordings.map (·.entry.id) = entries.map (·.id) := by
    simp [initial, List.map_map, Function.comp_def]
  refine ⟨hrecordings ▸ h, ⟨h, fun e he => ?_⟩, fun r hr _ hphase => ?_, nofun⟩
  · exact ⟨_, List.mem_map_of_mem he, rfl, trivial⟩
  · obtain ⟨e, -, rfl⟩ := List.mem_map.mp hr
    exact nomatch hphase

theorem initial_keeps (retentionLimit : ℕ) (entries : List ShortTermEntry) :
    Keeps retentionLimit (initial entries) := by
  refine ⟨fun r hr _ => ?_, nofun, nofun⟩
  obtain ⟨e, he, rfl⟩ := List.mem_map.mp hr
  exact .inl he

/-- **Memories are safe in every state of a run whose steps are all current**: each write is
made from a list that has every stored entry that is not summarised, and no compression fails
to write the index after it has purged. -/
theorem safe_of_current {entries : List ShortTermEntry} (hids : (entries.map (·.id)).Nodup)
    {events : List Event}
    (hcurrent : (memory retentionLimit).Always (initial entries) events Current) :
    (memory retentionLimit).Throughout (initial entries) events Safe := by
  have hkept : (memory retentionLimit).Throughout (initial entries) events
      fun s => Loaded s ∧ Keeps retentionLimit s :=
    LTS.Throughout.guarded ⟨initial_loaded hids, initial_keeps retentionLimit entries⟩ hcurrent
      fun _ _ _ hstep hcurrent h => ⟨h.1.step hstep, h.2.step h.1 hstep hcurrent⟩
  exact fun past future s hsplit hrun => (hkept past future s hsplit hrun).2.safe

end Run

/-! Calls on two entries, of which the older is expired. -/

def olderEntry : ShortTermEntry := { id := "st_1", loop_number := 1 }

def newerEntry : ShortTermEntry := { id := "st_2", loop_number := 9 }

/-- A recording and a compression, one after the other. -/
def inTurn : List Event :=
  [.record newerEntry, .recordAccess 1 true, .recordAccess 1 true, .recordAccess 1 true,
    .compress, .compressAccess 0 true, .distilled 0 (some []), .compressAccess 0 true,
    .compressAccess 0 true, .compressAccess 0 true, .compressAccess 0 true]

theorem current_inTurn : (memory 5).Always (initial [olderEntry]) inTurn Current := by
  refine LTS.ExecPartialAlways.always (f := step 5)
    ⟨trivial, ?_, ?_, ?_, trivial, ?_, trivial, ?_, ?_, ?_, ?_, trivial⟩
  · intro r hr entries hphase
    obtain rfl := Option.some.inj hr
    exact nomatch hphase
  · intro r hr entries hphase
    obtain rfl := Option.some.inj hr
    obtain rfl := RecordPhase.append.inj hphase
    exact fun e he => .inl he
  · intro r hr entries hphase
    obtain rfl := Option.some.inj hr
    exact nomatch hphase
  · intro c hc allEntries lessons hphase
    obtain rfl := Option.some.inj hc
    exact nomatch hphase
  · intro c hc allEntries lessons hphase
    obtain rfl := Option.some.inj hc
    exact nomatch hphase
  · intro c hc allEntries lessons hphase
    obtain rfl := Option.some.inj hc
    exact nomatch hphase
  · intro c hc allEntries lessons hphase
    obtain rfl := Option.some.inj hc
    obtain ⟨rfl, -⟩ := CompressionPhase.purge.inj hphase
    exact fun e he => .inl he
  · intro c hc allEntries lessons hphase
    obtain rfl := Option.some.inj hc
    exact nomatch hphase

theorem safe_inTurn : (memory 5).Throughout (initial [olderEntry]) inTurn Safe :=
  safe_of_current (by decide) current_inTurn

/-- Two recordings that load before either of them writes. -/
def overlapping : List Event :=
  [.record olderEntry, .record newerEntry, .recordAccess 0 true, .recordAccess 1 true,
    .recordAccess 0 true, .recordAccess 1 true, .recordAccess 0 true, .recordAccess 1 true]

/-- A compression that cannot write the index after it has purged. -/
def unindexed : List Event :=
  [.compress, .compressAccess 0 true, .distilled 0 (some []), .compressAccess 0 true,
    .compressAccess 0 true, .compressAccess 0 true, .compressAccess 0 false]

/-- **An entry whose recording has resolved is lost,** and a compression that reports no entries
has purged one. -/
theorem recording_lost :
    (∃ s, (memory 5).Run (initial []) overlapping s ∧ ¬ Safe s) ∧
      ∃ s, (memory 5).Run (initial [olderEntry, newerEntry]) unindexed s ∧ ¬ Safe s := by
  constructor
  · obtain ⟨m, hm⟩ : ∃ m, LTS.execPartial (step 5) (initial []) overlapping = some m :=
      Option.isSome_iff_exists.mp (by decide)
    refine ⟨m, LTS.run_execPartial hm, fun h => ?_⟩
    have hlost : (LTS.execPartial (step 5) (initial []) overlapping).any (fun m =>
        { entry := olderEntry, phase := .resolved } ∈ m.recordings ∧
          olderEntry ∉ m.store.entries ∧ m.store.longTerm = []) = true := by decide
    rw [hm] at hlost
    obtain ⟨hmem, hnot, hnone⟩ := of_decide_eq_true hlost
    rcases h.kept _ hmem rfl with hstored | ⟨stored, hstored, -⟩
    · exact hnot hstored
    · rw [hnone] at hstored
      exact absurd hstored (List.not_mem_nil)
  · obtain ⟨m, hm⟩ : ∃ m, LTS.execPartial (step 5) (initial [olderEntry, newerEntry]) unindexed =
        some m := Option.isSome_iff_exists.mp (by decide)
    refine ⟨m, LTS.run_execPartial hm, fun h => ?_⟩
    have hpurged : (LTS.execPartial (step 5) (initial [olderEntry, newerEntry]) unindexed).any
        (fun m => { phase := .resolved compressionFailed, changed := true } ∈ m.compressions) =
          true := by decide
    rw [hm] at hpurged
    exact nomatch h.reported _ (of_decide_eq_true hpurged) _ rfl rfl

end PulSeed.Memory
