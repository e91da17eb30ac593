import PulSeed.Store.Outbox

/-!
# Sequence numbers and dedupe keys of the outbox

The next sequence number is one more than the greatest *stored* one. It is greater
than every number ever given as long as the greatest of them is still stored: a step
that deletes the newest record makes its number the next one again, and every other
step keeps the numbers fresh (`fresh_step_iff`). So the numbers stay fresh in a run
**exactly** when no remove and no prune deletes the newest record.

That at most one record has a dedupe key needs no condition: the transaction of an
append looks the key up among the stored keys, then among the records without one,
before it inserts (`sound_step`).
-/

namespace PulSeed

namespace Outbox

variable (payloadId : Json → String)

/-! ## The next number -/

theorem lt_nextOf_iff {seqs : List ℕ} {n : ℕ} :
    n < nextOf seqs ↔ n = 0 ∨ ∃ r ∈ seqs, n ≤ r := by
  unfold nextOf
  cases hmax : seqs.max? with
  | none =>
    rw [List.max?_eq_none_iff] at hmax
    subst hmax
    simp
  | some top =>
    obtain ⟨hmem, hle⟩ := List.max?_eq_some_iff.mp hmax
    constructor
    · intro hlt
      exact .inr ⟨top, hmem, Nat.lt_succ_iff.mp hlt⟩
    · rintro (rfl | ⟨r, hr, hnr⟩)
      · exact Nat.succ_pos _
      · exact Nat.lt_succ_of_le (hnr.trans (hle r hr))

/-- The record with the greatest stored number. -/
def Newest (table : Table) (seq : ℕ) : Prop :=
  seq ∈ table.seqs ∧ ∀ r ∈ table.seqs, r ≤ seq

instance (table : Table) (seq : ℕ) : Decidable (Newest table seq) :=
  inferInstanceAs (Decidable (_ ∧ ∀ r ∈ _, r ≤ seq))

/-! ## What the operations do to the records -/

theorem Table.delete_seqs (table : Table) (seq : ℕ) :
    (table.delete seq).seqs = table.seqs.filter fun n => n ≠ seq := by
  rw [Table.seqs, Table.seqs, Table.records, Table.records, List.map_map, List.map_map,
    List.filter_map]
  rfl

theorem Table.mem_delete {table : Table} {seq : ℕ} {row : Row} :
    row ∈ (table.delete seq).rows ↔ row ∈ table.rows ∧ row.seq ≠ seq := by
  rw [Table.delete, List.mem_filter, decide_eq_true_iff]

theorem mem_putRow {rows : List Row} {row r : Row} :
    r ∈ putRow rows row ↔ r = row ∨ r ∈ rows ∧ r.seq ≠ row.seq := by
  have hne : r.seq ≠ row.seq ↔ r.seq < row.seq ∨ row.seq < r.seq := Nat.ne_iff_lt_or_gt
  simp only [putRow, List.mem_append, List.mem_filter, List.mem_cons, decide_eq_true_eq, hne]
  tauto

theorem Table.setKey_records {table table' : Table} {seq : ℕ} {key : String}
    (h : table.setKey seq key = some table') : table'.records = table.records := by
  rw [Table.records, Table.check_rows h, List.map_map]
  refine List.map_congr_left fun row _ => ?_
  by_cases hrow : row.seq = seq ∧ row.dedupeKey = none
  · simp [Function.comp, hrow]
  · simp [Function.comp, hrow]

/-- At most one stored record carries a given dedupe key. -/
def Deduped (table : Table) : Prop :=
  ∀ r ∈ table.records, ∀ r' ∈ table.records, ∀ key,
    outboxDedupeKey payloadId r = some key → outboxDedupeKey payloadId r' = some key → r = r'

/-- A stored key is the key of its record, and no two records have the same key. -/
structure Sound (table : Table) : Prop where
  keyed : ∀ row ∈ table.rows, ∀ key, row.dedupeKey = some key →
    outboxDedupeKey payloadId row.record = some key
  deduped : Deduped payloadId table

theorem Sound.empty : Sound payloadId .empty :=
  ⟨fun _ h => absurd h List.not_mem_nil, fun _ h => absurd h List.not_mem_nil⟩

variable {payloadId}

theorem Sound.delete {table : Table} (h : Sound payloadId table) (seq : ℕ) :
    Sound payloadId (table.delete seq) := by
  have hrecord : ∀ r ∈ (table.delete seq).records, r ∈ table.records := by
    intro r hr
    obtain ⟨row, hrow, rfl⟩ := List.mem_map.mp hr
    exact List.mem_map_of_mem (Table.mem_delete.mp hrow).1
  exact ⟨fun row hrow => h.keyed row (Table.mem_delete.mp hrow).1,
    fun r hr r' hr' => h.deduped r (hrecord r hr) r' (hrecord r' hr')⟩

/-- A sequence number leads to one record. -/
theorem Table.record_unique {table : Table} {r r' : OutboxRecord} (hr : r ∈ table.records)
    (hr' : r' ∈ table.records) (hseq : r.seq.val = r'.seq.val) : r = r' := by
  have hlt : (table.records.map (·.seq.val)).Pairwise (· < ·) := by
    rw [Table.records, List.map_map]
    exact List.pairwise_map.mpr table.sorted
  exact List.inj_on_of_nodup_map (hlt.imp ne_of_lt) hr hr' hseq

/-- Setting the key of a record that has it keeps the table sound. -/
theorem Sound.setKey {table table' : Table} {record : OutboxRecord} {key : String}
    (h : Sound payloadId table) (hrecord : record ∈ table.records)
    (hkey : outboxDedupeKey payloadId record = some key)
    (hset : table.setKey record.seq.val key = some table') : Sound payloadId table' := by
  refine ⟨fun r hr k hk => ?_, ?_⟩
  · rw [Table.check_rows hset] at hr
    obtain ⟨r₀, hr₀, rfl⟩ := List.mem_map.mp hr
    by_cases hcond : r₀.seq = record.seq.val ∧ r₀.dedupeKey = none
    · rw [if_pos hcond] at hk ⊢
      cases hk
      rwa [Table.record_unique (List.mem_map_of_mem hr₀) hrecord hcond.1]
    · rw [if_neg hcond] at hk ⊢
      exact h.keyed r₀ hr₀ k hk
  · rw [Deduped, Table.setKey_records hset]
    exact h.deduped

/-- Looking up a dedupe key finds every record that has it, and at most sets its key. -/
theorem readOutboxByDedupeKey_spec {table : Table} {key : String} (h : Sound payloadId table)
    {found : Option (Table × OutboxRecord)}
    (hread : readOutboxByDedupeKey payloadId table key = some found) :
    (found = none ∧ ∀ r ∈ table.records, outboxDedupeKey payloadId r ≠ some key) ∨
      ∃ table' existing, found = some (table', existing) ∧ Sound payloadId table' ∧
        table'.records = table.records := by
  unfold readOutboxByDedupeKey at hread
  split at hread
  · cases hread
    exact .inr ⟨_, _, rfl, h, rfl⟩
  · next hstored =>
    unfold readAndBackfillLegacy at hread
    split at hread
    · next hlegacy =>
      cases hread
      refine .inl ⟨rfl, fun r hr hkey => ?_⟩
      obtain ⟨row, hrow, rfl⟩ := List.mem_map.mp hr
      cases hcolumn : row.dedupeKey with
      | none =>
        have hnone := List.find?_eq_none.mp hlegacy row hrow
        simp [hcolumn, hkey] at hnone
      | some k =>
        have hk : k = key :=
          Option.some.inj ((h.keyed row hrow k hcolumn).symm.trans hkey)
        have hnone := List.find?_eq_none.mp hstored row hrow
        simp [hcolumn, hk] at hnone
    · next row hlegacy =>
      obtain ⟨table', hset, rfl⟩ := Option.map_eq_some_iff.mp hread
      have hrow : row.record ∈ table.records :=
        List.mem_map_of_mem (List.mem_of_find?_eq_some hlegacy)
      have hfound := List.find?_some hlegacy
      have hkey : outboxDedupeKey payloadId row.record = some key :=
        (of_decide_eq_true hfound).2
      exact .inr ⟨_, _, rfl, h.setKey hrow hkey hset, Table.setKey_records hset⟩

/-- Filling in keys keeps the records and the table sound. -/
theorem backfill_spec {rows : List Row} {table table' : Table} (h : Sound payloadId table)
    (hrows : ∀ row ∈ rows, row.record ∈ table.records)
    (hfill : rows.foldlM (backfillRow payloadId) table = some table') :
    Sound payloadId table' ∧ table'.records = table.records := by
  induction rows generalizing table with
  | nil =>
    cases hfill
    exact ⟨h, rfl⟩
  | cons row rows ih =>
    obtain ⟨next, hnext, hfill⟩ := Option.bind_eq_some_iff.mp hfill
    have hstep : Sound payloadId next ∧ next.records = table.records := by
      unfold backfillRow at hnext
      split at hnext
      · cases hnext
        exact ⟨h, rfl⟩
      · next key hkey =>
        split at hnext
        · cases hnext
          exact ⟨h, rfl⟩
        · exact ⟨h.setKey (hrows row (by simp)) hkey hnext, Table.setKey_records hnext⟩
    obtain ⟨hsound, hrecords⟩ := ih hstep.1
      (fun r hr => hstep.2 ▸ hrows r (by simp [hr])) hfill
    exact ⟨hsound, hrecords.trans hstep.2⟩

/-- What an insertion at the next number stores. -/
theorem insertNext_records {table : Table} {draft : OutboxDraft} {done : Appended}
    (h : insertNext payloadId table draft = some done) :
    draft.parse (nextOutboxSeq table) = some done.record ∧ done.stored = true ∧
      upsertOutbox payloadId table done.record = some done.table := by
  obtain ⟨parsed, hparsed, hrest⟩ := Option.bind_eq_some_iff.mp h
  obtain ⟨next, hnext, hdone⟩ := Option.bind_eq_some_iff.mp hrest
  cases hdone
  exact ⟨hparsed, rfl, hnext⟩

theorem mem_records_upsertOutbox {table table' : Table} {record r : OutboxRecord}
    (h : upsertOutbox payloadId table record = some table') :
    r ∈ table'.records ↔ r = record ∨ r ∈ table.records ∧ r.seq.val ≠ record.seq.val := by
  simp only [Table.records, Table.check_rows h, List.mem_map, mem_putRow]
  constructor
  · rintro ⟨row, rfl | ⟨hrow, hne⟩, rfl⟩
    · exact .inl rfl
    · exact .inr ⟨⟨row, hrow, rfl⟩, hne⟩
  · rintro (rfl | ⟨⟨row, hrow, rfl⟩, hne⟩)
    · exact ⟨_, .inl rfl, rfl⟩
    · exact ⟨row, .inr ⟨hrow, hne⟩, rfl⟩

/-- The next number is that of no stored record. -/
theorem seq_lt_nextOutboxSeq {table : Table} {r : OutboxRecord} (hr : r ∈ table.records) :
    r.seq.val < nextOutboxSeq table :=
  lt_nextOf_iff.mpr (.inr ⟨r.seq.val, List.mem_map_of_mem hr, le_rfl⟩)

/-- Inserting a record whose key no other has keeps the table sound. -/
theorem Sound.insert {table table' : Table} {record : OutboxRecord} (h : Sound payloadId table)
    (hput : upsertOutbox payloadId table record = some table')
    (hfresh : ∀ r ∈ table.records, ∀ key, outboxDedupeKey payloadId record = some key →
      outboxDedupeKey payloadId r ≠ some key) : Sound payloadId table' := by
  refine ⟨fun row hrow key hkey => ?_, fun r hr r' hr' key hk hk' => ?_⟩
  · rw [Table.check_rows hput] at hrow
    rcases mem_putRow.mp hrow with rfl | ⟨hrow, -⟩
    · exact hkey
    · exact h.keyed row hrow key hkey
  · rcases (mem_records_upsertOutbox hput).mp hr with rfl | ⟨hr, -⟩ <;>
      rcases (mem_records_upsertOutbox hput).mp hr' with rfl | ⟨hr', -⟩
    · rfl
    · exact absurd hk' (hfresh r' hr' key hk)
    · exact absurd hk (hfresh r hr key hk')
    · exact h.deduped r hr r' hr' key hk hk'

/-- **What an append does**: it stores its record at the next number, where no stored
record has its key, or returns a stored one. -/
theorem appendTransaction_spec {table : Table} {draft : OutboxDraft} {candidate : OutboxRecord}
    {done : Appended} {seq : ℕ} (hsound : Sound payloadId table)
    (hcandidate : draft.parse seq = some candidate)
    (h : appendTransaction payloadId table draft candidate = some done) :
    Sound payloadId done.table ∧
      ((done.stored = false ∧ done.table.records = table.records) ∨
        done.stored = true ∧ done.record.seq.val = nextOutboxSeq table ∧
          upsertOutbox payloadId table done.record = some done.table) := by
  have hinsert : insertNext payloadId table draft = some done →
      (∀ r ∈ table.records, ∀ key, outboxDedupeKey payloadId candidate = some key →
        outboxDedupeKey payloadId r ≠ some key) →
      Sound payloadId done.table ∧ done.stored = true ∧
        done.record.seq.val = nextOutboxSeq table ∧
          upsertOutbox payloadId table done.record = some done.table := by
    intro hnext hfresh
    obtain ⟨hparse, hstored, hput⟩ := insertNext_records hnext
    refine ⟨hsound.insert hput ?_, hstored, OutboxDraft.parse_seq hparse, hput⟩
    rwa [OutboxDraft.parse_dedupeKey payloadId hparse hcandidate]
  unfold appendTransaction at h
  split at h
  · next hkey =>
    obtain ⟨hnext, hrest⟩ := hinsert h (by simp [hkey])
    exact ⟨hnext, .inr hrest⟩
  · next key hkey =>
    split at h
    · cases h
    · next table' existing hread =>
      cases h
      rcases readOutboxByDedupeKey_spec hsound hread with ⟨hnone, -⟩ | ⟨t, e, heq, hs, hr⟩
      · cases hnone
      · cases heq
        exact ⟨hs, .inl ⟨rfl, hr⟩⟩
    · next hread =>
      rcases readOutboxByDedupeKey_spec hsound hread with ⟨-, hfresh⟩ | ⟨t, e, heq, -, -⟩
      · obtain ⟨hnext, hrest⟩ := hinsert h fun r hr k hk => by
          rw [show k = key from Option.some.inj (hk.symm.trans hkey)]
          exact hfresh r hr
        exact ⟨hnext, .inr hrest⟩
      · cases heq

/-! ## Steps -/

/-- What holds in every state: the table is sound, a candidate is its draft with a number,
and the stored numbers were given. -/
structure Inv (payloadId : Json → String) (s : State) : Prop where
  sound : Sound payloadId s.table
  parsed : ∀ a ∈ s.appending, ∃ seq, a.1.parse seq = some a.2
  given : ∀ n ∈ s.table.seqs, n ∈ s.given

/-- What a step does to the table and to the numbers given. -/
inductive Effect (payloadId : Json → String) (s s' : State) (action : Action) : Prop
  | same (hdeletes : s.deletes action = none) (hrecords : s'.table.records = s.table.records)
      (hgiven : s'.given = s.given)
  | stored (record : OutboxRecord) (hdeletes : s.deletes action = none)
      (hseq : record.seq.val = nextOutboxSeq s.table)
      (hput : upsertOutbox payloadId s.table record = some s'.table)
      (hgiven : s'.given = s.given ++ [record.seq.val])
  | deleted (seq : ℕ) (hdeletes : s.deletes action = some seq)
      (htable : s'.table = s.table.delete seq) (hgiven : s'.given = s.given)

/-- **The effect of a step**, which keeps the table sound. -/
theorem sound_step {s : State} (h : Inv payloadId s) (action : Action) :
    Effect payloadId s (step payloadId s action).1 action ∧
      Sound payloadId (step payloadId s action).1.table ∧
      ∀ a ∈ (step payloadId s action).1.appending, ∃ seq, a.1.parse seq = some a.2 := by
  have hsame : s.deletes action = none → Effect payloadId s s action := fun hdeletes =>
    .same hdeletes rfl rfl
  cases action with
  | database =>
    simp only [step]
    cases hfill : backfillOutboxDedupeKeys payloadId s.table with
    | none => exact ⟨hsame rfl, h.sound, h.parsed⟩
    | some table =>
      have hrows : ∀ row ∈ s.table.rows.filter fun row => row.dedupeKey = none,
          row.record ∈ s.table.records := fun row hrow =>
        List.mem_map_of_mem (List.mem_filter.mp hrow).1
      obtain ⟨hsound, hrecords⟩ := backfill_spec h.sound hrows hfill
      exact ⟨.same rfl hrecords rfl, hsound, h.parsed⟩
  | append draft =>
    simp only [step]
    cases hparse : draft.parse (nextOutboxSeq s.table) with
    | none => exact ⟨hsame rfl, h.sound, h.parsed⟩
    | some candidate =>
      refine ⟨.same rfl rfl rfl, h.sound, fun a ha => ?_⟩
      rcases List.mem_append.mp ha with ha | ha
      · exact h.parsed a ha
      · rw [List.mem_singleton.mp ha]
        exact ⟨_, hparse⟩
  | accept i =>
    simp only [step]
    cases hi : s.appending[i]? with
    | none => exact ⟨hsame rfl, h.sound, h.parsed⟩
    | some a =>
      obtain ⟨draft, candidate⟩ := a
      have hkept : ∀ a ∈ s.appending.eraseIdx i, ∃ seq, a.1.parse seq = some a.2 :=
        fun a ha => h.parsed a (List.mem_of_mem_eraseIdx ha)
      dsimp only
      cases hdone : appendTransaction payloadId s.table draft candidate with
      | none => exact ⟨.same rfl rfl rfl, h.sound, hkept⟩
      | some done =>
        obtain ⟨seq, hcandidate⟩ := h.parsed _ (List.mem_of_getElem? hi)
        obtain ⟨hsound, ⟨hstored, hrecords⟩ | ⟨hstored, hseq, hput⟩⟩ :=
          appendTransaction_spec h.sound hcandidate hdone
        · exact ⟨.same rfl hrecords (by simp [hstored]), hsound, hkept⟩
        · exact ⟨.stored done.record rfl hseq hput (by simp [hstored]), hsound, hkept⟩
  | refuse i =>
    exact ⟨.same rfl rfl rfl, h.sound, fun a ha => h.parsed a (List.mem_of_mem_eraseIdx ha)⟩
  | remove seq => exact ⟨.deleted seq rfl rfl rfl, h.sound.delete seq, h.parsed⟩
  | prune options => exact ⟨.same rfl rfl rfl, h.sound, h.parsed⟩
  | pruneNext i =>
    simp only [step]
    split
    · next seq rest hi =>
      exact ⟨.deleted seq (by simp [State.deletes, hi]) rfl rfl, h.sound.delete seq, h.parsed⟩
    · next hnone =>
      refine ⟨hsame ?_, h.sound, h.parsed⟩
      cases hi : s.pruning[i]? with
      | none => simp [State.deletes, hi]
      | some queue =>
        cases queue with
        | nil => simp [State.deletes, hi]
        | cons seq rest => exact absurd hi (hnone seq rest)

theorem Inv.step {s : State} (h : Inv payloadId s) (action : Action) :
    Inv payloadId (step payloadId s action).1 := by
  obtain ⟨heffect, hsound, hparsed⟩ := sound_step h action
  refine ⟨hsound, hparsed, fun n hn => ?_⟩
  cases heffect with
  | same _ hrecords hgiven =>
    rw [hgiven]
    exact h.given n (by rwa [Table.seqs, hrecords] at hn)
  | stored record _ _ hput hgiven =>
    rw [hgiven]
    obtain ⟨r, hr, rfl⟩ := List.mem_map.mp hn
    rcases (mem_records_upsertOutbox hput).mp hr with rfl | ⟨hr, -⟩
    · exact List.mem_append_right _ List.mem_cons_self
    · exact List.mem_append_left _ (h.given _ (List.mem_map_of_mem hr))
  | deleted seq _ htable hgiven =>
    rw [hgiven]
    rw [htable, Table.delete_seqs] at hn
    exact h.given n (List.mem_filter.mp hn).1

/-! ## Fresh numbers -/

/-- The numbers were given in increasing order, and the next one is greater than all. -/
structure Fresh (s : State) : Prop where
  increasing : s.given.Pairwise (· < ·)
  below : ∀ n ∈ s.given, n < nextOutboxSeq s.table

instance (s : State) : Decidable (Fresh s) :=
  decidable_of_iff (s.given.Pairwise (· < ·) ∧ ∀ n ∈ s.given, n < nextOutboxSeq s.table)
    ⟨fun h => ⟨h.1, h.2⟩, fun h => ⟨h.1, h.2⟩⟩

/-- A step does not delete the newest record. -/
def KeepsNewest (s : State) (l : Action × Option OutboxRecord) : Prop :=
  ∀ seq ∈ s.deletes l.1, ¬ Newest s.table seq

instance (s : State) (l : Action × Option OutboxRecord) : Decidable (KeepsNewest s l) :=
  inferInstanceAs (Decidable (∀ seq ∈ s.deletes l.1, ¬ Newest s.table seq))

/-- A deletion keeps the next number, unless the newest record goes. -/
theorem lt_nextOutboxSeq_delete {table : Table} {seq n : ℕ} (hkeeps : ¬ Newest table seq)
    (hlt : n < nextOutboxSeq table) : n < nextOutboxSeq (table.delete seq) := by
  rw [nextOutboxSeq, lt_nextOf_iff] at hlt ⊢
  rw [Table.delete_seqs]
  rcases hlt with rfl | ⟨r, hr, hnr⟩
  · exact .inl rfl
  refine .inr ?_
  by_cases hrseq : r = seq
  · -- a greater number than the deleted one is stored
    subst hrseq
    obtain ⟨r', hr', hlt⟩ : ∃ r' ∈ table.seqs, r < r' := by
      by_contra hnone
      exact hkeeps ⟨hr, fun r' hr' => not_lt.mp fun hlt => hnone ⟨r', hr', hlt⟩⟩
    exact ⟨r', List.mem_filter.mpr ⟨hr', decide_eq_true hlt.ne'⟩, hnr.trans hlt.le⟩
  · exact ⟨r, List.mem_filter.mpr ⟨hr, decide_eq_true hrseq⟩, hnr⟩

/-- When the newest record goes, its number is the next one again. -/
theorem not_lt_nextOutboxSeq_delete {table : Table} {seq : ℕ} (hnewest : Newest table seq) :
    ¬ seq < nextOutboxSeq (table.delete seq) := by
  intro hlt
  rw [nextOutboxSeq, lt_nextOf_iff, Table.delete_seqs] at hlt
  obtain ⟨record, -, hpos⟩ := List.mem_map.mp hnewest.1
  rcases hlt with hzero | ⟨r, hr, hle⟩
  · have hne := record.seq.isPositive
    omega
  · obtain ⟨hr, hne⟩ := List.mem_filter.mp hr
    exact of_decide_eq_true hne (le_antisymm (hnewest.2 r hr) hle)

/-- **A step keeps the numbers fresh exactly** when it does not delete the newest record. -/
theorem fresh_step_iff {s : State} (hinv : Inv payloadId s) (h : Fresh s) (action : Action) :
    Fresh (step payloadId s action).1 ↔
      KeepsNewest s (action, (step payloadId s action).2) := by
  obtain ⟨heffect, -, -⟩ := sound_step hinv action
  cases heffect with
  | same hdeletes hrecords hgiven =>
    have hnext : nextOutboxSeq (step payloadId s action).1.table = nextOutboxSeq s.table := by
      rw [nextOutboxSeq, nextOutboxSeq, Table.seqs, Table.seqs, hrecords]
    refine iff_of_true ⟨by rw [hgiven]; exact h.increasing, ?_⟩ ?_
    · rw [hgiven, hnext]
      exact h.below
    · simp [KeepsNewest, hdeletes]
  | stored record hdeletes hseq hput hgiven =>
    have hlast : record.seq.val < nextOutboxSeq (step payloadId s action).1.table :=
      seq_lt_nextOutboxSeq ((mem_records_upsertOutbox hput).mpr (.inl rfl))
    have hbefore : ∀ n ∈ s.given, n < record.seq.val := fun n hn => hseq ▸ h.below n hn
    refine iff_of_true ⟨?_, ?_⟩ ?_
    · rw [hgiven]
      refine List.pairwise_append.mpr ⟨h.increasing, List.pairwise_singleton _ _, ?_⟩
      intro n hn m hm
      rw [List.mem_singleton.mp hm]
      exact hbefore n hn
    · rw [hgiven]
      intro n hn
      rcases List.mem_append.mp hn with hn | hn
      · exact (hbefore n hn).trans hlast
      · rwa [List.mem_singleton.mp hn]
    · simp [KeepsNewest, hdeletes]
  | deleted seq hdeletes htable hgiven =>
    constructor
    · intro hfresh q hq hnewest
      obtain rfl : q = seq := Option.some.inj ((Option.mem_def.mp hq).symm.trans hdeletes)
      have hgivenSeq : q ∈ (step payloadId s action).1.given := hgiven ▸ hinv.given q hnewest.1
      exact not_lt_nextOutboxSeq_delete hnewest (htable ▸ hfresh.below q hgivenSeq)
    · intro hkeeps
      have hnot : ¬ Newest s.table seq := hkeeps seq (Option.mem_def.mpr hdeletes)
      refine ⟨by rw [hgiven]; exact h.increasing, ?_⟩
      rw [hgiven, htable]
      exact fun n hn => lt_nextOutboxSeq_delete hnot (h.below n hn)

/-! ## Runs -/

variable (payloadId)

theorem Inv.start {table : Table} (h : Sound payloadId table) : Inv payloadId (.start table) :=
  ⟨h, fun _ ha => absurd ha List.not_mem_nil, fun _ hn => hn⟩

theorem Fresh.start (table : Table) : Fresh (.start table) where
  increasing := by
    rw [State.start, Table.seqs, Table.records, List.map_map]
    exact List.pairwise_map.mpr table.sorted
  below := fun n hn => lt_nextOf_iff.mpr (.inr ⟨n, hn, le_rfl⟩)

/-- **Numbers are never reused exactly when the newest record stays**: in every run of
appends, removes and prunes, however their steps interleave, at most one stored record
carries a given dedupe key in every state, and the numbers are given in increasing order,
each greater than all before it, exactly when no remove and no prune of the run deletes the
newest record. -/
theorem numbers_fresh_iff {table : Table} (hsound : Sound payloadId table)
    {ls : List (Action × Option OutboxRecord)} {s : State}
    (hrun : (LTS.ofFn (step payloadId)).Run (.start table) ls s) :
    (LTS.ofFn (step payloadId)).Throughout (.start table) ls
        (fun s => Deduped payloadId s.table) ∧
      ((LTS.ofFn (step payloadId)).Throughout (.start table) ls Fresh ↔
        (LTS.ofFn (step payloadId)).Always (.start table) ls KeepsNewest) := by
  have hinv : (LTS.ofFn (step payloadId)).Throughout (.start table) ls (Inv payloadId) := by
    rintro ks rest m - hks
    refine hks.invariant (Inv.start payloadId hsound) fun a l b hstep ha => ?_
    have hb : (step payloadId a l.1).1 = b := congrArg Prod.fst hstep
    exact hb ▸ ha.step l.1
  refine ⟨fun ks rest m hsplit hks => (hinv ks rest m hsplit hks).sound.deduped, ?_⟩
  exact hrun.throughout_iff_of_inv (Inv.start payloadId hsound) (fun _ action h => h.step action)
    (Fresh.start table) fun _ action hinv hfresh => fresh_step_iff hinv hfresh action

/-! Sample runs over an empty outbox. -/

def samplePayloadId : Json → String := fun _ => "9f86d081"

def sampleDraft (correlationId : String) : OutboxDraft where
  eventType := "report"
  correlationId := some correlationId
  createdAt := 1000

/-- Two appends, a repeated one, and a remove of the older record. -/
def sampleActions : List Action :=
  [.append (sampleDraft "a"), .accept 0, .append (sampleDraft "b"), .accept 0,
    .append (sampleDraft "a"), .accept 0, .remove 1, .append (sampleDraft "c"), .accept 0]

theorem numbers_fresh_sample :
    (LTS.ofFn (step samplePayloadId)).Throughout (.start .empty)
      (LTS.exec (step samplePayloadId) (.start .empty) sampleActions).1 Fresh :=
  (numbers_fresh_iff samplePayloadId (Sound.empty samplePayloadId) (LTS.run_exec _ _ _)).2.mpr
    (LTS.ExecAlways.always (by decide +kernel))

/-- A prune after a month of silence gives the first number again. -/
theorem number_given_twice :
    ∃ s : State,
      s = (LTS.exec (step samplePayloadId) (.start .empty)
        [.append (sampleDraft "a"), .accept 0, .prune { now := .finite 2592002000 }, .pruneNext 0,
          .append (sampleDraft "b"), .accept 0]).2 ∧
        s.given = [1, 1] ∧ ¬ Fresh s :=
  ⟨_, rfl, by decide +kernel, by decide +kernel⟩

end Outbox

end PulSeed
