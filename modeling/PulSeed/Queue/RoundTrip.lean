import PulSeed.Queue.Store
import Mathlib.Tactic.NormNum

/-!
# Reading back a written state

`readRows_state` says what the loop of `readQueueState` builds from rows that are
all valid and carry distinct ids and claim tokens; such a state is normal, so
`normalizeState` leaves it alone. `queueOrder_eq` is where the pending order is
kept: the position of a pending message in its list is the `queue_order` of its
row, and the rows are read in that order.
-/

namespace PulSeed.Queue

/-! ## What the loop of `readQueueState` builds -/

theorem readRows_records {l : List QueueRow} (h : ∀ row ∈ l, row.Valid) (s : QueueState) :
    (l.foldl readRow s).records =
      (l.map fun row => (row.messageId, row.record)).foldl (fun m e => m.set e.1 e.2) s.records := by
  induction l generalizing s with
  | nil => rfl
  | cons row rest ih =>
    rw [List.foldl_cons, ih (fun r hr => h r (List.mem_cons_of_mem _ hr)), List.map_cons,
      List.foldl_cons]
    rw [readRow, if_pos (h row (List.mem_cons_self ..))]

theorem readRows_pending {l : List QueueRow} (h : ∀ row ∈ l, row.Valid) (s : QueueState)
    (p : EnvelopePriority) :
    (l.foldl readRow s).pending p =
      s.pending p ++ (l.filter fun row => row.record.PendingAt p).map QueueRow.messageId := by
  induction l generalizing s with
  | nil => simp
  | cons row rest ih =>
    rw [List.foldl_cons, ih (fun r hr => h r (List.mem_cons_of_mem _ hr)), readRow,
      if_pos (h row (List.mem_cons_self ..)), List.filter_cons]
    by_cases hst : row.record.status = .pending
    · by_cases hp : row.record.envelope.priority = p
      · subst hp
        simp [hst, pushPending, QueueRecord.PendingAt]
      · have hne : p ≠ row.record.envelope.priority := fun e => hp e.symm
        simp [hst, hp, hne, pushPending, QueueRecord.PendingAt]
    · simp [hst, QueueRecord.PendingAt]

theorem readRows_inflight {l : List QueueRow} (h : ∀ row ∈ l, row.Valid) (s : QueueState) :
    (l.foldl readRow s).inflight =
      (l.filterMap QueueRow.claimEntry).foldl (fun m e => m.set e.1 e.2) s.inflight := by
  induction l generalizing s with
  | nil => rfl
  | cons row rest ih =>
    rw [List.foldl_cons, ih (fun r hr => h r (List.mem_cons_of_mem _ hr)), readRow,
      if_pos (h row (List.mem_cons_self ..)), List.filterMap_cons]
    cases row.claimEntry <;> rfl

/-- Rows that `readQueueState` reads without skipping or overwriting any. -/
structure RowsOk (l : List QueueRow) : Prop where
  valid : ∀ row ∈ l, row.Valid
  ids : (l.map QueueRow.messageId).Nodup
  tokens : ((l.filterMap QueueRow.claimEntry).map Prod.fst).Nodup
  lease : ∀ row ∈ l, LeaseFields row.record

theorem RowsOk.perm {l l' : List QueueRow} (h : RowsOk l) (hp : l'.Perm l) : RowsOk l' where
  valid := fun row hrow => h.valid row (hp.mem_iff.mp hrow)
  ids := (hp.map _).nodup_iff.mpr h.ids
  tokens := ((hp.filterMap _).map _).nodup_iff.mpr h.tokens
  lease := fun row hrow => h.lease row (hp.mem_iff.mp hrow)

theorem claimEntry_eq_some {row : QueueRow} {e : String × ClaimRecord} :
    row.claimEntry = some e ↔ row.record.status = .inflight ∧
      truthy row.record.claimToken = some e.1 ∧ e.2 = row.record.claimRecord row.messageId := by
  obtain ⟨t, c⟩ := e
  unfold QueueRow.claimEntry
  by_cases hst : row.record.status = .inflight
  · simp only [hst, if_true, Option.map_eq_some_iff, Prod.mk.injEq, true_and]
    constructor
    · rintro ⟨t', ht', rfl, rfl⟩
      exact ⟨ht', rfl⟩
    · rintro ⟨ht, rfl⟩
      exact ⟨t, ht, rfl, rfl⟩
  · simp [hst]

section

variable {l : List QueueRow}

/-- The state the loop of `readQueueState` builds. -/
def rowsState (l : List QueueRow) : QueueState := l.foldl readRow buildEmptyState

theorem rowsState_records (h : RowsOk l) :
    (rowsState l).records.entries = l.map fun row => (row.messageId, row.record) := by
  unfold rowsState
  rw [readRows_records h.valid]
  refine (ObjectMap.foldl_set_fresh _ _ ?_ fun _ _ => rfl).trans (by simp [buildEmptyState])
  simpa [List.map_map, Function.comp_def] using h.ids

theorem rowsState_get? (h : RowsOk l) {id : String} {r : QueueRecord} :
    (rowsState l).records.get? id = some r ↔ ∃ row ∈ l, row.messageId = id ∧ row.record = r := by
  rw [← ObjectMap.mem_entries_iff, rowsState_records h]
  simp

theorem rowsState_pending (h : RowsOk l) (p : EnvelopePriority) :
    (rowsState l).pending p =
      (l.filter fun row => row.record.PendingAt p).map QueueRow.messageId := by
  unfold rowsState
  rw [readRows_pending h.valid]
  rfl

theorem rowsState_inflight (h : RowsOk l) :
    (rowsState l).inflight.entries = l.filterMap QueueRow.claimEntry := by
  unfold rowsState
  rw [readRows_inflight h.valid]
  exact (ObjectMap.foldl_set_fresh _ _ h.tokens fun _ _ => rfl).trans (by simp [buildEmptyState])

theorem rowsState_inflight_get? (h : RowsOk l) {t : String} {c : ClaimRecord} :
    (rowsState l).inflight.get? t = some c ↔ ∃ row ∈ l, row.record.status = .inflight ∧
      row.record.claimToken = some t ∧ c = row.record.claimRecord row.messageId := by
  rw [← ObjectMap.mem_entries_iff, rowsState_inflight h, List.mem_filterMap]
  refine exists_congr fun row => and_congr_right fun hrow => ?_
  rw [claimEntry_eq_some, truthy_eq_some]
  constructor
  · rintro ⟨hst, ⟨htok, -⟩, hc⟩
    exact ⟨hst, htok, hc⟩
  · rintro ⟨hst, htok, hc⟩
    obtain ⟨t', w, lu, htok', hne, -⟩ := (h.lease row hrow).inflight hst
    have : t = t' := Option.some.inj (htok.symm.trans htok')
    exact ⟨hst, ⟨htok, this ▸ hne⟩, hc⟩

theorem rowsState_inflightExact (h : RowsOk l) : InflightExact (rowsState l) := by
  intro t c
  rw [rowsState_inflight_get? h]
  constructor
  · rintro ⟨row, hrow, hst, htok, rfl⟩
    exact ⟨row.record, (rowsState_get? h).mpr ⟨row, hrow, rfl, rfl⟩, hst, htok, rfl⟩
  · rintro ⟨r, hr, hst, htok, hc⟩
    obtain ⟨row, hrow, hid, rfl⟩ := (rowsState_get? h).mp hr
    exact ⟨row, hrow, hst, htok, by rw [hid]; exact hc⟩

/-- A record that parses gives a claim that parses. -/
theorem claimRecord_schema {r : QueueRecord} (h : RecordSchema r) (id : String) :
    ClaimRecordSchema (r.claimRecord id) where
  leaseUntil := by
    show SafeNonneg (r.leaseUntil.getD 0)
    cases hl : r.leaseUntil with
    | none => exact ⟨le_refl 0, by unfold maxSafeInteger; norm_num⟩
    | some u => exact h.leaseUntil u (by simp [hl])
  attempt := h.attempt
  claimedAt := h.updatedAt

theorem rowsState_normal (h : RowsOk l) : Normal (rowsState l) where
  records := by
    intro e he
    rw [rowsState_records h, List.mem_map] at he
    obtain ⟨row, hrow, rfl⟩ := he
    exact h.valid row hrow
  pending := by
    intro p id hid
    rw [rowsState_pending h, List.mem_map] at hid
    obtain ⟨row, hrow, rfl⟩ := hid
    obtain ⟨hrow, hp⟩ := List.mem_filter.mp hrow
    exact ⟨row.record, (rowsState_get? h).mpr ⟨row, hrow, rfl, rfl⟩, (of_decide_eq_true hp).1⟩
  listed := by
    intro e he hst
    rw [rowsState_records h, List.mem_map] at he
    obtain ⟨row, hrow, rfl⟩ := he
    rw [rowsState_pending h]
    exact List.mem_map.mpr ⟨row, List.mem_filter.mpr ⟨hrow, decide_eq_true ⟨hst, rfl⟩⟩, rfl⟩
  inflight := by
    intro e he
    rw [rowsState_inflight h, List.mem_filterMap] at he
    obtain ⟨row, hrow, he⟩ := he
    obtain ⟨hst, htok, hc⟩ := claimEntry_eq_some.mp he
    rw [hc]
    exact ⟨claimRecord_schema (h.valid row hrow).1 _, row.record,
      (rowsState_get? h).mpr ⟨row, hrow, rfl, rfl⟩, hst, (truthy_eq_some.mp htok).1⟩
  claimed := by
    intro e he hst t htok
    rw [rowsState_records h, List.mem_map] at he
    obtain ⟨row, hrow, rfl⟩ := he
    exact (rowsState_inflight_get? h).mpr ⟨row, hrow, hst, (truthy_eq_some.mp htok).1, rfl⟩

/-- **`readQueueState` on a well-formed table** is the state built from its rows
in `ORDER BY` order. -/
theorem readQueueState_eq {table : Table} (h : RowsOk table) :
    readQueueState table = rowsState (table.insertionSort QueueRow.le) :=
  normalizeState_eq (rowsState_normal (h.perm (List.perm_insertionSort _ table)))

end

/-! ## What `writeQueueState` writes -/

section

variable {s : QueueState}

/-- `pendingOrder` holds the position of every listed id. -/
theorem pendingOrder_get? (h : s.view.Ok) {p : EnvelopePriority} {id : String} {i : Nat}
    (hi : (s.pending p)[i]? = some id) : (pendingOrder s.pending).get? id = some i := by
  have hkeys : ((priorityOrder.flatMap fun p => (s.pending p).zipIdx).map Prod.fst) =
      priorityOrder.flatMap s.pending := by
    simp [List.map_flatMap]
  have hentries := ObjectMap.foldl_set_fresh (priorityOrder.flatMap fun p => (s.pending p).zipIdx)
    ObjectMap.empty (by rw [hkeys]; exact h.order_nodup) (by simp)
  rw [← ObjectMap.mem_entries_iff]
  show _ ∈ ((priorityOrder.flatMap fun p => (s.pending p).zipIdx).foldl
    (fun m e => m.set e.1 e.2) ObjectMap.empty).entries
  rw [hentries]
  have hmem : (id, i) ∈ (s.pending p).zipIdx := by
    rw [List.mem_zipIdx_iff_getElem?]
    exact hi
  exact List.mem_append_right _ (List.mem_flatMap.mpr ⟨p, mem_priorityOrder p, hmem⟩)

/-- **The row of a pending message carries its position.** -/
theorem queueOrder_eq (h : s.view.Ok) {p : EnvelopePriority} {id : String} {r : QueueRecord}
    (hr : s.records.get? id = some r) (hp : r.PendingAt p) :
    (rowOf s id r).queueOrder = some ((s.pending p).idxOf id) := by
  have hmem : id ∈ s.pending p := h.pending_iff.mpr ⟨r, hr, hp⟩
  show (if r.status = .pending then (pendingOrder s.pending).get? id else none) = _
  rw [if_pos hp.1]
  exact pendingOrder_get? h (List.getElem?_idxOf hmem)

/-- The rows of a state that satisfies the invariant and the schema. -/
theorem rows_ok (h : s.view.Ok) (hs : ∀ e ∈ s.records.entries, RecordSchema e.2) :
    RowsOk (s.records.entries.map fun e => rowOf s e.1 e.2) where
  valid := by
    intro row hrow
    obtain ⟨e, he, rfl⟩ := List.mem_map.mp hrow
    exact ⟨hs e he, h.ids (ObjectMap.mem_entries_iff.mp he)⟩
  ids := by
    rw [List.map_map]
    exact s.records.nodupKeys
  tokens := by
    rw [List.map_filterMap]
    refine List.pairwise_filterMap.mpr (List.pairwise_map.mpr (List.Pairwise.imp_of_mem ?_
      (List.pairwise_map.mp s.records.nodupKeys)))
    intro e e' he he' hne t ht t' ht' htt
    obtain ⟨x, hx, rfl⟩ := Option.map_eq_some_iff.mp ht
    obtain ⟨x', hx', rfl⟩ := Option.map_eq_some_iff.mp ht'
    have h₁ := (truthy_eq_some.mp (claimEntry_eq_some.mp hx).2.1).1
    have h₂ := (truthy_eq_some.mp (claimEntry_eq_some.mp hx').2.1).1
    exact hne (h.token_inj (ObjectMap.mem_entries_iff.mp he) (ObjectMap.mem_entries_iff.mp he')
      h₁ (htt ▸ h₂))
  lease := by
    intro row hrow
    obtain ⟨e, he, rfl⟩ := List.mem_map.mp hrow
    exact h.lease (r := e.2) (ObjectMap.mem_entries_iff.mp he)

/-- Among rows pending at one priority the `ORDER BY` order is that of `queue_order`. -/
theorem le_queueOrder {a b : QueueRow} {i j : Nat} (hab : a.le b) (hp : a.priority = b.priority)
    (ha : a.queueOrder = some i) (hb : b.queueOrder = some j) : i ≤ j := by
  have hle : a.sortKey ≤ b.sortKey := hab
  simp only [QueueRow.sortKey, hp, ha, hb, Prod.Lex.le_iff, ofLex_toLex, lt_self_iff_false,
    true_and, false_or] at hle
  rcases hle with hlt | ⟨heq, -⟩
  · exact le_of_lt (WithBot.coe_lt_coe.mp hlt)
  · exact le_of_eq (WithBot.coe_injective heq)

/-- **The pending order survives**: the rows of the messages pending at `p`, in
`ORDER BY` order, list the ids of the pending list. -/
theorem sorted_pending (h : s.view.Ok) (p : EnvelopePriority) :
    (((s.records.entries.map fun e => rowOf s e.1 e.2).insertionSort QueueRow.le).filter
      fun row => row.record.PendingAt p).map QueueRow.messageId = s.pending p := by
  generalize hrows : (s.records.entries.map fun e => rowOf s e.1 e.2) = rows
  have hmem : ∀ row ∈ (rows.insertionSort QueueRow.le).filter fun row => row.record.PendingAt p,
      ∃ e ∈ s.records.entries, row = rowOf s e.1 e.2 ∧ e.2.PendingAt p := by
    intro row hrow
    obtain ⟨hrow, hp⟩ := List.mem_filter.mp hrow
    rw [(List.perm_insertionSort _ rows).mem_iff, ← hrows] at hrow
    obtain ⟨e, he, rfl⟩ := List.mem_map.mp hrow
    exact ⟨e, he, rfl, of_decide_eq_true hp⟩
  have hnodup : (((rows.insertionSort QueueRow.le).filter
      fun row => row.record.PendingAt p).map QueueRow.messageId).Nodup := by
    have hids : (rows.map QueueRow.messageId).Nodup := by
      rw [← hrows, List.map_map]
      exact s.records.nodupKeys
    exact (((List.perm_insertionSort _ rows).map _).nodup_iff.mpr hids).sublist
      (List.filter_sublist.map _)
  have hperm : (((rows.insertionSort QueueRow.le).filter
      fun row => row.record.PendingAt p).map QueueRow.messageId).Perm (s.pending p) := by
    refine (List.perm_ext_iff_of_nodup hnodup (h.pending_nodup p)).mpr fun id => ?_
    rw [h.pending_iff]
    constructor
    · intro hid
      obtain ⟨row, hrow, rfl⟩ := List.mem_map.mp hid
      obtain ⟨e, he, rfl, hp⟩ := hmem row hrow
      exact ⟨e.2, ObjectMap.mem_entries_iff.mp he, hp⟩
    · rintro ⟨r, hr, hp⟩
      refine List.mem_map.mpr ⟨rowOf s id r, List.mem_filter.mpr ⟨?_, decide_eq_true hp⟩, rfl⟩
      rw [(List.perm_insertionSort _ rows).mem_iff, ← hrows]
      exact List.mem_map.mpr ⟨(id, r), ObjectMap.mem_entries_iff.mpr hr, rfl⟩
  -- both lists are sorted by the position in the pending list
  have hsorted : (((rows.insertionSort QueueRow.le).filter
      fun row => row.record.PendingAt p).map QueueRow.messageId).Pairwise
        fun x y => (s.pending p).idxOf x ≤ (s.pending p).idxOf y := by
    refine List.pairwise_map.mpr (List.Pairwise.imp_of_mem ?_
      ((List.pairwise_insertionSort QueueRow.le rows).filter _))
    intro a b ha hb hab
    obtain ⟨e, he, rfl, hep⟩ := hmem a ha
    obtain ⟨e', he', rfl, hep'⟩ := hmem b hb
    exact le_queueOrder hab (hep.2.trans hep'.2.symm)
      (queueOrder_eq h (ObjectMap.mem_entries_iff.mp he) hep)
      (queueOrder_eq h (ObjectMap.mem_entries_iff.mp he') hep')
  have hlist : (s.pending p).Pairwise fun x y => (s.pending p).idxOf x ≤ (s.pending p).idxOf y := by
    have hnodup : (s.pending p).Nodup := h.pending_nodup p
    refine List.pairwise_iff_getElem.mpr fun i j hi hj hij => ?_
    rw [hnodup.idxOf_getElem i hi, hnodup.idxOf_getElem j hj]
    exact le_of_lt hij
  refine List.Perm.eq_of_pairwise (fun x y hx _ hxy hyx => ?_) hsorted hlist hperm
  exact (List.idxOf_inj (hperm.mem_iff.mp hx)).mp (le_antisymm hxy hyx)

end

/-- What holds of every state `readQueueState` returns along a run. -/
structure Loaded (s : QueueState) : Prop where
  ok : s.view.Ok
  inflight : InflightExact s
  schema : ∀ e ∈ s.records.entries, RecordSchema e.2

/-- **Round trip**: reading back a written state gives the same records and the
same pending lists, and the inflight table its records determine. -/
theorem readQueueState_writeQueueState {s : QueueState} {table : Table} (h : s.view.Ok)
    (hs : ∀ e ∈ s.records.entries, RecordSchema e.2) (hw : writeQueueState s = some table) :
    (readQueueState table).view = s.view ∧ Loaded (readQueueState table) := by
  unfold writeQueueState at hw
  simp only [Option.ite_none_right_eq_some, Option.some.injEq] at hw
  obtain ⟨-, rfl⟩ := hw
  have hrows := rows_ok h hs
  rw [readQueueState_eq hrows]
  have hperm := List.perm_insertionSort QueueRow.le (s.records.entries.map fun e => rowOf s e.1 e.2)
  have hsorted := hrows.perm hperm
  have hget : ∀ id, (rowsState ((s.records.entries.map fun e => rowOf s e.1 e.2).insertionSort
      QueueRow.le)).records.get? id = s.records.get? id := by
    intro id
    ext r
    rw [rowsState_get? hsorted, ← ObjectMap.mem_entries_iff]
    constructor
    · rintro ⟨row, hrow, rfl, rfl⟩
      obtain ⟨e, he, rfl⟩ := List.mem_map.mp (hperm.mem_iff.mp hrow)
      exact he
    · intro he
      exact ⟨rowOf s id r, hperm.mem_iff.mpr (List.mem_map.mpr ⟨(id, r), he, rfl⟩), rfl, rfl⟩
  have hview : (rowsState ((s.records.entries.map fun e => rowOf s e.1 e.2).insertionSort
      QueueRow.le)).view = s.view := by
    unfold QueueState.view
    congr 1
    · exact funext hget
    · exact funext fun p => (rowsState_pending hsorted p).trans (sorted_pending h p)
  refine ⟨hview, ?_, rowsState_inflightExact hsorted, fun e he => ?_⟩
  · rw [hview]; exact h
  · rw [rowsState_records hsorted] at he
    obtain ⟨row, hrow, rfl⟩ := List.mem_map.mp he
    exact (hsorted.valid row hrow).1

/-- Reading the empty table. -/
theorem loaded_nil : Loaded (readQueueState []) := by
  have hrows : RowsOk [] := ⟨by simp, by simp, by simp, by simp⟩
  rw [readQueueState_eq hrows]
  exact ⟨empty_ok, rowsState_inflightExact hrows, by simp [rowsState, buildEmptyState]⟩

end PulSeed.Queue
