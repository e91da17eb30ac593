import Mathlib.Data.List.Nodup
import Mathlib.Data.List.MinMax
import PulSeed.Lib.Number
import PulSeed.Lib.Transition
import PulSeed.Runtime.Envelope

/-!
# The outbox (`runtime/store/outbox-store.ts`)

The outbox keeps the events that subscribers of the event stream may ask for again:
each record has a sequence number, and a subscriber that reconnects names the last
number it saw. The table `outbox_records` has the number as its primary key and a
unique index over the dedupe keys that are set; a `Table` carries both.

An append reads a candidate, awaits its admission and then runs a transaction; a
prune lists the records once and removes the overdue ones in transactions of their
own. `State` holds the appends and prunes in flight, so that steps of several calls
interleave. `given` lists the numbers ever given, the stored ones at the start
included. The digest of a payload, `stableId(stableJson(payload))`, is a parameter.
-/

namespace PulSeed

namespace Outbox

/-! ## Records -/

/-- `OutboxRecordSchema`. -/
structure OutboxRecord where
  seq : SafePositiveInt
  eventType : String
  goalId : Option String := none
  correlationId : Option String := none
  createdAt : SafeInt
  payload : Json := .null

/-- `Omit<OutboxRecord, "seq">`, as a caller of `append` passes it. -/
structure OutboxDraft where
  eventType : String
  goalId : Option String := none
  correlationId : Option String := none
  createdAt : Millis
  payload : Json := .null

/-- `OutboxRecordSchema.parse({ ...record, seq })`. -/
def OutboxDraft.parse (draft : OutboxDraft) (seq : ℕ) : Option OutboxRecord :=
  if h : 0 < seq ∧ seq ≤ maxSafeInteger then
    (SafeInt.parse draft.createdAt).map fun createdAt =>
      { seq := ⟨seq, h.1, h.2⟩
        eventType := draft.eventType
        goalId := draft.goalId
        correlationId := draft.correlationId
        createdAt
        payload := draft.payload }
  else none

theorem OutboxDraft.parse_seq {draft : OutboxDraft} {seq : ℕ} {record : OutboxRecord}
    (h : draft.parse seq = some record) : record.seq.val = seq := by
  unfold OutboxDraft.parse at h
  split at h
  · obtain ⟨createdAt, -, rfl⟩ := Option.map_eq_some_iff.mp h
    rfl
  · cases h

variable (payloadId : Json → String)

/-- `function outboxDedupeKey`. -/
def outboxDedupeKey (record : OutboxRecord) : Option String :=
  match truthy record.correlationId with
  | none => none
  | some correlationId => some (":".intercalate
      [record.eventType, record.goalId.getD "", correlationId, payloadId record.payload])

theorem OutboxDraft.parse_dedupeKey {draft : OutboxDraft} {seq seq' : ℕ}
    {record record' : OutboxRecord} (h : draft.parse seq = some record)
    (h' : draft.parse seq' = some record') :
    outboxDedupeKey payloadId record = outboxDedupeKey payloadId record' := by
  unfold OutboxDraft.parse at h h'
  split at h <;> split at h'
  · obtain ⟨createdAt, -, rfl⟩ := Option.map_eq_some_iff.mp h
    obtain ⟨createdAt', -, rfl⟩ := Option.map_eq_some_iff.mp h'
    rfl
  all_goals simp_all

/-! ## The table -/

/-- A row of `outbox_records`. -/
structure Row where
  dedupeKey : Option String
  record : OutboxRecord

def Row.seq (row : Row) : ℕ := row.record.seq.val

/-- `outbox_records`: the rows in the order of their primary key, where no dedupe key that
is set occurs twice. -/
structure Table where
  rows : List Row
  sorted : rows.Pairwise fun a b => a.seq < b.seq
  unique : (rows.filterMap (·.dedupeKey)).Nodup

def Table.empty : Table := ⟨[], .nil, .nil⟩

/-- The table with other rows, if they meet the constraints. -/
def Table.check (rows : List Row) : Option Table :=
  if h : rows.Pairwise (fun a b => a.seq < b.seq) ∧ (rows.filterMap (·.dedupeKey)).Nodup then
    some ⟨rows, h.1, h.2⟩
  else none

theorem Table.check_rows {rows : List Row} {table : Table} (h : Table.check rows = some table) :
    table.rows = rows := by
  unfold Table.check at h
  split at h
  · cases h
    rfl
  · cases h

def Table.records (table : Table) : List OutboxRecord := table.rows.map (·.record)

/-- The stored sequence numbers. -/
def Table.seqs (table : Table) : List ℕ := table.records.map (·.seq.val)

/-- One more than the greatest of some numbers. -/
def nextOf (seqs : List ℕ) : ℕ := seqs.max?.getD 0 + 1

/-- `function nextOutboxSeq`. -/
def nextOutboxSeq (table : Table) : ℕ := nextOf table.seqs

/-- `DELETE FROM outbox_records WHERE seq = ?`. -/
def Table.delete (table : Table) (seq : ℕ) : Table where
  rows := table.rows.filter fun row => row.seq ≠ seq
  sorted := table.sorted.filter _
  unique := table.unique.sublist (List.filter_sublist.filterMap _)

/-- The rows with one put in the place of its sequence number. -/
def putRow (rows : List Row) (row : Row) : List Row :=
  rows.filter (fun r => r.seq < row.seq) ++ row :: rows.filter (fun r => row.seq < r.seq)

/-- `function upsertOutbox`. -/
def upsertOutbox (table : Table) (record : OutboxRecord) : Option Table :=
  Table.check (putRow table.rows
    { dedupeKey := outboxDedupeKey payloadId record
      record })

/-- `UPDATE outbox_records SET dedupe_key = ? WHERE seq = ? AND dedupe_key IS NULL`. -/
def Table.setKey (table : Table) (seq : ℕ) (key : String) : Option Table :=
  Table.check (table.rows.map fun row =>
    if row.seq = seq ∧ row.dedupeKey = none then { row with dedupeKey := some key } else row)

/-- `function readAndBackfillLegacyOutboxByDedupeKey`; the statement that sets the key may
fail. -/
def readAndBackfillLegacy (table : Table) (key : String) : Option (Option (Table × OutboxRecord)) :=
  match table.rows.find? fun row =>
      row.dedupeKey = none ∧ outboxDedupeKey payloadId row.record = some key with
  | none => some none
  | some row => (table.setKey row.seq key).map fun table => some (table, row.record)

/-- `function readOutboxByDedupeKey`. -/
def readOutboxByDedupeKey (table : Table) (key : String) :
    Option (Option (Table × OutboxRecord)) :=
  match table.rows.find? fun row => row.dedupeKey = some key with
  | some row => some (some (table, row.record))
  | none => readAndBackfillLegacy payloadId table key

/-- The body of the loop of `backfillOutboxDedupeKeys`; a key that was seen is stored. -/
def backfillRow (table : Table) (row : Row) : Option Table :=
  match outboxDedupeKey payloadId row.record with
  | none => some table
  | some key =>
    if table.rows.any fun row => row.dedupeKey = some key then some table
    else table.setKey row.seq key

/-- `function backfillOutboxDedupeKeys`. -/
def backfillOutboxDedupeKeys (table : Table) : Option Table :=
  (table.rows.filter fun row => row.dedupeKey = none).foldlM (backfillRow payloadId) table

/-! ## Operations -/

/-- What an append left: the table, the record it returned, and whether it is a new one. -/
structure Appended where
  table : Table
  record : OutboxRecord
  stored : Bool

/-- The insertion at the end of an append's transaction. -/
def insertNext (table : Table) (draft : OutboxDraft) : Option Appended := do
  let parsed ← draft.parse (nextOutboxSeq table)
  let table ← upsertOutbox payloadId table parsed
  return { table, record := parsed, stored := true }

/-- The transaction of `appendInternal`; nothing when it throws. -/
def appendTransaction (table : Table) (draft : OutboxDraft) (candidate : OutboxRecord) :
    Option Appended :=
  match outboxDedupeKey payloadId candidate with
  | none => insertNext payloadId table draft
  | some key =>
    match readOutboxByDedupeKey payloadId table key with
    | none => none
    | some (some (table, existing)) => some { table, record := existing, stored := false }
    | some none => insertNext payloadId table draft

/-- The options of `prune`, with the time at which it runs. -/
structure PruneOptions where
  olderThanMs : Number := .finite (30 * 24 * 60 * 60 * 1000)
  maxRecords : Number := .finite 5000
  now : Number

/-- The element of an array at a computed index. -/
def elementAt {α : Type} (values : List α) : Number → Option α
  | .finite q => if q.den = 1 ∧ 0 ≤ q.num then values[q.num.toNat]? else none
  | _ => none

/-- The numbers of the records that `prune` removes, as it lists them. -/
def overdue (table : Table) (options : PruneOptions) : List ℕ :=
  let threshold := options.now.sub options.olderThanMs
  let count := Number.finite table.rows.length
  let protectedSeq : Option ℕ :=
    if options.maxRecords.lt count then
      (elementAt table.rows (count.sub options.maxRecords)).map Row.seq
    else none
  let overAge (row : Row) : Bool := (Number.finite row.record.createdAt.val).lt threshold
  let overCount (row : Row) : Bool := protectedSeq.any fun seq => decide (row.seq < seq)
  (table.rows.filter fun row => overAge row || overCount row).map Row.seq

/-! ## The system -/

/-- The table, the appends that await their admission, the prunes with the numbers they
have still to remove, and the numbers ever given. -/
structure State where
  table : Table
  appending : List (OutboxDraft × OutboxRecord) := []
  pruning : List (List ℕ) := []
  given : List ℕ

/-- An outbox over a table. -/
def State.start (table : Table) : State :=
  { table
    given := table.seqs }

inductive Action
  /-- A store opens the database: the missing dedupe keys are filled in. -/
  | database
  /-- `append` begins: the candidate is read. -/
  | append (draft : OutboxDraft)
  /-- The admission of the append at a position resolves, and its transaction runs. -/
  | accept (i : ℕ)
  /-- The admission of the append at a position throws. -/
  | refuse (i : ℕ)
  | remove (seq : ℕ)
  /-- `prune` begins: the records are listed. -/
  | prune (options : PruneOptions)
  /-- The prune at a position removes its next record. -/
  | pruneNext (i : ℕ)

/-- One step; the answer is the record an append returns. -/
def step (s : State) : Action → State × Option OutboxRecord
  | .database => ({ s with table := (backfillOutboxDedupeKeys payloadId s.table).getD s.table }, none)
  | .append draft =>
    match draft.parse (nextOutboxSeq s.table) with
    | none => (s, none)
    | some candidate => ({ s with appending := s.appending ++ [(draft, candidate)] }, none)
  | .accept i =>
    match s.appending[i]? with
    | none => (s, none)
    | some (draft, candidate) =>
      let s := { s with appending := s.appending.eraseIdx i }
      match appendTransaction payloadId s.table draft candidate with
      | none => (s, none)
      | some done =>
        ({ s with
          table := done.table
          given := if done.stored then s.given ++ [done.record.seq.val] else s.given },
          some done.record)
  | .refuse i => ({ s with appending := s.appending.eraseIdx i }, none)
  | .remove seq => ({ s with table := s.table.delete seq }, none)
  | .prune options => ({ s with pruning := s.pruning ++ [overdue s.table options] }, none)
  | .pruneNext i =>
    match s.pruning[i]? with
    | some (seq :: rest) =>
      ({ s with
        table := s.table.delete seq
        pruning := s.pruning.set i rest }, none)
    | _ => (s, none)

/-- The record a step deletes, if there is one. -/
def State.deletes (s : State) : Action → Option ℕ
  | .remove seq => some seq
  | .pruneNext i => s.pruning[i]?.bind List.head?
  | _ => none

end Outbox

end PulSeed
