import PulSeed.Lib.ObjectMap
import PulSeed.Runtime.Envelope
import Mathlib.Logic.Function.Basic

/-!
# The state of `JournalBackedQueue` (`runtime/queue/journal-backed-queue.ts`)

Records, the four pending lists and the inflight table, with the schemas that
guard what is persisted and `normalizeState`. A record carries exactly the
members of `JournalBackedQueueRecord`; numbers that the schema does not require
to be integers are rationals.
-/

namespace PulSeed.Queue

/-- The `status` of a record. -/
inductive RecordStatus
  | pending | inflight | completed | deadletter
  deriving DecidableEq, Repr

/-- `JournalBackedQueueRecord`. -/
structure QueueRecord where
  envelope : Envelope
  status : RecordStatus
  attempt : Nat
  createdAt : Millis
  updatedAt : Millis
  workerId : Option String := none
  claimToken : Option String := none
  leaseUntil : Option Millis := none
  deadletterReason : Option String := none
  completedAt : Option Millis := none

/-- `JournalBackedQueueClaimRecord`: an entry of the inflight table. -/
structure ClaimRecord where
  messageId : String
  workerId : String
  leaseUntil : Millis
  attempt : Nat
  claimedAt : Millis
  deriving DecidableEq

/-- `JournalBackedQueueState`. -/
structure QueueState where
  records : ObjectMap String QueueRecord
  pending : EnvelopePriority → List String
  inflight : ObjectMap String ClaimRecord

/-- `PRIORITY_ORDER`. -/
def priorityOrder : List EnvelopePriority := [.critical, .high, .normal, .low]

theorem mem_priorityOrder (p : EnvelopePriority) : p ∈ priorityOrder := by
  cases p <;> simp [priorityOrder]

/-- `buildEmptyState`. -/
def buildEmptyState : QueueState := ⟨ObjectMap.empty, fun _ => [], ObjectMap.empty⟩

/-- `isExpired`: the time to live defaults to five minutes. -/
def isExpired (envelope : Envelope) (now : Millis) : Bool :=
  let ttl : Nat := (envelope.ttlMs.map SafePositiveInt.val).getD 300000
  decide ((envelope.createdAt.val : Millis) + ttl ≤ now)

/-! ## Schemas -/

/-- `QueueSafeNonnegativeNumberSchema`. -/
def SafeNonneg (x : Millis) : Prop := 0 ≤ x ∧ x ≤ maxSafeInteger

instance (x : Millis) : Decidable (SafeNonneg x) := inferInstanceAs (Decidable (_ ∧ _))

/-- `JournalBackedQueueRecordSchema`: the conditions on the numbers of a record. -/
structure RecordSchema (r : QueueRecord) : Prop where
  attempt : r.attempt ≤ maxSafeInteger
  createdAt : SafeNonneg r.createdAt
  updatedAt : SafeNonneg r.updatedAt
  leaseUntil : ∀ l ∈ r.leaseUntil, SafeNonneg l
  completedAt : ∀ t ∈ r.completedAt, SafeNonneg t

instance (r : QueueRecord) : Decidable (RecordSchema r) :=
  decidable_of_iff (r.attempt ≤ maxSafeInteger ∧ SafeNonneg r.createdAt ∧
      SafeNonneg r.updatedAt ∧ (∀ l ∈ r.leaseUntil, SafeNonneg l) ∧
      (∀ t ∈ r.completedAt, SafeNonneg t))
    ⟨fun ⟨h₁, h₂, h₃, h₄, h₅⟩ => ⟨h₁, h₂, h₃, h₄, h₅⟩,
     fun ⟨h₁, h₂, h₃, h₄, h₅⟩ => ⟨h₁, h₂, h₃, h₄, h₅⟩⟩

/-- `JournalBackedQueueClaimRecordSchema`. -/
structure ClaimRecordSchema (c : ClaimRecord) : Prop where
  leaseUntil : SafeNonneg c.leaseUntil
  attempt : c.attempt ≤ maxSafeInteger
  claimedAt : SafeNonneg c.claimedAt

instance (c : ClaimRecord) : Decidable (ClaimRecordSchema c) :=
  decidable_of_iff
    (SafeNonneg c.leaseUntil ∧ c.attempt ≤ maxSafeInteger ∧ SafeNonneg c.claimedAt)
    ⟨fun ⟨h₁, h₂, h₃⟩ => ⟨h₁, h₂, h₃⟩, fun ⟨h₁, h₂, h₃⟩ => ⟨h₁, h₂, h₃⟩⟩

/-- `JournalBackedQueueStateSchema`. -/
def StateSchema (s : QueueState) : Prop :=
  (∀ e ∈ s.records.entries, RecordSchema e.2) ∧
    ∀ e ∈ s.inflight.entries, ClaimRecordSchema e.2

instance (s : QueueState) : Decidable (StateSchema s) := inferInstanceAs (Decidable (_ ∧ _))

/-! ## `normalizeState` -/

/-- The claim that a record of status `inflight` stands for; `claimedAt` is read
off `updatedAt`. -/
def QueueRecord.claimRecord (messageId : String) (r : QueueRecord) : ClaimRecord where
  messageId := messageId
  workerId := r.workerId.getD ""
  leaseUntil := r.leaseUntil.getD 0
  attempt := r.attempt
  claimedAt := r.updatedAt

/-- Append an id to the pending list of one priority. -/
def pushPending (pending : EnvelopePriority → List String) (p : EnvelopePriority)
    (messageId : String) : EnvelopePriority → List String :=
  Function.update pending p (pending p ++ [messageId])

/-- The last loop of `normalizeState`: one record. -/
def normalizeRecord (s : QueueState) (messageId : String) (r : QueueRecord) : QueueState :=
  let s :=
    if r.status = .pending ∧ messageId ∉ s.pending r.envelope.priority then
      { s with pending := pushPending s.pending r.envelope.priority messageId }
    else s
  match truthy r.claimToken with
  | some token =>
    if r.status = .inflight then
      { s with inflight := s.inflight.set token (r.claimRecord messageId) }
    else s
  | none => s

/-- The records `normalizeState` keeps: those that parse and sit under their own id. -/
def normalizeRecords (records : ObjectMap String QueueRecord) : ObjectMap String QueueRecord :=
  records.entries.foldl (fun m e =>
    if RecordSchema e.2 ∧ e.2.envelope.id = e.1 then m.set e.1 e.2 else m) ObjectMap.empty

/-- The pending lists `normalizeState` keeps: ids of records of status `pending`. -/
def normalizePending (records : ObjectMap String QueueRecord)
    (pending : EnvelopePriority → List String) : EnvelopePriority → List String :=
  fun p => (pending p).filter fun id => (records.get? id).any fun r => r.status = .pending

/-- The claims `normalizeState` keeps: those that their record confirms. -/
def normalizeInflight (records : ObjectMap String QueueRecord)
    (inflight : ObjectMap String ClaimRecord) : ObjectMap String ClaimRecord :=
  inflight.entries.foldl (fun m e =>
    if ClaimRecordSchema e.2 ∧ ((records.get? e.2.messageId).any fun r =>
        r.status = .inflight ∧ r.claimToken = some e.1) = true
    then m.set e.1 e.2 else m) ObjectMap.empty

/-- `normalizeState`. -/
def normalizeState (state : QueueState) : QueueState :=
  let records := normalizeRecords state.records
  let pending := normalizePending records state.pending
  let inflight := normalizeInflight records state.inflight
  records.entries.foldl (fun s e => normalizeRecord s e.1 e.2) ⟨records, pending, inflight⟩

end PulSeed.Queue
