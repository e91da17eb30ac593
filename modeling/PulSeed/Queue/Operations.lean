import PulSeed.Queue.Store
import PulSeed.Lib.Transition

/-!
# The operations of `JournalBackedQueue`

Each operation is a mutator of a loaded state, run by `withLockedState`: load the
state from the table, mutate it, and when the mutator says so validate and write
it back. A state that fails its schema, or that violates a constraint of the
table, makes the operation throw, and the transaction leaves the table as it was.

The clock is read by `this.now()` at several places of one operation; a `Clock`
gives the reading at each of them, and no two need agree. `randomUUID()` is an
argument of `claim`: a nonempty string.
-/

namespace PulSeed.Queue

/-- The places where an operation calls `this.now()`. -/
inductive ClockRead
  /-- `isExpired` of a message, in `accept` and `claim`. -/
  | expiry (messageId : String)
  /-- `updatedAt` of a message that `claim` dead-letters. -/
  | drop (messageId : String)
  /-- `isLeaseExpired`. -/
  | leaseCheck
  /-- The base of a new lease. -/
  | lease
  | created
  | updated
  | claimed
  | completed
  /-- The default argument of `sweepExpiredClaims`. -/
  | sweep
  deriving DecidableEq

abbrev Clock := ClockRead → Millis

/-- A value of `randomUUID()`. -/
structure Uuid where
  val : String
  nonempty : val ≠ ""

/-- `JournalBackedQueueOptions`: the numbers. -/
structure QueueConfig where
  defaultLeaseMs : Millis := 60000
  maxAttempts : Nat := 3

/-- `JournalBackedQueueAcceptResult`. -/
structure AcceptResult where
  accepted : Bool
  duplicate : Bool
  messageId : String
  deriving DecidableEq

/-- `JournalBackedQueueClaim`. -/
structure Claim where
  claimToken : String
  messageId : String
  workerId : String
  leaseUntil : Millis
  attempt : Nat
  envelope : Envelope

/-- `JournalBackedQueueSweepResult`. -/
structure SweepResult where
  reclaimed : Nat
  deadlettered : Nat
  expiredClaimTokens : List String
  deriving DecidableEq

/-- What a mutator returns, with the state it leaves behind. -/
structure Mutation (α : Type) where
  result : α
  dirty : Bool
  state : QueueState

/-! ## `accept` -/

/-- `removePending`: the first list that has the id loses it. -/
def removePending (pending : EnvelopePriority → List String) (messageId : String) :
    EnvelopePriority → List String :=
  match priorityOrder.find? fun p => messageId ∈ pending p with
  | some p => Function.update pending p ((pending p).erase messageId)
  | none => pending

/-- The records `accept` finds active under the dedupe key of the envelope. -/
def activeDedupeRecords (envelope : Envelope) (s : QueueState) : List (String × QueueRecord) :=
  match truthy envelope.dedupeKey with
  | some key => s.records.entries.filter fun e =>
      e.2.envelope.dedupeKey = some key ∧ e.2.status ≠ .completed ∧ e.2.status ≠ .deadletter
  | none => []

/-- Delete a replaced record and take it off its pending list. -/
def evict (s : QueueState) (messageId : String) : QueueState :=
  { s with
    records := s.records.delete messageId
    pending := removePending s.pending messageId }

/-- The record of a message that has just been accepted. -/
def acceptedRecord (clock : Clock) (envelope : Envelope) : QueueRecord where
  envelope := envelope
  status := .pending
  attempt := 0
  createdAt := clock .created
  updatedAt := clock .updated

/-- `accept`, on a parsed envelope. -/
def accept (clock : Clock) (envelope : Envelope) (s : QueueState) : Mutation AcceptResult :=
  match s.records.get? envelope.id with
  | some _ => ⟨⟨false, true, envelope.id⟩, false, s⟩
  | none =>
    if isExpired envelope (clock (.expiry envelope.id)) then
      ⟨⟨false, false, envelope.id⟩, false, s⟩
    else
      let active := activeDedupeRecords envelope s
      match active.find? fun e => e.2.status = .inflight with
      | some e => ⟨⟨false, true, e.1⟩, false, s⟩
      | none =>
        let s := active.foldl (fun s e => evict s e.1) s
        { result := ⟨true, false, envelope.id⟩
          dirty := true
          state :=
            { s with
              records := s.records.set envelope.id (acceptedRecord clock envelope)
              pending := pushPending s.pending envelope.priority envelope.id } }

/-! ## `claim` -/

/-- A message that expired before it was claimed. -/
def droppedRecord (clock : Clock) (messageId : String) (r : QueueRecord) : QueueRecord :=
  { r with
    status := .deadletter
    deadletterReason := some "expired before claim"
    updatedAt := clock (.drop messageId) }

/-- Where the scan of a pending list stands: `hit` is the message to claim. -/
structure Scan where
  dirty : Bool
  records : ObjectMap String QueueRecord
  bucket : List String
  hit : Option (String × QueueRecord)

/-- The `while` loop of `claim` over one pending list: `kept` are the entries
before `index`, the last argument those from `index` on. -/
def scanBucket (clock : Clock) (filter : Envelope → Bool) (dirty : Bool)
    (records : ObjectMap String QueueRecord) (kept : List String) : List String → Scan
  | [] => ⟨dirty, records, kept, none⟩
  | messageId :: rest =>
    match records.get? messageId with
    | none => scanBucket clock filter true records kept rest
    | some r =>
      if r.status ≠ .pending then
        scanBucket clock filter true records kept rest
      else if isExpired r.envelope (clock (.expiry messageId)) then
        scanBucket clock filter true
          (records.set messageId (droppedRecord clock messageId r)) kept rest
      else if !filter r.envelope then
        scanBucket clock filter dirty records (kept ++ [messageId]) rest
      else ⟨dirty, records, kept ++ rest, some (messageId, r)⟩

/-- The `for` loop of `claim` over the priorities. -/
def scanQueue (clock : Clock) (filter : Envelope → Bool) (dirty : Bool) (s : QueueState) :
    List EnvelopePriority → Bool × QueueState × Option (String × QueueRecord)
  | [] => (dirty, s, none)
  | p :: ps =>
    let scan := scanBucket clock filter dirty s.records [] (s.pending p)
    let s := { s with
      records := scan.records
      pending := Function.update s.pending p scan.bucket }
    match scan.hit with
    | some hit => (scan.dirty, s, some hit)
    | none => scanQueue clock filter scan.dirty s ps

/-- The record of a message that has just been claimed. -/
def claimedRecord (clock : Clock) (workerId : String) (leaseMs : Millis) (uuid : Uuid)
    (r : QueueRecord) : QueueRecord :=
  { r with
    status := .inflight
    attempt := r.attempt + 1
    workerId := some workerId
    claimToken := some uuid.val
    leaseUntil := some (clock .lease + leaseMs)
    updatedAt := clock .updated }

/-- `claim`. -/
def claim (clock : Clock) (workerId : String) (leaseMs : Millis) (filter : Envelope → Bool)
    (uuid : Uuid) (s : QueueState) : Mutation (Option Claim) :=
  match scanQueue clock filter false s priorityOrder with
  | (dirty, s, none) => ⟨none, dirty, s⟩
  | (_, s, some (messageId, r)) =>
    let leaseUntil := clock .lease + leaseMs
    { result := some
        { claimToken := uuid.val
          messageId := messageId
          workerId := workerId
          leaseUntil := leaseUntil
          attempt := r.attempt + 1
          envelope := r.envelope }
      dirty := true
      state :=
        { s with
          records := s.records.set messageId (claimedRecord clock workerId leaseMs uuid r)
          inflight := s.inflight.set uuid.val
            { messageId := messageId
              workerId := workerId
              leaseUntil := leaseUntil
              attempt := r.attempt + 1
              claimedAt := clock .claimed } } }

/-! ## `renew`, `ack`, `nack` -/

/-- The check shared by `renew`, `ack` and `nack`: the record of a claim still is
inflight under the token. -/
def confirmed (s : QueueState) (claimToken : String) (c : ClaimRecord) : Option QueueRecord :=
  match s.records.get? c.messageId with
  | some r => if r.status = .inflight ∧ r.claimToken = some claimToken then some r else none
  | none => none

/-- `isLeaseExpired`. -/
def isLeaseExpired (clock : Clock) (r : QueueRecord) (claimToken : String) : Bool :=
  decide (r.claimToken = some claimToken ∧ r.leaseUntil.getD 0 ≤ clock .leaseCheck)

/-- `renew`. -/
def renew (clock : Clock) (claimToken : String) (leaseMs : Millis) (s : QueueState) :
    Mutation (Option Claim) :=
  match s.inflight.get? claimToken with
  | none => ⟨none, false, s⟩
  | some c =>
    match confirmed s claimToken c with
    | none => ⟨none, true, { s with inflight := s.inflight.delete claimToken }⟩
    | some r =>
      if isLeaseExpired clock r claimToken then ⟨none, false, s⟩
      else
        let leaseUntil := clock .lease + leaseMs
        { result := some
            { claimToken := claimToken
              messageId := c.messageId
              workerId := c.workerId
              leaseUntil := leaseUntil
              attempt := c.attempt
              envelope := r.envelope }
          dirty := true
          state :=
            { s with
              records := s.records.set c.messageId
                { r with leaseUntil := some leaseUntil, updatedAt := clock .updated }
              inflight := s.inflight.set claimToken
                { c with leaseUntil := leaseUntil, claimedAt := clock .claimed } } }

/-- Drop the members of a record that belong to its claim. -/
def QueueRecord.unclaimed (r : QueueRecord) : QueueRecord :=
  { r with workerId := none, claimToken := none, leaseUntil := none }

/-- `ack`. -/
def ack (clock : Clock) (claimToken : String) (s : QueueState) : Mutation Bool :=
  match s.inflight.get? claimToken with
  | none => ⟨false, false, s⟩
  | some c =>
    match confirmed s claimToken c with
    | none => ⟨false, false, s⟩
    | some r =>
      if isLeaseExpired clock r claimToken then ⟨false, false, s⟩
      else
        { result := true
          dirty := true
          state :=
            { s with
              records := s.records.set c.messageId
                { r.unclaimed with
                  status := .completed
                  completedAt := some (clock .completed)
                  updatedAt := clock .updated }
              inflight := s.inflight.delete claimToken } }

/-- `nack`. -/
def nack (cfg : QueueConfig) (clock : Clock) (claimToken reason : String) (requeue : Bool)
    (s : QueueState) : Mutation Bool :=
  match s.inflight.get? claimToken with
  | none => ⟨false, false, s⟩
  | some c =>
    match confirmed s claimToken c with
    | none => ⟨false, false, s⟩
    | some r =>
      if isLeaseExpired clock r claimToken then ⟨false, false, s⟩
      else
        let r := { r.unclaimed with updatedAt := clock .updated }
        let inflight := s.inflight.delete claimToken
        if !requeue || decide (cfg.maxAttempts ≤ r.attempt) then
          { result := true
            dirty := true
            state :=
              { s with
                records := s.records.set c.messageId
                  { r with status := .deadletter, deadletterReason := some reason }
                inflight := inflight } }
        else
          { result := true
            dirty := true
            state :=
              { s with
                records := s.records.set c.messageId { r with status := .pending }
                pending := pushPending s.pending r.envelope.priority r.envelope.id
                inflight := inflight } }

/-! ## `requeue`, `deadletter` -/

/-- Drop the claim of a record from the inflight table, if it has one. -/
def dropClaim (s : QueueState) (r : QueueRecord) : ObjectMap String ClaimRecord :=
  match truthy r.claimToken with
  | some token => if r.status = .inflight then s.inflight.delete token else s.inflight
  | none => s.inflight

/-- `requeue`. -/
def requeue (clock : Clock) (messageId : String) (s : QueueState) : Mutation Bool :=
  match s.records.get? messageId with
  | none => ⟨false, false, s⟩
  | some r =>
    if r.status = .completed then ⟨false, false, s⟩
    else if r.status = .pending then ⟨true, false, s⟩
    else
      { result := true
        dirty := true
        state :=
          { records := s.records.set messageId
              { r.unclaimed with
                deadletterReason := none
                status := .pending
                updatedAt := clock .updated }
            pending := pushPending s.pending r.envelope.priority messageId
            inflight := dropClaim s r } }

/-- `deadletter`. -/
def deadletter (clock : Clock) (messageId reason : String) (s : QueueState) : Mutation Bool :=
  match s.records.get? messageId with
  | none => ⟨false, false, s⟩
  | some r =>
    { result := true
      dirty := true
      state :=
        { records := s.records.set messageId
            { r.unclaimed with
              status := .deadletter
              deadletterReason := some reason
              updatedAt := clock .updated }
          pending := removePending s.pending messageId
          inflight := dropClaim s r } }

/-! ## `sweepExpiredClaims` -/

/-- The loop of `sweepExpiredClaims`: one entry of the inflight table. -/
def sweepClaim (cfg : QueueConfig) (now : Millis) (acc : SweepResult × QueueState)
    (e : String × ClaimRecord) : SweepResult × QueueState :=
  let (result, s) := acc
  if now < e.2.leaseUntil then (result, s)
  else
    let result := { result with expiredClaimTokens := result.expiredClaimTokens ++ [e.1] }
    let inflight := s.inflight.delete e.1
    match confirmed s e.1 e.2 with
    | none => (result, { s with inflight := inflight })
    | some r =>
      let r := { r.unclaimed with updatedAt := now }
      if cfg.maxAttempts ≤ r.attempt then
        ({ result with deadlettered := result.deadlettered + 1 },
         { s with
           records := s.records.set e.2.messageId
             { r with status := .deadletter, deadletterReason := some "lease expired" }
           inflight := inflight })
      else
        ({ result with reclaimed := result.reclaimed + 1 },
         { records := s.records.set e.2.messageId { r with status := .pending }
           pending := pushPending s.pending r.envelope.priority r.envelope.id
           inflight := inflight })

/-- `sweepExpiredClaims`. -/
def sweepExpiredClaims (cfg : QueueConfig) (now : Millis) (s : QueueState) :
    Mutation SweepResult :=
  let (result, s) := s.inflight.entries.foldl (sweepClaim cfg now) (⟨0, 0, []⟩, s)
  ⟨result, !result.expiredClaimTokens.isEmpty, s⟩

/-! ## Transactions and runs -/

/-- `persist`: `none` when the schema or a constraint of the table rejects the state. -/
def persist (s : QueueState) : Option Table :=
  if StateSchema s then writeQueueState s else none

/-- `withLockedState`: `none` when the operation throws. -/
def withLockedState {α : Type} (mutator : QueueState → Mutation α) (table : Table) :
    Table × Option α :=
  let m := mutator (readQueueState table)
  if m.dirty then
    match persist m.state with
    | some table' => (table', some m.result)
    | none => (table, none)
  else (table, some m.result)

/-- The operations, with their arguments. `reopen` is another instance that loads
the state and writes it back. -/
inductive QueueOp
  | accept (envelope : Envelope)
  | claim (workerId : String) (leaseMs : Option Millis) (filter : Envelope → Bool) (uuid : Uuid)
  | renew (claimToken : String) (leaseMs : Option Millis)
  | ack (claimToken : String)
  | nack (claimToken reason : String) (requeue : Bool)
  | requeue (messageId : String)
  | deadletter (messageId reason : String)
  | sweep (now : Option Millis)
  | reopen

/-- An operation with the clock readings it makes. -/
structure Call where
  op : QueueOp
  clock : Clock

/-- What the caller of an operation sees. -/
inductive Outcome
  | accepted (result : AcceptResult)
  | claimed (result : Option Claim)
  | renewed (result : Option Claim)
  | acked (result : Bool)
  | nacked (result : Bool)
  | requeued (result : Bool)
  | deadlettered (result : Bool)
  | swept (result : SweepResult)
  | reopened
  | threw

/-- The same mutation with its result wrapped. -/
def Mutation.map {α β : Type} (f : α → β) (m : Mutation α) : Mutation β :=
  ⟨f m.result, m.dirty, m.state⟩

/-- The mutator of a call. -/
def mutate (cfg : QueueConfig) (call : Call) (s : QueueState) : Mutation Outcome :=
  match call.op with
  | .accept envelope => (accept call.clock envelope s).map .accepted
  | .claim workerId leaseMs filter uuid =>
    (claim call.clock workerId (leaseMs.getD cfg.defaultLeaseMs) filter uuid s).map .claimed
  | .renew claimToken leaseMs =>
    (renew call.clock claimToken (leaseMs.getD cfg.defaultLeaseMs) s).map .renewed
  | .ack claimToken => (ack call.clock claimToken s).map .acked
  | .nack claimToken reason requeue =>
    (nack cfg call.clock claimToken reason requeue s).map .nacked
  | .requeue messageId => (requeue call.clock messageId s).map .requeued
  | .deadletter messageId reason => (deadletter call.clock messageId reason s).map .deadlettered
  | .sweep now => (sweepExpiredClaims cfg (now.getD (call.clock .sweep)) s).map .swept
  | .reopen => ⟨.reopened, true, s⟩

/-- One call on the table. -/
def perform (cfg : QueueConfig) (table : Table) (call : Call) : Table × Outcome :=
  let (table', result) := withLockedState (mutate cfg call) table
  (table', result.getD .threw)

/-- A call throws or answers with the result of its mutator. -/
theorem perform_answer (cfg : QueueConfig) (table : Table) (call : Call) :
    (perform cfg table call).2 = .threw ∨
      (perform cfg table call).2 = (mutate cfg call (readQueueState table)).result := by
  unfold perform withLockedState
  cases hdirty : (mutate cfg call (readQueueState table)).dirty with
  | false => simp [hdirty]
  | true => cases hpersist : persist (mutate cfg call (readQueueState table)).state <;>
      simp [hdirty, hpersist]

/-- The queue as a transition system: the states are the contents of the table. -/
def queueLTS (cfg : QueueConfig) : LTS Table (Call × Outcome) := LTS.ofFn (perform cfg)

/-- `QueueRun cfg history table`: the calls of `history`, with the outcomes given
there, lead from an empty queue to `table`. -/
def QueueRun (cfg : QueueConfig) (history : List (Call × Outcome)) (table : Table) : Prop :=
  (queueLTS cfg).Run [] history table

/-! ## Events of a history -/

/-- The call accepted `envelope`. -/
def Accepts (l : Call × Outcome) (envelope : Envelope) : Prop :=
  l.1.op = .accept envelope ∧ ∃ result, l.2 = .accepted result ∧ result.accepted = true

/-- The call returned the claim `c`. -/
def Claims (l : Call × Outcome) (c : Claim) : Prop := l.2 = .claimed (some c)

/-- The claim that the call returned. -/
def claimOf (l : Call × Outcome) : Option Claim :=
  match l.2 with
  | .claimed c => c
  | _ => none

/-- The token of the claim that the call returned. -/
def issuedToken (l : Call × Outcome) : Option String := (claimOf l).map Claim.claimToken

/-- The message of the latest claim issued under the token `t`. -/
def claimedMessage (history : List (Call × Outcome)) (t : String) : Option String :=
  ((history.filterMap claimOf).reverse.find? fun c => c.claimToken = t).map Claim.messageId

/-- The token that the call settled, by `ack` or `nack`. -/
def settledToken (l : Call × Outcome) : Option String :=
  match l.1.op, l.2 with
  | .ack t, .acked true => some t
  | .nack t _ _, .nacked true => some t
  | _, _ => none

/-- The call acknowledged the claim token `t`. -/
def Acks (l : Call × Outcome) (t : String) : Prop := l.1.op = .ack t ∧ l.2 = .acked true

/-- The call settled the claim token `t`. -/
def Settles (l : Call × Outcome) (t : String) : Prop :=
  Acks l t ∨ ∃ reason requeue, l.1.op = .nack t reason requeue ∧ l.2 = .nacked true

theorem claimOf_eq_some {l : Call × Outcome} {c : Claim} : claimOf l = some c ↔ Claims l c := by
  obtain ⟨call, out⟩ := l
  unfold Claims
  cases out <;> simp [claimOf]

theorem Claims.issued {l : Call × Outcome} {c : Claim} (h : Claims l c) :
    issuedToken l = some c.claimToken := by
  simp [issuedToken, claimOf_eq_some.mpr h]

theorem settles_iff {l : Call × Outcome} {t : String} : settledToken l = some t ↔ Settles l t := by
  obtain ⟨⟨op, clock⟩, out⟩ := l
  constructor
  · intro h
    simp only [settledToken] at h
    split at h
    · cases h
      exact .inl ⟨rfl, rfl⟩
    · cases h
      exact .inr ⟨_, _, rfl, rfl⟩
    · cases h
  · rintro (⟨hop, hout⟩ | ⟨reason, requeue, hop, hout⟩)
    · cases hop
      cases hout
      rfl
    · cases hop
      cases hout
      rfl

theorem Settles.not_claims {l : Call × Outcome} {t : String} (h : Settles l t) {c : Claim} :
    ¬ Claims l c := by
  intro hc
  have hout : l.2 = .claimed (some c) := hc
  rcases h with ⟨-, hacked⟩ | ⟨_, _, -, hnacked⟩
  · rw [hacked] at hout
    cases hout
  · rw [hnacked] at hout
    cases hout

/-! ## Sample runs -/

/-- A clock that shows one value. -/
def steadyClock (now : Millis) : Clock := fun _ => now

/-- A message, created at time zero, under a dedupe key. -/
def sampleEnvelope (id : String) (dedupeKey : Option String) : Envelope where
  id := id
  type := .event
  name := "goal_activated"
  source := "daemon"
  dedupeKey := dedupeKey
  priority := .normal
  createdAt := ⟨0, by decide⟩

/-- A claim of any message, under the given token. -/
def sampleClaim (uuid : String) (now : Millis) (h : uuid ≠ "" := by decide) : Call :=
  ⟨.claim "worker" none (fun _ => true) ⟨uuid, h⟩, steadyClock now⟩

/-- The history and the table of a list of calls on an empty queue. -/
def runCalls (cfg : QueueConfig) (calls : List Call) : List (Call × Outcome) × Table :=
  LTS.exec (perform cfg) [] calls

theorem runCalls_run (cfg : QueueConfig) (calls : List Call) :
    QueueRun cfg (runCalls cfg calls).1 (runCalls cfg calls).2 :=
  LTS.run_exec (perform cfg) [] calls

end PulSeed.Queue
