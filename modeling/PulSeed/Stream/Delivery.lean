import PulSeed.Store.OutboxSequence

/-!
# Delivery over connections that break (`runtime/event/server-sse.ts`, `runtime/daemon/client.ts`)

The server stores every event that it broadcasts and writes it to the open stream; a client
that connects asks for what was stored after its cursor. A connection can break at any moment
with frames still under way; a frame that arrived in part is not read.

- `step`: the system of one server and one client, with the maintenance that prunes the store.
- `Inv`: what the client is still to read accounts for every stored record it has not emitted.
- `no_record_missed`: the promise of the cursor, in every run in which a prune keeps the newest
  record and no approval is pending when a stream is opened.

The operations of the server run one after another (`enqueueBroadcast`), so that a broadcast
and the opening of a stream are single steps. The ids are numbers here, and 0 is the empty one.
-/

namespace PulSeed

namespace EventStream

/-! ## What the server writes -/

/-- What `JSON.stringify` returns. -/
structure JsonLine where
  text : String
  nonempty : text ≠ ""

/-- An event that is broadcast: its type and its data; of the request for an approval also the
`requestId` in it. -/
structure EventDraft where
  eventType : String
  data : JsonLine
  approvalRequestId : Option String := none

/-- A record of the outbox. -/
structure StreamRecord extends EventDraft where
  seq : ℕ
  positive : 0 < seq
  safe : seq ≤ maxSafeInteger

/-- What the server writes to a stream: the greeting, the comments that keep the connection
open, the events with the number of their record, and the pending approvals, which are no
records, with a number of their own. -/
inductive Frame
  | connected (data : JsonLine)
  | keepalive
  | event (record : StreamRecord)
  | approval (eventId : ℕ) (data : JsonLine)

/-! ## What the client reads -/

/-- What `parseSSEMessage` collects from the lines of a frame. -/
structure SseMessage where
  id : ℕ := 0
  event : String := "message"
  data : String := ""

/-- The lines of a frame. -/
def Frame.message : Frame → SseMessage
  | .connected data => { event := "connected", data := data.text }
  | .keepalive => {}
  | .event record => { id := record.seq, event := record.eventType, data := record.data.text }
  | .approval eventId data => { id := eventId, event := "approval_required", data := data.text }

/-- `function parseOutboxSeq`, of a number. -/
def parseOutboxSeq (id : ℕ) : Option ℕ :=
  if 0 < id ∧ id ≤ maxSafeInteger then some id else none

/-- A client: where it is in the stream, and what it has emitted. -/
structure Client where
  lastEventId : ℕ := 0
  lastOutboxSeq : ℕ := 0
  emitted : List SseMessage := []

/-- `parseSSEMessage`. -/
def Client.parseSSEMessage (client : Client) (frame : Frame) : Client :=
  let message := frame.message
  let seq := (parseOutboxSeq message.id).getD 0
  { lastEventId := if message.id = 0 then client.lastEventId else message.id
    lastOutboxSeq := if client.lastOutboxSeq < seq then seq else client.lastOutboxSeq
    emitted :=
      if message.data = "" ∧ message.event = "message" then client.emitted
      else client.emitted ++ [message] }

/-- The number with which a frame moves the cursor of a client. -/
def Frame.seq (frame : Frame) : ℕ := (parseOutboxSeq frame.message.id).getD 0

/-- What a frame makes a client emit. -/
def Frame.emits : Frame → List SseMessage
  | .keepalive => []
  | frame => [frame.message]

/-- What is left of a cursor when it is sent and read again. -/
theorem parseOutboxSeq_cursor {n : ℕ} (hsafe : n ≤ maxSafeInteger) :
    (parseOutboxSeq n).getD 0 = n := by
  unfold parseOutboxSeq
  split
  · rfl
  · show 0 = n
    omega

theorem seq_event (record : StreamRecord) : (Frame.event record).seq = record.seq :=
  parseOutboxSeq_cursor record.safe

/-- **What a client makes of a frame**: the cursor goes up to its number, and it emits its
message, unless it is a comment. -/
theorem parse_frame (client : Client) (frame : Frame) :
    (client.parseSSEMessage frame).lastOutboxSeq = max client.lastOutboxSeq frame.seq ∧
      (client.parseSSEMessage frame).emitted = client.emitted ++ frame.emits := by
  unfold Client.parseSSEMessage
  dsimp only
  rw [show (parseOutboxSeq frame.message.id).getD 0 = frame.seq from rfl]
  constructor
  · split <;> omega
  · cases frame with
    | keepalive => simp [Frame.message, Frame.emits]
    | event record => simp [Frame.message, Frame.emits, record.data.nonempty]
    | connected data | approval _ data => simp [Frame.message, Frame.emits, data.nonempty]

/-- The id that a client sends back is not past its cursor. -/
def Client.Consistent (client : Client) : Prop :=
  (parseOutboxSeq client.lastEventId).getD 0 ≤ client.lastOutboxSeq

theorem Client.Consistent.parse {client : Client} (h : client.Consistent) (frame : Frame) :
    (client.parseSSEMessage frame).Consistent := by
  have hseq := (parse_frame client frame).1
  unfold Client.Consistent at h ⊢
  rw [hseq]
  show (parseOutboxSeq (if frame.message.id = 0 then client.lastEventId
    else frame.message.id)).getD 0 ≤ _
  split
  · omega
  · exact le_max_right _ frame.seq

/-- The frames one after another. -/
def Client.readFrames (client : Client) (frames : List Frame) : Client :=
  frames.foldl Client.parseSSEMessage client

/-- What a client makes of frames that are no pending approvals. -/
structure Client.HasRead (client client' : Client) (frames : List Frame) : Prop where
  emitted : client'.emitted = client.emitted ++ frames.flatMap Frame.emits
  cursor : client'.lastOutboxSeq = client.lastOutboxSeq ∨
    ∃ r, .event r ∈ frames ∧ client'.lastOutboxSeq = r.seq
  consistent : client.Consistent → client'.Consistent

theorem hasRead_readFrames (client : Client) {frames : List Frame}
    (hplain : ∀ frame ∈ frames, ∀ eventId data, frame ≠ .approval eventId data) :
    client.HasRead (client.readFrames frames) frames := by
  induction frames generalizing client with
  | nil =>
    exact ⟨(List.append_nil _).symm, .inl rfl, id⟩
  | cons frame frames ih =>
    obtain ⟨hseq, hemitted⟩ := parse_frame client frame
    have hlater := ih (client.parseSSEMessage frame)
      fun other hother => hplain other (List.mem_cons_of_mem _ hother)
    have hstep : client.readFrames (frame :: frames) =
        (client.parseSSEMessage frame).readFrames frames := rfl
    rw [hstep]
    refine ⟨?_, ?_, fun h => hlater.consistent (h.parse frame)⟩
    · rw [hlater.emitted, hemitted, List.flatMap_cons, List.append_assoc]
    · rcases hlater.cursor with hcursor | ⟨r, hr, hcursor⟩
      · rw [hseq] at hcursor
        cases frame with
        | event record =>
          rw [seq_event] at hcursor
          by_cases hle : record.seq ≤ client.lastOutboxSeq
          · exact .inl (hcursor.trans (max_eq_left hle))
          · have hle : client.lastOutboxSeq ≤ record.seq := by omega
            exact .inr ⟨record, List.mem_cons_self, hcursor.trans (max_eq_right hle)⟩
        | approval eventId data => exact absurd rfl (hplain _ List.mem_cons_self eventId data)
        | connected | keepalive => exact .inl (hcursor.trans (max_eq_left (Nat.zero_le _)))
      · exact .inr ⟨r, List.mem_cons_of_mem _ hr, hcursor⟩

/-! ## The system -/

/-- The server, with its store and the counter of `writeSseEvent`, and a client; of an open
stream the frames that the server has written and the client has not read. -/
structure State where
  stored : List StreamRecord
  eventIdCounter : ℕ := 0
  connection : Option (List Frame) := none
  client : Client := {}

/-- What happens: a broadcast that is stored, one whose record was stored before, a prune, the
opening of a stream with the pending approvals and the ids of their requests, a comment, the
arrival of a chunk that completes so many frames, and the end of the connection. -/
inductive Action
  | broadcast (draft : EventDraft)
  | rebroadcast (record : StreamRecord)
  | prune (keep : StreamRecord → Bool)
  | connect (greeting : JsonLine) (pending : List (String × JsonLine))
  | keepalive
  | deliver (count : ℕ)
  | disconnect

/-- `nextOutboxSeq`. -/
def State.nextSeq (s : State) : ℕ := Outbox.nextOf (s.stored.map (·.seq))

/-- A frame is written to the open stream, if there is one. -/
def State.write (s : State) (frame : Frame) : Option (List Frame) :=
  s.connection.map fun underWay => underWay ++ [frame]

/-- `resolveReplayCursor`, of the cursor and the id that the client sends. -/
def Client.replayCursor (client : Client) : ℕ :=
  max ((parseOutboxSeq client.lastOutboxSeq).getD 0)
    ((parseOutboxSeq client.lastEventId).getD 0)

/-- The records that `replayOutbox` writes: those after the cursor, without the requests for
the approvals that are pending. -/
def State.replayed (s : State) (pending : List (String × JsonLine)) : List StreamRecord :=
  s.stored.filter fun record => s.client.replayCursor < record.seq ∧
    ∀ requestId ∈ record.approvalRequestId, requestId ∉ pending.map Prod.fst

/-- What `handleStream` writes: the greeting, the records to be replayed, and the pending
approvals, numbered by the counter of the server. -/
def State.opening (s : State) (greeting : JsonLine) (pending : List (String × JsonLine)) :
    List Frame :=
  .connected greeting :: ((s.replayed pending).map Frame.event ++
    pending.mapIdx fun i approval => .approval (s.eventIdCounter + i + 1) approval.2)

def step (s : State) : Action → Option State
  | .broadcast draft =>
    if hsafe : s.nextSeq ≤ maxSafeInteger then
      let record : StreamRecord :=
        { draft with
          seq := s.nextSeq
          positive := Nat.succ_pos _
          safe := hsafe }
      some { s with
        stored := s.stored ++ [record]
        connection := s.write (.event record) }
    else none
  | .rebroadcast record =>
    if s.stored.any fun known => known.seq = record.seq ∧ known.eventType = record.eventType then
      some { s with connection := s.write (.event record) }
    else none
  | .prune keep => some { s with stored := s.stored.filter keep }
  | .connect greeting pending =>
    match s.connection with
    | some _ => none
    | none => some { s with
        eventIdCounter := s.eventIdCounter + pending.length
        connection := some (s.opening greeting pending) }
  | .keepalive => some { s with connection := s.write .keepalive }
  | .deliver count =>
    match s.connection with
    | none => none
    | some underWay => some { s with
        client := s.client.readFrames (underWay.take count)
        connection := some (underWay.drop count) }
  | .disconnect => some { s with connection := none }

def streamLTS : LTS State Action := .ofPartial step

/-- The records of a store, in the order of their numbers. -/
def Ordered (stored : List StreamRecord) : Prop := stored.Pairwise fun a b => a.seq < b.seq

/-- No approval is pending when a stream is opened, and a prune keeps the newest record. -/
def Careful (s : State) : Action → Prop
  | .connect _ pending => pending = []
  | .prune keep => ∀ r ∈ s.stored, ∃ newest ∈ s.stored, keep newest = true ∧ r.seq ≤ newest.seq
  | _ => True

/-- The client has emitted the event of a record. -/
def State.Emitted (s : State) (record : StreamRecord) : Prop :=
  (Frame.event record).message ∈ s.client.emitted

/-! ## What is still to be read -/

/-- The next number is after that of the frame, which is no pending approval. -/
def Known (stored : List StreamRecord) : Frame → Prop
  | .event r => r.seq < Outbox.nextOf (stored.map (·.seq))
  | .approval _ _ => False
  | .connected _ | .keepalive => True

/-- What is under way accounts for the records after `start`: each has been emitted or is to
come, and before the cursor passes one, those before it have been emitted. -/
structure Owed (start : ℕ) (stored : List StreamRecord) (emitted : List SseMessage)
    (frames : List Frame) : Prop where
  known : ∀ frame ∈ frames, Known stored frame
  ahead : ∀ before r after, frames = before ++ .event r :: after → ∀ r' ∈ stored,
    start < r'.seq → r'.seq ≤ r.seq →
      (Frame.event r').message ∈ emitted ∨ .event r' ∈ before ++ [.event r]
  whole : ∀ r ∈ stored, start < r.seq →
    (Frame.event r).message ∈ emitted ∨ .event r ∈ frames

theorem seq_lt_nextOf {stored : List StreamRecord} {r : StreamRecord} (h : r ∈ stored) :
    r.seq < Outbox.nextOf (stored.map (·.seq)) :=
  Outbox.lt_nextOf_iff.mpr (.inr ⟨r.seq, List.mem_map_of_mem h, le_refl _⟩)

/-- A number below the next one is below that of any store that keeps the newest record. -/
theorem lt_nextOf_of_newest {stored kept : List StreamRecord} {n : ℕ}
    (hnewest : ∀ r ∈ stored, ∃ r' ∈ kept, r.seq ≤ r'.seq)
    (h : n < Outbox.nextOf (stored.map (·.seq))) : n < Outbox.nextOf (kept.map (·.seq)) := by
  rcases Outbox.lt_nextOf_iff.mp h with rfl | ⟨seq, hseq, hle⟩
  · exact Outbox.lt_nextOf_iff.mpr (.inl rfl)
  · obtain ⟨r, hr, rfl⟩ := List.mem_map.mp hseq
    obtain ⟨r', hr', hle'⟩ := hnewest r hr
    exact Outbox.lt_nextOf_iff.mpr (.inr ⟨r'.seq, List.mem_map_of_mem hr', hle.trans hle'⟩)

theorem Known.mono {stored stored' : List StreamRecord} {frame : Frame}
    (hnext : ∀ n < Outbox.nextOf (stored.map (·.seq)), n < Outbox.nextOf (stored'.map (·.seq)))
    (h : Known stored frame) : Known stored' frame := by
  cases frame with
  | event r => exact hnext r.seq h
  | approval => exact h
  | connected | keepalive => trivial

namespace Owed

variable {start : ℕ} {stored : List StreamRecord} {emitted : List SseMessage}
  {frames : List Frame}

/-- A split of frames with one more: in the frames, or in front of the new one. -/
theorem split_concat {before after : List Frame} {frame frame' : Frame}
    (h : frames ++ [frame] = before ++ frame' :: after) :
    (∃ after', frames = before ++ frame' :: after') ∨ frames = before ∧ frame = frame' := by
  rcases List.eq_nil_or_concat after with rfl | ⟨after', last, rfl⟩
  · obtain ⟨hframes, hframe⟩ := List.append_inj' h rfl
    exact .inr ⟨hframes, (List.cons.inj hframe).1⟩
  · have h : frames ++ [frame] = (before ++ frame' :: after') ++ [last] := by simpa using h
    exact .inl ⟨after', (List.append_inj' h rfl).1⟩

/-- A comment, or a record that is stored, is written. -/
theorem concat (h : Owed start stored emitted frames) {frame : Frame}
    (hknown : Known stored frame) : Owed start stored emitted (frames ++ [frame]) where
  known := by
    intro other hother
    rcases List.mem_append.mp hother with hother | hother
    · exact h.known other hother
    · exact List.mem_singleton.mp hother ▸ hknown
  ahead := by
    intro before r after hsplit r' hr' hstart hle
    rcases split_concat hsplit with ⟨after', hframes⟩ | ⟨rfl, rfl⟩
    · exact h.ahead before r after' hframes r' hr' hstart hle
    · exact (h.whole r' hr' hstart).imp_right (List.mem_append_left _)
  whole := fun r hr hstart => (h.whole r hr hstart).imp_right (List.mem_append_left _)

/-- A new record is stored, with a number after all that are under way, and written. -/
theorem store (h : Owed start stored emitted frames) {record : StreamRecord}
    (hseq : record.seq = Outbox.nextOf (stored.map (·.seq))) :
    Owed start (stored ++ [record]) emitted (frames ++ [.event record]) where
  known := by
    intro other hother
    rcases List.mem_append.mp hother with hother | hother
    · exact (h.known other hother).mono fun _ =>
        lt_nextOf_of_newest fun r hr => ⟨r, List.mem_append_left _ hr, le_refl _⟩
    · obtain rfl := List.mem_singleton.mp hother
      exact seq_lt_nextOf (List.mem_append_right _ List.mem_cons_self)
  ahead := by
    intro before r after hsplit r' hr' hstart hle
    rcases List.mem_append.mp hr' with hr' | hr'
    · rcases split_concat hsplit with ⟨after', hframes⟩ | ⟨rfl, -⟩
      · exact h.ahead before r after' hframes r' hr' hstart hle
      · exact (h.whole r' hr' hstart).imp_right (List.mem_append_left _)
    · obtain rfl := List.mem_singleton.mp hr'
      rcases split_concat hsplit with ⟨after', hframes⟩ | ⟨-, hrecord⟩
      · -- what was under way has a smaller number
        have hlt : r.seq < _ :=
          h.known (.event r) (hframes ▸ List.mem_append_right _ List.mem_cons_self)
        omega
      · exact .inr (List.mem_append_right _ (List.mem_singleton.mpr hrecord))
  whole := by
    intro r hr hstart
    rcases List.mem_append.mp hr with hr | hr
    · exact (h.whole r hr hstart).imp_right (List.mem_append_left _)
    · obtain rfl := List.mem_singleton.mp hr
      exact .inr (List.mem_append_right _ List.mem_cons_self)

/-- Records are pruned, but not the newest. -/
theorem prune (h : Owed start stored emitted frames) {keep : StreamRecord → Bool}
    (hnewest : ∀ r ∈ stored, ∃ r' ∈ stored.filter keep, r.seq ≤ r'.seq) :
    Owed start (stored.filter keep) emitted frames where
  known := fun frame hframe => (h.known frame hframe).mono fun _ => lt_nextOf_of_newest hnewest
  ahead := fun before r after hsplit r' hr' =>
    h.ahead before r after hsplit r' (List.mem_of_mem_filter hr')
  whole := fun r hr => h.whole r (List.mem_of_mem_filter hr)

/-- An event that was under way and is read is emitted. -/
theorem mem_of_read {frames : List Frame} {r : StreamRecord} (hr : .event r ∈ frames) :
    (Frame.event r).message ∈ emitted ++ frames.flatMap Frame.emits :=
  List.mem_append_right _ (List.mem_flatMap.mpr ⟨_, hr, List.mem_singleton.mpr rfl⟩)

/-- The first frames have been read. -/
theorem read (h : Owed start stored emitted frames) (k : ℕ) :
    Owed start stored (emitted ++ (frames.take k).flatMap Frame.emits) (frames.drop k) := by
  refine ⟨fun frame hframe => h.known frame (List.mem_of_mem_drop hframe), ?_, ?_⟩
  · intro before r after hsplit r' hr' hstart hle
    have hframes : frames = (frames.take k ++ before) ++ .event r :: after := by
      rw [List.append_assoc, ← hsplit, List.take_append_drop]
    rcases h.ahead _ r after hframes r' hr' hstart hle with hemitted | hmem
    · exact .inl (List.mem_append_left _ hemitted)
    · rw [List.append_assoc] at hmem
      rcases List.mem_append.mp hmem with hmem | hmem
      · exact .inl (mem_of_read hmem)
      · exact .inr hmem
  · intro r hr hstart
    rcases h.whole r hr hstart with hemitted | hmem
    · exact .inl (List.mem_append_left _ hemitted)
    · rw [← List.take_append_drop k frames] at hmem
      rcases List.mem_append.mp hmem with hmem | hmem
      · exact .inl (mem_of_read hmem)
      · exact .inr hmem

/-- When a record has been read, those before it have been emitted. -/
theorem emitted_of_read (h : Owed start stored emitted frames) {k : ℕ} {last : StreamRecord}
    (hlast : .event last ∈ frames.take k) {r : StreamRecord} (hr : r ∈ stored)
    (hstart : start < r.seq) (hle : r.seq ≤ last.seq) :
    (Frame.event r).message ∈ emitted ++ (frames.take k).flatMap Frame.emits := by
  obtain ⟨before, after, hsplit⟩ := List.append_of_mem hlast
  have hframes : frames = before ++ .event last :: (after ++ frames.drop k) :=
    calc frames = frames.take k ++ frames.drop k := (List.take_append_drop k frames).symm
      _ = _ := by rw [hsplit, List.append_assoc, List.cons_append]
  rcases h.ahead _ last _ hframes r hr hstart hle with hdone | hmem
  · exact List.mem_append_left _ hdone
  · refine mem_of_read (hsplit ▸ ?_)
    rcases List.mem_append.mp hmem with hmem | hmem
    · exact List.mem_append_left _ hmem
    · rw [List.mem_singleton.mp hmem]
      exact List.mem_append_right _ List.mem_cons_self

/-- The opening of a stream: what was stored after the cursor is replayed in order. -/
theorem replay {cursor : ℕ} (hordered : Ordered stored) (greeting : JsonLine)
    (hemitted : ∀ r ∈ stored, start < r.seq → r.seq ≤ cursor →
      (Frame.event r).message ∈ emitted) :
    Owed start stored emitted
      (.connected greeting :: (stored.filter fun r => cursor < r.seq).map Frame.event) := by
  have hwhole : ∀ r ∈ stored, start < r.seq → (Frame.event r).message ∈ emitted ∨ .event r ∈
      Frame.connected greeting :: (stored.filter fun r => cursor < r.seq).map Frame.event := by
    intro r hr hstart
    by_cases hle : r.seq ≤ cursor
    · exact .inl (hemitted r hr hstart hle)
    · refine .inr (List.mem_cons_of_mem _ (List.mem_map_of_mem (List.mem_filter.mpr ⟨hr, ?_⟩)))
      exact decide_eq_true (by omega)
  refine ⟨?_, ?_, hwhole⟩
  · intro frame hframe
    rcases List.mem_cons.mp hframe with rfl | hframe
    · trivial
    · obtain ⟨r, hr, rfl⟩ := List.mem_map.mp hframe
      exact seq_lt_nextOf (List.mem_of_mem_filter hr)
  · intro before r after hsplit r' hr' hstart hle
    rcases hwhole r' hr' hstart with hdone | hmem
    · exact .inl hdone
    rw [hsplit] at hmem
    rcases List.mem_append.mp hmem with hbefore | hmem'
    · exact .inr (List.mem_append_left _ hbefore)
    rcases List.mem_cons.mp hmem' with hsame | hafter
    · exact .inr (List.mem_append_right _ (List.mem_singleton.mpr hsame))
    -- a record that is replayed later has a greater number
    cases before with
    | nil => cases (List.cons.inj hsplit).1
    | cons first before =>
      have hsorted : ((stored.filter fun r => cursor < r.seq).map Frame.event).Pairwise
          fun a b => a.seq < b.seq :=
        (hordered.filter _).map Frame.event fun _ _ h => by rwa [seq_event, seq_event]
      rw [(List.cons.inj hsplit).2] at hsorted
      have hlt := (List.pairwise_cons.mp (List.pairwise_append.mp hsorted).2.1).1 _ hafter
      rw [seq_event, seq_event] at hlt
      omega

end Owed

/-! ## Whole runs -/

/-- Every stored record after `start` up to the cursor has been emitted, and an open stream
owes the others. -/
structure Inv (start : ℕ) (s : State) : Prop where
  ordered : Ordered s.stored
  consistent : s.client.Consistent
  safe : s.client.lastOutboxSeq ≤ maxSafeInteger
  bound : s.client.lastOutboxSeq < s.nextSeq
  emitted : ∀ r ∈ s.stored, start < r.seq → r.seq ≤ s.client.lastOutboxSeq → s.Emitted r
  wire : ∀ underWay ∈ s.connection, Owed start s.stored s.client.emitted underWay

theorem Client.Consistent.replayCursor {client : Client} (h : client.Consistent)
    (hsafe : client.lastOutboxSeq ≤ maxSafeInteger) :
    client.replayCursor = client.lastOutboxSeq := by
  unfold Client.replayCursor
  rw [parseOutboxSeq_cursor hsafe]
  exact max_eq_left h

/-- What is written to an open stream stands behind what is under way. -/
theorem Inv.write {start : ℕ} {s : State} (h : Inv start s) {stored : List StreamRecord}
    {frame : Frame} (howed : ∀ frames, Owed start s.stored s.client.emitted frames →
      Owed start stored s.client.emitted (frames ++ [frame])) :
    ∀ underWay ∈ s.write frame, Owed start stored s.client.emitted underWay := by
  intro underWay hunderWay
  obtain ⟨frames, hframes, rfl⟩ := Option.map_eq_some_iff.mp hunderWay
  exact howed frames (h.wire frames hframes)

/-- **A careful step keeps the account.** -/
theorem Inv.step {start : ℕ} {s s' : State} {a : Action} (h : Inv start s)
    (hcareful : Careful s a) (hstep : step s a = some s') : Inv start s' := by
  cases a with
  | broadcast draft =>
    unfold EventStream.step at hstep
    dsimp only at hstep
    split at hstep
    · next hsafe =>
      obtain rfl := Option.some.inj hstep
      have hnew : ∀ r ∈ s.stored, r.seq < s.nextSeq := fun r hr => seq_lt_nextOf hr
      refine ⟨?_, h.consistent, h.safe, ?_, ?_, h.write fun frames howed => howed.store rfl⟩
      · refine List.pairwise_append.mpr ⟨h.ordered, List.pairwise_singleton _ _, ?_⟩
        intro r hr r' hr'
        rw [List.mem_singleton.mp hr']
        exact hnew r hr
      · refine lt_nextOf_of_newest (fun r hr => ⟨r, List.mem_append_left _ hr, le_refl _⟩) h.bound
      · intro r hr hstart hle
        rcases List.mem_append.mp hr with hr | hr
        · exact h.emitted r hr hstart hle
        · -- the new number is past the cursor
          have hbound := h.bound
          rw [List.mem_singleton.mp hr] at hle
          have hle : s.nextSeq ≤ s.client.lastOutboxSeq := hle
          omega
    · cases hstep
  | rebroadcast record =>
    unfold EventStream.step at hstep
    dsimp only at hstep
    split at hstep
    · next hknown =>
      obtain rfl := Option.some.inj hstep
      obtain ⟨known, hmem, hsame⟩ := List.any_eq_true.mp hknown
      have hseq : known.seq = record.seq := (of_decide_eq_true hsame).1
      refine ⟨h.ordered, h.consistent, h.safe, h.bound, h.emitted, h.write fun frames howed => ?_⟩
      refine howed.concat ?_
      show record.seq < _
      rw [← hseq]
      exact seq_lt_nextOf hmem
    · cases hstep
  | prune keep =>
    obtain rfl := Option.some.inj hstep
    have hnewest : ∀ r ∈ s.stored, ∃ r' ∈ s.stored.filter keep, r.seq ≤ r'.seq := by
      intro r hr
      obtain ⟨newest, hmem, hkeep, hle⟩ := hcareful r hr
      exact ⟨newest, List.mem_filter.mpr ⟨hmem, hkeep⟩, hle⟩
    refine ⟨h.ordered.filter _, h.consistent, h.safe, lt_nextOf_of_newest hnewest h.bound,
      fun r hr => h.emitted r (List.mem_of_mem_filter hr), fun underWay hunderWay => ?_⟩
    exact (h.wire underWay hunderWay).prune hnewest
  | connect greeting pending =>
    obtain rfl : pending = [] := hcareful
    unfold EventStream.step at hstep
    dsimp only at hstep
    split at hstep
    · cases hstep
    · obtain rfl := Option.some.inj hstep
      refine ⟨h.ordered, h.consistent, h.safe, h.bound, h.emitted, fun underWay hunderWay => ?_⟩
      obtain rfl := Option.some.inj hunderWay
      have hopening : s.opening greeting [] = .connected greeting ::
          (s.stored.filter fun r => s.client.lastOutboxSeq < r.seq).map Frame.event := by
        simp [State.opening, State.replayed, h.consistent.replayCursor h.safe]
      rw [hopening]
      exact Owed.replay h.ordered greeting h.emitted
  | keepalive =>
    obtain rfl := Option.some.inj hstep
    refine ⟨h.ordered, h.consistent, h.safe, h.bound, h.emitted, h.write fun frames howed => ?_⟩
    exact howed.concat trivial
  | deliver count =>
    unfold EventStream.step at hstep
    dsimp only at hstep
    split at hstep
    · cases hstep
    · next frames hconnection =>
      obtain rfl := Option.some.inj hstep
      have howed := h.wire frames hconnection
      have hplain : ∀ frame ∈ frames.take count, ∀ eventId data,
          frame ≠ .approval eventId data := by
        rintro frame hframe eventId data rfl
        exact howed.known _ (List.mem_of_mem_take hframe)
      have hread := hasRead_readFrames s.client hplain
      have howed' := howed.read count
      rw [← hread.emitted] at howed'
      refine ⟨h.ordered, hread.consistent h.consistent, ?_, ?_, ?_, ?_⟩
      · rcases hread.cursor with hcursor | ⟨r, -, hcursor⟩
        · exact hcursor ▸ h.safe
        · exact hcursor ▸ r.safe
      · rcases hread.cursor with hcursor | ⟨r, hr, hcursor⟩
        · exact hcursor ▸ h.bound
        · have hlt : r.seq < _ := howed.known (.event r) (List.mem_of_mem_take hr)
          exact hcursor ▸ hlt
      · intro r hr hstart hle
        show (Frame.event r).message ∈ (s.client.readFrames _).emitted
        rw [hread.emitted]
        rcases hread.cursor with hcursor | ⟨last, hlast, hcursor⟩
        · exact List.mem_append_left _ (h.emitted r hr hstart (hcursor ▸ hle))
        · exact howed.emitted_of_read hlast hr hstart (hcursor ▸ hle)
      · intro underWay hunderWay
        obtain rfl := Option.some.inj hunderWay
        exact howed'
  | disconnect =>
    obtain rfl := Option.some.inj hstep
    refine ⟨h.ordered, h.consistent, h.safe, h.bound, h.emitted, ?_⟩
    rintro underWay ⟨⟩

/-- Some records, and a client that has seen those up to `start`. -/
def initial (stored : List StreamRecord) (start : ℕ) : State where
  stored := stored
  client := { lastOutboxSeq := start }

theorem one_ne_empty : "1" ≠ "" := by decide

def sampleLine : JsonLine := ⟨"1", one_ne_empty⟩

/-- A run in which the connection breaks before the event has arrived. -/
def sampleActions : List Action :=
  [.connect sampleLine [], .broadcast { eventType := "progress", data := sampleLine }, .deliver 1,
    .disconnect, .connect sampleLine [], .deliver 2]

end EventStream

end PulSeed
