import PulSeed.Queue.Scan
import PulSeed.Queue.RoundTrip

/-!
# What one call can do

`Effect` lists the ways a call can change the queue, with their guards, as changes
of single records. `perform_effect` is the inversion lemma of the development: a
call on a table read as `s` does one of these, and the table it leaves reads as
`s` after the changes. Every invariant of the queue is derived from it by cases on
`Effect`.
-/

namespace PulSeed.Queue

/-! ## The record of a message after an operation -/

/-- After `renew`. -/
def renewedRecord (clock : Clock) (leaseMs : Millis) (r : QueueRecord) : QueueRecord :=
  { r with leaseUntil := some (clock .lease + leaseMs), updatedAt := clock .updated }

/-- After `ack`. -/
def completedRecord (clock : Clock) (r : QueueRecord) : QueueRecord :=
  { r.unclaimed with
    status := .completed
    completedAt := some (clock .completed)
    updatedAt := clock .updated }

/-- A record whose claim ended without success: back to pending, or dead-lettered
for the given reason. -/
def givenBack (r : QueueRecord) (updatedAt : Millis) : Option String → QueueRecord
  | some reason =>
    { r.unclaimed with
      updatedAt := updatedAt
      status := .deadletter
      deadletterReason := some reason }
  | none => { r.unclaimed with updatedAt := updatedAt, status := .pending }

/-- After `nack`. -/
def nackedRecord (cfg : QueueConfig) (clock : Clock) (reason : String) (requeue : Bool)
    (r : QueueRecord) : QueueRecord :=
  givenBack r (clock .updated)
    (if !requeue || decide (cfg.maxAttempts ≤ r.attempt) then some reason else none)

/-- After `requeue`. -/
def requeuedRecord (clock : Clock) (r : QueueRecord) : QueueRecord :=
  { r.unclaimed with
    deadletterReason := none
    status := .pending
    updatedAt := clock .updated }

/-- After `deadletter`. -/
def deadletteredRecord (clock : Clock) (reason : String) (r : QueueRecord) : QueueRecord :=
  { r.unclaimed with
    status := .deadletter
    deadletterReason := some reason
    updatedAt := clock .updated }

/-- After `sweepExpiredClaims`, when the lease had expired. -/
def sweptRecord (cfg : QueueConfig) (now : Millis) (r : QueueRecord) : QueueRecord :=
  givenBack r now (if cfg.maxAttempts ≤ r.attempt then some "lease expired" else none)

section

variable (r : QueueRecord) (updatedAt : Millis) (reason : Option String)

@[simp] theorem unclaimed_attempt : r.unclaimed.attempt = r.attempt := rfl

@[simp] theorem unclaimed_envelope : r.unclaimed.envelope = r.envelope := rfl

@[simp] theorem givenBack_envelope : (givenBack r updatedAt reason).envelope = r.envelope := by
  cases reason <;> rfl

@[simp] theorem givenBack_attempt : (givenBack r updatedAt reason).attempt = r.attempt := by
  cases reason <;> rfl

@[simp] theorem givenBack_status : (givenBack r updatedAt reason).status =
    if reason.isSome then .deadletter else .pending := by
  cases reason <;> rfl

@[simp] theorem givenBack_completedAt :
    (givenBack r updatedAt reason).completedAt = r.completedAt := by
  cases reason <;> rfl

theorem givenBack_free : (givenBack r updatedAt reason).claimToken = none ∧
    (givenBack r updatedAt reason).workerId = none ∧
    (givenBack r updatedAt reason).leaseUntil = none := by
  cases reason <;> exact ⟨rfl, rfl, rfl⟩

theorem givenBack_not_inflight : (givenBack r updatedAt reason).status ≠ .inflight := by
  cases reason <;> simp

end

/-- The change `sweepExpiredClaims` makes for one entry of the inflight table. -/
def sweptChange (cfg : QueueConfig) (now : Millis) (v : View) (e : String × ClaimRecord) :
    Option Change :=
  if now < e.2.leaseUntil then none
  else (v.record e.2.messageId).map fun r => (e.2.messageId, some (sweptRecord cfg now r))

/-- The entries whose lease has expired at `now`. -/
def expiredClaims (now : Millis) (s : QueueState) : List (String × ClaimRecord) :=
  s.inflight.entries.filter fun e => e.2.leaseUntil ≤ now

/-- What `sweepExpiredClaims` reports. -/
def sweepReport (cfg : QueueConfig) (expired : List (String × ClaimRecord)) : SweepResult where
  reclaimed := (expired.filter fun e => e.2.attempt < cfg.maxAttempts).length
  deadlettered := (expired.filter fun e => cfg.maxAttempts ≤ e.2.attempt).length
  expiredClaimTokens := expired.map Prod.fst

/-! ## Effects -/

/-- The record of `id` is inflight under the token `t`. -/
structure View.Held (v : View) (t id : String) (r : QueueRecord) : Prop where
  record : v.record id = some r
  inflight : r.status = .inflight
  token : r.claimToken = some t

/-- The lease of a record has not expired. -/
def QueueRecord.Live (r : QueueRecord) (now : Millis) : Prop := now < r.leaseUntil.getD 0

instance (r : QueueRecord) (now : Millis) : Decidable (r.Live now) :=
  inferInstanceAs (Decidable (_ < _))

/-- The outcomes of a call that changed no record. -/
def Outcome.Idle : Outcome → Prop
  | .accepted result => result.accepted = false
  | .claimed _ => False
  | .renewed result => result = none
  | .acked result => result = false
  | .nacked result => result = false
  | .requeued result => result = false
  | .deadlettered result => result = false
  | .swept result => result.expiredClaimTokens = []
  | .reopened => True
  | .threw => True

/-- **What a call can do**: `Effect cfg s call out changes` when `call`, on the
state `s`, may answer `out` and make `changes`. -/
inductive Effect (cfg : QueueConfig) (s : QueueState) : Call → Outcome → List Change → Prop
  | idle {call : Call} {out : Outcome} (h : out.Idle) : Effect cfg s call out []
  | accept {clock : Clock} {envelope : Envelope}
      (hnew : s.records.get? envelope.id = none)
      (hlive : isExpired envelope (clock (.expiry envelope.id)) = false)
      (hactive : ∀ e ∈ activeDedupeRecords envelope s, e.2.status = .pending) :
      Effect cfg s ⟨.accept envelope, clock⟩ (.accepted ⟨true, false, envelope.id⟩)
        ((activeDedupeRecords envelope s).map (fun e => (e.1, none)) ++
          [(envelope.id, some (acceptedRecord clock envelope))])
  | claim {clock : Clock} {workerId : String} {leaseMs : Option Millis}
      {filter : Envelope → Bool} {uuid : Uuid} {id : String} {r : QueueRecord}
      (hfirst : s.view.first clock filter s.view.order = some (id, r))
      (hfresh : ∀ id', tokenOf (s.records.get? id') ≠ some uuid.val) :
      Effect cfg s ⟨.claim workerId leaseMs filter uuid, clock⟩
        (.claimed (some
          { claimToken := uuid.val
            messageId := id
            workerId := workerId
            leaseUntil := clock .lease + leaseMs.getD cfg.defaultLeaseMs
            attempt := r.attempt + 1
            envelope := r.envelope }))
        (s.view.drops clock filter s.view.order ++
          [(id, some (claimedRecord clock workerId (leaseMs.getD cfg.defaultLeaseMs) uuid r))])
  | claimNone {clock : Clock} {workerId : String} {leaseMs : Option Millis}
      {filter : Envelope → Bool} {uuid : Uuid}
      (hfirst : s.view.first clock filter s.view.order = none) :
      Effect cfg s ⟨.claim workerId leaseMs filter uuid, clock⟩ (.claimed none)
        (s.view.drops clock filter s.view.order)
  | renew {clock : Clock} {t : String} {leaseMs : Option Millis} {id : String} {r : QueueRecord}
      (h : s.view.Held t id r) (hlive : r.Live (clock .leaseCheck)) :
      Effect cfg s ⟨.renew t leaseMs, clock⟩
        (.renewed (some
          { claimToken := t
            messageId := id
            workerId := r.workerId.getD ""
            leaseUntil := clock .lease + leaseMs.getD cfg.defaultLeaseMs
            attempt := r.attempt
            envelope := r.envelope }))
        [(id, some (renewedRecord clock (leaseMs.getD cfg.defaultLeaseMs) r))]
  | ack {clock : Clock} {t id : String} {r : QueueRecord}
      (h : s.view.Held t id r) (hlive : r.Live (clock .leaseCheck)) :
      Effect cfg s ⟨.ack t, clock⟩ (.acked true) [(id, some (completedRecord clock r))]
  | nack {clock : Clock} {t reason : String} {requeue : Bool} {id : String} {r : QueueRecord}
      (h : s.view.Held t id r) (hlive : r.Live (clock .leaseCheck)) :
      Effect cfg s ⟨.nack t reason requeue, clock⟩ (.nacked true)
        [(id, some (nackedRecord cfg clock reason requeue r))]
  | requeue {clock : Clock} {id : String} {r : QueueRecord} (hr : s.records.get? id = some r)
      (hst : r.status = .inflight ∨ r.status = .deadletter) :
      Effect cfg s ⟨.requeue id, clock⟩ (.requeued true) [(id, some (requeuedRecord clock r))]
  | requeuePending {clock : Clock} {id : String} {r : QueueRecord}
      (hr : s.records.get? id = some r) (hst : r.status = .pending) :
      Effect cfg s ⟨.requeue id, clock⟩ (.requeued true) []
  | deadletter {clock : Clock} {id reason : String} {r : QueueRecord}
      (hr : s.records.get? id = some r) :
      Effect cfg s ⟨.deadletter id reason, clock⟩ (.deadlettered true)
        [(id, some (deadletteredRecord clock reason r))]
  | sweep {clock : Clock} {now : Option Millis} :
      Effect cfg s ⟨.sweep now, clock⟩
        (.swept (sweepReport cfg (expiredClaims (now.getD (clock .sweep)) s)))
        (s.inflight.entries.filterMap (sweptChange cfg (now.getD (clock .sweep)) s.view))

/-- The mutation `m` is one of the effects of `call`, or leaves a state that the
table rejects. -/
def Describes (cfg : QueueConfig) (s : QueueState) (call : Call) (m : Mutation Outcome) : Prop :=
  (m.dirty = true ∧ writeQueueState m.state = none) ∨
    ∃ changes, Effect cfg s call m.result changes ∧
      (m.dirty = true → Yields s changes m.state) ∧ (m.dirty = false → changes = [])

theorem describes_idle {cfg : QueueConfig} {s : QueueState} {call : Call} {out : Outcome}
    (h : out.Idle) : Describes cfg s call ⟨out, false, s⟩ :=
  .inr ⟨[], .idle h, nofun, fun _ => rfl⟩

/-- A call with one effect on the state. -/
theorem describes_yields {cfg : QueueConfig} {s s' : QueueState} {call : Call} {out : Outcome}
    {changes : List Change} (h : Effect cfg s call out changes) (hy : Yields s changes s') :
    Describes cfg s call ⟨out, true, s'⟩ :=
  .inr ⟨changes, h, fun _ => hy, nofun⟩

/-! ## `accept` -/

/-- Deleting records without a claim. -/
theorem yields_evict {s : QueueState} (hs : Sound s) (l : List (String × QueueRecord))
    (hl : ∀ e ∈ l, tokenOf (s.records.get? e.1) = none) :
    Yields s (l.map fun e => (e.1, none)) (l.foldl (fun s e => evict s e.1) s) := by
  induction l generalizing s with
  | nil => exact Yields.refl hs
  | cons e rest ih =>
    have hone : Yields s [(e.1, none)] (evict s e.1) := by
      refine Yields.release hs ?_ (by simp) fun t => ?_
      · refine View.ext (ObjectMap.get?_delete_eq_update ..) ?_
        rw [put_pending_remove _ (by simp)]
        exact funext fun p => removePending_eq hs.ok e.1 p
      · rw [hl e (List.mem_cons_self ..)]
        simp [evict]
    refine hone.trans (ih hone.sound fun e' he' => ?_)
    show tokenOf ((s.records.delete e.1).get? e'.1) = none
    rw [ObjectMap.get?_delete]
    split
    · rfl
    · exact hl e' (List.mem_cons_of_mem _ he')

theorem evict_get? (l : List (String × QueueRecord)) (s : QueueState) {id : String}
    (h : s.records.get? id = none) :
    (l.foldl (fun s e => evict s e.1) s).records.get? id = none := by
  induction l generalizing s with
  | nil => exact h
  | cons e rest ih =>
    refine ih (evict s e.1) ?_
    show (s.records.delete e.1).get? id = none
    rw [ObjectMap.get?_delete, h, ite_self]

theorem mem_activeDedupeRecords {envelope : Envelope} {s : QueueState}
    {e : String × QueueRecord} : e ∈ activeDedupeRecords envelope s ↔
      s.records.get? e.1 = some e.2 ∧ e.2.envelope.dedupeKey = envelope.dedupeKey ∧
        (∃ key, truthy envelope.dedupeKey = some key) ∧
        e.2.status ≠ .completed ∧ e.2.status ≠ .deadletter := by
  unfold activeDedupeRecords
  cases hkey : truthy envelope.dedupeKey with
  | none => simp
  | some key =>
    rw [List.mem_filter, ObjectMap.mem_entries_iff, (truthy_eq_some.mp hkey).1]
    simp

theorem describes_accept {cfg : QueueConfig} {s : QueueState} (hs : Sound s) (clock : Clock)
    (envelope : Envelope) :
    Describes cfg s ⟨.accept envelope, clock⟩ ((accept clock envelope s).map .accepted) := by
  unfold accept
  cases hget : s.records.get? envelope.id with
  | some r => exact describes_idle rfl
  | none =>
    by_cases hexp : isExpired envelope (clock (.expiry envelope.id)) = true
    · simp only [hexp, if_true]
      exact describes_idle rfl
    · simp only [hexp, Bool.false_eq_true, if_false]
      cases hfind : (activeDedupeRecords envelope s).find? fun e => e.2.status = .inflight with
      | some e => exact describes_idle rfl
      | none =>
        have hpend : ∀ e ∈ activeDedupeRecords envelope s, e.2.status = .pending := by
          intro e he
          have hnot : e.2.status ≠ .inflight := by
            simpa using List.find?_eq_none.mp hfind e he
          obtain ⟨-, -, -, hcompl, hdead⟩ := mem_activeDedupeRecords.mp he
          cases hst : e.2.status <;> simp_all
        refine describes_yields (.accept hget (by simpa using hexp) hpend) ?_
        have hevict := yields_evict hs (activeDedupeRecords envelope s) fun e he => by
          have hr := (mem_activeDedupeRecords.mp he).1
          rw [hr]
          exact ((hs.ok.lease hr).settled (by simp [hpend e he])).1
        have hnone := evict_get? (activeDedupeRecords envelope s) s hget
        refine hevict.trans (Yields.release hevict.sound ?_ ?_ fun t => ?_)
        · refine View.ext (ObjectMap.get?_set_eq_update ..) ?_
          refine (put_pending_push (r := acceptedRecord clock envelope) hevict.sound.ok
            (fun r hr => ?_) rfl).symm
          rw [view_record, hnone] at hr
          cases hr
        · rintro _ ⟨⟩
          exact ⟨rfl, by simp [acceptedRecord], rfl, rfl, rfl⟩
        · rw [hnone]
          simp [tokenOf]

/-! ## `claim` -/

/-- Two records with one claim token cannot be written. -/
theorem writeQueueState_clash {s : QueueState} {id id' t : String} {r r' : QueueRecord}
    (hne : id ≠ id') (hr : s.records.get? id = some r) (hr' : s.records.get? id' = some r')
    (ht : r.claimToken = some t) (ht' : r'.claimToken = some t) : writeQueueState s = none := by
  unfold writeQueueState
  simp only [ite_eq_right_iff, reduceCtorEq, imp_false]
  intro hnodup
  rw [List.filterMap_map] at hnodup
  have hpair := List.pairwise_filterMap.mp hnodup
  have hall := (List.Pairwise.forall_of_forall_of_flip (R := fun e e' : String × QueueRecord =>
    e ≠ e' → ∀ b, (rowOf s e.1 e.2).claimToken = some b →
      ∀ b', (rowOf s e'.1 e'.2).claimToken = some b' → b ≠ b') ?_ ?_ ?_)
    (ObjectMap.mem_entries_iff.mpr hr) (ObjectMap.mem_entries_iff.mpr hr')
  · exact hall (fun h => hne (congrArg Prod.fst h)) t ht t ht' rfl
  · intro e _ h
    exact absurd rfl h
  · exact hpair.imp fun h _ b hb b' hb' => h b hb b' hb'
  · exact hpair.imp fun h _ b hb b' hb' e => h b' hb' b hb e.symm

theorem describes_claim {cfg : QueueConfig} {s : QueueState} (hs : Sound s) (clock : Clock)
    (workerId : String) (leaseMs : Option Millis) (filter : Envelope → Bool) (uuid : Uuid) :
    Describes cfg s ⟨.claim workerId leaseMs filter uuid, clock⟩
      ((claim clock workerId (leaseMs.getD cfg.defaultLeaseMs) filter uuid s).map .claimed) := by
  obtain ⟨s', hy, heq⟩ := scanQueue_spec clock filter priorityOrder (by decide) false hs
  change Yields s (s.view.drops clock filter s.view.order) s' at hy
  change _ = (false || !(s.view.drops clock filter s.view.order).isEmpty,
    s'.takeOff (s.view.first clock filter s.view.order),
    s.view.first clock filter s.view.order) at heq
  unfold claim
  rw [heq]
  cases hfirst : s.view.first clock filter s.view.order with
  | none =>
    refine .inr ⟨_, .claimNone hfirst, fun _ => hy, fun hclean => ?_⟩
    simpa [Mutation.map] using hclean
  | some hit =>
    obtain ⟨id, r⟩ := hit
    obtain ⟨hr, hst, -, hkeys⟩ := first_hit hs.ok hfirst
    have hnodup := drops_nodup hs.ok clock filter
    -- the scan leaves the record of the hit alone
    have hrec : ∀ x, s'.records.get? x =
        (s.view.puts (s.view.drops clock filter s.view.order)).record x :=
      fun x => congrFun (congrArg View.record hy.view) x
    have hr' : s'.records.get? id = some r := by
      rw [hrec, puts_record_of_not_mem hnodup _ hkeys, hr]
    have hfree := ((hs.ok.lease hr).settled (by simp [hst])).1
    by_cases hfresh : ∀ id', tokenOf (s.records.get? id') ≠ some uuid.val
    · refine describes_yields (.claim hfirst hfresh) (hy.trans ?_)
      have hfresh' : ∀ x, tokenOf (s'.records.get? x) ≠ some uuid.val := by
        intro x hx
        by_cases hxd : x ∈ (s.view.drops clock filter s.view.order).map Prod.fst
        · obtain ⟨c, hc, rfl⟩ := List.mem_map.mp hxd
          obtain ⟨ry, hry, -, -, heq⟩ := drop_pending hs.ok hc
          rw [hrec, puts_record_of_mem hnodup _ hc, heq] at hx
          have : ry.claimToken = some uuid.val := hx
          exact hfresh c.1 (tokenOf_eq_some.mpr ⟨ry, hry, this⟩)
        · rw [hrec, puts_record_of_not_mem hnodup _ hxd] at hx
          exact hfresh x hx
      have hnew : tokenOf (some (claimedRecord clock workerId
          (leaseMs.getD cfg.defaultLeaseMs) uuid r)) = some uuid.val := rfl
      have hold : tokenOf (s'.records.get? id) = none := by rw [hr']; exact hfree
      refine Yields.put hy.sound ?_ ?_ ?_ (fun t ht x _ => ?_) (fun t ht => ?_) ?_
      · refine View.ext (ObjectMap.get?_set_eq_update ..) ?_
        rw [put_pending_remove]
        · rfl
        · rintro _ ⟨⟩
          simp [claimedRecord]
      · rintro _ ⟨⟩
        exact hs.ok.ids (r := r) hr
      · rintro _ ⟨⟩
        exact ⟨fun _ => ⟨uuid.val, workerId, _, rfl, uuid.nonempty, rfl, rfl⟩,
          fun h => absurd rfl h⟩
      · rw [hnew] at ht
        exact Option.some.inj ht ▸ hfresh' x
      · rw [hnew] at ht
        rw [hold]
        show (s'.inflight.set uuid.val _).get? t = _
        rw [ObjectMap.get?_set, if_neg fun e => ht (congrArg some e.symm)]
        simp
      · rintro _ ⟨⟩ t ht
        obtain rfl : uuid.val = t := Option.some.inj ht
        refine ⟨_, ObjectMap.get?_set_self .., rfl, rfl, rfl, rfl⟩
    · -- the insert of the second record with this token fails
      simp only [not_forall, not_not] at hfresh
      obtain ⟨x, hx⟩ := hfresh
      obtain ⟨rx, hrx, hrxt⟩ := tokenOf_eq_some.mp hx
      have hxid : x ≠ id := by
        rintro rfl
        obtain rfl : r = rx := Option.some.inj (hr.symm.trans hrx)
        exact absurd (hfree.symm.trans hrxt) (by simp)
      have hxd : x ∉ (s.view.drops clock filter s.view.order).map Prod.fst := by
        intro hmem
        obtain ⟨rq, hrq, hstq⟩ := hs.ok.mem_order.mp (drops_keys_sublist.mem hmem)
        obtain rfl : rx = rq := Option.some.inj (hrx.symm.trans hrq)
        exact absurd ((hs.ok.lease hrx).inflight_of_token hrxt) (by simp [hstq])
      refine .inl ⟨rfl, ?_⟩
      refine writeQueueState_clash hxid.symm (ObjectMap.get?_set_self ..) ?_ rfl hrxt
      show (s'.records.set id _).get? x = some rx
      rw [ObjectMap.get?_set, if_neg hxid, hrec, puts_record_of_not_mem hnodup _ hxd]
      exact hrx

/-! ## `renew`, `ack`, `nack` -/

/-- An entry of the inflight table is confirmed by its record. -/
theorem confirmed_eq {s : QueueState} (hs : Sound s) {t : String} {c : ClaimRecord}
    (h : s.inflight.get? t = some c) :
    ∃ r, confirmed s t c = some r ∧ s.view.Held t c.messageId r ∧ ClaimOf c.messageId r c := by
  obtain ⟨r, hr, hst, htok, hw, hl, ha⟩ := hs.agrees.sound h
  refine ⟨r, ?_, ⟨hr, hst, htok⟩, ⟨rfl, hw, hl, ha⟩⟩
  simp [confirmed, hr, hst, htok]

theorem ClaimOf.live {id : String} {r : QueueRecord} {c : ClaimRecord} (h : ClaimOf id r c)
    {now : Millis} : r.Live now ↔ now < c.leaseUntil := by
  unfold QueueRecord.Live
  rw [h.lease]
  exact Iff.rfl

theorem isLeaseExpired_eq {clock : Clock} {r : QueueRecord} {t : String}
    (h : r.claimToken = some t) :
    isLeaseExpired clock r t = !decide (r.Live (clock .leaseCheck)) := by
  by_cases hlt : clock .leaseCheck < r.leaseUntil.getD 0
  · simp [isLeaseExpired, QueueRecord.Live, h, hlt]
  · simp [isLeaseExpired, QueueRecord.Live, h, hlt, not_lt.mp hlt]

/-- A change of one message that leaves it without a claim. -/
theorem yields_unclaim {s : QueueState} (hs : Sound s) (r' : QueueRecord) {id : String}
    {r : QueueRecord} {inflight : ObjectMap String ClaimRecord} (hr : s.records.get? id = some r)
    (henv : r'.envelope = r.envelope) (hst : r'.status ≠ .inflight)
    (hfree : r'.claimToken = none ∧ r'.workerId = none ∧ r'.leaseUntil = none)
    (hdrop : ∀ t, inflight.get? t =
      if r.claimToken = some t then none else s.inflight.get? t) :
    Yields s [(id, some r')]
      { records := s.records.set id r'
        pending := (s.view.put id (some r')).pending
        inflight := inflight } := by
  refine Yields.release hs (View.ext (ObjectMap.get?_set_eq_update ..) rfl) ?_ fun t => ?_
  · rintro _ ⟨⟩
    exact ⟨henv ▸ hs.ok.ids (r := r) hr, hst, hfree⟩
  · rw [hr]
    exact hdrop t

/-- The inflight table without the claim of a message. -/
theorem delete_get? {s : QueueState} {t id : String} {r : QueueRecord} (h : s.view.Held t id r)
    (t' : String) : (s.inflight.delete t).get? t' =
      if r.claimToken = some t' then none else s.inflight.get? t' := by
  rw [ObjectMap.get?_delete, h.token]
  by_cases ht : t' = t
  · subst ht; simp
  · rw [if_neg ht, if_neg fun e => ht (Option.some.inj e).symm]

theorem dropClaim_get? {s : QueueState} {r : QueueRecord} (h : LeaseFields r) (t' : String) :
    (dropClaim s r).get? t' = if r.claimToken = some t' then none else s.inflight.get? t' := by
  unfold dropClaim
  by_cases hst : r.status = .inflight
  · obtain ⟨t, -, -, ht, hne, -⟩ := h.inflight hst
    rw [truthy_eq_some.mpr ⟨ht, hne⟩, ht]
    simp only [hst, if_true]
    rw [ObjectMap.get?_delete]
    by_cases htt : t' = t
    · subst htt; simp
    · rw [if_neg htt, if_neg fun e => htt (Option.some.inj e).symm]
  · rw [(h.settled hst).1]
    simp [truthy]

theorem describes_renew {cfg : QueueConfig} {s : QueueState} (hs : Sound s) (clock : Clock)
    (t : String) (leaseMs : Option Millis) :
    Describes cfg s ⟨.renew t leaseMs, clock⟩
      ((renew clock t (leaseMs.getD cfg.defaultLeaseMs) s).map .renewed) := by
  unfold renew
  cases hget : s.inflight.get? t with
  | none => exact describes_idle rfl
  | some c =>
    obtain ⟨r, hconf, hheld, hclaim⟩ := confirmed_eq hs hget
    simp only [hconf, isLeaseExpired_eq hheld.token]
    by_cases hlive : r.Live (clock .leaseCheck)
    · simp only [hlive, decide_true, Bool.not_true, Bool.false_eq_true, if_false]
      have heff : Effect cfg s ⟨.renew t leaseMs, clock⟩ _ _ := .renew hheld hlive
      rw [hclaim.worker, hclaim.attempt] at heff
      refine describes_yields heff ?_
      have hold : tokenOf (s.records.get? c.messageId) = some t :=
        tokenOf_eq_some.mpr ⟨r, hheld.record, hheld.token⟩
      have hnew : tokenOf (some (renewedRecord clock (leaseMs.getD cfg.defaultLeaseMs) r)) = some t :=
        hheld.token
      refine Yields.put hs ?_ ?_ ?_ (fun t' ht' x hx hxt => ?_) (fun t' ht' => ?_) ?_
      · refine View.ext (ObjectMap.get?_set_eq_update ..) ?_
        refine (put_pending_keep hs.ok (fun r' hr' => ?_) ?_).symm
        · obtain rfl : r = r' := Option.some.inj (hheld.record.symm.trans hr')
          simp [hheld.inflight]
        · simp [renewedRecord, hheld.inflight]
      · rintro _ ⟨⟩
        exact hs.ok.ids (r := r) hheld.record
      · rintro _ ⟨⟩
        obtain ⟨t₀, w, l, ht₀, hne, hw, -⟩ := (hs.ok.lease hheld.record).inflight hheld.inflight
        exact ⟨fun _ => ⟨t₀, w, _, ht₀, hne, hw, rfl⟩, fun h => absurd hheld.inflight h⟩
      · rw [hnew] at ht'
        obtain rfl : t = t' := Option.some.inj ht'
        obtain ⟨rx, hrx, hrxt⟩ := tokenOf_eq_some.mp hxt
        exact hx (hs.ok.token_inj hrx hheld.record hrxt hheld.token)
      · rw [hnew] at ht'
        rw [hold, if_neg ht']
        show (s.inflight.set t _).get? t' = _
        rw [ObjectMap.get?_set, if_neg fun e => ht' (congrArg some e.symm)]
      · rintro _ ⟨⟩ t' ht'
        obtain rfl : t = t' := Option.some.inj (hnew.symm.trans ht')
        exact ⟨_, ObjectMap.get?_set_self .., rfl, hclaim.worker, rfl, hclaim.attempt⟩
    · simp only [hlive, decide_false, Bool.not_false, if_true]
      exact describes_idle rfl

/-- `ack` of a token of the inflight table: it succeeds while the lease lives. -/
theorem ack_spec {s : QueueState} (hs : Sound s) (clock : Clock) {t : String} {c : ClaimRecord}
    (hget : s.inflight.get? t = some c) :
    ∃ r, s.view.Held t c.messageId r ∧ ClaimOf c.messageId r c ∧
      (¬ r.Live (clock .leaseCheck) → ack clock t s = ⟨false, false, s⟩) ∧
      (r.Live (clock .leaseCheck) → ∃ s', ack clock t s = ⟨true, true, s'⟩ ∧
        Yields s [(c.messageId, some (completedRecord clock r))] s' ∧
        s'.inflight = s.inflight.delete t) := by
  obtain ⟨r, hconf, hheld, hclaim⟩ := confirmed_eq hs hget
  refine ⟨r, hheld, hclaim, fun hlive => ?_, fun hlive => ?_⟩
  · simp [ack, hget, hconf, isLeaseExpired_eq hheld.token, hlive]
  · have hy := yields_unclaim hs (completedRecord clock r) hheld.record rfl
      (by simp [completedRecord]) ⟨rfl, rfl, rfl⟩ (delete_get? hheld)
    rw [put_pending_keep hs.ok (fun r' hr' => ?_) (by simp [completedRecord])] at hy
    · refine ⟨_, ?_, hy, rfl⟩
      simp [ack, hget, hconf, isLeaseExpired_eq hheld.token, hlive, completedRecord]
    · obtain rfl : r = r' := Option.some.inj (hheld.record.symm.trans hr')
      simp [hheld.inflight]

theorem describes_ack {cfg : QueueConfig} {s : QueueState} (hs : Sound s) (clock : Clock)
    (t : String) : Describes cfg s ⟨.ack t, clock⟩ ((ack clock t s).map .acked) := by
  cases hget : s.inflight.get? t with
  | none =>
    unfold ack
    rw [hget]
    exact describes_idle rfl
  | some c =>
    obtain ⟨r, hheld, -, hdead, halive⟩ := ack_spec hs clock hget
    by_cases hlive : r.Live (clock .leaseCheck)
    · obtain ⟨s', heq, hy, -⟩ := halive hlive
      rw [heq]
      exact describes_yields (.ack hheld hlive) hy
    · rw [hdead hlive]
      exact describes_idle rfl

/-- The pending lists when a claim ends without success. -/
theorem put_pending_givenBack {v : View} (h : v.Ok) {id : String} {r : QueueRecord}
    (hr : v.record id = some r) (hst : r.status = .inflight) (updatedAt : Millis)
    (reason : Option String) :
    (v.put id (some (givenBack r updatedAt reason))).pending =
      if reason.isSome then v.pending else pushPending v.pending r.envelope.priority r.envelope.id := by
  have hnot : ∀ r', v.record id = some r' → r'.status ≠ .pending := by
    intro r' hr'
    obtain rfl : r = r' := Option.some.inj (hr.symm.trans hr')
    simp [hst]
  cases reason with
  | some reason => exact put_pending_keep h hnot (by simp)
  | none =>
    rw [h.ids hr]
    exact put_pending_push h hnot (by simp)

theorem describes_nack {cfg : QueueConfig} {s : QueueState} (hs : Sound s) (clock : Clock)
    (t reason : String) (requeue : Bool) :
    Describes cfg s ⟨.nack t reason requeue, clock⟩
      ((nack cfg clock t reason requeue s).map .nacked) := by
  unfold nack
  cases hget : s.inflight.get? t with
  | none => exact describes_idle rfl
  | some c =>
    obtain ⟨r, hconf, hheld, -⟩ := confirmed_eq hs hget
    simp only [hconf, isLeaseExpired_eq hheld.token]
    by_cases hlive : r.Live (clock .leaseCheck)
    · have heff : Effect cfg s ⟨.nack t reason requeue, clock⟩ _ _ := .nack hheld hlive
      have hy := yields_unclaim hs (nackedRecord cfg clock reason requeue r) hheld.record
        (givenBack_envelope ..) (givenBack_not_inflight r _ _) (givenBack_free ..)
        (delete_get? hheld)
      unfold nackedRecord at heff hy
      rw [put_pending_givenBack hs.ok hheld.record hheld.inflight] at hy
      simp only [hlive, decide_true, Bool.not_true, Bool.false_eq_true, if_false]
      change Describes cfg s _ (Mutation.map _
        (if (!requeue || decide (cfg.maxAttempts ≤ r.attempt)) = true then _ else _))
      cases hend : (!requeue || decide (cfg.maxAttempts ≤ r.attempt)) with
      | true =>
        rw [hend] at heff hy
        exact describes_yields heff hy
      | false =>
        rw [hend] at heff hy
        exact describes_yields heff hy
    · simp only [hlive, decide_false, Bool.not_false, if_true]
      exact describes_idle rfl

/-! ## `requeue`, `deadletter` -/

theorem describes_requeue {cfg : QueueConfig} {s : QueueState} (hs : Sound s) (clock : Clock)
    (messageId : String) :
    Describes cfg s ⟨.requeue messageId, clock⟩ ((requeue clock messageId s).map .requeued) := by
  unfold requeue
  cases hget : s.records.get? messageId with
  | none => exact describes_idle rfl
  | some r =>
    by_cases hcompl : r.status = .completed
    · simp only [hcompl, if_true]
      exact describes_idle rfl
    · by_cases hpend : r.status = .pending
      · simp only [hpend, if_true, reduceCtorEq, if_false]
        exact .inr ⟨[], .requeuePending hget hpend, nofun, fun _ => rfl⟩
      · simp only [hcompl, hpend, if_false]
        have hst : r.status = .inflight ∨ r.status = .deadletter := by
          cases h : r.status <;> simp_all
        refine describes_yields (.requeue hget hst) ?_
        have hy := yields_unclaim hs (requeuedRecord clock r) hget rfl
          (by simp [requeuedRecord]) ⟨rfl, rfl, rfl⟩ (dropClaim_get? (hs.ok.lease hget))
        rwa [put_pending_push hs.ok (fun r' hr' => ?_) rfl] at hy
        obtain rfl : r = r' := Option.some.inj (hget.symm.trans hr')
        exact hpend

theorem describes_deadletter {cfg : QueueConfig} {s : QueueState} (hs : Sound s) (clock : Clock)
    (messageId reason : String) :
    Describes cfg s ⟨.deadletter messageId reason, clock⟩
      ((deadletter clock messageId reason s).map .deadlettered) := by
  unfold deadletter
  cases hget : s.records.get? messageId with
  | none => exact describes_idle rfl
  | some r =>
    refine describes_yields (.deadletter hget) ?_
    have hy := yields_unclaim hs (deadletteredRecord clock reason r) hget rfl
      (by simp [deadletteredRecord]) ⟨rfl, rfl, rfl⟩ (dropClaim_get? (hs.ok.lease hget))
    have hlist : (s.view.put messageId (some (deadletteredRecord clock reason r))).pending =
        removePending s.pending messageId := by
      rw [put_pending_remove _ (by simp [deadletteredRecord])]
      exact funext fun p => (removePending_eq hs.ok messageId p).symm
    rw [hlist] at hy
    exact hy

/-! ## `sweepExpiredClaims` -/

theorem sweepReport_cons (cfg : QueueConfig) (e : String × ClaimRecord)
    (l : List (String × ClaimRecord)) :
    (sweepReport cfg (e :: l)).reclaimed =
        (sweepReport cfg [e]).reclaimed + (sweepReport cfg l).reclaimed ∧
      (sweepReport cfg (e :: l)).deadlettered =
        (sweepReport cfg [e]).deadlettered + (sweepReport cfg l).deadlettered := by
  constructor
  · show (([e] ++ l).filter _).length = _
    rw [List.filter_append, List.length_append]
    rfl
  · show (([e] ++ l).filter _).length = _
    rw [List.filter_append, List.length_append]
    rfl

/-- One entry of the inflight table whose lease has expired. -/
theorem sweepClaim_spec (cfg : QueueConfig) {now : Millis} {s : QueueState} (hs : Sound s)
    {e : String × ClaimRecord} (he : s.inflight.get? e.1 = some e.2)
    (hexp : ¬ now < e.2.leaseUntil) (result : SweepResult) :
    ∃ r s', s.view.Held e.1 e.2.messageId r ∧
      Yields s [(e.2.messageId, some (sweptRecord cfg now r))] s' ∧
      s'.inflight = s.inflight.delete e.1 ∧
      sweepClaim cfg now (result, s) e =
        (⟨result.reclaimed + (sweepReport cfg [e]).reclaimed,
          result.deadlettered + (sweepReport cfg [e]).deadlettered,
          result.expiredClaimTokens ++ [e.1]⟩, s') := by
  obtain ⟨r, hconf, hheld, hclaim⟩ := confirmed_eq hs he
  have hconf' : confirmed s e.1 e.2 = some r := hconf
  have hy := yields_unclaim hs (sweptRecord cfg now r) hheld.record
    (givenBack_envelope ..) (givenBack_not_inflight r _ _) (givenBack_free ..) (delete_get? hheld)
  unfold sweptRecord at hy
  rw [put_pending_givenBack hs.ok hheld.record hheld.inflight] at hy
  refine ⟨r, _, hheld, hy, rfl, ?_⟩
  unfold sweepClaim
  simp only [hexp, if_false, hconf']
  change (if cfg.maxAttempts ≤ r.attempt then _ else _) = _
  by_cases hmax : cfg.maxAttempts ≤ r.attempt
  · have hmax' : cfg.maxAttempts ≤ e.2.attempt := hclaim.attempt ▸ hmax
    simp [hmax, hmax', sweepReport, givenBack]
  · have hmax' : ¬ cfg.maxAttempts ≤ e.2.attempt := hclaim.attempt ▸ hmax
    simp [hmax, hmax', not_le.mp hmax', sweepReport, givenBack]

/-- **The loop of `sweepExpiredClaims`.** -/
theorem sweepClaims_spec (cfg : QueueConfig) (now : Millis) {l : List (String × ClaimRecord)}
    (hl : (l.map Prod.fst).Nodup) {s : QueueState} (hs : Sound s)
    (hget : ∀ e ∈ l, s.inflight.get? e.1 = some e.2) (result : SweepResult) :
    ∃ s', Yields s (l.filterMap (sweptChange cfg now s.view)) s' ∧
      (∀ t c, s'.inflight.get? t = some c → s.inflight.get? t = some c) ∧
      l.foldl (sweepClaim cfg now) (result, s) =
        (⟨result.reclaimed +
            (sweepReport cfg (l.filter fun e => e.2.leaseUntil ≤ now)).reclaimed,
          result.deadlettered +
            (sweepReport cfg (l.filter fun e => e.2.leaseUntil ≤ now)).deadlettered,
          result.expiredClaimTokens ++
            (l.filter fun e => e.2.leaseUntil ≤ now).map Prod.fst⟩, s') := by
  induction l generalizing s result with
  | nil => exact ⟨s, Yields.refl hs, fun _ _ h => h, by simp [sweepReport]⟩
  | cons e rest ih =>
    rw [List.map_cons, List.nodup_cons] at hl
    have he := hget e (List.mem_cons_self ..)
    have hrest : ∀ e' ∈ rest, s.inflight.get? e'.1 = some e'.2 :=
      fun e' he' => hget e' (List.mem_cons_of_mem _ he')
    rw [List.foldl_cons]
    by_cases hexp : now < e.2.leaseUntil
    · have hskip : sweepClaim cfg now (result, s) e = (result, s) := by simp [sweepClaim, hexp]
      have hchange : sweptChange cfg now s.view e = none := if_pos hexp
      rw [hskip, List.filterMap_cons_none hchange, List.filter_cons_of_neg (by simpa using hexp)]
      exact ih hl.2 hs hrest result
    · obtain ⟨r, s₁, hheld, hy, hinfl, hstep⟩ := sweepClaim_spec cfg hs he hexp result
      have hchange : sweptChange cfg now s.view e =
          some (e.2.messageId, some (sweptRecord cfg now r)) := by
        simp [sweptChange, hexp, show s.records.get? e.2.messageId = some r from hheld.record]
      rw [hstep, List.filterMap_cons_some hchange, List.filter_cons_of_pos (by simpa using hexp)]
      obtain ⟨s', hy', hsub, heq⟩ := ih hl.2 hy.sound (fun e' he' => by
          rw [hinfl, ObjectMap.get?_delete, if_neg, hrest e' he']
          exact fun h => hl.1 (h ▸ List.mem_map_of_mem he')) _
      refine ⟨s', ?_, fun t c hc => ?_, ?_⟩
      · have hsame : rest.filterMap (sweptChange cfg now s₁.view) =
            rest.filterMap (sweptChange cfg now s.view) := by
          refine List.filterMap_congr fun e' he' => ?_
          obtain ⟨r', -, hheld', -⟩ := confirmed_eq hs (hrest e' he')
          -- another token is the claim of another message
          have hne : e'.2.messageId ≠ e.2.messageId := by
            intro h
            have hr := hheld'.record
            rw [h] at hr
            obtain rfl : r = r' := Option.some.inj (hheld.record.symm.trans hr)
            exact hl.1 (Option.some.inj (hheld.token.symm.trans hheld'.token) ▸
              List.mem_map_of_mem he')
          unfold sweptChange
          rw [hy.view]
          show (if _ then none else Option.map _ ((s.view.put _ _).record _)) = _
          rw [put_record, if_neg hne]
        rw [hsame] at hy'
        exact hy.trans hy'
      · have hc' := hsub t c hc
        rw [hinfl, ObjectMap.get?_delete] at hc'
        split at hc'
        · cases hc'
        · exact hc'
      · rw [heq]
        obtain ⟨hrecl, hdead⟩ := sweepReport_cons cfg e (rest.filter fun e => e.2.leaseUntil ≤ now)
        rw [hrecl, hdead, List.map_cons, ← Nat.add_assoc, ← Nat.add_assoc, List.append_assoc]
        rfl

/-- `sweepExpiredClaims` reports the entries whose lease has expired, and takes
each of their messages off its claim. -/
theorem sweep_spec (cfg : QueueConfig) (now : Millis) {s : QueueState} (hs : Sound s) :
    ∃ s', sweepExpiredClaims cfg now s =
        ⟨sweepReport cfg (expiredClaims now s), !(expiredClaims now s).isEmpty, s'⟩ ∧
      Yields s (s.inflight.entries.filterMap (sweptChange cfg now s.view)) s' ∧
      ∀ t c, s'.inflight.get? t = some c → s.inflight.get? t = some c := by
  obtain ⟨s', hy, hsub, heq⟩ := sweepClaims_spec cfg now s.inflight.nodupKeys hs
    (fun e he => ObjectMap.mem_entries_iff.mp he) ⟨0, 0, []⟩
  refine ⟨s', ?_, hy, hsub⟩
  unfold sweepExpiredClaims
  rw [heq]
  simp [sweepReport, expiredClaims]

theorem describes_sweep {cfg : QueueConfig} {s : QueueState} (hs : Sound s) (clock : Clock)
    (now : Option Millis) : Describes cfg s ⟨.sweep now, clock⟩
      ((sweepExpiredClaims cfg (now.getD (clock .sweep)) s).map .swept) := by
  obtain ⟨s', heq, hy, -⟩ := sweep_spec cfg (now.getD (clock .sweep)) hs
  rw [heq]
  refine .inr ⟨_, .sweep, fun _ => hy, fun hclean => ?_⟩
  refine List.filterMap_eq_nil_iff.mpr fun e he => if_pos ?_
  have hempty : (!(expiredClaims (now.getD (clock .sweep)) s).isEmpty) = false := hclean
  rw [Bool.not_eq_false', List.isEmpty_iff] at hempty
  simpa using List.filter_eq_nil_iff.mp hempty e he

/-! ## The inversion lemma -/

/-- **Every call is one of the effects.** -/
theorem mutate_effect (cfg : QueueConfig) (call : Call) {s : QueueState} (hs : Sound s) :
    Describes cfg s call (mutate cfg call s) := by
  obtain ⟨op, clock⟩ := call
  cases op with
  | accept envelope => exact describes_accept hs clock envelope
  | claim workerId leaseMs filter uuid => exact describes_claim hs clock workerId leaseMs filter uuid
  | renew t leaseMs => exact describes_renew hs clock t leaseMs
  | ack t => exact describes_ack hs clock t
  | nack t reason requeue => exact describes_nack hs clock t reason requeue
  | requeue messageId => exact describes_requeue hs clock messageId
  | deadletter messageId reason => exact describes_deadletter hs clock messageId reason
  | sweep now => exact describes_sweep hs clock now
  | reopen => exact describes_yields (.idle trivial) (Yields.refl hs)

theorem Loaded.sound {s : QueueState} (h : Loaded s) : Sound s := ⟨h.ok, h.inflight.agrees h.ok⟩

/-- What `persist` accepts is read back. -/
theorem readQueueState_persist {s : QueueState} {table : Table} (hs : s.view.Ok)
    (h : persist s = some table) :
    (readQueueState table).view = s.view ∧ Loaded (readQueueState table) := by
  unfold persist at h
  split at h
  · next hschema => exact readQueueState_writeQueueState hs hschema.1 h
  · cases h

/-- **The inversion lemma**: a call on a table makes the changes of one of its
effects, and leaves a table that reads well again. -/
theorem perform_effect {cfg : QueueConfig} {table table' : Table} {call : Call} {out : Outcome}
    (hload : Loaded (readQueueState table)) (h : perform cfg table call = (table', out)) :
    Loaded (readQueueState table') ∧ ∃ changes, Effect cfg (readQueueState table) call out changes ∧
      (readQueueState table').view = (readQueueState table).view.puts changes := by
  unfold perform withLockedState at h
  cases hdirty : (mutate cfg call (readQueueState table)).dirty with
  | false =>
    simp only [hdirty, Bool.false_eq_true, if_false, Option.getD_some, Prod.mk.injEq] at h
    obtain ⟨rfl, rfl⟩ := h
    rcases mutate_effect cfg call hload.sound with ⟨hd, -⟩ | ⟨changes, heff, -, hclean⟩
    · rw [hdirty] at hd
      cases hd
    · obtain rfl := hclean hdirty
      exact ⟨hload, [], heff, rfl⟩
  | true =>
    cases hpersist : persist (mutate cfg call (readQueueState table)).state with
    | none =>
      simp only [hdirty, if_true, hpersist, Option.getD_none, Prod.mk.injEq] at h
      obtain ⟨rfl, rfl⟩ := h
      exact ⟨hload, [], .idle trivial, rfl⟩
    | some t =>
      simp only [hdirty, if_true, hpersist, Option.getD_some, Prod.mk.injEq] at h
      obtain ⟨rfl, rfl⟩ := h
      rcases mutate_effect cfg call hload.sound with ⟨-, hreject⟩ | ⟨changes, heff, hy, -⟩
      · unfold persist at hpersist
        rw [hreject, ite_self] at hpersist
        cases hpersist
      · obtain ⟨hview, hload'⟩ := readQueueState_persist (hy hdirty).sound.ok hpersist
        exact ⟨hload', changes, heff, hview.trans (hy hdirty).view⟩

end PulSeed.Queue
