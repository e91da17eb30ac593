import PulSeed.Queue.Effects

/-!
# What one call does to one record

`Effect` describes a call by its changes; `Fate` reads off what this means for the
record of one message, which is the form the invariants of the queue need. The
lemma is `Effect.fate`, and `perform_fate` its lift to a step of the queue.
-/

namespace PulSeed.Queue

/-- `Fate cfg call out id old new`: under `call`, answered `out`, the record of
`id` goes from `old` to `new`. -/
inductive Fate (cfg : QueueConfig) :
    Call → Outcome → String → Option QueueRecord → Option QueueRecord → Prop
  | same {call : Call} {out : Outcome} {id : String} {r? : Option QueueRecord} :
      Fate cfg call out id r? r?
  | accepted {clock : Clock} {envelope : Envelope} :
      Fate cfg ⟨.accept envelope, clock⟩ (.accepted ⟨true, false, envelope.id⟩) envelope.id none
        (some (acceptedRecord clock envelope))
  | replaced {clock : Clock} {envelope : Envelope} {id : String} {r : QueueRecord}
      (hst : r.status = .pending) (hkey : r.envelope.dedupeKey = envelope.dedupeKey)
      (htruthy : ∃ key, truthy envelope.dedupeKey = some key) :
      Fate cfg ⟨.accept envelope, clock⟩ (.accepted ⟨true, false, envelope.id⟩) id (some r) none
  | dropped {clock : Clock} {workerId : String} {leaseMs : Option Millis}
      {filter : Envelope → Bool} {uuid : Uuid} {out : Outcome} {id : String} {r : QueueRecord}
      (hst : r.status = .pending) (hexp : isExpired r.envelope (clock (.expiry id)) = true) :
      Fate cfg ⟨.claim workerId leaseMs filter uuid, clock⟩ out id (some r)
        (some (droppedRecord clock id r))
  | claimed {clock : Clock} {workerId : String} {leaseMs : Option Millis}
      {filter : Envelope → Bool} {uuid : Uuid} {id : String} {r : QueueRecord}
      (hst : r.status = .pending) (hfilter : filter r.envelope = true) :
      Fate cfg ⟨.claim workerId leaseMs filter uuid, clock⟩
        (.claimed (some
          { claimToken := uuid.val
            messageId := id
            workerId := workerId
            leaseUntil := clock .lease + leaseMs.getD cfg.defaultLeaseMs
            attempt := r.attempt + 1
            envelope := r.envelope }))
        id (some r) (some (claimedRecord clock workerId (leaseMs.getD cfg.defaultLeaseMs) uuid r))
  | renewed {clock : Clock} {t : String} {leaseMs : Option Millis} {c : Claim} {id : String}
      {r : QueueRecord} (hst : r.status = .inflight) (htok : r.claimToken = some t)
      (hlive : r.Live (clock .leaseCheck)) (hc : c.messageId = id) :
      Fate cfg ⟨.renew t leaseMs, clock⟩ (.renewed (some c)) id (some r)
        (some (renewedRecord clock (leaseMs.getD cfg.defaultLeaseMs) r))
  | completed {clock : Clock} {t id : String} {r : QueueRecord}
      (hst : r.status = .inflight) (htok : r.claimToken = some t)
      (hlive : r.Live (clock .leaseCheck)) :
      Fate cfg ⟨.ack t, clock⟩ (.acked true) id (some r) (some (completedRecord clock r))
  | nacked {clock : Clock} {t reason : String} {requeue : Bool} {id : String} {r : QueueRecord}
      (hst : r.status = .inflight) (htok : r.claimToken = some t)
      (hlive : r.Live (clock .leaseCheck)) :
      Fate cfg ⟨.nack t reason requeue, clock⟩ (.nacked true) id (some r)
        (some (nackedRecord cfg clock reason requeue r))
  | requeued {clock : Clock} {id : String} {r : QueueRecord}
      (hst : r.status = .inflight ∨ r.status = .deadletter) :
      Fate cfg ⟨.requeue id, clock⟩ (.requeued true) id (some r) (some (requeuedRecord clock r))
  | deadlettered {clock : Clock} {id reason : String} {r : QueueRecord} :
      Fate cfg ⟨.deadletter id reason, clock⟩ (.deadlettered true) id (some r)
        (some (deadletteredRecord clock reason r))
  | swept {clock : Clock} {now : Option Millis} {out : Outcome} {id : String} {r : QueueRecord}
      (hst : r.status = .inflight) (hexp : ¬ r.Live (now.getD (clock .sweep))) :
      Fate cfg ⟨.sweep now, clock⟩ out id (some r)
        (some (sweptRecord cfg (now.getD (clock .sweep)) r))

/-! ## The messages a call changes -/

section

variable {cfg : QueueConfig} {s : QueueState}

/-- The change of `sweepExpiredClaims` for an entry of the inflight table. -/
theorem sweptChange_eq_some (cfg : QueueConfig) (hs : Sound s) {now : Millis} {e : String × ClaimRecord}
    (he : e ∈ s.inflight.entries) {c : Change} :
    sweptChange cfg now s.view e = some c ↔ ∃ r, s.view.Held e.1 e.2.messageId r ∧
      ¬ r.Live now ∧ c = (e.2.messageId, some (sweptRecord cfg now r)) := by
  obtain ⟨r, -, hheld, hclaim⟩ := confirmed_eq hs (ObjectMap.mem_entries_iff.mp he)
  have huniq : ∀ r', s.view.Held e.1 e.2.messageId r' → r' = r := fun r' h' =>
    Option.some.inj (h'.record.symm.trans hheld.record)
  unfold sweptChange
  rw [hheld.record]
  split
  · next hlive =>
    refine iff_of_false nofun fun ⟨r', h', hnot, _⟩ => hnot ?_
    rw [huniq r' h']
    exact hclaim.live.mpr hlive
  · next hexp =>
    rw [Option.map_some, Option.some.injEq]
    constructor
    · rintro rfl
      exact ⟨r, hheld, fun h => hexp (hclaim.live.mp h), rfl⟩
    · rintro ⟨r', h', -, rfl⟩
      rw [huniq r' h']

theorem sweptChanges_nodup (hs : Sound s) (now : Millis) :
    ((s.inflight.entries.filterMap (sweptChange cfg now s.view)).map Prod.fst).Nodup := by
  refine List.pairwise_map.mpr (List.pairwise_filterMap.mpr (List.Pairwise.imp_of_mem ?_
    (List.pairwise_map.mp s.inflight.nodupKeys)))
  intro e e' he he' hne c hc c' hc' heq
  obtain ⟨r, h, -, rfl⟩ := (sweptChange_eq_some cfg hs he).mp hc
  obtain ⟨r', h', -, rfl⟩ := (sweptChange_eq_some cfg hs he').mp hc'
  have hid : e.2.messageId = e'.2.messageId := heq
  have hr := h.record
  rw [hid] at hr
  obtain rfl : r = r' := Option.some.inj (hr.symm.trans h'.record)
  exact hne (Option.some.inj (h.token.symm.trans h'.token))

/-- A call changes the record of a message once. -/
theorem Effect.nodup (hs : Sound s) {call : Call} {out : Outcome} {changes : List Change}
    (h : Effect cfg s call out changes) : (changes.map Prod.fst).Nodup := by
  cases h with
  | idle _ => exact List.nodup_nil
  | @accept clock envelope hnew _ _ =>
    have hkeys : (((activeDedupeRecords envelope s).map fun e => ((e.1, none) : Change)).map
        Prod.fst).Nodup := by
      rw [List.map_map]
      refine s.records.nodupKeys.sublist (List.Sublist.map _ ?_)
      unfold activeDedupeRecords
      split
      · exact List.filter_sublist
      · exact List.nil_sublist _
    rw [List.map_append, List.map_singleton]
    refine List.Nodup.append hkeys (List.nodup_singleton _) ?_
    simp only [List.disjoint_singleton, List.mem_map, not_exists, not_and]
    rintro c ⟨e, he, rfl⟩ heq
    have hr := (mem_activeDedupeRecords.mp he).1
    rw [show e.1 = envelope.id from heq, hnew] at hr
    cases hr
  | claim hfirst _ =>
    rw [List.map_append, List.map_singleton]
    refine List.Nodup.append (drops_nodup hs.ok _ _) (List.nodup_singleton _) ?_
    simpa using (first_hit hs.ok hfirst).2.2.2
  | claimNone _ => exact drops_nodup hs.ok _ _
  | renew _ _ => exact List.nodup_singleton _
  | ack _ _ => exact List.nodup_singleton _
  | nack _ _ => exact List.nodup_singleton _
  | requeue _ _ => exact List.nodup_singleton _
  | requeuePending _ _ => exact List.nodup_nil
  | deadletter _ => exact List.nodup_singleton _
  | sweep => exact sweptChanges_nodup hs _

/-- Every change is a fate. -/
theorem Effect.change_fate (hs : Sound s) {call : Call} {out : Outcome} {changes : List Change}
    (h : Effect cfg s call out changes) {id : String} {r? : Option QueueRecord}
    (hmem : (id, r?) ∈ changes) : Fate cfg call out id (s.view.record id) r? := by
  cases h with
  | idle _ => cases hmem
  | accept hnew _ hactive =>
    rcases List.mem_append.mp hmem with hold | hone
    · obtain ⟨e, he, heq⟩ := List.mem_map.mp hold
      obtain ⟨rfl, rfl⟩ := Prod.mk.inj heq
      obtain ⟨hr, hkey, htruthy, -, -⟩ := mem_activeDedupeRecords.mp he
      rw [view_record, hr]
      exact .replaced (hactive e he) hkey htruthy
    · obtain ⟨rfl, rfl⟩ := Prod.mk.inj (List.mem_singleton.mp hone)
      rw [view_record, hnew]
      exact .accepted
  | claim hfirst _ =>
    rcases List.mem_append.mp hmem with hdrop | hone
    · obtain ⟨r, hr, hst, hexp, heq⟩ := drop_pending hs.ok hdrop
      rw [hr, heq]
      exact .dropped hst hexp
    · obtain ⟨rfl, rfl⟩ := Prod.mk.inj (List.mem_singleton.mp hone)
      obtain ⟨hr, hst, hfilter, -⟩ := first_hit hs.ok hfirst
      rw [hr]
      exact .claimed hst hfilter
  | claimNone _ =>
    obtain ⟨r, hr, hst, hexp, heq⟩ := drop_pending hs.ok hmem
    rw [hr, heq]
    exact .dropped hst hexp
  | renew hheld hlive =>
    obtain ⟨rfl, rfl⟩ := Prod.mk.inj (List.mem_singleton.mp hmem)
    rw [hheld.record]
    exact .renewed hheld.inflight hheld.token hlive rfl
  | ack hheld hlive =>
    obtain ⟨rfl, rfl⟩ := Prod.mk.inj (List.mem_singleton.mp hmem)
    rw [hheld.record]
    exact .completed hheld.inflight hheld.token hlive
  | nack hheld hlive =>
    obtain ⟨rfl, rfl⟩ := Prod.mk.inj (List.mem_singleton.mp hmem)
    rw [hheld.record]
    exact .nacked hheld.inflight hheld.token hlive
  | requeue hr hst =>
    obtain ⟨rfl, rfl⟩ := Prod.mk.inj (List.mem_singleton.mp hmem)
    rw [view_record, hr]
    exact .requeued hst
  | requeuePending _ _ => cases hmem
  | deadletter hr =>
    obtain ⟨rfl, rfl⟩ := Prod.mk.inj (List.mem_singleton.mp hmem)
    rw [view_record, hr]
    exact .deadlettered
  | sweep =>
    obtain ⟨e, he, hc⟩ := List.mem_filterMap.mp hmem
    obtain ⟨r, hheld, hexp, heq⟩ := (sweptChange_eq_some cfg hs he).mp hc
    obtain ⟨rfl, rfl⟩ := Prod.mk.inj heq
    rw [hheld.record]
    exact .swept hheld.inflight hexp

/-- **The fate of every record under a call.** -/
theorem Effect.fate (hs : Sound s) {call : Call} {out : Outcome} {changes : List Change}
    (h : Effect cfg s call out changes) (id : String) :
    Fate cfg call out id (s.view.record id) ((s.view.puts changes).record id) := by
  by_cases hid : id ∈ changes.map Prod.fst
  · obtain ⟨⟨x, r?⟩, hc, rfl⟩ := List.mem_map.mp hid
    rw [puts_record_of_mem (h.nodup hs) _ hc]
    exact h.change_fate hs hc
  · rw [puts_record_of_not_mem (h.nodup hs) _ hid]
    exact .same

end

/-- The record of a message, as the next call finds it. -/
def recordIn (table : Table) (id : String) : Option QueueRecord :=
  (readQueueState table).records.get? id

section

variable {cfg : QueueConfig} {table table' : Table} {l : Call × Outcome}

/-- **One step of the queue**: its effect, and what becomes of the records. -/
theorem step_effect (hload : Loaded (readQueueState table))
    (h : (queueLTS cfg).step table l table') :
    ∃ changes, Effect cfg (readQueueState table) l.1 l.2 changes ∧ (changes.map Prod.fst).Nodup ∧
      ∀ id, recordIn table' id = ((readQueueState table).view.puts changes).record id := by
  obtain ⟨-, changes, heff, hview⟩ := perform_effect hload h
  exact ⟨changes, heff, heff.nodup hload.sound, fun id => congrFun (congrArg View.record hview) id⟩

/-- **One step of the queue, record by record.** -/
theorem step_fate (hload : Loaded (readQueueState table))
    (h : (queueLTS cfg).step table l table') (id : String) :
    Fate cfg l.1 l.2 id (recordIn table id) (recordIn table' id) := by
  obtain ⟨changes, heff, -, hrec⟩ := step_effect hload h
  rw [hrec]
  exact heff.fate hload.sound id

end

end PulSeed.Queue
