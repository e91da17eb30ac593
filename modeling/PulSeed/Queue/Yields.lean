import PulSeed.Queue.Operations

/-!
# What an operation does to a state

`Yields s changes s'` says that the state `s'` an operation leaves in memory is `s`
after a list of single-record changes, and that the inflight table followed. An
operation is described by chaining such facts: `Yields.put` is one change,
`Yields.trans` their composition. The lemmas below do this for every operation;
none of them looks at the table of the store.
-/

namespace PulSeed.Queue

/-- A single-record change. -/
abbrev Change := String × Option QueueRecord

/-- A state of an operation in memory: the invariant holds, and the inflight table
agrees with the records. -/
structure Sound (s : QueueState) : Prop where
  ok : s.view.Ok
  agrees : InflightAgrees s

/-- `s'` is `s` after `changes`. -/
structure Yields (s : QueueState) (changes : List Change) (s' : QueueState) : Prop where
  view : s'.view = s.view.puts changes
  sound : Sound s'

theorem Yields.refl {s : QueueState} (hs : Sound s) : Yields s [] s := ⟨rfl, hs⟩

theorem Yields.trans {s s' s'' : QueueState} {l l' : List Change} (h : Yields s l s')
    (h' : Yields s' l' s'') : Yields s (l ++ l') s'' where
  view := by rw [h'.view, h.view, puts_append]
  sound := h'.sound

/-- The claim token of a message's record, if it has one. -/
def tokenOf (r? : Option QueueRecord) : Option String := r?.bind QueueRecord.claimToken

theorem tokenOf_eq_some {r? : Option QueueRecord} {t : String} :
    tokenOf r? = some t ↔ ∃ r, r? = some r ∧ r.claimToken = some t := by
  simp [tokenOf, Option.bind_eq_some_iff]

/-- The entry `c` of the inflight table is the claim of the record `r` of `id`. -/
structure ClaimOf (id : String) (r : QueueRecord) (c : ClaimRecord) : Prop where
  messageId : c.messageId = id
  worker : r.workerId = some c.workerId
  lease : r.leaseUntil = some c.leaseUntil
  attempt : r.attempt = c.attempt

/-- **One change of an operation**: the new record is well formed, its token is
new, and the inflight table drops the old token and carries the new one. -/
theorem Yields.put {s s' : QueueState} {id : String} {r? : Option QueueRecord}
    (hs : Sound s) (hview : s'.view = s.view.put id r?)
    (hid : ∀ r ∈ r?, r.envelope.id = id) (hlease : ∀ r ∈ r?, LeaseFields r)
    (htok : ∀ t, tokenOf r? = some t → ∀ id' ≠ id, tokenOf (s.records.get? id') ≠ some t)
    (hkeep : ∀ t, tokenOf r? ≠ some t → s'.inflight.get? t =
      if tokenOf (s.records.get? id) = some t then none else s.inflight.get? t)
    (hnew : ∀ r ∈ r?, ∀ t, r.claimToken = some t →
      ∃ c, s'.inflight.get? t = some c ∧ ClaimOf id r c) : Yields s [(id, r?)] s' := by
  have hok : s'.view.Ok := by
    rw [hview]
    refine hs.ok.put hid hlease fun r hr t ht id' r' hne hr' ht' => ?_
    exact htok t (tokenOf_eq_some.mpr ⟨r, hr, ht⟩) id' hne (tokenOf_eq_some.mpr ⟨r', hr', ht'⟩)
  have hrec : ∀ x, s'.records.get? x = if x = id then r? else s.records.get? x := by
    intro x
    have := congrFun (congrArg View.record hview) x
    rwa [put_record] at this
  refine ⟨hview, hok, ⟨?_, ?_⟩⟩
  · intro t c hget
    by_cases ht : tokenOf r? = some t
    · obtain ⟨r, hr, hrt⟩ := tokenOf_eq_some.mp ht
      obtain ⟨c', hc', hclaim⟩ := hnew r hr t hrt
      obtain rfl : c' = c := Option.some.inj (hc'.symm.trans hget)
      refine ⟨r, ?_, (hlease r hr).inflight_of_token hrt, hrt, hclaim.worker, hclaim.lease,
        hclaim.attempt⟩
      rw [hrec, if_pos hclaim.messageId, hr]
    · rw [hkeep t ht] at hget
      split at hget
      · cases hget
      · next hold =>
        obtain ⟨r, hr, hrest⟩ := hs.agrees.sound hget
        refine ⟨r, ?_, hrest⟩
        rw [hrec, if_neg, hr]
        intro heq
        exact hold (tokenOf_eq_some.mpr ⟨r, heq ▸ hr, hrest.2.1⟩)
  · intro x r t hr hst ht
    rw [hrec] at hr
    split at hr
    · next hx =>
      obtain ⟨c, hc, hclaim⟩ := hnew r hr t ht
      exact ⟨c, hc, hx ▸ hclaim.messageId⟩
    · next hx =>
      have hxt : tokenOf (s.records.get? x) = some t := tokenOf_eq_some.mpr ⟨r, hr, ht⟩
      obtain ⟨c, hc, hcx⟩ := hs.agrees.complete hr hst ht
      refine ⟨c, ?_, hcx⟩
      rw [hkeep t fun hnewt => htok t hnewt x hx hxt, if_neg, hc]
      intro hold
      obtain ⟨r', hr', hrt'⟩ := tokenOf_eq_some.mp hold
      exact hx (hs.ok.token_inj hr hr' ht hrt')

/-- One change that leaves the message without a claim. -/
theorem Yields.release {s s' : QueueState} {id : String} {r? : Option QueueRecord}
    (hs : Sound s) (hview : s'.view = s.view.put id r?)
    (hr : ∀ r ∈ r?, r.envelope.id = id ∧ r.status ≠ .inflight ∧
      r.claimToken = none ∧ r.workerId = none ∧ r.leaseUntil = none)
    (hdrop : ∀ t, s'.inflight.get? t =
      if tokenOf (s.records.get? id) = some t then none else s.inflight.get? t) :
    Yields s [(id, r?)] s' := by
  have hnone : ∀ r ∈ r?, ∀ t, r.claimToken ≠ some t := by
    intro r hmem t ht
    rw [(hr r hmem).2.2.1] at ht
    cases ht
  refine Yields.put hs hview (fun r hmem => (hr r hmem).1)
    (fun r hmem => ⟨fun h => absurd h (hr r hmem).2.1, fun _ => (hr r hmem).2.2⟩) ?_
    (fun t _ => hdrop t) (fun r hmem t ht => absurd ht (hnone r hmem t))
  intro t ht
  obtain ⟨r, hmem, hrt⟩ := tokenOf_eq_some.mp ht
  exact absurd hrt (hnone r hmem t)

/-! ## The pending lists after a change -/

section

variable {s : QueueState} {id : String}

/-- `removePending` takes the id off every list. -/
theorem removePending_eq (h : s.view.Ok) (id : String) (p : EnvelopePriority) :
    removePending s.pending id p = (s.pending p).filter fun x => x ≠ id := by
  have herase : ∀ p, (s.pending p).erase id = (s.pending p).filter fun x => x ≠ id := by
    intro p
    have hnodup : (s.pending p).Nodup := h.pending_nodup p
    rw [hnodup.erase_eq_filter id]
    exact List.filter_congr fun x _ => by by_cases hx : x = id <;> simp [hx]
  have hout : ∀ p, id ∉ s.pending p → s.pending p = (s.pending p).filter fun x => x ≠ id := by
    intro p hp
    refine (List.filter_eq_self.mpr fun x hx => ?_).symm
    exact decide_eq_true fun heq => hp (heq ▸ hx)
  unfold removePending
  cases hfind : priorityOrder.find? fun p => id ∈ s.pending p with
  | none =>
    have := List.find?_eq_none.mp hfind p (mem_priorityOrder p)
    exact hout p (by simpa using this)
  | some q =>
    have hq : id ∈ s.pending q := by simpa using List.find?_some hfind
    by_cases hpq : p = q
    · subst hpq
      simpa using herase p
    · show Function.update s.pending q _ p = _
      rw [Function.update_of_ne hpq]
      refine hout p fun hp => hpq ?_
      obtain ⟨r, hr, -, hrp⟩ := h.pending_iff.mp hp
      obtain ⟨r', hr', -, hrq⟩ := h.pending_iff.mp hq
      obtain rfl : r = r' := Option.some.inj (hr.symm.trans hr')
      exact hrp.symm.trans hrq

/-- A message whose record is not pending is in no list. -/
theorem View.Ok.not_listed {v : View} (h : v.Ok)
    (hid : ∀ r, v.record id = some r → r.status ≠ .pending) (p : EnvelopePriority) :
    (v.pending p).filter (fun x => x ≠ id) = v.pending p := by
  refine List.filter_eq_self.mpr fun x hx => decide_eq_true fun heq => ?_
  obtain ⟨r, hr, hst, -⟩ := h.pending_iff.mp (heq ▸ hx)
  exact hid r hr hst

/-- A message that becomes pending joins the list of its priority. -/
theorem put_pending_push {v : View} (h : v.Ok)
    (hid : ∀ r, v.record id = some r → r.status ≠ .pending) {r : QueueRecord}
    (hr : r.status = .pending) :
    (v.put id (some r)).pending = pushPending v.pending r.envelope.priority id := by
  funext p
  show List.filter _ (v.pending p) ++ _ = _
  rw [h.not_listed hid p]
  by_cases hp : p = r.envelope.priority
  · subst hp
    simp [pushPending, QueueRecord.PendingAt, hr]
  · have hp' : r.envelope.priority ≠ p := fun e => hp e.symm
    simp [pushPending, QueueRecord.PendingAt, hp, hp']

/-- A change between records that are not pending leaves the lists alone. -/
theorem put_pending_keep {v : View} (h : v.Ok)
    (hid : ∀ r, v.record id = some r → r.status ≠ .pending) {r : QueueRecord}
    (hr : r.status ≠ .pending) : (v.put id (some r)).pending = v.pending := by
  funext p
  show List.filter _ (v.pending p) ++ _ = _
  rw [h.not_listed hid p]
  simp [QueueRecord.PendingAt, hr]

/-- A message that stops being pending leaves its list. -/
theorem put_pending_remove (v : View) {r? : Option QueueRecord}
    (hr : ∀ r ∈ r?, r.status ≠ .pending) :
    (v.put id r?).pending = fun p => (v.pending p).filter fun x => x ≠ id := by
  funext p
  show List.filter _ (v.pending p) ++ _ = _
  cases r? with
  | none => simp
  | some r => simp [QueueRecord.PendingAt, hr r rfl]

end

end PulSeed.Queue
