import PulSeed.Queue.Representation
import Mathlib.Order.BooleanAlgebra.Defs
import Mathlib.Order.SymmDiff

/-!
# Claim tokens and the history of a message

`CurrentClaim history t id lease` reads off the history that `t` is the token of
the latest claim of `id`, that nothing has ended this claim, and that its lease,
after renewals, runs until `lease`. `current_claim` proves this of every token the
records carry; the fencing of `ack`, `nack` and `renew` follows from it, because an
operation only succeeds when the record of its message carries the token.
-/

namespace PulSeed.Queue

/-- The call ended the claim `t` of the message `id`. -/
def Ends (l : Call × Outcome) (t id : String) : Prop :=
  Settles l t ∨ (l.1.op = .requeue id ∧ l.2 = .requeued true) ∨
    (∃ reason, l.1.op = .deadletter id reason ∧ l.2 = .deadlettered true) ∨
    ∃ result, l.2 = .swept result ∧ t ∈ result.expiredClaimTokens

/-- The lease of the token `t` after one more call. -/
def renewLease (t : String) (lease : Millis) (l : Call × Outcome) : Millis :=
  match l.2 with
  | .renewed (some c) => if c.claimToken = t then c.leaseUntil else lease
  | _ => lease

/-- `t` is the token of the latest claim of `id`; since then the token was not
issued again and the claim was not ended; its lease runs until `lease`. -/
def CurrentClaim (history : List (Call × Outcome)) (t id : String) (lease : Millis) : Prop :=
  ∃ before l c after, history = before ++ l :: after ∧ Claims l c ∧ c.claimToken = t ∧
    c.messageId = id ∧
    (∀ l' ∈ after, ∀ c', Claims l' c' → c'.messageId ≠ id ∧ c'.claimToken ≠ t) ∧
    (∀ l' ∈ after, ¬ Ends l' t id) ∧
    lease = after.foldl (renewLease t) c.leaseUntil

theorem CurrentClaim.issued {history : List (Call × Outcome)} {l : Call × Outcome} {c : Claim}
    (h : Claims l c) : CurrentClaim (history ++ [l]) c.claimToken c.messageId c.leaseUntil :=
  ⟨history, l, c, [], rfl, h, rfl, rfl, by simp, by simp, rfl⟩

theorem CurrentClaim.snoc {history : List (Call × Outcome)} {l : Call × Outcome} {t id : String}
    {lease : Millis} (h : CurrentClaim history t id lease)
    (hclaims : ∀ c, Claims l c → c.messageId ≠ id ∧ c.claimToken ≠ t) (hends : ¬ Ends l t id) :
    CurrentClaim (history ++ [l]) t id (renewLease t lease l) := by
  obtain ⟨before, l₀, c, after, rfl, hl₀, htok, hid, hno, hnot, rfl⟩ := h
  refine ⟨before, l₀, c, after ++ [l], by simp, hl₀, htok, hid, fun l' hl' => ?_, fun l' hl' => ?_,
    by simp⟩
  · rcases List.mem_append.mp hl' with hafter | hone
    · exact hno l' hafter
    · rw [List.mem_singleton.mp hone]; exact hclaims
  · rcases List.mem_append.mp hl' with hafter | hone
    · exact hnot l' hafter
    · rw [List.mem_singleton.mp hone]; exact hends

/-- The current claim under a token is the latest one issued under it. -/
theorem CurrentClaim.claimedMessage {history : List (Call × Outcome)} {t id : String}
    {lease : Millis} (h : CurrentClaim history t id lease) : claimedMessage history t = some id := by
  obtain ⟨before, l, c, after, rfl, hc, rfl, rfl, hno, -⟩ := h
  have hafter : (after.filterMap claimOf).reverse.find? (fun c' => c'.claimToken = c.claimToken) =
      none := by
    refine List.find?_eq_none.mpr fun c' hc' => ?_
    obtain ⟨l', hl', hc'⟩ := List.mem_filterMap.mp (List.mem_reverse.mp hc')
    simpa using (hno l' hl' c' (claimOf_eq_some.mp hc')).2
  unfold PulSeed.Queue.claimedMessage
  rw [List.filterMap_append, List.filterMap_cons_some (claimOf_eq_some.mpr hc),
    List.reverse_append, List.reverse_cons, List.append_assoc, List.find?_append, hafter]
  simp

/-! ## What a successful answer says about the records -/

section

variable {cfg : QueueConfig} {table table' : Table} {l : Call × Outcome}

/-- A change of one message. -/
theorem recordIn_single {id : String} {r? : Option QueueRecord}
    (hrec : ∀ x, recordIn table' x = ((readQueueState table).view.puts [(id, r?)]).record x)
    (x : String) : recordIn table' x = if x = id then r? else recordIn table x :=
  (hrec x).trans (put_record ..)

/-- A claim takes a pending message and gives it a token no record carries. -/
theorem claims_step (hload : Loaded (readQueueState table))
    (hstep : (queueLTS cfg).step table l table') {c : Claim} (hc : Claims l c) :
    (∃ r, recordIn table c.messageId = some r ∧ r.status = .pending ∧
      c.attempt = r.attempt + 1 ∧ c.envelope = r.envelope) ∧
    (∃ r, recordIn table' c.messageId = some r ∧ r.claimToken = some c.claimToken ∧
      r.leaseUntil = some c.leaseUntil) ∧
    ∀ id, tokenOf (recordIn table id) ≠ some c.claimToken := by
  obtain ⟨call, out⟩ := l
  obtain ⟨changes, heff, hnodup, hrec⟩ := step_effect hload hstep
  cases heff with
  | idle hidle =>
    have hout : out = .claimed (some c) := hc
    subst hout
    cases hidle
  | claim hfirst hfresh =>
    cases hc
    obtain ⟨hr, hst, -⟩ := first_hit hload.ok hfirst
    refine ⟨⟨_, hr, hst, rfl, rfl⟩, ?_, hfresh⟩
    rw [hrec, puts_record_of_mem hnodup _ (List.mem_append_right _ (List.mem_singleton_self _))]
    exact ⟨_, rfl, rfl, rfl⟩
  | _ => cases hc

/-- A record appears when its message is accepted. -/
theorem Fate.created {call : Call} {out : Outcome} {id : String} {r : QueueRecord}
    (h : Fate cfg call out id none (some r)) : Accepts (call, out) r.envelope := by
  cases h
  exact ⟨rfl, _, rfl, rfl⟩

/-- **Every message in the queue was accepted.** -/
theorem record_accepted {history : List (Call × Outcome)} (h : QueueRun cfg history table)
    {id : String} {r : QueueRecord} (hr : recordIn table id = some r) :
    ∃ l ∈ history, Accepts l r.envelope := by
  revert id r
  refine LTS.Run.history (P := fun hist table => ∀ id r, recordIn table id = some r →
    ∃ l ∈ hist, Accepts l r.envelope) h ?_ ?_ _ _
  · intro id r hr
    cases hr
  · intro hist a l b hrun hstep ih id r' hr'
    have hload := QueueRun.loaded (show QueueRun cfg hist a from hrun)
    have hfate := step_fate hload hstep id
    rw [hr'] at hfate
    cases hr : recordIn a id with
    | none =>
      rw [hr] at hfate
      exact ⟨l, by simp, hfate.created⟩
    | some r =>
      rw [hr] at hfate
      obtain ⟨l', hl', haccepts⟩ := ih id r hr
      exact ⟨l', List.mem_append_left _ hl', hfate.envelope ▸ haccepts⟩

/-- **Every claimed message was accepted.** -/
theorem claim_accepted {history : List (Call × Outcome)} (h : QueueRun cfg history table)
    (hl : l ∈ history) {c : Claim} (hc : Claims l c) : ∃ l' ∈ history, Accepts l' c.envelope := by
  obtain ⟨before, after, rfl⟩ := List.append_of_mem hl
  obtain ⟨mid, hbefore, hafter⟩ := LTS.Run.append_iff.mp h
  obtain ⟨mid', hstep, -⟩ := LTS.Run.cons_iff.mp hafter
  have hrun : QueueRun cfg before mid := hbefore
  obtain ⟨⟨r, hr, -, -, henv⟩, -⟩ := claims_step (QueueRun.loaded hrun) hstep hc
  obtain ⟨l', hl', haccepts⟩ := record_accepted hrun hr
  exact ⟨l', List.mem_append_left _ hl', henv ▸ haccepts⟩

/-- A renewal is of the message that carries the token. -/
theorem renewed_step (hload : Loaded (readQueueState table))
    (hstep : (queueLTS cfg).step table l table') {c : Claim} (hc : l.2 = .renewed (some c)) :
    ∃ r, recordIn table' c.messageId = some r ∧ r.claimToken = some c.claimToken ∧
      r.leaseUntil = some c.leaseUntil := by
  obtain ⟨call, out⟩ := l
  obtain ⟨changes, heff, -, hrec⟩ := step_effect hload hstep
  cases heff with
  | idle hidle =>
    have hout : out = .renewed (some c) := hc
    subst hout
    cases hidle
  | renew hheld _ =>
    cases hc
    refine ⟨_, (recordIn_single hrec _).trans (if_pos rfl), hheld.token, rfl⟩
  | _ => cases hc

/-- After a change that frees the holder of `t`, no record carries `t`. -/
theorem token_gone (hload : Loaded (readQueueState table)) {t id : String} {r r' : QueueRecord}
    (hheld : (readQueueState table).view.Held t id r) (hfree : r'.claimToken = none)
    (hrec : ∀ x, recordIn table' x = if x = id then some r' else recordIn table x) (x : String) :
    tokenOf (recordIn table' x) ≠ some t := by
  rw [hrec]
  split
  · simp [tokenOf, hfree]
  · next hx =>
    intro hxt
    obtain ⟨rx, hrx, hrxt⟩ := tokenOf_eq_some.mp hxt
    exact hx (hload.ok.token_inj hrx hheld.record hrxt hheld.token)

/-- A settled token is carried by no record. -/
theorem settles_step (hload : Loaded (readQueueState table))
    (hstep : (queueLTS cfg).step table l table') {t : String} (h : Settles l t) :
    (∃ id r, (readQueueState table).view.Held t id r) ∧
      ∀ x, tokenOf (recordIn table' x) ≠ some t := by
  obtain ⟨call, out⟩ := l
  obtain ⟨changes, heff, -, hrec⟩ := step_effect hload hstep
  rcases h with ⟨hop, hout⟩ | ⟨reason, requeue, hop, hout⟩
  · cases heff with
    | idle hidle =>
      have hout' : out = .acked true := hout
      subst hout'
      cases hidle
    | ack hheld _ =>
      cases hop
      exact ⟨⟨_, _, hheld⟩, token_gone hload hheld rfl (recordIn_single hrec)⟩
    | _ => cases hout
  · cases heff with
    | idle hidle =>
      have hout' : out = .nacked true := hout
      subst hout'
      cases hidle
    | nack hheld _ =>
      cases hop
      exact ⟨⟨_, _, hheld⟩, token_gone hload hheld (givenBack_free ..).1 (recordIn_single hrec)⟩
    | _ => cases hout

/-- The record of a message whose claim ended does not carry the token. -/
theorem ends_step (hload : Loaded (readQueueState table))
    (hstep : (queueLTS cfg).step table l table') {t id : String} (h : Ends l t id) :
    tokenOf (recordIn table' id) ≠ some t := by
  rcases h with hsettles | hrest
  · exact (settles_step hload hstep hsettles).2 id
  obtain ⟨call, out⟩ := l
  obtain ⟨changes, heff, hnodup, hrec⟩ := step_effect hload hstep
  rcases hrest with ⟨hop, hout⟩ | ⟨reason, hop, hout⟩ | ⟨result, hout, hmem⟩
  · cases heff with
    | idle hidle =>
      have hout' : out = .requeued true := hout
      subst hout'
      cases hidle
    | requeue hr _ =>
      cases hop
      rw [recordIn_single hrec, if_pos rfl]
      simp [tokenOf, requeuedRecord, QueueRecord.unclaimed]
    | requeuePending hr hst =>
      cases hop
      have hfree := ((hload.ok.lease hr).settled (by simp [hst])).1
      rw [hrec, puts_nil, view_record, hr]
      simp [tokenOf, hfree]
    | _ => cases hout
  · cases heff with
    | idle hidle =>
      have hout' : out = .deadlettered true := hout
      subst hout'
      cases hidle
    | deadletter hr =>
      cases hop
      rw [recordIn_single hrec, if_pos rfl]
      simp [tokenOf, deadletteredRecord, QueueRecord.unclaimed]
    | _ => cases hout
  · cases heff with
    | idle hidle =>
      have hout' : out = .swept result := hout
      subst hout'
      rw [show result.expiredClaimTokens = [] from hidle] at hmem
      cases hmem
    | @sweep clock now =>
      cases hout
      obtain ⟨e, he, rfl⟩ := List.mem_map.mp hmem
      obtain ⟨he, hexp⟩ := List.mem_filter.mp he
      obtain ⟨r, -, hheld, hclaim⟩ :=
        confirmed_eq hload.sound (ObjectMap.mem_entries_iff.mp he)
      have hnot : ¬ r.Live (now.getD (clock .sweep)) := by
        rw [hclaim.live, not_lt]
        exact of_decide_eq_true hexp
      have hchange := List.mem_filterMap.mpr ⟨e, he,
        (sweptChange_eq_some cfg hload.sound he).mpr ⟨r, hheld, hnot, rfl⟩⟩
      intro hid
      by_cases hx : id = e.2.messageId
      · subst hx
        rw [hrec, puts_record_of_mem hnodup _ hchange] at hid
        simp [tokenOf, sweptRecord, (givenBack_free ..).1] at hid
      · have hfate := step_fate hload hstep id
        obtain ⟨r', hr', hrt'⟩ := tokenOf_eq_some.mp hid
        rw [hr'] at hfate
        generalize hold : recordIn table id = old at hfate
        cases hfate with
        | same => exact hx (hload.ok.token_inj hold hheld.record hrt' hheld.token)
        | swept _ _ =>
          rw [show (sweptRecord cfg _ _).claimToken = none from (givenBack_free ..).1] at hrt'
          cases hrt'
    | _ => cases hout

/-- Where the token of a record comes from. -/
theorem Fate.token {call : Call} {out : Outcome} {id : String} {old : Option QueueRecord}
    {r' : QueueRecord} {t : String} (h : Fate cfg call out id old (some r'))
    (ht : r'.claimToken = some t) :
    (∃ r, old = some r ∧ r.claimToken = some t ∧
      (r'.leaseUntil = r.leaseUntil ∨ ∃ c, out = .renewed (some c) ∧ c.messageId = id)) ∨
    ∃ c, out = .claimed (some c) ∧ c.messageId = id ∧ c.claimToken = t := by
  cases h with
  | same => exact .inl ⟨r', rfl, ht, .inl rfl⟩
  | dropped => exact .inl ⟨_, rfl, ht, .inl rfl⟩
  | claimed => exact .inr ⟨_, rfl, rfl, Option.some.inj ht⟩
  | renewed _ _ _ hc => exact .inl ⟨_, rfl, ht, .inr ⟨_, rfl, hc⟩⟩
  | nacked => rw [show (nackedRecord cfg _ _ _ _).claimToken = none from (givenBack_free ..).1] at ht
              cases ht
  | swept => rw [show (sweptRecord cfg _ _).claimToken = none from (givenBack_free ..).1] at ht
             cases ht
  | _ => cases ht

/-- The lease of a record that keeps its token. -/
theorem lease_step (hload : Loaded (readQueueState table))
    (hstep : (queueLTS cfg).step table l table') {t id : String} {r' : QueueRecord}
    (hr' : recordIn table' id = some r') (ht' : r'.claimToken = some t) {lease : Millis}
    (hlease : r'.leaseUntil = some lease ∨ ∃ c, l.2 = .renewed (some c) ∧ c.messageId = id) :
    r'.leaseUntil = some (renewLease t lease l) := by
  have hload' := (perform_effect hload hstep).1
  have hrenewed : ∀ c, l.2 = .renewed (some c) → c.messageId = id →
      c.claimToken = t ∧ r'.leaseUntil = some c.leaseUntil := by
    rintro c hc rfl
    obtain ⟨r, hr, ht, hl⟩ := renewed_step hload hstep hc
    obtain rfl : r = r' := Option.some.inj (hr.symm.trans hr')
    exact ⟨Option.some.inj (ht.symm.trans ht'), hl⟩
  unfold renewLease
  split
  · next c hc =>
    by_cases htok : c.claimToken = t
    · obtain ⟨r, hr, ht, -⟩ := renewed_step hload hstep hc
      have hid : c.messageId = id := hload'.ok.token_inj hr hr' (htok ▸ ht) ht'
      rw [if_pos htok]
      exact (hrenewed c hc hid).2
    · rw [if_neg htok]
      rcases hlease with hkeep | ⟨c', hc', hid⟩
      · exact hkeep
      · obtain rfl : c = c' := by rw [hc] at hc'; simpa using hc'
        exact absurd (hrenewed c hc hid).1 htok
  · next hno =>
    rcases hlease with hkeep | ⟨c', hc', -⟩
    · exact hkeep
    · exact absurd hc' (hno c')

/-- **The token of a record is that of the current claim of its message.** -/
theorem current_claim {history : List (Call × Outcome)} (h : QueueRun cfg history table)
    {t id : String} {r : QueueRecord} (hr : recordIn table id = some r)
    (ht : r.claimToken = some t) :
    ∃ lease, r.leaseUntil = some lease ∧ CurrentClaim history t id lease := by
  revert t id r
  refine LTS.Run.history (P := fun hist table => ∀ t id r, recordIn table id = some r →
    r.claimToken = some t → ∃ lease, r.leaseUntil = some lease ∧ CurrentClaim hist t id lease) h
    ?_ ?_ _ _ _
  · intro t id r hr
    cases hr
  · intro hist a l b hrun hstep ih t id r' hr' ht'
    have hload := QueueRun.loaded (show QueueRun cfg hist a from hrun)
    have hfate := step_fate hload hstep id
    rw [hr'] at hfate
    rcases hfate.token ht' with ⟨r, hr, ht, hlease⟩ | ⟨c, hc, rfl, rfl⟩
    · obtain ⟨lease, hl, hcur⟩ := ih t id r hr ht
      have hends : ¬ Ends l t id := fun hends =>
        ends_step hload hstep hends (tokenOf_eq_some.mpr ⟨r', hr', ht'⟩)
      rw [hl] at hlease
      refine ⟨renewLease t lease l, lease_step hload hstep hr' ht' hlease,
        hcur.snoc (fun c hc => ?_) hends⟩
      · obtain ⟨⟨rc, hrc, hst, -⟩, -, hfresh⟩ := claims_step hload hstep hc
        constructor
        · rintro rfl
          obtain rfl : rc = r := Option.some.inj (hrc.symm.trans hr)
          exact absurd ((hload.ok.lease hr).inflight_of_token ht) (by simp [hst])
        · rintro rfl
          exact hfresh id (tokenOf_eq_some.mpr ⟨r, hr, ht⟩)
    · obtain ⟨-, ⟨r₁, hr₁, -, hl₁⟩, -⟩ := claims_step hload hstep hc
      obtain rfl : r₁ = r' := Option.some.inj (hr₁.symm.trans hr')
      exact ⟨c.leaseUntil, hl₁, CurrentClaim.issued hc⟩

end

/-! ## A token is settled once -/

/-- A settled token was issued before. -/
theorem settles_issued {cfg : QueueConfig} {history : List (Call × Outcome)} {table table' : Table}
    (h : QueueRun cfg history table) {l : Call × Outcome}
    (hstep : (queueLTS cfg).step table l table') {t : String} (hsettles : Settles l t) :
    ∃ id lease, CurrentClaim history t id lease := by
  obtain ⟨⟨id, r, hheld⟩, -⟩ := settles_step h.loaded hstep hsettles
  obtain ⟨lease, -, hcur⟩ := current_claim h hheld.record hheld.token
  exact ⟨id, lease, hcur⟩

/-- **No token is settled twice**, as long as no token is issued twice. -/
theorem settled_once {cfg : QueueConfig} {history : List (Call × Outcome)} {table : Table}
    (h : QueueRun cfg history table) (hfresh : (history.filterMap issuedToken).Nodup) :
    (history.filterMap settledToken).Nodup := by
  induction h with
  | nil => exact List.nodup_nil
  | @snoc hist a b l hrun hstep ih =>
    rw [List.filterMap_append] at hfresh
    rw [List.filterMap_append]
    have hfresh' := (List.nodup_append.mp hfresh).1
    refine List.Nodup.append (ih hfresh') ?_ ?_
    · cases hsettled : settledToken l <;> simp [hsettled]
    · intro t ht ht'
      have hl : settledToken l = some t := by
        obtain ⟨l', hl', ht'⟩ := List.mem_filterMap.mp ht'
        rwa [List.mem_singleton.mp hl'] at ht'
      -- the claim that `l` settles was issued after an earlier settlement of `t`
      obtain ⟨l₁, hl₁, ht₁⟩ := List.mem_filterMap.mp ht
      obtain ⟨before, after, rfl⟩ := List.append_of_mem hl₁
      obtain ⟨id, lease, pre, l₀, c, post, hsplit, hc, rfl, -, -, hnot, -⟩ :=
        settles_issued hrun hstep (settles_iff.mp hl)
      have hmem : l₀ ∈ after := by
        rcases List.append_eq_append_iff.mp hsplit with ⟨x, hpre, hx⟩ | ⟨x, hpre, hx⟩
        · cases x with
          | nil =>
            obtain ⟨rfl, -⟩ := List.cons.inj hx
            exact absurd hc (settles_iff.mp ht₁).not_claims
          | cons y x =>
            obtain ⟨-, hafter⟩ := List.cons.inj hx
            rw [hafter]
            simp
        · cases x with
          | nil =>
            obtain ⟨rfl, -⟩ := List.cons.inj hx
            exact absurd hc (settles_iff.mp ht₁).not_claims
          | cons y x =>
            obtain ⟨-, hpost⟩ := List.cons.inj hx
            exact absurd (.inl (settles_iff.mp ht₁)) (hnot l₁ (by rw [hpost]; simp))
      -- and that settlement had a claim of its own
      obtain ⟨a₀, hbefore, hrest⟩ := LTS.Run.append_iff.mp hrun
      obtain ⟨a₁, hstep₁, -⟩ := LTS.Run.cons_iff.mp hrest
      obtain ⟨id₁, lease₁, pre₁, l₁', c₁, post₁, rfl, hc₁, htok₁, -⟩ :=
        settles_issued hbefore hstep₁ (settles_iff.mp ht₁)
      rw [List.filterMap_append, List.nodup_append] at hfresh'
      refine hfresh'.2.2 c.claimToken ?_ c.claimToken ?_ rfl
      · exact List.mem_filterMap.mpr ⟨l₁', by simp, htok₁ ▸ hc₁.issued⟩
      · exact List.mem_filterMap.mpr ⟨l₀, List.mem_cons_of_mem _ hmem, hc.issued⟩

/-! ## `ack`, `nack` and `renew` are fenced -/

/-- The operations that name the claim token `t`. -/
def Targets (op : QueueOp) (t : String) : Prop :=
  op = .ack t ∨ (∃ reason requeue, op = .nack t reason requeue) ∨ ∃ leaseMs, op = .renew t leaseMs

/-- The operation reported success. -/
def Granted : Outcome → Prop
  | .acked result => result = true
  | .nacked result => result = true
  | .renewed result => result.isSome = true
  | _ => False

/-- The operation reported failure. -/
def Refused : Outcome → Prop
  | .acked result => result = false
  | .nacked result => result = false
  | .renewed result => result = none
  | .threw => True
  | _ => False

/-- A mutator that names a token changes the state only when it succeeds. -/
theorem mutate_refused (cfg : QueueConfig) {s : QueueState} (hs : Sound s) {op : QueueOp} {t : String}
    (htarget : Targets op t) (clock : Clock) :
    ((mutate cfg ⟨op, clock⟩ s).dirty = false ∧ Refused (mutate cfg ⟨op, clock⟩ s).result) ∨
      Granted (mutate cfg ⟨op, clock⟩ s).result := by
  rcases htarget with rfl | ⟨reason, requeue, rfl⟩ | ⟨leaseMs, rfl⟩
  · cases hget : s.inflight.get? t with
    | none => simp [mutate, ack, hget, Mutation.map, Refused]
    | some c =>
      obtain ⟨r, -, -, hdead, halive⟩ := ack_spec hs clock hget
      by_cases hlive : r.Live (clock .leaseCheck)
      · obtain ⟨s', heq, -⟩ := halive hlive
        simp [mutate, heq, Mutation.map, Granted]
      · simp [mutate, hdead hlive, Mutation.map, Refused]
  · simp only [mutate, Mutation.map, nack]
    cases hget : s.inflight.get? t with
    | none => exact .inl ⟨rfl, rfl⟩
    | some c =>
      obtain ⟨r, hconf, -⟩ := confirmed_eq hs hget
      simp only [hconf]
      split
      · exact .inl ⟨rfl, rfl⟩
      · split <;> exact .inr rfl
  · simp only [mutate, Mutation.map, renew]
    cases hget : s.inflight.get? t with
    | none => exact .inl ⟨rfl, rfl⟩
    | some c =>
      obtain ⟨r, hconf, -⟩ := confirmed_eq hs hget
      simp only [hconf]
      split
      · exact .inl ⟨rfl, rfl⟩
      · exact .inr rfl

/-- **Fencing, one step**: the operation succeeds on a record that carries the
token under a live lease, or it fails and leaves the table as it was. -/
theorem fenced_step {cfg : QueueConfig} {table table' : Table} {op : QueueOp} {t : String} {clock : Clock}
    {out : Outcome} (hload : Loaded (readQueueState table)) (htarget : Targets op t)
    (h : perform cfg table ⟨op, clock⟩ = (table', out)) :
    (table' = table ∧ Refused out) ∨
      (Granted out ∧ ∃ id r, (readQueueState table).view.Held t id r ∧
        r.Live (clock .leaseCheck)) := by
  have hgranted : Granted out → ∃ id r, (readQueueState table).view.Held t id r ∧
      r.Live (clock .leaseCheck) := by
    intro hout
    obtain ⟨-, changes, heff, -⟩ := perform_effect hload h
    rcases htarget with rfl | ⟨reason, requeue, rfl⟩ | ⟨leaseMs, rfl⟩
    · cases heff with
      | idle hidle => cases out <;> simp_all [Granted, Outcome.Idle]
      | ack hheld hlive => exact ⟨_, _, hheld, hlive⟩
    · cases heff with
      | idle hidle => cases out <;> simp_all [Granted, Outcome.Idle]
      | nack hheld hlive => exact ⟨_, _, hheld, hlive⟩
    · cases heff with
      | idle hidle => cases out <;> simp_all [Granted, Outcome.Idle]
      | renew hheld hlive => exact ⟨_, _, hheld, hlive⟩
  unfold perform withLockedState at h
  rcases mutate_refused cfg hload.sound htarget clock with ⟨hclean, hrefused⟩ | hok
  · simp only [hclean, Bool.false_eq_true, if_false, Option.getD_some, Prod.mk.injEq] at h
    obtain ⟨rfl, rfl⟩ := h
    exact .inl ⟨rfl, hrefused⟩
  · cases hdirty : (mutate cfg ⟨op, clock⟩ (readQueueState table)).dirty with
    | false =>
      simp only [hdirty, Bool.false_eq_true, if_false, Option.getD_some, Prod.mk.injEq] at h
      obtain ⟨-, rfl⟩ := h
      exact .inr ⟨hok, hgranted hok⟩
    | true =>
      cases hpersist : persist (mutate cfg ⟨op, clock⟩ (readQueueState table)).state with
      | none =>
        simp only [hdirty, if_true, hpersist, Option.getD_none, Prod.mk.injEq] at h
        obtain ⟨rfl, rfl⟩ := h
        exact .inl ⟨rfl, trivial⟩
      | some table'' =>
        simp only [hdirty, if_true, hpersist, Option.getD_some, Prod.mk.injEq] at h
        obtain ⟨-, rfl⟩ := h
        exact .inr ⟨hok, hgranted hok⟩

/-! ## The expiry boundary -/

section

variable {s : QueueState} {t : String} {c : ClaimRecord}

/-- `ack` succeeds exactly before the lease expires. -/
theorem ack_result (hs : Sound s) (hget : s.inflight.get? t = some c) (clock : Clock) :
    (ack clock t s).result = true ↔ clock .leaseCheck < c.leaseUntil := by
  obtain ⟨r, -, hclaim, hdead, halive⟩ := ack_spec hs clock hget
  rw [← hclaim.live]
  by_cases hlive : r.Live (clock .leaseCheck)
  · obtain ⟨s', heq, -⟩ := halive hlive
    simp [heq, hlive]
  · simp [hdead hlive, hlive]

/-- `sweepExpiredClaims` reports exactly the expired tokens. -/
theorem sweep_result (cfg : QueueConfig) (hs : Sound s) (hget : s.inflight.get? t = some c) (now : Millis) :
    t ∈ (sweepExpiredClaims cfg now s).result.expiredClaimTokens ↔ c.leaseUntil ≤ now := by
  obtain ⟨s', heq, -⟩ := sweep_spec cfg now hs
  rw [heq]
  show t ∈ (expiredClaims now s).map Prod.fst ↔ _
  constructor
  · intro hmem
    obtain ⟨e, he, rfl⟩ := List.mem_map.mp hmem
    obtain ⟨he, hexp⟩ := List.mem_filter.mp he
    obtain rfl : e.2 = c := Option.some.inj ((ObjectMap.mem_entries_iff.mp he).symm.trans hget)
    exact of_decide_eq_true hexp
  · intro hexp
    exact List.mem_map.mpr ⟨(t, c), List.mem_filter.mpr
      ⟨ObjectMap.mem_entries_iff.mpr hget, decide_eq_true hexp⟩, rfl⟩

/-- **A state after changes that parse is written.** -/
theorem persist_yields {s' : QueueState} (hload : Loaded s) {changes : List Change}
    (hnodup : (changes.map Prod.fst).Nodup) (hy : Yields s changes s')
    (hnew : ∀ id r, (id, some r) ∈ changes → RecordSchema r)
    (hsub : ∀ t c, s'.inflight.get? t = some c → s.inflight.get? t = some c) :
    ∃ table, persist s' = some table := by
  have hrecords : ∀ e ∈ s'.records.entries, RecordSchema e.2 := by
    intro e he
    have hr : s'.view.record e.1 = some e.2 := ObjectMap.mem_entries_iff.mp he
    rw [hy.view] at hr
    by_cases hmem : e.1 ∈ changes.map Prod.fst
    · obtain ⟨⟨id, r?⟩, hc, hid⟩ := List.mem_map.mp hmem
      obtain rfl : id = e.1 := hid
      rw [puts_record_of_mem hnodup _ hc] at hr
      exact hnew e.1 e.2 (hr ▸ hc)
    · rw [puts_record_of_not_mem hnodup _ hmem] at hr
      exact hload.schema e (ObjectMap.mem_entries_iff.mpr hr)
  have hclaims : ∀ e ∈ s'.inflight.entries, ClaimRecordSchema e.2 := by
    intro e he
    obtain ⟨r, hr, -, -, hc⟩ :=
      (hload.inflight e.1 e.2).mp (hsub e.1 e.2 (ObjectMap.mem_entries_iff.mp he))
    rw [hc]
    exact claimRecord_schema (hload.schema (_, r) (ObjectMap.mem_entries_iff.mpr hr)) _
  have hrows : ((s'.records.entries.map fun e => rowOf s' e.1 e.2).filterMap
      QueueRow.claimToken).Nodup := by
    rw [List.filterMap_map]
    refine List.pairwise_filterMap.mpr (List.Pairwise.imp_of_mem ?_
      (List.pairwise_map.mp s'.records.nodupKeys))
    intro e e' he he' hne t ht t' ht' htt
    exact hne (hy.sound.ok.token_inj (ObjectMap.mem_entries_iff.mp he)
      (ObjectMap.mem_entries_iff.mp he') ht (htt ▸ ht'))
  unfold persist writeQueueState
  rw [if_pos ⟨hrecords, hclaims⟩]
  exact ⟨_, if_pos hrows⟩

end

section

variable {cfg : QueueConfig} {table : Table} {t : String} {c : ClaimRecord} {now : Millis}

/-- `ack` at `now` is accepted exactly before the lease expires. -/
theorem ack_accepted (hload : Loaded (readQueueState table))
    (hget : (readQueueState table).inflight.get? t = some c) (hnow : SafeNonneg now) :
    (perform cfg table ⟨.ack t, steadyClock now⟩).2 = .acked true ↔ now < c.leaseUntil := by
  obtain ⟨r, hheld, hclaim, hdead, halive⟩ := ack_spec hload.sound (steadyClock now) hget
  rw [← hclaim.live]
  by_cases hlive : r.Live now
  · obtain ⟨s', heq, hy, hinfl⟩ := halive hlive
    have hschema : RecordSchema r :=
      hload.schema (c.messageId, r) (ObjectMap.mem_entries_iff.mpr hheld.record)
    have hsub : ∀ t' c', s'.inflight.get? t' = some c' →
        (readQueueState table).inflight.get? t' = some c' := by
      intro t' c' hc'
      rw [hinfl, ObjectMap.get?_delete] at hc'
      split at hc'
      · cases hc'
      · exact hc'
    obtain ⟨table', hpersist⟩ := persist_yields hload (by simp) hy (fun id r' hmem => by
      obtain ⟨rfl, hr'⟩ := Prod.mk.inj (List.mem_singleton.mp hmem)
      obtain rfl := Option.some.inj hr'
      exact ⟨hschema.attempt, hschema.createdAt, hnow, nofun, by rintro _ ⟨⟩; exact hnow⟩) hsub
    simp [perform, withLockedState, mutate, heq, Mutation.map, hpersist, hlive]
  · simp [perform, withLockedState, mutate, hdead hlive, Mutation.map, hlive]

/-- `sweepExpiredClaims` at `now` reclaims exactly the expired tokens. -/
theorem sweep_reclaims (hload : Loaded (readQueueState table))
    (hget : (readQueueState table).inflight.get? t = some c) (hnow : SafeNonneg now)
    (clock : Clock) :
    (∃ result, (perform cfg table ⟨.sweep (some now), clock⟩).2 = .swept result ∧
      t ∈ result.expiredClaimTokens) ↔ c.leaseUntil ≤ now := by
  have hresult := sweep_result cfg hload.sound hget now
  obtain ⟨s', heq, hy, hsub⟩ := sweep_spec cfg now hload.sound
  obtain ⟨table', hpersist⟩ := persist_yields hload (sweptChanges_nodup hload.sound now) hy
    (fun id r' hmem => by
      obtain ⟨e, he, hchange⟩ := List.mem_filterMap.mp hmem
      obtain ⟨r, hheld, -, hc⟩ := (sweptChange_eq_some cfg hload.sound he).mp hchange
      obtain ⟨-, hr'⟩ := Prod.mk.inj hc
      obtain rfl := Option.some.inj hr'
      have hschema : RecordSchema r :=
        hload.schema (_, r) (ObjectMap.mem_entries_iff.mpr hheld.record)
      unfold sweptRecord givenBack
      split <;> exact ⟨hschema.attempt, hschema.createdAt, hnow, nofun, hschema.completedAt⟩) hsub
  rw [heq] at hresult
  rw [← hresult]
  cases hdirty : !(expiredClaims now (readQueueState table)).isEmpty with
  | true => simp [perform, withLockedState, mutate, heq, Mutation.map, hpersist, hdirty]
  | false => simp [perform, withLockedState, mutate, heq, Mutation.map, hdirty]

end

end PulSeed.Queue
