import PulSeed.Queue.Tokens
import PulSeed.Lib.Arrivals

/-!
# The queue is a durable four-level FIFO

The abstract queue is a log of arrivals: the ids of the messages that became
pending, in the order in which they did (`enqueueLog`), whatever made them pending
and however often the table was written and read back in between. `pending_log`
says that the pending list of a priority is that log, restricted to the messages
that still wait there; `claim` hands out the first message of the highest priority.
-/

namespace PulSeed.Queue

/-- A message waits in the table. -/
def isPending (table : Table) (id : String) : Bool :=
  (recordIn table id).any fun r => r.status = .pending

/-- The messages that became pending from `table` to `table'`. -/
def enqueued (table table' : Table) : List String :=
  (readQueueState table').view.order.filter fun id => !isPending table id

/-- The arrivals during a list of calls. -/
def enqueueLog (cfg : QueueConfig) (table : Table) : List Call → List String
  | [] => []
  | call :: calls =>
    enqueued table (perform cfg table call).1 ++ enqueueLog cfg (perform cfg table call).1 calls

/-- The message waits at priority `p`. -/
def waitsAt (table : Table) (p : EnvelopePriority) (id : String) : Bool :=
  (recordIn table id).any fun r => r.PendingAt p

section

variable {cfg : QueueConfig} {table table' : Table} {l : Call × Outcome}

/-- A change to pending is of a message that was not. -/
theorem Effect.becomes_pending {s : QueueState} (hs : Sound s) {call : Call} {out : Outcome}
    {changes : List Change} (h : Effect cfg s call out changes) {id : String} {r r' : QueueRecord}
    (hmem : (id, some r') ∈ changes) (hst : r'.status = .pending)
    (hr : s.view.record id = some r) : r.status ≠ .pending := by
  have hheld : ∀ {t id' : String} {r₀ : QueueRecord}, s.view.Held t id' r₀ → id = id' →
      r.status ≠ .pending := by
    rintro t id' r₀ hheld rfl
    obtain rfl : r = r₀ := Option.some.inj (hr.symm.trans hheld.record)
    simp [hheld.inflight]
  cases h with
  | idle _ => cases hmem
  | accept hnew _ _ =>
    rcases List.mem_append.mp hmem with hold | hone
    · simp at hold
    · obtain ⟨rfl, -⟩ := Prod.mk.inj (List.mem_singleton.mp hone)
      rw [view_record, hnew] at hr
      cases hr
  | claim _ _ =>
    rcases List.mem_append.mp hmem with hdrop | hone
    · obtain ⟨r₀, -, -, -, heq⟩ := drop_pending hs.ok hdrop
      obtain rfl := Option.some.inj heq
      cases hst
    · obtain ⟨-, heq⟩ := Prod.mk.inj (List.mem_singleton.mp hone)
      obtain rfl := Option.some.inj heq
      cases hst
  | claimNone _ =>
    obtain ⟨r₀, -, -, -, heq⟩ := drop_pending hs.ok hmem
    obtain rfl := Option.some.inj heq
    cases hst
  | renew h _ => exact hheld h (Prod.mk.inj (List.mem_singleton.mp hmem)).1
  | ack h _ => exact hheld h (Prod.mk.inj (List.mem_singleton.mp hmem)).1
  | nack h _ => exact hheld h (Prod.mk.inj (List.mem_singleton.mp hmem)).1
  | requeue hr₀ hst₀ =>
    obtain ⟨rfl, -⟩ := Prod.mk.inj (List.mem_singleton.mp hmem)
    obtain rfl := Option.some.inj (hr.symm.trans hr₀)
    rcases hst₀ with h | h <;> simp [h]
  | requeuePending _ _ => cases hmem
  | deadletter _ =>
    obtain ⟨-, heq⟩ := Prod.mk.inj (List.mem_singleton.mp hmem)
    obtain rfl := Option.some.inj heq
    cases hst
  | sweep =>
    obtain ⟨e, he, hc⟩ := List.mem_filterMap.mp hmem
    obtain ⟨r₀, h, -, heq⟩ := (sweptChange_eq_some cfg hs he).mp hc
    exact hheld h (Prod.mk.inj heq).1

theorem waitsAt_iff (hload : Loaded (readQueueState table)) {p : EnvelopePriority} {id : String} :
    waitsAt table p id = true ↔ id ∈ (readQueueState table).pending p := by
  rw [show id ∈ (readQueueState table).pending p ↔ _ from hload.ok.pending_iff]
  unfold waitsAt
  rw [Option.any_eq_true]
  exact exists_congr fun r => and_congr_right fun _ => decide_eq_true_iff

theorem isPending_iff (hload : Loaded (readQueueState table)) {id : String} :
    isPending table id = true ↔ id ∈ (readQueueState table).view.order := by
  rw [hload.ok.mem_order]
  unfold isPending
  rw [Option.any_eq_true]
  exact exists_congr fun r => and_congr_right fun _ => decide_eq_true_iff

theorem mem_enqueued (hload' : Loaded (readQueueState table')) {id : String} :
    id ∈ enqueued table table' ↔ isPending table' id = true ∧ isPending table id = false := by
  unfold enqueued
  rw [List.mem_filter, isPending_iff hload', Bool.not_eq_true']

/-- A message that waits at `p` is pending. -/
theorem isPending_of_waitsAt {p : EnvelopePriority} {id : String}
    (h : waitsAt table p id = true) : isPending table id = true := by
  obtain ⟨r, hr, hp⟩ := (Option.any_eq_true _ _).mp h
  exact (Option.any_eq_true _ _).mpr ⟨r, hr, decide_eq_true (of_decide_eq_true hp).1⟩

/-- The list of a priority, cut out of all pending ids. -/
theorem order_filter (hload : Loaded (readQueueState table)) (p : EnvelopePriority) :
    (readQueueState table).view.order.filter (waitsAt table p) =
      (readQueueState table).pending p := by
  have hlist : ∀ q, ((readQueueState table).pending q).filter (waitsAt table p) =
      if q = p then (readQueueState table).pending p else [] := by
    intro q
    by_cases hq : q = p
    · subst hq
      rw [if_pos rfl]
      exact List.filter_eq_self.mpr fun id hid => (waitsAt_iff hload).mpr hid
    · rw [if_neg hq]
      refine List.filter_eq_nil_iff.mpr fun id hid hw => hq ?_
      obtain ⟨r, hr, -, hrq⟩ := hload.ok.pending_iff.mp hid
      obtain ⟨r', hr', -, hrp⟩ := hload.ok.pending_iff.mp ((waitsAt_iff hload).mp hw)
      obtain rfl : r = r' := Option.some.inj (hr.symm.trans hr')
      exact hrq.symm.trans hrp
  unfold View.order
  rw [List.filter_flatMap]
  simp only [view_pending, hlist]
  cases p <;> simp [priorityOrder]

/-- **A step of the queue, list by list**: the messages that stopped waiting leave,
those that became pending are appended. -/
theorem step_pending (hload : Loaded (readQueueState table))
    (hstep : (queueLTS cfg).step table l table') (p : EnvelopePriority) :
    (readQueueState table').pending p =
      ((readQueueState table).pending p).filter
        (fun id => id ∉ enqueued table table' ∧ waitsAt table' p id = true) ++
      (enqueued table table').filter (waitsAt table' p) := by
  obtain ⟨hload', changes, heff, hview⟩ := perform_effect hload hstep
  have hnodup := heff.nodup hload.sound
  have hlist : (readQueueState table').pending p = _ :=
    (congrFun (congrArg View.pending hview) p).trans (puts_pending hnodup _ p)
  have hrec : ∀ id, recordIn table' id = ((readQueueState table).view.puts changes).record id :=
    fun id => congrFun (congrArg View.record hview) id
  -- a change to pending is of a message that was not pending
  have hfresh : ∀ id r', (id, some r') ∈ changes → r'.status = .pending →
      isPending table id = false := by
    intro id r' hmem hst
    rw [Bool.eq_false_iff]
    intro hpend
    obtain ⟨r, hr, hrst⟩ := (Option.any_eq_true _ _).mp hpend
    exact heff.becomes_pending hload.sound hmem hst hr (of_decide_eq_true hrst)
  have hkept : ∀ id ∈ (readQueueState table).pending p,
      (decide (id ∉ changes.map Prod.fst)) =
        decide (id ∉ enqueued table table' ∧ waitsAt table' p id = true) := by
    intro id hid
    have hw : waitsAt table p id = true := (waitsAt_iff hload).mpr hid
    have hold : id ∉ enqueued table table' := by
      rw [mem_enqueued hload', isPending_of_waitsAt hw]
      simp
    refine decide_eq_decide.mpr ⟨fun hout => ⟨hold, ?_⟩, fun ⟨_, hw'⟩ hin => ?_⟩
    · unfold waitsAt
      rw [hrec, puts_record_of_not_mem hnodup _ hout]
      exact hw
    · obtain ⟨⟨x, r?⟩, hc, rfl⟩ := List.mem_map.mp hin
      unfold waitsAt at hw'
      rw [hrec, puts_record_of_mem hnodup _ hc, Option.any_eq_true] at hw'
      obtain ⟨r', rfl, hr'⟩ := hw'
      have := hfresh x r' hc (of_decide_eq_true hr').1
      rw [isPending_of_waitsAt hw] at this
      cases this
  have hnew : (enqueued table table').filter (waitsAt table' p) =
      (changes.filter fun c => c.2.any fun r => r.PendingAt p).map Prod.fst := by
    have hgone : (((readQueueState table).pending p).filter fun id => id ∉ changes.map Prod.fst).filter
        (fun id => !isPending table id) = [] := by
      refine List.filter_eq_nil_iff.mpr fun id hid => ?_
      have hw := (waitsAt_iff hload).mpr (List.mem_filter.mp hid).1
      simp [isPending_of_waitsAt hw]
    have hstay : ((changes.filter fun c => c.2.any fun r => r.PendingAt p).map Prod.fst).filter
        (fun id => !isPending table id) =
        (changes.filter fun c => c.2.any fun r => r.PendingAt p).map Prod.fst := by
      refine List.filter_eq_self.mpr fun id hid => ?_
      obtain ⟨⟨x, r?⟩, hc, rfl⟩ := List.mem_map.mp hid
      obtain ⟨hc, hany⟩ := List.mem_filter.mp hc
      obtain ⟨r', rfl, hr'⟩ := (Option.any_eq_true _ _).mp hany
      simp [hfresh x r' hc (of_decide_eq_true hr').1]
    calc (enqueued table table').filter (waitsAt table' p)
        = ((readQueueState table').view.order.filter (waitsAt table' p)).filter
            (fun id => !isPending table id) := by
          unfold enqueued
          rw [List.filter_filter, List.filter_filter]
          exact List.filter_congr fun id _ => Bool.and_comm _ _
      _ = ((readQueueState table').pending p).filter (fun id => !isPending table id) := by
          rw [order_filter hload']
      _ = (changes.filter fun c => c.2.any fun r => r.PendingAt p).map Prod.fst := by
          rw [hlist, List.filter_append, hstay]
          exact (congrArg (· ++ _) hgone).trans (List.nil_append _)
  rw [hlist, hnew]
  congr 1
  exact List.filter_congr hkept

/-- A message that goes on waiting keeps its priority. -/
theorem waitsAt_before (hload : Loaded (readQueueState table))
    (hstep : (queueLTS cfg).step table l table') {p : EnvelopePriority} {id : String}
    (hold : isPending table id = true) (hw : waitsAt table' p id = true) :
    waitsAt table p id = true := by
  obtain ⟨r, hr, hst⟩ := (Option.any_eq_true _ _).mp hold
  obtain ⟨r', hr', hp⟩ := (Option.any_eq_true _ _).mp hw
  have hfate := step_fate hload hstep id
  rw [hr, hr'] at hfate
  have henv := hfate.envelope
  refine (Option.any_eq_true _ _).mpr ⟨r, hr, decide_eq_true ⟨of_decide_eq_true hst, ?_⟩⟩
  rw [← henv]
  exact (of_decide_eq_true hp).2

/-- The log of a run extends with the arrivals of the next step. -/
theorem enqueueLog_snoc {history : List (Call × Outcome)} {a : Table}
    (h : (queueLTS cfg).Run table history a) (call : Call) :
    enqueueLog cfg table (history.map Prod.fst ++ [call]) =
      enqueueLog cfg table (history.map Prod.fst) ++ enqueued a (perform cfg a call).1 := by
  induction history generalizing table with
  | nil =>
    obtain rfl := h.nil_inv
    simp [enqueueLog]
  | cons l history ih =>
    obtain ⟨m, hstep, hrest⟩ := LTS.Run.cons_iff.mp h
    obtain rfl : (perform cfg table l.1).1 = m := congrArg Prod.fst hstep
    rw [List.map_cons, List.cons_append, enqueueLog, enqueueLog, ih hrest, List.append_assoc]

/-- Without records the lists are empty. -/
theorem pending_of_no_record (hload : Loaded (readQueueState table))
    (h : ∀ id, recordIn table id = none) (p : EnvelopePriority) :
    (readQueueState table).pending p = [] := by
  refine List.eq_nil_iff_forall_not_mem.mpr fun id hid => ?_
  obtain ⟨r, hr, -⟩ := hload.ok.pending_iff.mp hid
  exact absurd ((h id).symm.trans hr) nofun

/-- **The pending lists are the log of arrivals**, in every run. -/
theorem pending_log {history : List (Call × Outcome)} (h : QueueRun cfg history table)
    (p : EnvelopePriority) : (readQueueState table).pending p =
      waiting (enqueueLog cfg [] (history.map Prod.fst)) (waitsAt table p) := by
  induction h with
  | nil => exact pending_of_no_record loaded_nil (fun _ => rfl) p
  | @snoc hist a b l hrun hstep ih =>
    have hload := QueueRun.loaded (show QueueRun cfg hist a from hrun)
    have hload' := (perform_effect hload hstep).1
    have hb : (perform cfg a l.1).1 = b := congrArg Prod.fst hstep
    have hnodup : (enqueued a b).Nodup := hload'.ok.order_nodup.filter _
    rw [List.map_append, List.map_singleton, enqueueLog_snoc hrun, hb, step_pending hload hstep p,
      ih]
    refine (waiting_append hnodup fun id _ hout hw => ?_).symm
    refine waitsAt_before hload hstep ?_ hw
    by_contra hnot
    exact hout ((mem_enqueued hload').mpr ⟨isPending_of_waitsAt hw, by simpa using hnot⟩)

/-! ## What `claim` hands out -/

/-- `claim` may hand out the message: it waits, has not expired, and matches. -/
structure Claimable (table : Table) (clock : Clock) (filter : Envelope → Bool) (id : String)
    (r : QueueRecord) : Prop where
  record : recordIn table id = some r
  pending : r.status = .pending
  unexpired : isExpired r.envelope (clock (.expiry id)) = false
  matching : filter r.envelope = true

/-- The message of `r` goes before that of `r'`: by priority, then by last arrival. -/
def Ahead (log : List String) (r r' : QueueRecord) : Prop :=
  priorityRank r.envelope.priority < priorityRank r'.envelope.priority ∨
    (r.envelope.priority = r'.envelope.priority ∧
      log.dedup.idxOf r.envelope.id < log.dedup.idxOf r'.envelope.id)

/-- The ids `claim` walks through are sorted by priority and last arrival. -/
theorem order_ahead {history : List (Call × Outcome)} (h : QueueRun cfg history table) :
    (readQueueState table).view.order.Pairwise fun id id' => ∀ r r',
      recordIn table id = some r → recordIn table id' = some r' →
        Ahead (enqueueLog cfg [] (history.map Prod.fst)) r r' := by
  have hload := h.loaded
  have hprio : ∀ {p id r}, id ∈ (readQueueState table).pending p → recordIn table id = some r →
      r.envelope.priority = p ∧ r.envelope.id = id := by
    intro p id r hid hr
    obtain ⟨r', hr', -, hp⟩ := hload.ok.pending_iff.mp hid
    obtain rfl : r = r' := Option.some.inj (hr.symm.trans hr')
    exact ⟨hp, hload.ok.ids hr⟩
  refine List.pairwise_flatMap.mpr ⟨fun p _ => ?_, ?_⟩
  · have hsorted := waiting_sorted (enqueueLog cfg [] (history.map Prod.fst)) (waitsAt table p)
    rw [← pending_log h p] at hsorted
    refine List.Pairwise.imp_of_mem (fun hid hid' hlt r r' hr hr' => ?_) hsorted
    obtain ⟨hp, rfl⟩ := hprio hid hr
    obtain ⟨hp', rfl⟩ := hprio hid' hr'
    exact .inr ⟨hp.trans hp'.symm, hlt⟩
  · have hranks : priorityOrder.Pairwise fun p q => priorityRank p < priorityRank q := by decide
    refine hranks.imp fun hlt id hid id' hid' r r' hr hr' => .inl ?_
    rw [(hprio hid hr).1, (hprio hid' hr').1]
    exact hlt

/-- **`claim` hands out the first claimable message.** -/
theorem claim_first {history : List (Call × Outcome)} (h : QueueRun cfg history table)
    {workerId : String} {leaseMs : Option Millis} {filter : Envelope → Bool} {uuid : Uuid}
    {clock : Clock} {out : Outcome}
    (hperform : perform cfg table ⟨.claim workerId leaseMs filter uuid, clock⟩ = (table', out)) :
    (∀ c, out = .claimed (some c) → ∃ r, Claimable table clock filter c.messageId r ∧
      ∀ id r', Claimable table clock filter id r' → id = c.messageId ∨
        Ahead (enqueueLog cfg [] (history.map Prod.fst)) r r') ∧
    (out = .claimed none → ∀ id r, ¬ Claimable table clock filter id r) := by
  have hload := h.loaded
  obtain ⟨-, changes, heff, -⟩ := perform_effect hload hperform
  have helig : ∀ {id r}, Claimable table clock filter id r →
      id ∈ (readQueueState table).view.order ∧
        (readQueueState table).view.eligible clock filter id = true := by
    intro id r hc
    refine ⟨hload.ok.mem_order.mpr ⟨r, hc.record, hc.pending⟩, ?_⟩
    rw [eligible_of_record hc.record, hc.unexpired, hc.matching]
    rfl
  cases heff with
  | idle hidle =>
    constructor
    · rintro c rfl
      cases hidle
    · rintro rfl
      cases hidle
  | @claim _ _ _ _ _ m r hfirst _ =>
    refine ⟨?_, fun hout => by cases hout⟩
    rintro c ⟨⟩
    obtain ⟨hr, hst, hmatch, -⟩ := first_hit hload.ok hfirst
    have hfind := (first_eq_some.mp hfirst).1
    have hsome := List.find?_some hfind
    rw [eligible_of_record hr, Bool.and_eq_true, Bool.not_eq_true'] at hsome
    refine ⟨r, ⟨hr, hst, hsome.1, hmatch⟩, fun id r' hc => ?_⟩
    obtain ⟨hmem, hel⟩ := helig hc
    rcases find?_before (order_ahead h) hfind hmem hel with heq | hahead
    · exact .inl heq
    · exact .inr (hahead r r' hr hc.record)
  | claimNone hfirst =>
    refine ⟨fun c hout => (by cases hout), fun _ id r hc => ?_⟩
    obtain ⟨hmem, hel⟩ := helig hc
    rw [first_eq_none.mp hfirst id hmem] at hel
    cases hel

/-- **Messages that `claim` passes keep their order**, and those that do not match
stay unless they have expired. -/
theorem claim_keeps (hload : Loaded (readQueueState table)) {workerId : String}
    {leaseMs : Option Millis} {filter : Envelope → Bool} {uuid : Uuid} {clock : Clock}
    {out : Outcome}
    (hperform : perform cfg table ⟨.claim workerId leaseMs filter uuid, clock⟩ = (table', out))
    (p : EnvelopePriority) :
    ((readQueueState table').pending p).Sublist ((readQueueState table).pending p) ∧
      ∀ id ∈ (readQueueState table).pending p, ∀ r, recordIn table id = some r →
        filter r.envelope = false → isExpired r.envelope (clock (.expiry id)) = false →
        id ∈ (readQueueState table').pending p := by
  have hstep : (queueLTS cfg).step table (⟨.claim workerId leaseMs filter uuid, clock⟩, out) table' :=
    hperform
  have hload' := (perform_effect hload hperform).1
  have hnone : enqueued table table' = [] := by
    refine List.eq_nil_iff_forall_not_mem.mpr fun id hid => ?_
    obtain ⟨hnew, hold⟩ := (mem_enqueued hload').mp hid
    obtain ⟨r', hr', hst'⟩ := (Option.any_eq_true _ _).mp hnew
    have hfate := step_fate hload hstep id
    rw [hr'] at hfate
    generalize hr : recordIn table id = old at hfate
    unfold isPending at hold
    rw [hr] at hold
    cases hfate with
    | same => rw [Option.any_some, hst'] at hold; cases hold
    | dropped hst _ => simp [hst] at hold
    | claimed hst _ => simp [hst] at hold
  constructor
  · rw [step_pending hload hstep p, hnone]
    simp
  · intro id hid r hr hnomatch hlive
    have hfate := step_fate hload hstep id
    rw [hr] at hfate
    generalize hr' : recordIn table' id = new at hfate
    have hw := (waitsAt_iff hload).mpr hid
    refine (waitsAt_iff hload').mp ?_
    unfold waitsAt at hw ⊢
    rw [hr] at hw
    rw [hr']
    cases hfate with
    | same => exact hw
    | dropped _ hexp => rw [hlive] at hexp; cases hexp
    | claimed _ hmatch => rw [hnomatch] at hmatch; cases hmatch

end

/-! ## Reading back what was written -/

/-- What an entry of the inflight table says about its claim: everything but
`claimedAt`. -/
def ClaimRecord.content (c : ClaimRecord) : String × String × Millis × Nat :=
  (c.messageId, c.workerId, c.leaseUntil, c.attempt)

/-- `s'` is `s` as it is read back: the same records, the same pending lists, the
same inflight table up to `claimedAt`, which becomes the `updatedAt` of the record. -/
structure ReadBack (s s' : QueueState) : Prop where
  records : ∀ id, s'.records.get? id = s.records.get? id
  pending : ∀ p, s'.pending p = s.pending p
  inflight : ∀ t, (s'.inflight.get? t).map ClaimRecord.content =
    (s.inflight.get? t).map ClaimRecord.content
  claimedAt : ∀ t c, s'.inflight.get? t = some c →
    ∃ r, s.records.get? c.messageId = some r ∧ c.claimedAt = r.updatedAt

/-- Two tables that agree with the same records have the same claims. -/
theorem InflightAgrees.content {s s' : QueueState} (h : InflightAgrees s) (h' : InflightAgrees s')
    (hrec : ∀ id, s'.records.get? id = s.records.get? id) {t : String} {c : ClaimRecord}
    (hc : s.inflight.get? t = some c) :
    ∃ c', s'.inflight.get? t = some c' ∧ c'.content = c.content := by
  obtain ⟨r, hr, hst, htok, hw, hl, ha⟩ := h.sound hc
  obtain ⟨c', hc', hid⟩ := h'.complete ((hrec _).trans hr) hst htok
  obtain ⟨r', hr', -, -, hw', hl', ha'⟩ := h'.sound hc'
  rw [hid, hrec, hr] at hr'
  obtain rfl := Option.some.inj hr'
  refine ⟨c', hc', ?_⟩
  unfold ClaimRecord.content
  rw [hid, Option.some.inj (hw'.symm.trans hw), Option.some.inj (hl'.symm.trans hl),
    ha'.symm.trans ha]

theorem readBack_of_view {s s' : QueueState} (hs : Sound s) (hview : s'.view = s.view)
    (hload : Loaded s') : ReadBack s s' := by
  have hrec : ∀ id, s'.records.get? id = s.records.get? id :=
    fun id => congrFun (congrArg View.record hview) id
  refine ⟨hrec, fun p => congrFun (congrArg View.pending hview) p, fun t => ?_, fun t c hc => ?_⟩
  · cases hc : s.inflight.get? t with
    | some c =>
      obtain ⟨c', hc', heq⟩ := hs.agrees.content hload.sound.agrees hrec hc
      rw [hc', Option.map_some, Option.map_some, heq]
    | none =>
      cases hc' : s'.inflight.get? t with
      | none => rfl
      | some c' =>
        obtain ⟨c, hsome, -⟩ :=
          hload.sound.agrees.content hs.agrees (fun id => (hrec id).symm) hc'
        rw [hc] at hsome
        cases hsome
  · obtain ⟨r, hr, -, -, hcr⟩ := (hload.inflight t c).mp hc
    exact ⟨r, (hrec _).symm.trans hr, by rw [hcr]; rfl⟩

/-- **A written state is read back.** -/
theorem written_readBack {cfg : QueueConfig} {table table' : Table} {call : Call}
    (hload : Loaded (readQueueState table))
    (hdirty : (mutate cfg call (readQueueState table)).dirty = true)
    (hpersist : persist (mutate cfg call (readQueueState table)).state = some table') :
    ReadBack (mutate cfg call (readQueueState table)).state (readQueueState table') := by
  rcases mutate_effect cfg call hload.sound with ⟨-, hreject⟩ | ⟨changes, -, hy, -⟩
  · unfold persist at hpersist
    rw [hreject, ite_self] at hpersist
    cases hpersist
  · obtain ⟨hview, hload'⟩ := readQueueState_persist (hy hdirty).sound.ok hpersist
    exact readBack_of_view (hy hdirty).sound hview hload'

/-- **The queue refines a durable four-level FIFO.** In every run, re-openings
included: the pending lists are the log of arrivals; `claim` hands out the claimable
message of the highest priority that arrived first there, or reports that there is
none; the messages it passes keep their order; and a written state is read back. -/
theorem queue_refines_fifo (cfg : QueueConfig) {history : List (Call × Outcome)} {table : Table}
    (h : QueueRun cfg history table) :
    (∀ p, (readQueueState table).pending p =
      waiting (enqueueLog cfg [] (history.map Prod.fst)) (waitsAt table p)) ∧
    (∀ workerId leaseMs filter uuid clock table' out,
      perform cfg table ⟨.claim workerId leaseMs filter uuid, clock⟩ = (table', out) →
      (∀ c, out = .claimed (some c) → ∃ r, Claimable table clock filter c.messageId r ∧
        ∀ id r', Claimable table clock filter id r' → id = c.messageId ∨
          Ahead (enqueueLog cfg [] (history.map Prod.fst)) r r') ∧
      (out = .claimed none → ∀ id r, ¬ Claimable table clock filter id r) ∧
      ∀ p, ((readQueueState table').pending p).Sublist ((readQueueState table).pending p) ∧
        ∀ id ∈ (readQueueState table).pending p, ∀ r, recordIn table id = some r →
          filter r.envelope = false → isExpired r.envelope (clock (.expiry id)) = false →
          id ∈ (readQueueState table').pending p) ∧
    ∀ call table', (mutate cfg call (readQueueState table)).dirty = true →
      persist (mutate cfg call (readQueueState table)).state = some table' →
      ReadBack (mutate cfg call (readQueueState table)).state (readQueueState table') := by
  refine ⟨pending_log h, fun workerId leaseMs filter uuid clock table' out hperform => ?_,
    fun call table' => written_readBack h.loaded⟩
  obtain ⟨hsome, hnone⟩ := claim_first h hperform
  exact ⟨hsome, hnone, claim_keeps h.loaded hperform⟩

/-- A message requeued behind a later one, and the lists read back after a
re-opening. -/
theorem queue_refines_fifo_requeued :
    let calls : List Call := [⟨.accept (sampleEnvelope "a" none), steadyClock 1⟩,
      sampleClaim "u" 2, ⟨.accept (sampleEnvelope "b" none), steadyClock 3⟩,
      ⟨.requeue "a", steadyClock 4⟩, ⟨.reopen, steadyClock 5⟩]
    enqueueLog {} [] calls = ["a", "b", "a"] ∧
      (readQueueState (runCalls {} calls).2).pending .normal = ["b", "a"] ∧
      (readQueueState (runCalls {} calls).2).pending .normal = waiting
        (enqueueLog {} [] ((runCalls {} calls).1.map Prod.fst)) (waitsAt (runCalls {} calls).2 .normal) := by
  intro calls
  exact ⟨by decide +kernel, by decide +kernel, (queue_refines_fifo {} (runCalls_run {} calls)).1 _⟩

/-- **`claimedAt` is not read back**: `claim` reads the clock twice, for the record
and for the entry of the inflight table, and only the record is stored. -/
theorem claimedAt_not_read_back :
    ¬ ∀ history table, QueueRun {} history table → ∀ call table',
      (mutate {} call (readQueueState table)).dirty = true →
      persist (mutate {} call (readQueueState table)).state = some table' →
      ∀ t, (readQueueState table').inflight.get? t =
        (mutate {} call (readQueueState table)).state.inflight.get? t := by
  intro h
  let calls : List Call := [⟨.accept (sampleEnvelope "a" none), steadyClock 1⟩]
  let call : Call := ⟨.claim "worker" none (fun _ => true) ⟨"u", by decide⟩,
    fun read => if read = .claimed then 3 else 2⟩
  have hread : (persist (mutate {} call (readQueueState (runCalls {} calls).2)).state).map
      (fun table => ((readQueueState table).inflight.get? "u").map ClaimRecord.claimedAt) =
      some (some 2) := by decide +kernel
  have hwritten : ((mutate {} call (readQueueState (runCalls {} calls).2)).state.inflight.get?
      "u").map ClaimRecord.claimedAt = some 3 := by decide +kernel
  obtain ⟨table', hpersist, hentry⟩ := Option.map_eq_some_iff.mp hread
  have heq := h _ _ (runCalls_run {} calls) call table' (by decide +kernel) hpersist "u"
  rw [heq, hwritten] at hentry
  exact absurd hentry (by decide +kernel)

end PulSeed.Queue
