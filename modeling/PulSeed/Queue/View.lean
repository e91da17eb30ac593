import PulSeed.Queue.State

/-!
# The representation invariant

Of the three structures of a queue state the inflight table is redundant: it is
rebuilt from the records whenever the state is loaded. What an operation does is
therefore stated on the `View` of a state, its records and pending lists, and the
inflight table is tied to the records by `InflightAgrees` (in memory, after an
operation) and `InflightExact` (in a loaded state, where `claimedAt` too is
derived from the record).

`View.Ok` is the representation invariant. Every operation of the queue is a list
of single-record changes, `View.puts`, so the invariant is re-established once,
for `View.put`.
-/

namespace PulSeed.Queue

/-- The records and the pending lists of a state. -/
@[ext]
structure View where
  record : String → Option QueueRecord
  pending : EnvelopePriority → List String

/-- The view of a state. -/
def QueueState.view (s : QueueState) : View := ⟨s.records.get?, s.pending⟩

@[simp] theorem view_record (s : QueueState) : s.view.record = s.records.get? := rfl

@[simp] theorem view_pending (s : QueueState) : s.view.pending = s.pending := rfl

/-- The members a record has exactly while it is claimed. -/
structure LeaseFields (r : QueueRecord) : Prop where
  inflight : r.status = .inflight →
    ∃ t w l, r.claimToken = some t ∧ t ≠ "" ∧ r.workerId = some w ∧ r.leaseUntil = some l
  settled : r.status ≠ .inflight →
    r.claimToken = none ∧ r.workerId = none ∧ r.leaseUntil = none

theorem LeaseFields.inflight_of_token {r : QueueRecord} (h : LeaseFields r) {t : String}
    (ht : r.claimToken = some t) : r.status = .inflight := by
  by_contra hne
  rw [(h.settled hne).1] at ht
  cases ht

/-- `r` waits in the pending list of priority `p`. -/
def QueueRecord.PendingAt (r : QueueRecord) (p : EnvelopePriority) : Prop :=
  r.status = .pending ∧ r.envelope.priority = p

instance (r : QueueRecord) (p : EnvelopePriority) : Decidable (r.PendingAt p) :=
  inferInstanceAs (Decidable (_ ∧ _))

/-- **The representation invariant** of records and pending lists. -/
structure View.Ok (v : View) : Prop where
  ids : ∀ {id r}, v.record id = some r → r.envelope.id = id
  pending_iff : ∀ {p id}, id ∈ v.pending p ↔ ∃ r, v.record id = some r ∧ r.PendingAt p
  pending_nodup : ∀ p, (v.pending p).Nodup
  lease : ∀ {id r}, v.record id = some r → LeaseFields r
  token_inj : ∀ {id id' r r' t}, v.record id = some r → v.record id' = some r' →
    r.claimToken = some t → r'.claimToken = some t → id = id'

/-- Every entry of the inflight table is confirmed by its record, and every
record of status `inflight` has its entry. -/
structure InflightAgrees (s : QueueState) : Prop where
  sound : ∀ {t c}, s.inflight.get? t = some c → ∃ r, s.records.get? c.messageId = some r ∧
    r.status = .inflight ∧ r.claimToken = some t ∧ r.workerId = some c.workerId ∧
    r.leaseUntil = some c.leaseUntil ∧ r.attempt = c.attempt
  complete : ∀ {id r t}, s.records.get? id = some r → r.status = .inflight →
    r.claimToken = some t → ∃ c, s.inflight.get? t = some c ∧ c.messageId = id

/-- The inflight table of a loaded state: entries and inflight records determine
each other, `claimedAt` being the record's `updatedAt`. -/
def InflightExact (s : QueueState) : Prop :=
  ∀ t c, s.inflight.get? t = some c ↔ ∃ r, s.records.get? c.messageId = some r ∧
    r.status = .inflight ∧ r.claimToken = some t ∧ c = r.claimRecord c.messageId

theorem InflightExact.agrees {s : QueueState} (h : InflightExact s) (hv : s.view.Ok) :
    InflightAgrees s where
  sound := by
    intro t c hget
    obtain ⟨r, hr, hst, htok, hc⟩ := (h t c).mp hget
    obtain ⟨-, w, l, -, -, hw, hl⟩ := (hv.lease hr).inflight hst
    refine ⟨r, hr, hst, htok, ?_, ?_, ?_⟩
    · rw [hc, hw]; simp [QueueRecord.claimRecord, hw]
    · rw [hc, hl]; simp [QueueRecord.claimRecord, hl]
    · rw [hc]; rfl
  complete := by
    intro id r t hr hst htok
    exact ⟨r.claimRecord id, (h t _).mpr ⟨r, hr, hst, htok, rfl⟩, rfl⟩

/-- All pending ids: by priority, and within a priority in list order. -/
def View.order (v : View) : List String := priorityOrder.flatMap v.pending

/-- Every pending id stands in one list, once. -/
theorem View.Ok.order_nodup {v : View} (h : v.Ok) : v.order.Nodup := by
  refine List.nodup_flatMap.mpr ⟨fun p _ => h.pending_nodup p, ?_⟩
  have hdisj : ∀ p q, p ≠ q → List.Disjoint (v.pending p) (v.pending q) := by
    intro p q hpq id hp hq
    obtain ⟨r, hr, -, hrp⟩ := h.pending_iff.mp hp
    obtain ⟨r', hr', -, hrq⟩ := h.pending_iff.mp hq
    obtain rfl : r = r' := Option.some.inj (hr.symm.trans hr')
    exact hpq (hrp.symm.trans hrq)
  simp [priorityOrder, Function.onFun, hdisj]

theorem View.Ok.mem_order {v : View} (h : v.Ok) {id : String} :
    id ∈ v.order ↔ ∃ r, v.record id = some r ∧ r.status = .pending := by
  unfold View.order
  rw [List.mem_flatMap]
  constructor
  · rintro ⟨p, -, hp⟩
    obtain ⟨r, hr, hst, -⟩ := h.pending_iff.mp hp
    exact ⟨r, hr, hst⟩
  · rintro ⟨r, hr, hst⟩
    exact ⟨r.envelope.priority, mem_priorityOrder _, h.pending_iff.mpr ⟨r, hr, hst, rfl⟩⟩

/-! ## Single-record changes -/

/-- Replace the record of one message (`none`: delete it) and bring the pending
lists up to date: the id leaves its list and, when the new record is pending,
joins the end of the list of its priority. -/
def View.put (v : View) (id : String) (r? : Option QueueRecord) : View where
  record := Function.update v.record id r?
  pending := fun p => (v.pending p).filter (fun x => x ≠ id) ++
    if r?.any (fun r => r.PendingAt p) then [id] else []

/-- A list of single-record changes, performed in order. -/
def View.puts (v : View) (changes : List (String × Option QueueRecord)) : View :=
  changes.foldl (fun v c => v.put c.1 c.2) v

@[simp] theorem puts_nil (v : View) : v.puts [] = v := rfl

theorem puts_append (v : View) (l l' : List (String × Option QueueRecord)) :
    v.puts (l ++ l') = (v.puts l).puts l' := List.foldl_append ..

theorem put_record (v : View) (id x : String) (r? : Option QueueRecord) :
    (v.put id r?).record x = if x = id then r? else v.record x := by
  by_cases h : x = id
  · subst h; simp [View.put]
  · simp [View.put, h]

/-- Changes to distinct messages act independently on the records. -/
theorem puts_record {l : List (String × Option QueueRecord)} (h : (l.map Prod.fst).Nodup)
    (v : View) (x : String) :
    (v.puts l).record x = ((l.find? fun c => decide (c.1 = x)).map Prod.snd).getD (v.record x) := by
  induction l generalizing v with
  | nil => rfl
  | cons c rest ih =>
    rw [List.map_cons, List.nodup_cons] at h
    show ((v.put c.1 c.2).puts rest).record x = _
    rw [ih h.2, put_record]
    by_cases hx : x = c.1
    · subst hx
      have hnone : rest.find? (fun c' => decide (c'.1 = c.1)) = none := by
        refine List.find?_eq_none.mpr fun c' hc' => ?_
        simpa using fun heq : c'.1 = c.1 => h.1 (heq ▸ List.mem_map_of_mem hc')
      simp [hnone]
    · rw [if_neg hx, List.find?_cons_of_neg (by simpa using fun e => hx e.symm)]

theorem puts_record_of_mem {l : List (String × Option QueueRecord)}
    (h : (l.map Prod.fst).Nodup) (v : View) {x : String} {r? : Option QueueRecord}
    (hmem : (x, r?) ∈ l) : (v.puts l).record x = r? := by
  rw [puts_record h]
  have : l.find? (fun c => decide (c.1 = x)) = some (x, r?) :=
    ObjectMap.find?_entry h hmem
  rw [this]
  rfl

theorem puts_record_of_not_mem {l : List (String × Option QueueRecord)}
    (h : (l.map Prod.fst).Nodup) (v : View) {x : String} (hx : x ∉ l.map Prod.fst) :
    (v.puts l).record x = v.record x := by
  have : l.find? (fun c => decide (c.1 = x)) = none := by
    refine List.find?_eq_none.mpr fun c hc => ?_
    simpa using fun heq : c.1 = x => hx (heq ▸ List.mem_map_of_mem hc)
  rw [puts_record h, this]
  rfl

/-- The pending lists after changes to distinct messages: the changed ids leave,
those that are pending now are appended in the order of the changes. -/
theorem puts_pending {l : List (String × Option QueueRecord)} (h : (l.map Prod.fst).Nodup)
    (v : View) (p : EnvelopePriority) :
    (v.puts l).pending p = (v.pending p).filter (fun x => x ∉ l.map Prod.fst) ++
      (l.filter fun c => c.2.any fun r => r.PendingAt p).map Prod.fst := by
  induction l generalizing v with
  | nil => simp
  | cons c rest ih =>
    rw [List.map_cons, List.nodup_cons] at h
    show ((v.put c.1 c.2).puts rest).pending p = _
    rw [ih h.2]
    have hkeep : List.filter (fun x => decide (x ∉ rest.map Prod.fst))
        (if c.2.any (fun r => decide (r.PendingAt p)) then [c.1] else []) =
        if c.2.any (fun r => decide (r.PendingAt p)) then [c.1] else [] := by
      split
      · simpa using h.1
      · rfl
    show List.filter _ (List.filter _ (v.pending p) ++ _) ++ _ = _
    rw [List.filter_append, hkeep, List.filter_filter, List.append_assoc]
    congr 1
    · refine List.filter_congr fun x _ => ?_
      have : x ∉ (c :: rest).map Prod.fst ↔ x ∉ rest.map Prod.fst ∧ x ≠ c.1 := by
        rw [List.map_cons, List.mem_cons, not_or, and_comm]
      simp only [this, Bool.decide_and]
    · rw [List.filter_cons]
      split <;> simp_all

/-- **One change re-establishes the invariant**: the new record sits under its
own id, its lease members fit its status, and no other record has its token. -/
theorem View.Ok.put {v : View} (hv : v.Ok) {id : String} {r? : Option QueueRecord}
    (hid : ∀ r ∈ r?, r.envelope.id = id) (hlease : ∀ r ∈ r?, LeaseFields r)
    (htok : ∀ r ∈ r?, ∀ t, r.claimToken = some t → ∀ id' r', id' ≠ id →
      v.record id' = some r' → r'.claimToken ≠ some t) : (v.put id r?).Ok where
  ids := by
    intro x r hr
    rw [put_record] at hr
    split at hr
    · next hx => rw [hx]; exact hid r hr
    · exact hv.ids hr
  pending_iff := by
    intro p x
    show x ∈ List.filter _ (v.pending p) ++ _ ↔ _
    rw [List.mem_append, List.mem_filter, put_record, hv.pending_iff]
    by_cases hx : x = id
    · subst hx
      cases r? with
      | none => simp
      | some r => simp
    · have hne : x ∉ (if r?.any (fun r => decide (r.PendingAt p)) then [id] else []) := by
        split <;> simp [hx]
      simp [hx, hne]
  pending_nodup := by
    intro p
    refine List.Nodup.append ((hv.pending_nodup p).filter _) (by split <;> simp) ?_
    intro x hx hx'
    have hxid : x = id := by
      split at hx'
      · simpa using hx'
      · simp at hx'
    simpa [hxid] using (List.mem_filter.mp hx).2
  lease := by
    intro x r hr
    rw [put_record] at hr
    split at hr
    · exact hlease r hr
    · exact hv.lease hr
  token_inj := by
    intro x x' r r' t hr hr' ht ht'
    rw [put_record] at hr hr'
    split at hr <;> split at hr'
    · next hx hx' => rw [hx, hx']
    · next hx hx' => exact absurd ht' (htok r hr t ht x' r' hx' hr')
    · next hx hx' => exact absurd ht (htok r' hr' t ht' x r hx hr)
    · exact hv.token_inj hr hr' ht ht'

theorem empty_ok : (buildEmptyState.view).Ok where
  ids := nofun
  pending_iff := by simp [buildEmptyState]
  pending_nodup := by simp [buildEmptyState]
  lease := nofun
  token_inj := nofun

end PulSeed.Queue
