import PulSeed.Queue.Yields
import Mathlib.Data.List.TakeWhile

/-!
# The scan of `claim`

`claim` walks the pending lists in priority order. `View.order` is that walk as one
list of ids; `View.first` is the message the scan stops at, the first one that is
not past its time to live and matches the filter; `View.drops` are the changes on
the way, the expired messages before it. `scanQueue_spec` says that the two nested
loops of the source compute exactly these.
-/

namespace PulSeed.Queue

section

variable (clock : Clock) (filter : Envelope → Bool) (v : View)

/-- `claim` may take the message `id`. -/
def View.eligible (id : String) : Bool :=
  (v.record id).any fun r => !isExpired r.envelope (clock (.expiry id)) && filter r.envelope

/-- What `claim` does to a message that it passes: nothing, unless it has expired. -/
def View.drop (id : String) : Option Change :=
  (v.record id).bind fun r =>
    if isExpired r.envelope (clock (.expiry id)) then some (id, some (droppedRecord clock id r))
    else none

/-- The expired messages of `l` before the first eligible one. -/
def View.drops (l : List String) : List Change :=
  (l.takeWhile fun id => !v.eligible clock filter id).filterMap (v.drop clock)

/-- The first eligible message of `l`, with its record. -/
def View.first (l : List String) : Option (String × QueueRecord) :=
  (l.find? (v.eligible clock filter)).bind fun id => (v.record id).map fun r => (id, r)

end

section

variable {clock : Clock} {filter : Envelope → Bool} {v v' : View} {l l' : List String}
  {id : String} {r : QueueRecord}

theorem eligible_of_record (hr : v.record id = some r) : v.eligible clock filter id =
    (!isExpired r.envelope (clock (.expiry id)) && filter r.envelope) := by
  simp [View.eligible, hr]

theorem drop_eq_some {c : Change} : v.drop clock id = some c ↔ ∃ r, v.record id = some r ∧
    isExpired r.envelope (clock (.expiry id)) = true ∧
    c = (id, some (droppedRecord clock id r)) := by
  simp only [View.drop, Option.bind_eq_some_iff]
  refine exists_congr fun r => and_congr_right fun _ => ?_
  split
  · next h => simp [h, eq_comm]
  · next h => simp [h]

theorem first_eq_some : v.first clock filter l = some (id, r) ↔
    l.find? (v.eligible clock filter) = some id ∧ v.record id = some r := by
  simp only [View.first, Option.bind_eq_some_iff, Option.map_eq_some_iff, Prod.mk.injEq]
  constructor
  · rintro ⟨x, hx, r', hr', rfl, rfl⟩
    exact ⟨hx, hr'⟩
  · rintro ⟨hx, hr⟩
    exact ⟨id, hx, r, hr, rfl, rfl⟩

theorem first_eq_none : v.first clock filter l = none ↔
    ∀ id ∈ l, v.eligible clock filter id = false := by
  have hrec : ∀ id, v.eligible clock filter id = true → ∃ r, v.record id = some r := by
    intro id h
    obtain ⟨r, hr, -⟩ := (Option.any_eq_true _ _).mp h
    exact ⟨r, hr⟩
  constructor
  · intro hnone
    cases hfind : l.find? (v.eligible clock filter) with
    | none => simpa using List.find?_eq_none.mp hfind
    | some x =>
      obtain ⟨r, hr⟩ := hrec x (List.find?_some hfind)
      rw [first_eq_some.mpr ⟨hfind, hr⟩] at hnone
      cases hnone
  · intro h
    have : l.find? (v.eligible clock filter) = none :=
      List.find?_eq_none.mpr fun id hid => by simp [h id hid]
    simp [View.first, this]

/-- A message the scan leaves: it is skipped or dropped. -/
theorem scan_cons_pass (h : v.eligible clock filter id = false) :
    v.first clock filter (id :: l) = v.first clock filter l ∧
      v.drops clock filter (id :: l) = (v.drop clock id).toList ++ v.drops clock filter l := by
  constructor
  · simp [View.first, h]
  · simp only [View.drops, List.takeWhile_cons, h, Bool.not_false, if_true, List.filterMap_cons]
    cases v.drop clock id <;> rfl

/-- The message the scan stops at. -/
theorem scan_cons_hit (h : v.eligible clock filter id = true) (hr : v.record id = some r) :
    v.first clock filter (id :: l) = some (id, r) ∧ v.drops clock filter (id :: l) = [] := by
  constructor
  · exact first_eq_some.mpr ⟨by simp [h], hr⟩
  · simp [View.drops, h]

/-- The scan reads the records of the listed messages only. -/
theorem scan_congr (clock : Clock) (filter : Envelope → Bool) (h : ∀ id ∈ l, v.record id = v'.record id) :
    v.first clock filter l = v'.first clock filter l ∧
      v.drops clock filter l = v'.drops clock filter l := by
  induction l with
  | nil => exact ⟨rfl, rfl⟩
  | cons id rest ih =>
    have hid := h id (List.mem_cons_self ..)
    have hel : v.eligible clock filter id = v'.eligible clock filter id := by
      simp [View.eligible, hid]
    have hdrop : v.drop clock id = v'.drop clock id := by simp [View.drop, hid]
    obtain ⟨ih₁, ih₂⟩ := ih fun x hx => h x (List.mem_cons_of_mem _ hx)
    cases hcase : v'.eligible clock filter id with
    | true =>
      obtain ⟨r, hr, -⟩ := (Option.any_eq_true _ _).mp hcase
      have hhit := scan_cons_hit (l := rest) hcase hr
      have hhit' := scan_cons_hit (l := rest) (hel.trans hcase) (hid.trans hr)
      exact ⟨hhit'.1.trans hhit.1.symm, hhit'.2.trans hhit.2.symm⟩
    | false =>
      have hpass := scan_cons_pass (l := rest) hcase
      have hpass' := scan_cons_pass (l := rest) (hel.trans hcase)
      rw [hpass.1, hpass.2, hpass'.1, hpass'.2, ih₁, ih₂, hdrop]
      exact ⟨rfl, rfl⟩

/-- The scan of a list continues into the next one when it finds nothing. -/
theorem scan_append_none (l' : List String) (h : v.first clock filter l = none) :
    v.first clock filter (l ++ l') = v.first clock filter l' ∧
      v.drops clock filter (l ++ l') = v.drops clock filter l ++ v.drops clock filter l' := by
  have hno := first_eq_none.mp h
  have hfind : l.find? (v.eligible clock filter) = none :=
    List.find?_eq_none.mpr fun id hid => by simp [hno id hid]
  have htake : l.takeWhile (fun id => !v.eligible clock filter id) = l :=
    List.takeWhile_eq_self_iff.mpr fun id hid => by simp [hno id hid]
  constructor
  · simp [View.first, List.find?_append, hfind]
  · unfold View.drops
    rw [List.takeWhile_append_of_pos (fun id hid => by simp [hno id hid]), htake,
      List.filterMap_append]

/-- The scan stops in the first list with an eligible message. -/
theorem scan_append_some (l' : List String) {hit : String × QueueRecord} (h : v.first clock filter l = some hit) :
    v.first clock filter (l ++ l') = some hit ∧
      v.drops clock filter (l ++ l') = v.drops clock filter l := by
  obtain ⟨id, r⟩ := hit
  obtain ⟨hfind, hr⟩ := first_eq_some.mp h
  constructor
  · exact first_eq_some.mpr ⟨by simp [List.find?_append, hfind], hr⟩
  · have hlen : (l.takeWhile fun id => !v.eligible clock filter id).length ≠ l.length := by
      intro heq
      have hall := List.takeWhile_eq_self_iff.mp
        ((List.takeWhile_prefix _).eq_of_length heq) id (List.mem_of_find?_eq_some hfind)
      simp [List.find?_some hfind] at hall
    unfold View.drops
    rw [List.takeWhile_append, if_neg hlen]

/-- Every change of the scan drops a listed message. -/
theorem mem_drops {c : Change} (h : c ∈ v.drops clock filter l) : ∃ id ∈ l, ∃ r,
    v.record id = some r ∧ isExpired r.envelope (clock (.expiry id)) = true ∧
      c = (id, some (droppedRecord clock id r)) := by
  obtain ⟨id, hid, hc⟩ := List.mem_filterMap.mp h
  exact ⟨id, (List.takeWhile_sublist _).mem hid, drop_eq_some.mp hc⟩

theorem drops_keys_sublist : ((v.drops clock filter l).map Prod.fst).Sublist l := by
  have hkey : ∀ id, (v.drop clock id).map Prod.fst =
      if (v.drop clock id).isSome then some id else none := by
    intro id
    cases hd : v.drop clock id with
    | none => rfl
    | some c =>
      obtain ⟨r, -, -, rfl⟩ := drop_eq_some.mp hd
      rfl
  unfold View.drops
  rw [List.map_filterMap]
  refine List.Sublist.trans ?_ (List.takeWhile_sublist fun id => !v.eligible clock filter id)
  rw [funext hkey]
  have hfilter : ∀ l : List String, (l.filterMap fun id =>
      if (v.drop clock id).isSome then some id else none) =
      l.filter fun id => (v.drop clock id).isSome := fun l => by
    rw [← List.filterMap_eq_filter]
    rfl
  rw [hfilter]
  exact List.filter_sublist

/-- The message the scan stops at is pending and not among the dropped ones. -/
theorem first_hit (hv : v.Ok) (h : v.first clock filter v.order = some (id, r)) :
    v.record id = some r ∧ r.status = .pending ∧ filter r.envelope = true ∧
      id ∉ (v.drops clock filter v.order).map Prod.fst := by
  obtain ⟨hfind, hr⟩ := first_eq_some.mp h
  have hel := List.find?_some hfind
  rw [eligible_of_record hr, Bool.and_eq_true, Bool.not_eq_true'] at hel
  obtain ⟨r₀, hr₀, hst⟩ := hv.mem_order.mp (List.mem_of_find?_eq_some hfind)
  obtain rfl : r = r₀ := Option.some.inj (hr.symm.trans hr₀)
  refine ⟨hr, hst, hel.2, fun hmem => ?_⟩
  obtain ⟨c, hc, hcid⟩ := List.mem_map.mp hmem
  obtain ⟨x, -, rx, hrx, hexp, rfl⟩ := mem_drops hc
  obtain rfl : x = id := hcid
  obtain rfl : r = rx := Option.some.inj (hr.symm.trans hrx)
  exact absurd (hexp.symm.trans hel.1) (by simp)

theorem drops_nodup (hv : v.Ok) (clock : Clock) (filter : Envelope → Bool) :
    ((v.drops clock filter v.order).map Prod.fst).Nodup :=
  hv.order_nodup.sublist drops_keys_sublist

/-- Only pending messages are dropped. -/
theorem drop_pending (hv : v.Ok) {r? : Option QueueRecord}
    (h : (id, r?) ∈ v.drops clock filter v.order) :
    ∃ r, v.record id = some r ∧ r.status = .pending ∧
      isExpired r.envelope (clock (.expiry id)) = true ∧
      r? = some (droppedRecord clock id r) := by
  obtain ⟨id', hid, r, hr, hexp, heq⟩ := mem_drops h
  obtain ⟨rfl, rfl⟩ := Prod.mk.inj heq
  obtain ⟨r₀, hr₀, hst⟩ := hv.mem_order.mp hid
  obtain rfl : r = r₀ := Option.some.inj (hr.symm.trans hr₀)
  exact ⟨r, hr, hst, hexp, rfl⟩

end

/-! ## The loops of the source -/

/-- The list of a pending message after `splice`. -/
theorem splice_eq {s : QueueState} (h : s.view.Ok) {p : EnvelopePriority} {kept rest : List String}
    {id : String} (hp : s.pending p = kept ++ id :: rest) :
    Function.update s.pending p (kept ++ rest) =
      fun q => (s.pending q).filter fun x => x ≠ id := by
  have hnodup : (kept ++ id :: rest).Nodup := hp ▸ h.pending_nodup p
  have hout : id ∉ kept ++ rest := (List.nodup_middle.mp hnodup).notMem
  rw [List.mem_append, not_or] at hout
  funext q
  by_cases hq : q = p
  · subst hq
    have hkept : kept.filter (fun x => decide (x ≠ id)) = kept :=
      List.filter_eq_self.mpr fun x hx => decide_eq_true fun (e : x = id) => hout.1 (e ▸ hx)
    have hrest : rest.filter (fun x => decide (x ≠ id)) = rest :=
      List.filter_eq_self.mpr fun x hx => decide_eq_true fun (e : x = id) => hout.2 (e ▸ hx)
    rw [Function.update_self, hp, List.filter_append, List.filter_cons_of_neg (by simp), hkept,
      hrest]
  · rw [Function.update_of_ne hq]
    symm
    refine List.filter_eq_self.mpr fun x hx => decide_eq_true fun (e : x = id) => hq ?_
    obtain ⟨r, hr, -, hrq⟩ := h.pending_iff.mp (show id ∈ s.view.pending q from e ▸ hx)
    obtain ⟨r', hr', -, hrp⟩ := h.pending_iff.mp
      (show id ∈ s.view.pending p by rw [view_pending, hp]; simp)
    obtain rfl : r = r' := Option.some.inj (hr.symm.trans hr')
    exact hrq.symm.trans hrp

/-- Dropping an expired message. -/
theorem yields_drop (clock : Clock) {s : QueueState} (hs : Sound s) {p : EnvelopePriority}
    {kept rest : List String} {id : String} {r : QueueRecord}
    (hp : s.pending p = kept ++ id :: rest) (hr : s.records.get? id = some r) :
    Yields s [(id, some (droppedRecord clock id r))]
      { s with
        records := s.records.set id (droppedRecord clock id r)
        pending := Function.update s.pending p (kept ++ rest) } := by
  have hst : r.status = .pending := by
    obtain ⟨r', hr', hst, -⟩ := hs.ok.pending_iff.mp
      (show id ∈ s.view.pending p by rw [view_pending, hp]; simp)
    obtain rfl : r = r' := Option.some.inj (hr.symm.trans hr')
    exact hst
  have hfree := (hs.ok.lease hr).settled (by simp [hst])
  refine Yields.release hs ?_ ?_ fun t => ?_
  · refine View.ext (ObjectMap.get?_set_eq_update ..) ?_
    rw [put_pending_remove _ (by simp [droppedRecord])]
    exact splice_eq hs.ok hp
  · rintro _ ⟨⟩
    exact ⟨hs.ok.ids (r := r) hr, by simp [droppedRecord], hfree⟩
  · simp [tokenOf, hr, hfree.1]

/-- Take the message of a hit off the pending lists. -/
def QueueState.takeOff (s : QueueState) : Option (String × QueueRecord) → QueueState
  | none => s
  | some hit => { s with pending := fun p => (s.pending p).filter fun x => x ≠ hit.1 }

section

variable (clock : Clock) (filter : Envelope → Bool)

/-- **The loop over one pending list**: the entries before `index` are `kept`, the
others are `l`. -/
theorem scanBucket_spec (p : EnvelopePriority) {l : List String} (dirty : Bool) {s : QueueState}
    (hs : Sound s) {kept : List String} (hp : s.pending p = kept ++ l) :
    ∃ s', Yields s (s.view.drops clock filter l) s' ∧
      (∀ q ≠ p, s'.pending q = s.pending q) ∧
      (∀ id ∉ l, s'.records.get? id = s.records.get? id) ∧
      (scanBucket clock filter dirty s.records kept l).dirty =
        (dirty || !(s.view.drops clock filter l).isEmpty) ∧
      (scanBucket clock filter dirty s.records kept l).hit = s.view.first clock filter l ∧
      { s with
        records := (scanBucket clock filter dirty s.records kept l).records
        pending := Function.update s.pending p
          (scanBucket clock filter dirty s.records kept l).bucket } =
        s'.takeOff (s.view.first clock filter l) := by
  induction l generalizing s kept dirty with
  | nil =>
    rw [List.append_nil] at hp
    refine ⟨s, Yields.refl hs, fun _ _ => rfl, fun _ _ => rfl, by simp [scanBucket, View.drops],
      rfl, ?_⟩
    simp [scanBucket, ← hp, View.first, QueueState.takeOff]
  | cons id rest ih =>
    have hmem : id ∈ s.view.pending p := by rw [view_pending, hp]; simp
    obtain ⟨r, hr, hst, -⟩ := hs.ok.pending_iff.mp hmem
    have hget : s.records.get? id = some r := hr
    by_cases hexp : isExpired r.envelope (clock (.expiry id)) = true
    · -- expired: the message is dropped and the scan goes on in the state without it
      have hy := yields_drop clock hs hp hget
      have hnodup : (kept ++ id :: rest).Nodup := hp ▸ hs.ok.pending_nodup p
      have hrest : id ∉ rest := fun h =>
        (List.nodup_middle.mp hnodup).notMem (List.mem_append_right _ h)
      obtain ⟨s', hs', hq, hrec, hdirty, hhit, hstate⟩ := ih true hy.sound
        (Function.update_self ..)
      have hsame : ∀ x ∈ rest, (s.view.put id (some (droppedRecord clock id r))).record x =
          s.view.record x := by
        intro x hx
        rw [put_record, if_neg fun (e : x = id) => hrest (e ▸ hx)]
      rw [hy.view] at hs' hdirty hhit hstate
      have hcongr := scan_congr clock filter hsame
      rw [View.puts, List.foldl_cons, List.foldl_nil, hcongr.1] at hhit hstate
      rw [View.puts, List.foldl_cons, List.foldl_nil, hcongr.2] at hs' hdirty
      have hpass := scan_cons_pass (l := rest)
        (show s.view.eligible clock filter id = false by rw [eligible_of_record hr]; simp [hexp])
      have hdrop : s.view.drop clock id = some (id, some (droppedRecord clock id r)) :=
        drop_eq_some.mpr ⟨r, hr, hexp, rfl⟩
      have hscan : scanBucket clock filter dirty s.records kept (id :: rest) =
          scanBucket clock filter true (s.records.set id (droppedRecord clock id r)) kept rest := by
        simp [scanBucket, hget, hst, hexp]
      rw [hscan, hpass.1, hpass.2, hdrop]
      refine ⟨s', hy.trans hs', fun q hqp => ?_, fun x hx => ?_, ?_, hhit, ?_⟩
      · exact (hq q hqp).trans (Function.update_of_ne hqp ..)
      · rw [List.mem_cons, not_or] at hx
        rw [hrec x hx.2, ObjectMap.get?_set, if_neg hx.1]
      · rw [hdirty]; simp
      · rw [← hstate, Function.update_idem]
    · by_cases hfil : filter r.envelope = true
      · -- the message to claim
        have hhit := scan_cons_hit (l := rest)
          (show s.view.eligible clock filter id = true by
            rw [eligible_of_record hr]; simp [hexp, hfil]) hr
        have hscan : scanBucket clock filter dirty s.records kept (id :: rest) =
            ⟨dirty, s.records, kept ++ rest, some (id, r)⟩ := by
          simp [scanBucket, hget, hst, hexp, hfil]
        rw [hscan, hhit.1, hhit.2]
        refine ⟨s, Yields.refl hs, fun _ _ => rfl, fun _ _ => rfl, by simp, rfl, ?_⟩
        simp [QueueState.takeOff, splice_eq hs.ok hp]
      · -- not matching: the message keeps its place
        have hp' : s.pending p = (kept ++ [id]) ++ rest := by simp [hp]
        obtain ⟨s', hs', hq, hrec, hdirty, hhit, hstate⟩ := ih dirty hs hp'
        have hpass := scan_cons_pass (l := rest)
          (show s.view.eligible clock filter id = false by
            rw [eligible_of_record hr]; simp [hfil])
        have hdrop : s.view.drop clock id = none := by
          cases hd : s.view.drop clock id with
          | none => rfl
          | some c =>
            obtain ⟨r', hr', hexp', -⟩ := drop_eq_some.mp hd
            obtain rfl : r = r' := Option.some.inj (hr.symm.trans hr')
            exact absurd hexp' hexp
        have hscan : scanBucket clock filter dirty s.records kept (id :: rest) =
            scanBucket clock filter dirty s.records (kept ++ [id]) rest := by
          simp [scanBucket, hget, hst, hexp, hfil]
        rw [hscan, hpass.1, hpass.2, hdrop]
        exact ⟨s', hs', hq, fun x hx => hrec x fun h => hx (List.mem_cons_of_mem _ h), hdirty,
          hhit, hstate⟩

/-- **The loop over the priorities.** -/
theorem scanQueue_spec (ps : List EnvelopePriority) (hps : ps.Nodup) (dirty : Bool)
    {s : QueueState} (hs : Sound s) :
    ∃ s', Yields s (s.view.drops clock filter (ps.flatMap s.pending)) s' ∧
      scanQueue clock filter dirty s ps =
        (dirty || !(s.view.drops clock filter (ps.flatMap s.pending)).isEmpty,
         s'.takeOff (s.view.first clock filter (ps.flatMap s.pending)),
         s.view.first clock filter (ps.flatMap s.pending)) := by
  induction ps generalizing s dirty with
  | nil => exact ⟨s, Yields.refl hs, by simp [scanQueue, View.drops, View.first, QueueState.takeOff]⟩
  | cons p ps ih =>
    rw [List.nodup_cons] at hps
    obtain ⟨s₁, hy, hq, hrec, hdirty, hhit, hstate⟩ :=
      scanBucket_spec clock filter p dirty hs (List.nil_append (s.pending p)).symm
    unfold scanQueue
    simp only [hdirty, hhit, hstate, List.flatMap_cons]
    cases hfirst : s.view.first clock filter (s.pending p) with
    | some hit =>
      have happ := scan_append_some (ps.flatMap s.pending) hfirst
      rw [happ.1, happ.2]
      exact ⟨s₁, hy, rfl⟩
    | none =>
      have happ := scan_append_none (ps.flatMap s.pending) hfirst
      obtain ⟨s', hy', heq⟩ := ih hps.2 (dirty || !(s.view.drops clock filter (s.pending p)).isEmpty)
        hy.sound
      -- the later lists and their records are as before the scan of this one
      have hlists : ps.flatMap s₁.pending = ps.flatMap s.pending :=
        List.flatMap_congr fun q hqps => hq q fun e => hps.1 (e ▸ hqps)
      have hsame : ∀ x ∈ ps.flatMap s.pending, s₁.view.record x = s.view.record x := by
        intro x hx
        obtain ⟨q, hqps, hxq⟩ := List.mem_flatMap.mp hx
        refine hrec x fun hxp => hps.1 ?_
        obtain ⟨r, hr, -, hrp⟩ := hs.ok.pending_iff.mp (show x ∈ s.view.pending p from hxp)
        obtain ⟨r', hr', -, hrq⟩ := hs.ok.pending_iff.mp (show x ∈ s.view.pending q from hxq)
        obtain rfl : r = r' := Option.some.inj (hr.symm.trans hr')
        exact (hrp.symm.trans hrq) ▸ hqps
      have hcongr := scan_congr clock filter hsame
      rw [hlists, hcongr.1, hcongr.2] at heq
      rw [hlists, hcongr.2] at hy'
      refine ⟨s', ?_, ?_⟩
      · rw [happ.2]; exact hy.trans hy'
      · simp only [QueueState.takeOff] at heq ⊢
        have hempty : ∀ a b : List Change, (!(a ++ b).isEmpty) = (!a.isEmpty || !b.isEmpty) := by
          intro a b
          cases a <;> simp
        rw [heq, happ.1, happ.2, hempty, Bool.or_assoc]

end

end PulSeed.Queue
