import Mathlib.Data.List.Pairwise
import PulSeed.Schedule.ExternalSync

/-!
# What a synchronisation reconciles

After a synchronisation the enabled entries of a source should be those it was fetched with,
the entries of other sources and of no source should be untouched, and the same
synchronisation should find nothing left to do (`Reconciled`).

The last pass disables an entry whose key is not among the keys of the fetched entries. The
key is the source id and the external id with a colon between them, while entries are found
by the two ids apart: source `a` with id `b:c` and source `a:b` with id `c` have one key. An
entry that its source no longer has stays enabled when another entry with its key is fetched
(`colliding_stays`), and `sync_reconciles_iff` says when a synchronisation does reconcile.
-/

namespace PulSeed

namespace Schedule

variable {nextCron : NextCron}

/-! ## The same synchronisation again -/

/-- The same answer of a source, later. -/
structure Fetch.Again (fetch fetch' : Fetch) : Prop where
  sourceId : fetch'.sourceId = fetch.sourceId
  outcome : fetch'.outcome = fetch.outcome
  clock : 0 ≤ fetch.reading.now ∧ fetch.reading.now ≤ fetch'.reading.now

theorem date_eq_none_iff {ms : ℚ} (h : 0 ≤ ms) : date ms = none ↔ 8640000000000000 < ms := by
  simp [date, abs_of_nonneg h]

theorem le_of_date {ms t : ℚ} (hms : 0 ≤ ms) (h : date ms = some t) : t ≤ ms := by
  unfold date at h
  split at h
  · cases h
    exact Int.floor_le ms
  · cases h

/-- An interval that has no next time has none later. -/
theorem computeNextFireAt_interval_later {seconds : ℕ} {now now' : Millis} {random random' : ℚ}
    (hnow : 0 ≤ now) (hle : now ≤ now')
    (h : computeNextFireAt nextCron (.interval seconds 0) now random = none) :
    computeNextFireAt nextCron (.interval seconds 0) now' random' = none := by
  have hseconds : (0 : ℚ) ≤ seconds * 1000 := by positivity
  have hnow' : 0 ≤ now' := hnow.trans hle
  simp only [computeNextFireAt, lt_self_iff_false, if_false, Option.bind_some,
    Option.bind_eq_none_iff] at h ⊢
  intro t' ht'
  have hdate' : ¬ 8640000000000000 < now' + seconds * 1000 := fun hlt =>
    absurd ((date_eq_none_iff (by linarith)).mpr hlt ▸ ht') nofun
  cases hdate : date (now + seconds * 1000) with
  | none =>
    have hlt := (date_eq_none_iff (by linarith)).mp hdate
    exact absurd (by linarith) hdate'
  | some t =>
    have hfirst := h t hdate
    split at hfirst
    · -- the least delay is out of range, so the interval is shorter than it
      have hleast := (date_eq_none_iff (by linarith)).mp hfirst
      have hshort : t' < now' + 1000 := by
        have hle' : t' ≤ now' + seconds * 1000 := le_of_date (by linarith) ht'
        linarith
      rw [if_pos hshort]
      exact (date_eq_none_iff (by linarith)).mpr (by linarith)
    · cases hfirst

theorem buildExternalScheduleEntryInput_trigger {external : ExternalScheduleEntry}
    {input : EntryInput} (h : buildExternalScheduleEntryInput external = some input) :
    input.trigger = external.entryTrigger := by
  unfold buildExternalScheduleEntryInput at h
  dsimp only at h
  split at h <;>
  · obtain ⟨config, -, rfl⟩ := Option.map_eq_some_iff.mp h
    rfl

/-- A trigger of a fetched entry that has no next time has none later. -/
theorem computeNextFireAt_later
    (hcron : ∀ expression timezone now now', nextCron expression timezone now = none →
      nextCron expression timezone now' = none)
    (external : ExternalScheduleEntry) {now now' : Millis} {random random' : ℚ} (hnow : 0 ≤ now)
    (hle : now ≤ now')
    (h : computeNextFireAt nextCron external.entryTrigger now random = none) :
    computeNextFireAt nextCron external.entryTrigger now' random' = none := by
  unfold ExternalScheduleEntry.entryTrigger at h ⊢
  split at h
  · exact hcron _ _ now now' h
  · exact computeNextFireAt_interval_later hnow hle h

/-- A stored entry that holds what is fetched stays as it is. -/
theorem storeExternal_settled {r : Reading} {external : ExternalScheduleEntry} {input : EntryInput}
    {acc : SourceState} {head : ScheduleEntry}
    (hfind : acc.entries.find? (isExternalEntry external) = some head) (hholds : Holds input head) :
    storeExternal nextCron external input r acc = .ok acc := by
  unfold storeExternal
  rw [List.find?_eq_bind_findIdx?_getElem?] at hfind
  obtain ⟨idx, hidx, hget⟩ := Option.bind_eq_some_iff.mp hfind
  simp only [hidx, hget, externalCandidate_self hholds]
  simp [bind, Except.bind, pure, Except.pure]

/-- The entries hold what is fetched, as far as it is stored. -/
def Settled (nextCron : NextCron) (r : Reading) (entries : List ScheduleEntry)
    (raws : List (Except String ExternalScheduleEntry)) : Prop :=
  ∀ x ∈ lookedUp nextCron r entries raws, stuck nextCron r entries x.1 x.2 = false →
    ∃ head, entries.find? (isExternalEntry x.1) = some head ∧ Holds x.2 head

/-- Fetched entries that change nothing, by induction on them. -/
theorem syncEntries_settled {sourceId : String} {r : Reading}
    {raws : List (Except String ExternalScheduleEntry)} {acc acc' : SourceState}
    {stop : Option Stop} (hsettled : Settled nextCron r acc.entries raws)
    (h : syncEntries nextCron sourceId r acc raws = (acc', stop)) :
    acc'.entries = acc.entries ∧ acc'.sync.added = acc.sync.added ∧
      acc'.sync.updated = acc.sync.updated := by
  induction raws generalizing acc with
  | nil =>
    cases h
    exact ⟨rfl, rfl, rfl⟩
  | cons raw raws ih =>
    unfold syncEntries at h
    cases raw with
    | error message => exact @ih (acc.skip sourceId message) hsettled h
    | ok external =>
      cases hbuild : buildExternalScheduleEntryInput external with
      | none =>
        rw [Settled, lookedUp, hbuild] at hsettled
        rw [syncEntry_none hbuild] at h
        exact @ih (acc.withoutConfig external) hsettled h
      | some input =>
        rw [Settled, lookedUp, hbuild] at hsettled
        rw [syncEntry_some hbuild] at h
        cases hstuck : stuck nextCron r acc.entries external input with
        | true =>
          -- what is stuck is looked up and ends the source
          cases hstore : storeExternal nextCron external input r (acc.lookUp external) with
          | ok acc₁ =>
            have hfree := (storeExternal_ok hbuild hstore).2
            exact absurd (hfree.symm.trans hstuck) Bool.false_ne_true
          | error stop' =>
            rw [hstore] at h
            obtain ⟨rfl, rfl⟩ : acc.lookUp external = acc' ∧ some stop' = stop := by simpa using h
            exact ⟨rfl, rfl, rfl⟩
        | false =>
          obtain ⟨head, hfind, hholds⟩ := hsettled (external, input) List.mem_cons_self hstuck
          have hstore : storeExternal nextCron external input r (acc.lookUp external) =
              .ok (acc.lookUp external) := storeExternal_settled hfind hholds
          rw [hstore] at h
          refine @ih (acc.lookUp external) (fun x hx => hsettled x ?_) h
          simp only [hstuck]
          exact List.mem_cons_of_mem _ hx

/-- Sources that change nothing: only the last pass can. -/
theorem syncFrom_settled {fetches : List Fetch} {entries : List ScheduleEntry} {sync : SyncState}
    {now : Millis} {result : SyncResult}
    (hsettled : ∀ fetch ∈ fetches, ∀ raws, fetch.outcome = .fetched raws →
      Settled nextCron fetch.reading entries raws)
    (h : syncFrom nextCron sync now entries fetches = .ok result) :
    (∃ now', result.entries = disableMissing result.sync now' entries) ∧
      result.saved = result.sync.changed entries ∧
      result.sync.added = sync.added ∧ result.sync.updated = sync.updated := by
  induction fetches generalizing sync now with
  | nil =>
    cases h
    exact ⟨⟨now, rfl⟩, rfl, rfl, rfl⟩
  | cons fetch fetches ih =>
    have hrest := fun fetch hmem => hsettled fetch (List.mem_cons_of_mem _ hmem)
    unfold syncFrom at h
    split at h
    · next failure houtcome =>
      exact @ih (sync.failed fetch.sourceId failure.message) _ hrest h
    · next raws houtcome =>
      obtain ⟨⟨entries', sync'⟩, hsource, hsync⟩ := bind_ok_iff.mp h
      have hsame : entries' = entries ∧ sync'.added = sync.added ∧ sync'.updated = sync.updated := by
        unfold syncSource at hsource
        split at hsource
        · next acc hentries =>
          have hstate := syncEntries_settled (hsettled fetch List.mem_cons_self raws houtcome) hentries
          cases hsource
          split <;> exact hstate
        · next acc hentries =>
          have hstate := syncEntries_settled (hsettled fetch List.mem_cons_self raws houtcome) hentries
          cases hsource
          exact hstate
        · cases hsource
      obtain ⟨rfl, hadded, hupdated⟩ := hsame
      obtain ⟨hentries, hsaved, hadded', hupdated'⟩ := ih hrest hsync
      exact ⟨hentries, hsaved, hadded'.trans hadded, hupdated'.trans hupdated⟩

/-! ## What is looked up again -/

/-- The entries that are looked up depend only on which of them are stuck. -/
theorem lookedUp_congr {r r' : Reading} {entries entries' : List ScheduleEntry}
    {raws : List (Except String ExternalScheduleEntry)}
    (h : ∀ x ∈ lookedUp nextCron r entries raws,
      stuck nextCron r' entries' x.1 x.2 = stuck nextCron r entries x.1 x.2) :
    lookedUp nextCron r' entries' raws = lookedUp nextCron r entries raws ∧
      whole nextCron r' entries' raws = whole nextCron r entries raws := by
  induction raws with
  | nil => exact ⟨rfl, rfl⟩
  | cons raw raws ih =>
    cases raw with
    | error message => exact ⟨(ih h).1, rfl⟩
    | ok external =>
      cases hbuild : buildExternalScheduleEntryInput external with
      | none =>
        simp only [lookedUp, hbuild] at h ⊢
        exact ⟨(ih h).1, by simp [whole, hbuild]⟩
      | some input =>
        simp only [lookedUp, hbuild] at h ⊢
        have hfirst := h (external, input) List.mem_cons_self
        cases hstuck : stuck nextCron r entries external input with
        | true =>
          rw [hstuck] at hfirst
          exact ⟨by simp [hfirst], by simp [whole, hbuild, hstuck, hfirst]⟩
        | false =>
          rw [hstuck] at hfirst
          have hrest := ih fun x hx => h x (by simp [hstuck, hx])
          refine ⟨by simp [hfirst, hrest.1], ?_⟩
          have hwhole := hrest.2
          unfold whole at hwhole ⊢
          simp [hbuild, hstuck, hfirst, hwhole]

/-- An entry that the last pass disables keeps its ids and its trigger. -/
theorem find?_disableMissing (sync : SyncState) (now : Millis) (entries : List ScheduleEntry)
    (external : ExternalScheduleEntry) :
    (disableMissing sync now entries).find? (isExternalEntry external) =
      (entries.find? (isExternalEntry external)).map fun entry =>
        if isMissing sync entry then
          { entry with
            enabled := false
            updatedAt := now }
        else entry := by
  unfold disableMissing
  rw [List.find?_map]
  congr 2
  funext entry
  show isExternalEntry external (if _ then _ else _) = _
  split <;> rfl

/-! ## What is left after a synchronisation -/

section

variable {fetches : List Fetch} {before : List ScheduleEntry} {now : Millis} {result : SyncResult}

/-- A fetched entry is in the answer of one source only. -/
theorem PairsDistinct.fetch_unique (hpairs : PairsDistinct fetches) {fetch fetch' : Fetch}
    (hfetch : fetch ∈ fetches) (hfetch' : fetch' ∈ fetches) {external : ExternalScheduleEntry}
    (h : external ∈ fetch.externals) (h' : external ∈ fetch'.externals) : fetch = fetch' := by
  have hnodup : (fetches.flatMap Fetch.externals).Nodup := hpairs.of_map _
  have : Std.Symm (Function.onFun List.Disjoint Fetch.externals) := ⟨fun _ _ hab _ h h' => hab h' h⟩
  by_contra hne
  exact (List.nodup_flatMap.mp hnodup).2.forall hfetch hfetch' hne h h'

/-- Two looked up entries with one pair are the same. -/
theorem PairsDistinct.external_unique (hpairs : PairsDistinct fetches)
    {external other : ExternalScheduleEntry} (h : external ∈ fetches.flatMap Fetch.externals)
    (h' : other ∈ fetches.flatMap Fetch.externals) (hpair : external.pair = other.pair) :
    external = other :=
  List.inj_on_of_nodup_map hpairs h h' hpair

theorem isMissing_of_seen {sync : SyncState} {input : EntryInput}
    {external : ExternalScheduleEntry} {e : ScheduleEntry}
    (hinput : buildExternalScheduleEntryInput external = some input) (hholds : Holds input e)
    (hseen : externalEntryKey external.sourceId external.externalId ∈ sync.seenKeys) :
    isMissing sync e = false := by
  rw [isMissing, hholds.metadata, (buildExternalScheduleEntryInput_eq hinput).2]
  by_cases hempty : external.sourceId = ""
  · simp [truthy, hempty]
  · simp [truthy, hempty, hseen]

theorem SyncSpec.seen (hspec : SyncSpec nextCron [] before {} fetches result) {fetch : Fetch}
    (hfetch : fetch ∈ fetches) {x : ExternalScheduleEntry × EntryInput}
    (hx : x ∈ fetch.lookedUp nextCron before) :
    externalEntryKey x.1.sourceId x.1.externalId ∈ result.sync.seenKeys := by
  rw [hspec.seenKeys]
  exact List.mem_append_right _
    (List.mem_map.mpr ⟨x, List.mem_flatMap.mpr ⟨fetch, hfetch, hx⟩, rfl⟩)

/-- The first entry of a stored pair holds what was fetched, also after the last pass. -/
theorem SyncSpec.find?_stored (hspec : SyncSpec nextCron [] before {} fetches result)
    {fetch : Fetch} (hfetch : fetch ∈ fetches) {x : ExternalScheduleEntry × EntryInput}
    (hx : x ∈ fetch.stored nextCron before) :
    ∃ head, result.entries.find? (isExternalEntry x.1) = some head ∧ Holds x.2 head := by
  obtain ⟨after, now, hstored, hentries, -⟩ := hspec.entries
  obtain ⟨head, hhead, hholds⟩ := hstored.held x (List.mem_flatMap.mpr ⟨fetch, hfetch, hx⟩)
  have hlookedUp := (Fetch.mem_stored.mp hx).1
  have hkept : isMissing result.sync head = false :=
    isMissing_of_seen (Fetch.mem_lookedUp hlookedUp).2 hholds (hspec.seen hfetch hlookedUp)
  refine ⟨head, ?_, hholds⟩
  rw [hentries, find?_disableMissing, ← List.head?_filter, hhead]
  simp [hkept]

/-- A looked up entry is found stuck again, and only then. -/
theorem stuck_again
    (hcron : ∀ expression timezone now now', nextCron expression timezone now = none →
      nextCron expression timezone now' = none)
    (hpairs : PairsDistinct fetches) (hspec : SyncSpec nextCron [] before {} fetches result)
    {fetch fetch' : Fetch} (hfetch : fetch ∈ fetches) (hagain : fetch.Again fetch')
    {x : ExternalScheduleEntry × EntryInput} (hx : x ∈ fetch.lookedUp nextCron before) :
    stuck nextCron fetch'.reading result.entries x.1 x.2 =
      stuck nextCron fetch.reading before x.1 x.2 := by
  obtain ⟨hexternal, hinput⟩ := Fetch.mem_lookedUp hx
  cases hstuck : stuck nextCron fetch.reading before x.1 x.2 with
  | false =>
    obtain ⟨head, hfind, hholds⟩ := hspec.find?_stored hfetch (Fetch.mem_stored.mpr ⟨hx, hstuck⟩)
    simp [stuck, hfind, hholds.trigger]
  | true =>
    obtain ⟨after, now, hstored, hentries, -⟩ := hspec.entries
    -- its pair is not stored, so its entry is the one before the synchronisation
    have hfresh : ∀ y ∈ fetches.flatMap (Fetch.stored nextCron before), y.1.pair ≠ x.1.pair := by
      intro y hy hpair
      obtain ⟨other, hother, hy⟩ := List.mem_flatMap.mp hy
      obtain ⟨hlookedUp, hfree⟩ := Fetch.mem_stored.mp hy
      obtain ⟨hexternal', hinput'⟩ := Fetch.mem_lookedUp hlookedUp
      have hsame : y.1 = x.1 := hpairs.external_unique (List.mem_flatMap.mpr ⟨other, hother, hexternal'⟩)
        (List.mem_flatMap.mpr ⟨fetch, hfetch, hexternal⟩) hpair
      obtain rfl : fetch = other := hpairs.fetch_unique hfetch hother hexternal (hsame ▸ hexternal')
      have hsameInput : y.2 = x.2 := Option.some.inj (hinput'.symm.trans (hsame ▸ hinput))
      rw [hsame, hsameInput, hstuck] at hfree
      cases hfree
    -- and its trigger has no next time later either
    have hnext : computeNextFireAt nextCron x.2.trigger fetch'.reading.now
        (fetch'.reading.random 0) = none := by
      have hfirst : computeNextFireAt nextCron x.2.trigger fetch.reading.now
          (fetch.reading.random 0) = none :=
        Option.isNone_iff_eq_none.mp (Bool.and_eq_true_iff.mp hstuck).1
      rw [buildExternalScheduleEntryInput_trigger hinput] at hfirst ⊢
      exact computeNextFireAt_later hcron x.1 hagain.clock.1 hagain.clock.2 hfirst
    have hfind : before.find? (isExternalEntry x.1) = after.find? (isExternalEntry x.1) :=
      (hstored.find?_eq hfresh).symm
    rw [stuck, hnext, hentries, find?_disableMissing, ← hfind]
    have hother := (Bool.and_eq_true_iff.mp hstuck).2
    cases hbefore : before.find? (isExternalEntry x.1) with
    | none => rfl
    | some existing =>
      rw [hbefore] at hother
      simp only [Option.map_some, Option.any_some, Option.isNone_none, Bool.true_and] at hother ⊢
      split <;> exact hother

/-- A source that answers the same again is looked up the same. -/
theorem lookedUp_again
    (hcron : ∀ expression timezone now now', nextCron expression timezone now = none →
      nextCron expression timezone now' = none)
    (hpairs : PairsDistinct fetches) (hspec : SyncSpec nextCron [] before {} fetches result)
    {fetch fetch' : Fetch} (hfetch : fetch ∈ fetches) (hagain : fetch.Again fetch') :
    fetch'.lookedUp nextCron result.entries = fetch.lookedUp nextCron before ∧
      fetch'.whole nextCron result.entries = fetch.whole nextCron before := by
  have hstuck : ∀ x ∈ fetch.lookedUp nextCron before, _ := fun x hx =>
    stuck_again hcron hpairs hspec hfetch hagain hx
  unfold Fetch.lookedUp at hstuck
  unfold Fetch.lookedUp Fetch.whole
  rw [hagain.outcome]
  cases houtcome : fetch.outcome with
  | failed failure => exact ⟨rfl, rfl⟩
  | fetched raws =>
    rw [houtcome] at hstuck
    exact lookedUp_congr hstuck

theorem Fetch.Again.sourceIds {fetch fetch' : Fetch} (h : fetch.Again fetch') :
    fetch'.sourceIds = fetch.sourceIds := by
  rw [Fetch.sourceIds, Fetch.sourceIds, Fetch.externals, Fetch.externals, h.sourceId, h.outcome]

theorem isMissing_congr {sync sync' : SyncState} (hseen : sync'.seenKeys = sync.seenKeys)
    (hreconciled : ∀ sourceId, sourceId ∈ sync'.reconciledSourceIds ↔
      sourceId ∈ sync.reconciledSourceIds) (e : ScheduleEntry) :
    isMissing sync' e = isMissing sync e := by
  simp only [isMissing, hseen, hreconciled]

/-- The last pass leaves nothing that is missing. -/
theorem isMissing_disableMissing {sync : SyncState} {now : Millis} {entries : List ScheduleEntry}
    {e : ScheduleEntry} (he : e ∈ disableMissing sync now entries) : isMissing sync e = false := by
  obtain ⟨entry, -, rfl⟩ := List.mem_map.mp he
  split
  · rfl
  · next hkept => exact Bool.eq_false_of_not_eq_true hkept

theorem disableMissing_of_none {sync : SyncState} {now : Millis} {entries : List ScheduleEntry}
    (h : ∀ e ∈ entries, isMissing sync e = false) : disableMissing sync now entries = entries := by
  unfold disableMissing
  exact (List.map_congr_left fun e he => by rw [if_neg (by simp [h e he])]; rfl).trans
    (List.map_id entries)

/-- The same synchronisation again finds nothing to do. -/
theorem sync_again
    (hcron : ∀ expression timezone now now', nextCron expression timezone now = none →
      nextCron expression timezone now' = none)
    (hpairs : PairsDistinct fetches)
    (h : syncExternalSources nextCron now fetches before = .ok result) {fetches' : List Fetch}
    {now' : Millis} {result' : SyncResult} (hagain : List.Forall₂ Fetch.Again fetches fetches')
    (h' : syncExternalSources nextCron now' fetches' result.entries = .ok result') :
    result'.entries = result.entries ∧ result'.saved = false := by
  have hspec := syncFrom_spec (Stored.refl before) hpairs (fun _ _ _ hx => absurd hx List.not_mem_nil) h
  have hpairs' : PairsDistinct fetches' := by
    have hexternals : fetches'.map Fetch.externals = fetches.map Fetch.externals :=
      map_eq_of_forall₂ hagain fun fetch _ fetch' hab => by
        rw [Fetch.externals, Fetch.externals, hab.outcome]
    rw [PairsDistinct, List.flatMap_def, hexternals, ← List.flatMap_def]
    exact hpairs
  have hspec' := syncFrom_spec (Stored.refl result.entries) hpairs'
    (fun _ _ _ hx => absurd hx List.not_mem_nil) h'
  -- the second run looks up the same entries, so it has the same keys and sources
  have hlookedUp := fun {fetch fetch' : Fetch} (hfetch : fetch ∈ fetches)
    (hab : fetch.Again fetch') => lookedUp_again hcron hpairs hspec hfetch hab
  have hseen : result'.sync.seenKeys = result.sync.seenKeys := by
    rw [hspec.seenKeys, hspec'.seenKeys, keysLookedUp, keysLookedUp, List.flatMap_def,
      List.flatMap_def, map_eq_of_forall₂ hagain fun _ hfetch _ hab => (hlookedUp hfetch hab).1]
  have hreconciled : ∀ sourceId, sourceId ∈ result'.sync.reconciledSourceIds ↔
      sourceId ∈ result.sync.reconciledSourceIds := by
    intro sourceId
    rw [hspec.reconciled, hspec'.reconciled]
    refine or_congr_right ⟨?_, ?_⟩
    · rintro ⟨fetch', hfetch', hwhole, hmem⟩
      obtain ⟨fetch, hfetch, hab⟩ := exists_of_forall₂ hagain.flip hfetch'
      exact ⟨fetch, hfetch, (hlookedUp hfetch hab).2 ▸ hwhole, hab.sourceIds ▸ hmem⟩
    · rintro ⟨fetch, hfetch, hwhole, hmem⟩
      obtain ⟨fetch', hfetch', hab⟩ := exists_of_forall₂ hagain hfetch
      exact ⟨fetch', hfetch', (hlookedUp hfetch hab).2.symm ▸ hwhole, hab.sourceIds.symm ▸ hmem⟩
  have hmissing : ∀ e ∈ result.entries, isMissing result'.sync e = false := by
    intro e he
    obtain ⟨after, last, -, hentries, -⟩ := hspec.entries
    rw [isMissing_congr hseen hreconciled]
    rw [hentries] at he
    exact isMissing_disableMissing he
  -- and what it would store is held already
  have hsettled : ∀ fetch' ∈ fetches', ∀ raws, fetch'.outcome = .fetched raws →
      Settled nextCron fetch'.reading result.entries raws := by
    intro fetch' hfetch' raws houtcome x hx hfree
    obtain ⟨fetch, hfetch, hab⟩ := exists_of_forall₂ hagain.flip hfetch'
    have hx' : x ∈ fetch'.lookedUp nextCron result.entries := by
      rw [Fetch.lookedUp, houtcome]
      exact hx
    rw [(hlookedUp hfetch hab).1] at hx'
    rw [stuck_again hcron hpairs hspec hfetch hab hx'] at hfree
    exact hspec.find?_stored hfetch (Fetch.mem_stored.mpr ⟨hx', hfree⟩)
  obtain ⟨⟨last, hentries⟩, hsaved, hadded, hupdated⟩ := syncFrom_settled hsettled h'
  refine ⟨hentries.trans (disableMissing_of_none hmissing), ?_⟩
  rw [hsaved, SyncState.changed, hadded, hupdated]
  have hcount : result.entries.countP (isMissing result'.sync) = 0 :=
    List.countP_eq_zero.mpr fun e he => by simp [hmissing e he]
  simp [hcount]

end

/-! ## The enabled entries of a source -/

/-- An enabled external entry of a source. -/
def activeOf (sourceId : String) (e : ScheduleEntry) : Bool :=
  e.enabled && e.metadata.any fun m =>
    m.source = .external ∧ m.externalSourceId = some sourceId

def externalIdOf (e : ScheduleEntry) : Option String := e.metadata.bind (·.externalId)

theorem activeOf_iff {sourceId : String} {e : ScheduleEntry} : activeOf sourceId e = true ↔
    e.enabled = true ∧ entryOf sourceId (externalIdOf e) e = true := by
  unfold activeOf entryOf externalIdOf
  cases e.metadata <;> simp

/-- The entries of two ids are different. -/
theorem externalIdOf_of_entryOf {sourceId : String} {externalId : Option String}
    {e : ScheduleEntry} (h : entryOf sourceId externalId e = true) : externalIdOf e = externalId := by
  obtain ⟨metadata, hmetadata, -, -, hid⟩ := entryOf_iff.mp h
  rw [externalIdOf, hmetadata]
  exact hid

/-- The enabled entries of a source, counted by their external ids. -/
theorem count_externalIdOf (entries : List ScheduleEntry) (sourceId : String)
    (externalId : Option String) :
    ((entries.filter (activeOf sourceId)).map externalIdOf).count externalId =
      (entries.filter (entryOf sourceId externalId)).countP (·.enabled) := by
  rw [List.count, List.countP_map, List.countP_filter, List.countP_filter]
  refine List.countP_congr fun e _ => ?_
  simp only [Function.comp_apply, Bool.and_eq_true, beq_iff_eq, activeOf_iff]
  constructor
  · rintro ⟨rfl, henabled, hentry⟩
    exact ⟨henabled, hentry⟩
  · rintro ⟨henabled, hentry⟩
    have hid := externalIdOf_of_entryOf hentry
    exact ⟨hid, henabled, hid ▸ hentry⟩

/-- The last pass disables the entries of an id: its source is reconciled, and its key is
not the key of a fetched entry. -/
def Gone (sync : SyncState) (sourceId : String) (externalId : Option String) : Prop :=
  sourceId ≠ "" ∧ sourceId ∈ sync.reconciledSourceIds ∧
    externalEntryKey sourceId (externalId.getD "") ∉ sync.seenKeys

instance (sync : SyncState) (sourceId : String) (externalId : Option String) :
    Decidable (Gone sync sourceId externalId) :=
  inferInstanceAs (Decidable (_ ∧ _))

theorem isMissing_of_entryOf {sync : SyncState} {sourceId : String} {externalId : Option String}
    {e : ScheduleEntry} (h : entryOf sourceId externalId e = true) :
    isMissing sync e = (e.enabled && decide (Gone sync sourceId externalId)) := by
  obtain ⟨metadata, hmetadata, hsource, hsourceId, rfl⟩ := entryOf_iff.mp h
  unfold isMissing Gone
  rw [hmetadata]
  by_cases hempty : sourceId = ""
  · simp [hsource, hsourceId, hempty, truthy]
  · simp [hsource, hsourceId, hempty, truthy]

/-- What is left enabled of an id. -/
theorem countP_disableMissing (sync : SyncState) (now : Millis) (entries : List ScheduleEntry)
    (sourceId : String) (externalId : Option String) :
    ((disableMissing sync now entries).filter (entryOf sourceId externalId)).countP (·.enabled) =
      if Gone sync sourceId externalId then 0
      else (entries.filter (entryOf sourceId externalId)).countP (·.enabled) := by
  unfold disableMissing
  rw [List.filter_map, List.countP_map]
  have hkept : entryOf sourceId externalId ∘ (fun entry =>
      if isMissing sync entry then
        { entry with
          enabled := false
          updatedAt := now }
      else entry) = entryOf sourceId externalId := by
    funext entry
    show entryOf sourceId externalId (if _ then _ else _) = _
    split <;> rfl
  rw [hkept]
  split
  · next hgone =>
    refine List.countP_eq_zero.mpr fun e he => ?_
    have hentry := (List.mem_filter.mp he).2
    cases henabled : e.enabled <;> simp [isMissing_of_entryOf hentry, hgone, henabled]
  · next hgone =>
    refine List.countP_congr fun e he => ?_
    have hentry := (List.mem_filter.mp he).2
    simp [isMissing_of_entryOf hentry, hgone]

/-! ## What a source was fetched with -/

/-- The source is fetched successfully: some answer names it, and every answer that does is
stored whole. -/
def fetchedWhole (nextCron : NextCron) (before : List ScheduleEntry) (fetches : List Fetch)
    (sourceId : String) : Bool :=
  fetches.any (fun fetch => sourceId ∈ fetch.sourceIds) &&
    fetches.all fun fetch => sourceId ∈ fetch.sourceIds → fetch.whole nextCron before = true

/-- The external ids of the entries that are fetched for a source as enabled. -/
def activeIds (fetches : List Fetch) (sourceId : String) : List String :=
  ((fetches.flatMap Fetch.externals).filter fun external =>
    external.sourceId = sourceId ∧ external.enabled = true).map (·.externalId)

theorem mem_sourceIds {fetch : Fetch} {external : ExternalScheduleEntry}
    (h : external ∈ fetch.externals) : external.sourceId ∈ fetch.sourceIds :=
  List.mem_cons_of_mem _ (List.mem_map_of_mem h)

/-- An answer that is stored whole is stored entry by entry. -/
theorem exists_stored_of_whole {r : Reading} {entries : List ScheduleEntry}
    {raws : List (Except String ExternalScheduleEntry)} (h : whole nextCron r entries raws = true)
    {external : ExternalScheduleEntry} (hmem : external ∈ raws.filterMap Except.toOption) :
    ∃ input, (external, input) ∈ storedOf nextCron r entries raws := by
  induction raws with
  | nil => cases hmem
  | cons raw raws ih =>
    cases raw with
    | error message => cases h
    | ok first =>
      rw [whole, List.all_cons, Bool.and_eq_true] at h
      obtain ⟨hfirst, hrest⟩ := h
      obtain ⟨input, hbuild, hfree⟩ := (Option.any_eq_true _ _).mp hfirst
      have hfree' : stuck nextCron r entries first input = false := by simpa using hfree
      have hstored : storedOf nextCron r entries (.ok first :: raws) =
          (first, input) :: storedOf nextCron r entries raws := by
        simp [storedOf, lookedUp, hbuild, hfree']
      rw [hstored]
      rcases List.mem_cons.mp hmem with rfl | hmem
      · exact ⟨input, List.mem_cons_self⟩
      · obtain ⟨other, hother⟩ := ih hrest hmem
        exact ⟨other, List.mem_cons_of_mem _ hother⟩

theorem Fetch.exists_stored {fetch : Fetch} {entries : List ScheduleEntry}
    (h : fetch.whole nextCron entries = true) {external : ExternalScheduleEntry}
    (hmem : external ∈ fetch.externals) :
    ∃ input, (external, input) ∈ fetch.stored nextCron entries := by
  unfold Fetch.whole at h
  unfold Fetch.externals at hmem
  unfold Fetch.stored
  split at h
  · cases h
  · next raws houtcome =>
    rw [houtcome] at hmem
    exact exists_stored_of_whole h hmem

section

variable {fetches : List Fetch} {before : List ScheduleEntry} {now : Millis} {result : SyncResult}
  {sourceId : String}

theorem count_activeIds (hpairs : PairsDistinct fetches) {external : ExternalScheduleEntry}
    (h : external ∈ fetches.flatMap Fetch.externals) :
    (activeIds fetches external.sourceId).count external.externalId =
      if external.enabled then 1 else 0 := by
  have hnodup : (activeIds fetches external.sourceId).Nodup := by
    refine List.Nodup.map_on (fun x hx y hy hid => ?_) ((hpairs.of_map _).filter _)
    obtain ⟨hx, hsource⟩ := List.mem_filter.mp hx
    obtain ⟨hy, hsource'⟩ := List.mem_filter.mp hy
    have hs : x.sourceId = external.sourceId ∧ x.enabled = true := by simpa using hsource
    have hs' : y.sourceId = external.sourceId ∧ y.enabled = true := by simpa using hsource'
    exact hpairs.external_unique hx hy (Prod.ext (hs.1.trans hs'.1.symm) hid)
  have hmem : external.externalId ∈ activeIds fetches external.sourceId ↔
      external.enabled = true := by
    constructor
    · intro hmem
      obtain ⟨other, hother, hid⟩ := List.mem_map.mp hmem
      obtain ⟨hother, hsource⟩ := List.mem_filter.mp hother
      have hs : other.sourceId = external.sourceId ∧ other.enabled = true := by simpa using hsource
      exact hpairs.external_unique hother h (Prod.ext hs.1 hid) ▸ hs.2
    · intro henabled
      exact List.mem_map.mpr ⟨external, List.mem_filter.mpr ⟨h, by simp [henabled]⟩, rfl⟩
  rw [hnodup.count]
  exact if_congr hmem rfl rfl

theorem count_activeIds_of_not_fetched {externalId : Option String}
    (h : ∀ external ∈ fetches.flatMap Fetch.externals,
      external.sourceId = sourceId → some external.externalId ≠ externalId) :
    ((activeIds fetches sourceId).map some).count externalId = 0 := by
  refine List.count_eq_zero.mpr fun hmem => ?_
  obtain ⟨id, hid, rfl⟩ := List.mem_map.mp hmem
  obtain ⟨external, hexternal, rfl⟩ := List.mem_map.mp hid
  obtain ⟨hexternal, hsource⟩ := List.mem_filter.mp hexternal
  have hs : external.sourceId = sourceId ∧ external.enabled = true := by simpa using hsource
  exact h external hexternal hs.1 rfl

/-- The entries of a fetched id that are left enabled: the first one as it was fetched, and
the others as they were. -/
theorem countP_fetched (hspec : SyncSpec nextCron [] before {} fetches result)
    (hwhole : fetchedWhole nextCron before fetches sourceId = true)
    {external : ExternalScheduleEntry} (h : external ∈ fetches.flatMap Fetch.externals)
    (hsource : external.sourceId = sourceId) :
    ((result.entries.filter (activeOf sourceId)).map externalIdOf).count
        (some external.externalId) =
      (if external.enabled then 1 else 0) +
        (before.filter (isExternalEntry external)).tail.countP (·.enabled) := by
  subst hsource
  obtain ⟨fetch, hfetch, hexternal⟩ := List.mem_flatMap.mp h
  have hstoredWhole : fetch.whole nextCron before = true := by
    have hall := List.all_eq_true.mp (Bool.and_eq_true_iff.mp hwhole).2 fetch hfetch
    exact of_decide_eq_true hall (mem_sourceIds hexternal)
  obtain ⟨input, hx⟩ := Fetch.exists_stored hstoredWhole hexternal
  have hlookedUp := (Fetch.mem_stored.mp hx).1
  obtain ⟨after, last, hstored, hentries, -⟩ := hspec.entries
  obtain ⟨head, hhead, hholds⟩ := hstored.held _ (List.mem_flatMap.mpr ⟨fetch, hfetch, hx⟩)
  have hseen : ¬ Gone result.sync external.sourceId (some external.externalId) := fun hgone =>
    hgone.2.2 (hspec.seen hfetch hlookedUp)
  have henabled : head.enabled = external.enabled :=
    hholds.enabled.trans (buildExternalScheduleEntryInput_eq (Fetch.mem_lookedUp hlookedUp).2).1
  rw [count_externalIdOf, hentries, countP_disableMissing, if_neg hseen,
    ← isExternalEntry_eq_entryOf, hhead, List.countP_cons, henabled, Nat.add_comm]

/-- Those of an id that is not fetched: none, or all that were, when the last pass does not
disable them. -/
theorem countP_not_fetched (hspec : SyncSpec nextCron [] before {} fetches result)
    {externalId : Option String} (h : ∀ external ∈ fetches.flatMap Fetch.externals,
      external.sourceId = sourceId → some external.externalId ≠ externalId) :
    ((result.entries.filter (activeOf sourceId)).map externalIdOf).count externalId =
      if Gone result.sync sourceId externalId then 0
      else (before.filter (entryOf sourceId externalId)).countP (·.enabled) := by
  obtain ⟨after, last, hstored, hentries, -⟩ := hspec.entries
  have hkept : after.filter (entryOf sourceId externalId) =
      before.filter (entryOf sourceId externalId) := by
    refine hstored.kept _ fun x hx e he => ?_
    obtain ⟨fetch, hfetch, hx⟩ := List.mem_flatMap.mp hx
    have hmem := (Fetch.mem_lookedUp (Fetch.mem_stored.mp hx).1).1
    by_contra hentry
    obtain ⟨hsource, hid⟩ := entryOf_unique he (Bool.of_not_eq_false hentry)
    exact h x.1 (List.mem_flatMap.mpr ⟨fetch, hfetch, hmem⟩) hsource hid
  rw [count_externalIdOf, hentries, countP_disableMissing, hkept]

/-- The stored entries tell the last pass which of a source's entries are gone: of those of
a fetched id only the first is enabled, and the key of one that is not fetched is not the key
of a fetched entry. -/
structure Apart (nextCron : NextCron) (before : List ScheduleEntry) (fetches : List Fetch)
    (sourceId : String) : Prop where
  once : ∀ external ∈ fetches.flatMap Fetch.externals, external.sourceId = sourceId →
    ∀ e ∈ (before.filter (isExternalEntry external)).tail, e.enabled = false
  told : ∀ e ∈ before, activeOf sourceId e = true →
    (∀ external ∈ fetches.flatMap Fetch.externals, isExternalEntry external e = false) →
      sourceId ≠ "" ∧
        externalEntryKey sourceId ((externalIdOf e).getD "") ∉ keysLookedUp nextCron before fetches

theorem gone_iff (hspec : SyncSpec nextCron [] before {} fetches result)
    (hwhole : fetchedWhole nextCron before fetches sourceId = true) {externalId : Option String} :
    Gone result.sync sourceId externalId ↔ sourceId ≠ "" ∧
      externalEntryKey sourceId (externalId.getD "") ∉ keysLookedUp nextCron before fetches := by
  obtain ⟨hsome, hall⟩ := Bool.and_eq_true_iff.mp hwhole
  obtain ⟨fetch, hfetch, hnamed⟩ := List.any_eq_true.mp hsome
  have hnames : sourceId ∈ fetch.sourceIds := of_decide_eq_true hnamed
  have hstoredWhole : fetch.whole nextCron before = true :=
    of_decide_eq_true (List.all_eq_true.mp hall fetch hfetch) hnames
  have hreconciled : sourceId ∈ result.sync.reconciledSourceIds :=
    (hspec.reconciled sourceId).mpr (.inr ⟨fetch, hfetch, hstoredWhole, hnames⟩)
  rw [Gone, hspec.seenKeys]
  simp [hreconciled]

/-- The enabled entries of a source are those it was fetched with exactly when the last pass
can tell. -/
theorem perm_iff_apart (hpairs : PairsDistinct fetches)
    (hspec : SyncSpec nextCron [] before {} fetches result)
    (hwhole : fetchedWhole nextCron before fetches sourceId = true) :
    ((result.entries.filter (activeOf sourceId)).map externalIdOf).Perm
        ((activeIds fetches sourceId).map some) ↔
      Apart nextCron before fetches sourceId := by
  have hsome : ∀ externalId, ((activeIds fetches sourceId).map some).count (some externalId) =
      (activeIds fetches sourceId).count externalId := fun externalId =>
    List.count_map_of_injective _ _ (Option.some_injective _) _
  -- both lists are compared id by id: a fetched one, and one that is not
  rw [List.perm_iff_count]
  constructor
  · intro hcount
    refine ⟨fun external h hsource e he => ?_, fun e he hactive hother => ?_⟩
    · have hids := hcount (some external.externalId)
      rw [countP_fetched hspec hwhole h hsource, hsome, ← hsource, count_activeIds hpairs h] at hids
      have hnone := List.countP_eq_zero.mp (Nat.left_eq_add.mp hids.symm) e he
      exact Bool.eq_false_of_not_eq_true hnone
    · obtain ⟨henabled, hentry⟩ := activeOf_iff.mp hactive
      have hnot : ∀ external ∈ fetches.flatMap Fetch.externals, external.sourceId = sourceId →
          some external.externalId ≠ externalIdOf e := by
        intro external h hsource hid
        have hfalse := hother external h
        rw [isExternalEntry_eq_entryOf, hsource, hid, hentry] at hfalse
        cases hfalse
      have hids := hcount (externalIdOf e)
      rw [countP_not_fetched hspec hnot, count_activeIds_of_not_fetched hnot] at hids
      by_contra hgone
      rw [if_neg ((gone_iff hspec hwhole).not.mpr hgone)] at hids
      exact List.countP_eq_zero.mp hids e (List.mem_filter.mpr ⟨he, hentry⟩) henabled
  · intro h externalId
    by_cases hfetched : ∃ external ∈ fetches.flatMap Fetch.externals,
        external.sourceId = sourceId ∧ some external.externalId = externalId
    · obtain ⟨external, hmem, hsource, rfl⟩ := hfetched
      have hrest : (before.filter (isExternalEntry external)).tail.countP (·.enabled) = 0 :=
        List.countP_eq_zero.mpr fun e he => by simp [h.once external hmem hsource e he]
      rw [countP_fetched hspec hwhole hmem hsource, hsome, ← hsource, count_activeIds hpairs hmem,
        hrest, Nat.add_zero]
    · have hnot : ∀ external ∈ fetches.flatMap Fetch.externals, external.sourceId = sourceId →
          some external.externalId ≠ externalId := fun external hmem hsource hid =>
        hfetched ⟨external, hmem, hsource, hid⟩
      rw [countP_not_fetched hspec hnot, count_activeIds_of_not_fetched hnot]
      split
      · rfl
      · next hgone =>
        refine List.countP_eq_zero.mpr fun e he henabled => ?_
        obtain ⟨hbefore, hentry⟩ := List.mem_filter.mp he
        obtain rfl := externalIdOf_of_entryOf hentry
        have hother : ∀ external ∈ fetches.flatMap Fetch.externals,
            isExternalEntry external e = false := by
          intro external hmem
          by_contra hmatch
          obtain ⟨hsource, hid⟩ := entryOf_unique (Bool.of_not_eq_false hmatch) hentry
          exact hnot external hmem hsource hid
        exact hgone ((gone_iff hspec hwhole).mpr
          (h.told e hbefore (activeOf_iff.mpr ⟨henabled, hentry⟩) hother))

end

/-! ## What a synchronisation leaves alone -/

def Fetch.answered (fetch : Fetch) : Bool :=
  match fetch.outcome with
  | .failed _ => false
  | .fetched _ => true

/-- The fetch of the source failed, and no source that answered has entries of it. -/
def fetchFailed (fetches : List Fetch) (sourceId : String) : Bool :=
  fetches.any (fun fetch => fetch.sourceId = sourceId ∧ fetch.answered = false) &&
    fetches.all fun fetch => fetch.answered = true → sourceId ∉ fetch.sourceIds

/-- Entries that are not external, and those of sources whose fetch failed. -/
def outside (fetches : List Fetch) (e : ScheduleEntry) : Bool :=
  e.metadata.all fun m =>
    m.source ≠ .external ∨ m.externalSourceId.any (fetchFailed fetches) = true

theorem Fetch.answered_of_whole {fetch : Fetch} {entries : List ScheduleEntry}
    (h : fetch.whole nextCron entries = true) : fetch.answered = true := by
  unfold Fetch.whole at h
  unfold Fetch.answered
  cases houtcome : fetch.outcome with
  | failed failure =>
    rw [houtcome] at h
    cases h
  | fetched raws => rfl

theorem Fetch.answered_of_stored {fetch : Fetch} {entries : List ScheduleEntry}
    {x : ExternalScheduleEntry × EntryInput} (h : x ∈ fetch.stored nextCron entries) :
    fetch.answered = true := by
  unfold Fetch.stored at h
  unfold Fetch.answered
  cases houtcome : fetch.outcome with
  | failed failure =>
    rw [houtcome] at h
    cases h
  | fetched raws => rfl

theorem not_mem_of_fetchFailed {fetches : List Fetch} {sourceId : String}
    (h : fetchFailed fetches sourceId = true) {fetch : Fetch} (hfetch : fetch ∈ fetches)
    (hanswered : fetch.answered = true) : sourceId ∉ fetch.sourceIds :=
  of_decide_eq_true (List.all_eq_true.mp (Bool.and_eq_true_iff.mp h).2 fetch hfetch) hanswered

section

variable {fetches : List Fetch} {before : List ScheduleEntry} {now : Millis} {result : SyncResult}

/-- An external entry outside is of a source whose fetch failed. -/
theorem fetchFailed_of_outside {sourceId : String} {externalId : Option String} {e : ScheduleEntry}
    (h : outside fetches e = true) (hentry : entryOf sourceId externalId e = true) :
    fetchFailed fetches sourceId = true := by
  obtain ⟨metadata, hmetadata, hsource, hsourceId, -⟩ := entryOf_iff.mp hentry
  unfold outside at h
  simpa [hmetadata, hsource, hsourceId] using h

/-- What is missing is an entry of a reconciled source. -/
theorem reconciled_of_isMissing {sync : SyncState} {e : ScheduleEntry}
    (h : isMissing sync e = true) : ∃ sourceId externalId,
      entryOf sourceId externalId e = true ∧ sourceId ∈ sync.reconciledSourceIds := by
  obtain ⟨-, h⟩ := Bool.and_eq_true_iff.mp h
  obtain ⟨metadata, hmetadata, hmissing⟩ := (Option.any_eq_true _ _).mp h
  obtain ⟨hsource, hany⟩ := of_decide_eq_true hmissing
  obtain ⟨sourceId, hsourceId, hrest⟩ := (Option.any_eq_true _ _).mp hany
  have hsome : metadata.externalSourceId = some sourceId :=
    (truthy_eq_some.mp hsourceId).1
  exact ⟨sourceId, metadata.externalId,
    entryOf_iff.mpr ⟨metadata, hmetadata, hsource, hsome, rfl⟩, (of_decide_eq_true hrest).1⟩

/-- Such entries stay as they are, in their order. -/
theorem filter_outside (hspec : SyncSpec nextCron [] before {} fetches result) :
    result.entries.filter (outside fetches) = before.filter (outside fetches) := by
  obtain ⟨after, last, hstored, hentries, -⟩ := hspec.entries
  have hafter : after.filter (outside fetches) = before.filter (outside fetches) := by
    refine hstored.kept _ fun x hx e he => ?_
    obtain ⟨fetch, hfetch, hx⟩ := List.mem_flatMap.mp hx
    have hmem := (Fetch.mem_lookedUp (Fetch.mem_stored.mp hx).1).1
    by_contra hout
    have hfailed := fetchFailed_of_outside (Bool.of_not_eq_false hout) he
    exact not_mem_of_fetchFailed hfailed hfetch (Fetch.answered_of_stored hx) (mem_sourceIds hmem)
  have hkept : ∀ e, outside fetches e = true → isMissing result.sync e = false := by
    intro e hout
    by_contra hmissing
    obtain ⟨sourceId, externalId, hentry, hreconciled⟩ :=
      reconciled_of_isMissing (Bool.of_not_eq_false hmissing)
    have hfailed := fetchFailed_of_outside hout hentry
    rcases (hspec.reconciled sourceId).mp hreconciled with hnone | ⟨fetch, hfetch, hwhole, hmem⟩
    · cases hnone
    · exact not_mem_of_fetchFailed hfailed hfetch (Fetch.answered_of_whole hwhole) hmem
  have hsame : outside fetches ∘ (fun entry =>
      if isMissing result.sync entry then
        { entry with
          enabled := false
          updatedAt := last }
      else entry) = outside fetches := by
    funext entry
    show outside fetches (if _ then _ else _) = _
    split <;> rfl
  rw [hentries, disableMissing, List.filter_map, hsame, hafter]
  exact disableMissing_of_none fun e he => hkept e (List.mem_filter.mp he).2

end

/-! ## The result -/

/-- What a synchronisation is to leave: of every source that was fetched successfully the
enabled entries are those it was fetched with, an entry for each external id; entries that are
not external or whose source failed are unchanged; and the same synchronisation again changes
nothing. -/
structure Reconciled (nextCron : NextCron) (before : List ScheduleEntry) (fetches : List Fetch)
    (result : SyncResult) : Prop where
  bijective : ∀ sourceId, fetchedWhole nextCron before fetches sourceId = true →
    ((result.entries.filter (activeOf sourceId)).map externalIdOf).Perm
      ((activeIds fetches sourceId).map some)
  unchanged : result.entries.filter (outside fetches) = before.filter (outside fetches)
  idempotent : ∀ (fetches' : List Fetch) (now' : Millis) (result' : SyncResult),
    List.Forall₂ Fetch.Again fetches fetches' →
      syncExternalSources nextCron now' fetches' result.entries = .ok result' →
        result'.entries = result.entries ∧ result'.saved = false

/-- A fetched prompt of a source. -/
def fetchedPrompt (sourceId externalId : String) : ExternalScheduleEntry where
  externalId := externalId
  sourceId := sourceId
  layer := .cron
  trigger := .interval 3600 0
  config := some "prompt"

/-- The answer of a healthy source. -/
def answers (sourceId : String) (externals : List ExternalScheduleEntry) (uuids : List String) :
    Fetch where
  sourceId := sourceId
  reading := { now := 0, uuids }
  outcome := .fetched (externals.map .ok)

/-- The entry that is stored for it at time 0. -/
def storedPrompt (sourceId externalId uuid : String) : ScheduleEntry where
  id := uuid
  layer := .cron
  trigger := .interval 3600 0
  metadata := some
    { source := .external
      externalSourceId := some sourceId
      externalId := some externalId }
  cron := some "prompt"
  createdAt := 0
  updatedAt := 0
  nextFireAt := 3600000

end Schedule

end PulSeed
