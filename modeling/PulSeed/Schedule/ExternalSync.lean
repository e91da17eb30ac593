import PulSeed.Schedule.Changes

/-!
# A synchronisation with its sources

`syncExternalSources` asks each source in turn whether it is healthy and for its entries,
and at the end disables what a source no longer has. Here the answers of all sources are
given at once, so that the call is a function of them (`runAlone_sync`: it is the section
`syncExternalSources` of the engine, run alone).

What the call leaves of the entries is in `syncFrom_spec`: the first stored entry of a fetched
external id, or a new one, holds what was fetched, and nothing else changes.
-/

namespace PulSeed

namespace Schedule

/-! ## Answers of sources -/

/-- How the fetch of a source fails: its health check says so, or one of the two calls
rejects. -/
inductive FetchFailure
  | unhealthy (error : Option String)
  | unreachable (message : String)
  | rejected (message : String)
  deriving DecidableEq

/-- The message that is recorded for it. -/
def FetchFailure.message : FetchFailure → String
  | unhealthy error => error.getD "source is unhealthy"
  | unreachable message => message
  | rejected message => message

/-- How a source answers `healthCheck` and `fetchEntries`. -/
inductive Outcome
  | failed (failure : FetchFailure)
  | fetched (raws : List (Except String ExternalScheduleEntry))

/-- The entries it answers with that parse. -/
def Outcome.externals : Outcome → List ExternalScheduleEntry
  | failed _ => []
  | fetched raws => raws.filterMap Except.toOption

/-- A source of a synchronisation: what it answers, and the readings of its two answers. -/
structure Fetch where
  sourceId : String
  checked : Reading := { now := 0 }
  reading : Reading
  outcome : Outcome

/-- The replies that the section is given for it. -/
def Fetch.replies (fetch : Fetch) : List (Reading × Reply) :=
  match fetch.outcome with
  | .failed (.unhealthy error) => [(fetch.reading, .health false error)]
  | .failed (.unreachable message) => [(fetch.reading, .rejected message)]
  | .failed (.rejected message) =>
    [(fetch.checked, .health true none), (fetch.reading, .rejected message)]
  | .fetched raws => [(fetch.checked, .health true none), (fetch.reading, .fetched raws)]

/-- What a synchronisation leaves: the entries, whether it saves them itself, and what it
has recorded. -/
structure SyncResult where
  entries : List ScheduleEntry
  saved : Bool
  sync : SyncState

section

variable (nextCron : NextCron)

/-- The sources from one on. -/
def syncFrom (sync : SyncState) (now : Millis) (entries : List ScheduleEntry) :
    List Fetch → Except Stop SyncResult
  | [] => .ok ⟨disableMissing sync now entries, sync.changed entries, sync⟩
  | fetch :: fetches =>
    match fetch.outcome with
    | .failed failure =>
      syncFrom (sync.failed fetch.sourceId failure.message) fetch.reading.now entries fetches
    | .fetched raws => do
      let (entries', sync') ←
        syncSource nextCron fetch.sourceId raws fetch.reading sync entries
      syncFrom sync' fetch.reading.now entries' fetches

/-- `syncExternalSourcesForEngine`. -/
def syncExternalSources (now : Millis) (fetches : List Fetch) (entries : List ScheduleEntry) :
    Except Stop SyncResult :=
  syncFrom nextCron {} now entries fetches

/-! ## The section of the engine -/

/-- Where a section that runs alone is after a stretch. -/
def Alone.after (sec : Section) (stored : List ScheduleEntry) : Update × Ending → Alone
  | (u, .await next) => ⟨u.entries, stored, some next⟩
  | (u, .save next) => ⟨u.entries, u.entries, some next⟩
  | (u, .done _) => ⟨u.entries, if sec.isMutation then u.entries else stored, none⟩

variable {nextCron}

theorem Alone.step_ok {sec : Section} {a : Alone} {l : Local} {input : Reading × Reply}
    {x : Update × Ending} (hl : a.next = some l)
    (h : work nextCron sec l input.1 input.2 a.entries = .ok x) :
    a.step nextCron sec input = .after sec a.stored x := by
  obtain ⟨u, ending⟩ := x
  unfold Alone.step
  simp only [hl, h]
  cases ending <;> rfl

/-- The replies of a source take the section to the next one. -/
theorem foldl_replies {sourceIds rest : List String} {sync sync' : SyncState} {now : Millis}
    {entries entries' stored : List ScheduleEntry} {fetch : Fetch}
    (h : match fetch.outcome with
      | .failed failure => entries' = entries ∧ sync' = sync.failed fetch.sourceId failure.message
      | .fetched raws =>
        syncSource nextCron fetch.sourceId raws fetch.reading sync entries = .ok (entries', sync')) :
    fetch.replies.foldl (Alone.step nextCron (.syncExternalSources sourceIds))
        (.after (.syncExternalSources sourceIds) stored
          (nextSource sync (fetch.sourceId :: rest) now entries)) =
      .after (.syncExternalSources sourceIds) stored
        (nextSource sync' rest fetch.reading.now entries') := by
  have hhealth : ∀ {r : Reading} {reply : Reply} {x : Update × Ending},
      work nextCron (.syncExternalSources sourceIds) (.health sync fetch.sourceId rest) r reply
        entries = .ok x →
      Alone.step nextCron (.syncExternalSources sourceIds)
          ⟨entries, stored, some (.health sync fetch.sourceId rest)⟩ (r, reply) =
        .after (.syncExternalSources sourceIds) stored x := fun hwork => Alone.step_ok rfl hwork
  have hhealthy : Alone.step nextCron (.syncExternalSources sourceIds)
      ⟨entries, stored, some (.health sync fetch.sourceId rest)⟩
        (fetch.checked, .health true none) =
      ⟨entries, stored, some (.fetch sync fetch.sourceId rest)⟩ :=
    hhealth (x := ({ array := entries }, .await (.fetch sync fetch.sourceId rest))) rfl
  have hfetch : ∀ {r : Reading} {reply : Reply} {x : Update × Ending},
      work nextCron (.syncExternalSources sourceIds) (.fetch sync fetch.sourceId rest) r reply
        entries = .ok x →
      Alone.step nextCron (.syncExternalSources sourceIds)
          (Alone.step nextCron (.syncExternalSources sourceIds)
            ⟨entries, stored, some (.health sync fetch.sourceId rest)⟩
            (fetch.checked, .health true none)) (r, reply) =
        .after (.syncExternalSources sourceIds) stored x := fun hwork => by
    rw [hhealthy]
    exact Alone.step_ok rfl hwork
  unfold Fetch.replies
  cases houtcome : fetch.outcome with
  | failed failure =>
    rw [houtcome] at h
    obtain ⟨rfl, rfl⟩ := h
    cases failure with
    | unhealthy error => exact hhealth rfl
    | unreachable message => exact hhealth rfl
    | rejected message =>
      exact hfetch rfl
  | fetched raws =>
    rw [houtcome] at h
    have hwork : work nextCron (.syncExternalSources sourceIds)
        (.fetch sync fetch.sourceId rest) fetch.reading (.fetched raws) entries =
          .ok (nextSource sync' rest fetch.reading.now entries') := by
      show (do
        let (entries', sync') ← syncSource nextCron fetch.sourceId raws fetch.reading sync entries
        return nextSource sync' rest fetch.reading.now entries') = _
      exact bind_ok_iff.mpr ⟨(entries', sync'), h, rfl⟩
    exact hfetch hwork

/-- The section from one source on, by induction on the sources. -/
theorem foldl_syncFrom {sourceIds : List String} {sync : SyncState} {now : Millis}
    {entries stored : List ScheduleEntry} {fetches : List Fetch} {result : SyncResult}
    (h : syncFrom nextCron sync now entries fetches = .ok result) (last : Reading × Reply) :
    (fetches.flatMap Fetch.replies ++ [last]).foldl
        (Alone.step nextCron (.syncExternalSources sourceIds))
        (.after (.syncExternalSources sourceIds) stored
          (nextSource sync (fetches.map (·.sourceId)) now entries)) =
      ⟨result.entries, result.entries, none⟩ := by
  induction fetches generalizing sync now entries with
  | nil =>
    cases h
    by_cases hchanged : sync.changed entries = true
    · have hend : nextSource sync [] now entries =
          (⟨entries, some (disableMissing sync now entries)⟩, .save .syncSaved) := by
        simp [nextSource, endSync, hchanged]
      rw [List.map_nil, hend]
      show Alone.step nextCron (.syncExternalSources sourceIds)
        ⟨disableMissing sync now entries, disableMissing sync now entries, some .syncSaved⟩ last = _
      rw [Alone.step_ok rfl rfl]
      rfl
    · have hend : nextSource sync [] now entries =
          (⟨entries, some (disableMissing sync now entries)⟩, .done .unit) := by
        simp [nextSource, endSync, hchanged]
      rw [List.map_nil, hend]
      rfl
  | cons fetch fetches ih =>
    rw [List.flatMap_cons, List.append_assoc, List.foldl_append, List.map_cons]
    unfold syncFrom at h
    split at h
    · next failure houtcome =>
      rw [foldl_replies (by rw [houtcome]; exact ⟨rfl, rfl⟩)]
      exact ih h
    · next raws houtcome =>
      obtain ⟨⟨entries', sync'⟩, hsource, h⟩ := bind_ok_iff.mp h
      rw [foldl_replies (by rw [houtcome]; exact hsource)]
      exact ih h

end

/-- A source that cannot be reached. -/
def unreached : Fetch where
  sourceId := "calendar"
  reading := { now := 1 }
  outcome := .failed (.unreachable "offline")

/-- The key of a fetched entry: source and external id. -/
def ExternalScheduleEntry.pair (external : ExternalScheduleEntry) : String × String :=
  (external.sourceId, external.externalId)

/-- An external entry of a source and an external id; of none, when it has none. -/
def entryOf (sourceId : String) (externalId : Option String) (e : ScheduleEntry) : Bool :=
  e.metadata.any fun m =>
    m.source = .external ∧ m.externalSourceId = some sourceId ∧ m.externalId = externalId

theorem isExternalEntry_eq_entryOf (external : ExternalScheduleEntry) :
    isExternalEntry external = entryOf external.sourceId (some external.externalId) := rfl

theorem entryOf_iff {sourceId : String} {externalId : Option String} {e : ScheduleEntry} :
    entryOf sourceId externalId e = true ↔ ∃ metadata, e.metadata = some metadata ∧
      metadata.source = .external ∧ metadata.externalSourceId = some sourceId ∧
        metadata.externalId = externalId := by
  unfold entryOf
  cases e.metadata <;> simp

/-- An entry has one source and one external id. -/
theorem entryOf_unique {sourceId sourceId' : String} {externalId externalId' : Option String}
    {e : ScheduleEntry} (h : entryOf sourceId externalId e = true)
    (h' : entryOf sourceId' externalId' e = true) :
    sourceId = sourceId' ∧ externalId = externalId' := by
  obtain ⟨metadata, hmetadata, -, hsource, hid⟩ := entryOf_iff.mp h
  obtain ⟨metadata', hmetadata', -, hsource', hid'⟩ := entryOf_iff.mp h'
  obtain rfl := Option.some.inj (hmetadata.symm.trans hmetadata')
  exact ⟨Option.some.inj (hsource.symm.trans hsource'), hid.symm.trans hid'⟩

/-- The entry of one pair is not the entry of another. -/
theorem isExternalEntry_pair {external other : ExternalScheduleEntry} {e : ScheduleEntry}
    (h : isExternalEntry external e = true) (h' : isExternalEntry other e = true) :
    external.pair = other.pair := by
  obtain ⟨hsource, hid⟩ := entryOf_unique h h'
  exact Prod.ext hsource (Option.some.inj hid)

/-- The entry is as the input says, so that another synchronisation leaves it. -/
structure Holds (input : EntryInput) (e : ScheduleEntry) : Prop where
  name : e.name = input.name
  layer : e.layer = input.layer
  trigger : e.trigger = input.trigger
  enabled : e.enabled = input.enabled
  metadata : e.metadata = input.metadata
  heartbeat : input.heartbeat.or e.heartbeat = e.heartbeat
  probe : input.probe.or e.probe = e.probe
  cron : input.cron.or e.cron = e.cron
  goalTrigger : input.goalTrigger.or e.goalTrigger = e.goalTrigger

section

variable {nextCron : NextCron} {r : Reading} {external : ExternalScheduleEntry}
  {input : EntryInput} {existing candidate : ScheduleEntry}

theorem externalCandidate_self (h : Holds input existing) :
    externalCandidate nextCron input r existing = .ok existing := by
  unfold externalCandidate
  rw [if_pos h.trigger, h.heartbeat, h.probe, h.cron, h.goalTrigger, ← h.name, ← h.layer,
    ← h.trigger, ← h.enabled, ← h.metadata]
  rfl

theorem Holds.of_candidate (h : externalCandidate nextCron input r existing = .ok candidate)
    (updatedAt : Millis) : Holds input { candidate with updatedAt := updatedAt } := by
  have hor : ∀ a b : Option String, a.or (a.or b) = a.or b := fun a b => by cases a <;> rfl
  obtain ⟨nextFireAt, rfl, -⟩ := externalCandidate_eq h
  exact ⟨rfl, rfl, rfl, rfl, rfl, hor _ _, hor _ _, hor _ _, hor _ _⟩

/-- It is the candidate itself when nothing has changed. -/
theorem Holds.of_same (h : externalCandidate nextCron input r existing = .ok existing) :
    Holds input existing := Holds.of_candidate h existing.updatedAt

theorem Holds.of_new (input : EntryInput) (id : String) (now nextFireAt : Millis) :
    Holds input (input.entry id now nextFireAt) := by
  have hor : ∀ a : Option String, a.or a = a := fun a => by cases a <;> rfl
  exact ⟨rfl, rfl, rfl, rfl, rfl, hor _, hor _, hor _, hor _⟩

/-- An entry that holds the input of an external entry is the entry of its ids. -/
theorem Holds.isExternalEntry (h : Holds input existing)
    (hinput : buildExternalScheduleEntryInput external = some input) :
    isExternalEntry external existing = true := by
  rw [Schedule.isExternalEntry, h.metadata, (buildExternalScheduleEntryInput_eq hinput).2]
  simp

end

/-! ## Storing a fetched entry -/

section

variable (nextCron : NextCron) (r : Reading)

/-- `computeNextFireAt` is called for the fetched entry and throws: no stored entry has its
trigger, and its trigger has no next time. -/
def stuck (entries : List ScheduleEntry) (external : ExternalScheduleEntry) (input : EntryInput) :
    Bool :=
  (computeNextFireAt nextCron input.trigger r.now (r.random 0)).isNone &&
    ! (entries.find? (isExternalEntry external)).any fun existing =>
      existing.trigger = input.trigger

end

/-- What storing a fetched entry makes of the state. -/
structure Stores (external : ExternalScheduleEntry) (input : EntryInput)
    (acc acc' : SourceState) : Prop where
  held : ∃ head, acc'.entries.filter (isExternalEntry external) =
    head :: (acc.entries.filter (isExternalEntry external)).tail ∧ Holds input head
  kept : ∀ p : ScheduleEntry → Bool, (∀ e, isExternalEntry external e = true → p e = false) →
    acc'.entries.filter p = acc.entries.filter p
  seenKeys : acc'.sync.seenKeys = acc.sync.seenKeys
  reconciled : acc'.sync.reconciledSourceIds = acc.sync.reconciledSourceIds
  sourceIds : acc'.sourceIds = acc.sourceIds
  hadEntryErrors : acc'.hadEntryErrors = acc.hadEntryErrors

section

variable {nextCron : NextCron} {r : Reading} {external : ExternalScheduleEntry}
  {input : EntryInput} {acc acc' : SourceState}

theorem storeExternal_ok (hinput : buildExternalScheduleEntryInput external = some input)
    (h : storeExternal nextCron external input r acc = .ok acc') :
    Stores external input acc acc' ∧ stuck nextCron r acc.entries external input = false := by
  unfold storeExternal at h
  split at h
  · next hnone =>
    obtain ⟨⟨uuid, uuids⟩, -, h⟩ := bind_ok_iff.mp h
    obtain ⟨nextFireAt, hnext, h⟩ := bind_ok_iff.mp h
    cases h
    have hholds := Holds.of_new input uuid r.now nextFireAt
    have hentry := hholds.isExternalEntry hinput
    refine ⟨⟨⟨_, FirstMatch.filter_append_first hnone hentry, hholds⟩,
      fun p hp => FirstMatch.filter_append_of_disjoint hp hentry, rfl, rfl, rfl, rfl⟩, ?_⟩
    simp [stuck, orThrow_ok_iff.mp hnext]
  · next idx hidx =>
    obtain ⟨before, existing, after, hsplit, -, hexisting, hget, -⟩ := FirstMatch.exists_split hidx
    rw [hget] at h
    obtain ⟨candidate, hcandidate, h⟩ := bind_ok_iff.mp h
    have hfind : acc.entries.find? (isExternalEntry external) = some existing :=
      (FirstMatch.find?_of_findIdx? hidx).trans hget
    -- the trigger is the stored one, or its next time was computed
    have hstuck : stuck nextCron r acc.entries external input = false := by
      obtain ⟨nextFireAt, -, htrigger | hnext⟩ := externalCandidate_eq hcandidate
      · simp [stuck, hfind, htrigger]
      · simp [stuck, hnext]
    split at h
    · -- nothing has changed, and the entry stays
      next hsame =>
      cases h
      rw [← hsame] at hcandidate
      refine ⟨⟨⟨existing, ?_, Holds.of_same hcandidate⟩, fun p hp => rfl, rfl, rfl, rfl, rfl⟩, hstuck⟩
      exact List.eq_cons_of_mem_head? ((List.head?_filter).trans hfind)
    · cases h
      have hholds := Holds.of_candidate hcandidate r.now
      have hentry := hholds.isExternalEntry hinput
      exact ⟨⟨⟨_, FirstMatch.filter_set_first hidx hentry, hholds⟩,
        fun p hp => FirstMatch.filter_set_of_disjoint hidx hp hentry, rfl, rfl, rfl, rfl⟩, hstuck⟩
/-- The only exception: the trigger needs a next time and has none. -/
theorem storeExternal_throws (h : storeExternal nextCron external input r acc = .error .throws) :
    stuck nextCron r acc.entries external input = true := by
  have hthrows : ∀ {o : Option Millis}, orThrow o = .error .throws → o = none := by
    intro o ho
    cases o with
    | none => rfl
    | some a => cases ho
  unfold storeExternal at h
  split at h
  · next hnone =>
    have hfind : acc.entries.find? (isExternalEntry external) = none := by
      rw [List.find?_eq_bind_findIdx?_getElem?, hnone, Option.bind_none]
    rcases bind_error_iff.mp h with huuid | ⟨⟨uuid, uuids⟩, -, h⟩
    · unfold nextUuid at huuid
      split at huuid <;> cases huuid
    · rcases bind_error_iff.mp h with hnext | ⟨nextFireAt, -, h⟩
      · simp [stuck, hthrows hnext, hfind]
      · cases h
  · next idx hidx =>
    obtain ⟨before, existing, after, hsplit, -, -, hget, -⟩ := FirstMatch.exists_split hidx
    have hfind : acc.entries.find? (isExternalEntry external) = some existing :=
      (FirstMatch.find?_of_findIdx? hidx).trans hget
    rw [hget] at h
    rcases bind_error_iff.mp h with hcandidate | ⟨candidate, -, h⟩
    · unfold externalCandidate at hcandidate
      split at hcandidate
      · cases hcandidate
      · next htrigger =>
        rcases bind_error_iff.mp hcandidate with hnext | ⟨nextFireAt, -, h⟩
        · simp [stuck, hthrows hnext, hfind, htrigger]
        · cases h
    · split at h <;> cases h

end

/-- What storing fetched entries makes of the entries: the first entry of each pair holds what
was fetched, and nothing else changes. -/
structure Stored (done : List (ExternalScheduleEntry × EntryInput))
    (before after : List ScheduleEntry) : Prop where
  held : ∀ x ∈ done, ∃ head, after.filter (isExternalEntry x.1) =
    head :: (before.filter (isExternalEntry x.1)).tail ∧ Holds x.2 head
  kept : ∀ p : ScheduleEntry → Bool,
    (∀ x ∈ done, ∀ e, isExternalEntry x.1 e = true → p e = false) →
      after.filter p = before.filter p

theorem Stored.refl (l : List ScheduleEntry) : Stored [] l l :=
  ⟨fun _ hx => absurd hx List.not_mem_nil, fun _ _ => rfl⟩

/-- An entry of a pair that has not been stored is found as before. -/
theorem Stored.filter_eq {done : List (ExternalScheduleEntry × EntryInput)}
    {before after : List ScheduleEntry} (h : Stored done before after)
    {external : ExternalScheduleEntry} (hfresh : ∀ x ∈ done, x.1.pair ≠ external.pair) :
    after.filter (isExternalEntry external) = before.filter (isExternalEntry external) := by
  refine h.kept _ fun x hx e he => ?_
  by_contra hentry
  exact hfresh x hx (isExternalEntry_pair he (Bool.of_not_eq_false hentry))

theorem Stored.find?_eq {done : List (ExternalScheduleEntry × EntryInput)}
    {before after : List ScheduleEntry} (h : Stored done before after)
    {external : ExternalScheduleEntry} (hfresh : ∀ x ∈ done, x.1.pair ≠ external.pair) :
    after.find? (isExternalEntry external) = before.find? (isExternalEntry external) := by
  rw [← List.head?_filter, ← List.head?_filter, h.filter_eq hfresh]

/-- One more entry, of a pair that has not been stored. -/
theorem Stored.append {done : List (ExternalScheduleEntry × EntryInput)}
    {before : List ScheduleEntry} {external : ExternalScheduleEntry} {input : EntryInput}
    {acc acc' : SourceState} (h : Stored done before acc.entries)
    (hfresh : ∀ x ∈ done, x.1.pair ≠ external.pair) (hstep : Stores external input acc acc') :
    Stored (done ++ [(external, input)]) before acc'.entries where
  held x hx := by
    rcases List.mem_append.mp hx with hx | hx
    · obtain ⟨head, hhead, hholds⟩ := h.held x hx
      refine ⟨head, (hstep.kept _ fun e he => ?_).trans hhead, hholds⟩
      by_contra hentry
      exact hfresh x hx (isExternalEntry_pair (Bool.of_not_eq_false hentry) he)
    · obtain rfl := List.mem_singleton.mp hx
      obtain ⟨head, hhead, hholds⟩ := hstep.held
      exact ⟨head, by rw [hhead, h.filter_eq hfresh], hholds⟩
  kept p hp := by
    rw [hstep.kept p (hp (external, input) (List.mem_append_right _ (List.mem_singleton_self _))),
      h.kept p fun x hx => hp x (List.mem_append_left _ hx)]

/-! ## The entries a synchronisation comes to -/

section

variable (nextCron : NextCron) (r : Reading) (entries : List ScheduleEntry)

/-- The fetched entries that are looked up among the stored ones: those with a
configuration, up to the first that is stuck. -/
def lookedUp : List (Except String ExternalScheduleEntry) →
    List (ExternalScheduleEntry × EntryInput)
  | [] => []
  | .error _ :: raws => lookedUp raws
  | .ok external :: raws =>
    match buildExternalScheduleEntryInput external with
    | none => lookedUp raws
    | some input =>
      (external, input) ::
        if stuck nextCron r entries external input then [] else lookedUp raws

variable {nextCron r entries} in
/-- What is looked up was fetched. -/
theorem mem_lookedUp {raws : List (Except String ExternalScheduleEntry)}
    {x : ExternalScheduleEntry × EntryInput} (hx : x ∈ lookedUp nextCron r entries raws) :
    x.1 ∈ raws.filterMap Except.toOption ∧ buildExternalScheduleEntryInput x.1 = some x.2 := by
  induction raws with
  | nil => simp [lookedUp] at hx
  | cons raw raws ih =>
    cases raw with
    | error message => exact ih hx
    | ok external =>
      have hlater : x ∈ lookedUp nextCron r entries raws →
          x.1 ∈ (.ok external :: raws).filterMap Except.toOption ∧
            buildExternalScheduleEntryInput x.1 = some x.2 := fun hx =>
        ⟨List.mem_cons_of_mem _ (ih hx).1, (ih hx).2⟩
      cases hbuild : buildExternalScheduleEntryInput external with
      | none =>
        rw [lookedUp, hbuild] at hx
        exact hlater hx
      | some input =>
        rw [lookedUp, hbuild] at hx
        rcases List.mem_cons.mp hx with rfl | hx
        · exact ⟨List.mem_cons_self, hbuild⟩
        · split at hx
          · cases hx
          · exact hlater hx

/-- Those that are stored. -/
def storedOf (raws : List (Except String ExternalScheduleEntry)) :
    List (ExternalScheduleEntry × EntryInput) :=
  (lookedUp nextCron r entries raws).filter fun x => ! stuck nextCron r entries x.1 x.2

/-- Every fetched entry parses, has a configuration and is not stuck. -/
def whole (raws : List (Except String ExternalScheduleEntry)) : Bool :=
  raws.all fun
    | .error _ => false
    | .ok external => (buildExternalScheduleEntryInput external).any fun input =>
      ! stuck nextCron r entries external input

end

/-- What a source makes of the state, in terms of the entries before the synchronisation. -/
structure SourceSpec (nextCron : NextCron) (r : Reading)
    (done : List (ExternalScheduleEntry × EntryInput)) (before : List ScheduleEntry)
    (raws : List (Except String ExternalScheduleEntry)) (acc acc' : SourceState)
    (stop : Option Stop) : Prop where
  stored : Stored (done ++ storedOf nextCron r before raws) before acc'.entries
  seenKeys : acc'.sync.seenKeys = acc.sync.seenKeys ++ (lookedUp nextCron r before raws).map
    fun x => externalEntryKey x.1.sourceId x.1.externalId
  reconciled : acc'.sync.reconciledSourceIds = acc.sync.reconciledSourceIds
  errors : stop = none ∧ acc'.hadEntryErrors = false ↔
    acc.hadEntryErrors = false ∧ whole nextCron r before raws = true
  sourceIds : stop = none → acc'.sourceIds = acc.sourceIds ++
    (raws.filterMap Except.toOption).map (·.sourceId)

section

variable {nextCron : NextCron} {r : Reading}

/-- The state in which a fetched entry is looked up. -/
def SourceState.lookUp (acc : SourceState) (external : ExternalScheduleEntry) : SourceState :=
  { acc with
    sourceIds := acc.sourceIds ++ [external.sourceId]
    sync :=
      { acc.sync with
        seenKeys := acc.sync.seenKeys ++
          [externalEntryKey external.sourceId external.externalId] } }

/-- The state after a fetched entry without a configuration. -/
def SourceState.withoutConfig (acc : SourceState) (external : ExternalScheduleEntry) :
    SourceState :=
  SourceState.skip { acc with sourceIds := acc.sourceIds ++ [external.sourceId] } external.sourceId
    ("missing " ++ external.layer.name ++ " config for " ++ external.externalId)

theorem syncEntry_none {sourceId : String} {external : ExternalScheduleEntry}
    (hbuild : buildExternalScheduleEntryInput external = none) (acc : SourceState) :
    syncEntry nextCron sourceId r acc (.ok external) = (acc.withoutConfig external, none) := by
  simp only [syncEntry, hbuild]
  rfl

theorem syncEntry_some {sourceId : String} {external : ExternalScheduleEntry} {input : EntryInput}
    (hbuild : buildExternalScheduleEntryInput external = some input) (acc : SourceState) :
    syncEntry nextCron sourceId r acc (.ok external) =
      match storeExternal nextCron external input r (acc.lookUp external) with
      | .ok acc' => (acc', none)
      | .error stop => (acc.lookUp external, some stop) := by
  simp only [syncEntry, hbuild]
  rfl

section

variable {done : List (ExternalScheduleEntry × EntryInput)} {before : List ScheduleEntry}
  {raws : List (Except String ExternalScheduleEntry)} {acc acc' : SourceState} {stop : Option Stop}
  {external : ExternalScheduleEntry} {input : EntryInput}

theorem SourceSpec.parseError {sourceId message : String}
    (h : SourceSpec nextCron r done before raws (acc.skip sourceId message) acc' stop) :
    SourceSpec nextCron r done before (.error message :: raws) acc acc' stop := by
  refine ⟨h.stored, h.seenKeys, h.reconciled, h.errors.trans ?_, h.sourceIds⟩
  simp [SourceState.skip, whole]

theorem SourceSpec.withoutConfig (hbuild : buildExternalScheduleEntryInput external = none)
    (h : SourceSpec nextCron r done before raws (acc.withoutConfig external) acc' stop) :
    SourceSpec nextCron r done before (.ok external :: raws) acc acc' stop := by
  refine ⟨?_, ?_, h.reconciled, h.errors.trans ?_, fun hnone => ?_⟩
  · simpa [storedOf, lookedUp, hbuild] using h.stored
  · rw [lookedUp, hbuild]
    exact h.seenKeys
  · simp [SourceState.withoutConfig, SourceState.skip, whole, hbuild]
  · rw [h.sourceIds hnone]
    simp [SourceState.withoutConfig, SourceState.skip, Except.toOption]

/-- A fetched entry that is stored before the others. -/
theorem SourceSpec.store {acc₁ : SourceState}
    (hbuild : buildExternalScheduleEntryInput external = some input)
    (hfree : stuck nextCron r before external input = false)
    (hstep : Stores external input (acc.lookUp external) acc₁)
    (h : SourceSpec nextCron r (done ++ [(external, input)]) before raws acc₁ acc' stop) :
    SourceSpec nextCron r done before (.ok external :: raws) acc acc' stop := by
  have hlookedUp : lookedUp nextCron r before (.ok external :: raws) =
      (external, input) :: lookedUp nextCron r before raws := by
    simp [lookedUp, hbuild, hfree]
  refine ⟨?_, ?_, h.reconciled.trans hstep.reconciled, h.errors.trans ?_, fun hnone => ?_⟩
  · simpa [storedOf, hlookedUp, hfree] using h.stored
  · rw [h.seenKeys, hstep.seenKeys, hlookedUp]
    simp [SourceState.lookUp]
  · rw [hstep.hadEntryErrors]
    simp [SourceState.lookUp, whole, hbuild, hfree]
  · rw [h.sourceIds hnone, hstep.sourceIds]
    simp [SourceState.lookUp, Except.toOption]

/-- A fetched entry whose exception ends the source: its key is seen, and nothing is stored. -/
theorem SourceSpec.throws (hbuild : buildExternalScheduleEntryInput external = some input)
    (hstuck : stuck nextCron r before external input = true)
    (hstored : Stored done before acc.entries) :
    SourceSpec nextCron r done before (.ok external :: raws) acc (acc.lookUp external)
      (some .throws) := by
  have hlookedUp : lookedUp nextCron r before (.ok external :: raws) = [(external, input)] := by
    simp [lookedUp, hbuild, hstuck]
  have hnone : storedOf nextCron r before (.ok external :: raws) = [] := by
    simp [storedOf, hlookedUp, hstuck]
  refine ⟨?_, ?_, rfl, ?_, nofun⟩
  · rw [hnone, List.append_nil]
    exact hstored
  · rw [hlookedUp]
    rfl
  · simp [whole, hbuild, hstuck]

end

/-- The fetched entries of a source, by induction on them: what is stored so far stays the
invariant, since no pair comes twice. -/
theorem syncEntries_spec {sourceId : String} {done : List (ExternalScheduleEntry × EntryInput)}
    {before : List ScheduleEntry} {raws : List (Except String ExternalScheduleEntry)}
    {acc acc' : SourceState} {stop : Option Stop} (hstored : Stored done before acc.entries)
    (hpairs : ((raws.filterMap Except.toOption).map (·.pair)).Nodup)
    (hfresh : ∀ external ∈ raws.filterMap Except.toOption, ∀ x ∈ done, x.1.pair ≠ external.pair)
    (h : syncEntries nextCron sourceId r acc raws = (acc', stop))
    (hstop : stop ≠ some .impossible) :
    SourceSpec nextCron r done before raws acc acc' stop := by
  induction raws generalizing acc done with
  | nil =>
    cases h
    exact ⟨by simpa [storedOf, lookedUp] using hstored, by simp [lookedUp], rfl, by simp [whole],
      fun _ => by simp⟩
  | cons raw raws ih =>
    unfold syncEntries at h
    cases raw with
    | error message => exact .parseError (@ih done (acc.skip sourceId message) hstored hpairs hfresh h)
    | ok external =>
      have hcons : ((.ok external :: raws : List (Except String ExternalScheduleEntry))).filterMap
          Except.toOption = external :: raws.filterMap Except.toOption := rfl
      rw [hcons] at hfresh hpairs
      rw [List.map_cons, List.nodup_cons] at hpairs
      have hexternal : ∀ x ∈ done, x.1.pair ≠ external.pair := hfresh external List.mem_cons_self
      have hothers : ∀ other ∈ raws.filterMap Except.toOption, ∀ x ∈ done, x.1.pair ≠ other.pair :=
        fun other hother => hfresh other (List.mem_cons_of_mem _ hother)
      cases hbuild : buildExternalScheduleEntryInput external with
      | none =>
        rw [syncEntry_none hbuild] at h
        exact .withoutConfig hbuild
          (@ih done (acc.withoutConfig external) hstored hpairs.2 hothers h)
      | some input =>
        rw [syncEntry_some hbuild] at h
        -- the pair is new, so it is found as before the synchronisation
        have hstuck : stuck nextCron r (acc.lookUp external).entries external input =
            stuck nextCron r before external input := by
          rw [stuck, stuck, show (acc.lookUp external).entries = acc.entries from rfl,
            hstored.find?_eq hexternal]
        cases hstore : storeExternal nextCron external input r (acc.lookUp external) with
        | ok acc₁ =>
          rw [hstore] at h
          obtain ⟨hstep, hfree⟩ := storeExternal_ok hbuild hstore
          rw [hstuck] at hfree
          have hbefore : Stored done before (acc.lookUp external).entries := hstored
          have hothers' : ∀ other ∈ raws.filterMap Except.toOption,
              ∀ x ∈ done ++ [(external, input)], x.1.pair ≠ other.pair := by
            intro other hother x hx
            rcases List.mem_append.mp hx with hx | hx
            · exact hothers other hother x hx
            · obtain rfl := List.mem_singleton.mp hx
              exact fun heq => hpairs.1 (heq ▸ List.mem_map_of_mem hother)
          exact .store hbuild hfree hstep (ih (hbefore.append hexternal hstep) hpairs.2 hothers' h)
        | error stop' =>
          rw [hstore] at h
          obtain ⟨rfl, rfl⟩ : acc.lookUp external = acc' ∧ some stop' = stop := by simpa using h
          cases stop' with
          | impossible => exact absurd rfl hstop
          | throws =>
            exact .throws hbuild (hstuck.symm.trans (storeExternal_throws hstore)) hstored

/-- A source that answered its fetch. -/
theorem syncSource_spec {sourceId : String} {done : List (ExternalScheduleEntry × EntryInput)}
    {before entries entries' : List ScheduleEntry} {sync sync' : SyncState}
    {raws : List (Except String ExternalScheduleEntry)} (hstored : Stored done before entries)
    (hpairs : ((raws.filterMap Except.toOption).map (·.pair)).Nodup)
    (hfresh : ∀ external ∈ raws.filterMap Except.toOption, ∀ x ∈ done, x.1.pair ≠ external.pair)
    (h : syncSource nextCron sourceId raws r sync entries = .ok (entries', sync')) :
    Stored (done ++ storedOf nextCron r before raws) before entries' ∧
      sync'.seenKeys = sync.seenKeys ++ (lookedUp nextCron r before raws).map
        (fun x => externalEntryKey x.1.sourceId x.1.externalId) ∧
      sync'.reconciledSourceIds = if whole nextCron r before raws then
        sync.reconciledSourceIds ++ sourceId :: (raws.filterMap Except.toOption).map (·.sourceId)
      else sync.reconciledSourceIds := by
  unfold syncSource at h
  split at h
  · next acc hentries =>
    have hspec := syncEntries_spec hstored hpairs hfresh hentries nofun
    cases h
    refine ⟨hspec.stored, ?_, ?_⟩
    · split
      · exact hspec.seenKeys
      · exact hspec.seenKeys
    · have hsources := hspec.sourceIds rfl
      have herrors := hspec.errors
      cases hhad : acc.hadEntryErrors with
      | true =>
        have hpartial : whole nextCron r before raws ≠ true := fun hwhole => by
          simp [hhad, hwhole] at herrors
        rw [if_neg hpartial]
        exact hspec.reconciled
      | false =>
        have hwhole : whole nextCron r before raws = true := (herrors.mp ⟨rfl, hhad⟩).2
        rw [if_pos hwhole, hsources]
        simp [hspec.reconciled]
  · next acc hentries =>
    have hspec := syncEntries_spec hstored hpairs hfresh hentries nofun
    cases h
    have hpartial : whole nextCron r before raws ≠ true := fun hwhole =>
      absurd (hspec.errors.mpr ⟨rfl, hwhole⟩).1 nofun
    rw [if_neg hpartial]
    exact ⟨hspec.stored, hspec.seenKeys, hspec.reconciled⟩
  · cases h

end

/-! ## All sources -/

namespace Fetch

/-- The entries a source answers with that parse. -/
def externals (fetch : Fetch) : List ExternalScheduleEntry := fetch.outcome.externals

/-- The sources it answers for: itself, and those its entries name. -/
def sourceIds (fetch : Fetch) : List String :=
  fetch.sourceId :: fetch.externals.map (·.sourceId)

section

variable (nextCron : NextCron) (entries : List ScheduleEntry)

def lookedUp (fetch : Fetch) : List (ExternalScheduleEntry × EntryInput) :=
  match fetch.outcome with
  | .failed _ => []
  | .fetched raws => Schedule.lookedUp nextCron fetch.reading entries raws

def stored (fetch : Fetch) : List (ExternalScheduleEntry × EntryInput) :=
  match fetch.outcome with
  | .failed _ => []
  | .fetched raws => storedOf nextCron fetch.reading entries raws

/-- It is fetched, and every entry with it. -/
def whole (fetch : Fetch) : Bool :=
  match fetch.outcome with
  | .failed _ => false
  | .fetched raws => Schedule.whole nextCron fetch.reading entries raws

variable {nextCron entries}

theorem mem_lookedUp {fetch : Fetch} {x : ExternalScheduleEntry × EntryInput}
    (hx : x ∈ fetch.lookedUp nextCron entries) :
    x.1 ∈ fetch.externals ∧ buildExternalScheduleEntryInput x.1 = some x.2 := by
  unfold lookedUp at hx
  unfold externals
  split at hx
  · cases hx
  · next raws houtcome =>
    rw [houtcome]
    exact Schedule.mem_lookedUp hx

theorem mem_stored {fetch : Fetch} {x : ExternalScheduleEntry × EntryInput} :
    x ∈ fetch.stored nextCron entries ↔ x ∈ fetch.lookedUp nextCron entries ∧
      stuck nextCron fetch.reading entries x.1 x.2 = false := by
  unfold stored lookedUp
  split
  · simp
  · simp [storedOf]

end

end Fetch

/-- The keys of the fetched entries that are looked up. -/
def keysLookedUp (nextCron : NextCron) (entries : List ScheduleEntry) (fetches : List Fetch) :
    List String :=
  (fetches.flatMap (Fetch.lookedUp nextCron entries)).map fun x =>
    externalEntryKey x.1.sourceId x.1.externalId

/-- No pair of a source and an external id is fetched twice. -/
def PairsDistinct (fetches : List Fetch) : Prop :=
  ((fetches.flatMap Fetch.externals).map (·.pair)).Nodup

/-- What a synchronisation leaves, in terms of the entries before it. -/
structure SyncSpec (nextCron : NextCron) (done : List (ExternalScheduleEntry × EntryInput))
    (before : List ScheduleEntry) (sync : SyncState) (fetches : List Fetch)
    (result : SyncResult) : Prop where
  entries : ∃ after now, Stored (done ++ fetches.flatMap (Fetch.stored nextCron before)) before after ∧
    result.entries = disableMissing result.sync now after ∧
      result.saved = result.sync.changed after
  seenKeys : result.sync.seenKeys = sync.seenKeys ++ keysLookedUp nextCron before fetches
  reconciled : ∀ sourceId, sourceId ∈ result.sync.reconciledSourceIds ↔
    sourceId ∈ sync.reconciledSourceIds ∨
      ∃ fetch ∈ fetches, fetch.whole nextCron before = true ∧ sourceId ∈ fetch.sourceIds

section

variable {nextCron : NextCron}

/-- The first source. -/
theorem syncFrom_cons {done : List (ExternalScheduleEntry × EntryInput)}
    {before entries : List ScheduleEntry} {sync : SyncState} {now : Millis} {fetch : Fetch}
    {fetches : List Fetch} {result : SyncResult} (hstored : Stored done before entries)
    (hpairs : (fetch.externals.map (·.pair)).Nodup)
    (hfresh : ∀ external ∈ fetch.externals, ∀ x ∈ done, x.1.pair ≠ external.pair)
    (h : syncFrom nextCron sync now entries (fetch :: fetches) = .ok result) :
    ∃ sync' entries',
      syncFrom nextCron sync' fetch.reading.now entries' fetches = .ok result ∧
      Stored (done ++ fetch.stored nextCron before) before entries' ∧
      sync'.seenKeys = sync.seenKeys ++ keysLookedUp nextCron before [fetch] ∧
      sync'.reconciledSourceIds = if fetch.whole nextCron before then
        sync.reconciledSourceIds ++ fetch.sourceIds else sync.reconciledSourceIds := by
  unfold syncFrom at h
  split at h
  · next failure houtcome =>
    refine ⟨_, entries, h, ?_, ?_, ?_⟩
    · simpa [Fetch.stored, houtcome] using hstored
    · simp [keysLookedUp, Fetch.lookedUp, houtcome, SyncState.failed]
    · simp [Fetch.whole, houtcome, SyncState.failed]
  · next raws houtcome =>
    obtain ⟨⟨entries', sync'⟩, hsource, h⟩ := bind_ok_iff.mp h
    have hexternals : fetch.externals = raws.filterMap Except.toOption := by
      rw [Fetch.externals, houtcome]
      rfl
    rw [hexternals] at hpairs hfresh
    obtain ⟨hstored', hseen, hreconciled⟩ := syncSource_spec hstored hpairs hfresh hsource
    refine ⟨sync', entries', h, ?_, ?_, ?_⟩
    · simpa [Fetch.stored, houtcome] using hstored'
    · simpa [keysLookedUp, Fetch.lookedUp, houtcome] using hseen
    · simpa [Fetch.whole, houtcome, Fetch.sourceIds, hexternals] using hreconciled

/-- The sources from one on, by induction on them. -/
theorem syncFrom_spec {done : List (ExternalScheduleEntry × EntryInput)}
    {before entries : List ScheduleEntry} {sync : SyncState} {now : Millis} {fetches : List Fetch}
    {result : SyncResult} (hstored : Stored done before entries) (hpairs : PairsDistinct fetches)
    (hfresh : ∀ external ∈ fetches.flatMap Fetch.externals, ∀ x ∈ done, x.1.pair ≠ external.pair)
    (h : syncFrom nextCron sync now entries fetches = .ok result) :
    SyncSpec nextCron done before sync fetches result := by
  induction fetches generalizing done sync now entries with
  | nil =>
    cases h
    exact ⟨⟨entries, now, by simpa using hstored, rfl, rfl⟩, by simp [keysLookedUp], by simp⟩
  | cons fetch fetches ih =>
    rw [PairsDistinct, List.flatMap_cons, List.map_append, List.nodup_append'] at hpairs
    obtain ⟨hfirst, hrest, hdisjoint⟩ := hpairs
    have hfreshFirst : ∀ external ∈ fetch.externals, ∀ x ∈ done, x.1.pair ≠ external.pair :=
      fun external hmem => hfresh external (List.mem_append_left _ hmem)
    -- what this source stores is of other pairs than what the rest fetches
    have hfreshRest : ∀ external ∈ fetches.flatMap Fetch.externals,
        ∀ x ∈ done ++ fetch.stored nextCron before, x.1.pair ≠ external.pair := by
      intro external hmem x hx
      rcases List.mem_append.mp hx with hx | hx
      · exact hfresh external (List.mem_append_right _ hmem) x hx
      · have hfetched := (Fetch.mem_lookedUp (Fetch.mem_stored.mp hx).1).1
        exact fun heq => hdisjoint (List.mem_map_of_mem hfetched)
          (heq ▸ List.mem_map_of_mem hmem)
    obtain ⟨sync', entries', hsync, hstored', hseen, hreconciled⟩ :=
      syncFrom_cons hstored hfirst hfreshFirst h
    have hspec := ih hstored' hrest hfreshRest hsync
    refine ⟨?_, ?_, fun sourceId => ?_⟩
    · rw [List.flatMap_cons, ← List.append_assoc]
      exact hspec.entries
    · rw [hspec.seenKeys, hseen]
      simp [keysLookedUp]
    · rw [hspec.reconciled, hreconciled]
      by_cases hwhole : fetch.whole nextCron before = true
      · simp [hwhole, or_assoc]
      · simp [hwhole]

end

end Schedule

end PulSeed
