import PulSeed.Lib.FirstMatch
import PulSeed.Schedule.Serial

/-!
# What a section may change

An entry is found by its id. `Changes keeps fresh gone l l'` says of two lists of entries
that an entry in both is changed as `keeps` allows, that a new entry has a `fresh` id, and
that one that is no longer there has a `gone` one. Every stretch of a section makes such a
change, with the same three for all of them (`work_changes`): an entry is removed by
`removeEntry` alone, a new one has an id that was drawn for it, escalation data is touched by
`checkEscalation` alone, and an entry is enabled only by a section that `Enables` it.
-/

namespace PulSeed

namespace Schedule

/-- The entry with an id. -/
def entryById (entries : List ScheduleEntry) (id : String) : Option ScheduleEntry :=
  entries.find? fun entry => entry.id = id

theorem id_of_entryById {entries : List ScheduleEntry} {id : String} {e : ScheduleEntry}
    (h : entryById entries id = some e) : e.id = id := by
  simpa using List.find?_some h

theorem entryById_append (l l' : List ScheduleEntry) (id : String) :
    entryById (l ++ l') id = (entryById l id).or (entryById l' id) := by
  unfold entryById
  exact List.find?_append

theorem entryById_map {f : ScheduleEntry → ScheduleEntry} (hf : ∀ e, (f e).id = e.id)
    (l : List ScheduleEntry) (id : String) : entryById (l.map f) id = (entryById l id).map f := by
  unfold entryById
  rw [List.find?_map]
  congr 2
  funext e
  simp [hf]

theorem entryById_filter_ne (l : List ScheduleEntry) {id id' : String} (h : id' ≠ id) :
    entryById (l.filter fun e => e.id ≠ id) id' = entryById l id' := by
  unfold entryById
  rw [List.find?_filter]
  congr 1
  funext e
  by_cases he : e.id = id'
  · simp [he, h]
  · simp [he]

/-- Replacing one entry by one with its id. -/
theorem entryById_set {l : List ScheduleEntry} {idx : ℕ} {e e' : ScheduleEntry}
    (he : l[idx]? = some e) (hid : e'.id = e.id) (id : String) :
    entryById (l.set idx e') id = entryById l id ∨
      entryById l id = some e ∧ entryById (l.set idx e') id = some e' := by
  unfold entryById
  induction l generalizing idx with
  | nil => simp at he
  | cons x l ih =>
    cases idx with
    | zero =>
      obtain rfl : x = e := by simpa using he
      by_cases hx : x.id = id
      · right
        simp [hx, hid]
      · left
        simp [hx, hid]
    | succ idx =>
      rw [List.set_cons_succ, List.find?_cons, List.find?_cons]
      by_cases hx : x.id = id
      · left
        simp [hx]
      · simpa [hx] using ih (by simpa using he)

/-- Replacing the first entry with an id. -/
theorem entryById_set_first {l : List ScheduleEntry} {idx : ℕ} {id : String}
    (h : (l.findIdx? fun e => e.id = id) = some idx) {e' : ScheduleEntry} (hid : e'.id = id) :
    entryById (l.set idx e') id = some e' := by
  unfold entryById
  rw [← List.head?_filter, FirstMatch.filter_set_first h (by simpa using hid)]
  rfl

/-- The entry at the first index with an id is the entry with that id. -/
theorem entryById_of_findIdx? {l : List ScheduleEntry} {idx : ℕ} {id : String}
    (h : (l.findIdx? fun e => e.id = id) = some idx) : entryById l id = l[idx]? :=
  FirstMatch.find?_of_findIdx? h

/-- What becomes of the entries of a list, by their ids. -/
structure Changes (keeps : ScheduleEntry → ScheduleEntry → Prop) (fresh gone : String → Prop)
    (l l' : List ScheduleEntry) : Prop where
  kept : ∀ {id e e'}, entryById l id = some e → entryById l' id = some e' → keeps e e'
  fresh : ∀ {id e'}, entryById l id = none → entryById l' id = some e' → fresh id
  gone : ∀ {id e}, entryById l id = some e → entryById l' id = none → gone id

section

variable {keeps : ScheduleEntry → ScheduleEntry → Prop} {fresh gone : String → Prop}

theorem Changes.refl (hrefl : ∀ e, keeps e e) (l : List ScheduleEntry) :
    Changes keeps fresh gone l l where
  kept he he' := by
    obtain rfl := Option.some.inj (he.symm.trans he')
    exact hrefl _
  fresh he he' := absurd (he.symm.trans he') nofun
  gone he he' := absurd (he.symm.trans he') nofun

theorem Changes.trans (htrans : ∀ a b c, keeps a b → keeps b c → keeps a c)
    (hgone : ∀ id, gone id → ¬ fresh id) {l l' l'' : List ScheduleEntry}
    (h : Changes keeps fresh gone l l') (h' : Changes keeps fresh gone l' l'') :
    Changes keeps fresh gone l l'' where
  kept {id e e''} he he'' := by
    cases he' : entryById l' id with
    | none => exact absurd (h'.fresh he' he'') (hgone id (h.gone he he'))
    | some e' => exact htrans _ _ _ (h.kept he he') (h'.kept he' he'')
  fresh {id e''} he he'' := by
    cases he' : entryById l' id with
    | none => exact h'.fresh he' he''
    | some e' => exact h.fresh he he'
  gone {id e} he he'' := by
    cases he' : entryById l' id with
    | none => exact h.gone he he'
    | some e' => exact h'.gone he' he''

theorem Changes.mono {keeps' : ScheduleEntry → ScheduleEntry → Prop} {fresh' : String → Prop}
    {l l' : List ScheduleEntry} (h : Changes keeps fresh gone l l')
    (hkeeps : ∀ e e', keeps e e' → keeps' e e') (hfresh : ∀ id, fresh id → fresh' id) :
    Changes keeps' fresh' gone l l' where
  kept he he' := hkeeps _ _ (h.kept he he')
  fresh he he' := hfresh _ (h.fresh he he')
  gone := h.gone

/-- Each entry found by its id in one of two lists, or in both and kept. -/
theorem Changes.of_pointwise (hrefl : ∀ e, keeps e e) {l l' : List ScheduleEntry}
    (h : ∀ id, entryById l' id = entryById l id ∨
      ∃ e e', entryById l id = some e ∧ entryById l' id = some e' ∧ keeps e e') :
    Changes keeps fresh gone l l' := by
  refine ⟨fun {id e e'} he he' => ?_, fun {id e'} he he' => ?_, fun {id e} he he' => ?_⟩
  · rcases h id with hsame | ⟨x, x', hx, hx', hkeeps⟩
    · obtain rfl := Option.some.inj (he.symm.trans (hsame.symm.trans he'))
      exact hrefl _
    · obtain rfl := Option.some.inj (he.symm.trans hx)
      obtain rfl := Option.some.inj (he'.symm.trans hx')
      exact hkeeps
  · rcases h id with hsame | ⟨x, x', hx, -, -⟩
    · exact absurd (he.symm.trans (hsame.symm.trans he')) nofun
    · exact absurd (he.symm.trans hx) nofun
  · rcases h id with hsame | ⟨x, x', -, hx', -⟩
    · exact absurd (he'.symm.trans (hsame.trans he)) nofun
    · exact absurd (he'.symm.trans hx') nofun

theorem Changes.set (hrefl : ∀ e, keeps e e) {l : List ScheduleEntry} {idx : ℕ}
    {e e' : ScheduleEntry} (he : l[idx]? = some e) (hid : e'.id = e.id) (hkeeps : keeps e e') :
    Changes keeps fresh gone l (l.set idx e') := by
  refine .of_pointwise hrefl fun id => ?_
  rcases entryById_set he hid id with hsame | ⟨hbefore, hafter⟩
  · exact .inl hsame
  · exact .inr ⟨e, e', hbefore, hafter, hkeeps⟩

theorem Changes.map (hrefl : ∀ e, keeps e e) {f : ScheduleEntry → ScheduleEntry}
    (hid : ∀ e, (f e).id = e.id) (hkeeps : ∀ e, keeps e (f e)) (l : List ScheduleEntry) :
    Changes keeps fresh gone l (l.map f) := by
  refine .of_pointwise hrefl fun id => ?_
  rw [entryById_map hid]
  cases entryById l id with
  | none => exact .inl rfl
  | some e => exact .inr ⟨e, f e, rfl, rfl, hkeeps e⟩

theorem Changes.append (hrefl : ∀ e, keeps e e) (l : List ScheduleEntry) {e : ScheduleEntry}
    (hfresh : fresh e.id) : Changes keeps fresh gone l (l ++ [e]) where
  kept {id x x'} hx hx' := by
    rw [entryById_append, hx] at hx'
    obtain rfl : x = x' := Option.some.inj hx'
    exact hrefl x
  fresh {id x'} hx hx' := by
    rw [entryById_append, hx, Option.none_or] at hx'
    obtain rfl := List.mem_singleton.mp (List.mem_of_find?_eq_some hx')
    rwa [← id_of_entryById hx']
  gone {id x} hx hx' := by
    rw [entryById_append, hx] at hx'
    cases hx'

theorem Changes.filter_ne (hrefl : ∀ e, keeps e e) (l : List ScheduleEntry) {id : String}
    (hgone : gone id) : Changes keeps fresh gone l (l.filter fun e => e.id ≠ id) := by
  have hother : ∀ id', id' ≠ id →
      entryById (l.filter fun e => e.id ≠ id) id' = entryById l id' := fun _ h =>
    entryById_filter_ne l h
  have hself : entryById (l.filter fun e => e.id ≠ id) id = none := by
    unfold entryById
    rw [List.find?_eq_none]
    simp
  refine ⟨fun {id' e e'} he he' => ?_, fun {id' e'} he he' => ?_, fun {id' e} he he' => ?_⟩
  · by_cases hid : id' = id
    · rw [hid, hself] at he'
      cases he'
    · rw [hother id' hid] at he'
      obtain rfl := Option.some.inj (he.symm.trans he')
      exact hrefl e
  · by_cases hid : id' = id
    · rw [hid, hself] at he'
      cases he'
    · rw [hother id' hid] at he'
      exact absurd (he.symm.trans he') nofun
  · by_cases hid : id' = id
    · exact hid ▸ hgone
    · rw [hother id' hid] at he'
      exact absurd (he.symm.trans he') nofun

end

/-! ## What a section may do to an entry -/

/-- The entries an outside source answered with. -/
def Reply.externals : Reply → List ExternalScheduleEntry
  | fetched raws => raws.filterMap fun raw => raw.toOption
  | _ => []

/-- The section may enable a disabled entry: `updateEntry` with `enabled: true`, a
synchronisation that fetched it enabled, the outcome of its execution unless that preserves
the flag. -/
def Section.Enables (inputs : List (Reading × Reply)) (e : ScheduleEntry) : Section → Prop
  | updateEntry id patch => e.id = id ∧ patch.enabled = some true
  | syncExternalSources _ => ∃ input ∈ inputs, ∃ external ∈ input.2.externals,
      external.enabled = true ∧ isExternalEntry external e = true
  | applyOutcome execution _ _ =>
    e.id = execution.entry.id ∧ execution.role.preserveEnabled = false
  | _ => False

instance (inputs : List (Reading × Reply)) (e : ScheduleEntry) :
    (sec : Section) → Decidable (sec.Enables inputs e)
  | .updateEntry _ _ => inferInstanceAs (Decidable (_ ∧ _))
  | .syncExternalSources _ => inferInstanceAs (Decidable (∃ input ∈ inputs, _))
  | .applyOutcome _ _ _ => inferInstanceAs (Decidable (_ ∧ _))
  | .addEntry _ => instDecidableFalse
  | .removeEntry _ => instDecidableFalse
  | .loadEntries => instDecidableFalse
  | .tick => instDecidableFalse
  | .findEntry _ => instDecidableFalse
  | .checkEscalation _ => instDecidableFalse

/-- What a section keeps of an entry. -/
structure Keeps (sec : Section) (inputs : List (Reading × Reply)) (e e' : ScheduleEntry) :
    Prop where
  id : e'.id = e.id
  external : ∀ external, isExternalEntry external e' = isExternalEntry external e
  enabled : e.enabled = false → e'.enabled = true → sec.Enables inputs e
  escalations : (∀ id, sec ≠ .checkEscalation id) →
    e'.lastEscalationAt = e.lastEscalationAt ∧ e'.escalationTimestamps = e.escalationTimestamps

/-- The sections that add entries. -/
def Section.adds : Section → Bool
  | addEntry _ => true
  | syncExternalSources _ => true
  | _ => false

/-- The ids that were drawn for the entries a section adds. -/
def Section.NewId (sec : Section) (inputs : List (Reading × Reply)) (id : String) : Prop :=
  sec.adds = true ∧ ∃ input ∈ inputs, id ∈ input.1.uuids

/-- What a section does to the entries. -/
abbrev SectionChanges (sec : Section) (inputs : List (Reading × Reply)) :
    List ScheduleEntry → List ScheduleEntry → Prop :=
  Changes (Keeps sec inputs) (sec.NewId inputs) fun id => sec = .removeEntry id

section

variable {sec : Section} {inputs : List (Reading × Reply)}

theorem Keeps.refl (e : ScheduleEntry) : Keeps sec inputs e e :=
  ⟨rfl, fun _ => rfl, fun h h' => absurd (h.symm.trans h') nofun, fun _ => ⟨rfl, rfl⟩⟩

theorem Section.Enables.congr {e e' : ScheduleEntry} (hid : e'.id = e.id)
    (hexternal : ∀ external, isExternalEntry external e' = isExternalEntry external e)
    (h : sec.Enables inputs e') : sec.Enables inputs e := by
  cases sec with
  | updateEntry id patch => exact ⟨hid ▸ h.1, h.2⟩
  | syncExternalSources sourceIds =>
    obtain ⟨input, hinput, external, hmem, henabled, hentry⟩ := h
    exact ⟨input, hinput, external, hmem, henabled, hexternal external ▸ hentry⟩
  | applyOutcome execution result sideEffects => exact ⟨hid ▸ h.1, h.2⟩
  | _ => exact h

theorem Keeps.trans (a b c : ScheduleEntry) (h : Keeps sec inputs a b)
    (h' : Keeps sec inputs b c) : Keeps sec inputs a c := by
  refine ⟨h'.id.trans h.id, fun x => (h'.external x).trans (h.external x), fun ha hc => ?_,
    fun hsec => ⟨(h'.escalations hsec).1.trans (h.escalations hsec).1,
      (h'.escalations hsec).2.trans (h.escalations hsec).2⟩⟩
  cases hb : b.enabled with
  | true => exact h.enabled ha hb
  | false => exact (h'.enabled hb hc).congr h.id h.external

/-- A change of members that neither the identity nor the escalations of an entry read. -/
theorem Keeps.of_eq {e e' : ScheduleEntry} (hid : e'.id = e.id) (hmetadata : e'.metadata = e.metadata)
    (hlast : e'.lastEscalationAt = e.lastEscalationAt)
    (htimestamps : e'.escalationTimestamps = e.escalationTimestamps)
    (henabled : e.enabled = false → e'.enabled = true → sec.Enables inputs e) :
    Keeps sec inputs e e' :=
  ⟨hid, fun external => by rw [isExternalEntry, isExternalEntry, hmetadata], henabled,
    fun _ => ⟨hlast, htimestamps⟩⟩

theorem Keeps.mono {inputs' : List (Reading × Reply)} (hsub : inputs ⊆ inputs')
    {e e' : ScheduleEntry} (h : Keeps sec inputs e e') : Keeps sec inputs' e e' := by
  refine ⟨h.id, h.external, fun he he' => ?_, h.escalations⟩
  have henables := h.enabled he he'
  cases sec with
  | syncExternalSources sourceIds =>
    obtain ⟨input, hinput, hrest⟩ := henables
    exact ⟨input, hsub hinput, hrest⟩
  | _ => exact henables

theorem SectionChanges.refl (l : List ScheduleEntry) : SectionChanges sec inputs l l :=
  Changes.refl Keeps.refl l

theorem SectionChanges.trans {l l' l'' : List ScheduleEntry} (h : SectionChanges sec inputs l l')
    (h' : SectionChanges sec inputs l' l'') : SectionChanges sec inputs l l'' := by
  refine Changes.trans Keeps.trans ?_ h h'
  rintro id rfl ⟨hadds, -⟩
  cases hadds

theorem SectionChanges.mono {inputs' : List (Reading × Reply)} (hsub : inputs ⊆ inputs')
    {l l' : List ScheduleEntry} (h : SectionChanges sec inputs l l') :
    SectionChanges sec inputs' l l' :=
  Changes.mono h (fun _ _ => Keeps.mono hsub) fun _ hnew =>
    ⟨hnew.1, hnew.2.imp fun _ hinput => ⟨hsub hinput.1, hinput.2⟩⟩

theorem uuids_of_nextUuid {uuids rest : List String} {uuid : String}
    (h : nextUuid uuids = .ok (uuid, rest)) : uuids = uuid :: rest := by
  unfold nextUuid at h
  split at h
  · cases h
    rfl
  · cases h

end

/-! ## Stretches -/

section

variable {nextCron : NextCron} {r : Reading} {reply : Reply} {entries : List ScheduleEntry}

theorem addEntryInMemory_changes {input : EntryInput} {u : Update}
    (h : addEntryInMemory nextCron input r entries = .ok u) :
    SectionChanges (.addEntry input) [(r, reply)] entries u.entries := by
  unfold addEntryInMemory at h
  dsimp only at h
  split at h
  · cases h
    exact .refl entries
  · obtain ⟨⟨uuid, uuids⟩, huuid, h⟩ := bind_ok_iff.mp h
    obtain ⟨nextFireAt, -, h⟩ := bind_ok_iff.mp h
    cases h
    refine Changes.append Keeps.refl entries ⟨rfl, (r, reply), List.mem_singleton_self _, ?_⟩
    rw [uuids_of_nextUuid huuid]
    exact List.mem_cons_self

/-- An entry that is updated. -/
theorem UpdateInput.entry_keeps {id : String} {patch : UpdateInput} {current next : ScheduleEntry}
    (hid : current.id = id) (h : patch.entry nextCron current r = .ok next) :
    Keeps (.updateEntry id patch) [(r, reply)] current next := by
  have henabled : ∀ {e : ScheduleEntry}, e.enabled = patch.enabled.getD current.enabled →
      current.enabled = false → e.enabled = true →
        (Section.updateEntry id patch).Enables [(r, reply)] current := by
    intro e he hcurrent hon
    refine ⟨hid, ?_⟩
    cases hpatch : patch.enabled with
    | none => simp [he, hpatch, hcurrent] at hon
    | some enabled => simpa [he, hpatch] using hon
  unfold UpdateInput.entry at h
  dsimp only at h
  split at h
  · obtain ⟨nextFireAt, -, h⟩ := bind_ok_iff.mp h
    cases h
    exact .of_eq rfl rfl rfl rfl (henabled rfl)
  · cases h
    exact .of_eq rfl rfl rfl rfl (henabled rfl)

theorem updateEntry_changes {id : String} {patch : UpdateInput} {u : Update}
    (h : updateEntry nextCron id patch r entries = .ok u) :
    SectionChanges (.updateEntry id patch) [(r, reply)] entries u.entries := by
  unfold updateEntry at h
  split at h
  · cases h
    exact .refl entries
  · next idx hidx =>
    split at h
    · cases h
      exact .refl entries
    · next current hcurrent =>
      have hid : current.id = id :=
        id_of_entryById ((entryById_of_findIdx? hidx).trans hcurrent)
      split at h
      · cases h
      · split at h
        · cases h
        · obtain ⟨next, hnext, h⟩ := bind_ok_iff.mp h
          split at h
          · cases h
            have hkeeps : Keeps (.updateEntry id patch) [(r, reply)] current next :=
              UpdateInput.entry_keeps hid hnext
            exact Changes.set Keeps.refl hcurrent hkeeps.id hkeeps
          · cases h

/-- The input of an external entry, whose layer has a configuration. -/
theorem buildExternalScheduleEntryInput_eq {external : ExternalScheduleEntry} {input : EntryInput}
    (h : buildExternalScheduleEntryInput external = some input) :
    input.enabled = external.enabled ∧ input.metadata = some
      { source := .external
        externalSourceId := some external.sourceId
        externalId := some external.externalId
        note := external.note } := by
  unfold buildExternalScheduleEntryInput at h
  dsimp only at h
  split at h <;>
  · obtain ⟨config, -, rfl⟩ := Option.map_eq_some_iff.mp h
    exact ⟨rfl, rfl⟩

/-- The entry of an external id stays the entry of that id. -/
theorem isExternalEntry_congr {external : ExternalScheduleEntry} {existing e : ScheduleEntry}
    {note : Option String} (h : isExternalEntry external existing = true)
    (he : e.metadata = some
      { source := .external
        externalSourceId := some external.sourceId
        externalId := some external.externalId
        note := note }) (other : ExternalScheduleEntry) :
    isExternalEntry other e = isExternalEntry other existing := by
  unfold isExternalEntry at h ⊢
  rw [he]
  cases hmetadata : existing.metadata with
  | none => simp [hmetadata] at h
  | some metadata =>
    rw [hmetadata] at h
    obtain ⟨hsource, hsourceId, hid⟩ : metadata.source = .external ∧
        metadata.externalSourceId = some external.sourceId ∧
          metadata.externalId = some external.externalId := by simpa using h
    simp [hsource, hsourceId, hid]

variable {sourceIds : List String}

theorem orThrow_ok_iff {α : Type} {o : Option α} {a : α} : orThrow o = .ok a ↔ o = some a := by
  cases o <;> simp [orThrow]

/-- The candidate: as the input says, and a new next time only for a new trigger. -/
theorem externalCandidate_eq {input : EntryInput} {existing candidate : ScheduleEntry}
    (h : externalCandidate nextCron input r existing = .ok candidate) :
    ∃ nextFireAt, candidate =
      { existing with
        name := input.name
        layer := input.layer
        trigger := input.trigger
        enabled := input.enabled
        metadata := input.metadata
        heartbeat := input.heartbeat.or existing.heartbeat
        probe := input.probe.or existing.probe
        cron := input.cron.or existing.cron
        goalTrigger := input.goalTrigger.or existing.goalTrigger
        nextFireAt := nextFireAt } ∧
      (existing.trigger = input.trigger ∨
        computeNextFireAt nextCron input.trigger r.now (r.random 0) = some nextFireAt) := by
  unfold externalCandidate at h
  dsimp only at h
  split at h
  · next htrigger =>
    cases h
    exact ⟨_, rfl, .inl htrigger⟩
  · obtain ⟨nextFireAt, hnext, h⟩ := bind_ok_iff.mp h
    cases h
    exact ⟨nextFireAt, rfl, .inr (orThrow_ok_iff.mp hnext)⟩

theorem externalCandidate_keeps {external : ExternalScheduleEntry} {input : EntryInput}
    {existing candidate : ScheduleEntry} (hexternal : external ∈ reply.externals)
    (hinput : buildExternalScheduleEntryInput external = some input)
    (hentry : isExternalEntry external existing = true)
    (h : externalCandidate nextCron input r existing = .ok candidate) (updatedAt : Millis) :
    Keeps (.syncExternalSources sourceIds) [(r, reply)] existing
      { candidate with updatedAt := updatedAt } := by
  obtain ⟨henabled, hmetadata⟩ := buildExternalScheduleEntryInput_eq hinput
  have henables : input.enabled = true →
      (Section.syncExternalSources sourceIds).Enables [(r, reply)] existing := fun hon =>
    ⟨(r, reply), List.mem_singleton_self _, external, hexternal, henabled ▸ hon, hentry⟩
  obtain ⟨nextFireAt, rfl, -⟩ := externalCandidate_eq h
  exact ⟨rfl, isExternalEntry_congr hentry hmetadata, fun _ => henables, fun _ => ⟨rfl, rfl⟩⟩

/-- What a synchronisation has done to the entries of a source. -/
structure SourceChanges (sourceIds : List String) (r : Reading) (reply : Reply)
    (acc acc' : SourceState) : Prop where
  entries : SectionChanges (.syncExternalSources sourceIds) [(r, reply)] acc.entries acc'.entries
  uuids : acc'.uuids ⊆ acc.uuids

theorem SourceChanges.trans {acc acc' acc'' : SourceState}
    (h : SourceChanges sourceIds r reply acc acc') (h' : SourceChanges sourceIds r reply acc' acc'') :
    SourceChanges sourceIds r reply acc acc'' :=
  ⟨h.entries.trans h'.entries, List.Subset.trans h'.uuids h.uuids⟩

/-- A state with the same entries and ids. -/
theorem SourceChanges.of_eq {acc acc' : SourceState} (hentries : acc'.entries = acc.entries)
    (huuids : acc'.uuids = acc.uuids) : SourceChanges sourceIds r reply acc acc' :=
  ⟨hentries ▸ .refl _, huuids ▸ List.Subset.refl _⟩

theorem storeExternal_changes {external : ExternalScheduleEntry} {input : EntryInput}
    {acc acc' : SourceState} (huuids : acc.uuids ⊆ r.uuids)
    (hexternal : external ∈ reply.externals)
    (hinput : buildExternalScheduleEntryInput external = some input)
    (h : storeExternal nextCron external input r acc = .ok acc') :
    SourceChanges sourceIds r reply acc acc' := by
  unfold storeExternal at h
  split at h
  · obtain ⟨⟨uuid, uuids⟩, huuid, h⟩ := bind_ok_iff.mp h
    obtain ⟨nextFireAt, -, h⟩ := bind_ok_iff.mp h
    cases h
    have heq := uuids_of_nextUuid huuid
    refine ⟨Changes.append Keeps.refl _ ⟨rfl, (r, reply), List.mem_singleton_self _, huuids ?_⟩, ?_⟩
    · rw [heq]
      exact List.mem_cons_self
    · rw [heq]
      exact List.subset_cons_self uuid uuids
  · next idx hidx =>
    split at h
    · cases h
      exact .of_eq rfl rfl
    · next existing hexisting =>
      obtain ⟨candidate, hcandidate, h⟩ := bind_ok_iff.mp h
      split at h
      · cases h
        exact .of_eq rfl rfl
      · cases h
        have hentry : isExternalEntry external existing = true := by
          obtain ⟨hlt, hp, -⟩ := List.findIdx?_eq_some_iff_getElem.mp hidx
          rw [List.getElem?_eq_getElem hlt] at hexisting
          rwa [Option.some.inj hexisting] at hp
        have hkeeps : Keeps (.syncExternalSources sourceIds) [(r, reply)] existing
            { candidate with updatedAt := r.now } :=
          externalCandidate_keeps hexternal hinput hentry hcandidate r.now
        exact ⟨Changes.set Keeps.refl hexisting hkeeps.id hkeeps, List.Subset.refl _⟩

theorem syncEntry_changes {sourceId : String} {acc acc' : SourceState}
    {raw : Except String ExternalScheduleEntry} {stop : Option Stop} (huuids : acc.uuids ⊆ r.uuids)
    (hraw : ∀ external, raw = .ok external → external ∈ reply.externals)
    (h : syncEntry nextCron sourceId r acc raw = (acc', stop)) :
    SourceChanges sourceIds r reply acc acc' := by
  unfold syncEntry at h
  split at h
  · cases h
    exact .of_eq rfl rfl
  · next external =>
    dsimp only at h
    split at h
    · cases h
      exact .of_eq rfl rfl
    · next input hinput =>
      split at h
      · next acc₁ hstore =>
        cases h
        have hstored : SourceChanges sourceIds r reply _ acc' :=
          storeExternal_changes (by exact huuids) (hraw external rfl) hinput hstore
        exact ⟨hstored.entries, hstored.uuids⟩
      · cases h
        exact .of_eq rfl rfl

/-- The fetched entries of a source, by induction on them. -/
theorem syncEntries_changes {sourceId : String} {acc acc' : SourceState}
    {raws : List (Except String ExternalScheduleEntry)} {stop : Option Stop}
    (huuids : acc.uuids ⊆ r.uuids)
    (hraws : ∀ external, .ok external ∈ raws → external ∈ reply.externals)
    (h : syncEntries nextCron sourceId r acc raws = (acc', stop)) :
    SourceChanges sourceIds r reply acc acc' := by
  induction raws generalizing acc with
  | nil =>
    cases h
    exact .of_eq rfl rfl
  | cons raw raws ih =>
    have hfirst : ∀ external, raw = .ok external → external ∈ reply.externals := fun external hraw =>
      hraws external (hraw ▸ List.mem_cons_self)
    unfold syncEntries at h
    split at h
    · next acc₁ hsync =>
      have hstep : SourceChanges sourceIds r reply acc acc₁ :=
        syncEntry_changes huuids hfirst hsync
      exact hstep.trans (ih (List.Subset.trans hstep.uuids huuids)
        (fun external hmem => hraws external (List.mem_cons_of_mem _ hmem)) h)
    · exact syncEntry_changes huuids hfirst h

theorem syncSource_changes {sourceId : String} {raws : List (Except String ExternalScheduleEntry)}
    {sync sync' : SyncState} {entries' : List ScheduleEntry}
    (h : syncSource nextCron sourceId raws r sync entries = .ok (entries', sync')) :
    SectionChanges (.syncExternalSources sourceIds) [(r, .fetched raws)] entries entries' := by
  have hraws : ∀ external, .ok external ∈ raws → external ∈ (Reply.fetched raws).externals := by
    intro external hmem
    exact List.mem_filterMap.mpr ⟨_, hmem, rfl⟩
  unfold syncSource at h
  split at h
  · next acc hsync =>
    cases h
    exact (syncEntries_changes (List.Subset.refl _) hraws hsync).entries
  · next acc hsync =>
    cases h
    exact (syncEntries_changes (List.Subset.refl _) hraws hsync).entries
  · cases h

theorem nextSource_changes {sync : SyncState} {rest : List String} {now : Millis} {u : Update}
    {ending : Ending} (h : nextSource sync rest now entries = (u, ending)) :
    SectionChanges (.syncExternalSources sourceIds) [(r, reply)] entries u.entries := by
  cases rest with
  | nil =>
    cases h
    refine Changes.map Keeps.refl (fun e => ?_) (fun e => ?_) entries
    · split <;> rfl
    · split
      · exact .of_eq rfl rfl rfl rfl fun _ hon => by cases hon
      · exact .refl e
  | cons sourceId rest =>
    cases h
    exact .refl entries

/-- The entry after an outcome: enabled when the flag is not preserved. -/
theorem outcome_keeps {execution : Execution} {result : ScheduleResult}
    {sideEffects : Option (List String)} {scheduledFor : Option Millis} {nextFireAt : Millis}
    {entry : ScheduleEntry} (hid : entry.id = execution.entry.id) :
    Keeps (.applyOutcome execution result sideEffects) [(r, reply)] entry
      (circuitBreaker (outcomeEntry entry result scheduledFor execution.role.preserveEnabled
        nextFireAt r)) := by
  unfold circuitBreaker
  split
  · exact .of_eq rfl rfl rfl rfl fun _ hon => by cases hon
  · refine .of_eq rfl rfl rfl rfl fun hoff hon => ⟨hid, ?_⟩
    cases hpreserve : execution.role.preserveEnabled with
    | false => rfl
    | true =>
      rw [hpreserve] at hon
      exact absurd (hoff.symm.trans hon) nofun

theorem applyExecutionOutcome_changes {execution : Execution} {result : ScheduleResult}
    {sideEffects : Option (List String)} {entries' : List ScheduleEntry} {updated : ScheduleEntry}
    (h : applyExecutionOutcome nextCron execution.entry.id result execution.scheduledFor
      execution.role.preserveEnabled r entries = .ok (some (entries', updated))) :
    SectionChanges (.applyOutcome execution result sideEffects) [(r, reply)] entries entries' := by
  unfold applyExecutionOutcome at h
  split at h
  · cases h
  · next idx hidx =>
    split at h
    · cases h
    · next entry hentry =>
      obtain ⟨nextFireAt, -, h⟩ := bind_ok_iff.mp h
      cases h
      have hkeeps : Keeps (.applyOutcome execution result sideEffects) [(r, reply)] entry
          (circuitBreaker (outcomeEntry entry result execution.scheduledFor
            execution.role.preserveEnabled nextFireAt r)) :=
        outcome_keeps (id_of_entryById ((entryById_of_findIdx? hidx).trans hentry))
      exact Changes.set Keeps.refl hentry hkeeps.id hkeeps

theorem setBaseline_changes {sec : Section} {inputs : List (Reading × Reply)} (entryId : String)
    (baseline : ScheduleEntry → List String) :
    SectionChanges sec inputs entries (setBaseline entryId baseline entries) := by
  unfold setBaseline
  split
  · exact .refl entries
  · split
    · exact .refl entries
    · next entry hentry =>
      exact Changes.set Keeps.refl hentry rfl
        (.of_eq rfl rfl rfl rfl fun hoff hon => absurd (hoff.symm.trans hon) nofun)

theorem resetBudgets_changes {sec : Section} {inputs : List (Reading × Reply)} (now : Millis) :
    SectionChanges sec inputs entries (resetBudgets now entries) := by
  refine Changes.map Keeps.refl (fun e => ?_) (fun e => ?_) entries
  · split <;> rfl
  · split
    · exact .of_eq rfl rfl rfl rfl fun hoff hon => absurd (hoff.symm.trans hon) nofun
    · exact .refl e

/-- An escalation records its time, and nothing else of the entry changes. -/
theorem escalate_eq {now : Millis} {current e : ScheduleEntry} {policy : EscalationConfig}
    (h : escalate now current = some (e, policy)) :
    current.escalation = some policy ∧
      (∀ last ∈ current.lastEscalationAt, policy.cooldownMinutes * 60 * 1000 ≤ now - last) ∧
      (current.escalationTimestamps.filter fun ts => now - 60 * 60 * 1000 < ts).length
        < policy.maxPerHour ∧
      e = { current with
        lastEscalationAt := some now
        escalationTimestamps :=
          (current.escalationTimestamps.filter fun ts => now - 60 * 60 * 1000 < ts) ++ [now] } := by
  obtain ⟨esc, hesc, h⟩ := Option.bind_eq_some_iff.mp h
  dsimp only at h
  split at h
  · cases h
  · split at h
    · cases h
    · next hcooldown =>
      split at h
      · cases h
      · next hrecent =>
        cases h
        exact ⟨hesc, fun last hlast => not_lt.mp fun hlt => hcooldown ⟨last, hlast, hlt⟩,
          not_le.mp hrecent, rfl⟩

/-- The entry that is escalated is the one with the id. -/
theorem recordEscalation_eq {entryId : String} {now : Millis} {idx : ℕ} {e : ScheduleEntry}
    {policy : EscalationConfig}
    (h : recordEscalation entryId now entries = some (idx, e, policy)) :
    ∃ current, (entries.findIdx? fun entry => entry.id = entryId) = some idx ∧
      entries[idx]? = some current ∧ entryById entries entryId = some current ∧
      escalate now current = some (e, policy) := by
  obtain ⟨idx', hidx, h⟩ := Option.bind_eq_some_iff.mp h
  obtain ⟨current, hcurrent, h⟩ := Option.bind_eq_some_iff.mp h
  obtain ⟨⟨e', policy'⟩, hescalate, heq⟩ := Option.map_eq_some_iff.mp h
  cases heq
  exact ⟨current, hidx, hcurrent, (entryById_of_findIdx? hidx).trans hcurrent, hescalate⟩

theorem recordEscalation_changes {entryId : String} {now : Millis} {idx : ℕ} {e : ScheduleEntry}
    {policy : EscalationConfig}
    (h : recordEscalation entryId now entries = some (idx, e, policy)) :
    SectionChanges (.checkEscalation entryId) [(r, reply)] entries (entries.set idx e) := by
  obtain ⟨current, -, hcurrent, -, hescalate⟩ := recordEscalation_eq h
  obtain ⟨-, -, -, rfl⟩ := escalate_eq hescalate
  refine Changes.set Keeps.refl hcurrent rfl ⟨rfl, fun _ => rfl, fun hoff hon => ?_, fun hne => ?_⟩
  · exact absurd (hoff.symm.trans hon) nofun
  · exact absurd rfl (hne entryId)

/-- **A stretch of a section** changes the entries as the section may. -/
theorem work_changes {sec : Section} {l : Local} {u : Update} {ending : Ending}
    (h : work nextCron sec l r reply entries = .ok (u, ending)) :
    SectionChanges sec [(r, reply)] entries u.entries := by
  cases sec with
  | addEntry input =>
    cases l with
    | start =>
      obtain ⟨u', hu', h⟩ := bind_ok_iff.mp h
      cases h
      exact addEntryInMemory_changes hu'
    | _ => cases h
  | updateEntry id patch =>
    cases l with
    | start =>
      obtain ⟨u', hu', h⟩ := bind_ok_iff.mp h
      cases h
      exact updateEntry_changes hu'
    | _ => cases h
  | removeEntry id =>
    cases l with
    | start =>
      cases h
      exact Changes.filter_ne Keeps.refl entries rfl
    | _ => cases h
  | syncExternalSources sourceIds =>
    cases l with
    | start => exact nextSource_changes (Except.ok.inj h)
    | health sync sourceId rest =>
      simp only [work] at h
      split at h
      · cases h
        exact .refl entries
      · exact nextSource_changes (Except.ok.inj h)
      · exact nextSource_changes (Except.ok.inj h)
      · cases h
    | fetch sync sourceId rest =>
      simp only [work] at h
      split at h
      · obtain ⟨⟨entries', sync'⟩, hsource, h⟩ := bind_ok_iff.mp h
        exact (syncSource_changes hsource).trans (nextSource_changes (Except.ok.inj h))
      · exact nextSource_changes (Except.ok.inj h)
      · cases h
    | syncSaved =>
      cases h
      exact .refl entries
    | _ => cases h
  | loadEntries => cases l <;> cases h
  | tick =>
    cases l with
    | start =>
      simp only [work] at h
      split at h
      · cases h
        exact resetBudgets_changes r.now
      · cases h
        exact .refl entries
    | tickSaved =>
      cases h
      exact .refl entries
    | _ => cases h
  | findEntry id =>
    cases l with
    | start =>
      cases h
      exact .refl entries
    | _ => cases h
  | applyOutcome execution result sideEffects =>
    cases l with
    | start =>
      obtain ⟨applied, happlied, h⟩ := bind_ok_iff.mp h
      split at h
      · cases h
        exact .refl entries
      · cases h
        exact applyExecutionOutcome_changes happlied
    | reported updated =>
      cases h
      unfold applyExecutionSideEffects
      split
      · exact .refl entries
      · exact setBaseline_changes _ _
    | outcomeSaved updated =>
      cases h
      exact .refl entries
    | _ => cases h
  | checkEscalation entryId =>
    cases l with
    | start =>
      simp only [work] at h
      split at h
      · cases h
        exact .refl entries
      · next idx entry policy hrecord =>
        cases h
        exact recordEscalation_changes hrecord
    | escalationSaved idx record =>
      cases h
      exact .refl entries
    | _ => cases h

end

end Schedule

end PulSeed
