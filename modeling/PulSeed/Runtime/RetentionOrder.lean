import PulSeed.Runtime.RetentionMerge

/-!
# When the cleanup plan keeps protection

- `Steady`: the references to an artifact give the same decision in every order of the entries,
  `steady_iff`.
- `KeepsProtection`: what the merging of references is expected to keep.
- `keepsProtection_iff`: **when it does.**
-/

namespace PulSeed.ArtifactRetention

open LastWins EraseDups

/-! ## Records with equal decisions -/

def ArtifactRecord.dependencies (record : ArtifactRecord) : List String :=
  record.artifact.dependency_refs.getD []

/-- What a decision is made of, apart from the classification. -/
structure Alike (a b : ArtifactRecord) : Prop where
  names : a.artifact.toArtifactNames = b.artifact.toArtifactNames
  kind : a.artifact.kind = b.artifact.kind
  size_bytes : a.artifact.size_bytes = b.artifact.size_bytes
  source : a.artifact.source = b.artifact.source
  dependencies : a.dependencies = b.dependencies
  entry : a.entry = b.entry
  candidate_id : a.candidate.map (·.candidate_id) = b.candidate.map (·.candidate_id)
  manifestCritical : a.manifestCritical = b.manifestCritical

theorem Alike.classifyArtifactRecord_eq {a b : ArtifactRecord} (h : Alike a b)
    (hclass : classifyRetention a = classifyRetention b) :
    classifyArtifactRecord a = classifyArtifactRecord b := by
  have hids : ∀ r : ArtifactRecord, (r.candidate.elim [] fun c => [c.candidate_id]) =
      (r.candidate.map (·.candidate_id)).toList := by
    intro r
    cases r.candidate <;> rfl
  have hdeps : a.artifact.dependency_refs.getD [] = b.artifact.dependency_refs.getD [] :=
    h.dependencies
  unfold classifyArtifactRecord
  rw [hids, hids, h.candidate_id, hclass, h.names, h.kind, h.size_bytes, h.source, hdeps, h.entry,
    h.manifestCritical]

section Classification

variable {a b r : ArtifactRecord}

/-- The reference is from a candidate that is a near miss. -/
def ArtifactRecord.isNearMiss (record : ArtifactRecord) : Bool :=
  record.candidate.any (·.near_miss)

/-- Nothing but the class given, the kind or the entry's kind decides the classification. -/
structure Plain (r : ArtifactRecord) : Prop where
  manifest : r.manifestCritical = false
  near_miss : r.isNearMiss = false
  role : ¬ r.HasStrongRole
  final : ¬ r.entry.IsFinal

theorem Plain.classifyRetention (h : Plain r) : classifyRetention r =
    match r.artifact.retention_class with
    | some retention_class => (retention_class, .explicit_retention_class)
    | none =>
      if r.artifact.kind = .report ∨ r.artifact.kind = .metrics ∨
          r.entry.kind = .verification then (.evidence_report, .artifact_kind)
      else (.other, .unknown) := by
  obtain ⟨hrobust, hbest⟩ := not_or.mp ((hasStrongRole_iff r).not.mp h.role)
  have hfinal : ¬ (r.entry.kind = .artifact ∧ r.entry.outcome = some .improved) := h.final
  unfold ArtifactRetention.classifyRetention
  rw [h.manifest, if_neg Bool.false_ne_true, ← ArtifactRecord.isNearMiss, h.near_miss,
    if_neg Bool.false_ne_true, if_neg hrobust, if_neg hbest]
  refine (if_neg hfinal).trans ?_
  cases r.artifact.retention_class <;> rfl

/-- The class given can be read off the classification. -/
theorem Plain.retention_class (h : Plain r) :
    (if (ArtifactRetention.classifyRetention r).2 = .explicit_retention_class then
      some (ArtifactRetention.classifyRetention r).1 else none) = r.artifact.retention_class := by
  rw [h.classifyRetention]
  cases r.artifact.retention_class with
  | some c => rfl
  | none =>
    dsimp only
    split <;> rfl

/-- So can be whether the candidate is a near miss. -/
theorem basis_near_miss (h : r.manifestCritical = false) :
    decide ((classifyRetention r).2 = .candidate_near_miss) = r.isNearMiss := by
  unfold classifyRetention
  rw [h, if_neg Bool.false_ne_true, ← ArtifactRecord.isNearMiss]
  cases hnear : r.isNearMiss with
  | true => rfl
  | false =>
    rw [if_neg Bool.false_ne_true, decide_eq_false_iff_not]
    repeat' split
    all_goals exact DecisionBasis.noConfusion

/-- Records that differ in what the classification does not look at. -/
theorem classifyRetention_congr (hmanifest : a.manifestCritical = b.manifestCritical)
    (hnear : a.manifestCritical = false → a.isNearMiss = b.isNearMiss)
    (hrole : a.candidateRole = b.candidateRole) (hentry : a.entry = b.entry)
    (hkind : a.artifact.kind = b.artifact.kind)
    (hclass : Plain a → a.artifact.retention_class = b.artifact.retention_class) :
    classifyRetention a = classifyRetention b := by
  unfold classifyRetention
  rw [← hmanifest]
  cases hcritical : a.manifestCritical with
  | true => rfl
  | false =>
    rw [if_neg Bool.false_ne_true, if_neg Bool.false_ne_true, ← ArtifactRecord.isNearMiss,
      ← ArtifactRecord.isNearMiss, ← hnear hcritical, ← hrole, ← hentry, ← hkind]
    cases hnearMiss : a.isNearMiss with
    | true => rfl
    | false =>
      rw [if_neg Bool.false_ne_true, if_neg Bool.false_ne_true]
      split
      · rfl
      · next hrobust =>
        split
        · rfl
        · next hbest =>
          split
          · rfl
          · next hfinal =>
            rw [hclass ⟨hcritical, hnearMiss,
              (hasStrongRole_iff a).not.mpr (not_or.mpr ⟨hrobust, hbest⟩), hfinal⟩]

end Classification

/-! ## Orders of the entries -/

section Orders

/-- The value of the last reference of an entry that has one. -/
def given {β : Type*} (refs : Entry → List ArtifactRecord) (k : String)
    (f : ArtifactRecord → Option β) (entry : Entry) : Option β :=
  lastSome f (group k (refs entry))

/-- The dependencies that the references of an entry give. -/
def givenDependencies (refs : Entry → List ArtifactRecord) (k : String) (entry : Entry) :
    List String :=
  (group k (refs entry)).flatMap (·.dependencies)

variable {β : Type*} {refs : Entry → List ArtifactRecord} {entries ys : List Entry} {k : String}
  {m m' : ArtifactRecord}

theorem lastSome_given {f : ArtifactRecord → Option β} :
    lastSome (given refs k f) ys = lastSome f (group k (ys.flatMap refs)) := by
  rw [group_flatMap, lastSome_flatMap]
  rfl

theorem group_perm (h : ys.Perm entries) :
    (group k (ys.flatMap refs)).Perm (group k (entries.flatMap refs)) :=
  (h.flatMap_right refs).filter _

theorem merged_eq_none_iff {records : List ArtifactRecord} : merged records = none ↔ records = [] :=
  foldFirst_eq_none_iff

/-- The decision about a key, for the entries in some order. -/
def decisionOf (refs : Entry → List ArtifactRecord) (k : String) (entries : List Entry) :
    Option Decision :=
  (merged (group k (entries.flatMap refs))).map classifyArtifactRecord

/-- **A field of the decision that is a last value** does not depend on the order only if the
values given agree. -/
theorem agree_of_decisionOf {f : ArtifactRecord → Option β} {g : Decision → Option β}
    (hf : ∀ a b, f (mergeArtifactRecords a b) = (f b).or (f a))
    (hg : ∀ (ys : List Entry) m, ys.Perm entries → merged (group k (ys.flatMap refs)) = some m →
      g (classifyArtifactRecord m) = f m)
    (h : ∀ ys : List Entry, ys.Perm entries → decisionOf refs k ys = decisionOf refs k entries) :
    Agree (given refs k f) entries := by
  refine lastSome_perm_iff.mp fun ys hys => ?_
  rw [lastSome_given, lastSome_given]
  have hdecision := h ys hys
  unfold decisionOf at hdecision
  have hperm : (group k (ys.flatMap refs)).Perm (group k (entries.flatMap refs)) := group_perm hys
  cases hm : merged (group k (ys.flatMap refs)) with
  | none =>
    rw [merged_eq_none_iff.mp hm] at hperm ⊢
    rw [hperm.symm.eq_nil]
  | some m =>
    cases hm' : merged (group k (entries.flatMap refs)) with
    | none =>
      rw [hm, hm'] at hdecision
      cases hdecision
    | some m' =>
      rw [hm, hm', Option.map_some, Option.map_some, Option.some.injEq] at hdecision
      rw [← merged_lastSome hf hm, ← merged_lastSome hf hm', ← hg ys m hys hm,
        ← hg entries m' (.refl _) hm', hdecision]

/-- Values that agree have one last value in every order. -/
theorem lastSome_perm_of_agree {f : ArtifactRecord → Option β} (h : Agree (given refs k f) entries)
    (hys : ys.Perm entries) : lastSome f (group k (ys.flatMap refs)) =
      lastSome f (group k (entries.flatMap refs)) := by
  rw [← lastSome_given, ← lastSome_given, h.lastSome_perm hys]

/-- So does a field of the merged record. -/
theorem merged_perm {f : ArtifactRecord → Option β}
    (hf : ∀ a b, f (mergeArtifactRecords a b) = (f b).or (f a)) (h : Agree (given refs k f) entries)
    (hys : ys.Perm entries) (hm : merged (group k (ys.flatMap refs)) = some m)
    (hm' : merged (group k (entries.flatMap refs)) = some m') : f m = f m' := by
  rw [merged_lastSome hf hm, merged_lastSome hf hm', lastSome_perm_of_agree h hys]

theorem merged_dependencies {records : List ArtifactRecord} (h : merged records = some m) :
    records = [m] ∨ m.dependencies = (records.flatMap (·.dependencies)).eraseDups := by
  refine foldFirst_induction (P := fun rs m => rs = [m] ∨
    m.dependencies = (rs.flatMap (·.dependencies)).eraseDups) ?_ ?_ h
  · exact fun r => .inl rfl
  · intro rs m r ih
    have hmerge : (mergeArtifactRecords m r).dependencies =
        (m.dependencies ++ r.dependencies).eraseDups := rfl
    rw [hmerge, List.flatMap_append, List.flatMap_singleton]
    rcases ih with rfl | ih
    · exact .inr (by rw [List.flatMap_singleton])
    · exact .inr (by rw [ih, eraseDups_eraseDups_append])

theorem eraseDups_dependencies {records : List ArtifactRecord} (h : merged records = some m) :
    m.dependencies.eraseDups = (records.flatMap (·.dependencies)).eraseDups := by
  rcases merged_dependencies h with rfl | h
  · rw [List.flatMap_singleton]
  · rw [h, eraseDups_eraseDups]

theorem flatMap_dependencies : (group k (ys.flatMap refs)).flatMap (·.dependencies) =
    ys.flatMap (givenDependencies refs k) := by
  rw [group_flatMap, List.flatMap_assoc]
  rfl

/-- The newest of entries with different times does not depend on the order. -/
theorem newest_perm {es es' : List Entry} (h : es'.Perm es)
    (htimes : ∀ a ∈ es, ∀ b ∈ es, a.occurred_at = b.occurred_at → a = b) :
    newest es' = newest es := by
  cases hn : newest es with
  | none =>
    rw [foldFirst_eq_none_iff.mp hn] at h
    rw [h.eq_nil]
    rfl
  | some e =>
    cases hn' : newest es' with
    | none =>
      rw [foldFirst_eq_none_iff.mp hn'] at h
      rw [h.symm.eq_nil] at hn
      cases hn
    | some e' =>
      obtain ⟨hmem, hle⟩ := newest_spec hn
      obtain ⟨hmem', hle'⟩ := newest_spec hn'
      have heq := htimes e' (h.mem_iff.mp hmem') e hmem
        (le_antisymm (hle e' (h.mem_iff.mp hmem')) (hle' e (h.mem_iff.mpr hmem)))
      rw [heq]

theorem strongerCandidateRole_comm (a b : Option CandidateRole) :
    strongerCandidateRole a b = strongerCandidateRole b a := by
  rcases a with _ | a <;> rcases b with _ | b
  · rfl
  · rfl
  · rfl
  · cases a <;> cases b <;> rfl

theorem strongerCandidateRole_assoc (a b c : Option CandidateRole) :
    strongerCandidateRole (strongerCandidateRole a b) c =
      strongerCandidateRole a (strongerCandidateRole b c) := by
  rcases a with _ | a <;> rcases b with _ | b <;> rcases c with _ | c
  · rfl
  · rfl
  · rfl
  · rfl
  · rfl
  · rfl
  · cases a <;> cases b <;> rfl
  · cases a <;> cases b <;> cases c <;> rfl

/-- References that have no standing but by the last class given. -/
structure PlainAll (records : List ArtifactRecord) : Prop where
  manifest : ∀ r ∈ records, r.manifestCritical = false
  near_miss : ∀ candidate, lastSome (·.candidate) records = some candidate →
    candidate.near_miss = false
  role : ∀ r ∈ records, ¬ r.HasStrongRole
  final : ∀ entry, newest (records.map (·.entry)) = some entry → ¬ entry.IsFinal

theorem manifestCritical_eq_false_iff {records : List ArtifactRecord}
    (h : merged records = some m) :
    m.manifestCritical = false ↔ ∀ r ∈ records, r.manifestCritical = false := by
  rw [merged_manifestCritical h, List.any_eq_false]
  simp only [Bool.not_eq_true]

theorem merged_candidate {records : List ArtifactRecord} (h : merged records = some m) :
    m.candidate = lastSome (·.candidate) records := merged_lastSome (fun _ _ => rfl) h

theorem isNearMiss_eq (r : ArtifactRecord) :
    r.isNearMiss = (r.candidate.map (·.near_miss)).getD false := by
  unfold ArtifactRecord.isNearMiss
  cases r.candidate <;> rfl

theorem isNearMiss_eq_false_iff {r : ArtifactRecord} :
    r.isNearMiss = false ↔ ∀ candidate, r.candidate = some candidate →
      candidate.near_miss = false := by
  unfold ArtifactRecord.isNearMiss
  cases r.candidate <;> simp

theorem plain_merged_iff {records : List ArtifactRecord} (h : merged records = some m) :
    Plain m ↔ PlainAll records := by
  constructor
  · rintro ⟨hmanifest, hnear, hrole, hfinal⟩
    refine ⟨(manifestCritical_eq_false_iff h).mp hmanifest, fun c hc => ?_, fun r hr hstrong =>
      hrole ((merged_strong h).mpr ⟨r, hr, hstrong⟩), fun e he => ?_⟩
    · exact isNearMiss_eq_false_iff.mp hnear c ((merged_candidate h).trans hc)
    · rw [merged_entry h, Option.some.injEq] at he
      exact he ▸ hfinal
  · rintro ⟨hmanifest, hnear, hrole, hfinal⟩
    refine ⟨(manifestCritical_eq_false_iff h).mpr hmanifest, isNearMiss_eq_false_iff.mpr fun c hc =>
      hnear c ((merged_candidate h).symm.trans hc), fun hstrong => ?_, hfinal m.entry
      (merged_entry h)⟩
    obtain ⟨r, hr, hstrong⟩ := (merged_strong h).mp hstrong
    exact hrole r hr hstrong

/-- What the references to an artifact must agree on, entry by entry, for the decision about it
not to depend on the order of the entries. Whether the last candidate is a near miss matters
unless a manifest decides, and the class given matters where nothing else protects. -/
structure Steady (refs : Entry → List ArtifactRecord) (k : String) (entries : List Entry) :
    Prop where
  label : Agree (given refs k fun r => some r.artifact.label) entries
  path : Agree (given refs k (·.artifact.path)) entries
  state_relative_path : Agree (given refs k (·.artifact.state_relative_path)) entries
  url : Agree (given refs k (·.artifact.url)) entries
  kind : Agree (given refs k fun r => some r.artifact.kind) entries
  size_bytes : Agree (given refs k (·.artifact.size_bytes)) entries
  source : Agree (given refs k (·.artifact.source)) entries
  candidate_id : Agree (given refs k fun r => r.candidate.map (·.candidate_id)) entries
  near_miss : (∀ r ∈ group k (entries.flatMap refs), r.manifestCritical = false) →
    Agree (given refs k fun r => r.candidate.map (·.near_miss)) entries
  retention_class : PlainAll (group k (entries.flatMap refs)) →
    Agree (given refs k (·.artifact.retention_class)) entries
  dependency_refs : ∀ e ∈ entries, ∀ e' ∈ entries,
    (givenDependencies refs k e).eraseDups <+: (givenDependencies refs k e').eraseDups ∨
      (givenDependencies refs k e').eraseDups <+: (givenDependencies refs k e).eraseDups

section

variable (htimes : ∀ a ∈ entries, ∀ b ∈ entries, a.occurred_at = b.occurred_at → a = b)
  (hentry : ∀ e, ∀ r ∈ refs e, r.entry = e)

include htimes hentry

theorem newest_group_perm (hys : ys.Perm entries) :
    newest ((group k (ys.flatMap refs)).map (·.entry)) =
      newest ((group k (entries.flatMap refs)).map (·.entry)) := by
  refine newest_perm ((group_perm hys).map _) ?_
  have hmem : ∀ e ∈ (group k (entries.flatMap refs)).map (·.entry), e ∈ entries := by
    intro e he
    obtain ⟨r, hr, rfl⟩ := List.mem_map.mp he
    obtain ⟨e, he, hre⟩ := List.mem_flatMap.mp (mem_group.mp hr).1
    exact (hentry e r hre).symm ▸ he
  exact fun a ha b hb => htimes a (hmem a ha) b (hmem b hb)

theorem PlainAll.perm (h : PlainAll (group k (entries.flatMap refs))) (hys : ys.Perm entries)
    (hnear : Agree (given refs k fun r => r.candidate.map (·.near_miss)) entries) :
    PlainAll (group k (ys.flatMap refs)) := by
  have hperm : (group k (ys.flatMap refs)).Perm (group k (entries.flatMap refs)) := group_perm hys
  refine ⟨fun r hr => h.manifest r (hperm.mem_iff.mp hr), fun c hc => ?_,
    fun r hr => h.role r (hperm.mem_iff.mp hr), fun e he => h.final e ?_⟩
  · have hmap : ∀ rs : List ArtifactRecord, lastSome (fun r => r.candidate.map (·.near_miss)) rs =
        (lastSome (·.candidate) rs).map (·.near_miss) := fun rs => lastSome_map
    have hlast := lastSome_perm_of_agree hnear hys
    rw [hmap, hmap, hc] at hlast
    obtain ⟨c', hc', hflag⟩ := Option.map_eq_some_iff.mp hlast.symm
    exact hflag.symm.trans (h.near_miss c' hc')
  · rw [← newest_group_perm htimes hentry hys]
    exact he

/-- **Only steady references** have one decision in every order. -/
theorem steady_of_decisionOf
    (h : ∀ ys : List Entry, ys.Perm entries → decisionOf refs k ys = decisionOf refs k entries) :
    Steady refs k entries := by
  have hnear : (∀ r ∈ group k (entries.flatMap refs), r.manifestCritical = false) →
      Agree (given refs k fun r => r.candidate.map (·.near_miss)) entries := by
    intro hmanifest
    refine agree_of_decisionOf (g := fun d => if d.candidate_ids = [] then none else
      some (decide (d.retention_basis = .candidate_near_miss))) (fun _ _ => Option.map_or) ?_ h
    intro ys m hys hm
    have hcritical := (manifestCritical_eq_false_iff hm).mpr fun r hr =>
      hmanifest r ((group_perm hys).mem_iff.mp hr)
    have hbasis := basis_near_miss hcritical
    unfold ArtifactRecord.isNearMiss at hbasis
    unfold classifyArtifactRecord
    dsimp only
    rw [hbasis]
    cases m.candidate <;> rfl
  refine {
    label := agree_of_decisionOf (g := fun d => some d.label) (fun _ _ => rfl)
      (fun _ _ _ _ => rfl) h
    path := agree_of_decisionOf (g := (·.path)) (fun _ _ => rfl) (fun _ _ _ _ => rfl) h
    state_relative_path := agree_of_decisionOf (g := (·.state_relative_path)) (fun _ _ => rfl)
      (fun _ _ _ _ => rfl) h
    url := agree_of_decisionOf (g := (·.url)) (fun _ _ => rfl) (fun _ _ _ _ => rfl) h
    kind := agree_of_decisionOf (g := fun d => some d.kind) (fun _ _ => rfl)
      (fun _ _ _ _ => rfl) h
    size_bytes := agree_of_decisionOf (g := (·.size_bytes)) (fun _ _ => rfl)
      (fun _ _ _ _ => rfl) h
    source := agree_of_decisionOf (g := (·.source)) (fun _ _ => rfl) (fun _ _ _ _ => rfl) h
    candidate_id := agree_of_decisionOf (g := fun d => d.candidate_ids.head?)
      (fun _ _ => Option.map_or) (fun ys m _ _ => ?_) h
    near_miss := hnear
    retention_class := fun hplain => agree_of_decisionOf
      (g := fun d => if d.retention_basis = .explicit_retention_class then some d.retention_class
        else none)
      (fun _ _ => rfl) (fun ys m hys hm => ?_) h
    dependency_refs := eraseDups_flatMap_perm_iff.mp fun ys hys => ?_ }
  · unfold classifyArtifactRecord
    cases m.candidate <;> rfl
  · exact ((plain_merged_iff hm).mpr
      (hplain.perm htimes hentry hys (hnear hplain.manifest))).retention_class
  · have hdecision := h ys hys
    rw [← flatMap_dependencies, ← flatMap_dependencies]
    have hperm : (group k (ys.flatMap refs)).Perm (group k (entries.flatMap refs)) :=
      group_perm hys
    unfold decisionOf at hdecision
    cases hm : merged (group k (ys.flatMap refs)) with
    | none =>
      rw [merged_eq_none_iff.mp hm] at hperm ⊢
      rw [hperm.symm.eq_nil]
    | some m =>
      cases hm' : merged (group k (entries.flatMap refs)) with
      | none =>
        rw [hm, hm'] at hdecision
        cases hdecision
      | some m' =>
        rw [hm, hm', Option.map_some, Option.map_some, Option.some.injEq] at hdecision
        have hdeps : m.dependencies = m'.dependencies := congrArg Decision.dependency_refs hdecision
        rw [← eraseDups_dependencies hm, ← eraseDups_dependencies hm', hdeps]

/-- Steady references merge into records that differ only in what a decision does not show. -/
theorem Steady.alike (h : Steady refs k entries) (hys : ys.Perm entries)
    (hm : merged (group k (ys.flatMap refs)) = some m)
    (hm' : merged (group k (entries.flatMap refs)) = some m') : Alike m m' := by
  have hperm : (group k (ys.flatMap refs)).Perm (group k (entries.flatMap refs)) := group_perm hys
  have hlabel := merged_perm (f := fun r => some r.artifact.label) (fun _ _ => rfl) h.label hys hm hm'
  have hpath := merged_perm (f := (·.artifact.path)) (fun _ _ => rfl) h.path hys hm hm'
  have hstate := merged_perm (f := (·.artifact.state_relative_path)) (fun _ _ => rfl)
    h.state_relative_path hys hm hm'
  have hurl := merged_perm (f := (·.artifact.url)) (fun _ _ => rfl) h.url hys hm hm'
  have hkind := merged_perm (f := fun r => some r.artifact.kind) (fun _ _ => rfl) h.kind hys hm hm'
  refine {
    names := ?_
    kind := Option.some.inj hkind
    size_bytes := merged_perm (f := (·.artifact.size_bytes)) (fun _ _ => rfl) h.size_bytes hys hm hm'
    source := merged_perm (f := (·.artifact.source)) (fun _ _ => rfl) h.source hys hm hm'
    dependencies := ?_
    entry := ?_
    candidate_id := merged_perm (f := fun r => r.candidate.map (·.candidate_id))
      (fun _ _ => Option.map_or) h.candidate_id hys hm hm'
    manifestCritical := ?_ }
  · have hnames : ∀ names names' : ArtifactNames, names.label = names'.label →
        names.path = names'.path → names.state_relative_path = names'.state_relative_path →
        names.url = names'.url → names = names' := by
      rintro ⟨_, _, _, _⟩ ⟨_, _, _, _⟩ rfl rfl rfl rfl
      rfl
    exact hnames _ _ (Option.some.inj hlabel) hpath hstate hurl
  · rcases merged_dependencies hm with hone | hdeps
    · rw [hone] at hperm
      rw [← List.singleton_perm.mp hperm] at hm'
      exact congrArg ArtifactRecord.dependencies (Option.some.inj hm')
    · rcases merged_dependencies hm' with hone | hdeps'
      · rw [hone] at hperm
        rw [List.perm_singleton.mp hperm] at hm
        exact congrArg ArtifactRecord.dependencies (Option.some.inj hm).symm
      · rw [hdeps, hdeps', flatMap_dependencies, flatMap_dependencies]
        exact eraseDups_flatMap_perm_iff.mpr h.dependency_refs ys hys
  · have hnewest := newest_group_perm (k := k) htimes hentry hys
    rw [merged_entry hm, merged_entry hm'] at hnewest
    exact Option.some.inj hnewest
  · rw [merged_manifestCritical hm, merged_manifestCritical hm', hperm.any_eq]

/-- **Steady references** have one decision in every order. -/
theorem Steady.decisionOf_eq (h : Steady refs k entries) (hys : ys.Perm entries) :
    decisionOf refs k ys = decisionOf refs k entries := by
  have hperm : (group k (ys.flatMap refs)).Perm (group k (entries.flatMap refs)) := group_perm hys
  unfold decisionOf
  cases hm : merged (group k (ys.flatMap refs)) with
  | none =>
    rw [merged_eq_none_iff.mp hm] at hperm
    rw [hperm.symm.eq_nil]
    rfl
  | some m =>
    cases hm' : merged (group k (entries.flatMap refs)) with
    | none =>
      rw [merged_eq_none_iff.mp hm'] at hperm
      rw [hperm.eq_nil] at hm
      cases hm
    | some m' =>
      have halike := h.alike htimes hentry hys hm hm'
      have hrole : m.candidateRole = m'.candidateRole := by
        have hroles := foldFirst_perm strongerCandidateRole_comm strongerCandidateRole_assoc
          (hperm.map (·.candidateRole))
        rw [merged_candidateRole hm, merged_candidateRole hm'] at hroles
        exact Option.some.inj hroles
      have hnear : m.manifestCritical = false → m.isNearMiss = m'.isNearMiss := by
        intro hcritical
        rw [halike.manifestCritical] at hcritical
        have hflag := merged_perm (f := fun r => r.candidate.map (·.near_miss))
          (fun _ _ => Option.map_or) (h.near_miss ((manifestCritical_eq_false_iff hm').mp hcritical))
          hys hm hm'
        rw [isNearMiss_eq, isNearMiss_eq, hflag]
      have hclass : classifyRetention m = classifyRetention m' := by
        refine classifyRetention_congr halike.manifestCritical hnear hrole halike.entry halike.kind
          fun hplain => ?_
        have hplain' : Plain m' := ⟨halike.manifestCritical ▸ hplain.manifest,
          (hnear hplain.manifest) ▸ hplain.near_miss,
          fun hstrong => hplain.role (by unfold ArtifactRecord.HasStrongRole; rwa [hrole]),
          halike.entry ▸ hplain.final⟩
        exact merged_perm (f := (·.artifact.retention_class)) (fun _ _ => rfl)
          (h.retention_class ((plain_merged_iff hm').mp hplain')) hys hm hm'
      exact congrArg some (halike.classifyArtifactRecord_eq hclass)

end

end Orders

/-! ## The plan -/

section Plan

variable {sort : SortBy} {manifests : List (List ArtifactNames)} {entries ys : List Entry}

theorem contexts_perm
    (htimes : ∀ a ∈ entries, ∀ b ∈ entries, a.occurred_at = b.occurred_at → a = b)
    (hys : ys.Perm entries) : contexts ys = contexts entries := by
  unfold contexts
  have hsorted : ∀ es : List Entry,
      (es.mergeSort fun a b => a.occurred_at ≤ b.occurred_at).Pairwise
        fun a b => a.occurred_at ≤ b.occurred_at := by
    intro es
    have hpair : (es.mergeSort fun a b => a.occurred_at ≤ b.occurred_at).Pairwise
        fun a b => decide (a.occurred_at ≤ b.occurred_at) = true := by
      refine List.pairwise_mergeSort (fun a b c hab hbc => ?_) (fun a b => ?_) es
      · simp only [decide_eq_true_eq] at hab hbc ⊢
        exact hab.trans hbc
      · simp only [Bool.or_eq_true, decide_eq_true_eq]
        exact le_total _ _
    exact hpair.imp fun h => by simpa using h
  congr 1
  refine List.Perm.eq_of_pairwise (fun a b ha hb hab hba => ?_) (hsorted ys) (hsorted entries)
    (((List.mergeSort_perm ys _).trans hys).trans (List.mergeSort_perm entries _).symm)
  exact htimes a (hys.mem_iff.mp (List.mem_mergeSort.mp ha)) b (List.mem_mergeSort.mp hb)
    (le_antisymm hab hba)

/-- The roles of the candidates, and with them the references of an entry, do not depend on the
order of the entries. -/
theorem references_perm
    (htimes : ∀ a ∈ entries, ∀ b ∈ entries, a.occurred_at = b.occurred_at → a = b)
    (hys : ys.Perm entries) : references sort manifests ys = references sort manifests entries := by
  have hroles : candidateRoleMap sort ys = candidateRoleMap sort entries := by
    funext id
    unfold candidateRoleMap ranked
    rw [contexts_perm htimes hys]
  funext entry
  unfold references toRecord
  rw [hroles]

theorem toRecord_of_mem_references {entry : Entry} {r : ArtifactRecord}
    (h : r ∈ references sort manifests entries entry) :
    ∃ candidate artifact, r = toRecord sort manifests entries entry candidate artifact := by
  unfold references at h
  rcases List.mem_append.mp h with h | h
  · obtain ⟨artifact, _, rfl⟩ := List.mem_map.mp h
    exact ⟨none, artifact, rfl⟩
  · obtain ⟨candidate, _, h⟩ := List.mem_flatMap.mp h
    obtain ⟨artifact, _, rfl⟩ := List.mem_map.mp h
    exact ⟨some candidate, artifact, rfl⟩

theorem toRecord_of_mem_referencesTo {k : String} {r : ArtifactRecord}
    (h : r ∈ referencesTo sort manifests entries k) : ∃ entry ∈ entries, ∃ candidate artifact,
      r = toRecord sort manifests entries entry candidate artifact := by
  obtain ⟨entry, hentry, h⟩ := List.mem_flatMap.mp (mem_referencesTo.mp h).1
  exact ⟨entry, hentry, toRecord_of_mem_references h⟩

/-- Plans with the same decisions differ in the order of the decisions only. -/
theorem cleanupPlan_perm_iff :
    (cleanupPlan sort manifests ys).Perm (cleanupPlan sort manifests entries) ↔
      ∀ k, decisionAt sort manifests ys k = decisionAt sort manifests entries k := by
  have hdecision : ∀ (es : List Entry) k d, decisionAt sort manifests es k = some d ↔
      d ∈ cleanupPlan sort manifests es ∧ d.key = k := by
    intro es k d
    rw [mem_cleanupPlan]
    constructor
    · intro h
      have hk := key_decisionAt h
      exact ⟨hk.symm ▸ h, hk⟩
    · rintro ⟨h, rfl⟩
      exact h
  constructor
  · intro hperm k
    refine Option.ext fun d => ?_
    rw [hdecision, hdecision, hperm.mem_iff]
  · intro h
    refine (List.perm_ext_iff_of_nodup (nodup_keys_cleanupPlan.of_map _)
      (nodup_keys_cleanupPlan.of_map _)).mpr fun d => ?_
    rw [mem_cleanupPlan, mem_cleanupPlan, h]

/-- Two artifacts have a path, a state-relative path or a url in common. -/
def ArtifactNames.Shares (a b : ArtifactNames) : Prop :=
  (∃ path, a.path = some path ∧ b.path = some path) ∨
    (∃ path, a.state_relative_path = some path ∧ b.state_relative_path = some path) ∨
      ∃ url, a.url = some url ∧ b.url = some url

variable (sort manifests entries)

/-- Merging keeps protection: an artifact that a manifest names in one way or other is
protected, so is one with a reference that alone would be, and there is one decision for each
artifact, whatever the order of the entries. -/
structure KeepsProtection : Prop where
  manifest : ∀ r ∈ allReferences sort manifests entries,
    (∃ names ∈ manifests.flatten, r.artifact.toArtifactNames.Shares names) →
      ∀ d ∈ cleanupPlan sort manifests entries, d.key = r.key → d.cleanup_action = .protect
  reference : ∀ r ∈ allReferences sort manifests entries,
    (classifyArtifactRecord r).isProtected →
      ∀ d ∈ cleanupPlan sort manifests entries, d.key = r.key →
        d.isProtected ∧ d.cleanup_action ≠ .delete_candidate
  one : ((cleanupPlan sort manifests entries).map (·.key)).Nodup ∧
    ∀ k, k ∈ (cleanupPlan sort manifests entries).map (·.key) ↔
      ∃ r ∈ allReferences sort manifests entries, r.key = k
  order : (entries.map (·.occurred_at)).Nodup → ∀ ys : List Entry, ys.Perm entries →
    (cleanupPlan sort manifests ys).Perm (cleanupPlan sort manifests entries)

/-- A ground for protection that merging can lose: a manifest names the artifact, but not by its
key, the candidate is a near miss, the entry is about an artifact that improved, or the class
given protects. -/
inductive Loseable (r : ArtifactRecord) : Prop
  | named (names : ArtifactNames) (mem : names ∈ manifests.flatten)
      (shares : r.artifact.toArtifactNames.Shares names)
  | near_miss (near_miss : r.isNearMiss)
  | final (final : r.entry.IsFinal)
  | explicit (c : RetentionClass) (given : r.artifact.retention_class = some c)
      (protects : c.Protects)

variable {sort manifests entries}

theorem mem_keys_cleanupPlan {k : String} : k ∈ (cleanupPlan sort manifests entries).map (·.key) ↔
    ∃ r ∈ allReferences sort manifests entries, r.key = k := by
  rw [← decisionAt_isSome, Option.isSome_iff_exists, List.mem_map]
  constructor
  · rintro ⟨d, hd, rfl⟩
    exact ⟨d, mem_cleanupPlan.mp hd⟩
  · rintro ⟨d, hd⟩
    have hk := key_decisionAt hd
    exact ⟨d, mem_cleanupPlan.mpr (hk.symm ▸ hd), hk⟩

theorem protect_iff {d : Decision} (hd : d ∈ cleanupPlan sort manifests entries) :
    d.cleanup_action = .protect ↔ d.isProtected := by
  obtain ⟨m, _, rfl⟩ := mem_cleanupPlan_of_key hd rfl
  exact cleanup_action_iff m

/-- A reference alone is protected if a manifest has its key, if its candidate has a strong role,
or on a ground that merging can lose. -/
theorem isProtected_cases {r : ArtifactRecord} (h : (classifyArtifactRecord r).isProtected) :
    r.manifestCritical ∨ r.HasStrongRole ∨ Loseable manifests r := by
  rcases (protects_classifyRetention r).mp ((isProtected_iff r).mp h) with
    hmanifest | ⟨c, hc, hnear⟩ | hrole | hfinal | ⟨c, hc, hprotects⟩
  · exact .inl hmanifest
  · refine .inr (.inr (.near_miss ?_))
    rw [isNearMiss_eq, hc]
    exact hnear
  · exact .inr (.inl hrole)
  · exact .inr (.inr (.final hfinal))
  · exact .inr (.inr (.explicit c hc hprotects))

theorem Loseable.isProtected {r : ArtifactRecord} (h : Loseable manifests r) :
    (∃ names ∈ manifests.flatten, r.artifact.toArtifactNames.Shares names) ∨
      (classifyArtifactRecord r).isProtected := by
  have hprotects := fun h => (isProtected_iff r).mpr ((protects_classifyRetention r).mpr h)
  cases h with
  | named names mem shares => exact .inl ⟨names, mem, shares⟩
  | near_miss near_miss =>
    refine .inr (hprotects (.inr (.inl ?_)))
    rw [isNearMiss_eq] at near_miss
    cases hc : r.candidate with
    | none =>
      rw [hc] at near_miss
      cases near_miss
    | some c =>
      rw [hc] at near_miss
      exact ⟨c, rfl, near_miss⟩
  | final final => exact .inr (hprotects (.inr (.inr (.inr (.inl final)))))
  | explicit c given protects =>
    exact .inr (hprotects (.inr (.inr (.inr (.inr ⟨c, given, protects⟩)))))

theorem KeepsProtection.standing {r : ArtifactRecord} (h : KeepsProtection sort manifests entries)
    (hr : r ∈ allReferences sort manifests entries) (hloseable : Loseable manifests r) :
    Standing (referencesTo sort manifests entries r.key) := by
  obtain ⟨d, hd, hk⟩ := List.mem_map.mp (mem_keys_cleanupPlan.mpr ⟨r, hr, rfl⟩)
  refine (isProtected_iff_standing hd hk).mp ?_
  rcases hloseable.isProtected with hnamed | hprotected
  · exact (protect_iff hd).mp (h.manifest r hr hnamed d hd hk)
  · exact (h.reference r hr hprotected d hd hk).1

variable (sort manifests entries)

/-- **When merging keeps protection.** Each artifact with a reference whose ground can be lost
has standing, and where the entries have different times the references to each artifact are
steady. -/
theorem keepsProtection_iff :
    KeepsProtection sort manifests entries ↔
      (∀ r ∈ allReferences sort manifests entries, Loseable manifests r →
        Standing (referencesTo sort manifests entries r.key)) ∧
      ((entries.map (·.occurred_at)).Nodup →
        ∀ k, Steady (references sort manifests entries) k entries) := by
  have hentry : ∀ e, ∀ r ∈ references sort manifests entries e, r.entry = e :=
    fun e r hr => by
      obtain ⟨candidate, artifact, rfl⟩ := toRecord_of_mem_references hr
      rfl
  have hdecision : (entries.map (·.occurred_at)).Nodup → ∀ (ys : List Entry) k, ys.Perm entries →
      decisionAt sort manifests ys k = decisionOf (references sort manifests entries) k ys := by
    intro hnodup ys k hys
    rw [← references_perm (List.inj_on_of_nodup_map hnodup) hys]
    rfl
  constructor
  · intro h
    refine ⟨fun r => h.standing, fun hnodup k => ?_⟩
    refine steady_of_decisionOf (List.inj_on_of_nodup_map hnodup) hentry fun ys hys => ?_
    rw [← hdecision hnodup ys k hys, ← hdecision hnodup entries k (.refl _)]
    exact cleanupPlan_perm_iff.mp (h.order hnodup ys hys) k
  · rintro ⟨hstanding, hsteady⟩
    refine ⟨fun r hr ⟨names, mem, shares⟩ d hd hk => ?_, fun r hr hprotected d hd hk => ?_,
      ⟨nodup_keys_cleanupPlan, fun k => mem_keys_cleanupPlan⟩, fun hnodup ys hys => ?_⟩
    · exact (protect_iff hd).mpr ((isProtected_iff_standing hd hk).mpr
        (hstanding r hr (.named names mem shares)))
    · have hd' : d.isProtected := by
        refine (isProtected_iff_standing hd hk).mpr ?_
        rcases isProtected_cases hprotected with hmanifest | hrole | hloseable
        · exact .manifest r (mem_referencesTo.mpr ⟨hr, rfl⟩) hmanifest
        · exact .role r (mem_referencesTo.mpr ⟨hr, rfl⟩) hrole
        · exact hstanding r hr hloseable
      refine ⟨hd', fun haction => ?_⟩
      rw [(protect_iff hd).mpr hd'] at haction
      cases haction
    · refine cleanupPlan_perm_iff.mpr fun k => ?_
      rw [hdecision hnodup ys k hys, hdecision hnodup entries k (.refl _)]
      exact (hsteady hnodup k).decisionOf_eq (List.inj_on_of_nodup_map hnodup) hentry hys

end Plan

/-- Without metrics no candidate has a role that protects. -/
theorem not_strong_of_unscored {sort : SortBy} {entries : List Entry}
    (h : ∀ e ∈ entries, ∀ c ∈ e.candidates, c.metrics = []) (id : String) (role : CandidateRole)
    (hrole : candidateRoleMap sort entries id = some role) : ¬ role.Strong := by
  have hnil : (contexts entries).filterMap scored = [] := by
    refine List.filterMap_eq_nil_iff.mpr fun c hc => ?_
    obtain ⟨e, he, hce⟩ := List.mem_flatMap.mp hc
    unfold scored
    rw [h e (List.mem_mergeSort.mp he) c hce]
    rfl
  unfold candidateRoleMap at hrole
  dsimp only at hrole
  rw [if_pos hnil] at hrole
  split at hrole
  · cases hrole
    exact not_false
  · cases hrole

/-- A model of a candidate that is a near miss, which a later candidate has marked as a smoke
test. -/
def nearMissEntry : Entry where
  id := "entry-1"
  occurred_at := "2026-05-01T00:00:00.000Z"
  kind := .verification
  candidates := [{
    candidate_id := "candidate-a"
    near_miss := true
    artifacts := [{ label := "model", path := some "runs/model.bin" }] }]

def smokeEntry : Entry where
  id := "entry-2"
  occurred_at := "2026-05-02T00:00:00.000Z"
  kind := .verification
  candidates := [{
    candidate_id := "candidate-b"
    artifacts := [{
      label := "model"
      path := some "runs/model.bin"
      retention_class := some .low_value_smoke }] }]

/-- The near miss is not protected any more. -/
theorem near_miss_lost : ¬ KeepsProtection (fun compare scored => scored.mergeSort
    fun a b => compare a b ≤ 0) [] [nearMissEntry, smokeEntry] := by
  intro h
  have hstanding := h.standing (List.mem_flatMap.mpr ⟨nearMissEntry, by simp,
    List.mem_cons_self⟩) (.near_miss rfl)
  cases hstanding with
  | manifest r mem critical =>
    obtain ⟨e, _, candidate, artifact, rfl⟩ := toRecord_of_mem_referencesTo mem
    cases critical
  | role r mem strong =>
    obtain ⟨e, _, candidate, artifact, rfl⟩ := toRecord_of_mem_referencesTo mem
    obtain ⟨role, hrole, hstrong⟩ := strong
    obtain ⟨c, _, hrole⟩ := Option.bind_eq_some_iff.mp hrole
    refine not_strong_of_unscored ?_ c.candidate_id role hrole hstrong
    simp [nearMissEntry, smokeEntry]
  | near_miss c last near_miss =>
    cases last
    cases near_miss
  | final e newest final =>
    obtain ⟨r, hr, rfl⟩ := List.mem_map.mp (newest_spec newest).1
    obtain ⟨e, he, candidate, artifact, rfl⟩ := toRecord_of_mem_referencesTo hr
    have hkinds : ∀ e ∈ [nearMissEntry, smokeEntry], e.kind = .verification := by
      simp [nearMissEntry, smokeEntry]
    exact nomatch (hkinds e he).symm.trans final.1
  | explicit c last protects =>
    cases last
    cases protects

end PulSeed.ArtifactRetention
