import PulSeed.Runtime.ArtifactRetention

/-!
# What merged references are

The references with one key are folded into one record. Each of its fields is a function of
their list: the last value given, whether one of them has a property, or the newest entry. So
is the protection of the artifact.

- `merged`: the record of a list of references, `collected_get?`: the records of the plan.
- `merged_lastSome`, `merged_manifestCritical`, `merged_strong`, `merged_entry`: its fields.
- `Standing`, `isProtected_merged_iff`: **what protects a merged record.**
-/

namespace PulSeed.ArtifactRetention

open LastWins

/-! ## Folding references -/

def ArtifactRecord.key (record : ArtifactRecord) : String :=
  artifactKey record.artifact.toArtifactNames

/-- References folded into one record. -/
def merged (records : List ArtifactRecord) : Option ArtifactRecord :=
  foldFirst mergeArtifactRecords records

/-- The references with a key. -/
def group (k : String) (records : List ArtifactRecord) : List ArtifactRecord :=
  records.filter (·.key = k)

section Merged

variable {records : List ArtifactRecord} {a b record result : ArtifactRecord} {k : String}

theorem mem_group : record ∈ group k records ↔ record ∈ records ∧ record.key = k := by
  unfold group
  rw [List.mem_filter, decide_eq_true_iff]

theorem group_concat : group k (records ++ [record]) =
    group k records ++ if record.key = k then [record] else [] := by
  unfold group
  rw [List.filter_append]
  by_cases h : record.key = k <;> simp [h]

theorem group_flatMap {γ : Type*} {f : γ → List ArtifactRecord} {xs : List γ} :
    group k (xs.flatMap f) = xs.flatMap fun x => group k (f x) :=
  List.filter_flatMap

/-- References with one key merge into a record with that key. -/
theorem key_merge (ha : a.key = k) (hb : b.key = k) : (mergeArtifactRecords a b).key = k := by
  unfold ArtifactRecord.key artifactKey at ha hb ⊢
  unfold mergeArtifactRecords mergeArtifacts
  cases hap : a.artifact.path <;> cases hbp : b.artifact.path <;>
  cases has : a.artifact.state_relative_path <;> cases hbs : b.artifact.state_relative_path <;>
  cases hau : a.artifact.url <;> cases hbu : b.artifact.url <;> simp_all

theorem key_merged (h : merged (group k records) = some result) : result.key = k := by
  have hall : ∀ r ∈ group k records, r.key = k := fun r hr => (mem_group.mp hr).2
  revert hall
  refine foldFirst_induction (P := fun rs m => (∀ r ∈ rs, r.key = k) → m.key = k) ?_ ?_ h
  · exact fun r hr => hr r List.mem_cons_self
  · intro rs m r ih hrs
    exact key_merge (ih fun x hx => hrs x (List.mem_append_left _ hx)) (hrs r (by simp))

theorem addRecord_get? (records : ObjectMap String ArtifactRecord) :
    (addRecord records record).get? k = if k = record.key then
      some ((records.get? k).elim record (mergeArtifactRecords · record)) else records.get? k := by
  have hkey : artifactKey record.artifact.toArtifactNames = record.key := rfl
  unfold addRecord
  rw [hkey]
  by_cases hk : k = record.key
  · subst hk
    cases h : records.get? record.key <;> simp [h]
  · cases h : records.get? record.key <;> simp [h, ObjectMap.get?_set, hk]

/-- The record of a key is merged from the references with that key. -/
theorem collected_get? :
    (records.foldl addRecord .empty).get? k = merged (group k records) := by
  induction records using List.reverseRecOn with
  | nil => rfl
  | append_singleton records record ih =>
    rw [List.foldl_append, List.foldl_cons, List.foldl_nil, addRecord_get?, group_concat]
    by_cases hk : k = record.key
    · rw [if_pos hk, if_pos hk.symm, ih]
      exact foldFirst_concat.symm
    · rw [if_neg hk, if_neg (Ne.symm hk), List.append_nil, ih]

end Merged

/-! ## The fields of a merged record -/

/-- The roles that protect. -/
def CandidateRole.Strong : CandidateRole → Prop
  | .robust_best | .safe | .raw_best | .aggressive => True
  | .diverse | .near_miss => False

/-- The reference is from a candidate with a role that protects. -/
def ArtifactRecord.HasStrongRole (record : ArtifactRecord) : Prop :=
  ∃ role, record.candidateRole = some role ∧ role.Strong

/-- The newest of a list of entries, the first one of those equally new. -/
def newest (entries : List Entry) : Option Entry := foldFirst newerEntry entries

section Fields

variable {β : Type*} {records : List ArtifactRecord} {result : ArtifactRecord}

/-- **A field that the later reference decides** has the last value given. -/
theorem merged_lastSome {f : ArtifactRecord → Option β}
    (hf : ∀ a b, f (mergeArtifactRecords a b) = (f b).or (f a))
    (h : merged records = some result) : f result = lastSome f records :=
  lastSome_foldFirst hf h

theorem merged_manifestCritical (h : merged records = some result) :
    result.manifestCritical = records.any (·.manifestCritical) := by
  refine foldFirst_induction (P := fun rs m => m.manifestCritical = rs.any (·.manifestCritical))
    ?_ ?_ h
  · intro r
    simp
  · intro rs m r ih
    rw [List.any_append, ← ih]
    simp [mergeArtifactRecords]

theorem strong_strongerCandidateRole (a b : Option CandidateRole) :
    (∃ role, strongerCandidateRole a b = some role ∧ role.Strong) ↔
      (∃ role, a = some role ∧ role.Strong) ∨ ∃ role, b = some role ∧ role.Strong := by
  cases a with
  | none => simp [strongerCandidateRole]
  | some a =>
    cases b with
    | none => simp [strongerCandidateRole]
    | some b => cases a <;> cases b <;>
      simp [strongerCandidateRole, CandidateRole.rank, CandidateRole.Strong]

theorem merged_strong (h : merged records = some result) :
    result.HasStrongRole ↔ ∃ r ∈ records, r.HasStrongRole := by
  refine foldFirst_induction
    (P := fun rs m => m.HasStrongRole ↔ ∃ r ∈ rs, r.HasStrongRole) ?_ ?_ h
  · intro r
    simp
  · intro rs m r ih
    have hstep : (mergeArtifactRecords m r).HasStrongRole ↔ m.HasStrongRole ∨ r.HasStrongRole :=
      strong_strongerCandidateRole m.candidateRole r.candidateRole
    rw [hstep, ih]
    simp only [List.mem_append, List.mem_singleton, or_and_right, exists_or, exists_eq_left]

theorem newest_spec {entries : List Entry} {entry : Entry} (h : newest entries = some entry) :
    entry ∈ entries ∧ ∀ e ∈ entries, e.occurred_at ≤ entry.occurred_at := by
  refine foldFirst_induction
    (P := fun es best => best ∈ es ∧ ∀ e ∈ es, e.occurred_at ≤ best.occurred_at) ?_ ?_ h
  · intro e
    simp
  · rintro es best e ⟨hmem, hle⟩
    unfold newerEntry
    by_cases hnew : e.occurred_at ≤ best.occurred_at
    · rw [if_pos hnew]
      refine ⟨List.mem_append_left _ hmem, fun x hx => ?_⟩
      rcases List.mem_append.mp hx with hx | hx
      · exact hle x hx
      · rw [List.mem_singleton.mp hx]
        exact hnew
    · rw [if_neg hnew]
      refine ⟨by simp, fun x hx => ?_⟩
      rcases List.mem_append.mp hx with hx | hx
      · exact (hle x hx).trans (le_of_lt (not_le.mp hnew))
      · rw [List.mem_singleton.mp hx]

theorem merged_entry (h : merged records = some result) :
    newest (records.map (·.entry)) = some result.entry :=
  foldFirst_map (fun _ _ => rfl) h

theorem merged_candidateRole (h : merged records = some result) :
    foldFirst strongerCandidateRole (records.map (·.candidateRole)) = some result.candidateRole :=
  foldFirst_map (fun _ _ => rfl) h

end Fields

/-! ## Protection -/

/-- The classes that protect. -/
def RetentionClass.Protects : RetentionClass → Prop
  | .final_deliverable | .best_candidate | .robust_candidate | .near_miss
  | .reproducibility_critical => True
  | _ => False

/-- An entry about an artifact that improved. -/
def Entry.IsFinal (entry : Entry) : Prop :=
  entry.kind = .artifact ∧ entry.outcome = some .improved

/-- What protects the artifact of a list of references: one of them is to an artifact of a
manifest, one is from a candidate with a strong role, the last candidate is a near miss, the
newest entry is about an artifact that improved, or the last class given protects. -/
inductive Standing (records : List ArtifactRecord) : Prop
  | manifest (record : ArtifactRecord) (mem : record ∈ records)
      (critical : record.manifestCritical)
  | role (record : ArtifactRecord) (mem : record ∈ records) (strong : record.HasStrongRole)
  | near_miss (candidate : Candidate) (last : lastSome (·.candidate) records = some candidate)
      (near_miss : candidate.near_miss)
  | final (entry : Entry) (newest : newest (records.map (·.entry)) = some entry)
      (final : entry.IsFinal)
  | explicit (c : RetentionClass)
      (last : lastSome (·.artifact.retention_class) records = some c) (protects : c.Protects)

theorem protectionReasonsFor_pos (c : RetentionClass) (critical : Bool) :
    0 < (protectionReasonsFor c critical).length ↔ critical ∨ c.Protects := by
  cases critical <;> cases c <;> simp [protectionReasonsFor, RetentionClass.Protects]

theorem cleanupActionFor_eq_protect (c : RetentionClass) (isProtected : Bool) :
    cleanupActionFor c isProtected = .protect ↔ isProtected := by
  cases isProtected <;> cases c <;> simp [cleanupActionFor]

theorem isProtected_iff (record : ArtifactRecord) :
    (classifyArtifactRecord record).isProtected ↔
      record.manifestCritical ∨ (classifyRetention record).1.Protects :=
  decide_eq_true_iff.trans (protectionReasonsFor_pos _ _)

theorem cleanup_action_iff (record : ArtifactRecord) :
    (classifyArtifactRecord record).cleanup_action = .protect ↔
      (classifyArtifactRecord record).isProtected :=
  cleanupActionFor_eq_protect _ _

theorem hasStrongRole_iff (record : ArtifactRecord) : record.HasStrongRole ↔
    (record.candidateRole = some .robust_best ∨ record.candidateRole = some .safe) ∨
      (record.candidateRole = some .raw_best ∨ record.candidateRole = some .aggressive) := by
  unfold ArtifactRecord.HasStrongRole
  rcases record.candidateRole with _ | role
  · simp
  · cases role <;> simp [CandidateRole.Strong]

/-- The classification of a record protects it for one of five reasons. -/
theorem protects_classifyRetention (record : ArtifactRecord) :
    (record.manifestCritical ∨ (classifyRetention record).1.Protects) ↔
      record.manifestCritical ∨ (∃ c, record.candidate = some c ∧ c.near_miss) ∨
        record.HasStrongRole ∨ record.entry.IsFinal ∨
          ∃ c, record.artifact.retention_class = some c ∧ c.Protects := by
  rw [hasStrongRole_iff]
  unfold classifyRetention Entry.IsFinal
  by_cases hcritical : record.manifestCritical
  · simp [hcritical]
  rw [if_neg hcritical, or_iff_right hcritical, or_iff_right hcritical]
  have hany : record.candidate.any (·.near_miss) ↔
      ∃ c, record.candidate = some c ∧ c.near_miss := by
    cases record.candidate <;> simp
  by_cases hnear : record.candidate.any (·.near_miss)
  · rw [if_pos hnear]
    exact iff_of_true trivial (.inl (hany.mp hnear))
  rw [if_neg hnear, or_iff_right (mt hany.mpr hnear)]
  by_cases hrobust : record.candidateRole = some .robust_best ∨ record.candidateRole = some .safe
  · rw [if_pos hrobust]
    exact iff_of_true trivial (.inl (.inl hrobust))
  by_cases hbest : record.candidateRole = some .raw_best ∨
      record.candidateRole = some .aggressive
  · rw [if_neg hrobust, if_pos hbest]
    exact iff_of_true trivial (.inl (.inr hbest))
  rw [if_neg hrobust, if_neg hbest, or_iff_right (not_or.mpr ⟨hrobust, hbest⟩)]
  by_cases hfinal : record.entry.kind = .artifact ∧ record.entry.outcome = some .improved
  · rw [if_pos hfinal]
    exact iff_of_true trivial (.inl hfinal)
  rw [if_neg hfinal, or_iff_right hfinal]
  cases record.artifact.retention_class with
  | some c => simp
  | none =>
    have hnone : ¬ ∃ c, (none : Option RetentionClass) = some c ∧ c.Protects := by simp
    rw [iff_false_right hnone]
    dsimp only
    split <;> exact not_false

/-- **A merged record is protected** exactly when its references have standing. -/
theorem isProtected_merged_iff {records : List ArtifactRecord} {result : ArtifactRecord}
    (h : merged records = some result) :
    (classifyArtifactRecord result).isProtected ↔ Standing records := by
  have hcandidate : result.candidate = lastSome (·.candidate) records :=
    merged_lastSome (fun _ _ => rfl) h
  have hclass : result.artifact.retention_class =
      lastSome (·.artifact.retention_class) records :=
    merged_lastSome (f := (·.artifact.retention_class)) (fun _ _ => rfl) h
  rw [isProtected_iff, protects_classifyRetention, merged_manifestCritical h, merged_strong h,
    hcandidate, hclass]
  constructor
  · rintro (hcritical | ⟨c, hlast, hc⟩ | ⟨r, hr, hstrong⟩ | hfinal | ⟨c, hlast, hc⟩)
    · obtain ⟨r, hr, hcritical⟩ := List.any_eq_true.mp hcritical
      exact .manifest r hr hcritical
    · exact .near_miss c hlast hc
    · exact .role r hr hstrong
    · exact .final result.entry (merged_entry h) hfinal
    · exact .explicit c hlast hc
  · rintro (⟨r, hr, hcritical⟩ | ⟨r, hr, hstrong⟩ | ⟨c, hlast, hc⟩ | ⟨e, hnewest, hfinal⟩ |
      ⟨c, hlast, hc⟩)
    · exact .inl (List.any_eq_true.mpr ⟨r, hr, hcritical⟩)
    · exact .inr (.inr (.inl ⟨r, hr, hstrong⟩))
    · exact .inr (.inl ⟨c, hlast, hc⟩)
    · rw [merged_entry h, Option.some.injEq] at hnewest
      exact .inr (.inr (.inr (.inl (hnewest ▸ hfinal))))
    · exact .inr (.inr (.inr (.inr ⟨c, hlast, hc⟩)))

/-! ## The decision about a key -/

section Decision

variable (sort : SortBy) (manifests : List (List ArtifactNames)) (entries : List Entry)

/-- All references of the entries, in the order in which they are merged. -/
def allReferences : List ArtifactRecord := entries.flatMap (references sort manifests entries)

/-- The references that are merged into the record of a key. -/
def referencesTo (k : String) : List ArtifactRecord :=
  group k (allReferences sort manifests entries)

/-- The decision about a key. -/
def decisionAt (k : String) : Option Decision :=
  (merged (referencesTo sort manifests entries k)).map classifyArtifactRecord

variable {sort manifests entries} {k : String} {d : Decision} {r : ArtifactRecord}

theorem collectArtifactRecords_get? :
    (collectArtifactRecords sort manifests entries).get? k =
      merged (referencesTo sort manifests entries k) := collected_get?

/-- The decisions of the plan are those about the keys. -/
theorem mem_cleanupPlan : d ∈ cleanupPlan sort manifests entries ↔
    decisionAt sort manifests entries d.key = some d := by
  unfold cleanupPlan decisionAt
  simp only [List.mem_map, Prod.exists, ObjectMap.mem_entries_iff, collectArtifactRecords_get?,
    Option.map_eq_some_iff]
  constructor
  · rintro ⟨k, m, hm, rfl⟩
    have hk : (classifyArtifactRecord m).key = k := key_merged hm
    exact ⟨m, hk ▸ hm, rfl⟩
  · rintro ⟨m, hm, hd⟩
    exact ⟨d.key, m, hm, hd⟩

theorem key_decisionAt (h : decisionAt sort manifests entries k = some d) : d.key = k := by
  obtain ⟨m, hm, rfl⟩ := Option.map_eq_some_iff.mp h
  exact key_merged hm

theorem mem_cleanupPlan_of_key (hd : d ∈ cleanupPlan sort manifests entries) (hk : d.key = k) :
    ∃ m, merged (referencesTo sort manifests entries k) = some m ∧
      classifyArtifactRecord m = d :=
  Option.map_eq_some_iff.mp (hk ▸ mem_cleanupPlan.mp hd)

/-- A key has a decision exactly when there is a reference with it. -/
theorem decisionAt_isSome : (decisionAt sort manifests entries k).isSome ↔
    ∃ r ∈ allReferences sort manifests entries, r.key = k := by
  unfold decisionAt merged
  rw [Option.isSome_map, Option.isSome_iff_ne_none, Ne, foldFirst_eq_none_iff,
    List.eq_nil_iff_forall_not_mem, not_forall]
  simp only [not_not]
  exact exists_congr fun r => mem_group

theorem mem_referencesTo : r ∈ referencesTo sort manifests entries k ↔
    r ∈ allReferences sort manifests entries ∧ r.key = k := mem_group

/-- The plan has one decision for every key. -/
theorem nodup_keys_cleanupPlan :
    ((cleanupPlan sort manifests entries).map (·.key)).Nodup := by
  have hkeys : (cleanupPlan sort manifests entries).map (·.key) =
      (collectArtifactRecords sort manifests entries).entries.map Prod.fst := by
    unfold cleanupPlan
    rw [List.map_map]
    refine List.map_congr_left fun e he => ?_
    obtain ⟨k, m⟩ := e
    rw [ObjectMap.mem_entries_iff, collectArtifactRecords_get?] at he
    exact key_merged he
  rw [hkeys]
  exact (collectArtifactRecords sort manifests entries).nodupKeys

/-- Whether the plan protects an artifact. -/
theorem isProtected_iff_standing (hd : d ∈ cleanupPlan sort manifests entries)
    (hk : d.key = k) :
    d.isProtected ↔ Standing (referencesTo sort manifests entries k) := by
  obtain ⟨m, hm, rfl⟩ := mem_cleanupPlan_of_key hd hk
  exact isProtected_merged_iff hm

end Decision

end PulSeed.ArtifactRetention
