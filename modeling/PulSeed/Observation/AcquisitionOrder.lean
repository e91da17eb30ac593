import PulSeed.Lib.Firsts
import PulSeed.Observation.CapabilityDependencies

/-!
# The order of acquisition (`platform/observation/capability-dependencies.ts`)

`getAcquisitionOrder` puts the gaps that the dependencies among them do not order first, and
then, for each id in the order of `resolveDependencies`, the first gap with this name. Of the
ids, those that depend on a cycle are not in that order, and their gaps are among the first.

- `getAcquisitionOrder_eq`: the result, by the order of the ids.
- `perm_iff`, `pairwise_of_acyclic`, `independent_iff`: when the gaps are all there, when each
  comes after those it depends on, and when those that depend on none keep their order.
- `getAcquisitionOrder_reorders_iff`: **when it does all three.**
-/

namespace PulSeed.Observation

open Relation Layers Firsts

/-- `CapabilityTypeEnum`. -/
inductive CapabilityType
  | tool
  | permission
  | service
  | data_source
  deriving DecidableEq

/-- `missing_capability`. -/
structure MissingCapability where
  name : String
  type : CapabilityType
  deriving DecidableEq

/-- `CapabilityGapSchema`. -/
structure CapabilityGap where
  missing_capability : MissingCapability
  reason : String
  alternatives : List String
  impact_description : String
  related_task_id : Option String := none
  deriving DecidableEq

/-- The name that the dependencies know a gap by. -/
abbrev CapabilityGap.name (g : CapabilityGap) : String := g.missing_capability.name

/-- `gapIds`. -/
def gapIds (gaps : List CapabilityGap) : List String := gaps.map (·.name)

/-- `relevantDeps`: the entries of gaps in the list, with those of the list that they depend on,
where there are any. -/
def relevantDeps (allDeps : List CapabilityDependency) (gaps : List CapabilityGap) :
    List CapabilityDependency :=
  allDeps.filterMap fun dep =>
    if dep.capability_id ∈ gapIds gaps then
      let filteredDependsOn := dep.depends_on.filter (· ∈ gapIds gaps)
      if filteredDependsOn ≠ [] then some ⟨dep.capability_id, filteredDependsOn⟩ else none
    else none

/-- `getAcquisitionOrder`, with the dependencies that the store has. -/
def getAcquisitionOrder (allDeps : List CapabilityDependency) (gaps : List CapabilityGap) :
    Option (List CapabilityGap) :=
  if gaps = [] then some []
  else if relevantDeps allDeps gaps = [] then some gaps
  else do
    let sortedIds ← resolveDependencies (relevantDeps allDeps gaps)
    let independent := gaps.filter fun g => g.name ∉ sortedIds
    let dependent := sortedIds.filterMap fun id => gaps.find? fun g => g.name = id
    some (independent ++ dependent)

/-! ## The dependencies among the gaps -/

/-- A gap of the list depends on another, by their names. -/
def Listed (allDeps : List CapabilityDependency) (gaps : List CapabilityGap)
    (prereq id : String) : Prop :=
  prereq ∈ gapIds gaps ∧ id ∈ gapIds gaps ∧ Prerequisite allDeps prereq id

/-- A gap has no dependencies in the list. -/
def Independent (allDeps : List CapabilityDependency) (gaps : List CapabilityGap)
    (id : String) : Prop :=
  ∀ dep ∈ allDeps, dep.capability_id = id → ∀ prereq ∈ dep.depends_on, prereq ∉ gapIds gaps

/-- A gap of the list depends on it. -/
def Required (allDeps : List CapabilityDependency) (gaps : List CapabilityGap)
    (id : String) : Prop :=
  ∃ dep ∈ allDeps, dep.capability_id ∈ gapIds gaps ∧ id ∈ dep.depends_on

instance (allDeps : List CapabilityDependency) (gaps : List CapabilityGap) :
    DecidablePred (Independent allDeps gaps) := fun id =>
  inferInstanceAs (Decidable (∀ dep ∈ allDeps, dep.capability_id = id →
    ∀ prereq ∈ dep.depends_on, prereq ∉ gapIds gaps))

instance (allDeps : List CapabilityDependency) (gaps : List CapabilityGap) :
    DecidablePred (Required allDeps gaps) := fun id =>
  inferInstanceAs (Decidable (∃ dep ∈ allDeps, dep.capability_id ∈ gapIds gaps ∧
    id ∈ dep.depends_on))

section Names

variable {allDeps : List CapabilityDependency} {gaps : List CapabilityGap} {id prereq : String}

theorem prerequisite_relevantDeps :
    Prerequisite (relevantDeps allDeps gaps) prereq id ↔ Listed allDeps gaps prereq id := by
  unfold Prerequisite relevantDeps
  constructor
  · rintro ⟨dep, hdep, rfl, hprereq⟩
    obtain ⟨dep', hdep', hsome⟩ := List.mem_filterMap.mp hdep
    dsimp only at hsome
    split at hsome
    · next hid =>
      split at hsome
      · cases hsome
        obtain ⟨hmem, hlisted⟩ := List.mem_filter.mp hprereq
        exact ⟨by simpa using hlisted, hid, dep', hdep', rfl, hmem⟩
      · cases hsome
    · cases hsome
  · rintro ⟨hprereq, hid, dep, hdep, rfl, hmem⟩
    have hfilter : prereq ∈ dep.depends_on.filter (· ∈ gapIds gaps) :=
      List.mem_filter.mpr ⟨hmem, by simpa using hprereq⟩
    refine ⟨⟨dep.capability_id, dep.depends_on.filter (· ∈ gapIds gaps)⟩,
      List.mem_filterMap.mpr ⟨dep, hdep, ?_⟩, rfl, hfilter⟩
    dsimp only
    rw [if_pos hid, if_pos (List.ne_nil_of_mem hfilter)]

/-- The ids that are ordered: what depends on a gap of the list, or is depended on. -/
theorem mem_allIds_relevantDeps : id ∈ allIds (relevantDeps allDeps gaps) ↔
    ∃ other, Listed allDeps gaps other id ∨ Listed allDeps gaps id other := by
  constructor
  · intro hid
    obtain ⟨dep, hdep, hid⟩ := mem_allIds.mp hid
    obtain ⟨dep', hdep', hsome⟩ := List.mem_filterMap.mp hdep
    dsimp only at hsome
    split at hsome
    · next hlisted =>
      split at hsome
      · next hne =>
        rcases hid with rfl | hid
        · -- An entry is kept only with something that it depends on.
          cases hsome
          obtain ⟨other, hother⟩ := List.exists_mem_of_ne_nil _ hne
          exact ⟨other, .inl (prerequisite_relevantDeps.mp ⟨_, hdep, rfl, hother⟩)⟩
        · exact ⟨dep.capability_id, .inr (prerequisite_relevantDeps.mp ⟨dep, hdep, rfl, hid⟩)⟩
      · cases hsome
    · cases hsome
  · rintro ⟨other, h | h⟩
    · exact (prerequisite_relevantDeps.mpr h).mem_right
    · exact (prerequisite_relevantDeps.mpr h).mem_left

theorem not_listed_of_independent (h : Independent allDeps gaps id) :
    ¬ Listed allDeps gaps prereq id := by
  rintro ⟨hprereq, -, dep, hdep, hid, hmem⟩
  exact h dep hdep hid prereq hmem hprereq

theorem required_iff (hid : id ∈ gapIds gaps) :
    Required allDeps gaps id ↔ ∃ other, Listed allDeps gaps id other := by
  constructor
  · rintro ⟨dep, hdep, hlisted, hmem⟩
    exact ⟨dep.capability_id, hid, hlisted, dep, hdep, rfl, hmem⟩
  · rintro ⟨other, -, hother, dep, hdep, rfl, hmem⟩
    exact ⟨dep, hdep, hother, hmem⟩

theorem not_afterCycle_of_independent (h : Independent allDeps gaps id) :
    ¬ AfterCycle (Listed allDeps gaps) id := by
  rintro ⟨y, hcycle, hyid⟩
  have hlast : ∃ z, Listed allDeps gaps z id := by
    rcases ReflTransGen.cases_tail hyid with rfl | ⟨z, -, hz⟩
    · obtain ⟨z, -, hz⟩ := TransGen.tail'_iff.mp hcycle
      exact ⟨z, hz⟩
    · exact ⟨z, hz⟩
  obtain ⟨z, hz⟩ := hlast
  exact not_listed_of_independent h hz

end Names

/-! ## The result -/

/-- The ids in the order of `resolveDependencies`. -/
structure SortedIds (allDeps : List CapabilityDependency) (gaps : List CapabilityGap)
    (sortedIds : List String) : Prop where
  nodup : sortedIds.Nodup
  mem_iff : ∀ id, id ∈ sortedIds ↔
    (∃ other, Listed allDeps gaps other id ∨ Listed allDeps gaps id other) ∧
      ¬ AfterCycle (Listed allDeps gaps) id
  ordered : sortedIds.Pairwise fun id id' => ¬ Listed allDeps gaps id' id
  sorted : (sortedIds.filter (Independent allDeps gaps)).Pairwise idLE

section Result

variable {allDeps : List CapabilityDependency} {gaps : List CapabilityGap}
  {sortedIds : List String}

/-- In a list in which everything comes after what it depends on, nothing depends on what comes
after it. -/
theorem pairwise_of_ordered {r : String → String → Prop} {order : List String}
    (hnodup : order.Nodup)
    (hordered : ∀ before id after, order = before ++ id :: after →
      ∀ prereq, r prereq id → prereq ∈ before) :
    order.Pairwise fun id id' => ¬ r id' id := by
  have hrest : ∀ before rest, order = before ++ rest →
      rest.Pairwise fun id id' => ¬ r id' id := by
    intro before rest
    induction rest generalizing before with
    | nil => exact fun _ => .nil
    | cons id rest ih =>
      intro heq
      refine List.pairwise_cons.mpr ⟨fun id' hid' hr => ?_, ih (before ++ [id]) (by simp [heq])⟩
      have hbefore := hordered before id rest heq id' hr
      rw [heq] at hnodup
      exact List.disjoint_of_nodup_append hnodup hbefore (List.mem_cons_of_mem _ hid')
  exact hrest [] order rfl

/-- **The result, by the order of the ids.** -/
theorem getAcquisitionOrder_eq (allDeps : List CapabilityDependency) (gaps : List CapabilityGap) :
    ∃ sortedIds, SortedIds allDeps gaps sortedIds ∧ getAcquisitionOrder allDeps gaps =
      some ((gaps.filter fun g => g.name ∉ sortedIds) ++ firsts (·.name) gaps sortedIds) := by
  have hrel : Prerequisite (relevantDeps allDeps gaps) = Listed allDeps gaps :=
    funext fun prereq => funext fun id => propext prerequisite_relevantDeps
  obtain ⟨sortedIds, hsorted, hspec⟩ := resolveDependencies_spec (relevantDeps allDeps gaps)
  refine ⟨sortedIds, ⟨hspec.nodup, fun id => ?_, ?_, ?_⟩, ?_⟩
  · rw [hspec.mem_iff, mem_allIds_relevantDeps, hrel]
  · exact hrel ▸ pairwise_of_ordered hspec.nodup hspec.ordered
  · refine resolveDependencies_filter (fun prereq id h hind => ?_) hsorted
    exact not_listed_of_independent hind (prerequisite_relevantDeps.mp h)
  · unfold getAcquisitionOrder
    by_cases hgaps : gaps = []
    · rw [if_pos hgaps, hgaps]
      simp [firsts]
    rw [if_neg hgaps]
    by_cases hdeps : relevantDeps allDeps gaps = []
    · -- Nothing is ordered, so that all gaps stay as they are.
      rw [hdeps] at hsorted
      cases hsorted
      rw [if_pos hdeps]
      simp [firsts]
    · rw [if_neg hdeps, hsorted]
      rfl

theorem SortedIds.mem_gapIds (h : SortedIds allDeps gaps sortedIds) {id : String}
    (hid : id ∈ sortedIds) : id ∈ gaps.map (·.name) := by
  obtain ⟨⟨other, hlisted | hlisted⟩, -⟩ := (h.mem_iff id).mp hid
  · exact hlisted.2.1
  · exact hlisted.1

/-- No two gaps share a name that takes part in the dependencies among the gaps, unless it
depends on a cycle. -/
def UniqueNames (allDeps : List CapabilityDependency) (gaps : List CapabilityGap) : Prop :=
  ∀ id, (∃ other, Listed allDeps gaps other id ∨ Listed allDeps gaps id other) →
    ¬ AfterCycle (Listed allDeps gaps) id → (gapIds gaps).count id ≤ 1

/-- **The gaps are all there** exactly when the names of those that are ordered are unique. -/
theorem perm_iff (h : SortedIds allDeps gaps sortedIds) :
    ((gaps.filter fun g => g.name ∉ sortedIds) ++ firsts (·.name) gaps sortedIds).Perm gaps ↔
      UniqueNames allDeps gaps := by
  have hsplit : gaps.Perm ((gaps.filter fun g => g.name ∉ sortedIds) ++
      gaps.filter fun g => g.name ∈ sortedIds) := by
    refine ((List.filter_append_perm (fun g => g.name ∉ sortedIds) gaps).symm).trans (.of_eq ?_)
    congr 1
    exact List.filter_congr fun g _ => by simp
  have hcancel : ((gaps.filter fun g => g.name ∉ sortedIds) ++
      firsts (·.name) gaps sortedIds).Perm gaps ↔
        (firsts (·.name) gaps sortedIds).Perm (gaps.filter fun g => g.name ∈ sortedIds) := by
    constructor
    · exact fun hperm => (List.perm_append_left_iff _).mp (hperm.trans hsplit)
    · exact fun hperm => (hperm.append_left _).trans hsplit.symm
  rw [hcancel, firsts_perm_iff h.nodup fun id => h.mem_gapIds]
  constructor
  · exact fun hcount id hid hfree => hcount id ((h.mem_iff id).mpr ⟨hid, hfree⟩)
  · intro hunique id hid
    obtain ⟨hlisted, hfree⟩ := (h.mem_iff id).mp hid
    exact hunique id hlisted hfree

/-- **Each gap comes after those it depends on**, when no listed dependency is on a cycle. -/
theorem pairwise_of_acyclic (h : SortedIds allDeps gaps sortedIds)
    (hacyclic : Acyclic (Listed allDeps gaps)) :
    ((gaps.filter fun g => g.name ∉ sortedIds) ++ firsts (·.name) gaps sortedIds).Pairwise
      fun g g' => ¬ Listed allDeps gaps g'.name g.name := by
  -- A gap whose name is not ordered depends on none.
  have hfree : ∀ g ∈ gaps.filter fun g => g.name ∉ sortedIds, ∀ prereq,
      ¬ Listed allDeps gaps prereq g.name := by
    intro g hg prereq hlisted
    have hnot : g.name ∉ sortedIds := by simpa using (List.mem_filter.mp hg).2
    refine hnot ((h.mem_iff g.name).mpr ⟨⟨prereq, .inl hlisted⟩, ?_⟩)
    rintro ⟨y, hcycle, -⟩
    exact hacyclic y hcycle
  refine List.pairwise_append.mpr ⟨List.pairwise_of_forall_mem_list fun g hg g' _ => hfree g hg _,
    ?_, fun g hg g' _ => hfree g hg _⟩
  have hnames := map_key_firsts (l := gaps) fun id => h.mem_gapIds
  have hordered := h.ordered
  rw [← hnames] at hordered
  exact List.pairwise_map.mp hordered

/-- Among the gaps that depend on none, one that others depend on stands only before others of
the kind, with a greater name. -/
def RequiredLast (allDeps : List CapabilityDependency) (gaps : List CapabilityGap) : Prop :=
  (gaps.filter fun g => Independent allDeps gaps g.name).Pairwise fun g g' =>
    Required allDeps gaps g.name →
      Required allDeps gaps g'.name ∧ idLE g.name g'.name ∧ g.name ≠ g'.name

/-- What depends on none is ordered exactly when something depends on it. -/
theorem SortedIds.mem_iff_required (h : SortedIds allDeps gaps sortedIds) {id : String}
    (hid : id ∈ gapIds gaps) (hind : Independent allDeps gaps id) :
    id ∈ sortedIds ↔ Required allDeps gaps id := by
  rw [h.mem_iff, and_iff_left (not_afterCycle_of_independent hind), required_iff hid]
  refine exists_congr fun other => or_iff_right ?_
  exact not_listed_of_independent hind

/-- **The gaps that depend on none keep their order** exactly when `RequiredLast`. -/
theorem independent_iff (h : SortedIds allDeps gaps sortedIds) :
    ((gaps.filter fun g => g.name ∉ sortedIds) ++ firsts (·.name) gaps sortedIds).filter
        (fun g => Independent allDeps gaps g.name) =
      gaps.filter (fun g => Independent allDeps gaps g.name) ↔ RequiredLast allDeps gaps := by
  unfold RequiredLast
  set independent := gaps.filter fun g => Independent allDeps gaps g.name with hindependent
  set roots := sortedIds.filter (Independent allDeps gaps) with hroots
  have hmem : ∀ g ∈ independent, g ∈ gaps ∧ Independent allDeps gaps g.name := fun g hg =>
    ⟨(List.mem_filter.mp hg).1, by simpa using (List.mem_filter.mp hg).2⟩
  have hroot : ∀ id ∈ gapIds gaps, id ∈ roots ↔
      Independent allDeps gaps id ∧ Required allDeps gaps id := by
    intro id hid
    rw [hroots, List.mem_filter, decide_eq_true_eq, and_comm]
    exact and_congr_right fun hind => h.mem_iff_required hid hind
  have hrootGap : ∀ id ∈ roots, id ∈ gapIds gaps := fun id hid =>
    h.mem_gapIds (List.mem_of_mem_filter hid)
  have hsorted : roots.Pairwise fun id id' => idLE id id' ∧ id ≠ id' :=
    h.sorted.and (h.nodup.filter _)
  -- The two parts of the result, as far as they depend on none.
  have hfirst : (gaps.filter fun g => g.name ∉ sortedIds).filter
      (fun g => Independent allDeps gaps g.name) =
        independent.filter fun g => ¬ Required allDeps gaps g.name := by
    rw [hindependent, List.filter_filter, List.filter_filter]
    refine List.filter_congr fun g hg => ?_
    rw [Bool.eq_iff_iff]
    simp only [Bool.and_eq_true, decide_eq_true_eq]
    rw [and_comm]
    refine ⟨fun hg' => ⟨?_, hg'.2⟩, fun hg' => ⟨?_, hg'.2⟩⟩
    · exact fun hreq => hg'.1 ((h.mem_iff_required (List.mem_map_of_mem hg) hg'.2).mpr hreq)
    · exact fun hin => hg'.1 ((h.mem_iff_required (List.mem_map_of_mem hg) hg'.2).mp hin)
  have hsecond : (firsts (·.name) gaps sortedIds).filter
      (fun g => Independent allDeps gaps g.name) = firsts (·.name) gaps roots :=
    firsts_filter fun id => decide (Independent allDeps gaps id)
  have hnames : (firsts (·.name) gaps roots).map (·.name) = roots := map_key_firsts hrootGap
  rw [List.filter_append, hfirst, hsecond]
  constructor
  · intro heq
    rw [← heq]
    refine List.pairwise_append.mpr ⟨List.pairwise_of_forall_mem_list fun g hg g' _ hreq => ?_, ?_,
      fun g hg g' _ hreq => ?_⟩
    · exact absurd hreq (by simpa using (List.mem_filter.mp hg).2)
    · refine (List.pairwise_map.mp (hnames.symm ▸ hsorted)).imp_of_mem fun {g g'} _ hg' hle _ => ?_
      have hkey := (mem_of_mem_firsts hg').2
      exact ⟨((hroot _ (hrootGap _ hkey)).mp hkey).2, hle⟩
    · exact absurd hreq (by simpa using (List.mem_filter.mp hg).2)
  · intro hlast
    have hsplit := eq_filter_append (p := fun g => Required allDeps gaps g.name)
      (hlast.imp fun himp hreq => (himp hreq).1)
    set required := independent.filter fun g => Required allDeps gaps g.name with hrequired
    have hmem' : ∀ g ∈ required, g ∈ gaps ∧ Independent allDeps gaps g.name ∧
        Required allDeps gaps g.name := by
      intro g hg
      obtain ⟨hg, hreq⟩ := List.mem_filter.mp hg
      exact ⟨(hmem g hg).1, (hmem g hg).2, by simpa using hreq⟩
    have hpairs : (required.map (·.name)).Pairwise fun id id' => idLE id id' ∧ id ≠ id' := by
      refine List.pairwise_map.mpr ((hlast.filter _).imp_of_mem fun {g g'} hg _ himp => ?_)
      exact (himp (hmem' g hg).2.2).2
    have hnodup : (required.map (·.name)).Nodup := hpairs.imp fun hle => hle.2
    -- Both are sorted, and have the same names.
    have hsame : required.map (·.name) = roots := by
      refine List.Perm.eq_of_pairwise (fun a b _ _ hab hba => antisymm hab.1 hba.1) hpairs hsorted ?_
      refine (List.perm_ext_iff_of_nodup hnodup (h.nodup.filter _)).mpr fun id => ?_
      constructor
      · intro hid
        obtain ⟨g, hg, rfl⟩ := List.mem_map.mp hid
        obtain ⟨hgap, hind, hreq⟩ := hmem' g hg
        exact (hroot _ (List.mem_map_of_mem hgap)).mpr ⟨hind, hreq⟩
      · intro hid
        obtain ⟨hind, hreq⟩ := (hroot id (hrootGap id hid)).mp hid
        obtain ⟨g, hg, rfl⟩ := List.mem_map.mp (hrootGap id hid)
        refine List.mem_map.mpr ⟨g, ?_, rfl⟩
        exact List.mem_filter.mpr ⟨List.mem_filter.mpr ⟨hg, by simpa using hind⟩, by simpa using hreq⟩
    have hfirsts : firsts (·.name) gaps roots = required := by
      rw [← hsame]
      refine firsts_map_key (fun g hg => (hmem' g hg).1) fun g hg g' hg' hname => ?_
      obtain ⟨-, hind, hreq⟩ := hmem' g hg
      have hg'' : g' ∈ required := List.mem_filter.mpr
        ⟨List.mem_filter.mpr ⟨hg', by simpa [hname] using hind⟩, by simpa [hname] using hreq⟩
      exact List.inj_on_of_nodup_map hnodup hg'' hg hname
    rw [hfirsts]
    exact hsplit.symm

end Result

/-- **When a list of gaps is reordered as it should be.** -/
theorem getAcquisitionOrder_reorders_iff (allDeps : List CapabilityDependency)
    (gaps : List CapabilityGap) :
    ∃ result, getAcquisitionOrder allDeps gaps = some result ∧
      (result.Perm gaps ∧
        (Acyclic (Listed allDeps gaps) →
          result.Pairwise fun g g' => ¬ Listed allDeps gaps g'.name g.name) ∧
        result.filter (fun g => Independent allDeps gaps g.name) =
          gaps.filter (fun g => Independent allDeps gaps g.name) ↔
        UniqueNames allDeps gaps ∧ RequiredLast allDeps gaps) := by
  obtain ⟨sortedIds, hsorted, heq⟩ := getAcquisitionOrder_eq allDeps gaps
  refine ⟨_, heq, ?_⟩
  rw [perm_iff hsorted, independent_iff hsorted]
  exact and_congr_right fun _ => and_iff_right (pairwise_of_acyclic hsorted)

/-- Two gaps of one capability, of different tasks, and one that depends on it. -/
def sharedNameSample : List CapabilityGap :=
  [⟨⟨"browser", .tool⟩, "no browser", [], "pages are not read", some "t1"⟩,
    ⟨⟨"browser", .tool⟩, "no browser", [], "forms are not sent", some "t2"⟩,
    ⟨⟨"crawler", .tool⟩, "no crawler", [], "sites are not searched", none⟩]

theorem shared_name_dropped :
    getAcquisitionOrder [⟨"crawler", ["browser"]⟩] sharedNameSample =
        some [⟨⟨"browser", .tool⟩, "no browser", [], "pages are not read", some "t1"⟩,
          ⟨⟨"crawler", .tool⟩, "no crawler", [], "sites are not searched", none⟩] ∧
      ¬ ∃ result, getAcquisitionOrder [⟨"crawler", ["browser"]⟩] sharedNameSample = some result ∧
        result.Perm sharedNameSample := by
  have heq : getAcquisitionOrder [⟨"crawler", ["browser"]⟩] sharedNameSample =
      some [⟨⟨"browser", .tool⟩, "no browser", [], "pages are not read", some "t1"⟩,
        ⟨⟨"crawler", .tool⟩, "no crawler", [], "sites are not searched", none⟩] := by
    decide +kernel
  refine ⟨heq, ?_⟩
  rintro ⟨result, hresult, hperm⟩
  rw [heq] at hresult
  cases hresult
  exact absurd hperm.length_eq (by decide)

end PulSeed.Observation
