import PulSeed.Lib.DepthFirst
import PulSeed.Lib.EraseDups
import PulSeed.Lib.Kahn
import PulSeed.Lib.Text

/-!
# Capability dependencies (`platform/observation/capability-dependencies.ts`)

An entry lists the capabilities that a capability depends on. `resolveDependencies` orders the
ids of the entries by counting in-degrees, and `detectCircularDependency` searches the entries
depth first for a cycle.

A `Map` that is read with a default is the function that returns the default elsewhere. The
rounds and the depth that the two are given are those that they can need, and a run that used
them up would be `none`.

- `resolveDependencies_spec`: the order, for any entries.
- `detectCircularDependency_spec`: the search, for entries with distinct ids.
- `dependencies_resolved`: **what the two return.**
-/

namespace PulSeed.Observation

open Relation Layers EraseDups
open DepthFirst (IsCycle)

/-- `CapabilityDependencySchema`. -/
structure CapabilityDependency where
  capability_id : String
  depends_on : List String
  deriving DecidableEq

/-- A capability depends on another: the prerequisite comes first. -/
def Prerequisite (dependencies : List CapabilityDependency) (prereq id : String) : Prop :=
  ∃ dep ∈ dependencies, dep.capability_id = id ∧ prereq ∈ dep.depends_on

/-! ## Ordering -/

/-- The order of `sort()`: by code units. -/
def idLE (a b : String) : Prop := (utf16 a).map UInt16.toNat ≤ (utf16 b).map UInt16.toNat

instance : DecidableRel idLE := fun a b =>
  inferInstanceAs (Decidable ((utf16 a).map UInt16.toNat ≤ (utf16 b).map UInt16.toNat))

instance : Std.Total idLE := ⟨fun _ _ => le_total _ _⟩

instance : IsTrans String idLE := ⟨fun _ _ _ => le_trans⟩

instance : Std.Antisymm idLE := ⟨fun _ _ hab hba =>
  utf16_injective (List.map_injective_iff.mpr (fun _ _ => UInt16.toNat_inj.mp)
    (le_antisymm hab hba))⟩

/-- `allIds`. -/
def allIds (dependencies : List CapabilityDependency) : List String :=
  (dependencies.flatMap fun dep => dep.capability_id :: dep.depends_on).eraseDups

/-- The pairs of a prerequisite and what depends on it, in the order of the nested loops. -/
def prereqPairs (dependencies : List CapabilityDependency) : List (String × String) :=
  dependencies.flatMap fun dep => dep.depends_on.map fun prereq => (prereq, dep.capability_id)

/-- `inDegree`. -/
def inDegree (dependencies : List CapabilityDependency) : String → ℤ :=
  (prereqPairs dependencies).foldl
    (fun inDegree e => Function.update inDegree e.2 (inDegree e.2 + 1)) fun _ => 0

/-- `adj` of `resolveDependencies`: from a prerequisite to what depends on it. -/
def dependents (dependencies : List CapabilityDependency) : String → List String :=
  (prereqPairs dependencies).foldl
    (fun adj e => Function.update adj e.1 (adj e.1 ++ [e.2])) fun _ => []

/-- `resolveDependencies`. -/
def resolveDependencies (dependencies : List CapabilityDependency) : Option (List String) :=
  if dependencies = [] then some []
  else
    let queue := (allIds dependencies).filter fun id => inDegree dependencies id = 0
    Kahn.loop (dependents dependencies) (List.insertionSort idLE) (allIds dependencies).length
      ⟨inDegree dependencies, queue.insertionSort idLE⟩ []

/-! ## Cycles -/

/-- `adj` of `detectCircularDependency`: the last entry of an id has what it depends on. -/
def dependsOn (dependencies : List CapabilityDependency) : String → List String :=
  dependencies.foldl (fun adj dep => Function.update adj dep.capability_id dep.depends_on)
    fun _ => []

/-- `dfs`. -/
def dfs (dependencies : List CapabilityDependency) (node : String) (st : DepthFirst.State String) :
    Option (Option (List String) × DepthFirst.State String) :=
  DepthFirst.visit (dependsOn dependencies) ((allIds dependencies).length + 1) node st

/-- `detectCircularDependency`. -/
def detectCircularDependency (dependencies : List CapabilityDependency) :
    Option (Option (List String)) :=
  if dependencies = [] then some none
  else
    (DepthFirst.visitAll
      (fun id st => if id ∈ st.visited then some (none, st) else dfs dependencies id st)
      (dependencies.map (·.capability_id)) ⟨[], [], []⟩).map Prod.fst

/-! ## The ids -/

section Ids

variable {dependencies : List CapabilityDependency} {id prereq : String}

theorem mem_allIds : id ∈ allIds dependencies ↔
    ∃ dep ∈ dependencies, id = dep.capability_id ∨ id ∈ dep.depends_on := by
  unfold allIds
  simp only [List.mem_eraseDups, List.mem_flatMap, List.mem_cons]

theorem mem_prereqPairs :
    (prereq, id) ∈ prereqPairs dependencies ↔ Prerequisite dependencies prereq id := by
  unfold prereqPairs Prerequisite
  rw [List.mem_flatMap]
  refine exists_congr fun dep => and_congr_right fun _ => ?_
  rw [List.mem_map]
  constructor
  · rintro ⟨_, hmem, heq⟩
    cases heq
    exact ⟨rfl, hmem⟩
  · rintro ⟨rfl, hmem⟩
    exact ⟨prereq, hmem, rfl⟩

theorem Prerequisite.mem_left (h : Prerequisite dependencies prereq id) :
    prereq ∈ allIds dependencies := by
  obtain ⟨dep, hdep, -, hmem⟩ := h
  exact mem_allIds.mpr ⟨dep, hdep, .inr hmem⟩

theorem Prerequisite.mem_right (h : Prerequisite dependencies prereq id) :
    id ∈ allIds dependencies := by
  obtain ⟨dep, hdep, rfl, -⟩ := h
  exact mem_allIds.mpr ⟨dep, hdep, .inl rfl⟩

theorem nodup_allIds : (allIds dependencies).Nodup := nodup_eraseDups _

/-- Without a cycle, no id is after one. -/
theorem acyclic_iff : Acyclic (Prerequisite dependencies) ↔
    ∀ id ∈ allIds dependencies, ¬ AfterCycle (Prerequisite dependencies) id := by
  constructor
  · rintro hacyclic id - ⟨y, hcycle, -⟩
    exact hacyclic y hcycle
  · intro h id hcycle
    obtain ⟨y, hfirst, -⟩ := TransGen.head'_iff.mp hcycle
    exact h id hfirst.mem_left ⟨id, hcycle, .refl⟩

end Ids

/-! ## The order -/

section Order

variable {dependencies : List CapabilityDependency}

theorem insertionSort_perm (l : List String) : (l.insertionSort idLE).Perm l :=
  List.perm_insertionSort idLE l

/-- Increments along a list count. -/
theorem foldl_increment (edges : List (String × String)) (counts : String → ℤ) (id : String) :
    edges.foldl (fun counts e => Function.update counts e.2 (counts e.2 + 1)) counts id =
      counts id + (Kahn.waiting edges [] id : ℕ) := by
  unfold Kahn.waiting
  induction edges generalizing counts with
  | nil => simp
  | cons e edges ih =>
    rw [List.foldl_cons, ih, List.countP_cons]
    by_cases he : e.2 = id
    · rw [← he, Function.update_self]
      simp
      omega
    · rw [Function.update_of_ne (Ne.symm he)]
      simp [he]

/-- Appends along a list collect. -/
theorem foldl_collect (edges : List (String × String)) (lists : String → List String)
    (id : String) :
    edges.foldl (fun (lists : String → List String) e =>
        Function.update lists e.1 (lists e.1 ++ [e.2])) lists id =
      lists id ++ Kahn.dependents edges id := by
  unfold Kahn.dependents
  induction edges generalizing lists with
  | nil => simp
  | cons e edges ih =>
    rw [List.foldl_cons, ih, List.filter_cons]
    by_cases he : e.1 = id
    · rw [← he, Function.update_self]
      simp
    · rw [Function.update_of_ne (Ne.symm he)]
      simp [he]

theorem inDegree_eq (id : String) :
    inDegree dependencies id = (Kahn.waiting (prereqPairs dependencies) [] id : ℕ) :=
  (foldl_increment _ _ id).trans (zero_add _)

theorem dependents_eq : dependents dependencies = Kahn.dependents (prereqPairs dependencies) :=
  funext fun id => foldl_collect _ _ id

/-- The counts and the queue that the rounds start with. -/
theorem inv_start : Kahn.Inv (prereqPairs dependencies) (allIds dependencies) []
    ⟨inDegree dependencies,
      ((allIds dependencies).filter fun id => inDegree dependencies id = 0).insertionSort idLE⟩ := by
  refine ⟨⟨?_, fun id hid => ?_, fun id => ?_, fun id hid => ?_⟩, fun before id after heq => ?_⟩
  · exact (insertionSort_perm _).nodup_iff.mpr (nodup_allIds.filter _)
  · exact List.mem_of_mem_filter ((insertionSort_perm _).mem_iff.mp hid)
  · rw [List.count_nil, Nat.add_zero]
    exact inDegree_eq id
  · rw [List.nil_append, (insertionSort_perm _).mem_iff, List.mem_filter, decide_eq_true_eq]
    exact and_iff_right hid
  · simp at heq

/-- **The order**: once each and after all they depend on, the ids that depend on no cycle. -/
structure DependencyOrder (dependencies : List CapabilityDependency) (order : List String) :
    Prop where
  nodup : order.Nodup
  mem_iff : ∀ id, id ∈ order ↔
    id ∈ allIds dependencies ∧ ¬ AfterCycle (Prerequisite dependencies) id
  ordered : ∀ before id after, order = before ++ id :: after →
    ∀ prereq, Prerequisite dependencies prereq id → prereq ∈ before
  perm_iff : order.Perm (allIds dependencies) ↔ Acyclic (Prerequisite dependencies)

theorem dependencyOrder_of_ordering {order : List String}
    (h : Kahn.Ordering (prereqPairs dependencies) (allIds dependencies) order) :
    DependencyOrder dependencies order := by
  have hrel : (fun y x => (y, x) ∈ prereqPairs dependencies) = Prerequisite dependencies :=
    funext fun y => funext fun x => propext mem_prereqPairs
  have hmem : ∀ id, id ∈ order ↔
      id ∈ allIds dependencies ∧ ¬ AfterCycle (Prerequisite dependencies) id := by
    intro id
    rw [h.mem_iff_acc fun e he => (mem_prereqPairs.mp he).mem_left, hrel,
      acc_iff_not_afterCycle fun y x hyx => hyx.mem_left]
  refine ⟨h.nodup, hmem, fun before id after heq prereq hprereq =>
    h.ordered before id after heq prereq (mem_prereqPairs.mpr hprereq), ?_⟩
  rw [acyclic_iff, List.perm_ext_iff_of_nodup h.nodup nodup_allIds]
  exact forall_congr' fun id => by
    rw [hmem id, and_iff_left_iff_imp]

/-- **`resolveDependencies` returns such an order.** -/
theorem resolveDependencies_spec (dependencies : List CapabilityDependency) :
    ∃ order, resolveDependencies dependencies = some order ∧
      DependencyOrder dependencies order := by
  unfold resolveDependencies
  by_cases hnil : dependencies = []
  · rw [if_pos hnil, hnil]
    refine ⟨[], rfl, dependencyOrder_of_ordering ⟨List.nodup_nil, fun before id after heq => ?_,
      fun id => ?_⟩⟩
    · simp at heq
    · simp [allIds]
  · rw [if_neg hnil, dependents_eq]
    have hrounds : (allIds dependencies).length ≤
        ([] : List String).length + (allIds dependencies).length := Nat.le_add_left _ _
    obtain ⟨order, horder, hspec⟩ := Kahn.loop_spec insertionSort_perm
      (fun e he => (mem_prereqPairs.mp he).mem_right) inv_start hrounds
    exact ⟨order, horder, dependencyOrder_of_ordering hspec⟩

/-- **Ids that depend on nothing** are ordered by code units. -/
theorem resolveDependencies_filter {order : List String} {p : String → Prop} [DecidablePred p]
    (hp : ∀ prereq id, Prerequisite dependencies prereq id → ¬ p id)
    (h : resolveDependencies dependencies = some order) : (order.filter p).Pairwise idLE := by
  unfold resolveDependencies at h
  by_cases hnil : dependencies = []
  · rw [if_pos hnil] at h
    cases h
    exact .nil
  · rw [if_neg hnil, dependents_eq] at h
    have hqueue : (((allIds dependencies).filter fun id =>
        inDegree dependencies id = 0).insertionSort idLE).Pairwise idLE :=
      List.pairwise_insertionSort idLE _
    have hfilter := Kahn.loop_filter (fun prereq id hid =>
      hp prereq id (mem_prereqPairs.mp (Kahn.mem_dependents.mp hid))) hqueue h
    rw [hfilter]
    exact hqueue.filter _

end Order

/-! ## The search -/

section Search

variable {dependencies : List CapabilityDependency}

theorem foldl_entries (hids : (dependencies.map (·.capability_id)).Nodup)
    (adj : String → List String) :
    (∀ dep ∈ dependencies, dependencies.foldl
        (fun adj dep => Function.update adj dep.capability_id dep.depends_on) adj
        dep.capability_id = dep.depends_on) ∧
      ∀ id ∉ dependencies.map (·.capability_id), dependencies.foldl
        (fun adj dep => Function.update adj dep.capability_id dep.depends_on) adj id = adj id := by
  induction dependencies generalizing adj with
  | nil => exact ⟨fun dep hdep => absurd hdep (List.not_mem_nil), fun _ _ => rfl⟩
  | cons first rest ih =>
    rw [List.map_cons, List.nodup_cons] at hids
    obtain ⟨hmem, hother⟩ :=
      ih hids.2 (Function.update adj first.capability_id first.depends_on)
    constructor
    · intro dep hdep
      rw [List.foldl_cons]
      rcases List.mem_cons.mp hdep with rfl | hdep
      · rw [hother _ hids.1, Function.update_self]
      · exact hmem dep hdep
    · intro id hid
      rw [List.map_cons, List.mem_cons, not_or] at hid
      rw [List.foldl_cons, hother id hid.2, Function.update_of_ne hid.1]

/-- With distinct ids, the adjacency is what the entries list. -/
theorem mem_dependsOn (hids : (dependencies.map (·.capability_id)).Nodup) {id prereq : String} :
    prereq ∈ dependsOn dependencies id ↔ Prerequisite dependencies prereq id := by
  obtain ⟨hentry, hother⟩ := foldl_entries hids fun _ => []
  constructor
  · intro h
    by_cases hid : id ∈ dependencies.map (·.capability_id)
    · obtain ⟨dep, hdep, rfl⟩ := List.mem_map.mp hid
      unfold dependsOn at h
      rw [hentry dep hdep] at h
      exact ⟨dep, hdep, rfl, h⟩
    · unfold dependsOn at h
      rw [hother id hid] at h
      exact absurd h (List.not_mem_nil)
  · rintro ⟨dep, hdep, rfl, hmem⟩
    unfold dependsOn
    rwa [hentry dep hdep]

theorem inv_empty (adj : String → List String) : DepthFirst.Inv adj ⟨[], [], []⟩ :=
  ⟨fun _ => Iff.rfl, nofun, List.isChain_nil, nofun⟩

/-- **The search ends**, with a cycle, or with no entry on or after one. -/
theorem detectCircularDependency_spec (hids : (dependencies.map (·.capability_id)).Nodup) :
    ∃ result, detectCircularDependency dependencies = some result ∧
      (result = none → Acyclic (Prerequisite dependencies)) ∧
      ∀ cycle, result = some cycle →
        IsCycle (fun id next => Prerequisite dependencies next id) cycle := by
  have hrel : (fun id next => next ∈ dependsOn dependencies id) =
      fun id next => Prerequisite dependencies next id :=
    funext fun id => funext fun next => propext (mem_dependsOn hids)
  unfold detectCircularDependency
  by_cases hnil : dependencies = []
  · rw [if_pos hnil, hnil]
    refine ⟨none, rfl, fun _ id hcycle => ?_, nofun⟩
    obtain ⟨y, ⟨dep, hdep, -⟩, -⟩ := TransGen.head'_iff.mp hcycle
    exact absurd hdep (List.not_mem_nil)
  rw [if_neg hnil]
  obtain ⟨⟨result, st⟩, hall, houtcome⟩ := DepthFirst.visitAll_spec
    (fun id st => if id ∈ st.visited then some (none, st) else dfs dependencies id st)
    (dependencies.map (·.capability_id)) (inv_empty (dependsOn dependencies)) fun id hid st hlater => by
      by_cases hvisited : id ∈ st.visited
      · refine ⟨(none, st), if_pos hvisited, ⟨hlater.inv, rfl, fun _ h => h⟩, ?_⟩
        intro x hx
        rw [List.mem_singleton.mp hx, hlater.stackPath]
        exact ⟨hvisited, List.not_mem_nil⟩
      · have hmem : id ∈ allIds dependencies := by
          obtain ⟨dep, hdep, rfl⟩ := List.mem_map.mp hid
          exact mem_allIds.mpr ⟨dep, hdep, .inl rfl⟩
        rw [if_neg hvisited]
        refine DepthFirst.visit_spec (allIds dependencies)
          (fun x _ y hy => ((mem_dependsOn hids).mp hy).mem_left) hlater.inv hmem ?_ ?_
        · rw [hlater.stackPath]
          exact nofun
        · exact Nat.lt_succ_of_le (List.length_filter_le _ _)
  refine ⟨result, by rw [hall]; rfl, ?_, ?_⟩
  · rintro rfl
    obtain ⟨hlater, hdone⟩ := houtcome
    intro id hcycle
    -- The last node of a cycle depends on something, so that it has an entry and was visited.
    obtain ⟨y, -, dep, hdep, rfl, -⟩ := TransGen.tail'_iff.mp hcycle
    obtain ⟨hvisited, hoff⟩ := hdone dep.capability_id (List.mem_map_of_mem hdep)
    have hacc := hlater.inv.finished dep.capability_id hvisited hoff
    have hrel' : (fun v u => v ∈ dependsOn dependencies u) = Prerequisite dependencies :=
      funext fun v => funext fun u => propext (mem_dependsOn hids)
    rw [hrel'] at hacc
    exact not_acc_of_cycle hcycle hacc
  · rintro cycle rfl
    exact hrel ▸ houtcome

end Search

/-- **What the two return**: an order of what depends on no cycle, and a cycle if there is one. -/
theorem dependencies_resolved (dependencies : List CapabilityDependency)
    (hids : (dependencies.map (·.capability_id)).Nodup) :
    (∃ order, resolveDependencies dependencies = some order ∧
      DependencyOrder dependencies order) ∧
    ∃ result, detectCircularDependency dependencies = some result ∧
      (result = none ↔ Acyclic (Prerequisite dependencies)) ∧
      ∀ cycle, result = some cycle →
        IsCycle (fun id next => Prerequisite dependencies next id) cycle := by
  refine ⟨resolveDependencies_spec dependencies, ?_⟩
  obtain ⟨result, hresult, hnone, hsome⟩ := detectCircularDependency_spec hids
  refine ⟨result, hresult, ⟨hnone, fun hacyclic => ?_⟩, hsome⟩
  cases result with
  | none => rfl
  | some cycle =>
    refine absurd (fun id hcycle => ?_) (hsome cycle rfl).not_acyclic
    exact hacyclic id (transGen_swap.mp hcycle)

/-- Two entries that depend on each other, and one that lists what it depends on twice. -/
def circularSample : List CapabilityDependency :=
  [⟨"b", ["a", "a"]⟩, ⟨"c", ["b", "d"]⟩, ⟨"d", ["c"]⟩]

theorem dependencies_resolved_sample :
    resolveDependencies circularSample = some ["a", "b"] ∧
      detectCircularDependency circularSample = some (some ["c", "d", "c"]) ∧
      DependencyOrder circularSample ["a", "b"] ∧ ¬ Acyclic (Prerequisite circularSample) := by
  have horder : resolveDependencies circularSample = some ["a", "b"] := by decide +kernel
  have hcycle : detectCircularDependency circularSample = some (some ["c", "d", "c"]) := by
    decide +kernel
  obtain ⟨⟨order, horder', hspec⟩, result, hresult, hnone, -⟩ :=
    dependencies_resolved circularSample (by decide)
  rw [horder] at horder'
  rw [hcycle] at hresult
  cases horder'
  cases hresult
  exact ⟨horder, hcycle, hspec, fun hacyclic => absurd (hnone.mpr hacyclic) nofun⟩

end PulSeed.Observation
