import PulSeed.Lib.Digraph
import PulSeed.Lib.Number
import PulSeed.Lib.Transition
import PulSeed.Runtime.Envelope

/-!
# The goal dependency graph (`orchestrator/goal/goal-dependency-graph.ts`)

The graph in memory and the three operations that change it; each does so before its
first `await`, so a run is a sequence of operations. `addEdge` refuses a prerequisite
whose end already leads to its start along the active prerequisites (`detectCycle`,
which decides exactly that: `detectCycle_iff`), `updateEdgeStatus` sets any status
without looking.

So the active prerequisites stay acyclic exactly as long as no status update closes a
cycle (`acyclic_iff_checked`): a satisfied prerequisite may be made active again after
the reverse edge was added (`reactivation_closes_cycle`).
-/

namespace PulSeed.Goals

open Relation

/-- `DependencyTypeEnum`. -/
inductive DependencyType
  | prerequisite | resourceConflict | synergy | conflict | strategyDependency
  deriving DecidableEq, Repr

/-- `DependencyEdgeStatusEnum`. -/
inductive DependencyEdgeStatus
  | active | satisfied | invalidated
  deriving DecidableEq, Repr

/-- The dependency types of `StrategyDependencyMetadataSchema`. -/
inductive StrategyDependencyType
  | prerequisite | enhances
  deriving DecidableEq, Repr

/-- `StrategyDependencyMetadataSchema`. -/
structure StrategyDependencyMetadata where
  dependencyType : StrategyDependencyType
  goalId : String

/-- `DependencyEdgeSchema` without its `created_at`. -/
structure NewEdge where
  fromGoalId : String
  toGoalId : String
  type : DependencyType
  status : DependencyEdgeStatus := .active
  condition : Option String := none
  affectedDimensions : List String := []
  mitigation : Option String := none
  detectionConfidence : Number := .finite 1
  strategyDependency : Option StrategyDependencyMetadata := none
  reasoning : Option String := none

/-- `DependencyEdgeSchema`. -/
structure DependencyEdge extends NewEdge where
  createdAt : String

/-- `DependencyGraphSchema`. -/
structure DependencyGraph where
  nodes : List String
  edges : List DependencyEdge
  updatedAt : String

/-- The edge is an active prerequisite. -/
def DependencyEdge.isActivePrerequisite (e : DependencyEdge) : Bool :=
  e.type == .prerequisite && e.status == .active

/-- The edge leads from one goal to the other. -/
def DependencyEdge.joins (e : DependencyEdge) (fromGoalId toGoalId : String) : Bool :=
  e.fromGoalId == fromGoalId && e.toGoalId == toGoalId

namespace DependencyGraph

/-- `getEdge`, without a type. -/
def getEdge (g : DependencyGraph) (fromGoalId toGoalId : String) : Option DependencyEdge :=
  g.edges.find? fun e => e.joins fromGoalId toGoalId

/-- `activePrerequisiteAdjacency`. -/
def activePrerequisiteAdjacency (g : DependencyGraph) (goalId : String) : List String :=
  (g.edges.filter fun e => e.isActivePrerequisite && e.fromGoalId == goalId).map
    fun e => e.toGoalId

/-- The rounds of the loop of `detectCycle`: the start and every expansion. -/
def rounds (g : DependencyGraph) : Nat :=
  1 + unexpanded g.activePrerequisiteAdjacency (g.edges.map fun e => e.fromGoalId) []

/-- `detectCycle`. -/
def detectCycle (g : DependencyGraph) (fromGoalId toGoalId : String) : Bool :=
  (search g.activePrerequisiteAdjacency fromGoalId g.rounds [] [toGoalId]).getD false

/-- The nodes with a goal pushed if it is not present. -/
def pushNode (nodes : List String) (goalId : String) : List String :=
  if goalId ∈ nodes then nodes else nodes ++ [goalId]

/-- `addEdge`, with the clock it reads; the message of the error it throws. -/
def addEdge (g : DependencyGraph) (edge : NewEdge) (now : String) :
    Except String DependencyGraph :=
  if edge.type = .prerequisite ∧ g.detectCycle edge.fromGoalId edge.toGoalId then
    .error s!"Adding prerequisite {edge.fromGoalId} → {edge.toGoalId} would create a cycle"
  else
    .ok {
      nodes := pushNode (pushNode g.nodes edge.fromGoalId) edge.toGoalId
      edges := g.edges ++ [{ edge with createdAt := now }]
      updatedAt := now }

/-- `removeEdge`. -/
def removeEdge (g : DependencyGraph) (fromGoalId toGoalId : String) (type : DependencyType)
    (now : String) : DependencyGraph :=
  { g with
    edges := g.edges.filter fun e => !(e.joins fromGoalId toGoalId && e.type == type)
    updatedAt := now }

/-- The assignment `edge.status = status` to the first edge between the goals. -/
def setStatus (fromGoalId toGoalId : String) (status : DependencyEdgeStatus) :
    List DependencyEdge → List DependencyEdge
  | [] => []
  | e :: es =>
    if e.joins fromGoalId toGoalId then { e with status := status } :: es
    else e :: setStatus fromGoalId toGoalId status es

/-- `updateEdgeStatus`. -/
def updateEdgeStatus (g : DependencyGraph) (fromGoalId toGoalId : String)
    (status : DependencyEdgeStatus) (now : String) : DependencyGraph :=
  match g.getEdge fromGoalId toGoalId with
  | none => g
  | some _ => { g with
      edges := setStatus fromGoalId toGoalId status g.edges
      updatedAt := now }

end DependencyGraph

/-- The operations, with the clock they read. -/
inductive GraphOp
  | addEdge (edge : NewEdge) (now : String)
  | removeEdge (fromGoalId toGoalId : String) (type : DependencyType) (now : String)
  | updateEdgeStatus (fromGoalId toGoalId : String) (status : DependencyEdgeStatus)
      (now : String)

/-- One operation; the message of the error it throws, if it does. -/
def performGraph (g : DependencyGraph) : GraphOp → DependencyGraph × Option String
  | .addEdge edge now =>
    match g.addEdge edge now with
    | .ok g' => (g', none)
    | .error message => (g, some message)
  | .removeEdge fromGoalId toGoalId type now =>
    (g.removeEdge fromGoalId toGoalId type now, none)
  | .updateEdgeStatus fromGoalId toGoalId status now =>
    (g.updateEdgeStatus fromGoalId toGoalId status now, none)

/-- The graph and its operations. -/
def graphLTS : LTS DependencyGraph (GraphOp × Option String) := LTS.ofFn performGraph

/-- The graph after construction. -/
def emptyGraph (now : String) : DependencyGraph := ⟨[], [], now⟩

/-! ## The active prerequisites -/

namespace DependencyGraph

/-- An active prerequisite edge leads from `a` to `b`. -/
def Prerequisite (g : DependencyGraph) (a b : String) : Prop :=
  ∃ e ∈ g.edges, e.isActivePrerequisite = true ∧ e.fromGoalId = a ∧ e.toGoalId = b

theorem mem_adjacency_iff {g : DependencyGraph} {a b : String} :
    b ∈ g.activePrerequisiteAdjacency a ↔ g.Prerequisite a b := by
  unfold activePrerequisiteAdjacency Prerequisite
  simp only [List.mem_map, List.mem_filter, Bool.and_eq_true, beq_iff_eq]
  constructor
  · rintro ⟨e, ⟨hmem, hactive, hfrom⟩, hto⟩
    exact ⟨e, hmem, hactive, hfrom, hto⟩
  · rintro ⟨e, hmem, hactive, hfrom, hto⟩
    exact ⟨e, ⟨hmem, hactive, hfrom⟩, hto⟩

theorem adjacency_sources {g : DependencyGraph} {a : String}
    (hne : g.activePrerequisiteAdjacency a ≠ []) : a ∈ g.edges.map fun e => e.fromGoalId := by
  obtain ⟨b, hb⟩ := List.exists_mem_of_ne_nil _ hne
  obtain ⟨e, hmem, -, hfrom, -⟩ := mem_adjacency_iff.mp hb
  exact List.mem_map.mpr ⟨e, hmem, hfrom⟩

/-- **`detectCycle` decides reachability**: the end of the new prerequisite leads to its
start. -/
theorem detectCycle_iff {g : DependencyGraph} {fromGoalId toGoalId : String} :
    g.detectCycle fromGoalId toGoalId = true ↔
      ReflTransGen g.Prerequisite toGoalId fromGoalId := by
  have hrel : (fun u v => v ∈ g.activePrerequisiteAdjacency u) = g.Prerequisite :=
    funext₂ fun _ _ => propext mem_adjacency_iff
  rw [← hrel, ← search_iff (fun _ => adjacency_sources) (le_refl g.rounds), detectCycle]
  cases search g.activePrerequisiteAdjacency fromGoalId g.rounds [] [toGoalId] with
  | none => simp
  | some b => simp

/-- The graph with one more active prerequisite edge. -/
def withPrerequisite (g : DependencyGraph) (fromGoalId toGoalId now : String) : DependencyGraph :=
  { g with edges := g.edges ++ [{
      fromGoalId := fromGoalId
      toGoalId := toGoalId
      type := .prerequisite
      status := .active
      createdAt := now }] }

theorem prerequisite_withPrerequisite {g : DependencyGraph} {fromGoalId toGoalId now : String} :
    (g.withPrerequisite fromGoalId toGoalId now).Prerequisite =
      fun u v => g.Prerequisite u v ∨ (u = fromGoalId ∧ v = toGoalId) := by
  funext u v
  unfold Prerequisite withPrerequisite
  simp only [List.mem_append, List.mem_singleton, or_and_right, exists_or, exists_eq_left]
  refine propext (or_congr_right ⟨fun ⟨_, hfrom, hto⟩ => ⟨hfrom.symm, hto.symm⟩, ?_⟩)
  rintro ⟨rfl, rfl⟩
  exact ⟨rfl, rfl, rfl⟩

/-- **`detectCycle` foresees the cycles**: its loop ends within its rounds, and it returns true
exactly when a prerequisite between the goals would put both on a cycle, which is when they are
one goal or the second leads to the first. -/
theorem detectCycle_foresees (g : DependencyGraph) (a b now : String) :
    (search g.activePrerequisiteAdjacency a g.rounds [] [b]).isSome = true ∧
    (g.detectCycle a b = true ↔
      TransGen (g.withPrerequisite a b now).Prerequisite a b ∧
        TransGen (g.withPrerequisite a b now).Prerequisite b a) ∧
    (g.detectCycle a b = true ↔ a = b ∨ TransGen g.Prerequisite b a) := by
  have hpath : g.detectCycle a b = true ↔ a = b ∨ TransGen g.Prerequisite b a := by
    rw [detectCycle_iff, reflTransGen_iff_eq_or_transGen]
  refine ⟨search_isSome (fun _ => adjacency_sources) (by simp [rounds]), ?_, hpath⟩
  rw [prerequisite_withPrerequisite]
  constructor
  · intro hcycle
    have hnew : TransGen (fun u v => g.Prerequisite u v ∨ (u = a ∧ v = b)) a b :=
      .single (.inr ⟨rfl, rfl⟩)
    refine ⟨hnew, ?_⟩
    rcases hpath.mp hcycle with rfl | hback
    · exact hnew
    · exact TransGen.mono (fun _ _ h => .inl h) _ _ hback
  · rintro ⟨-, hback⟩
    rw [detectCycle_iff]
    rcases transGen_insert hback with hback | ⟨hback, -⟩ | hback
    · exact hback.to_reflTransGen
    · exact hback
    · exact hback

/-- The edge a status update makes active: the first between its goals, when that is a
prerequisite that is not active yet. -/
def reactivates (g : DependencyGraph) (fromGoalId toGoalId : String)
    (status : DependencyEdgeStatus) : Bool :=
  status == .active && (g.getEdge fromGoalId toGoalId).any fun e =>
    e.type == .prerequisite && e.status != .active

theorem mem_setStatus {fromGoalId toGoalId : String} {status : DependencyEdgeStatus}
    {edges : List DependencyEdge} {e : DependencyEdge}
    (h : e ∈ setStatus fromGoalId toGoalId status edges) :
    e ∈ edges ∨ ∃ e', edges.find? (fun e => e.joins fromGoalId toGoalId) = some e' ∧
      e = { e' with status := status } := by
  induction edges with
  | nil => cases h
  | cons e₀ es ih =>
    unfold setStatus at h
    split at h
    · next hjoins =>
      rcases List.mem_cons.mp h with rfl | h
      · exact .inr ⟨e₀, List.find?_cons_of_pos hjoins, rfl⟩
      · exact .inl (List.mem_cons_of_mem _ h)
    · next hjoins =>
      rcases List.mem_cons.mp h with rfl | h
      · exact .inl (List.mem_cons_self ..)
      · rcases ih h with h | ⟨e', hfind, rfl⟩
        · exact .inl (List.mem_cons_of_mem _ h)
        · refine .inr ⟨e', ?_, rfl⟩
          rw [List.find?_cons_of_neg (by simpa using hjoins)]
          exact hfind

/-- An update to a status other than `active`, or of an edge that is not a prerequisite,
adds no active prerequisite; nor does one of an edge that is active already. -/
theorem prerequisite_updateEdgeStatus {g : DependencyGraph} {fromGoalId toGoalId : String}
    {status : DependencyEdgeStatus} {now : String}
    (h : g.reactivates fromGoalId toGoalId status = false) {a b : String}
    (hab : (g.updateEdgeStatus fromGoalId toGoalId status now).Prerequisite a b) :
    g.Prerequisite a b := by
  unfold updateEdgeStatus at hab
  split at hab
  · exact hab
  · next e₀ he₀ =>
    obtain ⟨e, hmem, hactive, hfrom, hto⟩ := hab
    rcases mem_setStatus hmem with hmem | ⟨e', hfind, rfl⟩
    · exact ⟨e, hmem, hactive, hfrom, hto⟩
    · obtain ⟨htype, hstatus⟩ := Bool.and_eq_true_iff.mp hactive
      have hget : g.getEdge fromGoalId toGoalId = some e' := hfind
      have htype' : (e'.type == DependencyType.prerequisite) = true := htype
      have hstatus' : (status == DependencyEdgeStatus.active) = true := hstatus
      have hold : e'.status = .active := by
        by_contra hne
        have hyes : g.reactivates fromGoalId toGoalId status = true := by
          unfold reactivates
          rw [hstatus', hget]
          simp [beq_iff_eq.mp htype', hne]
        rw [h] at hyes
        cases hyes
      refine ⟨e', List.mem_of_find?_eq_some hfind, ?_, hfrom, hto⟩
      unfold DependencyEdge.isActivePrerequisite
      rw [htype', hold]
      rfl

theorem mem_setStatus_of_not_joins {fromGoalId toGoalId : String}
    (status : DependencyEdgeStatus) {edges : List DependencyEdge} {e : DependencyEdge}
    (hmem : e ∈ edges) (hjoins : e.joins fromGoalId toGoalId = false) :
    e ∈ setStatus fromGoalId toGoalId status edges := by
  induction edges with
  | nil => cases hmem
  | cons e₀ es ih =>
    unfold setStatus
    split
    · next hjoins₀ =>
      rcases List.mem_cons.mp hmem with rfl | hmem
      · rw [hjoins] at hjoins₀
        cases hjoins₀
      · exact List.mem_cons_of_mem _ hmem
    · rcases List.mem_cons.mp hmem with rfl | hmem
      · exact List.mem_cons_self ..
      · exact List.mem_cons_of_mem _ (ih hmem)

theorem setStatus_found {fromGoalId toGoalId : String} (status : DependencyEdgeStatus)
    {edges : List DependencyEdge} {e : DependencyEdge}
    (hfind : edges.find? (fun e => e.joins fromGoalId toGoalId) = some e) :
    { e with status := status } ∈ setStatus fromGoalId toGoalId status edges := by
  induction edges with
  | nil => cases hfind
  | cons e₀ es ih =>
    unfold setStatus
    by_cases hjoins : e₀.joins fromGoalId toGoalId = true
    · rw [List.find?_cons_of_pos (by simpa using hjoins)] at hfind
      cases hfind
      rw [if_pos hjoins]
      exact List.mem_cons_self ..
    · rw [List.find?_cons_of_neg (by simpa using hjoins)] at hfind
      rw [if_neg hjoins]
      exact List.mem_cons_of_mem _ (ih hfind)

/-- **A reactivation adds its edge** to the active prerequisites. -/
theorem prerequisite_reactivated {g : DependencyGraph} {fromGoalId toGoalId : String}
    {status : DependencyEdgeStatus} {now : String}
    (h : g.reactivates fromGoalId toGoalId status = true) :
    (g.updateEdgeStatus fromGoalId toGoalId status now).Prerequisite =
      fun a b => g.Prerequisite a b ∨ (a = fromGoalId ∧ b = toGoalId) := by
  obtain ⟨hstatus, hany⟩ := Bool.and_eq_true_iff.mp h
  obtain ⟨e', hget, hold⟩ := (Option.any_eq_true _ _).mp hany
  obtain ⟨htype, -⟩ := Bool.and_eq_true_iff.mp hold
  have hfind : g.edges.find? (fun e => e.joins fromGoalId toGoalId) = some e' := hget
  have hjoins : e'.joins fromGoalId toGoalId = true :=
    List.find?_some (p := fun e : DependencyEdge => e.joins fromGoalId toGoalId) hfind
  obtain ⟨hfrom', hto'⟩ := Bool.and_eq_true_iff.mp hjoins
  have hedges : (g.updateEdgeStatus fromGoalId toGoalId status now).edges =
      setStatus fromGoalId toGoalId status g.edges := by
    unfold updateEdgeStatus
    rw [hget]
  have hnew : DependencyEdge.isActivePrerequisite { e' with status := status } = true := by
    unfold DependencyEdge.isActivePrerequisite
    rw [hstatus, htype]
    rfl
  funext a b
  refine propext ⟨?_, ?_⟩
  · rintro ⟨e, hmem, hactive, hfrom, hto⟩
    rw [hedges] at hmem
    rcases mem_setStatus hmem with hmem | ⟨e'', hfind', rfl⟩
    · exact .inl ⟨e, hmem, hactive, hfrom, hto⟩
    · rw [hfind] at hfind'
      cases hfind'
      exact .inr ⟨hfrom.symm.trans (beq_iff_eq.mp hfrom'), hto.symm.trans (beq_iff_eq.mp hto')⟩
  · intro hab
    by_cases hends : a = fromGoalId ∧ b = toGoalId
    · exact ⟨_, hedges ▸ setStatus_found status hfind, hnew,
        (beq_iff_eq.mp hfrom').trans hends.1.symm, (beq_iff_eq.mp hto').trans hends.2.symm⟩
    · rcases hab with ⟨e, hmem, hactive, hfrom, hto⟩ | hab
      · refine ⟨e, hedges ▸ mem_setStatus_of_not_joins status hmem ?_, hactive, hfrom, hto⟩
        -- an edge with other ends is not the one updated
        rw [← hfrom, ← hto] at hends
        unfold DependencyEdge.joins
        by_contra hyes
        simp only [Bool.not_eq_false, Bool.and_eq_true, beq_iff_eq] at hyes
        exact hends hyes
      · exact absurd hab hends

theorem prerequisite_removeEdge {g : DependencyGraph} {fromGoalId toGoalId : String}
    {type : DependencyType} {now a b : String}
    (h : (g.removeEdge fromGoalId toGoalId type now).Prerequisite a b) :
    g.Prerequisite a b := by
  obtain ⟨e, hmem, hactive, hfrom, hto⟩ := h
  exact ⟨e, (List.mem_filter.mp hmem).1, hactive, hfrom, hto⟩

/-- An accepted edge adds itself, when it is an active prerequisite. -/
theorem prerequisite_addEdge {g g' : DependencyGraph} {edge : NewEdge} {now : String}
    (h : g.addEdge edge now = .ok g') {a b : String} (hab : g'.Prerequisite a b) :
    g.Prerequisite a b ∨
      (edge.type = .prerequisite ∧ a = edge.fromGoalId ∧ b = edge.toGoalId) := by
  unfold addEdge at h
  split at h
  · cases h
  · cases h
    obtain ⟨e, hmem, hactive, hfrom, hto⟩ := hab
    rcases List.mem_append.mp hmem with hmem | hmem
    · exact .inl ⟨e, hmem, hactive, hfrom, hto⟩
    · obtain rfl := List.mem_singleton.mp hmem
      exact .inr ⟨beq_iff_eq.mp (Bool.and_eq_true_iff.mp hactive).1, hfrom.symm, hto.symm⟩

theorem addEdge_checked {g g' : DependencyGraph} {edge : NewEdge} {now : String}
    (h : g.addEdge edge now = .ok g') (htype : edge.type = .prerequisite) :
    g.detectCycle edge.fromGoalId edge.toGoalId = false := by
  unfold addEdge at h
  split at h
  · cases h
  · next hno => simpa [htype] using hno

end DependencyGraph

/-! ## Acyclicity -/

/-- The condition: a status update that makes a prerequisite active again meets the check
of `addEdge`. -/
def Checked (g : DependencyGraph) : GraphOp → Prop
  | .updateEdgeStatus fromGoalId toGoalId status _ =>
    g.reactivates fromGoalId toGoalId status = true →
      g.detectCycle fromGoalId toGoalId = false
  | _ => True

instance (g : DependencyGraph) : (op : GraphOp) → Decidable (Checked g op)
  | .updateEdgeStatus _ _ _ _ => inferInstanceAs (Decidable (_ → _))
  | .addEdge _ _ | .removeEdge _ _ _ _ => instDecidableTrue

/-- A refused or inactive edge aside, an edge with its check keeps the graph acyclic. -/
theorem acyclic_addEdge {g g' : DependencyGraph} {edge : NewEdge} {now : String}
    (h : g.addEdge edge now = .ok g') (hg : Acyclic g.Prerequisite) :
    Acyclic g'.Prerequisite := by
  by_cases htype : edge.type = .prerequisite
  · have hno := DependencyGraph.addEdge_checked h htype
    have hreach : ¬ ReflTransGen g.Prerequisite edge.toGoalId edge.fromGoalId := by
      rw [← DependencyGraph.detectCycle_iff, hno]
      exact Bool.false_ne_true
    refine (hg.insert_iff.mpr hreach).mono fun a b hab => ?_
    rcases DependencyGraph.prerequisite_addEdge h hab with hab | ⟨-, hfrom, hto⟩
    · exact .inl hab
    · exact .inr ⟨hfrom, hto⟩
  · refine hg.mono fun a b hab => ?_
    rcases DependencyGraph.prerequisite_addEdge h hab with hab | ⟨hyes, -, -⟩
    · exact hab
    · exact absurd hyes htype

/-- **An operation keeps an acyclic graph acyclic exactly when it is checked.** -/
theorem performGraph_acyclic_iff {g : DependencyGraph} (hg : Acyclic g.Prerequisite)
    (op : GraphOp) : Acyclic (performGraph g op).1.Prerequisite ↔ Checked g op := by
  cases op with
  | addEdge edge now =>
    refine iff_of_true ?_ trivial
    simp only [performGraph]
    split
    · next g' hadd => exact acyclic_addEdge hadd hg
    · exact hg
  | removeEdge fromGoalId toGoalId type now =>
    exact iff_of_true (hg.mono fun _ _ => DependencyGraph.prerequisite_removeEdge) trivial
  | updateEdgeStatus fromGoalId toGoalId status now =>
    show Acyclic (g.updateEdgeStatus fromGoalId toGoalId status now).Prerequisite ↔ _
    cases hre : g.reactivates fromGoalId toGoalId status with
    | false =>
      refine iff_of_true
        (hg.mono fun _ _ => DependencyGraph.prerequisite_updateEdgeStatus hre) fun hyes => ?_
      rw [hre] at hyes
      cases hyes
    | true =>
      rw [DependencyGraph.prerequisite_reactivated hre, hg.insert_iff,
        ← DependencyGraph.detectCycle_iff, Bool.not_eq_true]
      exact ⟨fun h _ => h, fun h => h hre⟩

theorem emptyGraph_acyclic (now : String) : Acyclic (emptyGraph now).Prerequisite := by
  intro x hx
  obtain ⟨y, ⟨e, hmem, -⟩, -⟩ := TransGen.head'_iff.mp hx
  cases hmem

/-- **The active prerequisites are acyclic in every state of a run exactly when every
status update of the run that makes a prerequisite active again meets the check of
`addEdge`.** -/
theorem acyclic_iff_checked {start : String} {g : DependencyGraph}
    {ops : List (GraphOp × Option String)} (hrun : graphLTS.Run (emptyGraph start) ops g) :
    graphLTS.Throughout (emptyGraph start) ops (fun m => Acyclic m.Prerequisite) ↔
      graphLTS.Always (emptyGraph start) ops (fun m l => Checked m l.1) :=
  hrun.throughout_iff (emptyGraph_acyclic start) fun _ op hm => performGraph_acyclic_iff hm op

/-! ## Sample runs -/

/-- Two goals, one satisfied before the other was made to depend on it. -/
def sampleOps : List GraphOp :=
  [.addEdge { fromGoalId := "a", toGoalId := "b", type := .prerequisite } "1",
    .addEdge { fromGoalId := "b", toGoalId := "a", type := .prerequisite } "2",
    .updateEdgeStatus "a" "b" .satisfied "3",
    .addEdge { fromGoalId := "b", toGoalId := "a", type := .prerequisite } "4"]

theorem acyclic_iff_checked_sample :
    graphLTS.Throughout (emptyGraph "0") (LTS.exec performGraph (emptyGraph "0") sampleOps).1
      fun m => Acyclic m.Prerequisite :=
  (acyclic_iff_checked (LTS.run_exec performGraph (emptyGraph "0") sampleOps)).mpr
    (LTS.ExecAlways.always (by decide +kernel))

/-- **The first prerequisite made active again closes a cycle.** -/
theorem reactivation_closes_cycle :
    ∃ ops g, graphLTS.Run (emptyGraph "0") ops g ∧ TransGen g.Prerequisite "a" "a" := by
  let ops := sampleOps ++ [.updateEdgeStatus "a" "b" .active "5"]
  refine ⟨_, _, LTS.run_exec performGraph (emptyGraph "0") ops, ?_⟩
  have hedge : ∀ x y, (((LTS.exec performGraph (emptyGraph "0") ops).2.edges.any fun e =>
      e.isActivePrerequisite && (e.fromGoalId == x && e.toGoalId == y)) = true) →
      (LTS.exec performGraph (emptyGraph "0") ops).2.Prerequisite x y := by
    intro x y h
    obtain ⟨e, hmem, he⟩ := List.any_eq_true.mp h
    simp only [Bool.and_eq_true, beq_iff_eq] at he
    exact ⟨e, hmem, he.1, he.2⟩
  exact .tail (.single (hedge "a" "b" (by decide +kernel))) (hedge "b" "a" (by decide +kernel))

end PulSeed.Goals
