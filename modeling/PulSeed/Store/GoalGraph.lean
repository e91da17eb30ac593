import PulSeed.Store.GoalTaskState

/-!
# The runtime graph and the stored goals (`runtime/store/goal-task-state-store.ts`)

The graph should mirror the goals as last saved (`Mirrors`): an edge from each stored parent
to its child, and a milestone node for each milestone.

Saving a goal writes only the edge to the goal itself, and only when the node of its parent
is already there; a goal that stops being a milestone keeps the milestone node; and the edge
of a pair of goals is not written when another pair has its id. **The graph mirrors the goals
at every point of a history exactly when no save does one of these** (`mirrors_iff`). The
projection that rebuilds the tables from the events (`runtime-event-log.ts`) writes all goals
before it writes the edges.

What holds on every history is `Sound`: the nodes of goals are those of the stored goals, and
no edge or milestone is missing its goal. The calls about tasks keep the goals' part of the
graph (`SameGoals`).
-/

namespace PulSeed.GoalTaskState

open TreeLoop (Goal)

/-! ## The goals as last saved -/

/-- The stored goals. -/
abbrev Goals := String → Option Goal

/-- What a call saves or deletes. -/
def save (goals : Goals) : Op → Goals
  | .saveGoal goal => if goal.id = "" then goals else Function.update goals goal.id (some goal)
  | .saveArchivedGoal goal =>
    if goal.id = "" then goals else Function.update goals goal.id (some (archive goal))
  | .deleteGoal goalId => Function.update goals goalId none
  | .saveTask _ | .loadTask _ _ | .listTasks _ | .listTasksByStatus _ | .deleteTask _ _ => goals

/-- The goals as last saved by some calls. -/
def lastSaved (ops : List Op) : Goals := ops.foldl save fun _ => none

theorem lastSaved_concat (ops : List Op) (op : Op) :
    lastSaved (ops ++ [op]) = save (lastSaved ops) op :=
  List.foldl_concat save _ op ops

/-- Both are stored, and the one is the parent of the other. -/
def IsParent (goals : Goals) (p c : String) : Prop :=
  (goals p).isSome ∧ ∃ goal, goals c = some goal ∧ goal.parent_id = some p

def IsMilestone (goals : Goals) (id : String) : Prop :=
  ∃ goal, goals id = some goal ∧ goal.node_type = .milestone

/-- There is a `parent_of` edge from one goal to another. -/
def Linked (s : Store) (p c : String) : Prop :=
  ∃ edge ∈ s.edges.rows, edge.edge_kind = .parent_of ∧
    edge.from_node_id = goalRuntimeGraphNodeId p ∧ edge.to_node_id = goalRuntimeGraphNodeId c

/-- The graph mirrors the goals. -/
structure Mirrors (goals : Goals) (s : Store) : Prop where
  parents : ∀ p c, Linked s p c ↔ IsParent goals p c
  milestones : ∀ id, s.HasNode .milestone id ↔ IsMilestone goals id

/-- A save that the graph follows: the goal stays a milestone if it is one, no child of it is
stored before it, and no edge between other goals has the id of the edge to it. -/
structure SavedInOrder (goals : Goals) (goal : Goal) : Prop where
  milestone : IsMilestone goals goal.id → goal.node_type = .milestone
  parent_first : goals goal.id = none →
    ∀ c child, c ≠ goal.id → goals c = some child → child.parent_id ≠ some goal.id
  edge_free : ∀ p, goal.parent_id = some p → (goals p).isSome ∨ p = goal.id →
    ∀ p' c, c ≠ goal.id → IsParent goals p' c →
      (RuntimeGraphEdge.goalParent p' c).edge_id ≠ (RuntimeGraphEdge.goalParent p goal.id).edge_id

/-- Each goal is saved so that the graph follows; other calls are free. -/
def InOrder (goals : Goals) : Op → Prop
  | .saveGoal goal => goal.id ≠ "" → SavedInOrder goals goal
  | .saveArchivedGoal goal => goal.id ≠ "" → SavedInOrder goals (archive goal)
  | .deleteGoal _ | .saveTask _ | .loadTask _ _ | .listTasks _ | .listTasksByStatus _
  | .deleteTask _ _ => True

/-! ## Calls about tasks -/

/-- The goals' part of the graph is the same. -/
structure SameGoals (s s' : Store) : Prop where
  nodes : ∀ kind ref, kind ≠ .task → (s'.HasNode kind ref ↔ s.HasNode kind ref)
  parents : ∀ p c, s'.HasParentEdge p c ↔ s.HasParentEdge p c

namespace SameGoals

variable {s s' s'' : Store}

theorem refl (s : Store) : SameGoals s s := ⟨fun _ _ _ => .rfl, fun _ _ => .rfl⟩

theorem trans (h : SameGoals s s') (h' : SameGoals s' s'') : SameGoals s s'' :=
  ⟨fun kind ref hkind => (h'.nodes kind ref hkind).trans (h.nodes kind ref hkind),
    fun p c => (h'.parents p c).trans (h.parents p c)⟩

theorem foldl {α : Type*} {f : Store → α → Store} (hf : ∀ s a, SameGoals s (f s a)) (s : Store)
    (l : List α) : SameGoals s (l.foldl f s) := by
  induction l generalizing s with
  | nil => exact refl s
  | cons a l ih => exact (hf s a).trans (ih (f s a))

theorem upsertTask (s : Store) (task : Task) : SameGoals s (s.upsertTask task) where
  nodes := by
    intro kind ref hkind
    unfold Store.upsertTask
    simp only [Store.HasNode, Store.nodes_insertRuntimeGraphEdgeIfNodesExist]
    refine (Store.hasNode_upsertRuntimeGraphNode s).trans ?_
    exact ⟨fun h => h.resolve_left fun hnew => hkind hnew.1, .inr⟩
  parents := by
    intro p c
    refine (Store.mem_insertRuntimeGraphEdgeIfNodesExist _).trans ?_
    exact ⟨fun h => h.resolve_right fun hnew => (nomatch hnew.1), .inl⟩

theorem deleteTaskNode (s : Store) (taskId : String) :
    SameGoals s (s.deleteRuntimeGraphNode (taskRuntimeGraphNodeId taskId)) where
  nodes := by
    intro kind ref hkind
    refine (Store.hasNode_deleteRuntimeGraphNode s .task taskId).trans ?_
    exact and_iff_left fun hsame => hkind hsame.1
  parents := by
    intro p c
    refine (Store.hasParentEdge_deleteRuntimeGraphNode s .task taskId).trans ?_
    exact and_iff_left fun hsame => nomatch hsame.1

theorem readTask (s : Store) (goalId taskId : String) :
    SameGoals s (s.readTask goalId taskId).1 := by
  unfold Store.readTask
  split
  · exact refl s
  · split
    · exact refl s
    · exact upsertTask s _

theorem deleteTask (s : Store) (goalId taskId : String) :
    SameGoals s (s.deleteTask goalId taskId).1 := by
  unfold Store.deleteTask
  split
  · have hnode := deleteTaskNode s taskId
    exact ⟨hnode.nodes, hnode.parents⟩
  · exact refl s

end SameGoals

/-! ## Saving a goal -/

section UpsertGoal

variable (s : Store) (goal : Goal) (archived : Bool)

/-- The nodes of a goal are written first. -/
def upsertGoalNodes : Store :=
  let s := s.upsertRuntimeGraphNode (.goal goal archived)
  if goal.node_type = .milestone then
    (s.upsertRuntimeGraphNode (.milestone goal archived)).insertRuntimeGraphEdgeIfNodesExist
      (.goalMilestone goal.id)
  else s

/-- The edge to a goal is written after the old ones are deleted. -/
def upsertGoalParent : Store :=
  let s := s.deleteGoalParentRuntimeGraphEdges goal.id
  match goal.parent_id with
  | none => s
  | some parentId =>
    if parentId = "" then s
    else s.insertRuntimeGraphEdgeIfNodesExist (.goalParent parentId goal.id)

theorem upsertGoal_eq : s.upsertGoal goal archived =
    { upsertGoalParent (upsertGoalNodes s goal archived) goal with
      goal_records := (upsertGoalParent (upsertGoalNodes s goal archived) goal).goal_records.upsert
        ⟨goal, archived⟩ } := rfl

theorem hasNode_upsertGoalNodes {kind : NodeKind} {ref : String} :
    (upsertGoalNodes s goal archived).HasNode kind ref ↔
      kind = .goal ∧ ref = goal.id ∨
        kind = .milestone ∧ ref = goal.id ∧ goal.node_type = .milestone ∨ s.HasNode kind ref := by
  unfold upsertGoalNodes
  dsimp only
  split
  · next hmilestone =>
    rw [Store.HasNode, Store.nodes_insertRuntimeGraphEdgeIfNodesExist]
    refine (Store.hasNode_upsertRuntimeGraphNode _).trans ?_
    rw [Store.hasNode_upsertRuntimeGraphNode]
    simp only [RuntimeGraphNode.node_kind, RuntimeGraphNode.ref, hmilestone, and_true]
    exact or_left_comm
  · next hmilestone =>
    rw [Store.hasNode_upsertRuntimeGraphNode]
    simp only [RuntimeGraphNode.node_kind, RuntimeGraphNode.ref, hmilestone, and_false, false_or]

theorem hasParentEdge_upsertGoalNodes {p c : String} :
    (upsertGoalNodes s goal archived).HasParentEdge p c ↔ s.HasParentEdge p c := by
  unfold upsertGoalNodes
  dsimp only
  split
  · refine (Store.mem_insertRuntimeGraphEdgeIfNodesExist _).trans ?_
    exact ⟨fun h => h.resolve_right fun hnew => (nomatch hnew.1), .inl⟩
  · exact .rfl

theorem nodes_upsertGoalParent : (upsertGoalParent s goal).nodes = s.nodes := by
  unfold upsertGoalParent
  dsimp only
  split
  · rfl
  · split
    · rfl
    · exact Store.nodes_insertRuntimeGraphEdgeIfNodesExist _ _

theorem hasParentEdge_deleteGoalParentRuntimeGraphEdges {goalId p c : String} :
    (s.deleteGoalParentRuntimeGraphEdges goalId).HasParentEdge p c ↔
      s.HasParentEdge p c ∧ c ≠ goalId := by
  unfold Store.HasParentEdge Store.deleteGoalParentRuntimeGraphEdges
  have hto : goalRuntimeGraphNodeId c = goalRuntimeGraphNodeId goalId ↔ c = goalId :=
    String.append_right_inj _
  simp only [Keyed.mem_rows_deleteWhere, RuntimeGraphEdge.edge_kind, RuntimeGraphEdge.to_node_id,
    decide_true, Bool.true_and, decide_eq_false_iff_not, hto]

/-- The id of the edge from a parent is free once the edges to the goal are deleted. -/
theorem edge_id_free_iff {p goalId : String} :
    (s.deleteGoalParentRuntimeGraphEdges goalId).edges.find
        (RuntimeGraphEdge.goalParent p goalId).edge_id = none ↔
      ∀ p' c, c ≠ goalId → s.HasParentEdge p' c →
        (RuntimeGraphEdge.goalParent p' c).edge_id ≠ (RuntimeGraphEdge.goalParent p goalId).edge_id := by
  rw [Keyed.find_eq_none_iff]
  constructor
  · intro hfree p' c hc hedge
    exact hfree _ ((hasParentEdge_deleteGoalParentRuntimeGraphEdges s).mpr ⟨hedge, hc⟩)
  · intro hfree edge hedge hid
    obtain ⟨p', c, rfl⟩ := RuntimeGraphEdge.eq_goalParent hid
    obtain ⟨hedge, hc⟩ := (hasParentEdge_deleteGoalParentRuntimeGraphEdges s).mp hedge
    exact hfree p' c hc hedge hid

theorem hasParentEdge_upsertGoalParent {p c : String} :
    (upsertGoalParent s goal).HasParentEdge p c ↔
      c ≠ goal.id ∧ s.HasParentEdge p c ∨
        c = goal.id ∧ goal.parent_id = some p ∧ p ≠ "" ∧
          (s.HasNode .goal p ∧ s.HasNode .goal goal.id) ∧
          ∀ p' c', c' ≠ goal.id → s.HasParentEdge p' c' →
            (RuntimeGraphEdge.goalParent p' c').edge_id ≠
              (RuntimeGraphEdge.goalParent p goal.id).edge_id := by
  have hdelete : (s.deleteGoalParentRuntimeGraphEdges goal.id).HasParentEdge p c ↔
      s.HasParentEdge p c ∧ c ≠ goal.id := hasParentEdge_deleteGoalParentRuntimeGraphEdges s
  unfold upsertGoalParent
  dsimp only
  split
  · next hparent =>
    rw [hdelete, and_comm]
    simp [hparent]
  · next parentId hparent =>
    split
    · next hempty =>
      rw [hdelete, and_comm, hparent]
      refine ⟨.inl, fun h => h.resolve_right ?_⟩
      rintro ⟨-, hp, hne, -⟩
      exact hne ((Option.some.inj hp).symm.trans hempty)
    · next hne =>
      refine (Store.mem_insertRuntimeGraphEdgeIfNodesExist _).trans ?_
      refine or_congr (hdelete.trans and_comm) ?_
      rw [hparent]
      constructor
      · rintro ⟨hedge, hfree, hends⟩
        obtain ⟨rfl, rfl⟩ := RuntimeGraphEdge.goalParent.inj hedge
        exact ⟨rfl, rfl, hne, hends, (edge_id_free_iff s).mp hfree⟩
      · rintro ⟨rfl, hp, -, hends, hfree⟩
        obtain rfl := Option.some.inj hp
        exact ⟨rfl, (edge_id_free_iff s).mpr hfree, hends⟩

/-- The nodes after a goal is saved. -/
theorem hasNode_upsertGoal {kind : NodeKind} {ref : String} :
    (s.upsertGoal goal archived).HasNode kind ref ↔
      kind = .goal ∧ ref = goal.id ∨
        kind = .milestone ∧ ref = goal.id ∧ goal.node_type = .milestone ∨ s.HasNode kind ref := by
  rw [upsertGoal_eq, Store.HasNode, nodes_upsertGoalParent]
  exact hasNode_upsertGoalNodes s goal archived

/-- The parent edges after a goal is saved. -/
theorem hasParentEdge_upsertGoal {p c : String} :
    (s.upsertGoal goal archived).HasParentEdge p c ↔
      c ≠ goal.id ∧ s.HasParentEdge p c ∨
        c = goal.id ∧ goal.parent_id = some p ∧ p ≠ "" ∧ (s.HasNode .goal p ∨ p = goal.id) ∧
          ∀ p' c', c' ≠ goal.id → s.HasParentEdge p' c' →
            (RuntimeGraphEdge.goalParent p' c').edge_id ≠
              (RuntimeGraphEdge.goalParent p goal.id).edge_id := by
  have hstored : ((upsertGoalNodes s goal archived).HasNode .goal p ∧
      (upsertGoalNodes s goal archived).HasNode .goal goal.id) ↔ s.HasNode .goal p ∨ p = goal.id := by
    simp [hasNode_upsertGoalNodes, or_comm]
  rw [upsertGoal_eq]
  refine (hasParentEdge_upsertGoalParent (upsertGoalNodes s goal archived) goal).trans ?_
  simp only [hasParentEdge_upsertGoalNodes, hstored]

end UpsertGoal
/-! ## Deleting a goal -/

section DeleteGoal

variable (s : Store) (goalId : String)

theorem sameGoals_readTasksOfGoal : SameGoals s (s.readTasksOfGoal goalId) :=
  SameGoals.foldl (fun s taskId => SameGoals.readTask s goalId taskId) s _

/-- A deletion that finds nothing was of a goal without a node; else the nodes of the goal are
deleted, after calls that keep the goals' part. -/
theorem deleteGoal_cases :
    (s.deleteGoal goalId).1 = s ∧ ¬s.HasNode .goal goalId ∨
      ∃ s', SameGoals s s' ∧
        (s.deleteGoal goalId).1.nodes = ((s'.deleteRuntimeGraphNode
          (nodeId .milestone goalId)).deleteRuntimeGraphNode (nodeId .goal goalId)).nodes ∧
        (s.deleteGoal goalId).1.edges = ((s'.deleteRuntimeGraphNode
          (nodeId .milestone goalId)).deleteRuntimeGraphNode (nodeId .goal goalId)).edges := by
  unfold Store.deleteGoal
  split
  · next hmissing =>
    refine .inl ⟨rfl, ?_⟩
    rw [Store.HasNode, ← Store.readRuntimeGraphNodeByKindRef_eq, Option.not_isSome_iff_eq_none]
    exact Option.isNone_iff_eq_none.mp hmissing.1
  · exact .inr ⟨_, (sameGoals_readTasksOfGoal s goalId).trans (SameGoals.foldl
      (fun s taskId => SameGoals.deleteTaskNode s taskId) _ _), rfl, rfl⟩

/-- The nodes after a goal is deleted. -/
theorem hasNode_deleteGoal (hgoal : s.HasNode .milestone goalId → s.HasNode .goal goalId)
    (kind : NodeKind) {ref : String} (hkind : kind ≠ .task) :
    (s.deleteGoal goalId).1.HasNode kind ref ↔ s.HasNode kind ref ∧ ref ≠ goalId := by
  rcases deleteGoal_cases s goalId with ⟨hsame, hmissing⟩ | ⟨s', hsame, hnodes, -⟩
  · rw [hsame]
    refine (and_iff_left_of_imp ?_).symm
    rintro hnode rfl
    cases kind with
    | goal => exact hmissing hnode
    | milestone => exact hmissing (hgoal hnode)
    | task => exact hkind rfl
  · rw [Store.HasNode, hnodes]
    refine (Store.hasNode_deleteRuntimeGraphNode _ _ _).trans ?_
    rw [Store.hasNode_deleteRuntimeGraphNode, hsame.nodes kind ref hkind]
    cases kind with
    | goal => simp
    | milestone => simp
    | task => exact absurd rfl hkind

/-- The parent edges after a goal is deleted. -/
theorem hasParentEdge_deleteGoal {p c : String}
    (hends : s.HasParentEdge p c → s.HasNode .goal p ∧ s.HasNode .goal c) :
    (s.deleteGoal goalId).1.HasParentEdge p c ↔
      s.HasParentEdge p c ∧ p ≠ goalId ∧ c ≠ goalId := by
  rcases deleteGoal_cases s goalId with ⟨hsame, hmissing⟩ | ⟨s', hsame, -, hedges⟩
  · rw [hsame]
    refine (and_iff_left_of_imp fun hedge => ?_).symm
    constructor
    · rintro rfl
      exact hmissing (hends hedge).1
    · rintro rfl
      exact hmissing (hends hedge).2
  · rw [Store.HasParentEdge, hedges]
    refine (Store.hasParentEdge_deleteRuntimeGraphNode _ _ _).trans ?_
    rw [Store.hasParentEdge_deleteRuntimeGraphNode, hsame.parents]
    simp only [reduceCtorEq, false_and, not_false_eq_true, and_true, true_and, not_or]
    rw [ne_comm, ne_comm (a := c)]

end DeleteGoal

/-! ## What holds on every history -/

/-- The nodes of goals are those of the stored goals, a stored milestone has its node, and no
edge or milestone node is missing its goal. -/
structure Sound (goals : Goals) (s : Store) : Prop where
  named : goals "" = none
  goal_nodes : ∀ id, s.HasNode .goal id ↔ (goals id).isSome
  milestone_nodes : ∀ id, IsMilestone goals id → s.HasNode .milestone id
  milestone_goals : ∀ id, s.HasNode .milestone id → (goals id).isSome
  parent_edges : ∀ p c, s.HasParentEdge p c → IsParent goals p c

theorem sound_start : Sound (fun _ => none) {} where
  named := rfl
  goal_nodes := fun _ => .rfl
  milestone_nodes := fun _ ⟨_, hgoal, _⟩ => nomatch hgoal
  milestone_goals := nofun
  parent_edges := nofun

section SaveGoal

variable {goals : Goals} {s : Store} {goal : Goal} {archived : Bool}

theorem isSome_update {id : String} :
    (Function.update goals goal.id (some goal) id).isSome ↔ id = goal.id ∨ (goals id).isSome := by
  by_cases hid : id = goal.id
  · subst hid
    simp
  · simp [hid]

theorem isMilestone_update {id : String} :
    IsMilestone (Function.update goals goal.id (some goal)) id ↔
      id = goal.id ∧ goal.node_type = .milestone ∨ id ≠ goal.id ∧ IsMilestone goals id := by
  unfold IsMilestone
  by_cases hid : id = goal.id
  · subst hid
    simp
  · simp [hid]

theorem isParent_update {p c : String} :
    IsParent (Function.update goals goal.id (some goal)) p c ↔
      (p = goal.id ∨ (goals p).isSome) ∧ (c = goal.id ∧ goal.parent_id = some p ∨
        c ≠ goal.id ∧ ∃ child, goals c = some child ∧ child.parent_id = some p) := by
  unfold IsParent
  rw [isSome_update]
  refine and_congr_right fun _ => ?_
  by_cases hc : c = goal.id
  · subst hc
    simp
  · simp [hc]

/-- A save keeps the nodes and edges sound. -/
theorem Sound.saveGoal (h : Sound goals s) (hid : goal.id ≠ "") :
    Sound (Function.update goals goal.id (some goal)) (s.upsertGoal goal archived) where
  named := by rw [Function.update_of_ne (Ne.symm hid), h.named]
  goal_nodes := by
    intro id
    simp [hasNode_upsertGoal, isSome_update, h.goal_nodes]
  milestone_nodes := by
    intro id hmilestone
    rw [hasNode_upsertGoal]
    rcases isMilestone_update.mp hmilestone with ⟨rfl, htype⟩ | ⟨-, hold⟩
    · exact .inr (.inl ⟨rfl, rfl, htype⟩)
    · exact .inr (.inr (h.milestone_nodes id hold))
  milestone_goals := by
    intro id hnode
    rw [isSome_update]
    rcases (hasNode_upsertGoal s goal archived).mp hnode with ⟨hkind, -⟩ | ⟨-, rfl, -⟩ | hold
    · exact nomatch hkind
    · exact .inl rfl
    · exact .inr (h.milestone_goals id hold)
  parent_edges := by
    intro p c hedge
    rw [isParent_update]
    rcases (hasParentEdge_upsertGoal s goal archived).mp hedge with
      ⟨hc, hold⟩ | ⟨rfl, hparent, -, hstored, -⟩
    · obtain ⟨hp, hchild⟩ := h.parent_edges p c hold
      exact ⟨.inr hp, .inr ⟨hc, hchild⟩⟩
    · exact ⟨hstored.symm.imp_right (h.goal_nodes p).mp, .inl ⟨rfl, hparent⟩⟩

end SaveGoal

section DeleteGoal

variable {goals : Goals} {goalId : String}

theorem isSome_delete {id : String} :
    (Function.update goals goalId none id).isSome ↔ (goals id).isSome ∧ id ≠ goalId := by
  by_cases hid : id = goalId
  · subst hid
    simp
  · simp [hid]

theorem isMilestone_delete {id : String} :
    IsMilestone (Function.update goals goalId none) id ↔ IsMilestone goals id ∧ id ≠ goalId := by
  unfold IsMilestone
  by_cases hid : id = goalId
  · subst hid
    simp
  · simp [hid]

theorem isParent_delete {p c : String} :
    IsParent (Function.update goals goalId none) p c ↔
      IsParent goals p c ∧ p ≠ goalId ∧ c ≠ goalId := by
  unfold IsParent
  rw [isSome_delete]
  by_cases hc : c = goalId
  · subst hc
    simp
  · simp only [ne_eq, hc, not_false_eq_true, Function.update_of_ne, and_true]
    exact and_right_comm

variable {s : Store} (h : Sound goals s)

include h

theorem Sound.hasNode_deleteGoal (kind : NodeKind) {ref : String} (hkind : kind ≠ .task) :
    (s.deleteGoal goalId).1.HasNode kind ref ↔ s.HasNode kind ref ∧ ref ≠ goalId :=
  GoalTaskState.hasNode_deleteGoal s goalId
    (fun hnode => (h.goal_nodes goalId).mpr (h.milestone_goals goalId hnode)) kind hkind

theorem Sound.hasParentEdge_deleteGoal {p c : String} :
    (s.deleteGoal goalId).1.HasParentEdge p c ↔
      s.HasParentEdge p c ∧ p ≠ goalId ∧ c ≠ goalId := by
  refine GoalTaskState.hasParentEdge_deleteGoal s goalId fun hedge => ?_
  obtain ⟨hp, child, hc, -⟩ := h.parent_edges p c hedge
  exact ⟨(h.goal_nodes p).mpr hp, (h.goal_nodes c).mpr (Option.isSome_of_eq_some hc)⟩

/-- A deletion keeps the nodes and edges sound. -/
theorem Sound.deleteGoal : Sound (Function.update goals goalId none) (s.deleteGoal goalId).1 where
  named := by
    rw [← Option.not_isSome_iff_eq_none, isSome_delete, h.named]
    simp
  goal_nodes := by
    intro id
    rw [h.hasNode_deleteGoal .goal nofun, isSome_delete, h.goal_nodes]
  milestone_nodes := by
    intro id hmilestone
    obtain ⟨hmilestone, hid⟩ := isMilestone_delete.mp hmilestone
    exact (h.hasNode_deleteGoal .milestone nofun).mpr ⟨h.milestone_nodes id hmilestone, hid⟩
  milestone_goals := by
    intro id hnode
    obtain ⟨hnode, hid⟩ := (h.hasNode_deleteGoal .milestone nofun).mp hnode
    exact isSome_delete.mpr ⟨h.milestone_goals id hnode, hid⟩
  parent_edges := by
    intro p c hedge
    obtain ⟨hedge, hp, hc⟩ := h.hasParentEdge_deleteGoal.mp hedge
    exact isParent_delete.mpr ⟨h.parent_edges p c hedge, hp, hc⟩

end DeleteGoal

theorem Sound.same {goals : Goals} {s s' : Store} (h : Sound goals s) (hsame : SameGoals s s') :
    Sound goals s' where
  named := h.named
  goal_nodes := fun id => (hsame.nodes .goal id nofun).trans (h.goal_nodes id)
  milestone_nodes := fun id hmilestone =>
    (hsame.nodes .milestone id nofun).mpr (h.milestone_nodes id hmilestone)
  milestone_goals := fun id hnode => h.milestone_goals id ((hsame.nodes .milestone id nofun).mp hnode)
  parent_edges := fun p c hedge => h.parent_edges p c ((hsame.parents p c).mp hedge)

/-! ## When the graph mirrors the goals -/

theorem linked_iff {s : Store} {p c : String} : Linked s p c ↔ s.HasParentEdge p c := by
  have hgoal (a b : String) : goalRuntimeGraphNodeId a = goalRuntimeGraphNodeId b ↔ a = b :=
    String.append_right_inj _
  have htask (a b : String) : taskRuntimeGraphNodeId a ≠ goalRuntimeGraphNodeId b := fun h =>
    nomatch (nodeId_inj (k := .task) (l := .goal)).mp h
  unfold Linked Store.HasParentEdge
  constructor
  · rintro ⟨edge, hedge, hkind, hfrom, hto⟩
    cases edge with
    | goalMilestone goalId => exact nomatch hkind
    | goalParent p' c' =>
      obtain rfl := (hgoal p' p).mp hfrom
      obtain rfl := (hgoal c' c).mp hto
      exact hedge
    | goalTask goalId taskId => exact absurd hto (htask taskId c)
  · exact fun hedge => ⟨_, hedge, rfl, rfl, rfl⟩

theorem mirrors_start : Mirrors (fun _ => none) {} where
  parents := by
    intro p c
    rw [linked_iff]
    exact iff_of_false nofun fun hparent => nomatch hparent.1
  milestones := fun _ => iff_of_false nofun fun ⟨_, hgoal, _⟩ => nomatch hgoal

section Mirror

variable {goals : Goals} {s s' : Store}

theorem mirrors_same (hsame : SameGoals s s') : Mirrors goals s' ↔ Mirrors goals s := by
  have hlinked (p c : String) : Linked s' p c ↔ Linked s p c := by
    rw [linked_iff, linked_iff, hsame.parents]
  constructor
  · exact fun h => ⟨fun p c => (hlinked p c).symm.trans (h.parents p c),
      fun id => (hsame.nodes .milestone id nofun).symm.trans (h.milestones id)⟩
  · exact fun h => ⟨fun p c => (hlinked p c).trans (h.parents p c),
      fun id => (hsame.nodes .milestone id nofun).trans (h.milestones id)⟩

/-- A deletion is mirrored. -/
theorem Mirrors.deleteGoal (h : Mirrors goals s) (hsound : Sound goals s) (goalId : String) :
    Mirrors (Function.update goals goalId none) (s.deleteGoal goalId).1 where
  parents := by
    intro p c
    rw [linked_iff, hsound.hasParentEdge_deleteGoal, isParent_delete, ← linked_iff, h.parents]
  milestones := by
    intro id
    rw [hsound.hasNode_deleteGoal .milestone nofun, isMilestone_delete, h.milestones]

/-- The edges that a save of a goal misses. -/
theorem parents_saveGoal_iff (h : Mirrors goals s) (hsound : Sound goals s) {goal : Goal}
    {archived : Bool} (hid : goal.id ≠ "") :
    (∀ p c, Linked (s.upsertGoal goal archived) p c ↔
        IsParent (Function.update goals goal.id (some goal)) p c) ↔
      (goals goal.id = none →
        ∀ c child, c ≠ goal.id → goals c = some child → child.parent_id ≠ some goal.id) ∧
      ∀ p, goal.parent_id = some p → (goals p).isSome ∨ p = goal.id →
        ∀ p' c, c ≠ goal.id → IsParent goals p' c →
          (RuntimeGraphEdge.goalParent p' c).edge_id ≠
            (RuntimeGraphEdge.goalParent p goal.id).edge_id := by
  have hedges (p c : String) : s.HasParentEdge p c ↔ IsParent goals p c :=
    linked_iff.symm.trans (h.parents p c)
  have hempty (p : String) (hp : (goals p).isSome ∨ p = goal.id) : p ≠ "" := by
    rintro rfl
    rw [hsound.named] at hp
    exact hid (hp.resolve_left nofun).symm
  simp only [linked_iff, hasParentEdge_upsertGoal, isParent_update, hedges, hsound.goal_nodes]
  constructor
  · intro hall
    constructor
    · intro hnew c child hc hchild hparent
      have hedge := (hall goal.id c).mpr ⟨.inl rfl, .inr ⟨hc, child, hchild, hparent⟩⟩
      rcases hedge with ⟨-, hold⟩ | ⟨hsame, -⟩
      · have hstored := hold.1
        rw [hnew] at hstored
        exact nomatch hstored
      · exact hc hsame
    · intro p hparent hp
      have hedge := (hall p goal.id).mpr ⟨hp.symm, .inl ⟨rfl, hparent⟩⟩
      rcases hedge with ⟨hne, -⟩ | ⟨-, -, -, -, hfree⟩
      · exact absurd rfl hne
      · exact hfree
  · rintro ⟨hfirst, hfree⟩ p c
    constructor
    · rintro (⟨hc, hp, hchild⟩ | ⟨rfl, hparent, -, hp, -⟩)
      · exact ⟨.inr hp, .inr ⟨hc, hchild⟩⟩
      · exact ⟨hp.symm, .inl ⟨rfl, hparent⟩⟩
    · rintro ⟨hp, ⟨rfl, hparent⟩ | ⟨hc, child, hchild, hparent⟩⟩
      · exact .inr ⟨rfl, hparent, hempty p hp.symm, hp.symm, hfree p hparent hp.symm⟩
      · refine .inl ⟨hc, ?_, child, hchild, hparent⟩
        rcases hp with rfl | hp
        · rw [Option.isSome_iff_ne_none]
          exact fun hnew => hfirst hnew c child hc hchild hparent
        · exact hp

/-- The milestone node that a save of a goal leaves. -/
theorem milestones_saveGoal_iff (h : Mirrors goals s) {goal : Goal} {archived : Bool} :
    (∀ id, (s.upsertGoal goal archived).HasNode .milestone id ↔
        IsMilestone (Function.update goals goal.id (some goal)) id) ↔
      (IsMilestone goals goal.id → goal.node_type = .milestone) := by
  simp only [hasNode_upsertGoal, isMilestone_update, h.milestones]
  constructor
  · intro hall hold
    rcases (hall goal.id).mp (.inr (.inr hold)) with ⟨-, htype⟩ | ⟨hne, -⟩
    · exact htype
    · exact absurd rfl hne
  · intro hkept id
    constructor
    · rintro (⟨hkind, -⟩ | ⟨-, rfl, htype⟩ | hold)
      · exact nomatch hkind
      · exact .inl ⟨rfl, htype⟩
      · by_cases hid : id = goal.id
        · subst hid
          exact .inl ⟨rfl, hkept hold⟩
        · exact .inr ⟨hid, hold⟩
    · rintro (⟨rfl, htype⟩ | ⟨-, hold⟩)
      · exact .inr (.inl ⟨trivial, rfl, htype⟩)
      · exact .inr (.inr hold)

theorem mirrors_saveGoal_iff (h : Mirrors goals s) (hsound : Sound goals s) {goal : Goal}
    {archived : Bool} (hid : goal.id ≠ "") :
    Mirrors (Function.update goals goal.id (some goal)) (s.upsertGoal goal archived) ↔
      SavedInOrder goals goal := by
  constructor
  · intro hafter
    obtain ⟨hfirst, hfree⟩ := (parents_saveGoal_iff h hsound hid).mp hafter.parents
    exact ⟨(milestones_saveGoal_iff h).mp hafter.milestones, hfirst, hfree⟩
  · rintro ⟨hmilestone, hfirst, hfree⟩
    exact ⟨(parents_saveGoal_iff h hsound hid).mpr ⟨hfirst, hfree⟩,
      (milestones_saveGoal_iff h).mpr hmilestone⟩

end Mirror

/-! ## Histories -/

/-- One call keeps the graph sound, and mirrors the goals exactly when it is in order. -/
theorem perform_iff {goals : Goals} {s : Store} (hsound : Sound goals s) (op : Op) :
    Sound (save goals op) (perform s op).1 ∧ (Mirrors goals s →
      (Mirrors (save goals op) (perform s op).1 ↔ InOrder goals op)) := by
  have hsame {s' : Store} (h : SameGoals s s') :
      Sound goals s' ∧ (Mirrors goals s → (Mirrors goals s' ↔ True)) :=
    ⟨hsound.same h, fun hmirrors => iff_true_intro ((mirrors_same h).mpr hmirrors)⟩
  have hsave (goal : Goal) (archived : Bool) (hid : goal.id ≠ "") :
      Sound (Function.update goals goal.id (some goal)) (s.upsertGoal goal archived) ∧
        (Mirrors goals s → (Mirrors (Function.update goals goal.id (some goal))
          (s.upsertGoal goal archived) ↔ (goal.id ≠ "" → SavedInOrder goals goal))) :=
    ⟨hsound.saveGoal hid, fun hmirrors => (mirrors_saveGoal_iff hmirrors hsound hid).trans
      ⟨fun h _ => h, fun h => h hid⟩⟩
  have hrefused (goal : Goal) (hid : goal.id = "") :
      Sound goals s ∧ (Mirrors goals s →
        (Mirrors goals s ↔ (goal.id ≠ "" → SavedInOrder goals goal))) :=
    ⟨hsound, fun hmirrors => iff_of_true hmirrors fun hne => absurd hid hne⟩
  cases op with
  | saveGoal goal =>
    simp only [save, perform, InOrder]
    by_cases hid : goal.id = ""
    · simp only [if_pos hid]
      exact hrefused goal hid
    · simp only [if_neg hid]
      exact hsave goal false hid
  | saveArchivedGoal goal =>
    simp only [save, perform, InOrder]
    by_cases hid : goal.id = ""
    · simp only [if_pos hid]
      exact hrefused (archive goal) hid
    · simp only [if_neg hid]
      exact hsave (archive goal) true hid
  | deleteGoal goalId =>
    exact ⟨hsound.deleteGoal, fun hmirrors => iff_true_intro (hmirrors.deleteGoal hsound goalId)⟩
  | saveTask task =>
    simp only [perform]
    split
    · exact hsame (.refl s)
    · exact hsame (.upsertTask s task)
  | loadTask goalId taskId => exact hsame (.readTask s goalId taskId)
  | listTasks goalId => exact hsame (.foldl SameGoals.upsertTask s _)
  | listTasksByStatus status => exact hsame (.foldl SameGoals.upsertTask s _)
  | deleteTask goalId taskId => exact hsame (.deleteTask s goalId taskId)

/-- **The graph is sound on every history.** -/
theorem sound_storeAfter (ops : List Op) : Sound (lastSaved ops) (storeAfter ops) := by
  induction ops using List.reverseRecOn with
  | nil => exact sound_start
  | append_singleton ops op ih =>
    rw [lastSaved_concat, storeAfter_concat]
    exact (perform_iff ih op).1

/-- **The graph mirrors the goals** at every point of a history exactly when every save of it
is one that the graph follows. -/
theorem mirrors_iff (ops : List Op) :
    (∀ before after, ops = before ++ after → Mirrors (lastSaved before) (storeAfter before)) ↔
      ∀ before op after, ops = before ++ op :: after → InOrder (lastSaved before) op := by
  refine everywhere_iff (P := fun ops => Mirrors (lastSaved ops) (storeAfter ops))
    (C := fun before op => InOrder (lastSaved before) op) mirrors_start ?_ ops
  intro before op hmirrors
  rw [lastSaved_concat, storeAfter_concat]
  exact (perform_iff (sound_storeAfter before) op).2 hmirrors

/-! A child that is saved before its parent. -/

def childFirst : List Op :=
  [.saveGoal { id := "c", parent_id := some "p" }, .saveGoal { id := "p" }]

theorem childFirst_not_mirrored : ¬Mirrors (lastSaved childFirst) (storeAfter childFirst) := by
  intro h
  have hparent : IsParent (lastSaved childFirst) "p" "c" := ⟨rfl, _, rfl, rfl⟩
  have hedge := linked_iff.mp ((h.parents "p" "c").mpr hparent)
  have hstore : storeAfter childFirst =
      (Store.upsertGoal {} { id := "c", parent_id := some "p" } false).upsertGoal { id := "p" }
        false := rfl
  rw [hstore, hasParentEdge_upsertGoal, hasParentEdge_upsertGoal] at hedge
  have hmissing : ¬Store.HasNode {} .goal "p" := nofun
  simp [hmissing] at hedge

end PulSeed.GoalTaskState
