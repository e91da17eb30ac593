import Mathlib.Data.List.Sort
import Mathlib.Data.Prod.Lex
import Mathlib.Data.String.Basic
import PulSeed.Goals.StateAggregator
import PulSeed.Lib.History
import PulSeed.Lib.Keyed

/-!
# Goals and tasks in the control database (`runtime/store/goal-task-state-store.ts`)

Goals and tasks are stored twice: in the tables `goal_records` and `task_records`, and in
the runtime graph, as nodes with edges between them. The node of a task is named by its id
alone, its row by the ids of its goal and the task. Reading a task writes it to the graph
when it is only in the table.

The graph schema refuses empty refs, so that saving a goal or a task with an empty id
throws, and its transaction leaves everything as it was. Every call here is one step; the
events that it records, the times of the rows and the order of the answers are left out, as
are the tables that only `deleteGoal` clears.
-/

namespace PulSeed.GoalTaskState

open TreeLoop (Goal)

/-- `TaskStatusEnum`. -/
inductive TaskStatus
  | pending | running | completed | timed_out | cancelled | blocked | error
  deriving DecidableEq

/-- A task. `updated_at` is `completed_at ?? started_at ?? created_at`, as its row has it, and
`rest` stands for the fields that the store does not look at. -/
structure Task where
  id : String
  goal_id : String
  status : TaskStatus
  updated_at : String := ""
  rest : String := ""
  deriving DecidableEq

/-! ## The runtime graph -/

def goalRuntimeGraphNodeId (goalId : String) : String := "runtime-graph:goal:" ++ goalId

def milestoneRuntimeGraphNodeId (goalId : String) : String := "runtime-graph:milestone:" ++ goalId

def taskRuntimeGraphNodeId (taskId : String) : String := "runtime-graph:task:" ++ taskId

inductive NodeKind
  | goal | milestone | task
  deriving DecidableEq

/-- A node that this store builds, with what its payload holds. -/
inductive RuntimeGraphNode
  | goal (goal : Goal) (archived : Bool)
  | milestone (milestone : Goal) (archived : Bool)
  | task (task : Task)
  deriving DecidableEq

namespace RuntimeGraphNode

def node_id : RuntimeGraphNode → String
  | .goal g _ => goalRuntimeGraphNodeId g.id
  | .milestone m _ => milestoneRuntimeGraphNodeId m.id
  | .task t => taskRuntimeGraphNodeId t.id

def node_kind : RuntimeGraphNode → NodeKind
  | .goal _ _ => .goal
  | .milestone _ _ => .milestone
  | .task _ => .task

/-- The column `ref`. -/
def ref : RuntimeGraphNode → String
  | .goal g _ => g.id
  | .milestone m _ => m.id
  | .task t => t.id

end RuntimeGraphNode

inductive EdgeKind
  | produced | parent_of
  deriving DecidableEq

/-- An edge that this store builds. -/
inductive RuntimeGraphEdge
  | goalMilestone (goalId : String)
  | goalParent (parentId goalId : String)
  | goalTask (goalId taskId : String)
  deriving DecidableEq

namespace RuntimeGraphEdge

def edge_id : RuntimeGraphEdge → String
  | .goalMilestone goalId => "runtime-graph:edge:goal-milestone:" ++ goalId
  | .goalParent parentId goalId => "runtime-graph:edge:goal-parent:" ++ parentId ++ ":" ++ goalId
  | .goalTask goalId taskId => "runtime-graph:edge:goal-task:" ++ goalId ++ ":" ++ taskId

def edge_kind : RuntimeGraphEdge → EdgeKind
  | .goalMilestone _ => .produced
  | .goalParent _ _ | .goalTask _ _ => .parent_of

def from_node_id : RuntimeGraphEdge → String
  | .goalMilestone goalId => goalRuntimeGraphNodeId goalId
  | .goalParent parentId _ => goalRuntimeGraphNodeId parentId
  | .goalTask goalId _ => goalRuntimeGraphNodeId goalId

def to_node_id : RuntimeGraphEdge → String
  | .goalMilestone goalId => milestoneRuntimeGraphNodeId goalId
  | .goalParent _ goalId => goalRuntimeGraphNodeId goalId
  | .goalTask _ taskId => taskRuntimeGraphNodeId taskId

end RuntimeGraphEdge

/-! ## The store -/

/-- A row of `goal_records`. -/
structure GoalRecord where
  goal : Goal
  archived : Bool

/-- The tables. -/
structure Store where
  nodes : Keyed RuntimeGraphNode.node_id := .empty
  edges : Keyed RuntimeGraphEdge.edge_id := .empty
  goal_records : Keyed fun record : GoalRecord => record.goal.id := .empty
  task_records : Keyed fun task : Task => (task.goal_id, task.id) := .empty

namespace Store

variable (s : Store)

/-- `upsertRuntimeGraphNode`. -/
def upsertRuntimeGraphNode (node : RuntimeGraphNode) : Store :=
  { s with nodes := s.nodes.upsert node }

/-- `insertRuntimeGraphEdgeIfNodesExist`: an edge whose id is taken is not inserted. -/
def insertRuntimeGraphEdgeIfNodesExist (edge : RuntimeGraphEdge) : Store :=
  if (s.nodes.find edge.from_node_id).isSome ∧ (s.nodes.find edge.to_node_id).isSome then
    { s with edges := s.edges.insertNew edge }
  else s

/-- A node is deleted, and with it its edges (`ON DELETE CASCADE`). -/
def deleteRuntimeGraphNode (nodeId : String) : Store :=
  { s with
    nodes := s.nodes.deleteWhere fun node => node.node_id = nodeId
    edges := s.edges.deleteWhere fun edge =>
      edge.from_node_id = nodeId || edge.to_node_id = nodeId }

/-- `readRuntimeGraphNodeByKindRef`. -/
def readRuntimeGraphNodeByKindRef (nodeKind : NodeKind) (ref : String) :
    Option RuntimeGraphNode :=
  s.nodes.rows.find? fun node => node.node_kind = nodeKind && node.ref = ref

/-! ### Goals -/

/-- `deleteGoalParentRuntimeGraphEdges`. -/
def deleteGoalParentRuntimeGraphEdges (goalId : String) : Store :=
  { s with edges := s.edges.deleteWhere fun edge =>
      edge.edge_kind = .parent_of && edge.to_node_id = goalRuntimeGraphNodeId goalId }

/-- `upsertGoal`, of a goal whose id is not empty. -/
def upsertGoal (goal : Goal) (archived : Bool) : Store :=
  let s := s.upsertRuntimeGraphNode (.goal goal archived)
  let s :=
    if goal.node_type = .milestone then
      (s.upsertRuntimeGraphNode (.milestone goal archived)).insertRuntimeGraphEdgeIfNodesExist
        (.goalMilestone goal.id)
    else s
  let s := s.deleteGoalParentRuntimeGraphEdges goal.id
  let s :=
    match goal.parent_id with
    | none => s
    | some parentId =>
      if parentId = "" then s
      else s.insertRuntimeGraphEdgeIfNodesExist (.goalParent parentId goal.id)
  { s with goal_records := s.goal_records.upsert ⟨goal, archived⟩ }

/-! ### Tasks -/

/-- `upsertTask`, of a task whose ids are not empty. -/
def upsertTask (task : Task) : Store :=
  let s := s.upsertRuntimeGraphNode (.task task)
  let s := s.insertRuntimeGraphEdgeIfNodesExist (.goalTask task.goal_id task.id)
  { s with task_records := s.task_records.upsert task }

/-- `readTaskFromRuntimeGraph`. -/
def readTaskFromRuntimeGraph (goalId taskId : String) : Option Task :=
  match s.readRuntimeGraphNodeByKindRef .task taskId with
  | some (.task task) => if task.goal_id = goalId then some task else none
  | _ => none

/-- The tasks of the graph. -/
def graphTasks : List Task :=
  s.nodes.rows.filterMap fun
    | .task task => some task
    | _ => none

/-- `listTasksFromRuntimeGraph`, of a goal. An empty goal id counts as a missing one: it is
compared with the status. -/
def listTasksOfGoal (goalId : String) : List Task :=
  if goalId = "" then [] else s.graphTasks.filter (·.goal_id = goalId)

/-- `listTasksFromRuntimeGraph`, of a status. -/
def listTasksOfStatus (status : TaskStatus) : List Task :=
  s.graphTasks.filter (·.status = status)

/-- `readTask`: a task that is only in the table is written to the graph. -/
def readTask (goalId taskId : String) : Store × Option Task :=
  match s.readTaskFromRuntimeGraph goalId taskId with
  | some task => (s, some task)
  | none =>
    match s.task_records.find (goalId, taskId) with
    | none => (s, none)
    | some task =>
      let s := s.upsertTask task
      (s, some ((s.readTaskFromRuntimeGraph goalId taskId).getD task))

/-- `listTasks`: the tasks of the goal are written to the graph and read there. -/
def listTasks (goalId : String) : Store × List Task :=
  let rows := s.task_records.rows.filter (·.goal_id = goalId)
  let s := rows.foldl upsertTask s
  (s, s.listTasksOfGoal goalId)

/-- `ORDER BY updated_at ASC, goal_id ASC, task_id ASC`. -/
def inRowOrder (tasks : List Task) : List Task :=
  tasks.insertionSort fun a b =>
    toLex (a.updated_at, toLex (a.goal_id, a.id)) ≤ toLex (b.updated_at, toLex (b.goal_id, b.id))

/-- `listTasksByStatus`: the tasks of the status are written to the graph and read there. -/
def listTasksByStatus (status : TaskStatus) : Store × List Task :=
  let rows := inRowOrder (s.task_records.rows.filter (·.status = status))
  let s := rows.foldl upsertTask s
  (s, s.listTasksOfStatus status)

/-- `deleteTask`. -/
def deleteTask (goalId taskId : String) : Store × Bool :=
  if (s.readTaskFromRuntimeGraph goalId taskId).isSome ∨
      (s.task_records.find (goalId, taskId)).isSome then
    let s := s.deleteRuntimeGraphNode (taskRuntimeGraphNodeId taskId)
    ({ s with task_records := s.task_records.deleteWhere fun task =>
        task.goal_id = goalId && task.id = taskId }, true)
  else (s, false)

/-- The ids of the tasks of a goal, in the graph and in the table. -/
def taskIdsOfGoal (goalId : String) : List String :=
  (s.listTasksOfGoal goalId).map (·.id) ++
    (s.task_records.rows.filter (·.goal_id = goalId)).map (·.id)

/-- `readGoalDeletionSnapshot` reads the tasks of the goal, and so may write them to the
graph. -/
def readTasksOfGoal (goalId : String) : Store :=
  (s.taskIdsOfGoal goalId).foldl (fun s taskId => (s.readTask goalId taskId).1) s

/-- `deleteGoal`. -/
def deleteGoal (goalId : String) : Store × Bool :=
  if (s.readRuntimeGraphNodeByKindRef .goal goalId).isNone ∧
      (s.goal_records.find goalId).isNone ∧ s.taskIdsOfGoal goalId = [] then (s, false)
  else
    let s := s.readTasksOfGoal goalId
    let taskIds := s.taskIdsOfGoal goalId
    let s := taskIds.foldl (fun s taskId => s.deleteRuntimeGraphNode (taskRuntimeGraphNodeId taskId)) s
    let s := s.deleteRuntimeGraphNode (milestoneRuntimeGraphNodeId goalId)
    let s := s.deleteRuntimeGraphNode (goalRuntimeGraphNodeId goalId)
    ({ s with
      goal_records := s.goal_records.deleteWhere fun record => record.goal.id = goalId
      task_records := s.task_records.deleteWhere fun task => task.goal_id = goalId }, true)

end Store

/-! ## Calls -/

inductive Op
  | saveGoal (goal : Goal)
  | saveArchivedGoal (goal : Goal)
  | deleteGoal (goalId : String)
  | saveTask (task : Task)
  | loadTask (goalId taskId : String)
  | listTasks (goalId : String)
  | listTasksByStatus (status : TaskStatus)
  | deleteTask (goalId taskId : String)

inductive Answer
  | saved
  | threw
  | deleted (existed : Bool)
  | task (task : Option Task)
  | tasks (tasks : List Task)

/-- The goal that `saveArchivedGoal` saves. -/
def archive (goal : Goal) : Goal := { goal with status := .archived }

/-- One call. -/
def perform (s : Store) : Op → Store × Answer
  | .saveGoal goal =>
    if goal.id = "" then (s, .threw) else (s.upsertGoal goal false, .saved)
  | .saveArchivedGoal goal =>
    if goal.id = "" then (s, .threw) else (s.upsertGoal (archive goal) true, .saved)
  | .deleteGoal goalId =>
    let (s, existed) := s.deleteGoal goalId
    (s, .deleted existed)
  | .saveTask task =>
    if task.id = "" ∨ task.goal_id = "" then (s, .threw) else (s.upsertTask task, .saved)
  | .loadTask goalId taskId =>
    let (s, task) := s.readTask goalId taskId
    (s, .task task)
  | .listTasks goalId =>
    let (s, tasks) := s.listTasks goalId
    (s, .tasks tasks)
  | .listTasksByStatus status =>
    let (s, tasks) := s.listTasksByStatus status
    (s, .tasks tasks)
  | .deleteTask goalId taskId =>
    let (s, existed) := s.deleteTask goalId taskId
    (s, .deleted existed)

/-- The store after some calls. -/
def storeAfter (ops : List Op) : Store := (LTS.exec perform {} ops).2

theorem storeAfter_concat (ops : List Op) (op : Op) :
    storeAfter (ops ++ [op]) = (perform (storeAfter ops) op).1 := by
  unfold storeAfter
  rw [LTS.exec_append]
  rfl

/-! ## Ids

Two ids with different prefixes differ at one character of these. -/

theorem append_ne_append {p q a b : String} {i : ℕ} {c d : Char} (hp : p.toList[i]? = some c)
    (hq : q.toList[i]? = some d) (hcd : c ≠ d) : p ++ a ≠ q ++ b := by
  intro h
  have hi := congrArg (fun s : String => s.toList[i]?) h
  have hpi := (List.getElem?_eq_some_iff.mp hp).1
  have hqi := (List.getElem?_eq_some_iff.mp hq).1
  simp only [String.toList_append, List.getElem?_append_left hpi, List.getElem?_append_left hqi,
    hp, hq] at hi
  exact hcd (Option.some.inj hi)

/-- The node id of a goal, a milestone or a task. -/
def nodeId : NodeKind → String → String
  | .goal => goalRuntimeGraphNodeId
  | .milestone => milestoneRuntimeGraphNodeId
  | .task => taskRuntimeGraphNodeId

theorem RuntimeGraphNode.node_id_eq (node : RuntimeGraphNode) :
    node.node_id = nodeId node.node_kind node.ref := by
  cases node <;> rfl

@[simp] theorem nodeId_inj {k l : NodeKind} {a b : String} :
    nodeId k a = nodeId l b ↔ k = l ∧ a = b := by
  have hgoalMilestone (a b : String) : goalRuntimeGraphNodeId a ≠ milestoneRuntimeGraphNodeId b :=
    append_ne_append (i := 14) (c := 'g') (d := 'm') (by decide) (by decide) (by decide)
  have hgoalTask (a b : String) : goalRuntimeGraphNodeId a ≠ taskRuntimeGraphNodeId b :=
    append_ne_append (i := 14) (c := 'g') (d := 't') (by decide) (by decide) (by decide)
  have hmilestoneTask (a b : String) :
      milestoneRuntimeGraphNodeId a ≠ taskRuntimeGraphNodeId b :=
    append_ne_append (i := 14) (c := 'm') (d := 't') (by decide) (by decide) (by decide)
  cases k <;> cases l
  case goal.goal | milestone.milestone | task.task =>
    exact (String.append_right_inj _).trans (and_iff_right rfl).symm
  case goal.milestone => exact iff_of_false (hgoalMilestone a b) nofun
  case goal.task => exact iff_of_false (hgoalTask a b) nofun
  case milestone.goal => exact iff_of_false (hgoalMilestone b a).symm nofun
  case milestone.task => exact iff_of_false (hmilestoneTask a b) nofun
  case task.goal => exact iff_of_false (hgoalTask b a).symm nofun
  case task.milestone => exact iff_of_false (hmilestoneTask b a).symm nofun

/-- An edge with the id of an edge from a parent is one. -/
theorem RuntimeGraphEdge.eq_goalParent {edge : RuntimeGraphEdge} {parentId goalId : String}
    (h : edge.edge_id = (goalParent parentId goalId).edge_id) :
    ∃ p c, edge = goalParent p c := by
  cases edge with
  | goalParent p c => exact ⟨p, c, rfl⟩
  | goalMilestone goalId =>
    unfold edge_id at h
    simp only [String.append_assoc] at h
    exact absurd h
      (append_ne_append (i := 24) (c := 'm') (d := 'p') (by decide) (by decide) (by decide))
  | goalTask goalId taskId =>
    unfold edge_id at h
    simp only [String.append_assoc] at h
    exact absurd h
      (append_ne_append (i := 24) (c := 't') (d := 'p') (by decide) (by decide) (by decide))

/-! ## What the graph holds -/

namespace Store

variable (s : Store)

/-- There is a node of the kind with the ref. -/
def HasNode (kind : NodeKind) (ref : String) : Prop := (s.nodes.find (nodeId kind ref)).isSome

theorem hasNode_iff {kind : NodeKind} {ref : String} :
    s.HasNode kind ref ↔ ∃ node ∈ s.nodes.rows, node.node_kind = kind ∧ node.ref = ref := by
  unfold HasNode
  rw [Option.isSome_iff_exists]
  constructor
  · rintro ⟨node, hnode⟩
    have hid := Keyed.key_of_find hnode
    rw [node.node_id_eq, nodeId_inj] at hid
    exact ⟨node, Keyed.mem_rows_of_find hnode, hid⟩
  · rintro ⟨node, hnode, rfl, rfl⟩
    refine ⟨node, ?_⟩
    rw [← node.node_id_eq]
    exact Keyed.mem_rows_iff.mp hnode

/-- A read by kind and ref finds the node with their id. -/
theorem readRuntimeGraphNodeByKindRef_eq (kind : NodeKind) (ref : String) :
    s.readRuntimeGraphNodeByKindRef kind ref = s.nodes.find (nodeId kind ref) := by
  unfold readRuntimeGraphNodeByKindRef
  cases hread : s.nodes.rows.find? fun node => node.node_kind = kind && node.ref = ref with
  | some node =>
    have hnode := Keyed.mem_rows_iff.mp (List.mem_of_find?_eq_some hread)
    have hmatch := List.find?_some hread
    simp only [Bool.and_eq_true, decide_eq_true_eq] at hmatch
    obtain ⟨rfl, rfl⟩ := hmatch
    rw [← node.node_id_eq]
    exact hnode.symm
  | none =>
    rw [List.find?_eq_none] at hread
    symm
    rw [Keyed.find_eq_none_iff]
    intro node hnode hid
    rw [node.node_id_eq, nodeId_inj] at hid
    exact hread node hnode (by simp [hid])

@[simp] theorem hasNode_upsertRuntimeGraphNode {node : RuntimeGraphNode} {kind : NodeKind}
    {ref : String} : (s.upsertRuntimeGraphNode node).HasNode kind ref ↔
      kind = node.node_kind ∧ ref = node.ref ∨ s.HasNode kind ref := by
  unfold HasNode upsertRuntimeGraphNode
  rw [Keyed.find_upsert, node.node_id_eq]
  by_cases hid : nodeId kind ref = nodeId node.node_kind node.ref
  · rw [if_pos hid]
    exact iff_of_true rfl (.inl (nodeId_inj.mp hid))
  · rw [if_neg hid]
    exact ⟨.inr, fun h => h.resolve_left fun hsame => hid (nodeId_inj.mpr hsame)⟩

/-- An edge is inserted when its ends are there and its id is free. -/
theorem mem_insertRuntimeGraphEdgeIfNodesExist {edge e : RuntimeGraphEdge} :
    e ∈ (s.insertRuntimeGraphEdgeIfNodesExist edge).edges.rows ↔ e ∈ s.edges.rows ∨
      e = edge ∧ s.edges.find edge.edge_id = none ∧
        (s.nodes.find edge.from_node_id).isSome ∧ (s.nodes.find edge.to_node_id).isSome := by
  unfold insertRuntimeGraphEdgeIfNodesExist
  split
  · next hends =>
    rw [Keyed.mem_rows_insertNew]
    exact or_congr_right (and_congr_right' (and_iff_left hends).symm)
  · next hends =>
    exact ⟨.inl, fun h => h.resolve_right fun hnew => hends hnew.2.2⟩

@[simp] theorem nodes_insertRuntimeGraphEdgeIfNodesExist (edge : RuntimeGraphEdge) :
    (s.insertRuntimeGraphEdgeIfNodesExist edge).nodes = s.nodes := by
  unfold insertRuntimeGraphEdgeIfNodesExist
  split <;> rfl

theorem hasNode_deleteRuntimeGraphNode (k : NodeKind) (r : String) {kind : NodeKind}
    {ref : String} : (s.deleteRuntimeGraphNode (nodeId k r)).HasNode kind ref ↔
      s.HasNode kind ref ∧ ¬(kind = k ∧ ref = r) := by
  simp only [hasNode_iff, deleteRuntimeGraphNode, Keyed.mem_rows_deleteWhere,
    RuntimeGraphNode.node_id_eq, nodeId_inj, decide_eq_false_iff_not]
  constructor
  · rintro ⟨node, ⟨hnode, hkept⟩, rfl, rfl⟩
    exact ⟨⟨node, hnode, rfl, rfl⟩, hkept⟩
  · rintro ⟨⟨node, hnode, rfl, rfl⟩, hkept⟩
    exact ⟨node, ⟨hnode, hkept⟩, rfl, rfl⟩

/-- The edge from a parent to its child. -/
def HasParentEdge (parentId goalId : String) : Prop :=
  RuntimeGraphEdge.goalParent parentId goalId ∈ s.edges.rows

theorem hasParentEdge_deleteRuntimeGraphNode (k : NodeKind) (r : String) {p c : String} :
    (s.deleteRuntimeGraphNode (nodeId k r)).HasParentEdge p c ↔
      s.HasParentEdge p c ∧ ¬(k = .goal ∧ (r = p ∨ r = c)) := by
  have hp : goalRuntimeGraphNodeId p = nodeId k r ↔ k = .goal ∧ r = p :=
    eq_comm.trans (nodeId_inj (l := .goal))
  have hc : goalRuntimeGraphNodeId c = nodeId k r ↔ k = .goal ∧ r = c :=
    eq_comm.trans (nodeId_inj (l := .goal))
  unfold HasParentEdge deleteRuntimeGraphNode
  simp only [Keyed.mem_rows_deleteWhere, RuntimeGraphEdge.from_node_id,
    RuntimeGraphEdge.to_node_id, Bool.or_eq_false_iff, decide_eq_false_iff_not, hp, hc]
  tauto

end Store

end PulSeed.GoalTaskState
