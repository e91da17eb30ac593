import PulSeed.Store.GoalGraph

/-!
# The tasks as a map (`runtime/store/goal-task-state-store.ts`)

The task store should be a map from the ids of a goal and a task to the task (`Tasks`): a
read gives what was last saved and not deleted since.

What the graph shows of the tasks is part of the table (`Stored`), which every call keeps: a
task that another goal's task with its id replaces in the graph is still in the table, and
reading it writes it back. So `loadTask` and `listTasks` answer as the map does.
`listTasksByStatus` writes back the tasks of all goals and then reads the graph, where of two
tasks with one id only the last is left. **It answers as the map does exactly when no two
goals have tasks with one id and that status** (`answered_iff`).
-/

namespace PulSeed.GoalTaskState

/-! ## The map -/

/-- The tasks, by the ids of goal and task. -/
abbrev Tasks := String × String → Option Task

/-- What a call saves or deletes. -/
def saveTasks (tasks : Tasks) : Op → Tasks
  | .saveTask task =>
    if task.id = "" ∨ task.goal_id = "" then tasks
    else Function.update tasks (task.goal_id, task.id) (some task)
  | .deleteTask goalId taskId => Function.update tasks (goalId, taskId) none
  | .deleteGoal goalId => fun key => if key.1 = goalId then none else tasks key
  | .saveGoal _ | .saveArchivedGoal _ | .loadTask _ _ | .listTasks _ | .listTasksByStatus _ => tasks

/-- The tasks as last saved by some calls. -/
def tasksAfter (ops : List Op) : Tasks := ops.foldl saveTasks fun _ => none

theorem tasksAfter_concat (ops : List Op) (op : Op) :
    tasksAfter (ops ++ [op]) = saveTasks (tasksAfter ops) op :=
  List.foldl_concat saveTasks _ op ops

/-- A task is in the map. -/
def Has (tasks : Tasks) (task : Task) : Prop := tasks (task.goal_id, task.id) = some task

instance (tasks : Tasks) (task : Task) : Decidable (Has tasks task) :=
  inferInstanceAs (Decidable (_ = _))

/-- The answer lists, once each, the tasks of the map with the property. -/
def Lists (tasks : Tasks) (p : Task → Prop) (answer : Answer) : Prop :=
  ∃ list, answer = .tasks list ∧ list.Nodup ∧ ∀ task, task ∈ list ↔ Has tasks task ∧ p task

/-- The call is answered as by the map. -/
def Answered (tasks : Tasks) (op : Op) (answer : Answer) : Prop :=
  match op with
  | .loadTask goalId taskId => answer = .task (tasks (goalId, taskId))
  | .listTasks goalId => Lists tasks (·.goal_id = goalId) answer
  | .listTasksByStatus status => Lists tasks (·.status = status) answer
  | .deleteTask goalId taskId => answer = .deleted (tasks (goalId, taskId)).isSome
  | .saveGoal _ | .saveArchivedGoal _ | .deleteGoal _ | .saveTask _ => True

/-- When the tasks of a status are listed, no two goals have one with the same id. -/
def NoSharedId (tasks : Tasks) : Op → Prop
  | .listTasksByStatus status => ∀ a b, Has tasks a → Has tasks b → a.status = status →
      b.status = status → a.id = b.id → a.goal_id = b.goal_id
  | .saveGoal _ | .saveArchivedGoal _ | .deleteGoal _ | .saveTask _ | .loadTask _ _
  | .listTasks _ | .deleteTask _ _ => True

/-! ## The table and the graph -/

/-- The graph shows a task. -/
def Shown (s : Store) (task : Task) : Prop := RuntimeGraphNode.task task ∈ s.nodes.rows

/-- The table holds the map, and what the graph shows is in it. -/
structure Stored (tasks : Tasks) (s : Store) : Prop where
  table : ∀ key, s.task_records.find key = tasks key
  shown : ∀ task, Shown s task → Has tasks task
  named : ∀ task, Has tasks task → task.goal_id ≠ ""

section Shown

variable {s : Store} {task t : Task}

theorem mem_graphTasks : task ∈ s.graphTasks ↔ Shown s task := by
  unfold Store.graphTasks Shown
  rw [List.mem_filterMap]
  constructor
  · rintro ⟨node, hnode, htask⟩
    cases node with
    | goal _ _ => exact nomatch htask
    | milestone _ _ => exact nomatch htask
    | task _ =>
      cases htask
      exact hnode
  · exact fun h => ⟨_, h, rfl⟩

theorem nodup_graphTasks (s : Store) : s.graphTasks.Nodup := by
  refine List.Nodup.filterMap ?_ s.nodes.nodup_rows
  intro a b task ha hb
  cases a <;> cases ha
  cases b <;> cases hb
  rfl

theorem shown_iff_find : Shown s task ↔
    s.nodes.find (nodeId .task task.id) = some (.task task) :=
  Keyed.mem_rows_iff

/-- The graph shows one task with an id. -/
theorem Shown.unique (h : Shown s task) (ht : Shown s t) (hid : task.id = t.id) : task = t := by
  rw [shown_iff_find] at h ht
  rw [hid, ht] at h
  exact (RuntimeGraphNode.task.inj (Option.some.inj h)).symm

theorem shown_upsertTask : Shown (s.upsertTask task) t ↔ t = task ∨ Shown s t ∧ t.id ≠ task.id := by
  have hid : (RuntimeGraphNode.task t).node_id ≠ (RuntimeGraphNode.task task).node_id ↔
      t.id ≠ task.id := (String.append_right_inj _).not
  unfold Shown Store.upsertTask
  simp only [Store.nodes_insertRuntimeGraphEdgeIfNodesExist, Store.upsertRuntimeGraphNode]
  rw [Keyed.mem_rows_upsert, hid, RuntimeGraphNode.task.injEq]

theorem task_records_insertRuntimeGraphEdgeIfNodesExist (s : Store) (edge : RuntimeGraphEdge) :
    (s.insertRuntimeGraphEdgeIfNodesExist edge).task_records = s.task_records := by
  unfold Store.insertRuntimeGraphEdgeIfNodesExist
  split <;> rfl

theorem task_records_upsertTask :
    (s.upsertTask task).task_records = s.task_records.upsert task := by
  unfold Store.upsertTask
  dsimp only
  rw [task_records_insertRuntimeGraphEdgeIfNodesExist]
  rfl

theorem shown_deleteRuntimeGraphNode (k : NodeKind) (r : String) :
    Shown (s.deleteRuntimeGraphNode (nodeId k r)) t ↔ Shown s t ∧ ¬(k = .task ∧ r = t.id) := by
  have hid : taskRuntimeGraphNodeId t.id = nodeId k r ↔ k = .task ∧ r = t.id :=
    eq_comm.trans (nodeId_inj (l := .task))
  unfold Shown Store.deleteRuntimeGraphNode
  simp only [Keyed.mem_rows_deleteWhere, RuntimeGraphNode.node_id, decide_eq_false_iff_not, hid]

theorem readTaskFromRuntimeGraph_iff {goalId taskId : String} :
    s.readTaskFromRuntimeGraph goalId taskId = some t ↔
      Shown s t ∧ t.goal_id = goalId ∧ t.id = taskId := by
  unfold Store.readTaskFromRuntimeGraph
  rw [Store.readRuntimeGraphNodeByKindRef_eq]
  constructor
  · intro h
    split at h
    · next task hfind =>
      have hid := Keyed.key_of_find hfind
      have hid : task.id = taskId := (nodeId_inj (k := .task) (l := .task)).mp hid |>.2
      split at h
      · next hgoal =>
        cases h
        subst hid
        exact ⟨shown_iff_find.mpr hfind, hgoal, rfl⟩
      · exact nomatch h
    · exact nomatch h
  · rintro ⟨hshown, rfl, rfl⟩
    rw [shown_iff_find.mp hshown]
    exact if_pos rfl

end Shown

namespace Stored

variable {tasks : Tasks} {s : Store} {task : Task}

theorem start : Stored (fun _ => none) {} where
  table := fun _ => rfl
  shown := nofun
  named := nofun

/-- Saving a task. -/
theorem upsertTask (h : Stored tasks s) (hgoal : task.goal_id ≠ "") :
    Stored (Function.update tasks (task.goal_id, task.id) (some task)) (s.upsertTask task) where
  table := by
    intro key
    rw [task_records_upsertTask, Keyed.find_upsert, h.table]
    exact (Function.update_apply ..).symm
  shown := by
    intro t ht
    unfold Has
    rcases shown_upsertTask.mp ht with rfl | ⟨ht, hid⟩
    · exact Function.update_self ..
    · rw [Function.update_of_ne fun hkey => hid (Prod.ext_iff.mp hkey).2]
      exact h.shown t ht
  named := by
    intro t ht
    unfold Has at ht
    by_cases hkey : (t.goal_id, t.id) = (task.goal_id, task.id)
    · have hsame : t.goal_id = task.goal_id := (Prod.ext_iff.mp hkey).1
      exact hsame ▸ hgoal
    · rw [Function.update_of_ne hkey] at ht
      exact h.named t ht

/-- Writing a task of the map back to the graph changes nothing of the map. -/
theorem writeBack (h : Stored tasks s) (hhas : Has tasks task) : Stored tasks (s.upsertTask task) := by
  have hsame : Function.update tasks (task.goal_id, task.id) (some task) = tasks :=
    Function.update_eq_self_iff.mpr hhas.symm
  have hsaved := h.upsertTask (h.named task hhas)
  rwa [hsame] at hsaved

theorem writeBackAll (h : Stored tasks s) {list : List Task} (hhas : ∀ t ∈ list, Has tasks t) :
    Stored tasks (list.foldl Store.upsertTask s) := by
  induction list generalizing s with
  | nil => exact h
  | cons a list ih =>
    exact ih (h.writeBack (hhas a List.mem_cons_self)) fun t ht => hhas t (List.mem_cons_of_mem a ht)

/-- A task is in the table exactly when it is in the map. -/
theorem mem_rows (h : Stored tasks s) : task ∈ s.task_records.rows ↔ Has tasks task := by
  rw [Keyed.mem_rows_iff, h.table]
  exact .rfl

/-- Calls that leave the tasks alone. -/
theorem same (h : Stored tasks s) {s' : Store} (htable : s'.task_records = s.task_records)
    (hshown : ∀ t, Shown s' t → Shown s t) : Stored tasks s' where
  table := fun key => htable ▸ h.table key
  shown := fun t ht => h.shown t (hshown t ht)
  named := h.named

theorem readTask (h : Stored tasks s) (goalId taskId : String) :
    Stored tasks (s.readTask goalId taskId).1 ∧
      (s.readTask goalId taskId).2 = tasks (goalId, taskId) := by
  unfold Store.readTask
  split
  · next t hread =>
    obtain ⟨hshown, rfl, rfl⟩ := readTaskFromRuntimeGraph_iff.mp hread
    exact ⟨h, (h.shown t hshown).symm⟩
  · split
    · next hnone =>
      exact ⟨h, hnone.symm.trans (h.table _)⟩
    · next t hrow =>
      have hkey := Keyed.key_of_find hrow
      cases hkey
      have hhas : Has tasks t := (h.table _).symm.trans hrow
      have hread : (s.upsertTask t).readTaskFromRuntimeGraph t.goal_id t.id = some t :=
        readTaskFromRuntimeGraph_iff.mpr ⟨shown_upsertTask.mpr (.inl rfl), rfl, rfl⟩
      refine ⟨h.writeBack hhas, ?_⟩
      dsimp only
      rw [hread]
      exact hhas.symm

theorem readTasksOfGoal (h : Stored tasks s) (goalId : String) :
    Stored tasks (s.readTasksOfGoal goalId) := by
  unfold Store.readTasksOfGoal
  generalize s.taskIdsOfGoal goalId = taskIds
  induction taskIds generalizing s with
  | nil => exact h
  | cons taskId taskIds ih => exact ih (h.readTask goalId taskId).1

/-- What the graph shows of a goal. -/
theorem mem_listTasksOfGoal (h : Stored tasks s) {goalId : String} :
    task ∈ s.listTasksOfGoal goalId ↔ Shown s task ∧ task.goal_id = goalId := by
  unfold Store.listTasksOfGoal
  split
  · next hempty =>
    refine iff_of_false List.not_mem_nil ?_
    rintro ⟨hshown, hgoal⟩
    exact h.named task (h.shown task hshown) (hgoal.trans hempty)
  · rw [List.mem_filter, mem_graphTasks, decide_eq_true_iff]

/-- The tasks of a goal, in the graph or the table, are those of the map. -/
theorem mem_taskIdsOfGoal (h : Stored tasks s) {goalId taskId : String} :
    taskId ∈ s.taskIdsOfGoal goalId ↔ (tasks (goalId, taskId)).isSome := by
  have hof {t : Task} (hhas : Has tasks t) : (tasks (t.goal_id, t.id)).isSome :=
    Option.isSome_of_eq_some hhas
  unfold Store.taskIdsOfGoal
  rw [List.mem_append]
  constructor
  · rintro (hgraph | htable)
    · obtain ⟨t, ht, rfl⟩ := List.mem_map.mp hgraph
      obtain ⟨hshown, rfl⟩ := h.mem_listTasksOfGoal.mp ht
      exact hof (h.shown t hshown)
    · obtain ⟨t, ht, rfl⟩ := List.mem_map.mp htable
      obtain ⟨hrow, hgoal⟩ := List.mem_filter.mp ht
      obtain rfl := of_decide_eq_true hgoal
      exact hof (h.mem_rows.mp hrow)
  · intro hsome
    obtain ⟨t, ht⟩ := Option.isSome_iff_exists.mp hsome
    rw [← h.table] at ht
    have hkey := Keyed.key_of_find ht
    cases hkey
    exact .inr (List.mem_map.mpr ⟨t, List.mem_filter.mpr
      ⟨Keyed.mem_rows_of_find ht, decide_eq_true rfl⟩, rfl⟩)

/-- Deleting the tasks whose ids have a property. -/
theorem delete (h : Stored tasks s) {q : String × String → Prop} [DecidablePred q]
    {p : Task → Bool} (hp : ∀ t, p t = true ↔ q (t.goal_id, t.id)) {s' : Store}
    (htable : s'.task_records = s.task_records.deleteWhere p)
    (hshown : ∀ t, Shown s' t → Shown s t ∧ ¬q (t.goal_id, t.id)) :
    Stored (fun key => if q key then none else tasks key) s' where
  table := by
    intro key
    rw [htable, Keyed.find_deleteWhere]
    cases hrow : s.task_records.find key with
    | none =>
      rw [h.table] at hrow
      simp [hrow]
    | some t =>
      have hkey := Keyed.key_of_find hrow
      change (t.goal_id, t.id) = key at hkey
      have hp := hp t
      rw [hkey] at hp
      rw [h.table] at hrow
      by_cases hq : q key
      · simp [hq, hp.mpr hq]
      · have hkept : p t = false := Bool.not_eq_true _ ▸ hp.not.mpr hq
        simp [hq, hkept, hrow]
  shown := by
    intro t ht
    obtain ⟨ht, hkept⟩ := hshown t ht
    exact (if_neg hkept).trans (h.shown t ht)
  named := by
    intro t ht
    unfold Has at ht
    dsimp only at ht
    split at ht
    · exact nomatch ht
    · exact h.named t ht

/-- Deleting a task. -/
theorem deleteTask (h : Stored tasks s) (goalId taskId : String) :
    Stored (Function.update tasks (goalId, taskId) none) (s.deleteTask goalId taskId).1 ∧
      (s.deleteTask goalId taskId).2 = (tasks (goalId, taskId)).isSome := by
  have hfound : (s.readTaskFromRuntimeGraph goalId taskId).isSome ∨
      (s.task_records.find (goalId, taskId)).isSome ↔ (tasks (goalId, taskId)).isSome := by
    rw [h.table, or_iff_right_iff_imp, Option.isSome_iff_exists]
    rintro ⟨t, ht⟩
    obtain ⟨hshown, rfl, rfl⟩ := readTaskFromRuntimeGraph_iff.mp ht
    exact Option.isSome_of_eq_some (h.shown t hshown)
  unfold Store.deleteTask
  by_cases hsome : (tasks (goalId, taskId)).isSome
  · rw [if_pos (hfound.mpr hsome)]
    refine ⟨?_, hsome.symm⟩
    have hdeleted : Function.update tasks (goalId, taskId) none =
        fun key => if key = (goalId, taskId) then none else tasks key :=
      funext fun key => Function.update_apply ..
    rw [hdeleted]
    refine h.delete (p := fun t => t.goal_id = goalId && t.id = taskId) (fun t => ?_) rfl
      fun t ht => ?_
    · rw [Bool.and_eq_true, decide_eq_true_iff, decide_eq_true_iff, Prod.mk.injEq]
    · obtain ⟨ht, hkept⟩ := (shown_deleteRuntimeGraphNode .task taskId).mp ht
      exact ⟨ht, fun hkey => hkept ⟨rfl, (Prod.ext_iff.mp hkey).2.symm⟩⟩
  · rw [if_neg (hfound.not.mpr hsome)]
    have hnone := Option.not_isSome_iff_eq_none.mp hsome
    have hsame : Function.update tasks (goalId, taskId) none = tasks :=
      Function.update_eq_self_iff.mpr hnone.symm
    rw [hsame]
    exact ⟨h, (Bool.not_eq_true _ ▸ hsome).symm⟩

/-- Deleting nodes shows nothing new, and the deleted tasks no longer. -/
theorem shown_foldl_deleteRuntimeGraphNode {s : Store} {t : Task} (taskIds : List String) :
    Shown (taskIds.foldl (fun s id => s.deleteRuntimeGraphNode (taskRuntimeGraphNodeId id)) s) t ↔
      Shown s t ∧ t.id ∉ taskIds := by
  induction taskIds generalizing s with
  | nil => simp
  | cons id taskIds ih =>
    rw [List.foldl_cons, ih]
    have hone := shown_deleteRuntimeGraphNode (s := s) (t := t) .task id
    rw [show nodeId .task id = taskRuntimeGraphNodeId id from rfl] at hone
    rw [hone, List.mem_cons]
    simp only [true_and, not_or]
    rw [and_assoc, eq_comm (a := id)]

theorem task_records_foldl_deleteRuntimeGraphNode (s : Store) (taskIds : List String) :
    (taskIds.foldl (fun s id => s.deleteRuntimeGraphNode (taskRuntimeGraphNodeId id))
      s).task_records = s.task_records := by
  induction taskIds generalizing s with
  | nil => rfl
  | cons id taskIds ih => exact ih _

/-- Deleting a goal. -/
theorem deleteGoal (h : Stored tasks s) (goalId : String) :
    Stored (fun key => if key.1 = goalId then none else tasks key) (s.deleteGoal goalId).1 := by
  unfold Store.deleteGoal
  split
  · next hmissing =>
    have hnone (taskId : String) : tasks (goalId, taskId) = none := by
      rw [← Option.not_isSome_iff_eq_none, ← h.mem_taskIdsOfGoal, hmissing.2.2]
      exact List.not_mem_nil
    have hsame : (fun key => if key.1 = goalId then none else tasks key) = tasks := by
      funext ⟨g, taskId⟩
      dsimp only
      split
      · next hg => exact hg ▸ (hnone taskId).symm
      · rfl
    rwa [hsame]
  · have hread := h.readTasksOfGoal goalId
    refine hread.delete (p := fun t => t.goal_id = goalId) (fun t => decide_eq_true_iff) ?_
      fun t ht => ?_
    · have htable := task_records_foldl_deleteRuntimeGraphNode (s.readTasksOfGoal goalId)
        ((s.readTasksOfGoal goalId).taskIdsOfGoal goalId)
      dsimp only [Store.deleteRuntimeGraphNode] at htable ⊢
      rw [htable]
    · have ht := ((shown_deleteRuntimeGraphNode .goal goalId).mp ht).1
      have ht := ((shown_deleteRuntimeGraphNode .milestone goalId).mp ht).1
      obtain ⟨ht, hkept⟩ := (shown_foldl_deleteRuntimeGraphNode _).mp ht
      refine ⟨ht, fun hgoal => hkept ?_⟩
      rw [hread.mem_taskIdsOfGoal]
      obtain rfl : t.goal_id = goalId := hgoal
      exact Option.isSome_of_eq_some (hread.shown t ht)

/-! ### Listing -/

/-- The last task with an id that is written to the graph is shown. -/
theorem shown_foldl_upsertTask {s : Store} {list : List Task} (hmem : task ∈ list)
    (halone : ∀ t ∈ list, t.id = task.id → t = task) : Shown (list.foldl Store.upsertTask s) task := by
  induction list using List.reverseRecOn with
  | nil => cases hmem
  | append_singleton list last ih =>
    rw [List.foldl_concat, shown_upsertTask]
    by_cases hlast : task = last
    · exact .inl hlast
    · have hbefore : task ∈ list := (List.mem_append.mp hmem).resolve_right fun h =>
        hlast (List.mem_singleton.mp h)
      refine .inr ⟨ih hbefore fun t ht => halone t (List.mem_append_left _ ht), fun hid => ?_⟩
      exact hlast (halone last (List.mem_append_right _ List.mem_cons_self) hid.symm).symm

/-- Two tasks of the map with the same ids are the same. -/
theorem has_unique {a b : Task} (ha : Has tasks a) (hb : Has tasks b) (hgoal : a.goal_id = b.goal_id)
    (hid : a.id = b.id) : a = b := by
  unfold Has at ha hb
  rw [hgoal, hid, hb] at ha
  exact (Option.some.inj ha).symm

theorem listTasks (h : Stored tasks s) (goalId : String) :
    Stored tasks (s.listTasks goalId).1 ∧
      Lists tasks (·.goal_id = goalId) (.tasks (s.listTasks goalId).2) := by
  unfold Store.listTasks
  dsimp only
  have hrows (t : Task) :
      t ∈ s.task_records.rows.filter (·.goal_id = goalId) ↔ Has tasks t ∧ t.goal_id = goalId := by
    rw [List.mem_filter, h.mem_rows, decide_eq_true_iff]
  have hstored := h.writeBackAll fun t ht => ((hrows t).mp ht).1
  refine ⟨hstored, _, rfl, ?_, fun t => ?_⟩
  · unfold Store.listTasksOfGoal
    split
    · exact List.nodup_nil
    · exact (nodup_graphTasks _).filter _
  · rw [hstored.mem_listTasksOfGoal]
    refine and_congr_left fun hgoal => ⟨hstored.shown t, fun hhas => ?_⟩
    refine shown_foldl_upsertTask ((hrows t).mpr ⟨hhas, hgoal⟩) fun u hu hid => ?_
    obtain ⟨huhas, hugoal⟩ := (hrows u).mp hu
    exact has_unique huhas hhas (hugoal.trans hgoal.symm) hid

theorem mem_inRowOrder {list : List Task} : task ∈ Store.inRowOrder list ↔ task ∈ list :=
  List.mem_insertionSort _

/-- **The tasks of a status** are listed as in the map exactly when no two of them share an id. -/
theorem listTasksByStatus (h : Stored tasks s) (status : TaskStatus) :
    Stored tasks (s.listTasksByStatus status).1 ∧
      (Lists tasks (·.status = status) (.tasks (s.listTasksByStatus status).2) ↔
        NoSharedId tasks (.listTasksByStatus status)) := by
  unfold Store.listTasksByStatus
  dsimp only
  have hrows (t : Task) : t ∈ Store.inRowOrder (s.task_records.rows.filter (·.status = status)) ↔
      Has tasks t ∧ t.status = status := by
    rw [mem_inRowOrder, List.mem_filter, h.mem_rows, decide_eq_true_iff]
  have hstored := h.writeBackAll fun t ht => ((hrows t).mp ht).1
  refine ⟨hstored, ?_⟩
  generalize Store.inRowOrder (s.task_records.rows.filter (·.status = status)) = rows at hrows hstored ⊢
  have hmem (t : Task) : t ∈ (rows.foldl Store.upsertTask s).listTasksOfStatus status ↔
      Shown (rows.foldl Store.upsertTask s) t ∧ t.status = status := by
    unfold Store.listTasksOfStatus
    rw [List.mem_filter, mem_graphTasks, decide_eq_true_iff]
  constructor
  · rintro ⟨list, hlist, -, hall⟩ a b ha hb hastatus hbstatus hid
    cases hlist
    have hashown := ((hmem a).mp ((hall a).mpr ⟨ha, hastatus⟩)).1
    have hbshown := ((hmem b).mp ((hall b).mpr ⟨hb, hbstatus⟩)).1
    rw [hashown.unique hbshown hid]
  · intro hshared
    refine ⟨_, rfl, (nodup_graphTasks _).filter _, fun t => ?_⟩
    rw [hmem]
    refine and_congr_left fun hstatus => ⟨hstored.shown t, fun hhas => ?_⟩
    refine shown_foldl_upsertTask ((hrows t).mpr ⟨hhas, hstatus⟩) fun u hu hid => ?_
    obtain ⟨huhas, hustatus⟩ := (hrows u).mp hu
    exact has_unique huhas hhas (hshared u t huhas hhas hustatus hstatus hid) hid

/-! ### Saving a goal -/

theorem task_records_upsertGoal (s : Store) (goal : TreeLoop.Goal) (archived : Bool) :
    (s.upsertGoal goal archived).task_records = s.task_records := by
  have hnodes : (upsertGoalNodes s goal archived).task_records = s.task_records := by
    unfold upsertGoalNodes
    dsimp only
    split
    · exact task_records_insertRuntimeGraphEdgeIfNodesExist _ _
    · rfl
  rw [← hnodes, upsertGoal_eq]
  unfold upsertGoalParent
  dsimp only
  split
  · rfl
  · split
    · rfl
    · exact task_records_insertRuntimeGraphEdgeIfNodesExist _ _

theorem upsertGoal (h : Stored tasks s) (goal : TreeLoop.Goal) (archived : Bool) :
    Stored tasks (s.upsertGoal goal archived) := by
  refine h.same (task_records_upsertGoal s goal archived) fun t ht => ?_
  rw [Shown, upsertGoal_eq, nodes_upsertGoalParent] at ht
  unfold upsertGoalNodes at ht
  dsimp only [Store.upsertRuntimeGraphNode] at ht
  split at ht
  · rw [Store.nodes_insertRuntimeGraphEdgeIfNodesExist] at ht
    rcases Keyed.mem_rows_upsert.mp ht with hnew | ⟨ht, -⟩
    · exact nomatch hnew
    · rcases Keyed.mem_rows_upsert.mp ht with hnew | ⟨ht, -⟩
      · exact nomatch hnew
      · exact ht
  · rcases Keyed.mem_rows_upsert.mp ht with hnew | ⟨ht, -⟩
    · exact nomatch hnew
    · exact ht

end Stored

/-! ## Histories -/

/-- One call keeps the map, and is answered as by the map exactly when no two goals have tasks
that share an id. -/
theorem Stored.perform {tasks : Tasks} {s : Store} (h : Stored tasks s) (op : Op) :
    Stored (saveTasks tasks op) (perform s op).1 ∧
      (Answered tasks op (perform s op).2 ↔ NoSharedId tasks op) := by
  cases op with
  | saveGoal goal =>
    simp only [saveTasks, GoalTaskState.perform]
    split
    · exact ⟨h, .rfl⟩
    · exact ⟨h.upsertGoal goal false, .rfl⟩
  | saveArchivedGoal goal =>
    simp only [saveTasks, GoalTaskState.perform]
    split
    · exact ⟨h, .rfl⟩
    · exact ⟨h.upsertGoal (archive goal) true, .rfl⟩
  | deleteGoal goalId => exact ⟨h.deleteGoal goalId, .rfl⟩
  | saveTask task =>
    simp only [saveTasks, GoalTaskState.perform]
    by_cases hempty : task.id = "" ∨ task.goal_id = ""
    · simp only [if_pos hempty]
      exact ⟨h, .rfl⟩
    · simp only [if_neg hempty]
      exact ⟨h.upsertTask fun hgoal => hempty (.inr hgoal), .rfl⟩
  | loadTask goalId taskId =>
    obtain ⟨hstored, hanswer⟩ := h.readTask goalId taskId
    exact ⟨hstored, iff_true_intro (congrArg Answer.task hanswer)⟩
  | listTasks goalId =>
    obtain ⟨hstored, hanswer⟩ := h.listTasks goalId
    exact ⟨hstored, iff_true_intro hanswer⟩
  | listTasksByStatus status => exact h.listTasksByStatus status
  | deleteTask goalId taskId =>
    obtain ⟨hstored, hanswer⟩ := h.deleteTask goalId taskId
    exact ⟨hstored, iff_true_intro (congrArg Answer.deleted hanswer)⟩

theorem stored_storeAfter (ops : List Op) : Stored (tasksAfter ops) (storeAfter ops) := by
  induction ops using List.reverseRecOn with
  | nil => exact .start
  | append_singleton ops op ih =>
    rw [tasksAfter_concat, storeAfter_concat]
    exact (ih.perform op).1

/-- **The tasks are a map**: a call after any others is answered from the tasks last saved and
not deleted since, unless the tasks of a status are listed while two goals have one with the
same id and that status. -/
theorem answered_iff (before : List Op) (op : Op) :
    Answered (tasksAfter before) op (perform (storeAfter before) op).2 ↔
      NoSharedId (tasksAfter before) op :=
  ((stored_storeAfter before).perform op).2

/-! Two goals with a pending task of the same id. -/

def sharedId : List Op :=
  [.saveTask { id := "t", goal_id := "a", status := .pending },
    .saveTask { id := "t", goal_id := "b", status := .pending }]

theorem sharedId_not_answered :
    ¬Answered (tasksAfter sharedId) (.listTasksByStatus .pending)
      (perform (storeAfter sharedId) (.listTasksByStatus .pending)).2 := by
  intro h
  have hdistinct := ((stored_storeAfter sharedId).perform (.listTasksByStatus .pending)).2.mp h
  have hsame : "a" = "b" := hdistinct { id := "t", goal_id := "a", status := .pending }
    { id := "t", goal_id := "b", status := .pending } (by decide) (by decide) rfl rfl rfl
  exact absurd hsame (by decide)

end PulSeed.GoalTaskState
