import PulSeed.Lib.EraseDups
import PulSeed.Lib.Layers
import PulSeed.Pipeline.Group

/-!
# The waves of a group

The waves are the layers of the dependencies of the group. A dependency that names no subtask
is one outside the layers: what depends on it waits until nothing else is ready.

- `Feeds`: the dependencies of a group, by the ids of the subtasks.
- `buildExecutionOrder_perm`, `buildExecutionOrder_order`: each subtask is in one wave, and
  unless it is downstream of a cycle or of a missing subtask, what it depends on is in an
  earlier one.
- `buildExecutionOrder_grounded_iff`: when dependencies on missing subtasks delay nothing.
-/

namespace PulSeed.Parallel

open EraseDups Layers

/-- A subtask, or a name that is no subtask's, must complete before another. -/
def Feeds (group : TaskGroup) (source target : String) : Prop :=
  (source, target) ∈ group.dependencies

/-- The group without the dependencies that name no subtask of it. -/
def TaskGroup.grounded (group : TaskGroup) : TaskGroup :=
  { group with dependencies := group.dependencies.filter fun dep => dep.1 ∈ group.ids }

section Waves

variable {group : TaskGroup} {completed remaining : List String} {n turns : ℕ} {id : String}

@[simp] theorem mem_dependsOn {source : String} :
    source ∈ dependsOn group id ↔ Feeds group source id := by
  simp only [dependsOn, List.mem_map, List.mem_filter, decide_eq_true_eq]
  constructor
  · rintro ⟨⟨source, target⟩, ⟨hmem, rfl⟩, rfl⟩
    exact hmem
  · exact fun hmem => ⟨(source, id), ⟨hmem, rfl⟩, rfl⟩

open Classical in
theorem readyTasks_eq (hcompleted : ∀ id, id ∈ completed ↔
      id ∈ group.ids ∧ Settled (Feeds group) group.ids n id)
    (hremaining : remaining = leftAt (Settled (Feeds group) group.ids) group.ids n) :
    readyTasks group completed remaining =
      layerAt (Settled (Feeds group) group.ids) group.ids n := by
  unfold readyTasks layerAt
  rw [hremaining]
  refine List.filter_congr fun id hid => ?_
  rw [Bool.eq_iff_iff, List.all_eq_true, decide_eq_true_eq]
  constructor
  · intro h source hsource
    exact (hcompleted source).mp (by simpa using h source (mem_dependsOn.mpr hsource))
  · intro h source hsource
    simpa using (hcompleted source).mpr (h source (mem_dependsOn.mp hsource))

/-- The waves from some point on are the layers that are left. -/
theorem buildWaves_eq (hcompleted : ∀ id, id ∈ completed ↔
      id ∈ group.ids ∧ Settled (Feeds group) group.ids n id)
    (hremaining : remaining = leftAt (Settled (Feeds group) group.ids) group.ids n) :
    buildWaves group turns completed remaining =
      layersFrom (Settled (Feeds group) group.ids) group.ids turns n := by
  induction turns generalizing n completed remaining with
  | zero => rfl
  | succ turns ih =>
    have hready := readyTasks_eq hcompleted hremaining
    have hcompleted' : ∀ id, id ∈ completed ++ readyTasks group completed remaining ↔
        id ∈ group.ids ∧ Settled (Feeds group) group.ids (n + 1) id := by
      intro id
      rw [List.mem_append, hcompleted, hready, settled_or_mem_layerAt]
    have hremaining' : remaining.filter (· ∉ readyTasks group completed remaining) =
        leftAt (Settled (Feeds group) group.ids) group.ids (n + 1) := by
      rw [hready, hremaining, ← filter_not_mem_layerAt]
      exact List.filter_congr fun id _ => by simp
    unfold buildWaves layersFrom
    dsimp only
    rw [ih hcompleted' hremaining', hready, hremaining]

/-- **The waves are the layers of the dependencies.** -/
theorem buildExecutionOrder_eq (hids : group.ids.Nodup) :
    buildExecutionOrder group =
      layersFrom (Settled (Feeds group) group.ids) group.ids group.ids.length 0 := by
  unfold buildExecutionOrder
  rw [eraseDups_of_nodup hids]
  exact buildWaves_eq (fun id => by simp [Settled]) leftAt_zero.symm

/-- Each subtask is in one of the waves. -/
theorem buildExecutionOrder_perm (hids : group.ids.Nodup) :
    (buildExecutionOrder group).flatten.Perm group.ids := by
  rw [buildExecutionOrder_eq hids]
  have hperm : (layersFrom (Settled (Feeds group) group.ids) group.ids group.ids.length 0).flatten.Perm
      (leftAt (Settled (Feeds group) group.ids) group.ids 0) :=
    layersFrom_perm (List.length_filter_le _ _)
  rwa [leftAt_zero] at hperm

/-- What a settled subtask depends on is in an earlier wave. -/
theorem buildExecutionOrder_order (hids : group.ids.Nodup) {before after : List (List String)}
    {wave : List String} (h : buildExecutionOrder group = before ++ wave :: after)
    (hid : id ∈ wave) (hsettled : Settled (Feeds group) group.ids n id) {source : String}
    (hsource : Feeds group source id) : source ∈ before.flatten := by
  rw [buildExecutionOrder_eq hids] at h
  exact (layersFrom_order h hid hsettled hsource).resolve_right not_false

theorem feeds_grounded {source target : String} :
    Feeds group.grounded source target ↔ Inside (Feeds group) group.ids source target := by
  simp [Feeds, TaskGroup.grounded, Inside, and_comm]

/-- **When dependencies on missing subtasks delay nothing.** -/
theorem buildExecutionOrder_grounded_iff (hids : group.ids.Nodup) :
    buildExecutionOrder group = buildExecutionOrder group.grounded ↔
      (∀ id ∈ group.ids, Stranded (Feeds group) group.ids id →
        AfterCycle (Inside (Feeds group) group.ids) id) ∨
      ∃ n, (∀ id ∈ group.ids, ¬ Chain (Inside (Feeds group) group.ids) (n + 1) id) ∧
        ∀ id ∈ group.ids, Stranded (Feeds group) group.ids id ↔
          Chain (Inside (Feeds group) group.ids) n id := by
  have hfeeds : Feeds group.grounded = Inside (Feeds group) group.ids :=
    funext fun _ => funext fun _ => propext feeds_grounded
  have hground : group.grounded.ids = group.ids := rfl
  have hids' : group.grounded.ids.Nodup := hids
  rw [buildExecutionOrder_eq hids, buildExecutionOrder_eq hids', hfeeds, hground]
  exact layersFrom_inside_iff le_rfl

end Waves

end PulSeed.Parallel
