import PulSeed.Goals.RunningNodes

/-!
# One iteration of a tree (`orchestrator/loop/tree-loop-runner.ts`)

`runTreeIteration` chooses a node, marks it as running, iterates it and sets it back to idle.
It loads and saves the node one await at a time, and `pauseNodeLoop` may be called at every
await: what is saved is a copy that was loaded before, with the status of the saver or, in
`runOneIteration`, the status it had when it was loaded.

The node should be given back: when the iteration has returned or thrown, the node is not
running, and it is paused if it was paused on the way (`GivesBack`). A node at its limit and
an iteration that throws leave it running, and setting it back to idle undoes a pause. **The
node is given back exactly when the last save of it is of a paused goal, or when it was not
paused at all and either released or never marked** (`gives_back_iff`).
-/

namespace PulSeed.TreeIteration

open TreeLoop

/-! ## The iteration -/

/-- Where the iteration of the node is. -/
inductive Phase
  | chosen
  /-- The goal is loaded, to be saved as running. -/
  | marking (selected : Goal)
  | marked
  | iterating
  /-- `runOneIteration` has returned; the parents are aggregated. -/
  | iterated (complete : Bool)
  /-- The goal is loaded, to be saved as idle. -/
  | releasing (nodeGoal : Goal) (complete : Bool)
  /-- The rest of `onNodeCompleted`. -/
  | completing
  /-- Returned or thrown. -/
  | left

/-- The goal that is loaded and not yet saved. -/
def Phase.held : Phase → Option Goal
  | .marking selected => some selected
  | .releasing nodeGoal _ => some nodeGoal
  | .chosen | .marked | .iterating | .iterated _ | .completing | .left => none

structure State where
  store : GoalStore
  phase : Phase := .chosen
  /-- What `runOneIteration` has loaded of the node. -/
  copies : List Goal := []

/-- What happens at an await. -/
inductive Action
  | loadSelected
  | markRunning
  /-- The node has reached its limit. -/
  | skipNode
  | runOneIteration
  | loadGoal
  /-- A copy that was loaded is saved with other changes. -/
  | saveGoal (copy : ℕ) (goal : Goal)
  | saveOther (goal : Goal)
  | iterationReturns (complete : Bool)
  | loadNode
  | release
  | returns
  | throws
  /-- `pauseNodeLoop` saves the copy that it has loaded. -/
  | pauseNodeLoop (copy : Goal)

variable (nodeId : String)

/-- One action of the iteration of a node, or a pause of it. -/
inductive Step (s : State) : Action → State → Prop
  | loadSelected {selected : Goal} (hphase : s.phase = .chosen)
      (hload : s.store.loadGoal nodeId = some selected) :
      Step s .loadSelected { s with phase := .marking selected }
  | markRunning {selected : Goal} (hphase : s.phase = .marking selected) :
      Step s .markRunning
        { s with store := s.store.put { selected with loop_status := .running }, phase := .marked }
  | skipNode (hphase : s.phase = .marked) : Step s .skipNode { s with phase := .left }
  | runOneIteration (hphase : s.phase = .marked) :
      Step s .runOneIteration { s with phase := .iterating }
  | loadGoal {goal : Goal} (hphase : s.phase = .iterating)
      (hload : s.store.loadGoal nodeId = some goal) :
      Step s .loadGoal { s with copies := s.copies ++ [goal] }
  | saveGoal {copy : ℕ} {loaded goal : Goal} (hphase : s.phase = .iterating)
      (hcopy : s.copies[copy]? = some loaded) (hid : goal.id = nodeId)
      (hstatus : goal.loop_status = loaded.loop_status) :
      Step s (.saveGoal copy goal) { s with store := s.store.put goal }
  | saveOther {goal : Goal} (hphase : s.phase ≠ .left) (hid : goal.id ≠ nodeId) :
      Step s (.saveOther goal) { s with store := s.store.put goal }
  | iterationReturns {complete : Bool} (hphase : s.phase = .iterating) :
      Step s (.iterationReturns complete) { s with phase := .iterated complete }
  | loadNode {complete : Bool} {nodeGoal : Goal} (hphase : s.phase = .iterated complete)
      (hload : s.store.loadGoal nodeId = some nodeGoal) :
      Step s .loadNode { s with phase := .releasing nodeGoal complete }
  | release {complete : Bool} {nodeGoal : Goal} (hphase : s.phase = .releasing nodeGoal complete) :
      Step s .release
        { s with
          store := s.store.put { nodeGoal with loop_status := .idle }
          phase := if complete then .completing else .left }
  | returns (hphase : s.phase = .completing) : Step s .returns { s with phase := .left }
  | throws (hphase : s.phase ≠ .left) : Step s .throws { s with phase := .left }
  | pauseNodeLoop {copy : Goal} (hphase : s.phase ≠ .left) (hid : copy.id = nodeId) :
      Step s (.pauseNodeLoop copy)
        { s with store := s.store.put { copy with loop_status := .paused } }

/-- The iteration of a node, with pauses of it. -/
def iterationLTS : LTS State Action where
  step := Step nodeId

/-- The status of the node. -/
def status (s : State) : Option LoopStatus := (s.store.loadGoal nodeId).map (·.loop_status)

/-- The node is not left running, and is paused if it was paused. -/
structure GivesBack (acts : List Action) (s : State) : Prop where
  notRunning : running s.store nodeId = false
  paused : ∀ copy, .pauseNodeLoop copy ∈ acts → status nodeId s = some .paused

/-! ## Which save is the last -/

/-- Whether the last save of the node was of a paused goal, and which of the loaded copies are
of a paused goal. -/
structure Marks where
  paused : Bool := false
  copies : List Bool := []

/-- The marks after an action. -/
def Marks.after (marks : Marks) : Action → Marks
  | .markRunning | .release => { marks with paused := false }
  | .pauseNodeLoop _ => { marks with paused := true }
  | .loadGoal => { marks with copies := marks.copies ++ [marks.paused] }
  | .saveGoal copy _ => { marks with paused := marks.copies.getD copy false }
  | .loadSelected | .skipNode | .runOneIteration | .saveOther _ | .iterationReturns _ | .loadNode
  | .returns | .throws => marks

/-- The last save of the node by some actions is of a paused goal: it is a pause, or it writes
back a copy that was loaded after one. -/
def lastSavePauses (acts : List Action) : Bool := (acts.foldl Marks.after {}).paused

/-- The schedules that give the node back. -/
def KeepsNode (acts : List Action) : Prop :=
  lastSavePauses acts = true ∨
    (∀ copy, .pauseNodeLoop copy ∉ acts) ∧ (.release ∈ acts ∨ .markRunning ∉ acts)

/-! ## The statuses of a run -/

variable {nodeId}

/-- What the marks say of the statuses. -/
structure Tracked (nodeId : String) (marks : Marks) (s : State) : Prop where
  stored : (s.store.loadGoal nodeId).isSome
  paused : status nodeId s = some .paused ↔ marks.paused = true
  copies : marks.copies = s.copies.map fun goal => decide (goal.loop_status = .paused)
  held : ∀ goal, s.phase.held = some goal → goal.id = nodeId

section Tracked

variable {marks : Marks} {s s' : State}

/-- The node is saved. -/
theorem Tracked.put (h : Tracked nodeId marks s) {g : Goal} (hid : g.id = nodeId)
    {paused : Bool} (hpaused : decide (g.loop_status = .paused) = paused) {phase : Phase}
    (hheld : ∀ goal, phase.held = some goal → goal.id = nodeId) :
    Tracked nodeId { marks with paused } { s with store := s.store.put g, phase } := by
  have hload : (s.store.put g).loadGoal nodeId = some g := by
    rw [GoalStore.loadGoal_put, if_pos hid.symm]
  refine ⟨Option.isSome_of_eq_some hload, ?_, h.copies, hheld⟩
  unfold status
  rw [hload, Option.map_some, Option.some_inj, ← hpaused]
  exact decide_eq_true_iff.symm

/-- The node is not saved, and no goal is held. -/
theorem Tracked.move (h : Tracked nodeId marks s) {phase : Phase} (hheld : phase.held = none) :
    Tracked nodeId marks { s with phase } :=
  ⟨h.stored, h.paused, h.copies, fun goal hgoal =>
    absurd (hgoal.symm.trans hheld) (Option.some_ne_none goal)⟩

/-- The node is loaded. -/
theorem Tracked.hold (h : Tracked nodeId marks s) {phase : Phase} {goal : Goal}
    (hload : s.store.loadGoal nodeId = some goal) (hheld : phase.held = some goal) :
    Tracked nodeId marks { s with phase } := by
  refine ⟨h.stored, h.paused, h.copies, fun g hg => ?_⟩
  obtain rfl := Option.some.inj (hheld.symm.trans hg)
  exact s.store.loadGoal_id hload

/-- **One action** keeps the marks true. -/
theorem Tracked.step (h : Tracked nodeId marks s) {action : Action}
    (hstep : Step nodeId s action s') : Tracked nodeId (marks.after action) s' := by
  cases hstep with
  | loadSelected hphase hload => exact h.hold hload rfl
  | @markRunning selected hphase =>
    have hheld : s.phase.held = some selected := by
      rw [hphase]
      rfl
    exact h.put (g := { selected with loop_status := .running }) (h.held selected hheld) rfl
      fun _ hgoal => nomatch hgoal
  | skipNode => exact h.move rfl
  | runOneIteration => exact h.move rfl
  | @loadGoal goal hphase hload =>
    refine ⟨h.stored, h.paused, ?_, h.held⟩
    have hpaused := h.paused
    unfold status at hpaused
    rw [hload, Option.map_some, Option.some_inj] at hpaused
    have hmark : marks.paused = decide (goal.loop_status = .paused) := by
      rw [Bool.eq_iff_iff, decide_eq_true_iff]
      exact hpaused.symm
    simp only [Marks.after, List.map_append, h.copies, hmark, List.map_cons, List.map_nil]
  | saveGoal hphase hcopy hid hstatus =>
    refine h.put hid ?_ h.held
    rw [h.copies, List.getD_eq_getElem?_getD, List.getElem?_map, hcopy, hstatus]
    rfl
  | saveOther hphase hid =>
    refine ⟨?_, ?_, h.copies, h.held⟩
    · rw [GoalStore.loadGoal_put, if_neg (Ne.symm hid)]
      exact h.stored
    · unfold status
      rw [GoalStore.loadGoal_put, if_neg (Ne.symm hid)]
      exact h.paused
  | iterationReturns => exact h.move rfl
  | loadNode hphase hload => exact h.hold hload rfl
  | @release complete nodeGoal hphase =>
    have hheld : s.phase.held = some nodeGoal := by
      rw [hphase]
      rfl
    refine h.put (g := { nodeGoal with loop_status := .idle }) (h.held nodeGoal hheld) rfl
      fun goal hgoal => ?_
    cases complete with
    | false => exact nomatch hgoal
    | true => exact nomatch hgoal
  | returns => exact h.move rfl
  | throws => exact h.move rfl
  | @pauseNodeLoop copy hphase hid =>
    exact h.put (g := { copy with loop_status := .paused }) hid rfl h.held

end Tracked

/-! ## Without a pause -/

/-- What has happened to the node in a phase that is not the last. -/
def Phase.Fits (marked released : Prop) : Phase → Prop
  | .chosen | .marking _ => ¬marked ∧ ¬released
  | .marked | .iterating | .iterated _ | .releasing _ _ => marked ∧ ¬released
  | .completing => released
  | .left => True

/-- The node is running exactly from when it is marked to when it is released. -/
structure Unpaused (nodeId : String) (acts : List Action) (s : State) : Prop where
  running : running s.store nodeId = true ↔ .markRunning ∈ acts ∧ .release ∉ acts
  copies : ∀ goal ∈ s.copies, goal.loop_status = .running
  held : ∀ goal, s.phase.held = some goal → goal.id = nodeId
  phase : s.phase.Fits (.markRunning ∈ acts) (.release ∈ acts)

section Unpaused

variable {acts : List Action} {s s' : State}

/-- An action that neither marks nor releases the node, nor saves it. -/
theorem Unpaused.move (h : Unpaused nodeId acts s) (action : Action) (phase : Phase)
    (hmark : Action.markRunning ≠ action) (hrelease : Action.release ≠ action)
    (hheld : ∀ goal, phase.held = some goal → goal.id = nodeId)
    (hfits : phase.Fits (.markRunning ∈ acts) (.release ∈ acts)) :
    Unpaused nodeId (acts ++ [action]) { s with phase } := by
  have hmarked : Action.markRunning ∈ acts ++ [action] ↔ .markRunning ∈ acts := by
    simp [hmark]
  have hreleased : Action.release ∈ acts ++ [action] ↔ .release ∈ acts := by
    simp [hrelease]
  refine ⟨?_, h.copies, hheld, ?_⟩
  · rw [hmarked, hreleased]
    exact h.running
  · rw [hmarked, hreleased]
    exact hfits

/-- **One action** that is not a pause. -/
theorem Unpaused.step (h : Unpaused nodeId acts s) {action : Action}
    (hstep : Step nodeId s action s') (hpause : ∀ copy, action ≠ .pauseNodeLoop copy) :
    Unpaused nodeId (acts ++ [action]) s' := by
  have hfits := h.phase
  cases hstep with
  | loadSelected hphase hload =>
    rw [hphase] at hfits
    refine h.move .loadSelected (.marking _) nofun nofun ?_ hfits
    rintro _ ⟨⟩
    exact s.store.loadGoal_id hload
  | @markRunning selected hphase =>
    rw [hphase] at hfits
    have hheld : s.phase.held = some selected := by
      rw [hphase]
      rfl
    have hid := h.held selected hheld
    refine ⟨?_, h.copies, fun _ hgoal => (nomatch hgoal), ?_⟩
    · rw [running_put, if_pos hid.symm]
      simp [hfits.2]
    · simp [Phase.Fits, hfits.2]
  | skipNode hphase => exact h.move .skipNode .left nofun nofun (fun _ hgoal => nomatch hgoal) trivial
  | runOneIteration hphase =>
    rw [hphase] at hfits
    exact h.move .runOneIteration .iterating nofun nofun (fun _ hgoal => nomatch hgoal) hfits
  | @loadGoal goal hphase hload =>
    rw [hphase] at hfits
    have hmoved := h.move .loadGoal .iterating nofun nofun (fun _ hgoal => nomatch hgoal) hfits
    refine ⟨hmoved.running, ?_, h.held, ?_⟩
    · have hrunning := h.running.mpr hfits
      unfold TreeLoop.running at hrunning
      rw [hload, Option.any_some, decide_eq_true_iff] at hrunning
      intro g hg
      rcases List.mem_append.mp hg with hg | hg
      · exact h.copies g hg
      · exact List.mem_singleton.mp hg ▸ hrunning
    · rw [hphase]
      exact hmoved.phase
  | @saveGoal copy loaded goal hphase hcopy hid hstatus =>
    rw [hphase] at hfits
    have hmoved := h.move (.saveGoal copy goal) .iterating nofun nofun
      (fun _ hgoal => nomatch hgoal) hfits
    refine ⟨?_, h.copies, h.held, ?_⟩
    · rw [running_put, if_pos hid.symm, hstatus, h.copies loaded (List.mem_of_getElem? hcopy)]
      exact iff_of_true rfl hmoved.phase
    · rw [hphase]
      exact hmoved.phase
  | @saveOther goal hphase hid =>
    have hmoved := h.move (.saveOther goal) s.phase nofun nofun h.held h.phase
    refine ⟨?_, h.copies, h.held, hmoved.phase⟩
    rw [running_put, if_neg (Ne.symm hid)]
    exact hmoved.running
  | @iterationReturns complete hphase =>
    rw [hphase] at hfits
    exact h.move (.iterationReturns complete) (.iterated complete) nofun nofun
      (fun _ hgoal => nomatch hgoal) hfits
  | @loadNode complete nodeGoal hphase hload =>
    rw [hphase] at hfits
    refine h.move .loadNode (.releasing nodeGoal complete) nofun nofun ?_ hfits
    rintro _ ⟨⟩
    exact s.store.loadGoal_id hload
  | @release complete nodeGoal hphase =>
    have hheld : s.phase.held = some nodeGoal := by
      rw [hphase]
      rfl
    have hid := h.held nodeGoal hheld
    refine ⟨?_, h.copies, ?_, ?_⟩
    · rw [running_put, if_pos hid.symm]
      simp
    · cases complete <;> exact fun _ hgoal => nomatch hgoal
    · cases complete <;> simp [Phase.Fits]
  | returns hphase => exact h.move .returns .left nofun nofun (fun _ hgoal => nomatch hgoal) trivial
  | throws hphase => exact h.move .throws .left nofun nofun (fun _ hgoal => nomatch hgoal) trivial
  | pauseNodeLoop hphase hid => exact absurd rfl (hpause _)

end Unpaused

/-! ## Runs -/

variable {store : GoalStore} {allIds : List String} {acts : List Action} {s : State}

/-- A node that is chosen is stored and idle. -/
theorem selected_idle (h : selectEligibleNodeId store allIds = some nodeId) :
    ∃ goal, store.loadGoal nodeId = some goal ∧ goal.loop_status = .idle := by
  obtain ⟨goal, hgoal, rfl⟩ := selectEligibleNodeId_mem h
  obtain ⟨-, hload, -, hidle⟩ := mem_eligible.mp hgoal
  exact ⟨goal, hload, hidle⟩

theorem tracked_run (hchosen : selectEligibleNodeId store allIds = some nodeId)
    (hrun : (iterationLTS nodeId).Run { store } acts s) :
    Tracked nodeId (acts.foldl Marks.after {}) s := by
  refine hrun.history (P := fun acts s => Tracked nodeId (acts.foldl Marks.after {}) s) ?_ ?_
  · obtain ⟨goal, hload, hidle⟩ := selected_idle hchosen
    refine ⟨Option.isSome_of_eq_some hload, ?_, rfl, fun _ hgoal => nomatch hgoal⟩
    unfold status
    simp [hload, hidle]
  · intro acts s action s' _ hstep h
    rw [List.foldl_concat]
    exact h.step hstep

theorem unpaused_run (hchosen : selectEligibleNodeId store allIds = some nodeId)
    (hrun : (iterationLTS nodeId).Run { store } acts s)
    (hpause : ∀ copy, .pauseNodeLoop copy ∉ acts) : Unpaused nodeId acts s := by
  refine hrun.history (P := fun acts s => (∀ copy, .pauseNodeLoop copy ∉ acts) →
    Unpaused nodeId acts s) ?_ ?_ hpause
  · intro _
    obtain ⟨goal, hload, hidle⟩ := selected_idle hchosen
    refine ⟨?_, fun _ hgoal => absurd hgoal List.not_mem_nil, fun _ hgoal => (nomatch hgoal),
      List.not_mem_nil, List.not_mem_nil⟩
    unfold running
    simp [hload, hidle]
  · intro acts s action s' _ hstep ih hpause
    refine (ih fun copy hcopy => hpause copy (List.mem_append_left _ hcopy)).step hstep ?_
    rintro copy rfl
    exact hpause copy (List.mem_append_right _ List.mem_cons_self)

theorem not_running_of_paused (h : status nodeId s = some .paused) :
    running s.store nodeId = false := by
  obtain ⟨goal, hload, hpaused⟩ := Option.map_eq_some_iff.mp h
  unfold running
  rw [hload, Option.any_some, hpaused]
  rfl

/-- **The node is given back** exactly when the last save of it is of a paused goal, or when it
was not paused at all and either released or never marked. -/
theorem gives_back_iff (hchosen : selectEligibleNodeId store allIds = some nodeId)
    (hrun : (iterationLTS nodeId).Run { store } acts s) :
    GivesBack nodeId acts s ↔ KeepsNode acts := by
  have hpaused : status nodeId s = some .paused ↔ lastSavePauses acts = true :=
    (tracked_run hchosen hrun).paused
  by_cases hpause : ∀ copy, .pauseNodeLoop copy ∉ acts
  · have hrunning := (unpaused_run hchosen hrun hpause).running
    constructor
    · intro h
      have hnot := h.notRunning
      rw [← Bool.not_eq_true, hrunning, not_and_or, not_not] at hnot
      exact .inr ⟨hpause, hnot.symm⟩
    · intro h
      refine ⟨?_, fun copy hcopy => absurd hcopy (hpause copy)⟩
      rcases h with hlast | ⟨-, hreleased⟩
      · exact not_running_of_paused (hpaused.mpr hlast)
      · rw [← Bool.not_eq_true, hrunning, not_and_or, not_not]
        exact hreleased.symm
  · obtain ⟨copy, hcopy⟩ := not_forall_not.mp hpause
    constructor
    · exact fun h => .inl (hpaused.mp (h.paused copy hcopy))
    · rintro (hlast | ⟨hnone, -⟩)
      · exact ⟨not_running_of_paused (hpaused.mpr hlast), fun _ _ => hpaused.mpr hlast⟩
      · exact absurd hcopy (hnone copy)

/-! An iteration that completes its node, and one that is skipped at the limit of its node. -/

def sampleStore : GoalStore where
  loadGoal id := if id = "n" then some { id := "n" } else none
  loadGoal_id := by
    intro id goal h
    split at h
    · next hid =>
      cases h
      exact hid.symm
    · exact nomatch h

theorem sample_chosen : selectEligibleNodeId sampleStore ["n"] = some "n" := rfl

def completed : List Action :=
  [.loadSelected, .markRunning, .runOneIteration, .iterationReturns true, .loadNode, .release,
    .returns]

def skipped : List Action := [.loadSelected, .markRunning, .skipNode]

theorem completed_run :
    ∃ s, (iterationLTS "n").Run { store := sampleStore } completed s ∧ s.phase = .left :=
  ⟨_, .cons (Step.loadSelected rfl rfl) (.cons (Step.markRunning rfl) (.cons
    (Step.runOneIteration rfl) (.cons (Step.iterationReturns rfl) (.cons (Step.loadNode rfl rfl)
      (.cons (Step.release rfl) (.single (Step.returns rfl))))))), rfl⟩

theorem gives_back_completed : ∃ s, (iterationLTS "n").Run { store := sampleStore } completed s ∧
    s.phase = .left ∧ GivesBack "n" completed s := by
  obtain ⟨s, hrun, hleft⟩ := completed_run
  refine ⟨s, hrun, hleft, (gives_back_iff sample_chosen hrun).mpr (.inr ⟨?_, .inl ?_⟩)⟩
  · simp [completed]
  · simp [completed]

theorem skipped_not_given_back : ∃ s, (iterationLTS "n").Run { store := sampleStore } skipped s ∧
    s.phase = .left ∧ ¬GivesBack "n" skipped s :=
  ⟨_, .cons (Step.loadSelected rfl rfl) (.cons (Step.markRunning rfl) (.single
    (Step.skipNode rfl))), rfl, fun h => nomatch h.notRunning⟩

end PulSeed.TreeIteration
