import PulSeed.Loop.DurableRun
import PulSeed.Loop.TreeRun

/-!
# Completed runs of a tree (`durable-loop.ts`, `tree-loop-runner.ts`, `post-loop-hooks.ts`)

In tree mode the result of an iteration is that of the node it selected, and the run decides
by it whether it is completed. The root itself is judged when it is iterated, or when there is
nothing to select. So a run is completed by any node that is judged complete.

**A run is completed only by a judgment of its root exactly when** no iteration, from the
first index that may complete the run, makes another node complete, or finds a goal complete
that it does not judge (`completed_by_root_iff`).
-/

namespace PulSeed.TreeRun

open TreeLoop (Chosen GoalStore beginIteration endIteration)
open DurableLoop (Halt LoopIterationResult RunState pass)
open Drive (CompletionJudgment GoalStatus Streaks)

/-! ## Judgments -/

/-- The fields of a goal that the judge reads. -/
def judgedGoal (goal : TreeLoop.Goal) : Drive.Goal where
  id := goal.id
  status := goal.status
  dimensions := goal.dimensions.map (·.toDimension)
  children_ids := goal.children_ids

/-- What a judgment of a goal is made on: the goal as it was loaded, and the stored goals and
the streaks at the time. -/
structure Judging (goalId : String) where
  goal : Drive.Goal
  goal_id : goal.id = goalId
  loadGoal : String → Option Drive.Goal
  satisficingStreak : Streaks

/-- `judgeTreeCompletion` of a goal with children, `isGoalComplete` of another. -/
def Judging.judge (depth : ℕ) {goalId : String} (judging : Judging goalId) :
    Option CompletionJudgment :=
  if judging.goal.children_ids = [] then
    some (Drive.isGoalComplete judging.goal none judging.satisficingStreak).1
  else (Drive.judgeTreeCompletion judging.loadGoal none depth goalId
    judging.satisficingStreak).map (·.1)

/-! ## The iteration of a goal -/

/-- How far an iteration comes with the completion of its goal. -/
inductive Check (goalId : String)
  /-- It returns before `checkCompletionAndMilestones`. -/
  | unjudged
  /-- `runStateDiffCheck` skips it, and looks at the stored status. -/
  | unchanged (status : Option GoalStatus)
  /-- The goal is judged, and again after a task. -/
  | judged (check : Judging goalId) (recheck : Option (Judging goalId))

/-- `runOneIteration`: its result and the judgments that it makes. `other` has the other
fields of the result. -/
def runOneIteration (depth : ℕ) {goalId : String} (other : LoopIterationResult) :
    Check goalId → Option (LoopIterationResult × List CompletionJudgment)
  | .unjudged => some ({ other with completionJudgment := ⟨false, [], [], false⟩ }, [])
  | .unchanged status =>
    some ({ other with
      skipped := true
      completionJudgment := ⟨status = some .completed, [], [], false⟩ }, [])
  | .judged check none => do
    let judgment ← check.judge depth
    return ({ other with completionJudgment := judgment }, [judgment])
  | .judged check (some recheck) => do
    let judgment ← check.judge depth
    let postTaskJudgment ← recheck.judge depth
    return ({ other with completionJudgment := postTaskJudgment }, [judgment, postTaskJudgment])

/-- The goal comes out complete. -/
def Check.isComplete (depth : ℕ) {goalId : String} : Check goalId → Bool
  | .unjudged => false
  | .unchanged status => status = some .completed
  | .judged check none => (check.judge depth).any (·.is_complete)
  | .judged _ (some recheck) => (recheck.judge depth).any (·.is_complete)

/-- The goal is judged. -/
def Check.isJudged {goalId : String} : Check goalId → Bool
  | .judged _ _ => true
  | .unjudged | .unchanged _ => false

/-- The iteration is skipped. -/
def Check.skipped {goalId : String} (other : LoopIterationResult) : Check goalId → Bool
  | .unchanged _ => true
  | .unjudged | .judged _ _ => other.skipped

/-- **One iteration** is as complete as its goal, which it has judged so if it has judged it
at all. -/
theorem runOneIteration_spec {depth : ℕ} {goalId : String} {other result : LoopIterationResult}
    {check : Check goalId} {judgments : List CompletionJudgment}
    (h : runOneIteration depth other check = some (result, judgments)) :
    result.completionJudgment.is_complete = check.isComplete depth ∧
      result.finalizing = other.finalizing ∧ result.skipped = check.skipped other ∧
      (check.isComplete depth = true →
        ((∃ judgment ∈ judgments, judgment.is_complete = true) ↔ check.isJudged = true)) := by
  cases check with
  | unjudged =>
    cases h
    exact ⟨rfl, rfl, rfl, fun h => nomatch h⟩
  | unchanged status =>
    cases h
    exact ⟨rfl, rfl, rfl, fun _ => ⟨fun ⟨_, hmem, _⟩ => absurd hmem List.not_mem_nil,
      fun h => nomatch h⟩⟩
  | judged check recheck =>
    obtain ⟨judgment, hjudgment, h⟩ : ∃ judgment, check.judge depth = some judgment ∧
        runOneIteration depth other (.judged check recheck) = some (result, judgments) := by
      cases recheck with
      | none =>
        obtain ⟨judgment, hjudgment, -⟩ := Option.bind_eq_some_iff.mp h
        exact ⟨judgment, hjudgment, h⟩
      | some recheck =>
        obtain ⟨judgment, hjudgment, -⟩ := Option.bind_eq_some_iff.mp h
        exact ⟨judgment, hjudgment, h⟩
    cases recheck with
    | none =>
      simp only [runOneIteration, hjudgment, Option.bind_eq_bind, Option.bind_some] at h
      cases h
      refine ⟨?_, rfl, rfl, fun hcomplete => iff_of_true ?_ rfl⟩
      · simp [Check.isComplete, hjudgment]
      · simp only [Check.isComplete, hjudgment, Option.any_some] at hcomplete
        exact ⟨judgment, List.mem_singleton_self _, hcomplete⟩
    | some recheck =>
      simp only [runOneIteration, hjudgment, Option.bind_eq_bind, Option.bind_some] at h
      obtain ⟨postTaskJudgment, hpost, h⟩ := Option.bind_eq_some_iff.mp h
      cases h
      refine ⟨?_, rfl, rfl, fun hcomplete => iff_of_true ?_ rfl⟩
      · simp [Check.isComplete, hpost]
      · simp only [Check.isComplete, hpost, Option.any_some] at hcomplete
        exact ⟨postTaskJudgment, by simp, hcomplete⟩

/-! ## The run -/

/-- What the iteration under way is made on. -/
inductive Current
  | flat
  | node (id : String)
  /-- The selected node has reached its limit. -/
  | limitReached
  | nothing
  deriving DecidableEq

/-- The goal that is iterated. -/
def Current.goalId (rootId : String) : Current → Option String
  | .flat => some rootId
  | .node id => some id
  | .limitReached | .nothing => none

/-- A run of a tree: the variables of the loop, the stored goals, the iterations of each node,
the iteration under way, and the judgments of the last one with the goals judged. -/
structure State where
  loop : RunState
  store : GoalStore
  nodeConsumedMap : String → ℕ := fun _ => 0
  current : Option Current := none
  judged : List (String × CompletionJudgment) := []

/-- An event of a run; `allowed` and `stopped` are as in a `Turn`. -/
inductive Event
  /-- The run is left before an iteration. -/
  | halted (why : Halt)
  /-- An iteration selects a node. -/
  | begin (refined : Option GoalStore) (pending : Option (String → Bool)) (turns : ℕ)
  /-- The iteration of a goal returns. -/
  | iterated (goalId : String) (check : Check goalId) (other : LoopIterationResult)
      (allowed stopped : Bool)
  /-- The root is judged, when nothing is selected. -/
  | judgeRoot (satisficingStreak : Streaks) (allowed stopped : Bool)
  /-- The iteration of a node that has reached its limit. -/
  | skipNode (stopped : Bool)
  | threw (aborted : Bool)
  /-- `runPostLoopHooks`, when the run has ended. -/
  | postLoopHooks (dryRun : Bool)
  /-- Goals are stored by others, or by the iteration of a goal. -/
  | change (store : GoalStore)

section Run

variable (config : TreeLoop.Config) (loopConfig : DurableLoop.Config) (perNodeLimit : Option ℕ)
variable (rootId : String) (startLoopIndex : ℕ)

/-- A run of the stored goals. -/
def start (store : GoalStore) : State where
  loop := DurableLoop.start loopConfig startLoopIndex
  store := store

/-- The iteration returns a result. -/
def State.returned (s : State) (result : LoopIterationResult)
    (judged : List (String × CompletionJudgment)) (allowed stopped : Bool) : State :=
  { s with loop := pass loopConfig s.loop (.returned result allowed stopped), current := none, judged }

/-- The check of the limit of the selected node, which counts its iterations. -/
def State.enter (s : State) : Chosen → State
  | .flat => { s with current := some .flat, judged := [] }
  | .nothing => { s with current := some .nothing, judged := [] }
  | .node id =>
    match perNodeLimit with
    | none => { s with current := some (.node id), judged := [] }
    | some limit =>
      if limit ≤ s.nodeConsumedMap id then { s with current := some .limitReached, judged := [] }
      else { s with
        nodeConsumedMap := Function.update s.nodeConsumedMap id (s.nodeConsumedMap id + 1)
        current := some (.node id)
        judged := [] }

/-- The judgment of a root, when nothing is selected; a root that is missing is not judged. -/
def judgeRoot (depth : ℕ) (store : GoalStore) (satisficingStreak : Streaks) :
    Option (CompletionJudgment × List (String × CompletionJudgment)) :=
  match h : store.loadGoal rootId with
  | none => some (⟨false, [], [], false⟩, [])
  | some root =>
    let judging : Judging rootId :=
      { goal := judgedGoal root
        goal_id := store.loadGoal_id h
        loadGoal := fun id => (store.loadGoal id).map judgedGoal
        satisficingStreak }
    (judging.judge depth).map fun judgment => (judgment, [(rootId, judgment)])

/-- What is stored after the iteration of a goal: one that was not selected is left as it is. -/
def State.ended (s : State) (goalId : String) (complete : Bool) : Option GoalStore :=
  if s.current = some .flat then some s.store else endIteration config goalId complete s.store

/-- One event. -/
def step (s : State) : Event → Option State
  | .halted why =>
    if s.current = none ∧ s.loop.continues loopConfig startLoopIndex = true then
      some { s with loop := pass loopConfig s.loop (.halted why) }
    else none
  | .begin refined pending turns =>
    if s.current = none ∧ s.loop.continues loopConfig startLoopIndex = true then do
      let (store, chosen) ←
        beginIteration config rootId s.loop.loopIndex refined pending turns s.store
      return { s with store }.enter perNodeLimit chosen
    else none
  | .iterated goalId check other allowed stopped =>
    if s.current.bind (Current.goalId rootId) = some goalId then do
      let (result, judgments) ← runOneIteration config.depth other check
      let store ← s.ended config goalId result.completionJudgment.is_complete
      return { s with store }.returned loopConfig result (judgments.map (goalId, ·)) allowed stopped
    else none
  | .judgeRoot satisficingStreak allowed stopped =>
    if s.current = some .nothing then do
      let (completionJudgment, judged) ← judgeRoot rootId config.depth s.store satisficingStreak
      return s.returned loopConfig { completionJudgment } judged allowed stopped
    else none
  | .skipNode stopped =>
    if s.current = some .limitReached then
      some (s.returned loopConfig { skipped := true } [] true stopped)
    else none
  | .threw aborted =>
    if s.current = none then none
    else some { s with loop := pass loopConfig s.loop (.threw aborted), current := none }
  | .postLoopHooks dryRun =>
    if s.current = none ∧ s.loop.continues loopConfig startLoopIndex = false then
      match s.store.loadGoal rootId with
      | some goalState =>
        if s.loop.finalStatus = .completed ∧ dryRun = false then
          some { s with store := s.store.put { goalState with status := .completed } }
        else some s
      | none => some s
    else none
  | .change store => some { s with store }

/-- The system of the run of a root. -/
def treeRunLTS : LTS State Event :=
  .ofPartial (step config loopConfig perNodeLimit rootId startLoopIndex)

/-- A run that is completed has judged its root complete in its last iteration. -/
def CompletedByRoot (s : State) : Prop :=
  s.loop.finalStatus = .completed →
    ∃ judgment, (rootId, judgment) ∈ s.judged ∧ judgment.is_complete = true

/-- An iteration that comes out complete, where that may complete the run, is one of the root,
and has judged it. -/
def CompletesByRoot (s : State) : Event → Prop
  | .iterated goalId check other allowed _ =>
    check.isComplete config.depth = true → other.finalizing = false →
      check.skipped other = true ∨ allowed = true →
        loopConfig.minIterations ≤ s.loop.loopIndex + 1 → goalId = rootId ∧ check.isJudged = true
  | _ => True

end Run

section Proofs

variable {config : TreeLoop.Config} {loopConfig : DurableLoop.Config} {perNodeLimit : Option ℕ}
variable {rootId : String} {startLoopIndex : ℕ}

/-- A run that goes on is not completed, and goes on during an iteration. -/
structure Ongoing (s : State) : Prop where
  open_status : s.loop.ending = none → s.loop.finalStatus ≠ .completed
  iterating : s.current ≠ none → s.loop.ending = none

theorem Ongoing.returned {s : State} (h : s.loop.finalStatus ≠ .completed)
    (result : LoopIterationResult) (judged : List (String × CompletionJudgment))
    (allowed stopped : Bool) : Ongoing (s.returned loopConfig result judged allowed stopped) where
  open_status hending := DurableLoop.pass_continuing h hending
  iterating hcurrent := absurd rfl hcurrent

theorem Ongoing.enter {s : State} (hstatus : s.loop.ending = none → s.loop.finalStatus ≠ .completed)
    (hending : s.loop.ending = none) (chosen : Chosen) : Ongoing (s.enter perNodeLimit chosen) := by
  unfold State.enter
  cases chosen with
  | flat => exact ⟨hstatus, fun _ => hending⟩
  | nothing => exact ⟨hstatus, fun _ => hending⟩
  | node id =>
    cases perNodeLimit with
    | none => exact ⟨hstatus, fun _ => hending⟩
    | some limit =>
      dsimp only
      split_ifs
      · exact ⟨hstatus, fun _ => hending⟩
      · exact ⟨hstatus, fun _ => hending⟩

/-- Where an iteration leaves the run, and with which judgments: nowhere, in the next iteration,
out of the loop, or with a result. A result that completes the run does so by a judgment of the
root exactly when the event does. -/
inductive Leads (config : TreeLoop.Config) (loopConfig : DurableLoop.Config)
    (perNodeLimit : Option ℕ) (rootId : String) (s : State) (event : Event) : State → Prop
  | quiet {m : State} (hloop : m.loop = s.loop) (hcurrent : m.current = s.current)
      (hjudged : m.judged = s.judged)
      (hevent : CompletesByRoot config loopConfig rootId s event) :
      Leads config loopConfig perNodeLimit rootId s event m
  | entered {m : State} {chosen : Chosen} (hloop : m.loop = s.loop) (hending : s.loop.ending = none)
      (hevent : CompletesByRoot config loopConfig rootId s event) :
      Leads config loopConfig perNodeLimit rootId s event (m.enter perNodeLimit chosen)
  | left {m : State} (turn : DurableLoop.Turn) (hloop : m.loop = pass loopConfig s.loop turn)
      (hturn : ∀ result allowed stopped, turn ≠ .returned result allowed stopped)
      (hcurrent : m.current = none) (hending : s.loop.ending = none)
      (hevent : CompletesByRoot config loopConfig rootId s event) :
      Leads config loopConfig perNodeLimit rootId s event m
  | returned {m : State} {result : LoopIterationResult}
      {judged : List (String × CompletionJudgment)} {allowed stopped : Bool}
      (hloop : m.loop = s.loop) (hcurrent : s.current ≠ none)
      (hevent : ((result.skipped = true ∨ allowed = true) ∧ result.finalizing = false ∧
          result.completionJudgment.is_complete = true ∧
            loopConfig.minIterations ≤ s.loop.loopIndex + 1 →
          ∃ judgment, (rootId, judgment) ∈ judged ∧ judgment.is_complete = true) ↔
        CompletesByRoot config loopConfig rootId s event) :
      Leads config loopConfig perNodeLimit rootId s event
        (m.returned loopConfig result judged allowed stopped)

theorem ending_of_continues {s : State}
    (h : s.loop.continues loopConfig startLoopIndex = true) : s.loop.ending = none := by
  unfold RunState.continues at h
  exact of_decide_eq_true (Bool.and_eq_true_iff.mp h).1

/-- The result of a goal that was iterated. -/
theorem iterated_leads {s : State} {goalId : String} {check : Check goalId}
    {other result : LoopIterationResult} {judgments : List CompletionJudgment}
    {allowed stopped : Bool} (h : runOneIteration config.depth other check = some (result, judgments)) :
    ((result.skipped = true ∨ allowed = true) ∧ result.finalizing = false ∧
        result.completionJudgment.is_complete = true ∧
          loopConfig.minIterations ≤ s.loop.loopIndex + 1 →
        ∃ judgment, (rootId, judgment) ∈ judgments.map (goalId, ·) ∧
          judgment.is_complete = true) ↔
      CompletesByRoot config loopConfig rootId s (.iterated goalId check other allowed stopped) := by
  obtain ⟨hcomplete, hfinal, hskipped, hjudged⟩ := runOneIteration_spec h
  have hroot : check.isComplete config.depth = true →
      ((∃ judgment, (rootId, judgment) ∈ judgments.map (goalId, ·) ∧
        judgment.is_complete = true) ↔ goalId = rootId ∧ check.isJudged = true) := by
    intro hcheck
    rw [← hjudged hcheck]
    constructor
    · rintro ⟨judgment, hmem, hjudgment⟩
      obtain ⟨_, hmem, heq⟩ := List.mem_map.mp hmem
      cases heq
      exact ⟨rfl, judgment, hmem, hjudgment⟩
    · rintro ⟨rfl, judgment, hmem, hjudgment⟩
      exact ⟨judgment, List.mem_map_of_mem hmem, hjudgment⟩
  unfold CompletesByRoot
  dsimp only
  rw [hcomplete, hfinal, hskipped]
  constructor
  · intro hall hcheck hfinal hgoes hindex
    exact (hroot hcheck).mp (hall ⟨hgoes, hfinal, hcheck, hindex⟩)
  · rintro hall ⟨hgoes, hfinal, hcheck, hindex⟩
    exact (hroot hcheck).mpr (hall hcheck hfinal hgoes hindex)

/-- **What one event does.** -/
theorem step_leads {s s' : State} {event : Event} (hs : Ongoing s)
    (h : step config loopConfig perNodeLimit rootId startLoopIndex s event = some s') :
    Leads config loopConfig perNodeLimit rootId s event s' := by
  cases event with
  | halted why =>
    dsimp only [step] at h
    split at h
    · next hguard =>
      cases h
      exact .left (.halted why) rfl (by simp) hguard.1 (ending_of_continues hguard.2) trivial
    · exact nomatch h
  | begin refined pending turns =>
    dsimp only [step] at h
    split at h
    · next hguard =>
      obtain ⟨⟨store, chosen⟩, -, h⟩ := Option.bind_eq_some_iff.mp h
      cases h
      exact .entered rfl (ending_of_continues hguard.2) trivial
    · exact nomatch h
  | iterated goalId check other allowed stopped =>
    dsimp only [step] at h
    split at h
    · next hguard =>
      obtain ⟨⟨result, judgments⟩, hresult, h⟩ := Option.bind_eq_some_iff.mp h
      obtain ⟨store, -, h⟩ := Option.bind_eq_some_iff.mp h
      cases h
      refine .returned rfl (fun hnone => ?_) (iterated_leads hresult)
      rw [hnone] at hguard
      exact nomatch hguard
    · exact nomatch h
  | judgeRoot satisficingStreak allowed stopped =>
    dsimp only [step] at h
    split at h
    · next hguard =>
      obtain ⟨⟨judgment, judged⟩, hjudged, h⟩ := Option.bind_eq_some_iff.mp h
      cases h
      refine .returned rfl (by simp [hguard]) (iff_of_true ?_ trivial)
      rintro ⟨-, -, hcomplete, -⟩
      unfold judgeRoot at hjudged
      split at hjudged
      · cases hjudged
        exact nomatch hcomplete
      · obtain ⟨judgment', -, heq⟩ := Option.map_eq_some_iff.mp hjudged
        cases heq
        exact ⟨_, List.mem_singleton_self _, hcomplete⟩
    · exact nomatch h
  | skipNode stopped =>
    dsimp only [step] at h
    split at h
    · next hguard =>
      cases h
      exact .returned rfl (by simp [hguard])
        (iff_of_true (fun hcomplete => absurd hcomplete.2.2.1 Bool.false_ne_true) trivial)
    · exact nomatch h
  | threw aborted =>
    dsimp only [step] at h
    split at h
    · exact nomatch h
    · next hguard =>
      cases h
      exact .left (.threw aborted) rfl (by simp) rfl (hs.iterating hguard) trivial
  | postLoopHooks dryRun =>
    dsimp only [step] at h
    split at h
    · split at h
      · split at h
        · cases h
          exact .quiet rfl rfl rfl trivial
        · cases h
          exact .quiet rfl rfl rfl trivial
      · cases h
        exact .quiet rfl rfl rfl trivial
    · exact nomatch h
  | change store =>
    cases h
    exact .quiet rfl rfl rfl trivial

/-- **One event** keeps a run from being completed while it goes on. -/
theorem Ongoing.step {s s' : State} {event : Event} (hs : Ongoing s)
    (h : step config loopConfig perNodeLimit rootId startLoopIndex s event = some s') :
    Ongoing s' := by
  cases step_leads hs h with
  | quiet hloop hcurrent =>
    refine ⟨?_, ?_⟩
    · rw [hloop]
      exact hs.open_status
    · rw [hloop, hcurrent]
      exact hs.iterating
  | entered hloop hending =>
    refine .enter ?_ (hloop ▸ hending) _
    rw [hloop]
    exact hs.open_status
  | left turn hloop hturn hcurrent hending =>
    refine ⟨?_, fun h => absurd hcurrent h⟩
    rw [hloop]
    exact DurableLoop.pass_continuing (hs.open_status hending)
  | returned hloop hcurrent =>
    exact .returned (hloop ▸ hs.open_status (hs.iterating hcurrent)) _ _ _ _

theorem State.enter_loop (s : State) (chosen : Chosen) :
    (s.enter perNodeLimit chosen).loop = s.loop := by
  unfold State.enter
  split
  · rfl
  · rfl
  · split
    · rfl
    · split <;> rfl

/-- **One event** keeps the completion by the root exactly when it completes by the root. -/
theorem completedByRoot_step_iff {s s' : State} {event : Event} (hs : Ongoing s)
    (hroot : CompletedByRoot rootId s)
    (h : step config loopConfig perNodeLimit rootId startLoopIndex s event = some s') :
    CompletedByRoot rootId s' ↔ CompletesByRoot config loopConfig rootId s event := by
  cases step_leads hs h with
  | quiet hloop hcurrent hjudged hevent =>
    refine iff_of_true ?_ hevent
    unfold CompletedByRoot
    rw [hloop, hjudged]
    exact hroot
  | entered hloop hending hevent =>
    refine iff_of_true (fun hcompleted => ?_) hevent
    rw [State.enter_loop, hloop] at hcompleted
    exact absurd hcompleted (hs.open_status hending)
  | left turn hloop hturn hcurrent hending hevent =>
    refine iff_of_true (fun hcompleted => ?_) hevent
    rw [hloop] at hcompleted
    exact absurd hcompleted (DurableLoop.pass_not_completed (hs.open_status hending) hturn)
  | returned hloop hcurrent hevent =>
    rw [← hevent]
    unfold CompletedByRoot State.returned
    dsimp only
    rw [hloop, DurableLoop.pass_completed_iff (hs.open_status (hs.iterating hcurrent))]

/-- **A run is completed only by a judgment of its root**, in every state of it, exactly when
every iteration that may complete it is one of the root that judges it complete, or comes out
incomplete. -/
theorem completed_by_root_iff {store : GoalStore} {events : List Event} {s : State}
    (hrun : (treeRunLTS config loopConfig perNodeLimit rootId startLoopIndex).Run
      (start loopConfig startLoopIndex store) events s) :
    (treeRunLTS config loopConfig perNodeLimit rootId startLoopIndex).Throughout
        (start loopConfig startLoopIndex store) events (CompletedByRoot rootId) ↔
      (treeRunLTS config loopConfig perNodeLimit rootId startLoopIndex).Always
        (start loopConfig startLoopIndex store) events
        (CompletesByRoot config loopConfig rootId) := by
  have hopen : (start loopConfig startLoopIndex store).loop.finalStatus ≠ .completed := by
    unfold start DurableLoop.start
    dsimp only
    split <;> nofun
  exact hrun.throughout_iff_partial_of_inv (J := Ongoing)
    ⟨fun _ => hopen, fun h => absurd rfl h⟩ (fun _ _ _ hstep hs => hs.step hstep)
    (fun h => absurd h hopen)
    fun _ _ _ hstep hs hroot => completedByRoot_step_iff hs hroot hstep

end Proofs

/-! A root without children that is judged complete, and a root with two children, the first of
which is judged complete while the second has no value yet. -/

def singleGoal : GoalStore where
  loadGoal id := if id = "r" then some { id := "r" } else none
  loadGoal_id := by
    intro id goal h
    split at h
    · next hid => cases h; exact hid.symm
    · exact nomatch h

def twoChildren : GoalStore where
  loadGoal id :=
    if id = "r" then some { id := "r", children_ids := ["a", "b"] }
    else if id = "a" then some { id := "a", parent_id := some "r", node_type := .leaf }
    else if id = "b" then some
      { id := "b"
        parent_id := some "r"
        dimensions := [{ name := "tests", current_value := none, threshold := .present,
                         confidence := .finite 1 }] }
    else none
  loadGoal_id := by
    intro id goal h
    split at h
    · next hid => cases h; exact hid.symm
    · split at h
      · next hid => cases h; exact hid.symm
      · split at h
        · next hid => cases h; exact hid.symm
        · exact nomatch h

def sampleConfig : TreeLoop.Config where
  depth := 3

/-- The judgment of a goal without dimensions. -/
def noDimensions (goalId : String) : Judging goalId where
  goal := { id := goalId, dimensions := [] }
  goal_id := rfl
  loadGoal _ := none
  satisficingStreak _ := 0

def rootEvents : List Event :=
  [.begin none none 0, .iterated "r" (.judged (noDimensions "r") none) {} true false]

def childEvents : List Event :=
  [.begin none none 0, .iterated "a" (.judged (noDimensions "a") none) {} true false,
    .postLoopHooks false]

theorem completed_by_root_single :
    (∃ s, (treeRunLTS sampleConfig {} none "r" 0).Run (start {} 0 singleGoal) rootEvents s ∧
      s.loop.finalStatus = .completed) ∧
    (treeRunLTS sampleConfig {} none "r" 0).Throughout (start {} 0 singleGoal) rootEvents
      (CompletedByRoot "r") := by
  have hrun : ∃ s, (treeRunLTS sampleConfig {} none "r" 0).Run (start {} 0 singleGoal)
      rootEvents s ∧ s.loop.finalStatus = .completed := ⟨_, LTS.run_execPartial rfl, rfl⟩
  refine ⟨hrun, (completed_by_root_iff hrun.choose_spec.1).mpr (LTS.ExecPartialAlways.always
    ⟨trivial, fun _ _ _ _ => ⟨rfl, rfl⟩, trivial⟩)⟩

/-- The run of the root is completed by its child, and the root is stored as completed,
although it is not complete. -/
theorem completed_by_child :
    ∃ s, (treeRunLTS sampleConfig {} none "r" 0).Run (start {} 0 twoChildren) childEvents s ∧
      s.loop.finalStatus = .completed ∧ ¬CompletedByRoot "r" s ∧
      (s.store.loadGoal "r").any (·.status = .completed) = true ∧
      ∃ judgment judged, judgeRoot "r" sampleConfig.depth s.store (fun _ => 0) =
        some (judgment, judged) ∧ judgment.is_complete = false := by
  refine ⟨_, LTS.run_execPartial rfl, rfl, fun h => ?_, rfl, _, _, rfl, by decide⟩
  obtain ⟨judgment, hjudgment, -⟩ := h rfl
  have hgoal : "r" = "a" := congrArg Prod.fst (List.mem_singleton.mp hjudgment)
  exact absurd hgoal (by decide)

end PulSeed.TreeRun
