import PulSeed.Lib.Transition
import PulSeed.Pipeline.Executor

/-!
# Groups of subtasks (`orchestrator/execution/parallel-executor.ts`)

The subtasks of a group run in waves: a wave holds the subtasks whose dependencies are
completed, and when none is left without an open dependency the rest is the last wave. The
subtasks of a wave are taken by workers, each the next one as soon as it is free.

- `buildExecutionOrder`: the waves.
- `Event`, `step`: the execution as a transition system. The workers of a wave and the ends of
  its subtasks come in any order.
- `aggregateVerdict`: the verdict of the group.
-/

namespace PulSeed.Parallel

open Pipeline

/-! ## Data -/

/-- A subtask: the fields of `TaskSchema` that its run needs. -/
structure Subtask where
  id : String
  work_description : String

/-- `TaskGroupSchema`. A dependency is a pair of `from` and `to`. -/
structure TaskGroup where
  subtasks : List Subtask
  dependencies : List (String × String) := []
  file_ownership : List (String × List String) := []
  shared_context : Option String := none

def TaskGroup.ids (group : TaskGroup) : List String := group.subtasks.map (·.id)

/-- `SubtaskResult`. -/
structure SubtaskResult where
  task_id : String
  verdict : Verdict
  output : String
  error : Option String := none
  deriving DecidableEq

/-- `validateFileOwnership`. -/
def validateFileOwnership (group : TaskGroup) : List String :=
  group.file_ownership.filterMap fun (file, owners) =>
    if 1 < owners.length then
      let names := ", ".intercalate owners
      some s!"File \"{file}\" is owned by multiple tasks: {names}"
    else none

/-! ## The order of execution -/

/-- `dependsOn.get(id)`, of a subtask of the group. -/
def dependsOn (group : TaskGroup) (id : String) : List String :=
  (group.dependencies.filter (·.2 = id)).map (·.1)

/-- The subtasks that are left whose dependencies are all completed. -/
def readyTasks (group : TaskGroup) (completed remaining : List String) : List String :=
  remaining.filter fun id => (dependsOn group id).all (· ∈ completed)

/-- The loop of `buildExecutionOrder`. Every turn but the last takes a subtask, so that as many
turns as there are subtasks left are enough. -/
def buildWaves (group : TaskGroup) : ℕ → List String → List String → List (List String)
  | 0, _, _ => []
  | turns + 1, completed, remaining =>
    if remaining = [] then []
    else
      let wave := readyTasks group completed remaining
      if wave = [] then [remaining]
      else wave :: buildWaves group turns (completed ++ wave) (remaining.filter (· ∉ wave))

/-- `buildExecutionOrder`. -/
def buildExecutionOrder (group : TaskGroup) : List (List String) :=
  buildWaves group group.ids.length [] group.ids.eraseDups

/-! ## Running the subtasks -/

/-- The pipeline of a subtask. -/
def subtaskPipeline (group : TaskGroup) (strategyId : Option String) : TaskPipeline where
  stages := [{ role := .implementor }]
  fail_fast := false
  shared_context := group.shared_context
  strategy_id := strategyId

/-- `runSubtask`, from what is stored for the subtask and the answers that its run gets.
`pipelineId` is `deterministicPipelineId` of its pipeline. -/
def runSubtask (deps : Deps) (group : TaskGroup) (strategyId : Option String)
    (pipelineId : String → String) (answers : Answers) (restored : Option PipelineState)
    (taskId : String) : SubtaskResult :=
  match group.subtasks.find? (·.id = taskId) with
  | none => { task_id := taskId, verdict := .fail, output := "", error := some "Subtask not found" }
  | some subtask =>
    let input : Input := {
      taskId := taskId
      prompt := subtask.work_description
      pipeline := subtaskPipeline group strategyId
      pipelineId := pipelineId taskId }
    match (run deps input answers restored).result with
    | .error error => { task_id := taskId, verdict := .fail, output := "", error := some error }
    | .ok result => {
        task_id := taskId
        verdict := result.final_verdict
        output := (result.stage_results.getLast?.map (·.output)).getD "" }

/-- `aggregateVerdict`. -/
def aggregateVerdict (results : List SubtaskResult) : Verdict :=
  if results.isEmpty then .fail
  else if !results.any (·.verdict = .fail) then .pass
  else if results.any (·.verdict = .pass) then .partly
  else .fail

/-! ## The execution -/

/-- A call of `runNext`: at the head of its loop, waiting for a task, or finished. -/
inductive Worker
  | free
  | busy (index : ℕ)
  | finished
  deriving DecidableEq

/-- `runWithSemaphore` on the subtasks of a wave. -/
structure Wave where
  tasks : List String
  nextIndex : ℕ
  workers : List Worker
  results : List (Option SubtaskResult)
  deriving DecidableEq

/-- Where `execute` is: the waves to come, the wave under way, and the results so far. -/
structure State where
  waves : List (List String)
  wave : Option Wave := none
  allResults : List (Option SubtaskResult) := []
  deriving DecidableEq

inductive Event
  /-- The next wave begins. -/
  | openWave
  /-- A free worker takes the next subtask. -/
  | take (worker : ℕ)
  /-- The subtask of a worker ends. -/
  | finish (worker : ℕ) (verdict : Verdict) (output : String) (error : Option String)
  /-- A free worker finds no subtask left. -/
  | leave (worker : ℕ)
  /-- All workers of the wave have finished. -/
  | closeWave
  deriving DecidableEq

/-- The start of a wave. -/
def startWave (concurrencyLimit : ℕ) (tasks : List String) : Wave where
  tasks := tasks
  nextIndex := 0
  workers := List.replicate (min concurrencyLimit tasks.length) .free
  results := List.replicate tasks.length none

/-- A step within a wave. -/
def stepWave (wave : Wave) : Event → Option Wave
  | .take worker =>
    if wave.workers[worker]? = some .free ∧ wave.nextIndex < wave.tasks.length then
      some { wave with
        nextIndex := wave.nextIndex + 1
        workers := wave.workers.set worker (.busy wave.nextIndex) }
    else none
  | .finish worker verdict output error =>
    match wave.workers[worker]? with
    | some (.busy index) => wave.tasks[index]?.map fun taskId =>
        { wave with
          workers := wave.workers.set worker .free
          results := wave.results.set index (some {
            task_id := taskId
            verdict := verdict
            output := output
            error := error }) }
    | _ => none
  | .leave worker =>
    if wave.workers[worker]? = some .free ∧ wave.tasks.length ≤ wave.nextIndex then
      some { wave with workers := wave.workers.set worker .finished }
    else none
  | .openWave | .closeWave => none

/-- A step of `execute`. -/
def step (concurrencyLimit : ℕ) (s : State) (event : Event) : Option State :=
  match s.wave, event with
  | none, .openWave =>
    match s.waves with
    | [] => none
    | tasks :: waves => some { s with
        waves := waves
        wave := some (startWave concurrencyLimit tasks) }
  | none, _ => none
  | some wave, .closeWave =>
    if wave.workers.all (· = .finished) then
      some { s with wave := none, allResults := s.allResults ++ wave.results }
    else none
  | some wave, event => (stepWave wave event).map fun wave => { s with wave := some wave }

/-- The start of `execute`; it throws when a file has several owners. -/
def begin (group : TaskGroup) : Except String State :=
  let conflicts := validateFileOwnership group
  if conflicts = [] then .ok { waves := buildExecutionOrder group }
  else .error ("[ParallelExecutor] File ownership conflicts detected:\n" ++
    "\n".intercalate conflicts)

/-- The executions of a group. -/
def executionLTS (concurrencyLimit : ℕ) : LTS State Event := .ofPartial (step concurrencyLimit)

/-- `execute` is at its end. -/
def Done (s : State) : Prop := s.waves = [] ∧ s.wave = none

/-- `overall_verdict` and `results` at the end of `execute`. -/
def State.results (s : State) : List SubtaskResult := s.allResults.filterMap id

def State.overallVerdict (s : State) : Verdict := aggregateVerdict s.results

end PulSeed.Parallel
