import Mathlib.Algebra.Order.Ring.Rat
import Mathlib.Data.List.Basic

/-!
# Pipelines (`orchestrator/execution/pipeline-executor.ts`)

A pipeline runs its stages one after another. A stage is attempted up to three times, the
second time with another adapter and the last only with an approval; an implementor stage may
first need a plan that is approved. The state of the pipeline is stored after each stage, so
that a run that was interrupted can go on.

A run is a `Logged` computation: what it does, in order, and what it returns, if it does not
throw. What the adapters, the tools and the operators answer is given by `Answers`, by stage
and attempt, so that every sequence of answers is one of them.

- `Ending`: what ended the attempts of a stage.
- `runStages`: the loop over the stages.
- `run`: a whole run, from the state that is stored when it starts.
-/

namespace PulSeed.Pipeline

/-! ## Data -/

/-- `VerdictEnum`; `partly` is `"partial"`. -/
inductive Verdict
  | pass | partly | fail
  deriving DecidableEq

inductive StoppedReason
  | completed | timeout | error | cancelled | blocked | policy_blocked
  deriving DecidableEq

/-- `AgentResult`; `isAgentResult` lets the reason be missing. -/
structure AgentResult where
  success : Bool
  output : String
  error : Option String := none
  stopped_reason : Option StoppedReason
  deriving DecidableEq

/-- `TaskRoleSchema`. -/
inductive Role
  | implementor | reviewer | verifier | researcher
  deriving DecidableEq

/-- `TaskDomainSchema`. -/
inductive TaskDomain
  | code | data | api_action | research | communication | monitoring
  deriving DecidableEq

structure CapabilityRequirement where
  domain : TaskDomain
  preferred_adapter : Option String := none

/-- `PipelineStageSchema`. -/
structure PipelineStage where
  role : Role
  capability_requirement : Option CapabilityRequirement := none
  prompt_override : Option String := none

/-- `TaskPipelineSchema`, with the `plan_required` of the executor. -/
structure TaskPipeline where
  stages : List PipelineStage
  fail_fast : Bool := true
  shared_context : Option String := none
  strategy_id : Option String := none
  plan_required : Bool := false

/-- `StageResultSchema`. -/
structure StageResult where
  stage_index : ℕ
  role : Role
  verdict : Verdict
  output : String
  confidence : ℚ
  idempotency_key : String
  deriving DecidableEq

inductive PipelineStatus
  | running | completed | failed | interrupted
  deriving DecidableEq

/-- `PipelineStateSchema`, without its times. -/
structure PipelineState where
  pipeline_id : String
  task_id : String
  current_stage_index : ℕ
  completed_stages : List StageResult
  status : PipelineStatus
  deriving DecidableEq

/-- `PipelineRunResult`. -/
structure PipelineRunResult where
  pipeline_id : String
  final_verdict : Verdict
  stage_results : List StageResult
  status : PipelineStatus
  deriving DecidableEq

/-- `PlanApprovalResult`. -/
structure PlanApprovalResult where
  approved : Bool
  plan : String
  modified_plan : Option String := none

/-- What `executeAdapterWithCircuitBreaker` meets: the circuit breaker of the adapter is open,
or the `run-adapter` tool answers with an agent result, with other data, without data, or
throws. -/
inductive AdapterAnswer
  | unavailable
  | executed (result : AgentResult)
  | invalid
  | notExecuted (reason error : Option String) (summary : String)
  | threw (message : String)

/-- What a run of a task is given: the arguments of `run`, and the id that
`deterministicPipelineId` makes of the task and the pipeline. -/
structure Input where
  taskId : String
  prompt : String
  pipeline : TaskPipeline
  pipelineId : String
  observationContext : Option String := none
  trustScore : Option ℚ := none

/-- `PipelineExecutorDeps`: the registered adapters, in order, whether there is an
`approvalFn` and a `strategyFeedbackFn`, and what finds an alternative adapter. -/
structure Deps where
  adapters : List String
  approvalFn : Bool := false
  strategyFeedbackFn : Bool := false
  findAlternativeAdapter : Option (TaskDomain → String → Option String) := none
  maxRetries : ℕ := 3

/-- The answers that a run gets: for the plan of a stage and its approval, for each attempt of
a stage and for the approval of its last one. -/
structure Answers where
  plan : ℕ → AdapterAnswer
  approvePlan : ℕ → Bool
  attempt : ℕ → ℕ → AdapterAnswer
  approveRetry : ℕ → Bool

/-! ## Adapters and verdicts -/

/-- `mapResultToVerdict`. -/
def mapResultToVerdict (result : AgentResult) : Verdict :=
  if result.stopped_reason = some .error ∨ result.stopped_reason = some .timeout then .fail
  else if result.success then .pass
  else .partly

/-- `buildNotExecutedAdapterResult`. -/
def buildNotExecutedAdapterResult (reason output : String) (errorOverride : Option String) :
    AgentResult where
  success := false
  output := output
  error := some (errorOverride.getD reason)
  stopped_reason := some .error

/-- `text ? text : undefined`. -/
def truthy (text : Option String) : Option String := text.filter (· ≠ "")

/-- `executeAdapterWithCircuitBreaker`. -/
def executeAdapterWithCircuitBreaker (adapter : String) : AdapterAnswer → AgentResult
  | .unavailable => {
      success := false
      output := ""
      error := some s!"Adapter circuit breaker is open for \"{adapter}\""
      stopped_reason := some .error }
  | .executed result => result
  | .invalid => buildNotExecutedAdapterResult "run_adapter_invalid_result"
      "run-adapter returned an invalid adapter result." none
  | .notExecuted reason error summary =>
    let detail := error.getD summary
    buildNotExecutedAdapterResult
      (reason.getD
        (if (truthy error).isSome then "run_adapter_tool_error" else "run_adapter_tool_blocked"))
      s!"run-adapter was not executed: {detail}"
      (if (truthy reason).isSome then none else error)
  | .threw message => buildNotExecutedAdapterResult "run_adapter_tool_error"
      "run-adapter admission failed." (some message)

/-- `selectAdapter`; it throws when no adapter is registered. -/
def selectAdapter (deps : Deps) (stage : PipelineStage) : Option String :=
  match truthy (stage.capability_requirement.bind (·.preferred_adapter)) with
  | some preferred => if preferred ∈ deps.adapters then some preferred else deps.adapters.head?
  | none => deps.adapters.head?

/-- A part of a prompt that is there when its text is not empty. -/
def promptPart (title : String) (text : Option String) : String :=
  match truthy text with
  | none => ""
  | some text => title ++ text

/-- `buildStagePrompt`. -/
def buildStagePrompt (stage : PipelineStage) (prompt : String)
    (observationContext sharedContext : Option String) : String :=
  let built :=
    match stage.role with
    | .implementor | .researcher =>
      prompt ++ promptPart "\n\nOBSERVATION CONTEXT:\n" observationContext ++
        promptPart "\n\nSHARED CONTEXT:\n" sharedContext
    | .verifier => prompt ++ promptPart "\n\nSHARED CONTEXT:\n" sharedContext
    | .reviewer => prompt
  match truthy stage.prompt_override with
  | none => built
  | some override => override ++ "\n\n" ++ built

def planModePrefix : String :=
  "Generate a plan for the following task. Do NOT execute — output the plan only.\n\n"

def highTrustThreshold : ℚ := 20

/-- The `idempotencyKey` of a stage. -/
def idempotencyKey (taskId : String) (stageIndex : ℕ) : String :=
  taskId ++ ":" ++ toString stageIndex ++ ":0"

/-! ## What a run does -/

/-- What ended the attempts of a stage: a result that was no failure, a final retry that was
not approved, or the last of the attempts. -/
inductive Ending
  | accepted (result : AgentResult)
  | rejected
  | exhausted (last : Option AgentResult)
  deriving DecidableEq

/-- What a run does. `started`, `recorded` and `denied` mark the points in the code where a
stage is executed, where its result joins the completed stages, and where the run is aborted
because a plan is not approved. -/
inductive Event
  | persisted (state : PipelineState)
  | planned (stageIndex : ℕ) (adapter prompt : String)
  | planAsked (stageIndex : ℕ) (approved : Bool)
  | denied (stageIndex : ℕ) (state : PipelineState)
  | started (stageIndex : ℕ)
  | attempted (stageIndex attempt : ℕ) (adapter prompt : String)
  | retryAsked (stageIndex : ℕ) (approved : Bool)
  | recorded (ending : Ending) (result : StageResult)
  | feedback (strategyId : String) (verdict : Verdict)
  deriving DecidableEq

/-- A computation that logs what it does, and returns or throws. -/
structure Logged (α : Type) where
  events : List Event
  result : Except String α

namespace Logged

variable {α β : Type}

instance : Monad Logged where
  pure a := ⟨[], .ok a⟩
  bind x f :=
    match x.result with
    | .error e => ⟨x.events, .error e⟩
    | .ok a => ⟨x.events ++ (f a).events, (f a).result⟩

def log (event : Event) : Logged Unit := ⟨[event], .ok ()⟩

def throw (message : String) : Logged α := ⟨[], .error message⟩

@[simp] theorem events_pure (a : α) : (pure a : Logged α).events = [] := rfl
@[simp] theorem result_pure (a : α) : (pure a : Logged α).result = .ok a := rfl
@[simp] theorem events_log (event : Event) : (log event).events = [event] := rfl
@[simp] theorem result_log (event : Event) : (log event).result = .ok () := rfl
@[simp] theorem events_throw (message : String) : (throw message : Logged α).events = [] := rfl
@[simp] theorem result_throw (message : String) :
    (throw message : Logged α).result = .error message := rfl

/-- What is logged before a computation comes first. -/
@[simp] theorem events_log_bind (event : Event) (f : Unit → Logged β) :
    (log event >>= f).events = event :: (f ()).events := rfl

@[simp] theorem result_log_bind (event : Event) (f : Unit → Logged β) :
    (log event >>= f).result = (f ()).result := rfl

@[simp] theorem ok_bind (events : List Event) (a : α) (f : α → Logged β) :
    (Logged.mk events (.ok a) >>= f) = ⟨events ++ (f a).events, (f a).result⟩ := rfl

@[simp] theorem error_bind (events : List Event) (e : String) (f : α → Logged β) :
    ((⟨events, .error e⟩ : Logged α) >>= f) = ⟨events, .error e⟩ := rfl

theorem bind_ok {x : Logged α} {a : α} (h : x.result = .ok a) (f : α → Logged β) :
    (x >>= f).events = x.events ++ (f a).events ∧ (x >>= f).result = (f a).result := by
  change (match x.result with | .error e => _ | .ok a => _ : Logged β).events = _ ∧
    (match x.result with | .error e => _ | .ok a => _ : Logged β).result = _
  rw [h]
  exact ⟨rfl, rfl⟩

theorem bind_error {x : Logged α} {e : String} (h : x.result = .error e) (f : α → Logged β) :
    (x >>= f).events = x.events ∧ (x >>= f).result = .error e := by
  change (match x.result with | .error e => _ | .ok a => _ : Logged β).events = _ ∧
    (match x.result with | .error e => _ | .ok a => _ : Logged β).result = _
  rw [h]
  exact ⟨rfl, rfl⟩

end Logged

section Run

open Logged

variable (deps : Deps) (input : Input) (answers : Answers)

/-- `runPlanApprovalGate`. -/
def runPlanApprovalGate (stage : PipelineStage) (stageIndex : ℕ)
    (sharedContext : Option String) : Logged PlanApprovalResult :=
  match selectAdapter deps stage with
  | none => pure { approved := false, plan := "" }
  | some adapter => do
    log (.planned stageIndex adapter
      (buildStagePrompt { stage with prompt_override := some planModePrefix } input.prompt
        input.observationContext sharedContext))
    let result := executeAdapterWithCircuitBreaker adapter (answers.plan stageIndex)
    if !result.success then pure { approved := false, plan := "" }
    else if input.trustScore.any (highTrustThreshold ≤ ·) then
      pure { approved := true, plan := result.output }
    else if deps.approvalFn then do
      log (.planAsked stageIndex (answers.approvePlan stageIndex))
      pure { approved := answers.approvePlan stageIndex, plan := result.output }
    else pure { approved := false, plan := result.output }

/-- The adapter of an attempt: the second one tries an alternative. -/
def attemptAdapter (stage : PipelineStage) (attempt : ℕ) (current : String) : String :=
  match stage.capability_requirement, deps.findAlternativeAdapter with
  | some requirement, some findAlternativeAdapter =>
    if attempt = 1 then
      match truthy (findAlternativeAdapter requirement.domain
          (requirement.preferred_adapter.getD "")) with
      | some alternative => if alternative ∈ deps.adapters then alternative else current
      | none => current
    else current
  | _, _ => current

/-- The prompt of an attempt. -/
def attemptPrompt (base : String) (attempt : ℕ) (lastError : String) : String :=
  if attempt = 0 then base
  else base ++ "\n\nPREVIOUS ATTEMPT FAILED: " ++ lastError ++ "\nPlease try again."

/-- Strike 3: the last attempt is made only with an approval, where one can be asked for. -/
def askFinalRetry (stageIndex attempt : ℕ) : Logged Bool :=
  if attempt + 1 = deps.maxRetries ∧ deps.approvalFn then do
    log (.retryAsked stageIndex (answers.approveRetry stageIndex))
    pure (answers.approveRetry stageIndex)
  else pure true

/-- The loop of `executeWithEscalation`, with the attempts that are left. -/
def attempts (stage : PipelineStage) (stageIndex : ℕ) (base : String) :
    ℕ → ℕ → String → String → Option AgentResult → Logged Ending
  | 0, _, _, _, last => pure (.exhausted last)
  | left + 1, attempt, current, lastError, _ => do
    let adapter := attemptAdapter deps stage attempt current
    let ok ← askFinalRetry deps answers stageIndex attempt
    if !ok then pure .rejected
    else do
      log (.attempted stageIndex attempt adapter (attemptPrompt base attempt lastError))
      let result := executeAdapterWithCircuitBreaker adapter (answers.attempt stageIndex attempt)
      if mapResultToVerdict result = .fail then
        attempts stage stageIndex base left (attempt + 1) adapter
          (result.error.getD "unknown failure") (some result)
      else pure (.accepted result)

/-- `executeWithEscalation`, up to the result that it makes of the ending. -/
def executeWithEscalation (stage : PipelineStage) (stageIndex : ℕ)
    (sharedContext : Option String) : Logged Ending :=
  match selectAdapter deps stage with
  | none => throw "[PipelineExecutor] No adapters registered"
  | some adapter =>
    attempts deps answers stage stageIndex
      (buildStagePrompt stage input.prompt input.observationContext sharedContext)
      (if deps.approvalFn || deps.findAlternativeAdapter.isSome then deps.maxRetries else 1)
      0 adapter "" none

/-- `makeStageResult`. -/
def makeStageResult (stageIndex : ℕ) (stage : PipelineStage) (key : String) (success : Bool)
    (output : String) (error : Option String) : StageResult where
  stage_index := stageIndex
  role := stage.role
  verdict := mapResultToVerdict {
    success := success
    output := output
    error := error
    stopped_reason := some (if success then .completed else .error) }
  output := output
  confidence := if success then 4 / 5 else 1 / 5
  idempotency_key := key

/-- The result that `executeWithEscalation` returns for an ending. -/
def Ending.stageResult (stageIndex : ℕ) (stage : PipelineStage) (key : String) :
    Ending → StageResult
  | .accepted result => makeStageResult stageIndex stage key result.success result.output none
  | .rejected => makeStageResult stageIndex stage key false "" (some "Human escalation rejected")
  | .exhausted _ => makeStageResult stageIndex stage key false "" none

/-- The gate in front of a stage: only an implementor stage may need a plan. -/
def planGate (stage : PipelineStage) (stageIndex : ℕ) (sharedContext : Option String) :
    Logged PlanApprovalResult :=
  if stage.role = .implementor ∧ input.pipeline.plan_required then
    runPlanApprovalGate deps input answers stage stageIndex sharedContext
  else pure { approved := true, plan := "" }

/-- The loop of `run` over the stages from an index on. -/
def runStages (sharedContext : Option String) (state : PipelineState) (stageIndex : ℕ) :
    List PipelineStage → Logged PipelineState
  | [] => pure state
  | stage :: stages =>
    let key := idempotencyKey input.taskId stageIndex
    if state.completed_stages.any (·.idempotency_key = key) then
      runStages sharedContext state (stageIndex + 1) stages
    else do
      let gate ← planGate deps input answers stage stageIndex sharedContext
      if !gate.approved then do
        log (.denied stageIndex state)
        let state := { state with status := .failed }
        log (.persisted state)
        pure state
      else do
        let sharedContext := (truthy gate.modified_plan).or sharedContext
        log (.started stageIndex)
        let ending ← executeWithEscalation deps input answers stage stageIndex sharedContext
        let stageResult := ending.stageResult stageIndex stage key
        log (.recorded ending stageResult)
        let state := { state with
          current_stage_index := stageIndex + 1
          completed_stages := state.completed_stages ++ [stageResult] }
        log (.persisted state)
        if input.pipeline.fail_fast && stageResult.verdict = .fail then do
          let state := { state with status := .failed }
          log (.persisted state)
          pure state
        else runStages sharedContext state (stageIndex + 1) stages

/-- The state that a run starts from: the stored one, if it was interrupted. -/
def startState (restored : Option PipelineState) : PipelineState :=
  match restored.filter (·.status = .interrupted) with
  | some state => { state with status := .running }
  | none => {
      pipeline_id := input.pipelineId
      task_id := input.taskId
      current_stage_index := 0
      completed_stages := []
      status := .running }

/-- The end of a run: a pipeline that is still running is completed. -/
def complete (state : PipelineState) : Logged PipelineState :=
  if state.status = .running then do
    let state := { state with status := .completed }
    log (.persisted state)
    pure state
  else pure state

/-- The verdict of the last recorded stage, `fail` without one. -/
def finalVerdict (state : PipelineState) : Verdict :=
  (state.completed_stages.getLast?.map (·.verdict)).getD .fail

/-- The result of a run, after the feedback to the strategy. -/
def report (state : PipelineState) : Logged PipelineRunResult := do
  match truthy input.pipeline.strategy_id, deps.strategyFeedbackFn with
  | some strategyId, true => log (.feedback strategyId (finalVerdict state))
  | _, _ => pure ()
  pure {
    pipeline_id := state.pipeline_id
    final_verdict := finalVerdict state
    stage_results := state.completed_stages
    status := state.status }

/-- `PipelineExecutor.run`, from what `restoreState` gives. -/
def run (restored : Option PipelineState) : Logged PipelineRunResult := do
  let state := startState input restored
  log (.persisted state)
  let state ← runStages deps input answers input.pipeline.shared_context state
    state.current_stage_index (input.pipeline.stages.drop state.current_stage_index)
  let state ← complete state
  report deps input state

end Run

end PulSeed.Pipeline
