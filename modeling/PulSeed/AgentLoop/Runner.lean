import Mathlib.Order.Basic
import PulSeed.AgentLoop.Compactor

/-!
# The bounded runner (`orchestrator/execution/agent-loop/bounded-agent-loop-runner.ts`)

One run of the agent loop: the model is asked, its tool calls are executed, their results go
back to it, until it gives a final answer or one of the bounds of the run is reached. Once,
at the bound on the model turns, it may be asked for its answer without tools: this is the
finalization reserve.

What the model answers, what the tools and the compactor do and what the completion validator
says are inputs of the run, one `Turn` of them for each round of the loop, and so are the
times and the abort signal. A run gives its result and its `Effect`s: the requests to the
model, the batches of tool calls and the verdicts of the validator. A stop also says which state
of the session it has saved. The trace and the events are left out, and with them what only they
and the validator read. Bounds and times are integers.
-/

namespace PulSeed

namespace AgentLoop

namespace BoundedAgentLoopRunner

open Text

/-! ## Bounds and results -/

/-- `AgentLoopBudget`, without what only `compactIfNeeded` reads. -/
structure AgentLoopBudget where
  maxModelTurns : ℤ
  maxToolCalls : ℤ
  maxWallClockMs : ℤ
  maxConsecutiveToolErrors : ℤ
  maxRepeatedToolCalls : ℤ
  maxSchemaRepairAttempts : ℤ
  maxCompletionValidationAttempts : ℤ

inductive AgentLoopStopReason
  | completed | timeout | maxModelTurns | maxToolCalls | consecutiveToolErrors | stalledToolLoop
  | schemaError | cancelled | protocolIncomplete | completionGateFailed | fatalError
  deriving DecidableEq

inductive AgentLoopFailureReason
  | wallClockTimeout | modelRequestTimeout | modelRequestAborted | providerFailure
  | protocolIncomplete | schemaValidationFailed | completionGateFailed | toolBatchDeadlineExceeded
  | toolBatchTimedOut | toolRuntimeFailure | toolFatal | toolCancelled | consecutiveToolErrors
  | repeatedToolCalls | maxModelTurns | maxToolCalls | operatorCancelled
  deriving DecidableEq

/-- `defaultFailureReason`. -/
def defaultFailureReason : AgentLoopStopReason → AgentLoopFailureReason
  | .timeout => .wallClockTimeout
  | .maxModelTurns => .maxModelTurns
  | .maxToolCalls => .maxToolCalls
  | .consecutiveToolErrors => .consecutiveToolErrors
  | .stalledToolLoop => .repeatedToolCalls
  | .schemaError => .schemaValidationFailed
  | .cancelled => .operatorCancelled
  | .protocolIncomplete => .protocolIncomplete
  | .completionGateFailed => .completionGateFailed
  | .fatalError | .completed => .providerFailure

inductive AgentLoopToolDisposition
  | respondToModel | fatal | approvalDenied | cancelled
  deriving DecidableEq

/-- `ToolResult`, what an observation shows of it. -/
structure RawToolResult where
  summary : Option Text := none
  data : Option Json := none
  error : Option Text := none

/-- `AgentLoopToolOutput`, without the call that it is for. -/
structure ToolAnswer where
  success : Bool
  content : Text
  disposition : Option AgentLoopToolDisposition := none
  rawResult : Option RawToolResult := none
  execution : Option AgentLoopToolObservationExecution := none
  command : Option Text := none
  cwd : Option Text := none
  artifacts : Option (List Text) := none
  activityCategory : Option Text := none
  fatal : Bool := false

/-- `AgentLoopToolOutput`. -/
structure AgentLoopToolOutput extends ToolAnswer where
  callId : Text
  toolName : Text

/-- `AgentLoopToolResultSummary`. -/
structure AgentLoopToolResultSummary where
  sequence : ℕ
  toolName : Text
  success : Bool
  execution : Option AgentLoopToolObservationExecution

/-- `AgentLoopResult`, what the loop itself puts into it. -/
structure AgentLoopResult (Output : Type) where
  success : Bool
  output : Option Output
  finalText : Text
  stopReason : AgentLoopStopReason
  failureReason : Option AgentLoopFailureReason
  failureDetail : Option Text
  modelTurns : ℕ
  toolCalls : ℕ
  compactions : ℕ
  toolResults : List AgentLoopToolResultSummary

/-! ## What a run is given -/

inductive AgentLoopFinalOutputMode
  | schema | displayText
  deriving DecidableEq

/-- `AgentLoopTurnContext`, what the loop reads of it. `parseFinal` reads an answer against
the schema, `toolLoopSignature` is the JSON text of the names and inputs of calls. -/
structure AgentLoopTurnContext (Output : Type) where
  messages : List AgentLoopMessage
  finalOutputMode : AgentLoopFinalOutputMode
  budget : AgentLoopBudget
  requiredTools : Option (List Text)
  hasCompletionValidator : Bool
  parseFinal : Text → Except Text Output
  isReadOnly : Text → Bool
  toolLoopSignature : List AgentLoopToolCall → Text

/-- `AgentLoopSessionState`, what a run resumes. -/
structure AgentLoopSessionState where
  messages : List AgentLoopMessage
  compactionRecords : List AgentLoopCompactionRecord
  modelTurns : ℕ
  toolCalls : ℕ
  compactions : ℕ
  completionValidationAttempts : ℕ
  calledTools : List Text
  lastToolLoopSignature : Option Text
  repeatedToolLoopCount : ℕ
  finalText : Text

/-- An error of a request: what `structuredRunFailureReason` and `errorDetail` read off it, and
its message. -/
structure RunError where
  structured : Option AgentLoopFailureReason
  detail : Text
  message : Text

/-- An item of a response. -/
inductive ResponseItem where
  | assistantText (content : Text)
  | functionToolCall (call : AgentLoopToolCall)
  | reasoningProgress (content : Text)

/-- `AgentLoopModelTurnProtocol`. -/
structure AgentLoopModelTurnProtocol where
  assistant : List Text
  toolCalls : List AgentLoopToolCall
  responseItems : Option (List ResponseItem) := none
  responseCompleted : Bool := true
  usage : Option (ℕ × ℕ) := none

/-- What `executeBatch` gives: the answer to each call of the batch. -/
structure ToolBatch where
  answer : ℕ → AgentLoopToolCall → ToolAnswer
  timedOut : Bool

/-- What one round of the loop finds, in the order in which it looks. -/
structure Turn where
  elapsedMs : ℤ := 0
  abortedBefore : Bool := false
  protocol : Except RunError AgentLoopModelTurnProtocol
  abortedAfter : Bool := false
  elapsedBeforeTools : ℤ := 0
  abortedBeforeTools : Bool := false
  elapsedAtBatch : ℤ := 0
  toolBatch : Except Text ToolBatch
  /-- The verdict of the completion validator: the reasons for which it is not satisfied. -/
  completionValidation : Except (List Text) Unit
  compactIfNeeded : List AgentLoopMessage → Option Number → ℕ →
    List AgentLoopCompactionRecord → CompactIfNeededResult

/-- What a run does to the outside. -/
inductive Effect where
  | modelRequest (messages : List AgentLoopMessage) (toolsVisible : Bool)
  | toolBatch (calls : List AgentLoopToolCall) (outputs : List AgentLoopToolOutput)
  | completionValidation (ok : Bool)

/-- The variables of the loop. -/
structure State where
  messages : List AgentLoopMessage
  compactionRecords : List AgentLoopCompactionRecord
  modelTurns : ℕ
  toolCalls : ℕ
  compactions : ℕ
  completionValidationAttempts : ℕ
  calledTools : List Text
  lastToolLoopSignature : Option Text
  repeatedToolLoopCount : ℕ
  finalText : Text
  consecutiveToolErrors : ℕ := 0
  schemaRepairAttempts : ℕ := 0
  toolResults : List AgentLoopToolResultSummary := []
  finalizationReserveUsed : Bool := false
  forceFinalAnswerOnly : Bool := false

/-- The state of the session that `saveState` writes for the variables of the loop. -/
def State.session (s : State) : AgentLoopSessionState where
  messages := s.messages
  compactionRecords := s.compactionRecords
  modelTurns := s.modelTurns
  toolCalls := s.toolCalls
  compactions := s.compactions
  completionValidationAttempts := s.completionValidationAttempts
  calledTools := s.calledTools
  lastToolLoopSignature := s.lastToolLoopSignature
  repeatedToolLoopCount := s.repeatedToolLoopCount
  finalText := s.finalText

/-- A result, with the variables of the loop at the stop and the completion validation attempts
that `stop` is given, if any. -/
structure Stopped (Output : Type) extends AgentLoopResult Output where
  atStop : State
  attempts : Option ℕ

/-- The state of the session that `stop` saves. -/
def Stopped.saved {Output : Type} (result : Stopped Output) : AgentLoopSessionState :=
  { result.atStop.session with
    finalText := result.finalText
    completionValidationAttempts := result.attempts.getD 0 }

/-- The loop returns a result, or goes on. -/
inductive Next (Output : Type) where
  | stop (result : Stopped Output)
  | resume (s : State)

/-! ## Stopping -/

section

variable {Output : Type}

/-- `stop`, without success. -/
def stopped (s : State) (reason : AgentLoopStopReason) (finalText : Text)
    (reasonDetail : Option Text) (failureReason : Option AgentLoopFailureReason)
    (completionValidationAttempts : Option ℕ := none) : Stopped Output where
  success := false
  output := none
  finalText
  stopReason := reason
  failureReason := some (failureReason.getD (defaultFailureReason reason))
  failureDetail := nonEmpty reasonDetail
  modelTurns := s.modelTurns
  toolCalls := s.toolCalls
  compactions := s.compactions
  toolResults := s.toolResults
  atStop := s
  attempts := completionValidationAttempts

/-- `stop`, with the text of the state. -/
def stop (s : State) (reason : AgentLoopStopReason)
    (completionValidationAttempts : Option ℕ := none) : Stopped Output :=
  stopped s reason s.finalText none none completionValidationAttempts

/-- `stop`, with success. -/
def completed (s : State) (finalText : Text) (output : Option Output) : Stopped Output where
  success := true
  output
  finalText
  stopReason := .completed
  failureReason := none
  failureDetail := none
  modelTurns := s.modelTurns
  toolCalls := s.toolCalls
  compactions := s.compactions
  toolResults := s.toolResults
  atStop := s
  attempts := some s.completionValidationAttempts

/-- What the loop returns when a request has failed: `classifyRunFailure`. -/
def requestFailed (s : State) (err : RunError) : Stopped Output :=
  match err.structured with
  | some .modelRequestTimeout =>
    stopped s .timeout (utf16 ("Agent loop stopped: model request timed out. Narrow broad "
      ++ "repo-wide searches or increase `codex_timeout_ms` if this workload is expected."))
      (some err.detail) (some .modelRequestTimeout) (some s.completionValidationAttempts)
  | some .modelRequestAborted =>
    stopped s .fatalError (utf16 ("Agent loop stopped: model request was aborted by the provider "
      ++ "or transport. Retry the turn or inspect the provider connection."))
      (some err.detail) (some .modelRequestAborted) (some s.completionValidationAttempts)
  | _ =>
    stopped s .fatalError (utf16 "Agent loop stopped: model request failed. " ++
      (if err.detail = [] then [] else utf16 "Detail: " ++ err.detail ++ utf16 ". ") ++
      utf16 "Retry the turn or inspect the provider connection.")
      (some err.detail) (some .providerFailure) (some s.completionValidationAttempts)

end

/-! ## Before a request -/

section

variable {Output : Type} (turn : AgentLoopTurnContext Output)

/-- `shouldUseFinalizationReserve`. -/
def shouldUseFinalizationReserve (s : State) : Bool :=
  if turn.finalOutputMode = .displayText then false
  else if s.toolResults.isEmpty && !s.messages.any (·.role = .tool) then false
  else (trim s.finalText).isEmpty || startsWith (trim s.finalText) (utf16 "Calling ")

/-- `buildFinalizationReservePrompt`. -/
def buildFinalizationReservePrompt : Text :=
  let requiredTools := turn.requiredTools.getD []
  join newline <| [
    utf16 "You have reached the tool/model turn budget. Do not call any more tools.",
    utf16 "Return the final output now as JSON matching the required schema.",
    utf16 ("Use status=done only if the completed work and verification evidence satisfy the task; "
      ++ "otherwise use partial or failed with blockers."),
    utf16 "Include concrete completionEvidence and filesChanged from the work already performed.",
    if requiredTools = [] then []
    else utf16 "Required tools already visible for this turn: " ++
      join (utf16 ", ") requiredTools ++ utf16 "."].filter (· ≠ [])

def userMessage (content : Text) : AgentLoopMessage where
  role := .user
  content

/-- The bound on the model turns: beyond it there is one turn more, for the final answer. -/
def withinModelTurns (s : State) : Option State :=
  if turn.budget.maxModelTurns ≤ s.modelTurns then
    if !s.finalizationReserveUsed && shouldUseFinalizationReserve turn s then
      some { s with
        finalizationReserveUsed := true
        forceFinalAnswerOnly := true
        messages := s.messages ++ [userMessage (buildFinalizationReservePrompt turn)] }
    else none
  else some s

/-- The checks at the head of the loop. -/
def beforeRequest (s : State) (input : Turn) : Except (Stopped Output) State :=
  if turn.budget.maxWallClockMs < input.elapsedMs then .error (stop s .timeout)
  else
    match withinModelTurns turn s with
    | none => .error (stop s .maxModelTurns)
    | some s =>
      if turn.budget.maxToolCalls ≤ s.toolCalls then .error (stop s .maxToolCalls)
      else if input.abortedBefore then .error (stop s .cancelled)
      else .ok s

end

/-! ## After a response -/

/-- A response, as `protocolToResponse` gives it. -/
structure Response where
  content : Text
  toolCalls : List AgentLoopToolCall

/-- `protocolToResponse`. -/
def protocolToResponse (protocol : AgentLoopModelTurnProtocol) : Response :=
  let texts := (protocol.responseItems.getD []).filterMap fun
    | .assistantText content => some content
    | _ => none
  let calls := (protocol.responseItems.getD []).filterMap fun
    | .functionToolCall call => some call
    | _ => none
  let content := join newline (protocol.assistant.filter (· ≠ []))
  { content := if content = [] then join newline (texts.filter (· ≠ [])) else content
    toolCalls := if protocol.responseItems.isSome then calls else protocol.toolCalls }

/-- `responseUsageTokens`. -/
def responseUsageTokens (protocol : AgentLoopModelTurnProtocol) : Option Number :=
  protocol.usage.map fun usage => .finite ((usage.1 + usage.2 : ℕ) : ℚ)

section

variable {Output : Type} (turn : AgentLoopTurnContext Output)

/-- `missingRequiredTools`. -/
def missingRequiredTools (s : State) : List Text :=
  (turn.requiredTools.getD []).filter fun toolName => !s.calledTools.contains toolName

/-- The end of a round that goes on: the conversation is compacted if it needs to be. -/
def compactAndResume (s : State) (input : Turn) (usageTokens : Option Number)
    (completionValidationAttempts : Option ℕ := none) : Next Output :=
  let compacted := input.compactIfNeeded s.messages usageTokens s.compactions s.compactionRecords
  if (nonEmpty compacted.error).isSome then
    .stop (stop s .fatalError completionValidationAttempts)
  else .resume { s with
    messages := compacted.messages
    compactionRecords := compacted.compactionRecords
    compactions := s.compactions + if compacted.compacted then 1 else 0 }

/-- The model is told what is wrong with its answer. -/
def sendBack (s : State) (input : Turn) (usageTokens : Option Number) (content prompt : Text)
    (completionValidationAttempts : Option ℕ := none) : Next Output :=
  let answer : AgentLoopMessage :=
    { role := .assistant, content, phase := some .finalAnswer }
  compactAndResume { s with messages := s.messages ++ [answer, userMessage prompt] } input usageTokens
    completionValidationAttempts

/-- An answer that cannot be used is sent back, a number of times. -/
def repairSchema (s : State) (input : Turn) (usageTokens : Option Number) (content prompt : Text) :
    Next Output :=
  let s := { s with schemaRepairAttempts := s.schemaRepairAttempts + 1 }
  if turn.budget.maxSchemaRepairAttempts < s.schemaRepairAttempts then
    .stop (stopped s .schemaError content none none)
  else sendBack s input usageTokens content prompt

/-- `buildCompletionRepairPrompt`. -/
def buildCompletionRepairPrompt (reasons : List Text) : Text :=
  join newline [
    utf16 "Your final answer is premature. Do not finish yet.",
    utf16 ("Before returning the final JSON again, continue the task and gather stronger "
      ++ "completion evidence."),
    join newline (reasons.map fun reason => utf16 "- " ++ reason),
    utf16 ("Use tools to verify the claimed result, then return fresh final JSON only when these "
      ++ "gaps are resolved.")]

/-- An answer before the required tools have been called is sent back. -/
def requireTools (s : State) (input : Turn) (usageTokens : Option Number) (content : Text)
    (answer : List Effect × Next Output) : List Effect × Next Output :=
  let missing := missingRequiredTools turn s
  if missing ≠ [] then
    ([], sendBack s input usageTokens content <|
      utf16 "Before the final answer, call these required tool(s) at least once: " ++
        join (utf16 ", ") missing ++ utf16 ".")
  else answer

/-- An answer that was read is put to the completion validator. -/
def validate (s : State) (input : Turn) (usageTokens : Option Number) (content : Text)
    (output : Output) : List Effect × Next Output :=
  if turn.hasCompletionValidator then
    match input.completionValidation with
    | .ok () => ([.completionValidation true], .stop (completed s content (some output)))
    | .error reasons =>
      let s := { s with completionValidationAttempts := s.completionValidationAttempts + 1 }
      ([.completionValidation false],
        if turn.budget.maxCompletionValidationAttempts < s.completionValidationAttempts then
          .stop (stopped s .completionGateFailed content none none
            (some s.completionValidationAttempts))
        else sendBack s input usageTokens content (buildCompletionRepairPrompt reasons)
          (some s.completionValidationAttempts))
  else ([], .stop (completed s content (some output)))

/-- A response without tool calls. -/
def finalAnswer (s : State) (input : Turn) (usageTokens : Option Number) (content : Text) :
    List Effect × Next Output :=
  match turn.finalOutputMode with
  | .displayText =>
    if trim content = [] then
      ([], repairSchema turn s input usageTokens content (utf16 ("Your final answer was empty. "
        ++ "Return a user-visible Markdown or plain text answer for the user.")))
    else
      requireTools turn s input usageTokens content ([], .stop (completed s content none))
  | .schema =>
    match turn.parseFinal content with
    | .ok output =>
      requireTools turn s input usageTokens content
        (validate turn s input usageTokens content output)
    | .error error =>
      ([], repairSchema turn s input usageTokens content <|
        utf16 ("Your final answer did not match the required JSON schema. Return only valid JSON. "
          ++ "Parse error: ") ++ error)

end

/-! ## Tool calls -/

/-- `MIN_MUTATING_TOOL_BATCH_REMAINING_MS`. -/
def MIN_MUTATING_TOOL_BATCH_REMAINING_MS : ℤ := 1000

def intText (n : ℤ) : Text := utf16 (toString n)

/-- `formatToolBatchWallClockExhaustedReason`. -/
def formatToolBatchWallClockExhaustedReason (calls : List AgentLoopToolCall)
    (maxWallClockMs : ℤ) : Text :=
  join (utf16 " ") [
    utf16 "Tool batch was not started because the agent loop wall-clock budget is exhausted",
    utf16 "(0ms remaining; limit " ++ intText maxWallClockMs ++ utf16 "ms).",
    utf16 "Requested tools: " ++ join (utf16 ", ") (calls.map (·.name)) ++ utf16 "."]

/-- `agentLoopToolObservationState`. -/
def agentLoopToolObservationState (result : AgentLoopToolOutput) (toolBatchTimedOut : Bool) :
    AgentLoopToolObservationState :=
  let reason := result.execution.bind (·.reason)
  let cancelled := result.disposition = some .cancelled
  if reason = some .timedOut || (toolBatchTimedOut && cancelled) then .timedOut
  else if reason = some .interrupted || cancelled then .interrupted
  else if reason = some .approvalDenied || reason = some .permissionDenied then .denied
  else if reason = some .policyBlocked || reason = some .dryRun then .blocked
  else if result.success then .success else .failure

/-- `agentLoopToolObservationExecution`. -/
def agentLoopToolObservationExecution (result : AgentLoopToolOutput)
    (state : AgentLoopToolObservationState) : AgentLoopToolObservationExecution :=
  match result.execution, state with
  | some execution, _ => execution
  | none, .timedOut =>
    { status := .executed, reason := some .timedOut, message := some result.content }
  | none, .interrupted =>
    { status := .executed, reason := some .interrupted, message := some result.content }
  | none, _ => { status := .executed }

/-- `createAgentLoopToolObservation`. -/
def createAgentLoopToolObservation (result : AgentLoopToolOutput)
    (sourceCall : Option AgentLoopToolCall) (toolBatchTimedOut : Bool) :
    AgentLoopToolObservation :=
  let state := agentLoopToolObservationState result toolBatchTimedOut
  { callId := result.callId
    toolName := result.toolName
    arguments := orElseNull (sourceCall.bind (·.input)) (some (.obj []))
    state
    success := result.success
    execution := some (agentLoopToolObservationExecution result state)
    output := {
      content := result.content
      summary := nonEmpty (result.rawResult.bind (·.summary))
      data := result.rawResult.bind (·.data)
      error := nonEmpty (result.rawResult.bind (·.error)) }
    command := nonEmpty result.command
    cwd := nonEmpty result.cwd
    artifacts := result.artifacts
    activityCategory := result.activityCategory }

/-- A tool counts as called unless its output says that it was not executed. -/
def AgentLoopToolOutput.executed (result : AgentLoopToolOutput) : Bool :=
  result.execution.all (·.status ≠ .notExecuted)

/-- `calledTools.add(toolName)`. -/
def addTool (calledTools : List Text) (toolName : Text) : List Text :=
  if calledTools.contains toolName then calledTools else calledTools ++ [toolName]

/-- What the result of a call does to the variables of the loop. -/
def recordResult (calls : List AgentLoopToolCall) (timedOut : Bool) (s : State)
    (result : AgentLoopToolOutput) : State :=
  let sourceCall := calls.find? (·.id = result.callId)
  { s with
    calledTools :=
      if result.executed then addTool s.calledTools result.toolName else s.calledTools
    toolCalls := s.toolCalls + 1
    consecutiveToolErrors := if result.success then 0 else s.consecutiveToolErrors + 1
    toolResults := s.toolResults ++ [{
      sequence := s.toolCalls + 1
      toolName := result.toolName
      success := result.success
      execution := result.execution }]
    messages := s.messages ++ [{
      role := .tool
      toolCallId := some result.callId
      toolName := some result.toolName
      content := result.content
      observation := some (createAgentLoopToolObservation result sourceCall timedOut) }] }

section

variable {Output : Type} (turn : AgentLoopTurnContext Output)

/-- `toolBatchBudgetRefusalReason`. -/
def toolBatchBudgetRefusalReason (calls : List AgentLoopToolCall) (elapsedMs : ℤ) : Option Text :=
  let remainingMs := turn.budget.maxWallClockMs - elapsedMs
  if remainingMs ≤ 0 then
    some (formatToolBatchWallClockExhaustedReason calls turn.budget.maxWallClockMs)
  else
    let mutatingToolNames := (calls.filter fun call => !turn.isReadOnly call.name).map (·.name)
    if mutatingToolNames = [] || MIN_MUTATING_TOOL_BATCH_REMAINING_MS ≤ remainingMs then none
    else some <| join (utf16 " ") [
      utf16 "Tool batch was not started because the remaining wall-clock budget",
      utf16 "(" ++ intText remainingMs ++ utf16 "ms) is below the " ++
        intText MIN_MUTATING_TOOL_BATCH_REMAINING_MS ++ utf16 "ms minimum",
      utf16 "for mutating tools: " ++ join (utf16 ", ") mutatingToolNames.eraseDups ++ utf16 "."]

/-- The results of a batch are gone through, until one of them ends the run. -/
def recordResults (calls : List AgentLoopToolCall) (timedOut : Bool) :
    State → List AgentLoopToolOutput → Except (Stopped Output) State
  | s, [] => .ok s
  | s, result :: results =>
    let s := recordResult calls timedOut s result
    if result.disposition = some .fatal || result.fatal then
      .error (stopped s .fatalError s.finalText none (some .toolFatal))
    else if result.disposition = some .cancelled then
      .error (stopped s (if timedOut then .timeout else .cancelled) s.finalText none
        (some (if timedOut then .toolBatchTimedOut else .toolCancelled)))
    else if turn.budget.maxConsecutiveToolErrors ≤ s.consecutiveToolErrors then
      .error (stopped s .consecutiveToolErrors s.finalText none (some .consecutiveToolErrors))
    else recordResults calls timedOut s results

/-- The outputs of a batch, one for each call. -/
def ToolBatch.outputs (batch : ToolBatch) (calls : List AgentLoopToolCall) :
    List AgentLoopToolOutput :=
  calls.mapIdx fun n call =>
    { toToolAnswer := batch.answer n call, callId := call.id, toolName := call.name }

/-- A batch is executed within what is left of the time, and its results are recorded. -/
def executeToolBatch (s : State) (input : Turn) (usageTokens : Option Number)
    (calls : List AgentLoopToolCall) : List Effect × Next Output :=
  if turn.budget.maxWallClockMs - input.elapsedAtBatch ≤ 0 then
    let timeoutReason :=
      formatToolBatchWallClockExhaustedReason calls turn.budget.maxWallClockMs
    ([], .stop (stopped s .timeout timeoutReason (some timeoutReason) (some .toolBatchTimedOut)
      (some s.completionValidationAttempts)))
  else
    match input.toolBatch with
    | .error detail =>
      ([.toolBatch calls []], .stop (stopped s .fatalError
        (utf16 "Agent loop stopped: tool runtime failed. " ++
          (if detail = [] then [] else utf16 "Detail: " ++ detail ++ utf16 ". ") ++
          utf16 "Inspect the tool execution trace.") (some detail) (some .toolRuntimeFailure)
        (some s.completionValidationAttempts)))
    | .ok batch =>
      let outputs := batch.outputs calls
      ([.toolBatch calls outputs],
        match recordResults turn calls batch.timedOut s outputs with
        | .error result => .stop result
        | .ok s => compactAndResume s input usageTokens)

/-- The calls of a response go into the conversation, and repetitions of them are counted. -/
def noteToolCalls (s : State) (response : Response) : State :=
  let signature := turn.toolLoopSignature response.toolCalls
  { s with
    messages := s.messages ++ [{
      role := .assistant
      content := if response.content = [] then
          utf16 "Calling " ++ join (utf16 ", ") (response.toolCalls.map (·.name))
        else response.content
      phase := some .commentary
      toolCalls := some response.toolCalls }]
    repeatedToolLoopCount :=
      if s.lastToolLoopSignature = some signature then s.repeatedToolLoopCount + 1 else 1
    lastToolLoopSignature := some signature }

/-- A response with tool calls; `wasFinalAnswerOnly` when none were asked for. -/
def runTools (s : State) (input : Turn) (wasFinalAnswerOnly : Bool)
    (usageTokens : Option Number) (response : Response) : List Effect × Next Output :=
  if wasFinalAnswerOnly then
    let detail := utf16 ("Agent loop reached the finalization reserve, but the model attempted "
      ++ "another tool call instead of returning final output.")
    ([], .stop (stopped s .maxModelTurns
      (if response.content = [] then detail else response.content) (some detail)
      (some .maxModelTurns) (some s.completionValidationAttempts)))
  else
    match toolBatchBudgetRefusalReason turn response.toolCalls input.elapsedBeforeTools with
    | some refusal =>
      ([], .stop (stopped s .timeout refusal (some refusal) (some .toolBatchDeadlineExceeded)
        (some s.completionValidationAttempts)))
    | none =>
      let s := noteToolCalls turn s response
      if turn.budget.maxRepeatedToolCalls < s.repeatedToolLoopCount then
        ([], .stop (stopped s .stalledToolLoop s.finalText none (some .repeatedToolCalls)))
      else if input.abortedBeforeTools then ([], .stop (stop s .cancelled))
      else executeToolBatch turn s input usageTokens response.toolCalls

/-! ## The loop -/

/-- What follows a complete response. -/
def afterResponse (s : State) (input : Turn) (protocol : AgentLoopModelTurnProtocol) :
    List Effect × Next Output :=
  let response := protocolToResponse protocol
  let wasFinalAnswerOnly := s.forceFinalAnswerOnly
  let s := { s with
    modelTurns := s.modelTurns + 1
    finalText := response.content
    forceFinalAnswerOnly := false }
  if response.toolCalls = [] then
    finalAnswer turn s input (responseUsageTokens protocol) response.content
  else runTools turn s input wasFinalAnswerOnly (responseUsageTokens protocol) response

/-- One round of the loop. -/
def round (s : State) (input : Turn) : List Effect × Next Output :=
  match beforeRequest turn s input with
  | .error result => ([], .stop result)
  | .ok s =>
    let request := Effect.modelRequest s.messages (!s.forceFinalAnswerOnly)
    match input.protocol with
    | .error err =>
      ([request], .stop <|
        if input.abortedAfter then
          stopped s .cancelled
            (utf16 "Agent loop stopped: operator stop aborted active model work.")
            (some err.message) none (some s.completionValidationAttempts)
        else requestFailed s err)
    | .ok protocol =>
      if !protocol.responseCompleted then ([request], .stop (stop s .protocolIncomplete))
      else if input.abortedAfter then ([request], .stop (stop s .cancelled))
      else
        let (effects, next) := afterResponse turn s input protocol
        (request :: effects, next)

/-- The loop, as far as the given rounds go. -/
def loop : State → List Turn → List Effect × Option (AgentLoopResult Output)
  | _, [] => ([], none)
  | s, input :: inputs =>
    match round turn s input with
    | (effects, .stop result) => (effects, some result.toAgentLoopResult)
    | (effects, .resume s') => (effects ++ (loop s' inputs).1, (loop s' inputs).2)

/-- The variables at the start: those of the resumed session. -/
def initial (resumed : Option AgentLoopSessionState) : State :=
  match resumed with
  | none => {
      messages := turn.messages
      compactionRecords := []
      modelTurns := 0
      toolCalls := 0
      compactions := 0
      completionValidationAttempts := 0
      calledTools := []
      lastToolLoopSignature := none
      repeatedToolLoopCount := 0
      finalText := [] }
  | some resumed => {
      messages := resumed.messages
      compactionRecords := resumed.compactionRecords
      modelTurns := resumed.modelTurns
      toolCalls := resumed.toolCalls
      compactions := resumed.compactions
      completionValidationAttempts := resumed.completionValidationAttempts
      calledTools := resumed.calledTools
      lastToolLoopSignature := resumed.lastToolLoopSignature
      repeatedToolLoopCount := resumed.repeatedToolLoopCount
      finalText := resumed.finalText }

/-- `run`, with what the compaction before the first turn gives. -/
def run (resumed : Option AgentLoopSessionState) (preTurnCompaction : CompactIfNeededResult)
    (inputs : List Turn) : List Effect × Option (AgentLoopResult Output) :=
  let s := initial turn resumed
  if (nonEmpty preTurnCompaction.error).isSome then ([], some (stop s .fatalError).toAgentLoopResult)
  else loop turn { s with
    messages := preTurnCompaction.messages
    compactionRecords := preTurnCompaction.compactionRecords
    compactions := s.compactions + if preTurnCompaction.compacted then 1 else 0 } inputs

end

end BoundedAgentLoopRunner

end AgentLoop

end PulSeed
