import PulSeed.AgentLoop.Runner

/-!
# The state of a session (`orchestrator/execution/agent-loop/agent-loop-session-state.ts`)

What `saveState` of the bounded runner hands to the store, and what `normalizeAgentLoopSessionState`
makes of a stored value when it is saved and when it is loaded. A value of unknown type is a
`Value`; a member that is `undefined` is one that is not there. The reasons of a stop are left
out of the saved value, and the value of a compaction record is a parameter.
-/

namespace PulSeed

namespace AgentLoop

open Text

/-! ## Values of unknown type -/

/-- A value, as `typeof` and `Array.isArray` tell it apart. -/
inductive Value where
  | null
  | boolean (b : Bool)
  | number (x : Number)
  | string (text : Text)
  | array (items : List Value)
  | object (members : List (String × Value))

namespace Value

/-- `value[name]`; the named members are not those of an array. -/
def member (value : Value) (name : String) : Option Value :=
  match value with
  | .object members => members.lookup name
  | _ => none

/-- An object with the members that are there. -/
def ofMembers (members : List (String × Option Value)) : Value :=
  .object (members.filterMap fun m => m.2.map fun value => (m.1, value))

theorem lookup_filterMap_eq_none {members : List (String × Option Value)} {name : String}
    (h : name ∉ members.map (·.1)) :
    (members.filterMap fun m => m.2.map fun value => (m.1, value)).lookup name = none := by
  rw [List.lookup_eq_none_iff]
  intro m hm
  obtain ⟨member, hmember, hvalue⟩ := List.mem_filterMap.mp hm
  obtain ⟨value, -, rfl⟩ := Option.map_eq_some_iff.mp hvalue
  rw [bne_iff_ne]
  rintro rfl
  exact h (List.mem_map_of_mem hmember)

theorem member_ofMembers (members : List (String × Option Value)) (name : String)
    (hnodup : (members.map (·.1)).Nodup) :
    (ofMembers members).member name = (members.lookup name).join := by
  show (members.filterMap fun m => m.2.map fun value => (m.1, value)).lookup name = _
  induction members with
  | nil => rfl
  | cons m members ih =>
    obtain ⟨key, value⟩ := m
    rw [List.map_cons, List.nodup_cons] at hnodup
    have ih := ih hnodup.2
    by_cases hkey : name = key
    · subst hkey
      rw [List.lookup_cons_self]
      cases value with
      | none =>
        rw [List.filterMap_cons]
        exact lookup_filterMap_eq_none hnodup.1
      | some value =>
        rw [List.filterMap_cons]
        exact List.lookup_cons_self
    · have hne : (name == key) = false := beq_eq_false_iff_ne.mpr hkey
      rw [List.lookup_cons, hne]
      cases value with
      | none =>
        rw [List.filterMap_cons]
        exact ih
      | some value =>
        rw [List.filterMap_cons]
        show List.lookup name ((key, value) :: _) = _
        rw [List.lookup_cons, hne]
        exact ih

end Value

mutual

/-- The value of a JSON value. -/
def jsonValue : Json → Value
  | .null => .null
  | .bool b => .boolean b
  | .num q => .number (.finite q)
  | .str s => .string (utf16 s)
  | .arr items => .array (jsonValues items)
  | .obj members => .object (jsonMembers members)

def jsonValues : List Json → List Value
  | [] => []
  | item :: items => jsonValue item :: jsonValues items

def jsonMembers : List (String × Json) → List (String × Value)
  | [] => []
  | (name, value) :: members => (name, jsonValue value) :: jsonMembers members

end

/-- `isRecord`. -/
def isRecord : Value → Bool
  | .object _ | .array _ => true
  | _ => false

def string? : Option Value → Option Text
  | some (.string text) => some text
  | _ => none

def array? : Option Value → Option (List Value)
  | some (.array items) => some items
  | _ => none

/-- `stringField`. -/
def stringField (value : Value) (field : String) : Option Text :=
  (string? (value.member field)).filter fun text => trim text ≠ []

/-- `nonNegativeNumberField`. -/
def nonNegativeNumberField (value : Value) (field : String) : Number :=
  match value.member field with
  | some (.number x) => if x.isFinite && (Number.finite 0).le x then x else .finite 0
  | _ => .finite 0

/-- `stringArrayField`. -/
def stringArrayField (value : Value) (field : String) : List Text :=
  ((array? (value.member field)).getD []).filterMap fun item => string? (some item)

/-- A member that is one of some texts. -/
def oneOf (value : Value) (field : String) (texts : List String) : Option Text :=
  (string? (value.member field)).filter fun text => (texts.map utf16).contains text

/-- `roleField`. -/
def roleField (value : Value) (field : String) : Option Text :=
  oneOf value field ["system", "user", "assistant", "tool"]

/-- `phaseField`. -/
def phaseField (value : Value) (field : String) : Option Text :=
  oneOf value field ["commentary", "final_answer"]

/-- `observationStateField`. -/
def observationStateField (value : Value) (field : String) : Option Text :=
  oneOf value field ["success", "failure", "denied", "blocked", "timed_out", "interrupted"]

/-- `observationReasonField`. -/
def observationReasonField (value : Value) (field : String) : Option Text :=
  oneOf value field ["approval_denied", "permission_denied", "policy_blocked", "dry_run",
    "tool_error", "timed_out", "interrupted", "sandbox_required", "escalation_required",
    "stale_state"]

/-- `toolActivityCategoryField`. -/
def toolActivityCategoryField (value : Value) (field : String) : Option Text :=
  oneOf value field ["search", "read", "command", "file_create", "file_modify", "test", "approval"]

/-- `statusField`. -/
def statusField (value : Value) (field : String) : Text :=
  (oneOf value field ["completed", "failed"]).getD (utf16 "running")

/-! ## Normalization -/

/-- `normalizeToolCall`. -/
def normalizeToolCall (value : Value) : Option Value := do
  let id ← stringField value "id"
  let name ← stringField value "name"
  return .ofMembers [("id", some (.string id)), ("name", some (.string name)),
    ("input", value.member "input")]

/-- `normalizeObservationExecution`. -/
def normalizeObservationExecution (value : Option Value) : Option Value := do
  let value ← value
  let status ← oneOf value "status" ["executed", "not_executed"]
  return .ofMembers [
    ("status", some (.string status)),
    ("reason", (observationReasonField value "reason").map .string),
    ("message", (string? (value.member "message")).map .string)]

/-- `normalizeTruncated`. -/
def normalizeTruncated (value : Option Value) : Option Value := do
  let value ← value.filter isRecord
  return .ofMembers [
    ("originalChars", some (.number (nonNegativeNumberField value "originalChars"))),
    ("overflowPath", (string? (value.member "overflowPath")).map .string)]

/-- `normalizeToolObservation`. -/
def normalizeToolObservation (value : Option Value) : Option Value := do
  let value ← value
  let type ← oneOf value "type" ["tool_observation"]
  let callId ← stringField value "callId"
  let toolName ← stringField value "toolName"
  let state ← observationStateField value "state"
  let success ← match value.member "success" with
    | some (.boolean b) => some b
    | _ => none
  let output ← value.member "output"
  let content ← string? (output.member "content")
  return .ofMembers [
    ("type", some (.string type)),
    ("callId", some (.string callId)),
    ("toolName", some (.string toolName)),
    ("arguments", value.member "arguments"),
    ("state", some (.string state)),
    ("success", some (.boolean success)),
    ("execution", normalizeObservationExecution (value.member "execution")),
    ("durationMs", some (.number (nonNegativeNumberField value "durationMs"))),
    ("output", some (.ofMembers [
      ("content", some (.string content)),
      ("summary", (string? (output.member "summary")).map .string),
      ("data", output.member "data"),
      ("error", (string? (output.member "error")).map .string)])),
    ("command", (string? (value.member "command")).map .string),
    ("cwd", (string? (value.member "cwd")).map .string),
    ("artifacts", (array? (value.member "artifacts")).map fun items =>
      .array (items.filter fun item => (string? (some item)).isSome)),
    ("truncated", normalizeTruncated (value.member "truncated")),
    ("activityCategory", (toolActivityCategoryField value "activityCategory").map .string)]

/-- `normalizeMessage`. -/
def normalizeMessage (value : Value) : Option Value := do
  let role ← roleField value "role"
  let content ← string? (value.member "content")
  return .ofMembers [
    ("role", some (.string role)),
    ("content", some (.string content)),
    ("phase", (phaseField value "phase").map .string),
    ("toolCallId", (string? (value.member "toolCallId")).map .string),
    ("toolName", (string? (value.member "toolName")).map .string),
    ("toolCalls", (array? (value.member "toolCalls")).map fun calls =>
      .array (calls.filterMap normalizeToolCall)),
    ("observation", normalizeToolObservation (value.member "observation"))]

/-- `isAgentLoopCompactionRecord`. -/
def isAgentLoopCompactionRecord (value : Value) : Bool :=
  (oneOf value "schemaVersion" ["agent-loop-compaction-record-v1"]).isSome &&
  (match value.member "sequence" with
    | some (.number x) => x.isFinite && (Number.finite 0).le x
    | _ => false) &&
  ["createdAt", "summary", "modelVisibleSummary"].all
    (fun field => (string? (value.member field)).isSome) &&
  ["userMessages", "toolObservations", "pendingPermissions", "activeTargets",
    "archivedTargets"].all (fun field => (array? (value.member field)).isSome) &&
  (value.member "replacementHistory").any isRecord

/-- `normalizeCompactionRecords`. -/
def normalizeCompactionRecords (value : Option Value) : Value :=
  .array (((array? value).getD []).filter isAgentLoopCompactionRecord)

/-- `usageField`. -/
def usageField (value : Value) : Value :=
  let usage := ((value.member "usage").filter isRecord).getD (.object [])
  let inputTokens := nonNegativeNumberField usage "inputTokens"
  let outputTokens := nonNegativeNumberField usage "outputTokens"
  let totalTokensRaw := nonNegativeNumberField usage "totalTokens"
  .ofMembers [
    ("inputTokens", some (.number inputTokens)),
    ("outputTokens", some (.number outputTokens)),
    ("totalTokens", some (.number
      (if (Number.finite 0).lt totalTokensRaw then totalTokensRaw
      else inputTokens.add outputTokens)))]

/-- `normalizeAgentLoopSessionState`. -/
def normalizeAgentLoopSessionState (value : Value) : Option Value := do
  let sessionId ← stringField value "sessionId"
  let traceId ← stringField value "traceId"
  let turnId ← stringField value "turnId"
  let goalId ← stringField value "goalId"
  let cwd ← stringField value "cwd"
  let modelRef ← stringField value "modelRef"
  let rawMessages ← array? (value.member "messages")
  let messages ← rawMessages.mapM normalizeMessage
  return .ofMembers [
    ("sessionId", some (.string sessionId)),
    ("traceId", some (.string traceId)),
    ("turnId", some (.string turnId)),
    ("goalId", some (.string goalId)),
    ("taskId", (string? (value.member "taskId")).map .string),
    ("cwd", some (.string cwd)),
    ("modelRef", some (.string modelRef)),
    ("messages", some (.array messages)),
    ("compactionRecords", some (normalizeCompactionRecords (value.member "compactionRecords"))),
    ("modelTurns", some (.number (nonNegativeNumberField value "modelTurns"))),
    ("toolCalls", some (.number (nonNegativeNumberField value "toolCalls"))),
    ("usage", some (usageField value)),
    ("compactions", some (.number (nonNegativeNumberField value "compactions"))),
    ("completionValidationAttempts",
      some (.number (nonNegativeNumberField value "completionValidationAttempts"))),
    ("calledTools", some (.array ((stringArrayField value "calledTools").map .string))),
    ("lastToolLoopSignature",
      some (((string? (value.member "lastToolLoopSignature")).map .string).getD .null)),
    ("repeatedToolLoopCount",
      some (.number (nonNegativeNumberField value "repeatedToolLoopCount"))),
    ("finalText", some (.string ((string? (value.member "finalText")).getD []))),
    ("status", some (.string (statusField value "status"))),
    ("stopReason", (string? (value.member "stopReason")).map .string),
    ("failureReason", (string? (value.member "failureReason")).map .string),
    ("stopDetail", (string? (value.member "stopDetail")).map .string),
    ("updatedAt", some (.string
      ((string? (value.member "updatedAt")).getD (utf16 "1970-01-01T00:00:00.000Z"))))]

/-! ## Saving -/

section

open BoundedAgentLoopRunner

def AgentLoopMessageRole.text : AgentLoopMessageRole → Text
  | .system => utf16 "system"
  | .user => utf16 "user"
  | .assistant => utf16 "assistant"
  | .tool => utf16 "tool"

def AgentLoopMessagePhase.text : AgentLoopMessagePhase → Text
  | .commentary => utf16 "commentary"
  | .finalAnswer => utf16 "final_answer"

def AgentLoopToolCall.value (call : AgentLoopToolCall) : Value :=
  .ofMembers [("id", some (.string call.id)), ("name", some (.string call.name)),
    ("input", call.input.map jsonValue)]

def AgentLoopToolObservationExecution.value (execution : AgentLoopToolObservationExecution) :
    Value :=
  .ofMembers [
    ("status", some (.string execution.status.text)),
    ("reason", execution.reason.map fun reason => .string reason.text),
    ("message", execution.message.map .string)]

def AgentLoopToolObservation.value (observation : AgentLoopToolObservation) : Value :=
  .ofMembers [
    ("type", some (.string (utf16 "tool_observation"))),
    ("callId", some (.string observation.callId)),
    ("toolName", some (.string observation.toolName)),
    ("arguments", observation.arguments.map jsonValue),
    ("state", some (.string observation.state.text)),
    ("success", some (.boolean observation.success)),
    ("execution", observation.execution.map (·.value)),
    ("output", some (.ofMembers [
      ("content", some (.string observation.output.content)),
      ("summary", observation.output.summary.map .string),
      ("data", observation.output.data.map jsonValue),
      ("error", observation.output.error.map .string)])),
    ("command", observation.command.map .string),
    ("cwd", observation.cwd.map .string),
    ("artifacts", observation.artifacts.map fun artifacts => .array (artifacts.map .string)),
    ("activityCategory", observation.activityCategory.map .string)]

def AgentLoopMessage.value (message : AgentLoopMessage) : Value :=
  .ofMembers [
    ("role", some (.string message.role.text)),
    ("content", some (.string message.content)),
    ("phase", message.phase.map fun phase => .string phase.text),
    ("toolCallId", message.toolCallId.map .string),
    ("toolName", message.toolName.map .string),
    ("toolCalls", message.toolCalls.map fun calls => .array (calls.map (·.value))),
    ("observation", message.observation.map (·.value))]

/-- What a state says of the session and of the turn. -/
structure Session where
  sessionId : Text
  traceId : Text
  turnId : Text
  goalId : Text
  taskId : Option Text
  cwd : Text
  modelRef : Text
  updatedAt : Text

/-- The members that identify a session and its turn. -/
def Session.identifiers (session : Session) : List (String × Text) :=
  [("sessionId", session.sessionId), ("traceId", session.traceId), ("turnId", session.turnId),
    ("goalId", session.goalId), ("cwd", session.cwd), ("modelRef", session.modelRef)]

/-- A session that normalization admits: nothing that identifies it is blank. -/
def Session.Valid (session : Session) : Prop := ∀ id ∈ session.identifiers, trim id.2 ≠ []

/-- `AgentLoopSessionState["status"]`. -/
inductive SessionStatus where
  | running
  | completed
  | failed

def SessionStatus.text : SessionStatus → Text
  | .running => utf16 "running"
  | .completed => utf16 "completed"
  | .failed => utf16 "failed"

/-- The value that `saveState` hands to the store. -/
def saveState (recordValue : AgentLoopCompactionRecord → Value) (session : Session)
    (state : AgentLoopSessionState) (status : SessionStatus) : Value :=
  .ofMembers [
    ("sessionId", some (.string session.sessionId)),
    ("traceId", some (.string session.traceId)),
    ("turnId", some (.string session.turnId)),
    ("goalId", some (.string session.goalId)),
    ("taskId", (nonEmpty session.taskId).map .string),
    ("cwd", some (.string session.cwd)),
    ("modelRef", some (.string session.modelRef)),
    ("messages", some (.array (state.messages.map (·.value)))),
    ("compactionRecords", some (.array (state.compactionRecords.map recordValue))),
    ("modelTurns", some (.number (.finite state.modelTurns))),
    ("toolCalls", some (.number (.finite state.toolCalls))),
    ("compactions", some (.number (.finite state.compactions))),
    ("completionValidationAttempts", some (.number (.finite state.completionValidationAttempts))),
    ("calledTools", some (.array (state.calledTools.map .string))),
    ("lastToolLoopSignature", some ((state.lastToolLoopSignature.map .string).getD .null)),
    ("repeatedToolLoopCount", some (.number (.finite state.repeatedToolLoopCount))),
    ("finalText", some (.string state.finalText)),
    ("status", some (.string status.text)),
    ("updatedAt", some (.string session.updatedAt))]

end

end AgentLoop

end PulSeed
