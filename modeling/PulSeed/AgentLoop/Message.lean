import PulSeed.Lib.Text
import PulSeed.Runtime.Envelope

/-!
# Messages of the agent loop (`orchestrator/execution/agent-loop/agent-loop-model.ts`)

The messages of a conversation, the histories that hold them
(`agent-loop-history.ts`) and the records that compactions leave
(`agent-loop-compaction-record.ts`). The compactor measures and cuts strings by
their code units, so they are `Text`s. Optional members are `Option`s; a member of
type `unknown` is an optional JSON value.
-/

namespace PulSeed

namespace AgentLoop

open Text

/-- `function preview`. -/
def preview (value : Text) (maxChars : Number) : Text :=
  if maxChars.lt (.finite value.length) then
    value.take (sliceIndex value.length maxChars) ++ utf16 "..."
  else value

/-! ## Messages -/

inductive AgentLoopMessageRole
  | system | user | assistant | tool
  deriving DecidableEq

inductive AgentLoopMessagePhase
  | commentary | finalAnswer
  deriving DecidableEq

structure AgentLoopToolCall where
  id : Text
  name : Text
  input : Option Json

inductive AgentLoopToolObservationState
  | success | failure | denied | blocked | timedOut | interrupted
  deriving DecidableEq

def AgentLoopToolObservationState.text : AgentLoopToolObservationState → Text
  | .success => utf16 "success"
  | .failure => utf16 "failure"
  | .denied => utf16 "denied"
  | .blocked => utf16 "blocked"
  | .timedOut => utf16 "timed_out"
  | .interrupted => utf16 "interrupted"

inductive AgentLoopToolObservationReason
  | approvalDenied | permissionDenied | policyBlocked | dryRun | toolError
  | timedOut | interrupted | sandboxRequired | escalationRequired | staleState
  deriving DecidableEq

def AgentLoopToolObservationReason.text : AgentLoopToolObservationReason → Text
  | .approvalDenied => utf16 "approval_denied"
  | .permissionDenied => utf16 "permission_denied"
  | .policyBlocked => utf16 "policy_blocked"
  | .dryRun => utf16 "dry_run"
  | .toolError => utf16 "tool_error"
  | .timedOut => utf16 "timed_out"
  | .interrupted => utf16 "interrupted"
  | .sandboxRequired => utf16 "sandbox_required"
  | .escalationRequired => utf16 "escalation_required"
  | .staleState => utf16 "stale_state"

inductive ExecutionStatus
  | executed | notExecuted
  deriving DecidableEq

def ExecutionStatus.text : ExecutionStatus → Text
  | .executed => utf16 "executed"
  | .notExecuted => utf16 "not_executed"

structure AgentLoopToolObservationExecution where
  status : ExecutionStatus
  reason : Option AgentLoopToolObservationReason := none
  message : Option Text := none

structure AgentLoopToolObservationOutput where
  content : Text
  summary : Option Text := none
  data : Option Json := none
  error : Option Text := none

structure AgentLoopToolObservation where
  callId : Text
  toolName : Text
  arguments : Option Json
  state : AgentLoopToolObservationState
  success : Bool
  execution : Option AgentLoopToolObservationExecution := none
  output : AgentLoopToolObservationOutput
  command : Option Text := none
  cwd : Option Text := none
  artifacts : Option (List Text) := none
  activityCategory : Option Text := none

structure AgentLoopMessage where
  role : AgentLoopMessageRole
  content : Text
  phase : Option AgentLoopMessagePhase := none
  toolCallId : Option Text := none
  toolName : Option Text := none
  toolCalls : Option (List AgentLoopToolCall) := none
  observation : Option AgentLoopToolObservation := none

/-! ## Compaction records -/

inductive AgentLoopCompactionPhase
  | preTurn | midTurn | standaloneTurn
  deriving DecidableEq

def AgentLoopCompactionPhase.text : AgentLoopCompactionPhase → Text
  | .preTurn => utf16 "pre_turn"
  | .midTurn => utf16 "mid_turn"
  | .standaloneTurn => utf16 "standalone_turn"

inductive AgentLoopCompactionReason
  | contextLimit | modelDownshift | manual
  deriving DecidableEq

def AgentLoopCompactionReason.text : AgentLoopCompactionReason → Text
  | .contextLimit => utf16 "context_limit"
  | .modelDownshift => utf16 "model_downshift"
  | .manual => utf16 "manual"

/-- `AgentLoopCompactionMessageRef`, with the tool calls of an assistant decision. -/
structure AgentLoopCompactionMessageRef where
  index : ℕ
  role : AgentLoopMessageRole
  content : Text
  phase : Option AgentLoopMessagePhase
  toolCallId : Option Text
  toolName : Option Text
  toolCalls : Option (List AgentLoopToolCall) := none

structure AgentLoopCompactionToolObservationRef where
  index : ℕ
  callId : Text
  toolName : Text
  state : AgentLoopToolObservationState
  success : Bool
  execution : Option AgentLoopToolObservationExecution
  arguments : Option Json
  output : AgentLoopToolObservationOutput
  command : Option Text
  cwd : Option Text
  artifacts : Option (List Text)
  activityCategory : Option Text

structure AgentLoopCompactionPendingPermission where
  index : ℕ
  callId : Text
  toolName : Text
  state : AgentLoopToolObservationState
  execution : Option AgentLoopToolObservationExecution
  output : AgentLoopToolObservationOutput

inductive AgentLoopCompactionTargetState
  | archived | retained
  deriving DecidableEq

inductive ToolTargetSource
  | assistantToolCall | toolObservation
  deriving DecidableEq

structure AgentLoopCompactionToolTarget where
  state : AgentLoopCompactionTargetState
  source : ToolTargetSource
  index : ℕ
  callId : Text
  toolName : Text
  input : Option Json := none
  arguments : Option Json := none
  outputData : Option Json := none

structure AgentLoopCompactionReplacementHistory where
  summarizedIndexes : List ℕ
  retainedIndexes : List ℕ
  systemIndexes : List ℕ
  summaryMessageInserted : Bool

/-- The part of a record that `buildRecordDraft` makes. -/
structure RecordDraft where
  userMessages : List AgentLoopCompactionMessageRef
  assistantDecisions : List AgentLoopCompactionMessageRef
  toolObservations : List AgentLoopCompactionToolObservationRef
  pendingPermissions : List AgentLoopCompactionPendingPermission
  activeTargets : List AgentLoopCompactionToolTarget
  archivedTargets : List AgentLoopCompactionToolTarget
  replacementHistory : AgentLoopCompactionReplacementHistory

/-- `AgentLoopCompactionRecord`. -/
structure AgentLoopCompactionRecord extends RecordDraft where
  sequence : ℕ
  createdAt : Text
  phase : AgentLoopCompactionPhase
  reason : AgentLoopCompactionReason
  inputMessageCount : ℕ
  outputMessageCount : ℕ
  summarizedMessageCount : ℕ
  retainedTailCount : ℕ
  summary : Text
  modelVisibleSummary : Text

/-! ## Histories -/

structure AgentLoopHistory where
  messages : List AgentLoopMessage
  compacted : Bool
  compactionRecords : List AgentLoopCompactionRecord

/-- `function createAgentLoopHistory`. -/
def createAgentLoopHistory (messages : List AgentLoopMessage)
    (compactionRecords : List AgentLoopCompactionRecord) : AgentLoopHistory :=
  { messages
    compacted := !compactionRecords.isEmpty
    compactionRecords }

/-- `function appendAgentLoopHistory`. -/
def appendAgentLoopHistory (history : AgentLoopHistory) (messages : List AgentLoopMessage) :
    AgentLoopHistory :=
  { history with messages := history.messages ++ messages }

@[simp] theorem appendAgentLoopHistory_messages (history : AgentLoopHistory)
    (messages : List AgentLoopMessage) :
    (appendAgentLoopHistory history messages).messages = history.messages ++ messages := rfl

end AgentLoop

end PulSeed
