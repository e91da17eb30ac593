import PulSeed.AgentLoop.Message
import PulSeed.Lib.Batch

/-!
# Batches of tool calls (`response-item-tool-router.ts`, `agent-loop-tool-router.ts`)

`executeBatch` prepares the tool calls of a response, runs those that support it in parallel,
runs the others one after another, and returns an observation for each call. The tools act
on a workspace; a call that supports parallel runs only reads it.

- `executeBatch_observations`: **there is one observation for each call, in the order of the
  calls; a call that runs in parallel observes the workspace before the batch, and every other
  call what it observes when the calls are executed one after another.** A parallel call that
  reads what an earlier call of its batch writes does not see it.

What the tools answer, and whether a turn has been aborted when one of them throws, is up to
the executor. Durations are left out: they are read off the clock.
-/

namespace PulSeed

namespace AgentLoop

namespace ResponseItemToolRouter

open Text

/-! ## Tools -/

/-- `FunctionToolCallResponseItem`. -/
structure FunctionToolCallResponseItem where
  id : Text
  name : Text
  arguments : Option Json

/-- An issue of a `ZodError`. -/
structure ZodIssue where
  path : List Text
  code : Text
  message : Text

/-- What the router asks of an `ITool`. -/
structure Tool where
  safeParse : Option Json → Except (List ZodIssue) (Option Json)
  isConcurrencySafe : Option Json → Bool

/-- `ToolRegistry.get`. -/
abbrev ToolRegistry := Text → Option Tool

/-- `AgentLoopToolPolicy`, the lists of names. -/
structure ToolPolicy where
  allowedTools : Option (List Text) := none
  deniedTools : Option (List Text) := none
  requiredTools : Option (List Text) := none

/-- What the router reads of a turn. -/
structure Turn where
  toolPolicy : ToolPolicy := {}
  taskId : Option Text := none
  sessionId : Text

/-- What the router adds to the context of a tool call. -/
structure ToolCallContext where
  taskId : Option Text
  callId : Text
  sessionId : Text

/-- `ToolResult`, the part that the router reads, and the data. -/
structure ToolResult where
  success : Bool
  summary : Text
  error : Option Text := none
  execution : Option AgentLoopToolObservationExecution := none
  data : Option Json := none

/-- A call of `ToolExecutor.execute` returns a result or throws; then the turn may have been
aborted, or the tool have timed out. -/
inductive Outcome where
  | returned (result : ToolResult)
  | thrown (message : Text) (aborted timedOut : Bool)

section

variable (registry : ToolRegistry)

/-- `isToolAllowed`. -/
def isToolAllowed (name : Text) (turn : Turn) : Bool :=
  let isRequired := (turn.toolPolicy.requiredTools.getD []).contains name
  if (turn.toolPolicy.deniedTools.getD []).contains name then false
  else if turn.toolPolicy.allowedTools.any (fun allowed => !allowed.contains name) && !isRequired
  then false
  else (registry name).isSome

/-- `supportsParallel`. -/
def supportsParallel (name : Text) (input : Option Json) : Bool :=
  (registry name).elim false (·.isConcurrencySafe input)

/-- What the tools do to a workspace, one call at a time. A call that supports parallel runs
leaves it as it is. -/
structure Executor (W : Type) where
  execute : Text → Option Json → ToolCallContext → W → Outcome × W
  reads : ∀ name input context workspace, supportsParallel registry name input = true →
    (execute name input context workspace).2 = workspace

end

/-! ## Observations -/

inductive ToolErrorCode
  | invalidArguments | notAllowed | executionFailed
  deriving DecidableEq

/-- `ToolObservationResponseItem`. -/
inductive Observation where
  | toolResult (callId toolName : Text) (arguments : Option Json) (result : ToolResult)
  | toolError (callId toolName : Text) (arguments : Option Json) (code : ToolErrorCode)
      (message : Text) (details : Option (List ZodIssue)) (result : Option ToolResult)
      (execution : AgentLoopToolObservationExecution)
  | unknownTool (callId toolName : Text) (arguments : Option Json) (message : Text)
      (execution : AgentLoopToolObservationExecution)

/-- `callId`. -/
def Observation.callId : Observation → Text
  | .toolResult callId .. | .toolError callId .. | .unknownTool callId .. => callId

/-- `unknownTool`. -/
def unknownTool (item : FunctionToolCallResponseItem) : Observation :=
  let message := utf16 "Tool \"" ++ item.name ++ utf16 "\" is not registered."
  .unknownTool item.id item.name item.arguments message
    { status := .notExecuted, reason := some .toolError, message := some message }

/-- `formatZodError`. -/
def formatZodError (issues : List ZodIssue) : Text :=
  join (utf16 "; ") (issues.map fun issue =>
    (if issue.path = [] then utf16 "<root>" else join (utf16 ".") issue.path) ++ utf16 ": " ++
      issue.message)

/-- `toolError`, for a call that is not executed. -/
def toolError (item : FunctionToolCallResponseItem) (code : ToolErrorCode) (message : Text)
    (details : Option (List ZodIssue)) (reason : AgentLoopToolObservationReason) : Observation :=
  .toolError item.id item.name item.arguments code message details none
    { status := .notExecuted, reason := some reason, message := some message }

/-- `executionForException`. -/
def executionForException (message : Text) (aborted timedOut : Bool) :
    AgentLoopToolObservationExecution :=
  if aborted then { status := .executed, reason := some .interrupted, message := some message }
  else if timedOut then
    { status := .executed, reason := some .timedOut, message := some message }
  else { status := .notExecuted, reason := some .toolError, message := some message }

/-- The observation of an outcome, in `executePrepared`. -/
def observe (item : FunctionToolCallResponseItem) (arguments : Option Json) :
    Outcome → Observation
  | .returned result =>
    if result.success then .toolResult item.id item.name arguments result
    else .toolError item.id item.name item.arguments .executionFailed
      (result.error.getD result.summary) none (some result)
      (result.execution.getD { status := .executed })
  | .thrown message aborted timedOut =>
    .toolError item.id item.name item.arguments .executionFailed message none none
      (executionForException message aborted timedOut)

/-! ## Batches -/

/-- `PreparedToolCall`; its index is its position. -/
inductive PreparedToolCall where
  | ready (item : FunctionToolCallResponseItem) (arguments : Option Json)
  | observation (observation : Observation)

section

variable (registry : ToolRegistry)

/-- `prepare`. -/
def prepare (turn : Turn) (item : FunctionToolCallResponseItem) : PreparedToolCall :=
  match registry item.name with
  | none => .observation (unknownTool item)
  | some tool =>
    if isToolAllowed registry item.name turn then
      match tool.safeParse item.arguments with
      | .error issues => .observation <| toolError item .invalidArguments
          (utf16 "Invalid arguments for tool \"" ++ item.name ++ utf16 "\": " ++
            formatZodError issues) (some issues) .toolError
      | .ok arguments => .ready item arguments
    else .observation <| toolError item .notAllowed
      (utf16 "Tool \"" ++ item.name ++ utf16 "\" is not allowed in this turn.") none
      .policyBlocked

/-- `status === "observation"`. -/
def PreparedToolCall.settled : PreparedToolCall → Bool
  | .ready .. => false
  | .observation _ => true

/-- A call that is ready and supports parallel runs. -/
def PreparedToolCall.safe : PreparedToolCall → Bool
  | .ready item arguments => supportsParallel registry item.name arguments
  | .observation _ => false

/-- A call that is executed in the parallel group. -/
def PreparedToolCall.runsEarly (job : PreparedToolCall) : Bool :=
  !job.settled && job.safe registry

theorem runsEarly_iff {registry : ToolRegistry} {job : PreparedToolCall} :
    job.runsEarly registry = true ↔ job.settled = false ∧ job.safe registry = true := by
  unfold PreparedToolCall.runsEarly
  rw [Bool.and_eq_true, Bool.not_eq_true']

variable {registry} {W : Type} (executor : Executor registry W) (turn : Turn)

/-- `executePrepared`, and a call that has its observation already. -/
def executePrepared : PreparedToolCall → W → Observation × W
  | .observation observation, workspace => (observation, workspace)
  | .ready item arguments, workspace =>
    let context : ToolCallContext :=
      { taskId := nonEmpty turn.taskId, callId := item.id, sessionId := turn.sessionId }
    let (outcome, workspace) := executor.execute item.name arguments context workspace
    (observe item arguments outcome, workspace)

/-- `executeBatch`: the observations, and the workspace afterwards. -/
def executeBatch (calls : List FunctionToolCallResponseItem) (workspace : W) :
    List (Option Observation) × W :=
  Batch.batch (executePrepared executor turn) PreparedToolCall.settled
    (PreparedToolCall.safe registry) (calls.map (prepare registry turn)) workspace

/-- One call by itself. -/
def executeOne (item : FunctionToolCallResponseItem) (workspace : W) : Observation × W :=
  executePrepared executor turn (prepare registry turn item) workspace

/-- The calls executed one after another in the given order. -/
def executeInOrder (calls : List FunctionToolCallResponseItem) (workspace : W) :
    List Observation × W :=
  Batch.runAll (executeOne executor turn) calls workspace

/-! ## The observations of a batch -/

variable {executor turn}

variable (executor turn) in
/-- Only the calls of the sequential group change the workspace. -/
theorem executePrepared_readsOnly : Batch.ReadsOnly (executePrepared executor turn)
    PreparedToolCall.settled (PreparedToolCall.safe registry) := by
  constructor
  · intro job hsettled
    cases job with
    | ready item arguments => cases hsettled
    | observation observation => exact ⟨observation, fun _ => rfl⟩
  · intro job workspace _ hsafe
    cases job with
    | ready item arguments => exact executor.reads _ _ _ _ hsafe
    | observation observation => rfl

/-- An observation names its call. -/
theorem executeOne_callId (item : FunctionToolCallResponseItem) (workspace : W) :
    (executeOne executor turn item workspace).1.callId = item.id := by
  unfold executeOne prepare
  split
  · rfl
  · split
    · split
      · rfl
      · unfold executePrepared observe
        dsimp only
        split
        · split <;> rfl
        · rfl
    · rfl

theorem runAll_prepared (calls : List FunctionToolCallResponseItem) (workspace : W) :
    Batch.runAll (executePrepared executor turn) (calls.map (prepare registry turn)) workspace =
      executeInOrder executor turn calls workspace := by
  unfold executeInOrder
  induction calls generalizing workspace with
  | nil => rfl
  | cons item calls ih =>
    rw [List.map_cons]
    unfold Batch.runAll
    rw [ih]
    rfl

/-- **The observation of a call**, in the workspace before the batch or in its turn. -/
theorem executeBatch_getElem? (before : List FunctionToolCallResponseItem)
    (item : FunctionToolCallResponseItem) (after : List FunctionToolCallResponseItem)
    (workspace : W) :
    (executeBatch executor turn (before ++ item :: after) workspace).1[before.length]? =
      some (some (executeOne executor turn item
        (if (prepare registry turn item).settled = false ∧
            (prepare registry turn item).safe registry = true then workspace
          else (executeInOrder executor turn before workspace).2)).1) := by
  have hget := Batch.batch_getElem? (executePrepared_readsOnly executor turn)
    (before.map (prepare registry turn)) (prepare registry turn item) (after.map (prepare registry turn)) workspace
  rw [List.length_map, runAll_prepared] at hget
  unfold executeBatch executeOne
  rw [List.map_append, List.map_cons]
  exact hget

/-- The observations are in the order of the calls. -/
theorem executeBatch_callIds {W : Type} (executor : Executor registry W) (turn : Turn)
    (calls : List FunctionToolCallResponseItem) (workspace : W) :
    ((executeBatch executor turn calls workspace).1.map fun slot => slot.map (·.callId)) =
      calls.map fun item => some item.id := by
  apply List.ext_getElem?
  intro i
  rw [List.getElem?_map, List.getElem?_map]
  by_cases hi : i < calls.length
  · obtain ⟨before, after, hcalls, rfl⟩ : ∃ before after,
        calls = before ++ calls[i] :: after ∧ before.length = i := by
      refine ⟨calls.take i, calls.drop (i + 1), ?_, List.length_take_of_le (Nat.le_of_lt hi)⟩
      rw [List.getElem_cons_drop, List.take_append_drop]
    generalize calls[before.length] = item at hcalls
    subst hcalls
    rw [executeBatch_getElem?, Option.map_some, Option.map_some, executeOne_callId,
      List.getElem?_append_right (Nat.le_refl _), Nat.sub_self]
    rfl
  · have hi : calls.length ≤ i := Nat.not_lt.mp hi
    have hlen : (executeBatch executor turn calls workspace).1.length = calls.length := by
      unfold executeBatch
      rw [Batch.batch_length, List.length_map]
    rw [List.getElem?_eq_none hi, List.getElem?_eq_none (by rwa [hlen])]
    rfl

/-- The observations are those of the calls in order exactly when the calls that may run in
parallel observe the same before the batch and in their turn. -/
theorem executeBatch_eq_inOrder_iff {W : Type} (executor : Executor registry W) (turn : Turn)
    (calls : List FunctionToolCallResponseItem) (workspace : W) :
    (executeBatch executor turn calls workspace).1 =
        (executeInOrder executor turn calls workspace).1.map some ↔
      ∀ before item after, calls = before ++ item :: after →
        (prepare registry turn item).runsEarly registry = true →
        (executeOne executor turn item workspace).1 = (executeOne executor turn item
          (executeInOrder executor turn before workspace).2).1 := by
  rw [← runAll_prepared]
  unfold executeBatch
  rw [Batch.batch_eq_iff (executePrepared_readsOnly executor turn)]
  constructor
  · rintro hsame before item after rfl hearly
    obtain ⟨hready, hsafe⟩ := runsEarly_iff.mp hearly
    have hitem := hsame (before.map (prepare registry turn)) (prepare registry turn item)
      (after.map (prepare registry turn)) (by rw [List.map_append, List.map_cons]) hready hsafe
    rwa [runAll_prepared] at hitem
  · intro hsame before job after hsplit hready hsafe
    obtain ⟨items, rest, rfl, rfl, hrest⟩ := List.map_eq_append_iff.mp hsplit
    obtain ⟨item, tail, rfl, rfl, rfl⟩ := List.map_eq_cons_iff.mp hrest
    rw [runAll_prepared]
    exact hsame items item tail rfl (runsEarly_iff.mpr ⟨hready, hsafe⟩)

/-- **What a batch observes**: one observation for each call, in the order of the calls. A call
that runs in parallel observes the workspace before the batch, and every other call what it
observes when the calls are executed one after another. So all observe that exactly when the
parallel calls observe the same before the batch and in their turn. -/
theorem executeBatch_observations {W : Type} (executor : Executor registry W) (turn : Turn)
    (calls : List FunctionToolCallResponseItem) (workspace : W) :
    ((executeBatch executor turn calls workspace).1.map fun slot => slot.map (·.callId)) =
        calls.map (fun item => some item.id) ∧
      (∀ before item after, calls = before ++ item :: after →
        (executeBatch executor turn calls workspace).1[before.length]? =
          if (prepare registry turn item).runsEarly registry = true then
            some (some (executeOne executor turn item workspace).1)
          else some (executeInOrder executor turn calls workspace).1[before.length]?) ∧
      ((executeBatch executor turn calls workspace).1 =
          (executeInOrder executor turn calls workspace).1.map some ↔
        ∀ before item after, calls = before ++ item :: after →
          (prepare registry turn item).runsEarly registry = true →
          (executeOne executor turn item workspace).1 = (executeOne executor turn item
            (executeInOrder executor turn before workspace).2).1) := by
  refine ⟨executeBatch_callIds executor turn calls workspace, ?_,
    executeBatch_eq_inOrder_iff executor turn calls workspace⟩
  rintro before item after rfl
  rw [executeBatch_getElem?]
  by_cases hearly : (prepare registry turn item).runsEarly registry = true
  · rw [if_pos hearly, if_pos (runsEarly_iff.mp hearly)]
  · rw [if_neg hearly, if_neg (fun h => hearly (runsEarly_iff.mpr h))]
    unfold executeInOrder
    rw [Batch.runAll_getElem?]

end

/-! ## A sample batch -/

/-- A file that is written by one tool and read by another, which supports parallel runs. -/
def sampleRegistry : ToolRegistry := fun name =>
  if name = utf16 "write" then some { safeParse := .ok, isConcurrencySafe := fun _ => false }
  else if name = utf16 "read" then some { safeParse := .ok, isConcurrencySafe := fun _ => true }
  else none

/-- The workspace is the content of the file. -/
def sampleExecutor : Executor sampleRegistry Text where
  execute name _ _ content :=
    if name = utf16 "write" then (.returned { success := true, summary := utf16 "written" },
      utf16 "new")
    else (.returned { success := true, summary := content }, content)
  reads := by
    intro name input context content hparallel
    by_cases hwrite : name = utf16 "write"
    · subst hwrite
      cases hparallel
    · rw [if_neg hwrite]

def sampleCalls : List FunctionToolCallResponseItem :=
  [{ id := utf16 "1", name := utf16 "write", arguments := none },
    { id := utf16 "2", name := utf16 "read", arguments := none }]

/-- What an observation shows of a result. -/
def Observation.shown : Observation → Option Text
  | .toolResult _ _ _ result => some result.summary
  | _ => none

/-- **A call that reads the file after it is written observes what was in it before.** -/
theorem read_after_write_differs :
    (executeBatch sampleExecutor { sessionId := utf16 "s" } sampleCalls (utf16 "old")).1 ≠
      (executeInOrder sampleExecutor { sessionId := utf16 "s" } sampleCalls
        (utf16 "old")).1.map some := by
  intro heq
  have hshown := congrArg (List.map fun slot => slot.bind Observation.shown) heq
  exact absurd hshown (by decide +kernel)

end ResponseItemToolRouter

end AgentLoop

end PulSeed
