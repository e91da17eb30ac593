import PulSeed.AgentLoop.Message

/-!
# The extractive compactor (`orchestrator/execution/agent-loop/agent-loop-compactor.ts`)

`compact` keeps a history within a number of messages: the system messages stay,
the last messages of the others stay as a *tail*, and the ones before are replaced
by one user message with a summary of them. Summaries of earlier compactions are
ordinary user messages, recognised by their prefix; they are kept neither in the
tail nor in what is summarised.

`JSON.stringify` is a parameter. `compactIfNeeded` of the bounded runner decides
when a conversation is compacted.
-/

namespace PulSeed

namespace AgentLoop

open Text

/-- `AGENT_LOOP_COMPACTION_SUMMARY_PREFIX`. -/
def summaryPrefix : Text := utf16 "Summary of earlier agentloop context:"

/-- `function isCompactionSummaryMessage`. -/
def isCompactionSummaryMessage (message : AgentLoopMessage) : Bool :=
  decide (message.role = .user) && summaryPrefix.isPrefixOf message.content

/-- `ExtractiveAgentLoopCompactor`, with the rendering of JSON values it uses. -/
structure ExtractiveAgentLoopCompactor where
  defaultMaxMessages : Number := .finite 8
  maxSummaryChars : Number := .finite 6000
  stringifyJson : Json → Text

/-- What a caller of `compact` asks for, and the time at which it runs. -/
structure CompactionRequest where
  maxMessages : Option Number := none
  phase : Option AgentLoopCompactionPhase := none
  reason : Option AgentLoopCompactionReason := none
  now : Text := []

/-- `AgentLoopCompactionInput`. -/
structure AgentLoopCompactionInput extends CompactionRequest where
  history : AgentLoopHistory

structure AgentLoopCompactionResult where
  history : AgentLoopHistory
  compacted : Bool
  summary : Option Text := none

/-- A message with its index in the history. -/
abbrev Entry := AgentLoopMessage × ℕ

/-! ## The record of a compaction -/

/-- `function messageRef`. -/
def messageRef (message : AgentLoopMessage) (index : ℕ) : AgentLoopCompactionMessageRef :=
  { index
    role := message.role
    content := message.content
    phase := message.phase
    toolCallId := nonEmpty message.toolCallId
    toolName := nonEmpty message.toolName }

/-- `function toolObservationRef`. -/
def toolObservationRef (observation : AgentLoopToolObservation) (index : ℕ) :
    AgentLoopCompactionToolObservationRef :=
  { index
    callId := observation.callId
    toolName := observation.toolName
    state := observation.state
    success := observation.success
    execution := observation.execution
    arguments := observation.arguments
    output := observation.output
    command := nonEmpty observation.command
    cwd := nonEmpty observation.cwd
    artifacts := observation.artifacts
    activityCategory := nonEmpty observation.activityCategory }

/-- `function pendingPermissionRef`. -/
def pendingPermissionRef (observation : AgentLoopToolObservation) (index : ℕ) :
    AgentLoopCompactionPendingPermission :=
  { index
    callId := observation.callId
    toolName := observation.toolName
    state := observation.state
    execution := observation.execution
    output := observation.output }

/-- `function isPermissionConstraint`. -/
def isPermissionConstraint (observation : AgentLoopToolObservation) : Bool :=
  if observation.execution.map (·.status) ≠ some .notExecuted then false
  else decide (observation.state = .denied) || decide (observation.state = .blocked)

/-- `function toolTargets`. -/
def toolTargets (message : AgentLoopMessage) (index : ℕ)
    (state : AgentLoopCompactionTargetState) : List AgentLoopCompactionToolTarget :=
  let assistantTargets := (message.toolCalls.getD []).map fun call =>
    { state
      source := ToolTargetSource.assistantToolCall
      index
      callId := call.id
      toolName := call.name
      input := call.input : AgentLoopCompactionToolTarget }
  let observationTargets := message.observation.toList.map fun observation =>
    { state
      source := ToolTargetSource.toolObservation
      index
      callId := observation.callId
      toolName := observation.toolName
      arguments := observation.arguments
      outputData := observation.output.data : AgentLoopCompactionToolTarget }
  assistantTargets ++ observationTargets

/-- `buildRecordDraft`. -/
def buildRecordDraft (summarizedEntries tailEntries systemEntries : List Entry) : RecordDraft :=
  { userMessages := (summarizedEntries.filter fun e => e.1.role = .user).map
      fun e => messageRef e.1 e.2
    assistantDecisions := (summarizedEntries.filter fun e => e.1.role = .assistant).map
      fun e =>
        let calls := e.1.toolCalls.getD []
        { messageRef e.1 e.2 with toolCalls := if calls = [] then none else some calls }
    toolObservations := summarizedEntries.flatMap fun e =>
      e.1.observation.toList.map fun observation => toolObservationRef observation e.2
    pendingPermissions := summarizedEntries.flatMap fun e =>
      (e.1.observation.toList.filter isPermissionConstraint).map
        fun observation => pendingPermissionRef observation e.2
    activeTargets := tailEntries.flatMap fun e => toolTargets e.1 e.2 .retained
    archivedTargets := summarizedEntries.flatMap fun e => toolTargets e.1 e.2 .archived
    replacementHistory :=
      { summarizedIndexes := summarizedEntries.map (·.2)
        retainedIndexes := tailEntries.map (·.2)
        systemIndexes := systemEntries.map (·.2)
        summaryMessageInserted := decide (0 < summarizedEntries.length) } }

/-! ## The summary -/

/-- `function section`. -/
def sectionText (title : String) (lines : List Text) : Text :=
  if lines = [] then [] else utf16 title ++ utf16 ":\n" ++ join newline lines

def indexText (index : ℕ) : Text := utf16 (toString index)

/-- The indexes of a list, or `none`. -/
def indexesText (indexes : List ℕ) : Text :=
  if join (utf16 ", ") (indexes.map indexText) = [] then utf16 "none"
  else join (utf16 ", ") (indexes.map indexText)

/-- `output.summary ?? output.content`. -/
def AgentLoopToolObservationOutput.shown (output : AgentLoopToolObservationOutput) : Text :=
  output.summary.getD output.content

/-- `a ?? b` on JSON values, where null gives way as well. -/
def orElseNull : Option Json → Option Json → Option Json
  | none, b | some .null, b => b
  | a, _ => a

variable (self : ExtractiveAgentLoopCompactor)

/-- `function stringify`. -/
def ExtractiveAgentLoopCompactor.stringify : Json → Text
  | .str s => utf16 s
  | value => self.stringifyJson value

/-- `buildSummary`. -/
def ExtractiveAgentLoopCompactor.buildSummary (record : RecordDraft)
    (input : AgentLoopCompactionInput) : Text :=
  let header := join newline
    [utf16 "phase: " ++ (input.phase.getD .standaloneTurn).text,
      utf16 "reason: " ++ (input.reason.getD .contextLimit).text,
      utf16 "Preserve task intent, tool results, files, failures, permissions, retained current targets, and archived stale targets."]
  let userMessages := record.userMessages.map fun message =>
    utf16 "- message_index=" ++ indexText message.index ++ utf16 ": " ++
      preview message.content (.finite 700)
  let assistantDecisions := record.assistantDecisions.map fun message =>
    let tools := join (utf16 ", ") ((message.toolCalls.getD []).map (·.name))
    utf16 "- message_index=" ++ indexText message.index ++
      (if tools = [] then [] else utf16 " tool_calls=" ++ tools) ++ utf16 ": " ++
      preview message.content (.finite 700)
  let toolObservations := record.toolObservations.map fun observation =>
    utf16 "- message_index=" ++ indexText observation.index ++
      utf16 " tool=" ++ observation.toolName ++ utf16 " state=" ++ observation.state.text ++
      utf16 " executed=" ++ (observation.execution.map (·.status.text)).getD (utf16 "unknown") ++
      utf16 ": " ++ preview observation.output.shown (.finite 700)
  let pendingPermissions := record.pendingPermissions.map fun permission =>
    utf16 "- message_index=" ++ indexText permission.index ++
      utf16 " tool=" ++ permission.toolName ++ utf16 " state=" ++ permission.state.text ++
      utf16 " reason=" ++
      ((permission.execution.bind (·.reason)).map (·.text)).getD (utf16 "unknown") ++
      utf16 ": " ++ preview permission.output.shown (.finite 500)
  let activeTargets := record.activeTargets.map fun target =>
    utf16 "- retained message_index=" ++ indexText target.index ++
      utf16 " tool=" ++ target.toolName ++ utf16 " call_id=" ++ target.callId ++ utf16 ": " ++
      preview (self.stringify ((orElseNull target.input
        (orElseNull target.arguments (orElseNull target.outputData none))).getD (.obj [])))
        (.finite 500)
  let archivedTargets := record.archivedTargets.map fun target =>
    utf16 "- archived message_index=" ++ indexText target.index ++
      utf16 " tool=" ++ target.toolName ++ utf16 " call_id=" ++ target.callId ++
      utf16 "; do not treat as current unless a later retained message re-selects it."
  let replacement :=
    [utf16 "- summarized_indexes: " ++ indexesText record.replacementHistory.summarizedIndexes,
      utf16 "- retained_indexes: " ++ indexesText record.replacementHistory.retainedIndexes]
  let sections :=
    [sectionText "User messages" userMessages,
      sectionText "Assistant decisions" assistantDecisions,
      sectionText "Tool observations" toolObservations,
      sectionText "Pending permissions" pendingPermissions,
      sectionText "Retained active targets" activeTargets,
      sectionText "Archived stale targets" archivedTargets,
      sectionText "Replacement history" replacement].filter (· ≠ [])
  preview (header ++ newline ++ join newline sections) self.maxSummaryChars

/-! ## Compaction -/

/-- The limit a compaction works with: at least three messages. -/
def ExtractiveAgentLoopCompactor.maxMessages (limit : Option Number) : Number :=
  Number.max (.finite 3) (limit.getD self.defaultMaxMessages)

/-- The number of messages to retain besides `systems` system messages: at least two. -/
def tailCount (maxMessages : Number) (systems : ℕ) : Number :=
  Number.max (.finite 2) ((maxMessages.sub (.finite systems)).sub (.finite 1))

/-- The message that stands for the summarised ones. -/
def summaryMessage (summary : Text) : AgentLoopMessage :=
  { role := .user
    content := summaryPrefix ++ newline ++ summary }

/-- `compact`. -/
def ExtractiveAgentLoopCompactor.compact (input : AgentLoopCompactionInput) :
    AgentLoopCompactionResult :=
  let maxMessages := self.maxMessages input.maxMessages
  let messages := input.history.messages
  if (Number.finite messages.length).le maxMessages then
    { history := input.history
      compacted := false }
  else
    let indexedMessages := messages.zipIdx
    let systemEntries := indexedMessages.filter fun e => e.1.role = .system
    let nonSystemEntries := indexedMessages.filter fun e => e.1.role ≠ .system
    let systemMessages := systemEntries.map (·.1)
    let rawTailEntries :=
      sliceFrom (tailCount maxMessages systemMessages.length).neg nonSystemEntries
    let tailEntries := rawTailEntries.filter fun e => !isCompactionSummaryMessage e.1
    let tailIndexSet := rawTailEntries.map (·.2)
    let summarizedEntries := (nonSystemEntries.filter fun e => e.2 ∉ tailIndexSet).filter
      fun e => !isCompactionSummaryMessage e.1
    let tail := tailEntries.map (·.1)
    let summarized := summarizedEntries.map (·.1)
    if summarized.length = 0 then
      { history := { input.history with messages := systemMessages ++ tail }
        compacted := false }
    else
      let recordDraft := buildRecordDraft summarizedEntries tailEntries systemEntries
      let summary := self.buildSummary recordDraft input
      let modelVisibleSummary := summaryPrefix ++ newline ++ summary
      let replacement := systemMessages ++ summaryMessage summary :: tail
      let record : AgentLoopCompactionRecord :=
        { recordDraft with
          sequence := input.history.compactionRecords.length
          createdAt := input.now
          phase := input.phase.getD .standaloneTurn
          reason := input.reason.getD .contextLimit
          inputMessageCount := messages.length
          outputMessageCount := replacement.length
          summarizedMessageCount := summarizedEntries.length
          retainedTailCount := tailEntries.length
          summary
          modelVisibleSummary }
      { history :=
          { messages := replacement
            compacted := true
            compactionRecords := input.history.compactionRecords ++ [record] }
        compacted := true
        summary := some summary }

/-! ## What a compaction keeps -/

def systemMessages (messages : List AgentLoopMessage) : List AgentLoopMessage :=
  messages.filter fun m => m.role = .system

def nonSystemMessages (messages : List AgentLoopMessage) : List AgentLoopMessage :=
  messages.filter fun m => m.role ≠ .system

/-- The history is within the limit, and `compact` returns it as it is. -/
def ExtractiveAgentLoopCompactor.Fits (limit : Option Number)
    (messages : List AgentLoopMessage) : Prop :=
  (Number.finite messages.length).le (self.maxMessages limit) = true

instance (limit : Option Number) (messages : List AgentLoopMessage) :
    Decidable (self.Fits limit messages) := inferInstanceAs (Decidable (_ = true))

/-- The number of messages besides the system messages that lie before the tail. -/
def ExtractiveAgentLoopCompactor.cut (limit : Option Number)
    (messages : List AgentLoopMessage) : ℕ :=
  sliceIndex (nonSystemMessages messages).length
    (tailCount (self.maxMessages limit) (systemMessages messages).length).neg

def notSummary (message : AgentLoopMessage) : Bool := !isCompactionSummaryMessage message

/-- The tail, as `compact` keeps it. -/
def ExtractiveAgentLoopCompactor.tailOf (limit : Option Number)
    (messages : List AgentLoopMessage) : List AgentLoopMessage :=
  ((nonSystemMessages messages).drop (self.cut limit messages)).filter notSummary

/-- The messages before the tail that are summarised. -/
def ExtractiveAgentLoopCompactor.summarizedOf (limit : Option Number)
    (messages : List AgentLoopMessage) : List AgentLoopMessage :=
  ((nonSystemMessages messages).take (self.cut limit messages)).filter notSummary

theorem map_fst_filter_zipIdx (messages : List AgentLoopMessage) (p : AgentLoopMessage → Bool) :
    ((messages.zipIdx.filter fun e => p e.1).map (·.1)) = messages.filter p := by
  conv_rhs => rw [← List.zipIdx_map_fst 0 messages, List.filter_map]
  rfl

/-- Taking away a suffix by its keys leaves the prefix, when no key occurs twice. -/
theorem filter_key_notMem_drop {α : Type} {entries : List (α × ℕ)}
    (hnodup : (entries.map (·.2)).Nodup) (n : ℕ) :
    entries.filter (fun e => e.2 ∉ (entries.drop n).map (·.2)) = entries.take n := by
  have hsplit : (entries.map (·.2)) = (entries.take n).map (·.2) ++ (entries.drop n).map (·.2) := by
    rw [← List.map_append, List.take_append_drop]
  have hdisj := (List.nodup_append.mp (hsplit ▸ hnodup)).2.2
  conv_lhs => rw [← List.take_append_drop n entries]
  rw [List.filter_append, List.take_append_drop]
  have hfront : (entries.take n).filter (fun e => e.2 ∉ (entries.drop n).map (·.2))
      = entries.take n := by
    refine List.filter_eq_self.mpr fun e he => ?_
    have hmem : e.2 ∈ (entries.take n).map (·.2) := List.mem_map_of_mem he
    exact decide_eq_true fun hdrop => hdisj _ hmem _ hdrop rfl
  have hback : (entries.drop n).filter (fun e => e.2 ∉ (entries.drop n).map (·.2)) = [] := by
    refine List.filter_eq_nil_iff.mpr fun e he => ?_
    have hmem : e.2 ∈ (entries.drop n).map (·.2) := List.mem_map_of_mem he
    simpa using hmem
  rw [hfront, hback, List.append_nil]

/-- The indexes of some entries of a history lead back to their messages. -/
theorem filterMap_getElem_entries {messages : List AgentLoopMessage} {entries : List Entry}
    (h : ∀ e ∈ entries, e ∈ messages.zipIdx) :
    (entries.map (·.2)).filterMap (messages[·]?) = entries.map (·.1) := by
  induction entries with
  | nil => rfl
  | cons e entries ih =>
    have hget : messages[e.2]? = some e.1 := List.mem_zipIdx_iff_getElem?.mp (h e (by simp))
    have hrest := ih fun e' he' => h e' (by simp [he'])
    simp [hget, hrest]

/-- **What `compact` does**: nothing when the history is within the limit; otherwise the
system messages and the tail stay, and the messages before the tail that are no summaries,
if there are any, are replaced by a summary. -/
theorem compact_cases (input : AgentLoopCompactionInput) :
    (self.Fits input.maxMessages input.history.messages ∧
      self.compact input = { history := input.history, compacted := false }) ∨
    (¬ self.Fits input.maxMessages input.history.messages ∧
      self.summarizedOf input.maxMessages input.history.messages = [] ∧
      self.compact input =
        { history :=
            { input.history with
              messages := systemMessages input.history.messages ++
                self.tailOf input.maxMessages input.history.messages }
          compacted := false }) ∨
    (¬ self.Fits input.maxMessages input.history.messages ∧
      self.summarizedOf input.maxMessages input.history.messages ≠ [] ∧
      ∃ record : AgentLoopCompactionRecord,
        record.replacementHistory.summarizedIndexes.filterMap (input.history.messages[·]?) =
          self.summarizedOf input.maxMessages input.history.messages ∧
        self.compact input =
          { history :=
              { messages := systemMessages input.history.messages ++
                  summaryMessage record.summary ::
                    self.tailOf input.maxMessages input.history.messages
                compacted := true
                compactionRecords := input.history.compactionRecords ++ [record] }
            compacted := true
            summary := some record.summary }) := by
  set messages := input.history.messages with hmessages
  set limit := input.maxMessages with hlimit
  by_cases hfits : self.Fits limit messages
  · exact .inl ⟨hfits, if_pos hfits⟩
  set systemEntries := messages.zipIdx.filter fun e => decide (e.1.role = .system) with hsystem
  set others := messages.zipIdx.filter fun e => decide (e.1.role ≠ .system) with hothers
  have hsystemMap : systemEntries.map (·.1) = systemMessages messages :=
    map_fst_filter_zipIdx messages fun m => decide (m.role = .system)
  have hothersMap : others.map (·.1) = nonSystemMessages messages :=
    map_fst_filter_zipIdx messages fun m => decide (m.role ≠ .system)
  have hlength : others.length = (nonSystemMessages messages).length := by
    rw [← hothersMap, List.length_map]
  have hnodup : (others.map (·.2)).Nodup := by
    refine List.Nodup.sublist (List.filter_sublist.map _) ?_
    rw [List.zipIdx_map_snd]
    exact List.nodup_range'
  have hraw : sliceFrom (tailCount (self.maxMessages limit)
      (systemEntries.map (·.1)).length).neg others = others.drop (self.cut limit messages) := by
    rw [sliceFrom, hlength, hsystemMap]
    rfl
  have htail : ((others.drop (self.cut limit messages)).filter
      fun e => !isCompactionSummaryMessage e.1).map (·.1) = self.tailOf limit messages := by
    rw [ExtractiveAgentLoopCompactor.tailOf, ← hothersMap, ← List.map_drop, List.filter_map]
    rfl
  have hsummarized : ((others.take (self.cut limit messages)).filter
      fun e => !isCompactionSummaryMessage e.1).map (·.1) = self.summarizedOf limit messages := by
    rw [ExtractiveAgentLoopCompactor.summarizedOf, ← hothersMap, ← List.map_take, List.filter_map]
    rfl
  have hcompact := show self.compact input = _ from if_neg hfits
  dsimp only at hcompact
  rw [← hmessages, ← hlimit, ← hsystem, ← hothers, hraw, filter_key_notMem_drop hnodup, htail,
    hsummarized, hsystemMap] at hcompact
  by_cases hnone : self.summarizedOf limit messages = []
  · exact .inr (.inl ⟨hfits, hnone, hcompact.trans (if_pos (by rw [hnone]; rfl))⟩)
  · have hlength : ¬ (self.summarizedOf limit messages).length = 0 := by simpa using hnone
    rw [if_neg hlength] at hcompact
    have hindexes : ∀ e ∈ (others.take (self.cut limit messages)).filter
        (fun e => !isCompactionSummaryMessage e.1), e ∈ messages.zipIdx := fun e he =>
      (List.mem_filter.mp (List.mem_of_mem_take (List.mem_filter.mp he).1)).1
    -- the record and its summary are read off the result
    obtain ⟨record, _, rfl, hrecord⟩ : ∃ (record : AgentLoopCompactionRecord) (summary : Text),
        record.summary = summary ∧
        record.replacementHistory.summarizedIndexes.filterMap (messages[·]?) =
          self.summarizedOf limit messages ∧
        self.compact input =
          { history :=
              { messages := systemMessages messages ++
                  summaryMessage summary :: self.tailOf limit messages
                compacted := true
                compactionRecords := input.history.compactionRecords ++ [record] }
            compacted := true
            summary := some summary } := by
      refine ⟨_, _, ?_, ?_, hcompact⟩
      · rfl
      · exact (filterMap_getElem_entries hindexes).trans hsummarized
    exact .inr (.inr ⟨hfits, hnone, record, hrecord⟩)

/-! ## The runner's use of it (`bounded-agent-loop-runner.ts`) -/

/-- What `compactIfNeeded` reads of a turn. -/
structure CompactionBudget where
  autoCompactTokenLimit : Option Number
  contextLimitTokens : Option Number
  maxCompactions : Number
  compactionMaxMessages : Option Number

/-- `x && x > 0 ? x : undefined`. -/
def positive? (x : Option Number) : Option Number :=
  x.filter fun n => (Number.finite 0).lt n

/-- `autoCompactLimit`. -/
def autoCompactLimit (budget : CompactionBudget) : Option Number :=
  match positive? budget.autoCompactTokenLimit with
  | some limit => some limit
  | none => (positive? budget.contextLimitTokens).map fun contextLimit =>
    match contextLimit.mul (.finite (9 / 10)) with
    | .finite q => .finite q.floor
    | n => n

/-- `estimateTokens`: a quarter of the characters, rounded up. -/
def estimateTokens (messages : List AgentLoopMessage) : Number :=
  .finite (((messages.map (·.content.length)).sum : ℚ) / 4).ceil

structure CompactIfNeededResult where
  messages : List AgentLoopMessage
  compactionRecords : List AgentLoopCompactionRecord
  compacted : Bool
  error : Option Text := none

/-- `compactIfNeeded`; `recordError` is the error with which the trace event of a
compaction could not be written. -/
def compactIfNeeded (budget : CompactionBudget) (messages : List AgentLoopMessage)
    (phase : AgentLoopCompactionPhase) (reason : AgentLoopCompactionReason)
    (usageTokens : Option Number) (compactions : ℕ)
    (compactionRecords : List AgentLoopCompactionRecord) (now : Text)
    (recordError : Option Text) : CompactIfNeededResult :=
  match (autoCompactLimit budget).filter fun limit => limit ≠ .finite 0 ∧ limit ≠ .nan with
  | none => { messages, compactionRecords, compacted := false }
  | some limit =>
    if budget.maxCompactions.le (.finite compactions) then
      { messages, compactionRecords, compacted := false }
    else if ((positive? usageTokens).getD (estimateTokens messages)).lt limit then
      { messages, compactionRecords, compacted := false }
    else
      let result := self.compact
        { history := createAgentLoopHistory messages compactionRecords
          maxMessages := budget.compactionMaxMessages
          phase := some phase
          reason := some reason
          now }
      match result.compacted, recordError with
      | true, some error => { messages, compactionRecords, compacted := false, error := some error }
      | compacted, _ =>
        { messages := result.history.messages
          compactionRecords := result.history.compactionRecords
          compacted }

end AgentLoop

end PulSeed
