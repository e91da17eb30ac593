import PulSeed.AgentLoop.Runner

/-!
# The bounds of a run

A round of the loop that goes on has asked the model once and has used up a turn, or the
finalization reserve; so a run ends, after a number of requests that is known when it starts.
The tool calls are counted only between rounds: a batch is executed as a whole.

- `respects_iff_fits`: **a run ends within its bounds, and is successful only when every
  required tool was executed and the completion validator was satisfied, exactly when every
  batch that it executes fits in what is left of the bound on tool calls.** All but this bound
  hold in every run.
-/

namespace PulSeed

namespace AgentLoop

namespace BoundedAgentLoopRunner

open Text

/-! ## What the effects of a run show -/

/-- The requests to the model. -/
def Effect.requests : Effect → ℕ
  | .modelRequest .. => 1
  | _ => 0

/-- The tool calls that are executed. -/
def Effect.calls : Effect → ℕ
  | .toolBatch calls _ => calls.length
  | _ => 0

/-- The tools that were executed, by what their outputs say. -/
def Effect.tools : Effect → List Text
  | .toolBatch _ outputs => (outputs.filter (·.executed)).map (·.toolName)
  | _ => []

/-- The verdicts of the completion validator. -/
def Effect.verdicts : Effect → List Bool
  | .completionValidation ok => [ok]
  | _ => []

def requests (effects : List Effect) : ℕ := (effects.map Effect.requests).sum
def executedCalls (effects : List Effect) : ℕ := (effects.map Effect.calls).sum
def executedTools (effects : List Effect) : List Text := effects.flatMap Effect.tools
def verdicts (effects : List Effect) : List Bool := effects.flatMap Effect.verdicts

section

variable (effects effects' : List Effect)

@[simp] theorem requests_append : requests (effects ++ effects') =
    requests effects + requests effects' := by
  simp [requests]

@[simp] theorem executedCalls_append : executedCalls (effects ++ effects') =
    executedCalls effects + executedCalls effects' := by
  simp [executedCalls]

@[simp] theorem executedTools_append : executedTools (effects ++ effects') =
    executedTools effects ++ executedTools effects' := by
  simp [executedTools]

@[simp] theorem verdicts_append : verdicts (effects ++ effects') =
    verdicts effects ++ verdicts effects' := by
  simp [verdicts]

end

section

variable {Output : Type} (turn : AgentLoopTurnContext Output)

/-- A success is reported when the required tools have been called and, in structured mode,
the last verdict was a good one. -/
structure Earned (calledTools : List Text) (verdicts : List Bool) : Prop where
  tools : ∀ tool ∈ turn.requiredTools.getD [], tool ∈ calledTools
  verdict : turn.finalOutputMode = .schema → turn.hasCompletionValidator = true →
    verdicts.getLast? = some true

/-! ## After a response -/

/-- What the part of a round that follows a response does. -/
structure Followed (s : State) (effects : List Effect) (next : Next Output) : Prop where
  asked : requests effects = 0
  resumed : ∀ s', next = .resume s' →
    s'.modelTurns = s.modelTurns ∧ s'.finalizationReserveUsed = s.finalizationReserveUsed ∧
      s'.toolCalls = s.toolCalls + executedCalls effects ∧
      ∀ tool ∈ s'.calledTools, tool ∈ s.calledTools ∨ tool ∈ executedTools effects
  success : ∀ result, next = .stop result → result.success = true →
    Earned turn s.calledTools (verdicts effects)

variable {turn}

/-- It does the same from a state with the same counts. -/
theorem Followed.of_eq {s : State} {effects : List Effect} {next : Next Output} (s' : State)
    (hturns : s'.modelTurns = s.modelTurns)
    (hreserve : s'.finalizationReserveUsed = s.finalizationReserveUsed)
    (hcalls : s'.toolCalls = s.toolCalls) (htools : s'.calledTools = s.calledTools)
    (h : Followed turn s' effects next) : Followed turn s effects next where
  asked := h.asked
  resumed := by
    rw [← hturns, ← hreserve, ← hcalls, ← htools]
    exact h.resumed
  success := by
    rw [← htools]
    exact h.success

/-- A result without success needs nothing. -/
theorem followed_stopped {s : State} {effects : List Effect} (hrequests : requests effects = 0)
    (s' : State) (reason : AgentLoopStopReason) (finalText : Text) (detail : Option Text)
    (failureReason : Option AgentLoopFailureReason) {attempts : Option ℕ} :
    Followed turn s effects
      (.stop (stopped s' reason finalText detail failureReason attempts)) where
  asked := hrequests
  resumed := by
    intro s' h
    cases h
  success := by
    intro result h hsuccess
    cases h
    cases hsuccess

variable (Output) in
theorem compactAndResume_cases (s : State) (input : Turn) (usageTokens : Option Number)
    (attempts : Option ℕ) :
    (compactAndResume s input usageTokens attempts : Next Output) =
        .stop (stop s .fatalError attempts) ∨
      ∃ messages records compactions,
        (compactAndResume s input usageTokens attempts : Next Output) = .resume { s with
          messages := messages, compactionRecords := records, compactions := compactions } := by
  unfold compactAndResume
  dsimp only
  split
  · exact .inl rfl
  · exact .inr ⟨_, _, _, rfl⟩

/-- A round that goes on after a step which keeps count. -/
theorem followed_compactAndResume {s s' : State} {effects : List Effect} (input : Turn)
    (usageTokens : Option Number) {attempts : Option ℕ} (hrequests : requests effects = 0)
    (hturns : s'.modelTurns = s.modelTurns)
    (hreserve : s'.finalizationReserveUsed = s.finalizationReserveUsed)
    (hcalls : s'.toolCalls = s.toolCalls + executedCalls effects)
    (htools : ∀ tool ∈ s'.calledTools, tool ∈ s.calledTools ∨ tool ∈ executedTools effects) :
    Followed turn s effects (compactAndResume s' input usageTokens attempts) := by
  rcases compactAndResume_cases Output s' input usageTokens attempts with
    heq | ⟨messages, records, compactions, heq⟩
  · rw [heq]
    exact followed_stopped hrequests s' .fatalError s'.finalText none none
  · rw [heq]
    refine ⟨hrequests, ?_, ?_⟩
    · intro next h
      cases h
      exact ⟨hturns, hreserve, hcalls, htools⟩
    · intro result h
      cases h

theorem followed_sendBack {s s' : State} {effects : List Effect} (input : Turn)
    (usageTokens : Option Number) (content prompt : Text) {attempts : Option ℕ}
    (hrequests : requests effects = 0) (hcalls : executedCalls effects = 0) (hturns : s'.modelTurns = s.modelTurns)
    (hreserve : s'.finalizationReserveUsed = s.finalizationReserveUsed)
    (htoolCalls : s'.toolCalls = s.toolCalls) (htools : s'.calledTools = s.calledTools) :
    Followed turn s effects (sendBack s' input usageTokens content prompt attempts) := by
  unfold sendBack
  refine followed_compactAndResume input usageTokens hrequests hturns hreserve ?_ ?_
  · rw [hcalls]
    exact htoolCalls
  · intro tool htool
    exact .inl (htools ▸ htool)

theorem followed_repairSchema (s : State) (input : Turn) (usageTokens : Option Number)
    (content prompt : Text) :
    Followed turn s [] (repairSchema turn s input usageTokens content prompt) := by
  unfold repairSchema
  dsimp only
  split
  · exact followed_stopped rfl _ .schemaError content none none
  · exact followed_sendBack input usageTokens content prompt rfl rfl rfl rfl rfl rfl

/-- No required tool is missing. -/
theorem missingRequiredTools_nil {s : State} (h : missingRequiredTools turn s = []) :
    ∀ tool ∈ turn.requiredTools.getD [], tool ∈ s.calledTools := by
  intro tool htool
  have hcalled := List.filter_eq_nil_iff.mp h tool htool
  simpa using hcalled

theorem followed_requireTools {s : State} (input : Turn) (usageTokens : Option Number)
    (content : Text) {answer : List Effect × Next Output}
    (hanswer : (∀ tool ∈ turn.requiredTools.getD [], tool ∈ s.calledTools) →
      Followed turn s answer.1 answer.2) :
    Followed turn s (requireTools turn s input usageTokens content answer).1
      (requireTools turn s input usageTokens content answer).2 := by
  unfold requireTools
  dsimp only
  split
  · exact followed_sendBack input usageTokens content _ rfl rfl rfl rfl rfl rfl
  · next hmissing => exact hanswer (missingRequiredTools_nil (not_not.mp hmissing))

theorem followed_completed {s : State} {effects : List Effect} (hrequests : requests effects = 0)
    (content : Text) (output : Option Output)
    (hearned : Earned turn s.calledTools (verdicts effects)) :
    Followed turn s effects (.stop (completed s content output)) where
  asked := hrequests
  resumed := by
    intro s' h
    cases h
  success := fun _ _ _ => hearned

theorem followed_validate {s : State} (input : Turn) (usageTokens : Option Number)
    (content : Text) (output : Output)
    (htools : ∀ tool ∈ turn.requiredTools.getD [], tool ∈ s.calledTools) :
    Followed turn s (validate turn s input usageTokens content output).1
      (validate turn s input usageTokens content output).2 := by
  unfold validate
  split
  · split
    · exact followed_completed rfl content (some output) ⟨htools, fun _ _ => rfl⟩
    · dsimp only
      split
      · exact followed_stopped rfl _ .completionGateFailed content none none
      · exact followed_sendBack input usageTokens content _ rfl rfl rfl rfl rfl rfl
  · next hnone =>
    exact followed_completed rfl content (some output)
      ⟨htools, fun _ hvalidator => absurd hvalidator hnone⟩

theorem followed_finalAnswer (s : State) (input : Turn) (usageTokens : Option Number)
    (content : Text) :
    Followed turn s (finalAnswer turn s input usageTokens content).1
      (finalAnswer turn s input usageTokens content).2 := by
  unfold finalAnswer
  cases hmode : turn.finalOutputMode with
  | displayText =>
    dsimp only
    split
    · exact followed_repairSchema s input usageTokens content _
    · refine followed_requireTools input usageTokens content fun htools => ?_
      refine followed_completed rfl content none ⟨htools, fun hschema => ?_⟩
      rw [hmode] at hschema
      cases hschema
  | schema =>
    dsimp only
    cases turn.parseFinal content with
    | ok output =>
      exact followed_requireTools input usageTokens content
        (followed_validate input usageTokens content output)
    | error error => exact followed_repairSchema s input usageTokens content _

/-! ## The results of a batch -/

theorem mem_addTool {calledTools : List Text} {toolName tool : Text}
    (h : tool ∈ addTool calledTools toolName) : tool ∈ calledTools ∨ tool = toolName := by
  unfold addTool at h
  split at h
  · exact .inl h
  · rcases List.mem_append.mp h with h | h
    · exact .inl h
    · exact .inr (List.mem_singleton.mp h)

/-- The results that are recorded count as calls, and only executed tools count as called. -/
theorem recordResults_ok {calls : List AgentLoopToolCall} {timedOut : Bool}
    {outputs : List AgentLoopToolOutput} {s s' : State}
    (h : recordResults turn calls timedOut s outputs = .ok s') :
    s'.modelTurns = s.modelTurns ∧ s'.finalizationReserveUsed = s.finalizationReserveUsed ∧
      s'.toolCalls = s.toolCalls + outputs.length ∧
      ∀ tool ∈ s'.calledTools, tool ∈ s.calledTools ∨
        tool ∈ (outputs.filter (·.executed)).map (·.toolName) := by
  induction outputs generalizing s with
  | nil =>
    cases h
    exact ⟨rfl, rfl, rfl, fun _ => .inl⟩
  | cons result outputs ih =>
    unfold recordResults at h
    dsimp only at h
    split at h
    · cases h
    split at h
    · cases h
    split at h
    · cases h
    obtain ⟨hturns, hreserve, hcalls, htools⟩ := ih h
    refine ⟨hturns, hreserve, ?_, ?_⟩
    · rw [hcalls, List.length_cons]
      unfold recordResult
      dsimp only
      omega
    · intro tool htool
      rcases htools tool htool with hbefore | hlater
      · unfold recordResult at hbefore
        dsimp only at hbefore
        split at hbefore
        · next hexecuted =>
          rcases mem_addTool hbefore with hold | rfl
          · exact .inl hold
          · refine .inr (List.mem_map.mpr ⟨result, ?_, rfl⟩)
            exact List.mem_filter.mpr ⟨List.mem_cons_self, hexecuted⟩
        · exact .inl hbefore
      · obtain ⟨output, houtput, rfl⟩ := List.mem_map.mp hlater
        obtain ⟨hmem, hexecuted⟩ := List.mem_filter.mp houtput
        exact .inr (List.mem_map.mpr ⟨output, List.mem_filter.mpr
          ⟨List.mem_cons_of_mem _ hmem, hexecuted⟩, rfl⟩)

/-- A run that ends with a result of a tool is not successful. -/
theorem recordResults_error {calls : List AgentLoopToolCall} {timedOut : Bool}
    {outputs : List AgentLoopToolOutput} {s : State} {result : Stopped Output}
    (h : recordResults turn calls timedOut s outputs = .error result) :
    result.success = false := by
  induction outputs generalizing s with
  | nil => cases h
  | cons output outputs ih =>
    unfold recordResults at h
    dsimp only at h
    split at h
    · cases h
      rfl
    split at h
    · cases h
      rfl
    split at h
    · cases h
      rfl
    exact ih h

theorem outputs_length (batch : ToolBatch) (calls : List AgentLoopToolCall) :
    (batch.outputs calls).length = calls.length := by
  unfold ToolBatch.outputs
  rw [List.length_mapIdx]

theorem followed_executeToolBatch (s : State) (input : Turn) (usageTokens : Option Number)
    (calls : List AgentLoopToolCall) :
    Followed turn s (executeToolBatch turn s input usageTokens calls).1
      (executeToolBatch turn s input usageTokens calls).2 := by
  unfold executeToolBatch
  split
  · exact followed_stopped rfl _ _ _ _ _
  · cases input.toolBatch with
    | error detail =>
      refine followed_stopped ?_ _ _ _ _ _
      rfl
    | ok batch =>
      dsimp only
      cases hrecord : recordResults turn calls batch.timedOut s (batch.outputs calls) with
      | error result =>
        refine ⟨rfl, fun s' h => ?_, fun result' h hsuccess => ?_⟩
        · cases h
        · cases h
          rw [recordResults_error hrecord] at hsuccess
          cases hsuccess
      | ok s' =>
        obtain ⟨hturns, hreserve, hcalls, htools⟩ := recordResults_ok hrecord
        refine followed_compactAndResume input usageTokens rfl hturns hreserve ?_ ?_
        · rw [hcalls, outputs_length]
          simp [executedCalls, Effect.calls]
        · simpa [executedTools, Effect.tools] using htools

theorem followed_runTools (s : State) (input : Turn) (wasFinalAnswerOnly : Bool)
    (usageTokens : Option Number) (response : Response) :
    Followed turn s (runTools turn s input wasFinalAnswerOnly usageTokens response).1
      (runTools turn s input wasFinalAnswerOnly usageTokens response).2 := by
  have hnone : requests [] = 0 := rfl
  unfold runTools
  split
  · exact followed_stopped hnone _ _ _ _ _
  split
  · exact followed_stopped hnone _ _ _ _ _
  dsimp only
  split
  · exact followed_stopped hnone _ _ _ _ _
  split
  · exact followed_stopped hnone _ _ _ _ _
  -- only the conversation and the signature have changed
  exact Followed.of_eq (noteToolCalls turn s response) rfl rfl rfl rfl
    (followed_executeToolBatch _ input usageTokens response.toolCalls)

/-! ## One round -/

variable (turn)

/-- The requests that are left: the turns that are left, and the reserve. -/
def left (s : State) : ℕ :=
  (turn.budget.maxModelTurns - s.modelTurns).toNat + if s.finalizationReserveUsed then 0 else 1

variable {turn}

/-- A state that may make a request has a turn left, or takes the reserve. -/
theorem withinModelTurns_some {s s' : State} (h : withinModelTurns turn s = some s') :
    s'.toolCalls = s.toolCalls ∧ s'.calledTools = s.calledTools ∧ s'.modelTurns = s.modelTurns ∧
      left turn { s' with modelTurns := s'.modelTurns + 1 } + 1 ≤ left turn s := by
  unfold withinModelTurns at h
  split at h
  · split at h
    · next hmax hreserve =>
      obtain rfl := Option.some.inj h
      have hunused : s.finalizationReserveUsed = false := by
        rw [Bool.and_eq_true] at hreserve
        simpa using hreserve.1
      refine ⟨rfl, rfl, rfl, ?_⟩
      unfold left
      rw [hunused]
      simp only [if_true, Bool.false_eq_true, if_false]
      omega
    · cases h
  · next hmax =>
    obtain rfl := Option.some.inj h
    refine ⟨rfl, rfl, rfl, ?_⟩
    unfold left
    dsimp only
    omega

theorem beforeRequest_ok {s s' : State} {input : Turn} (h : beforeRequest turn s input = .ok s') :
    withinModelTurns turn s = some s' ∧ (s'.toolCalls : ℤ) < turn.budget.maxToolCalls := by
  unfold beforeRequest at h
  split at h
  · cases h
  split at h
  · cases h
  · next checked hchecked =>
    split at h
    · cases h
    split at h
    · cases h
    · next hcalls _ =>
      cases h
      exact ⟨hchecked, not_le.mp hcalls⟩

theorem beforeRequest_error {s : State} {input : Turn} {result : Stopped Output}
    (h : beforeRequest turn s input = .error result) : result.success = false := by
  unfold beforeRequest at h
  split at h
  · cases h
    rfl
  split at h
  · cases h
    rfl
  · split at h
    · cases h
      rfl
    split at h
    · cases h
      rfl
    · cases h

variable (turn) in
/-- What a whole round does. -/
structure Rounded (s : State) (effects : List Effect) (next : Next Output) : Prop where
  asked : requests effects ≤ left turn s
  resumed : ∀ s', next = .resume s' →
    left turn s' + 1 ≤ left turn s ∧ requests effects + left turn s' ≤ left turn s ∧
      s'.toolCalls = s.toolCalls + executedCalls effects ∧
      ∀ tool ∈ s'.calledTools, tool ∈ s.calledTools ∨ tool ∈ executedTools effects
  /-- A batch is executed only while tool calls are left. -/
  calls : executedCalls effects = 0 ∨ (s.toolCalls : ℤ) < turn.budget.maxToolCalls
  success : ∀ result, next = .stop result → result.success = true →
    Earned turn s.calledTools (verdicts effects)

/-- A round that ends the run without success, with its request at most. -/
theorem rounded_stop {s : State} {effects : List Effect} {result : Stopped Output}
    (hasked : requests effects ≤ left turn s) (hcalls : executedCalls effects = 0)
    (hresult : result.success = false) : Rounded turn s effects (.stop result) where
  asked := hasked
  resumed := by
    intro s' h
    cases h
  calls := .inl hcalls
  success := by
    intro result' h hsuccess
    cases h
    rw [hresult] at hsuccess
    cases hsuccess

theorem requestFailed_success (s : State) (err : RunError) :
    (requestFailed s err : Stopped Output).success = false := by
  unfold requestFailed
  split <;> rfl

theorem followed_afterResponse (s : State) (input : Turn) (protocol : AgentLoopModelTurnProtocol) :
    Followed turn { s with modelTurns := s.modelTurns + 1 } (afterResponse turn s input protocol).1
      (afterResponse turn s input protocol).2 := by
  unfold afterResponse
  dsimp only
  split
  · exact Followed.of_eq { s with
      modelTurns := s.modelTurns + 1
      finalText := (protocolToResponse protocol).content
      forceFinalAnswerOnly := false } rfl rfl rfl rfl (followed_finalAnswer _ _ _ _)
  · exact Followed.of_eq { s with
      modelTurns := s.modelTurns + 1
      finalText := (protocolToResponse protocol).content
      forceFinalAnswerOnly := false } rfl rfl rfl rfl (followed_runTools _ _ _ _ _)

variable (turn) in
/-- **One round of the loop.** -/
theorem round_spec (s : State) (input : Turn) :
    Rounded turn s (round turn s input).1 (round turn s input).2 := by
  unfold round
  cases hbefore : beforeRequest turn s input with
  | error result => exact rounded_stop (Nat.zero_le _) rfl (beforeRequest_error hbefore)
  | ok s₁ =>
    obtain ⟨hwithin, hremaining⟩ := beforeRequest_ok hbefore
    obtain ⟨hcalls, htools, hturns, hleft⟩ := withinModelTurns_some hwithin
    have hone : 1 ≤ left turn s := by omega
    have hrequest : requests [.modelRequest s₁.messages (!s₁.forceFinalAnswerOnly)] = 1 := rfl
    dsimp only
    cases input.protocol with
    | error err =>
      refine rounded_stop (hrequest.trans_le hone) rfl ?_
      split
      · rfl
      · exact requestFailed_success s₁ err
    | ok protocol =>
      dsimp only
      split
      · exact rounded_stop (hrequest.trans_le hone) rfl rfl
      split
      · exact rounded_stop (hrequest.trans_le hone) rfl rfl
      -- the request is followed by the rest of the round
      have hrest : Followed turn { s₁ with modelTurns := s₁.modelTurns + 1 }
          (afterResponse turn s₁ input protocol).1 (afterResponse turn s₁ input protocol).2 :=
        followed_afterResponse s₁ input protocol
      have hasked : requests (.modelRequest s₁.messages (!s₁.forceFinalAnswerOnly) ::
          (afterResponse turn s₁ input protocol).1) = 1 := by
        rw [← List.singleton_append, requests_append, hrequest, hrest.asked]
      refine ⟨?_, ?_, ?_, ?_⟩
      · rw [hasked]
        exact hone
      · intro s' hs'
        obtain ⟨hturns', hreserve', hcalls', htools'⟩ := hrest.resumed s' hs'
        have hsame : left turn s' = left turn { s₁ with modelTurns := s₁.modelTurns + 1 } := by
          unfold left
          rw [hturns', hreserve']
        rw [hasked, hsame]
        refine ⟨hleft, by omega, ?_, ?_⟩
        · rw [hcalls', ← hcalls]
          simp [executedCalls, Effect.calls]
        · rw [← htools]
          simpa [executedTools, Effect.tools] using htools'
      · rw [← hcalls]
        exact .inr hremaining
      · intro result hresult hsuccess
        rw [← htools]
        simpa [verdicts, Effect.verdicts] using hrest.success result hresult hsuccess

/-! ## Which calls a round executes -/

/-- The tool calls of the response, when there is one. -/
def Turn.toolCalls (input : Turn) : List AgentLoopToolCall :=
  match input.protocol with
  | .ok protocol => (protocolToResponse protocol).toolCalls
  | .error _ => []

/-- The effect is a batch of tool calls. -/
def Effect.isBatch : Effect → Bool
  | .toolBatch .. => true
  | _ => false

variable (turn) in
/-- The round executes the tool calls of its response. -/
def executes (s : State) (input : Turn) : Bool := (round turn s input).1.any Effect.isBatch

theorem effects_validate (s : State) (input : Turn) (usageTokens : Option Number) (content : Text)
    (output : Output) : (validate turn s input usageTokens content output).1 = [] ∨
      ∃ ok, (validate turn s input usageTokens content output).1 = [.completionValidation ok] := by
  unfold validate
  split
  · split
    · exact .inr ⟨true, rfl⟩
    · exact .inr ⟨false, rfl⟩
  · exact .inl rfl

theorem effects_finalAnswer (s : State) (input : Turn) (usageTokens : Option Number)
    (content : Text) : (finalAnswer turn s input usageTokens content).1 = [] ∨
      ∃ ok, (finalAnswer turn s input usageTokens content).1 = [.completionValidation ok] := by
  unfold finalAnswer
  split
  · split
    · exact .inl rfl
    · unfold requireTools
      dsimp only
      split
      · exact .inl rfl
      · exact .inl rfl
  · split
    · unfold requireTools
      dsimp only
      split
      · exact .inl rfl
      · exact effects_validate s input usageTokens content _
    · exact .inl rfl

theorem effects_runTools (s : State) (input : Turn) (wasFinalAnswerOnly : Bool)
    (usageTokens : Option Number) (response : Response) :
    (runTools turn s input wasFinalAnswerOnly usageTokens response).1 = [] ∨ ∃ outputs,
      (runTools turn s input wasFinalAnswerOnly usageTokens response).1 =
        [.toolBatch response.toolCalls outputs] := by
  unfold runTools
  split
  · exact .inl rfl
  split
  · exact .inl rfl
  dsimp only
  split
  · exact .inl rfl
  split
  · exact .inl rfl
  unfold executeToolBatch
  split
  · exact .inl rfl
  split
  · exact .inr ⟨[], rfl⟩
  · exact .inr ⟨_, rfl⟩

variable (turn) in
/-- **A round executes the tool calls of its response, or none.** -/
theorem round_calls (s : State) (input : Turn) :
    (executes turn s input = false ∧ executedCalls (round turn s input).1 = 0) ∨
      (executes turn s input = true ∧ input.toolCalls ≠ [] ∧
        executedCalls (round turn s input).1 = input.toolCalls.length) := by
  unfold executes round Turn.toolCalls
  cases beforeRequest turn s input with
  | error result => exact .inl ⟨rfl, rfl⟩
  | ok s₁ =>
    dsimp only
    cases input.protocol with
    | error err => exact .inl ⟨rfl, rfl⟩
    | ok protocol =>
      dsimp only
      split
      · exact .inl ⟨rfl, rfl⟩
      split
      · exact .inl ⟨rfl, rfl⟩
      unfold afterResponse
      dsimp only
      split
      · rcases effects_finalAnswer { s₁ with
          modelTurns := s₁.modelTurns + 1
          finalText := (protocolToResponse protocol).content
          forceFinalAnswerOnly := false } input (responseUsageTokens protocol)
          (protocolToResponse protocol).content with heffects | ⟨ok, heffects⟩
        · rw [heffects]
          exact .inl ⟨rfl, rfl⟩
        · rw [heffects]
          exact .inl ⟨rfl, rfl⟩
      · next hcalls =>
        rcases effects_runTools { s₁ with
          modelTurns := s₁.modelTurns + 1
          finalText := (protocolToResponse protocol).content
          forceFinalAnswerOnly := false } input s₁.forceFinalAnswerOnly
          (responseUsageTokens protocol) (protocolToResponse protocol) with
          heffects | ⟨outputs, heffects⟩
        · rw [heffects]
          exact .inl ⟨rfl, rfl⟩
        · rw [heffects]
          refine .inr ⟨rfl, hcalls, ?_⟩
          simp [executedCalls, Effect.calls]

/-! ## The whole loop -/

variable (turn) in
theorem loop_requests (s : State) (inputs : List Turn) :
    requests (loop turn s inputs).1 ≤ left turn s := by
  induction inputs generalizing s with
  | nil => exact Nat.zero_le _
  | cons input inputs ih =>
    have hround := round_spec turn s input
    unfold loop
    split
    · next effects result heq =>
      rw [heq] at hround
      exact hround.asked
    · next effects s' heq =>
      rw [heq] at hround
      obtain ⟨-, hasked, -⟩ := hround.resumed s' rfl
      have hrest := ih s'
      dsimp only at hasked ⊢
      rw [requests_append]
      omega

variable (turn) in
/-- The loop ends when it has made its last request. -/
theorem loop_ends (s : State) (inputs : List Turn) (h : left turn s < inputs.length) :
    (loop turn s inputs).2.isSome = true := by
  induction inputs generalizing s with
  | nil => cases h
  | cons input inputs ih =>
    have hround := round_spec turn s input
    unfold loop
    split
    · rfl
    · next effects s' heq =>
      rw [heq] at hround
      obtain ⟨hleft, -⟩ := hround.resumed s' rfl
      rw [List.length_cons] at h
      exact ih s' (by omega)

theorem loop_success (s : State) (inputs : List Turn) {result : AgentLoopResult Output}
    (h : (loop turn s inputs).2 = some result) (hsuccess : result.success = true) :
    Earned turn (s.calledTools ++ executedTools (loop turn s inputs).1)
      (verdicts (loop turn s inputs).1) := by
  induction inputs generalizing s with
  | nil => cases h
  | cons input inputs ih =>
    have hround := round_spec turn s input
    unfold loop at h ⊢
    split at h
    · next effects last heq =>
      rw [heq] at hround
      obtain rfl := Option.some.inj h
      obtain ⟨htools, hverdict⟩ := hround.success last rfl hsuccess
      exact ⟨fun tool htool => List.mem_append_left _ (htools tool htool), hverdict⟩
    · next effects s' heq =>
      rw [heq] at hround
      obtain ⟨-, -, -, hcalled⟩ := hround.resumed s' rfl
      obtain ⟨htools, hverdict⟩ := ih s' h
      dsimp only
      rw [executedTools_append, verdicts_append]
      constructor
      · intro tool htool
        rcases List.mem_append.mp (htools tool htool) with hmem | hmem
        · rcases hcalled tool hmem with hbefore | hround
          · exact List.mem_append_left _ hbefore
          · exact List.mem_append_right _ (List.mem_append_left _ hround)
        · exact List.mem_append_right _ (List.mem_append_right _ hmem)
      · intro hschema hvalidator
        rw [List.getLast?_append, hverdict hschema hvalidator]
        rfl

variable (turn) in
/-- Every batch that the loop executes fits in what is left of the bound on tool calls. -/
def Fits : State → List Turn → Prop
  | _, [] => True
  | s, input :: inputs =>
    (executes turn s input = true →
      (s.toolCalls : ℤ) + input.toolCalls.length ≤ turn.budget.maxToolCalls) ∧
    match (round turn s input).2 with
    | .stop _ => True
    | .resume s' => Fits s' inputs

variable (turn) in
/-- What the calls of one round do to the bound. -/
theorem round_calls_iff (s : State) (input : Turn) :
    (executedCalls (round turn s input).1 ≤ (turn.budget.maxToolCalls - s.toolCalls).toNat) ↔
      (executes turn s input = true →
        (s.toolCalls : ℤ) + input.toolCalls.length ≤ turn.budget.maxToolCalls) := by
  rcases round_calls turn s input with ⟨hnone, hcalls⟩ | ⟨hexecutes, hne, hcalls⟩
  · rw [hnone, hcalls]
    exact ⟨fun _ h => absurd h Bool.false_ne_true, fun _ => Nat.zero_le _⟩
  · have hpos : 0 < input.toolCalls.length := List.length_pos_iff.mpr hne
    rw [hexecutes, hcalls]
    constructor
    · intro hle _
      omega
    · intro hfits
      have := hfits rfl
      omega

variable (turn) in
/-- **The loop keeps the bound on tool calls exactly when its batches fit.** -/
theorem loop_calls_iff (s : State) (inputs : List Turn) :
    executedCalls (loop turn s inputs).1 ≤ (turn.budget.maxToolCalls - s.toolCalls).toNat ↔
      Fits turn s inputs := by
  induction inputs generalizing s with
  | nil => exact ⟨fun _ => trivial, fun _ => Nat.zero_le _⟩
  | cons input inputs ih =>
    have hround := round_spec turn s input
    have hcalls := round_calls_iff turn s input
    unfold loop Fits
    rw [← hcalls]
    split
    · next effects result heq =>
      rw [heq]
      exact (and_iff_left trivial).symm
    · next effects s' heq =>
      rw [heq] at hround ⊢
      obtain ⟨-, -, hcount, -⟩ := hround.resumed s' rfl
      dsimp only at hcount ⊢
      rw [executedCalls_append, ← ih s', hcount]
      omega

/-! ## Whole runs -/

variable (turn)

/-- What the runner promises for a run with a number of rounds. -/
structure Respects (resumed : Option AgentLoopSessionState) (rounds : ℕ) (effects : List Effect)
    (result : Option (AgentLoopResult Output)) : Prop where
  /-- The requests are those of the turns that are left, and one more. -/
  requests : requests effects ≤
    (turn.budget.maxModelTurns - (initial turn resumed).modelTurns).toNat + 1
  /-- The run ends after as many rounds, and one to see that none is left. -/
  ends : (turn.budget.maxModelTurns - (initial turn resumed).modelTurns).toNat + 1 < rounds →
    result.isSome = true
  toolCalls : executedCalls effects ≤
    (turn.budget.maxToolCalls - (initial turn resumed).toolCalls).toNat
  /-- A required tool was executed in this run or in those that it resumes. -/
  success : ∀ r, result = some r → r.success = true →
    Earned turn ((initial turn resumed).calledTools ++ executedTools effects) (verdicts effects)

/-- The state in which the loop starts. -/
def compactedInitial (resumed : Option AgentLoopSessionState)
    (preTurnCompaction : CompactIfNeededResult) : State :=
  { initial turn resumed with
    messages := preTurnCompaction.messages
    compactionRecords := preTurnCompaction.compactionRecords
    compactions := (initial turn resumed).compactions +
      if preTurnCompaction.compacted then 1 else 0 }

/-- **A run respects its bounds exactly when its batches fit.** When the compaction before the
first turn fails there are none. -/
theorem respects_iff_fits (resumed : Option AgentLoopSessionState)
    (preTurnCompaction : CompactIfNeededResult) (inputs : List Turn) :
    Respects turn resumed inputs.length (run turn resumed preTurnCompaction inputs).1
      (run turn resumed preTurnCompaction inputs).2 ↔
    ((nonEmpty preTurnCompaction.error).isSome = true ∨
      Fits turn (compactedInitial turn resumed preTurnCompaction) inputs) := by
  have hleft : left turn (compactedInitial turn resumed preTurnCompaction) =
      (turn.budget.maxModelTurns - (initial turn resumed).modelTurns).toNat + 1 := by
    unfold left compactedInitial initial
    cases resumed <;> rfl
  unfold run
  dsimp only
  by_cases herror : (nonEmpty preTurnCompaction.error).isSome = true
  · rw [if_pos herror]
    refine ⟨fun _ => .inl herror, fun _ => ?_⟩
    refine ⟨Nat.zero_le _, fun _ => rfl, Nat.zero_le _, fun r hr hsuccess => ?_⟩
    obtain rfl := Option.some.inj hr
    cases hsuccess
  · rw [if_neg herror]
    have hrequests := loop_requests turn
      (compactedInitial turn resumed preTurnCompaction) inputs
    have hends := loop_ends turn
      (compactedInitial turn resumed preTurnCompaction) inputs
    have hcalls := loop_calls_iff turn
      (compactedInitial turn resumed preTurnCompaction) inputs
    rw [hleft] at hrequests hends
    constructor
    · exact fun h => .inr (hcalls.mp h.toolCalls)
    · rintro (h | hfits)
      · exact absurd h herror
      · exact ⟨hrequests, hends, hcalls.mpr hfits, fun r hr hsuccess =>
          loop_success _ inputs hr hsuccess⟩

end

/-! ## A sample run -/

/-- A turn that may execute one tool call. -/
def sampleTurn : AgentLoopTurnContext Unit where
  messages := []
  finalOutputMode := .schema
  budget := {
    maxModelTurns := 12
    maxToolCalls := 1
    maxWallClockMs := 600000
    maxConsecutiveToolErrors := 3
    maxRepeatedToolCalls := 4
    maxSchemaRepairAttempts := 2
    maxCompletionValidationAttempts := 2 }
  requiredTools := none
  hasCompletionValidator := false
  parseFinal := fun _ => .ok ()
  isReadOnly := fun _ => true
  toolLoopSignature := fun _ => []

/-- The model calls two tools. -/
def sampleInput : Turn where
  protocol := .ok {
    assistant := []
    toolCalls := [{ id := utf16 "1", name := utf16 "grep", input := none },
      { id := utf16 "2", name := utf16 "glob", input := none }] }
  toolBatch := .ok { answer := fun _ _ => { success := true, content := [] }, timedOut := false }
  completionValidation := .ok ()
  compactIfNeeded := fun messages _ _ compactionRecords =>
    { messages, compactionRecords, compacted := false }

/-- **Two tool calls are executed where one is left.** -/
theorem batch_exceeds :
    ¬ Respects sampleTurn none 1
      (run sampleTurn none { messages := [], compactionRecords := [], compacted := false }
        [sampleInput]).1
      (run sampleTurn none { messages := [], compactionRecords := [], compacted := false }
        [sampleInput]).2 := by
  intro h
  have hcalls : executedCalls (run sampleTurn none
      { messages := [], compactionRecords := [], compacted := false } [sampleInput]).1 = 2 := by
    decide +kernel
  have hbound := h.toolCalls
  rw [hcalls] at hbound
  exact absurd hbound (by decide)

end BoundedAgentLoopRunner

end AgentLoop

end PulSeed
