import Mathlib
import PulSeed.AgentLoop.SessionState

/-!
# What a resumed loop counts on (`bounded-agent-loop-runner.ts`, `agent-loop-session-state.ts`)

A run saves the state of its session before the first turn, at the end of every round, when it
takes the finalization reserve and when it stops; a later run resumes what the store makes of
the last of these. A stop that is not given the completion validation attempts saves none.

- `normalize_saveState`: normalization keeps the counters that are saved.
- `stopped_attempts`: a stop that is given the attempts is given those of the loop.
- `carries_iff`: **every save of a run carries the counters of the loop exactly when the session
  is a valid one and no stop leaves out attempts that there have been.**
-/

namespace PulSeed

namespace AgentLoop

namespace BoundedAgentLoopRunner

open Text

/-! ## The counters -/

/-- What the bounds of a run are checked against. -/
structure Counters where
  modelTurns : ℕ
  toolCalls : ℕ
  compactions : ℕ
  completionValidationAttempts : ℕ
  calledTools : List Text
  lastToolLoopSignature : Option Text
  repeatedToolLoopCount : ℕ
  deriving DecidableEq

def AgentLoopSessionState.counters (state : AgentLoopSessionState) : Counters where
  modelTurns := state.modelTurns
  toolCalls := state.toolCalls
  compactions := state.compactions
  completionValidationAttempts := state.completionValidationAttempts
  calledTools := state.calledTools
  lastToolLoopSignature := state.lastToolLoopSignature
  repeatedToolLoopCount := state.repeatedToolLoopCount

/-- The counters of a running loop. -/
def State.counters (s : State) : Counters := s.session.counters

/-- A member that is a whole number. -/
def natural? : Option Value → Option ℕ
  | some (.number (.finite q)) => if q.den = 1 ∧ 0 ≤ q.num then some q.num.toNat else none
  | _ => none

theorem natural?_natCast (n : ℕ) : natural? (some (.number (.finite n))) = some n := by
  simp [natural?]

/-- The state that a run resumes from a stored value, with its messages and records. -/
def resume (value : Value) (messages : List AgentLoopMessage)
    (compactionRecords : List AgentLoopCompactionRecord) : Option AgentLoopSessionState := do
  let modelTurns ← natural? (value.member "modelTurns")
  let toolCalls ← natural? (value.member "toolCalls")
  let compactions ← natural? (value.member "compactions")
  let completionValidationAttempts ← natural? (value.member "completionValidationAttempts")
  let repeatedToolLoopCount ← natural? (value.member "repeatedToolLoopCount")
  let finalText ← string? (value.member "finalText")
  return {
    messages
    compactionRecords
    modelTurns
    toolCalls
    compactions
    completionValidationAttempts
    calledTools := stringArrayField value "calledTools"
    lastToolLoopSignature := string? (value.member "lastToolLoopSignature")
    repeatedToolLoopCount
    finalText }

/-! ## Normalization -/

section

variable {value v : Value}

/-- **What normalization makes of the counters.** -/
theorem normalize_members (h : normalizeAgentLoopSessionState value = some v) :
    (∀ field ∈ ["modelTurns", "toolCalls", "compactions", "completionValidationAttempts",
      "repeatedToolLoopCount"],
      v.member field = some (.number (nonNegativeNumberField value field))) ∧
    v.member "calledTools" =
      some (.array ((stringArrayField value "calledTools").map .string)) ∧
    v.member "lastToolLoopSignature" =
      some (((string? (value.member "lastToolLoopSignature")).map .string).getD .null) ∧
    v.member "finalText" = some (.string ((string? (value.member "finalText")).getD [])) := by
  unfold normalizeAgentLoopSessionState at h
  iterate 8
    obtain ⟨_, -, h⟩ := Option.bind_eq_some_iff.mp h
  obtain rfl := Option.some.inj h
  refine ⟨fun field hfield => ?_, ?_, ?_, ?_⟩
  · rw [Value.member_ofMembers _ _ (by simp)]
    simp only [List.mem_cons, List.not_mem_nil, or_false] at hfield
    rcases hfield with rfl | rfl | rfl | rfl | rfl <;> simp [List.lookup]
  all_goals
    rw [Value.member_ofMembers _ _ (by simp)]
    simp [List.lookup]

theorem stringArrayField_strings {field : String} {texts : List Text}
    (h : value.member field = some (.array (texts.map .string))) :
    stringArrayField value field = texts := by
  unfold stringArrayField
  rw [h]
  show ((texts.map Value.string).filterMap fun item => string? (some item)) = texts
  rw [List.filterMap_map]
  exact List.filterMap_some

theorem nonNegativeNumberField_natCast {field : String} {n : ℕ}
    (h : value.member field = some (.number (.finite n))) :
    nonNegativeNumberField value field = .finite n := by
  unfold nonNegativeNumberField
  rw [h]
  simp

theorem string?_signature (signature : Option Text) :
    string? (some ((signature.map .string).getD .null)) = signature := by
  cases signature <;> rfl

/-- Every message is one after normalization. -/
theorem normalizeMessage_isSome (message : AgentLoopMessage) :
    (normalizeMessage message.value).isSome = true := by
  have hrole : roleField message.value "role" = some message.role.text := by
    unfold roleField oneOf AgentLoopMessage.value
    rw [Value.member_ofMembers _ _ (by simp)]
    cases message.role <;> simp [string?, AgentLoopMessageRole.text, List.lookup, Option.filter]
  have hcontent : string? (message.value.member "content") = some message.content := by
    unfold AgentLoopMessage.value
    rw [Value.member_ofMembers _ _ (by simp)]
    simp [string?, List.lookup]
  unfold normalizeMessage
  rw [hrole, hcontent]
  rfl

end

/-! ## What is saved -/

section

variable {recordValue : AgentLoopCompactionRecord → Value} {session : Session}
  {state : AgentLoopSessionState} {status : SessionStatus}

theorem stringField_eq {value : Value} {field : String} {text : Text}
    (h : value.member field = some (.string text)) :
    stringField value field = if trim text = [] then none else some text := by
  unfold stringField
  rw [h]
  by_cases htrim : trim text = [] <;> simp [string?, Option.filter, htrim]

theorem saveState_identifiers : ∀ id ∈ session.identifiers,
    (saveState recordValue session state status).member id.1 = some (.string id.2) := by
  intro id hid
  unfold saveState
  rw [Value.member_ofMembers _ _ (by simp)]
  simp only [Session.identifiers, List.mem_cons, List.not_mem_nil, or_false] at hid
  rcases hid with rfl | rfl | rfl | rfl | rfl | rfl <;> simp [List.lookup]

theorem saveState_messages :
    array? ((saveState recordValue session state status).member "messages") =
      some (state.messages.map (·.value)) := by
  unfold saveState
  rw [Value.member_ofMembers _ _ (by simp)]
  simp [array?, List.lookup]

theorem mapM_normalizeMessage (messages : List AgentLoopMessage) :
    ∃ normalized, (messages.map (·.value)).mapM normalizeMessage = some normalized := by
  induction messages with
  | nil => exact ⟨[], rfl⟩
  | cons message messages ih =>
    obtain ⟨rest, hrest⟩ := ih
    obtain ⟨first, hfirst⟩ := Option.isSome_iff_exists.mp (normalizeMessage_isSome message)
    refine ⟨first :: rest, ?_⟩
    rw [List.map_cons, List.mapM_cons, hfirst, hrest]
    rfl

/-- A state is admitted when its session is valid. -/
theorem normalize_isSome :
    (∃ v, normalizeAgentLoopSessionState (saveState recordValue session state status) = some v) ↔
      session.Valid := by
  have hfield : ∀ id ∈ session.identifiers,
      stringField (saveState recordValue session state status) id.1 =
        if trim id.2 = [] then none else some id.2 :=
    fun id hid => stringField_eq (saveState_identifiers id hid)
  simp only [Session.identifiers, List.forall_mem_cons, List.not_mem_nil, false_implies,
    implies_true, and_true] at hfield
  obtain ⟨hsession, htrace, hturn, hgoal, hcwd, hmodel⟩ := hfield
  obtain ⟨normalized, hnormalized⟩ := mapM_normalizeMessage state.messages
  unfold normalizeAgentLoopSessionState Session.Valid
  rw [hsession, htrace, hturn, hgoal, hcwd, hmodel, saveState_messages]
  simp only [Session.identifiers, List.forall_mem_cons, List.not_mem_nil, false_implies,
    implies_true, and_true]
  constructor
  · rintro ⟨v, h⟩
    obtain ⟨_, h1, h⟩ := Option.bind_eq_some_iff.mp h
    obtain ⟨_, h2, h⟩ := Option.bind_eq_some_iff.mp h
    obtain ⟨_, h3, h⟩ := Option.bind_eq_some_iff.mp h
    obtain ⟨_, h4, h⟩ := Option.bind_eq_some_iff.mp h
    obtain ⟨_, h5, h⟩ := Option.bind_eq_some_iff.mp h
    obtain ⟨_, h6, -⟩ := Option.bind_eq_some_iff.mp h
    have hnot : ∀ {text text' : Text}, (if trim text = [] then none else some text) = some text' →
        trim text ≠ [] := by
      intro text text' hsome hblank
      rw [if_pos hblank] at hsome
      cases hsome
    exact ⟨hnot h1, hnot h2, hnot h3, hnot h4, hnot h5, hnot h6⟩
  · rintro ⟨h1, h2, h3, h4, h5, h6⟩
    rw [if_neg h1, if_neg h2, if_neg h3, if_neg h4, if_neg h5, if_neg h6]
    simp only [Option.bind_eq_bind, Option.bind_some, hnormalized]
    exact ⟨_, rfl⟩

variable (recordValue session state status) in
/-- The members of a saved state that a run resumes. -/
theorem saveState_members :
    (∀ field ∈ [("modelTurns", state.modelTurns), ("toolCalls", state.toolCalls),
      ("compactions", state.compactions),
      ("completionValidationAttempts", state.completionValidationAttempts),
      ("repeatedToolLoopCount", state.repeatedToolLoopCount)],
      nonNegativeNumberField (saveState recordValue session state status) field.1 =
        .finite field.2) ∧
    stringArrayField (saveState recordValue session state status) "calledTools" =
      state.calledTools ∧
    string? ((saveState recordValue session state status).member "lastToolLoopSignature") =
      state.lastToolLoopSignature ∧
    string? ((saveState recordValue session state status).member "finalText") =
      some state.finalText := by
  refine ⟨fun field hfield => nonNegativeNumberField_natCast ?_, stringArrayField_strings ?_,
    ?_, ?_⟩
  · unfold saveState
    rw [Value.member_ofMembers _ _ (by simp)]
    simp only [List.mem_cons, List.not_mem_nil, or_false] at hfield
    rcases hfield with rfl | rfl | rfl | rfl | rfl <;> simp [List.lookup]
  · unfold saveState
    rw [Value.member_ofMembers _ _ (by simp)]
    simp [List.lookup]
  · unfold saveState
    rw [Value.member_ofMembers _ _ (by simp)]
    simpa [List.lookup] using string?_signature state.lastToolLoopSignature
  · unfold saveState
    rw [Value.member_ofMembers _ _ (by simp)]
    simp [List.lookup, string?]

/-- **Normalization keeps the counters**: a run that resumes a saved state has those of it. -/
theorem normalize_saveState {v : Value} (messages : List AgentLoopMessage)
    (records : List AgentLoopCompactionRecord)
    (h : normalizeAgentLoopSessionState (saveState recordValue session state status) = some v) :
    resume v messages records =
      some { state with messages := messages, compactionRecords := records } := by
  obtain ⟨hnumbers, htools, hsignature, htext⟩ := normalize_members h
  obtain ⟨hsaved, hsavedTools, hsavedSignature, hsavedText⟩ :=
    saveState_members recordValue session state status
  simp only [List.forall_mem_cons, List.not_mem_nil, false_implies, implies_true, and_true]
    at hnumbers hsaved
  obtain ⟨h1, h2, h3, h4, h5⟩ := hnumbers
  obtain ⟨s1, s2, s3, s4, s5⟩ := hsaved
  unfold resume
  rw [h1, h2, h3, h4, h5, s1, s2, s3, s4, s5, htext, hsavedText, hsignature, hsavedSignature,
    string?_signature, stringArrayField_strings htools, hsavedTools]
  simp only [natural?_natCast]
  rfl

end

/-! ## The saves of a run -/

/-- A call of `saveState`: the variables of the loop, what is saved of them, and the completion
validation attempts that it is given, if any. -/
structure Save where
  atSave : State
  saved : AgentLoopSessionState
  attempts : Option ℕ
  status : SessionStatus

/-- The save of a loop that goes on. -/
def State.save (s : State) : Save := ⟨s, s.session, some s.completionValidationAttempts, .running⟩

/-- The save of `stop`. -/
def Stopped.save {Output : Type} (result : Stopped Output) : Save :=
  ⟨result.atStop, result.saved, result.attempts, if result.success then .completed else .failed⟩

section

variable {Output : Type} (turn : AgentLoopTurnContext Output)

/-- The save when the finalization reserve is taken. -/
def reserveSaves (s : State) (input : Turn) : List Save :=
  if turn.budget.maxWallClockMs < input.elapsedMs then []
  else
    match withinModelTurns turn s with
    | none => []
    | some s' => if s'.finalizationReserveUsed = s.finalizationReserveUsed then [] else [s'.save]

/-- The saves of one round. -/
def roundSaves (s : State) (input : Turn) : List Save :=
  reserveSaves turn s input ++
    match (round turn s input).2 with
    | .stop result => [result.save]
    | .resume s' => [s'.save]

/-- The saves of the loop. -/
def loopSaves : State → List Turn → List Save
  | _, [] => []
  | s, input :: inputs =>
    roundSaves turn s input ++
      match (round turn s input).2 with
      | .stop _ => []
      | .resume s' => loopSaves s' inputs

/-- The saves of a run. -/
def saves (resumed : Option AgentLoopSessionState) (preTurnCompaction : CompactIfNeededResult)
    (inputs : List Turn) : List Save :=
  let s := initial turn resumed
  if (nonEmpty preTurnCompaction.error).isSome then [(stop s .fatalError : Stopped Output).save]
  else
    let s := { s with
      messages := preTurnCompaction.messages
      compactionRecords := preTurnCompaction.compactionRecords
      compactions := s.compactions + if preTurnCompaction.compacted then 1 else 0 }
    s.save :: loopSaves turn s inputs

/-- What is stored of a save, after the normalization on load, carries the counters of the loop:
a run that resumes it starts with them. -/
def Carries (recordValue : AgentLoopCompactionRecord → Value) (session : Session) (save : Save) :
    Prop :=
  ∃ v, normalizeAgentLoopSessionState
      (saveState recordValue session save.saved save.status) = some v ∧
    ∀ messages records, ∃ resumed, resume v messages records = some resumed ∧
      (initial turn (some resumed)).counters = save.atSave.counters

/-- The save is given the completion validation attempts, or there have been none. -/
def Save.KeepsAttempts (save : Save) : Prop :=
  save.attempts.isSome = true ∨ save.atSave.completionValidationAttempts = 0

/-! ## What a stop is given -/

/-- A stop that is given attempts is given those of the loop. -/
def Stopped.Given (result : Stopped Output) : Prop :=
  result.attempts = none ∨ result.attempts = some result.atStop.completionValidationAttempts

variable {turn}

theorem compactAndResume_given {s : State} {input : Turn} {usageTokens : Option Number}
    {attempts : Option ℕ} {result : Stopped Output}
    (hattempts : attempts = none ∨ attempts = some s.completionValidationAttempts)
    (h : compactAndResume s input usageTokens attempts = .stop result) : result.Given := by
  unfold compactAndResume at h
  dsimp only at h
  split at h
  · obtain rfl := Next.stop.inj h
    exact hattempts
  · cases h

theorem repairSchema_given {s : State} {input : Turn} {usageTokens : Option Number}
    {content prompt : Text} {result : Stopped Output}
    (h : repairSchema turn s input usageTokens content prompt = .stop result) : result.Given := by
  unfold repairSchema at h
  dsimp only at h
  split at h
  · obtain rfl := Next.stop.inj h
    exact .inl rfl
  · exact compactAndResume_given (.inl rfl) h

theorem requireTools_given {s : State} {input : Turn} {usageTokens : Option Number}
    {content : Text} {answer : List Effect × Next Output} {result : Stopped Output}
    (hanswer : answer.2 = .stop result → result.Given)
    (h : (requireTools turn s input usageTokens content answer).2 = .stop result) :
    result.Given := by
  unfold requireTools at h
  dsimp only at h
  split at h
  · exact compactAndResume_given (.inl rfl) h
  · exact hanswer h

theorem validate_given {s : State} {input : Turn} {usageTokens : Option Number} {content : Text}
    {output : Output} {result : Stopped Output}
    (h : (validate turn s input usageTokens content output).2 = .stop result) : result.Given := by
  unfold validate at h
  split at h
  · split at h
    · obtain rfl := Next.stop.inj h
      exact .inr rfl
    · dsimp only at h
      split at h
      · obtain rfl := Next.stop.inj h
        exact .inr rfl
      · exact compactAndResume_given (.inr rfl) h
  · obtain rfl := Next.stop.inj h
    exact .inr rfl

theorem finalAnswer_given {s : State} {input : Turn} {usageTokens : Option Number}
    {content : Text} {result : Stopped Output}
    (h : (finalAnswer turn s input usageTokens content).2 = .stop result) : result.Given := by
  unfold finalAnswer at h
  split at h
  · split at h
    · exact repairSchema_given h
    · refine requireTools_given (fun hstop => ?_) h
      obtain rfl := Next.stop.inj hstop
      exact .inr rfl
  · split at h
    · exact requireTools_given validate_given h
    · exact repairSchema_given h

theorem recordResults_given {calls : List AgentLoopToolCall} {timedOut : Bool} {s : State}
    {outputs : List AgentLoopToolOutput} {result : Stopped Output}
    (h : recordResults turn calls timedOut s outputs = .error result) : result.Given := by
  induction outputs generalizing s with
  | nil => cases h
  | cons output outputs ih =>
    unfold recordResults at h
    dsimp only at h
    split at h
    · obtain rfl := Except.error.inj h
      exact .inl rfl
    split at h
    · obtain rfl := Except.error.inj h
      exact .inl rfl
    split at h
    · obtain rfl := Except.error.inj h
      exact .inl rfl
    exact ih h

theorem executeToolBatch_given {s : State} {input : Turn} {usageTokens : Option Number}
    {calls : List AgentLoopToolCall} {result : Stopped Output}
    (h : (executeToolBatch turn s input usageTokens calls).2 = .stop result) : result.Given := by
  unfold executeToolBatch at h
  split at h
  · obtain rfl := Next.stop.inj h
    exact .inr rfl
  split at h
  · obtain rfl := Next.stop.inj h
    exact .inr rfl
  · dsimp only at h
    split at h
    · next hrecord =>
      obtain rfl := Next.stop.inj h
      exact recordResults_given hrecord
    · exact compactAndResume_given (.inl rfl) h

theorem runTools_given {s : State} {input : Turn} {wasFinalAnswerOnly : Bool}
    {usageTokens : Option Number} {response : Response} {result : Stopped Output}
    (h : (runTools turn s input wasFinalAnswerOnly usageTokens response).2 = .stop result) :
    result.Given := by
  unfold runTools at h
  split at h
  · obtain rfl := Next.stop.inj h
    exact .inr rfl
  split at h
  · obtain rfl := Next.stop.inj h
    exact .inr rfl
  dsimp only at h
  split at h
  · obtain rfl := Next.stop.inj h
    exact .inl rfl
  split at h
  · obtain rfl := Next.stop.inj h
    exact .inl rfl
  exact executeToolBatch_given h

theorem beforeRequest_given {s : State} {input : Turn} {result : Stopped Output}
    (h : beforeRequest turn s input = .error result) : result.Given := by
  unfold beforeRequest at h
  split at h
  · obtain rfl := Except.error.inj h
    exact .inl rfl
  split at h
  · obtain rfl := Except.error.inj h
    exact .inl rfl
  split at h
  · obtain rfl := Except.error.inj h
    exact .inl rfl
  split at h
  · obtain rfl := Except.error.inj h
    exact .inl rfl
  · cases h

theorem requestFailed_given (s : State) (err : RunError) :
    (requestFailed s err : Stopped Output).Given := by
  unfold requestFailed
  split <;> exact .inr rfl

/-- **A stop that is given the completion validation attempts is given those of the loop.** -/
theorem stopped_attempts {s : State} {input : Turn} {result : Stopped Output}
    (h : (round turn s input).2 = .stop result) : result.Given := by
  unfold round at h
  split at h
  · next hbefore =>
    obtain rfl := Next.stop.inj h
    exact beforeRequest_given hbefore
  dsimp only at h
  split at h
  · obtain rfl := Next.stop.inj h
    split
    · exact .inr rfl
    · exact requestFailed_given _ _
  split at h
  · obtain rfl := Next.stop.inj h
    exact .inl rfl
  split at h
  · obtain rfl := Next.stop.inj h
    exact .inl rfl
  · unfold afterResponse at h
    dsimp only at h
    split at h
    · exact finalAnswer_given h
    · exact runTools_given h

/-! ## Every save of a run -/

/-- What is saved are the counters of the loop, with the attempts that the save is given. -/
structure Save.Sound (save : Save) : Prop where
  counters : save.saved.counters =
    { save.atSave.counters with completionValidationAttempts := save.attempts.getD 0 }
  given : save.attempts = none ∨ save.attempts = some save.atSave.completionValidationAttempts

theorem State.save_sound (s : State) : s.save.Sound := ⟨rfl, .inr rfl⟩

theorem Stopped.save_sound {result : Stopped Output} (h : result.Given) : result.save.Sound :=
  ⟨rfl, h⟩

theorem reserveSaves_sound {s : State} {input : Turn} :
    ∀ save ∈ reserveSaves turn s input, save.Sound := by
  intro save hsave
  unfold reserveSaves at hsave
  split at hsave
  · cases hsave
  split at hsave
  · cases hsave
  split at hsave
  · cases hsave
  · obtain rfl := List.mem_singleton.mp hsave
    exact State.save_sound _

theorem roundSaves_sound {s : State} {input : Turn} :
    ∀ save ∈ roundSaves turn s input, save.Sound := by
  intro save hsave
  rcases List.mem_append.mp hsave with hsave | hsave
  · exact reserveSaves_sound save hsave
  split at hsave
  · next hstop =>
    obtain rfl := List.mem_singleton.mp hsave
    exact Stopped.save_sound (stopped_attempts hstop)
  · obtain rfl := List.mem_singleton.mp hsave
    exact State.save_sound _

theorem loopSaves_sound {s : State} {inputs : List Turn} :
    ∀ save ∈ loopSaves turn s inputs, save.Sound := by
  induction inputs generalizing s with
  | nil => exact nofun
  | cons input inputs ih =>
    intro save hsave
    rcases List.mem_append.mp hsave with hsave | hsave
    · exact roundSaves_sound save hsave
    · split at hsave
      · cases hsave
      · exact ih save hsave

/-- **Every save of a run.** -/
theorem saves_sound {resumed : Option AgentLoopSessionState}
    {preTurnCompaction : CompactIfNeededResult} {inputs : List Turn} :
    ∀ save ∈ saves turn resumed preTurnCompaction inputs, save.Sound := by
  intro save hsave
  unfold saves at hsave
  dsimp only at hsave
  split at hsave
  · obtain rfl := List.mem_singleton.mp hsave
    exact Stopped.save_sound (.inl rfl)
  · rcases List.mem_cons.mp hsave with rfl | hsave
    · exact State.save_sound _
    · exact loopSaves_sound save hsave

variable (turn) in
theorem saves_ne_nil (resumed : Option AgentLoopSessionState)
    (preTurnCompaction : CompactIfNeededResult) (inputs : List Turn) :
    saves turn resumed preTurnCompaction inputs ≠ [] := by
  unfold saves
  dsimp only
  split <;> exact List.cons_ne_nil _ _

/-- A save with the attempts keeps all counters. -/
theorem Save.Sound.keeps_iff {save : Save} (h : save.Sound) :
    save.saved.counters = save.atSave.counters ↔ save.KeepsAttempts := by
  rw [h.counters]
  unfold Save.KeepsAttempts
  rcases h.given with hnone | hsome
  · rw [hnone]
    constructor
    · intro heq
      exact .inr (congrArg Counters.completionValidationAttempts heq).symm
    · rintro (hcontra | hzero)
      · cases hcontra
      · have hzero : save.atSave.counters.completionValidationAttempts = 0 := hzero
        rw [Option.getD_none, ← hzero]
  · rw [hsome]
    exact iff_of_true rfl (.inl rfl)

variable (turn) in
theorem carries_iff_counters (recordValue : AgentLoopCompactionRecord → Value) (session : Session)
    (save : Save) : Carries turn recordValue session save ↔
      session.Valid ∧ save.saved.counters = save.atSave.counters := by
  constructor
  · rintro ⟨v, hv, hresume⟩
    refine ⟨normalize_isSome.mp ⟨v, hv⟩, ?_⟩
    obtain ⟨resumed, hresumed, hcounters⟩ := hresume [] []
    rw [normalize_saveState [] [] hv] at hresumed
    obtain rfl := Option.some.inj hresumed
    exact hcounters
  · rintro ⟨hvalid, hcounters⟩
    obtain ⟨v, hv⟩ := normalize_isSome.mpr hvalid
    exact ⟨v, hv, fun messages records =>
      ⟨_, normalize_saveState messages records hv, hcounters⟩⟩

/-- **Saving and resuming**: all saves of a run carry the counters of the loop exactly when the
session is valid and every save is given the completion validation attempts, or there have been
none. -/
theorem carries_iff (turn : AgentLoopTurnContext Output)
    (recordValue : AgentLoopCompactionRecord → Value) (session : Session)
    (resumed : Option AgentLoopSessionState) (preTurnCompaction : CompactIfNeededResult)
    (inputs : List Turn) :
    (∀ save ∈ saves turn resumed preTurnCompaction inputs,
      Carries turn recordValue session save) ↔
      session.Valid ∧ ∀ save ∈ saves turn resumed preTurnCompaction inputs,
        save.KeepsAttempts := by
  have hsave : ∀ save ∈ saves turn resumed preTurnCompaction inputs,
      (Carries turn recordValue session save ↔ session.Valid ∧ save.KeepsAttempts) := by
    intro save hsave
    rw [carries_iff_counters, (saves_sound save hsave).keeps_iff]
  constructor
  · intro h
    obtain ⟨first, hfirst⟩ := List.exists_mem_of_ne_nil _
      (saves_ne_nil turn resumed preTurnCompaction inputs)
    exact ⟨((hsave first hfirst).mp (h first hfirst)).1,
      fun save hmem => ((hsave save hmem).mp (h save hmem)).2⟩
  · rintro ⟨hvalid, hkeeps⟩ save hmem
    exact (hsave save hmem).mpr ⟨hvalid, hkeeps save hmem⟩

end

/-! ## A sample run -/

/-- A turn whose final answers are put to a completion validator. -/
def sampleValidated : AgentLoopTurnContext Unit where
  messages := []
  finalOutputMode := .schema
  budget := {
    maxModelTurns := 12
    maxToolCalls := 40
    maxWallClockMs := 600000
    maxConsecutiveToolErrors := 3
    maxRepeatedToolCalls := 4
    maxSchemaRepairAttempts := 2
    maxCompletionValidationAttempts := 2 }
  requiredTools := none
  hasCompletionValidator := true
  parseFinal := fun _ => .ok ()
  isReadOnly := fun _ => true
  toolLoopSignature := fun _ => []

/-- The validator is not satisfied with the answer. -/
def sampleRejected : Turn where
  protocol := .ok { assistant := [utf16 "done"], toolCalls := [] }
  toolBatch := .ok { answer := fun _ _ => { success := true, content := [] }, timedOut := false }
  completionValidation := .error [utf16 "no evidence"]
  compactIfNeeded := fun messages _ _ compactionRecords =>
    { messages, compactionRecords, compacted := false }

/-- Then the run is cancelled. -/
def sampleCancelled : Turn := { sampleRejected with abortedBefore := true }

def sampleSession : Session where
  sessionId := utf16 "session"
  traceId := utf16 "trace"
  turnId := utf16 "turn"
  goalId := utf16 "goal"
  taskId := none
  cwd := utf16 "/repo"
  modelRef := utf16 "provider/model"
  updatedAt := utf16 "2026-01-01T00:00:00.000Z"

/-- **The attempt is forgotten**: the cancelled run has saved none, and the next run may make one
more. -/
theorem attempt_forgotten : ¬ ∀ (Output : Type) (turn : AgentLoopTurnContext Output)
    (recordValue : AgentLoopCompactionRecord → Value) (session : Session)
    (resumed : Option AgentLoopSessionState) (preTurnCompaction : CompactIfNeededResult)
    (inputs : List Turn), session.Valid →
    ∀ save ∈ saves turn resumed preTurnCompaction inputs,
      Carries turn recordValue session save := by
  intro h
  have hforgotten : (saves sampleValidated none
      { messages := [], compactionRecords := [], compacted := false }
      [sampleRejected, sampleCancelled]).any (fun save =>
        save.saved.completionValidationAttempts = 0 ∧
          save.atSave.completionValidationAttempts = 1) = true := by decide +kernel
  obtain ⟨save, hsave, hattempts⟩ := List.any_eq_true.mp hforgotten
  obtain ⟨hsaved, hcount⟩ := of_decide_eq_true hattempts
  have hvalid : sampleSession.Valid := by
    unfold Session.Valid
    decide +kernel
  have hcarries := h Unit sampleValidated (fun _ => .null) sampleSession none _ _ hvalid save hsave
  have hcounters := ((carries_iff_counters sampleValidated _ sampleSession save).mp hcarries).2
  have hsame : save.saved.completionValidationAttempts =
      save.atSave.completionValidationAttempts :=
    congrArg Counters.completionValidationAttempts hcounters
  rw [hsaved, hcount] at hsame
  cases hsame

end BoundedAgentLoopRunner

end AgentLoop

end PulSeed
