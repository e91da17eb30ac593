import PulSeed.AgentLoop.Compactor
import PulSeed.Lib.Transition

/-!
# Tool calls and their results under compaction

A conversation is *well formed* when every tool message has an assistant message
before it that makes the call, and every call of an assistant message has its
result after it: the providers reject any other. A compaction cuts the messages
besides the system messages at a count. The calls of the tail keep their results,
which come later; a result of the tail may lose its call, when the cut falls
between the two. So a compaction keeps a conversation well formed **exactly** when
every result of the tail has its call in the tail (`wellFormed_compact_iff`), and
a conversation of complete turns and compactions stays well formed exactly when
every compaction is of that kind (`turns_survive_iff`).
-/

namespace PulSeed

namespace AgentLoop

open Text

/-! ## Well-formed conversations -/

/-- The ids of the tool calls that a message makes. -/
def AgentLoopMessage.callIds (m : AgentLoopMessage) : List Text :=
  if m.role = .assistant then (m.toolCalls.getD []).map (·.id) else []

/-- The message is the result of the tool call `id`. -/
def AgentLoopMessage.Answers (m : AgentLoopMessage) (id : Text) : Prop :=
  m.role = .tool ∧ m.toolCallId = some id

instance (m : AgentLoopMessage) (id : Text) : Decidable (m.Answers id) :=
  inferInstanceAs (Decidable (_ ∧ _))

/-- Every tool message has its call among `called` or in a message before it. -/
def Called : List Text → List AgentLoopMessage → Prop
  | _, [] => True
  | called, m :: ms => (m.role = .tool → ∃ id ∈ called, m.Answers id) ∧ Called (called ++ m.callIds) ms

instance Called.decidable : ∀ (called : List Text) (ms : List AgentLoopMessage),
    Decidable (Called called ms)
  | _, [] => instDecidableTrue
  | called, m :: ms =>
    haveI := Called.decidable (called ++ m.callIds) ms
    inferInstanceAs (Decidable ((m.role = .tool → ∃ id ∈ called, m.Answers id) ∧ _))

/-- Every call has its result in a message after it. -/
def Answered : List AgentLoopMessage → Prop
  | [] => True
  | m :: ms => (∀ id ∈ m.callIds, ∃ r ∈ ms, r.Answers id) ∧ Answered ms

instance Answered.decidable : ∀ ms : List AgentLoopMessage, Decidable (Answered ms)
  | [] => instDecidableTrue
  | m :: ms =>
    haveI := Answered.decidable ms
    inferInstanceAs (Decidable ((∀ id ∈ m.callIds, ∃ r ∈ ms, r.Answers id) ∧ _))

/-- No result without its call, no call without its result. -/
structure WellFormed (ms : List AgentLoopMessage) : Prop where
  called : Called [] ms
  answered : Answered ms

instance (ms : List AgentLoopMessage) : Decidable (WellFormed ms) :=
  decidable_of_iff (Called [] ms ∧ Answered ms) ⟨fun h => ⟨h.1, h.2⟩, fun h => ⟨h.1, h.2⟩⟩

/-! ## Parts of a conversation -/

/-- A message that neither makes a call nor is a result. -/
def Inert (m : AgentLoopMessage) : Prop := m.role ≠ .assistant ∧ m.role ≠ .tool

theorem Inert.callIds {m : AgentLoopMessage} (h : Inert m) : m.callIds = [] := if_neg h.1

theorem Called.mono {called called' : List Text} {ms : List AgentLoopMessage}
    (h : Called called ms) (hsub : called ⊆ called') : Called called' ms := by
  induction ms generalizing called called' with
  | nil => trivial
  | cons m ms ih =>
    refine ⟨fun htool => ?_, ih h.2 (List.append_subset.mpr ⟨?_, ?_⟩)⟩
    · obtain ⟨id, hid, hanswers⟩ := h.1 htool
      exact ⟨id, hsub hid, hanswers⟩
    · exact List.Subset.trans hsub (List.subset_append_left _ _)
    · exact List.subset_append_right _ _

theorem called_append {called : List Text} {xs ys : List AgentLoopMessage} :
    Called called (xs ++ ys) ↔
      Called called xs ∧ Called (called ++ xs.flatMap (·.callIds)) ys := by
  induction xs generalizing called with
  | nil => simp [Called]
  | cons x xs ih =>
    simp only [List.cons_append, Called, ih, List.flatMap_cons, List.append_assoc, and_assoc]

theorem Answered.append {xs ys : List AgentLoopMessage} (hx : Answered xs) (hy : Answered ys) :
    Answered (xs ++ ys) := by
  induction xs with
  | nil => exact hy
  | cons x xs ih =>
    refine ⟨fun id hid => ?_, ih hx.2⟩
    obtain ⟨r, hr, hanswers⟩ := hx.1 id hid
    exact ⟨r, by simp [hr], hanswers⟩

theorem Answered.right {xs ys : List AgentLoopMessage} (h : Answered (xs ++ ys)) :
    Answered ys := by
  induction xs with
  | nil => exact h
  | cons x xs ih => exact ih h.2

/-- A complete turn may follow a well-formed conversation. -/
theorem WellFormed.append {xs ys : List AgentLoopMessage} (hx : WellFormed xs)
    (hy : WellFormed ys) : WellFormed (xs ++ ys) where
  called := called_append.mpr ⟨hx.called, hy.called.mono (List.nil_subset _)⟩
  answered := hx.answered.append hy.answered

/-- Inert messages at the front make no difference. -/
theorem wellFormed_inert_append {xs ys : List AgentLoopMessage} (h : ∀ m ∈ xs, Inert m) :
    WellFormed (xs ++ ys) ↔ WellFormed ys := by
  induction xs with
  | nil => rfl
  | cons x xs ih =>
    have hx : Inert x := h x (by simp)
    have hrest := ih fun m hm => h m (by simp [hm])
    rw [← hrest]
    constructor
    · rintro ⟨⟨-, hcalled⟩, -, hanswered⟩
      exact ⟨by rwa [hx.callIds] at hcalled, hanswered⟩
    · rintro ⟨hcalled, hanswered⟩
      refine ⟨⟨fun htool => absurd htool hx.2, by rwa [hx.callIds]⟩, ?_, hanswered⟩
      simp [hx.callIds]

variable {p : AgentLoopMessage → Bool}

/-- Leaving out inert messages makes no difference. -/
theorem called_filter (hp : ∀ m, p m = false → Inert m) {called : List Text}
    {ms : List AgentLoopMessage} : Called called (ms.filter p) ↔ Called called ms := by
  induction ms generalizing called with
  | nil => rfl
  | cons m ms ih =>
    cases hm : p m with
    | true => rw [List.filter_cons_of_pos hm, Called, Called, ih]
    | false =>
      have hinert := hp m hm
      rw [List.filter_cons_of_neg (by simp [hm]), Called, hinert.callIds, List.append_nil, ih]
      exact ⟨fun h => ⟨fun htool => absurd htool hinert.2, h⟩, And.right⟩

theorem answered_filter (hp : ∀ m, p m = false → Inert m) {ms : List AgentLoopMessage} :
    Answered (ms.filter p) ↔ Answered ms := by
  have hmem : ∀ (ms : List AgentLoopMessage) (id : Text),
      (∃ r ∈ ms.filter p, r.Answers id) ↔ ∃ r ∈ ms, r.Answers id := by
    intro ms id
    constructor
    · rintro ⟨r, hr, hanswers⟩
      exact ⟨r, (List.mem_filter.mp hr).1, hanswers⟩
    · rintro ⟨r, hr, hanswers⟩
      cases hpr : p r with
      | true => exact ⟨r, List.mem_filter.mpr ⟨hr, hpr⟩, hanswers⟩
      | false => exact absurd hanswers.1 (hp r hpr).2
  induction ms with
  | nil => rfl
  | cons m ms ih =>
    cases hm : p m with
    | true => simp only [List.filter_cons_of_pos hm, Answered, ih, hmem]
    | false =>
      rw [List.filter_cons_of_neg (by simp [hm])]
      simp only [Answered, (hp m hm).callIds, List.not_mem_nil, false_implies, implies_true,
        true_and, ih]

theorem wellFormed_filter (hp : ∀ m, p m = false → Inert m) {ms : List AgentLoopMessage} :
    WellFormed (ms.filter p) ↔ WellFormed ms :=
  ⟨fun h => ⟨(called_filter hp).mp h.called, (answered_filter hp).mp h.answered⟩,
    fun h => ⟨(called_filter hp).mpr h.called, (answered_filter hp).mpr h.answered⟩⟩

/-! ## One compaction -/

variable (self : ExtractiveAgentLoopCompactor)

/-- The cut parts no result from its call: every tool message at or after the cut has its
call between the cut and itself. -/
def ExtractiveAgentLoopCompactor.CutsBetweenTurns (limit : Option Number)
    (messages : List AgentLoopMessage) : Prop :=
  Called [] ((nonSystemMessages messages).drop (self.cut limit messages))

instance (limit : Option Number) (messages : List AgentLoopMessage) :
    Decidable (self.CutsBetweenTurns limit messages) :=
  inferInstanceAs (Decidable (Called _ _))

theorem inert_of_systemMessages {messages : List AgentLoopMessage} :
    ∀ m ∈ systemMessages messages, Inert m := by
  intro m hm
  have hrole : m.role = .system := of_decide_eq_true (List.mem_filter.mp hm).2
  simp [Inert, hrole]

theorem inert_of_system (m : AgentLoopMessage) (h : decide (m.role ≠ .system) = false) :
    Inert m := by
  have hrole : m.role = .system := not_not.mp (of_decide_eq_false h)
  simp [Inert, hrole]

theorem inert_of_summary (m : AgentLoopMessage) (h : notSummary m = false) : Inert m := by
  have hsummary : isCompactionSummaryMessage m = true := by simpa [notSummary] using h
  have hrole : m.role = .user := of_decide_eq_true (Bool.and_eq_true_iff.mp hsummary).1
  simp [Inert, hrole]

/-- The tail of a well-formed conversation only lacks calls. -/
theorem wellFormed_tailOf {limit : Option Number} {messages : List AgentLoopMessage}
    (h : WellFormed messages) :
    WellFormed (self.tailOf limit messages) ↔ self.CutsBetweenTurns limit messages := by
  rw [ExtractiveAgentLoopCompactor.tailOf, wellFormed_filter inert_of_summary]
  refine ⟨WellFormed.called, fun hcalled => ⟨hcalled, ?_⟩⟩
  have hothers : Answered (nonSystemMessages messages) :=
    (answered_filter inert_of_system).mpr h.answered
  rw [← List.take_append_drop (self.cut limit messages) (nonSystemMessages messages)] at hothers
  exact hothers.right

/-- When nothing is summarised, no call is cut off. -/
theorem cutsBetweenTurns_of_summarizedOf {limit : Option Number}
    {messages : List AgentLoopMessage} (h : WellFormed messages)
    (hnone : self.summarizedOf limit messages = []) :
    self.CutsBetweenTurns limit messages := by
  have hothers : Called [] (nonSystemMessages messages) :=
    (called_filter inert_of_system).mpr h.called
  rw [← List.take_append_drop (self.cut limit messages) (nonSystemMessages messages),
    called_append] at hothers
  have hcalls : ((nonSystemMessages messages).take (self.cut limit messages)).flatMap
      (·.callIds) = [] := by
    refine List.flatMap_eq_nil_iff.mpr fun m hm => (inert_of_summary m ?_).callIds
    simpa using List.filter_eq_nil_iff.mp hnone m hm
  rw [hcalls] at hothers
  exact hothers.2

/-- **A compaction keeps a conversation well formed exactly** when it has nothing to do or
cuts between turns. -/
theorem wellFormed_compact_iff (input : AgentLoopCompactionInput)
    (h : WellFormed input.history.messages) :
    WellFormed (self.compact input).history.messages ↔
      self.Fits input.maxMessages input.history.messages ∨
        self.CutsBetweenTurns input.maxMessages input.history.messages := by
  rcases compact_cases self input with ⟨hfits, heq⟩ | ⟨hfits, hnone, heq⟩ | ⟨hfits, -, record, -, heq⟩
  · rw [heq]
    exact ⟨fun _ => .inl hfits, fun _ => h⟩
  · rw [heq, wellFormed_inert_append inert_of_systemMessages, wellFormed_tailOf self h]
    exact ⟨.inr, fun _ => cutsBetweenTurns_of_summarizedOf self h hnone⟩
  · have hfront : ∀ m ∈ systemMessages input.history.messages ++ [summaryMessage record.summary],
        Inert m := by
      intro m hm
      rcases List.mem_append.mp hm with hm | hm
      · exact inert_of_systemMessages m hm
      · rw [List.mem_singleton.mp hm]
        exact ⟨nofun, nofun⟩
    rw [heq]
    dsimp only
    rw [List.append_cons, wellFormed_inert_append hfront, wellFormed_tailOf self h]
    exact ⟨.inr, fun hor => hor.resolve_left hfits⟩

/-! ## Sessions of turns and compactions -/

/-- A complete turn: messages whose calls and results belong together. -/
structure Turn where
  messages : List AgentLoopMessage
  complete : WellFormed messages

inductive SessionAction
  | turn (turn : Turn)
  | compact (request : CompactionRequest)

/-- One action on a conversation; the answer is whether it was compacted. -/
def sessionStep (history : AgentLoopHistory) : SessionAction → AgentLoopHistory × Bool
  | .turn turn => (appendAgentLoopHistory history turn.messages, false)
  | .compact request =>
    let result := self.compact { request with history }
    (result.history, result.compacted)

/-- A compaction leaves a history within the limit, or cuts it between turns. -/
def CompactsBetweenTurns (history : AgentLoopHistory) : SessionAction × Bool → Prop
  | (.turn _, _) => True
  | (.compact request, _) => self.Fits request.maxMessages history.messages ∨
      self.CutsBetweenTurns request.maxMessages history.messages

instance : ∀ (history : AgentLoopHistory) (l : SessionAction × Bool),
    Decidable (CompactsBetweenTurns self history l)
  | _, (.turn _, _) => instDecidableTrue
  | _, (.compact _, _) => inferInstanceAs (Decidable (_ ∨ _))

/-- **Turns survive compaction exactly when the cut falls between them**: one compaction of
a well-formed conversation gives a well-formed one exactly when it has nothing to do or
parts no result from its call, and a session of complete turns and compactions keeps its
conversation well formed throughout exactly when all its compactions are of that kind. -/
theorem turns_survive_iff :
    (∀ input : AgentLoopCompactionInput, WellFormed input.history.messages →
      (WellFormed (self.compact input).history.messages ↔
        self.Fits input.maxMessages input.history.messages ∨
          self.CutsBetweenTurns input.maxMessages input.history.messages)) ∧
    (∀ (s s' : AgentLoopHistory) (ls : List (SessionAction × Bool)), WellFormed s.messages →
      (LTS.ofFn (sessionStep self)).Run s ls s' →
      ((LTS.ofFn (sessionStep self)).Throughout s ls (fun h => WellFormed h.messages) ↔
        (LTS.ofFn (sessionStep self)).Always s ls (CompactsBetweenTurns self))) := by
  refine ⟨wellFormed_compact_iff self, fun s s' ls hs hrun => hrun.throughout_iff hs ?_⟩
  intro history action h
  cases action with
  | turn turn => exact ⟨fun _ => trivial, fun _ => h.append turn.complete⟩
  | compact request => exact wellFormed_compact_iff self { request with history } h

/-! A sample: two turns with one call each. -/

def plainText (role : AgentLoopMessageRole) (content : String) : AgentLoopMessage :=
  { role
    content := utf16 content }

def sampleCall (id : String) : AgentLoopMessage :=
  { plainText .assistant "" with
    toolCalls := some [{ id := utf16 id, name := utf16 "read", input := none }] }

def sampleResult (id : String) : AgentLoopMessage :=
  { plainText .tool "done" with toolCallId := some (utf16 id) }

def sampleCompactor : ExtractiveAgentLoopCompactor :=
  { stringifyJson := fun _ => utf16 "null" }

def sampleTurn : Turn where
  messages := [sampleCall "c", sampleResult "c"]
  complete := by decide +kernel

/-- A conversation whose cut falls between two turns. -/
def betweenTurns : AgentLoopHistory :=
  createAgentLoopHistory
    [plainText .system "s", plainText .user "u", sampleCall "a", sampleResult "a",
      sampleCall "b", sampleResult "b"] []

/-- A conversation whose cut falls between a call and its result. -/
def withinTurn : AgentLoopHistory :=
  createAgentLoopHistory
    [plainText .system "s", plainText .user "u", sampleCall "a", sampleResult "a",
      plainText .user "v"] []

def compactToFour : CompactionRequest := { maxMessages := some (.finite 4) }

theorem turns_survive_iff_sample :
    (LTS.ofFn (sessionStep sampleCompactor)).Throughout betweenTurns
      (LTS.exec (sessionStep sampleCompactor) betweenTurns
        [.compact compactToFour, .turn sampleTurn, .compact compactToFour]).1
      (fun h => WellFormed h.messages) :=
  ((turns_survive_iff sampleCompactor).2 betweenTurns _ _ (by decide +kernel)
    (LTS.run_exec _ _ _)).mpr (LTS.ExecAlways.always (by decide +kernel))

theorem result_without_call :
    WellFormed withinTurn.messages ∧
      ¬ WellFormed (sampleCompactor.compact
        { compactToFour with history := withinTurn }).history.messages := by
  decide +kernel

end AgentLoop

end PulSeed
