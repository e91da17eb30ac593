import PulSeed.AgentLoop.Compactor
import PulSeed.Lib.Transition
import Mathlib.Data.List.Infix

/-!
# What compactions remember

A *ledger* runs beside a history: `held` are the messages that were ever in it, and
`covered` says which messages each compaction summarised, with the text of its
summary. A message is *accounted for* when it is still in the history, or a summary
of it is: its text occurs in a message of the history.

A compaction of a history within the limit changes nothing, and one of a history
without summaries accounts for everything it takes away. The summary of an earlier
compaction, though, is neither kept nor summarised: the next compaction forgets it,
and with it every message it stood for (`summaries_kept_are_new`). So nothing is
forgotten in a session whose compactions meet no earlier summary
(`nothing_forgotten`).
-/

namespace PulSeed

namespace AgentLoop

open Text

variable (self : ExtractiveAgentLoopCompactor)

/-! ## The ledger -/

/-- A history, the messages ever held in it, and the summarised ones with the summary. -/
structure Ledger where
  history : AgentLoopHistory
  held : List AgentLoopMessage
  covered : List (AgentLoopMessage × Text)

/-- The ledger of a session that starts with a history. -/
def Ledger.start (history : AgentLoopHistory) : Ledger :=
  { history
    held := history.messages
    covered := [] }

/-- The messages that a compaction covered, by the indexes in its record. -/
def coverage (before : AgentLoopHistory) (result : AgentLoopCompactionResult) :
    List (AgentLoopMessage × Text) :=
  match result.compacted, result.history.compactionRecords.getLast? with
  | true, some record =>
    (record.replacementHistory.summarizedIndexes.filterMap (before.messages[·]?)).map
      fun m => (m, record.summary)
  | _, _ => []

inductive LedgerAction
  | append (messages : List AgentLoopMessage)
  | compact (request : CompactionRequest)

/-- One action on a history and its ledger; the answer is whether it was compacted. -/
def ledgerStep (ledger : Ledger) : LedgerAction → Ledger × Bool
  | .append messages =>
    ({ ledger with
      history := appendAgentLoopHistory ledger.history messages
      held := ledger.held ++ messages }, false)
  | .compact request =>
    let result := self.compact { request with history := ledger.history }
    ({ history := result.history
       held := ledger.held ++ result.history.messages
       covered := ledger.covered ++ coverage ledger.history result }, result.compacted)

/-! ## Accounting -/

/-- The text occurs in a message of the history. -/
def AgentLoopHistory.Carries (history : AgentLoopHistory) (text : Text) : Prop :=
  ∃ x ∈ history.messages, text <:+: x.content

/-- Every message ever held, the system messages apart, is present, or a summary that
covers it is carried. -/
def Ledger.Accounted (ledger : Ledger) : Prop :=
  ∀ m ∈ ledger.held, m.role ≠ .system →
    m ∈ ledger.history.messages ∨
      ∃ c ∈ ledger.covered, c.1 = m ∧ ledger.history.Carries c.2

/-- A compaction leaves a history within the limit, or meets no earlier summary. -/
def MeetsNoSummary (ledger : Ledger) : LedgerAction × Bool → Prop
  | (.append _, _) => True
  | (.compact request, _) => self.Fits request.maxMessages ledger.history.messages ∨
      ∀ m ∈ ledger.history.messages, notSummary m = true

instance : ∀ (ledger : Ledger) (l : LedgerAction × Bool), Decidable (MeetsNoSummary self ledger l)
  | _, (.append _, _) => instDecidableTrue
  | _, (.compact _, _) => inferInstanceAs (Decidable (_ ∨ _))

/-- A call that reports no compaction returns every message it was given. -/
def ReturnsAll (ledger : Ledger) (l : LedgerAction × Bool) : Prop :=
  l.2 = false → ∀ m ∈ ledger.history.messages, m ∈ (ledgerStep self ledger l.1).1.history.messages

/-! ## Summaries -/

theorem isCompactionSummaryMessage_summaryMessage (summary : Text) :
    isCompactionSummaryMessage (summaryMessage summary) = true := by
  have hstart : summaryPrefix.isPrefixOf (summaryMessage summary).content = true := by
    rw [List.isPrefixOf_iff_prefix]
    exact ⟨newline ++ summary, by simp [summaryMessage]⟩
  exact Bool.and_eq_true_iff.mpr ⟨rfl, hstart⟩

/-- Without summaries, a message besides the system messages is summarised or kept. -/
theorem mem_summarizedOf_or_tailOf {limit : Option Number} {messages : List AgentLoopMessage}
    (hnone : ∀ m ∈ messages, notSummary m = true) {m : AgentLoopMessage} (hm : m ∈ messages)
    (hrole : m.role ≠ .system) :
    m ∈ self.summarizedOf limit messages ∨ m ∈ self.tailOf limit messages := by
  have hother : m ∈ nonSystemMessages messages :=
    List.mem_filter.mpr ⟨hm, decide_eq_true hrole⟩
  rw [← List.take_append_drop (self.cut limit messages) (nonSystemMessages messages)] at hother
  rcases List.mem_append.mp hother with h | h
  · exact .inl (List.mem_filter.mpr ⟨h, hnone m hm⟩)
  · exact .inr (List.mem_filter.mpr ⟨h, hnone m hm⟩)

/-- Without summaries, a message is kept or covered by a summary that the result carries. -/
theorem compact_accounts (input : AgentLoopCompactionInput)
    (hnone : ∀ m ∈ input.history.messages, notSummary m = true) {m : AgentLoopMessage}
    (hm : m ∈ input.history.messages) :
    m ∈ (self.compact input).history.messages ∨
      (self.compact input).compacted = true ∧
        ∃ c ∈ coverage input.history (self.compact input), c.1 = m := by
  by_cases hrole : m.role = .system
  · have hsystem : m ∈ systemMessages input.history.messages :=
      List.mem_filter.mpr ⟨hm, decide_eq_true hrole⟩
    rcases compact_cases self input with ⟨-, heq⟩ | ⟨-, -, heq⟩ | ⟨-, -, record, -, heq⟩
    · exact .inl (by rwa [heq])
    · exact .inl (by rw [heq]; exact List.mem_append_left _ hsystem)
    · exact .inl (by rw [heq]; exact List.mem_append_left _ hsystem)
  · have hor : m ∈ self.summarizedOf input.maxMessages input.history.messages ∨
        m ∈ self.tailOf input.maxMessages input.history.messages :=
      mem_summarizedOf_or_tailOf self hnone hm hrole
    rcases compact_cases self input with
      ⟨-, heq⟩ | ⟨-, hempty, heq⟩ | ⟨-, -, record, hcovered, heq⟩
    · exact .inl (by rwa [heq])
    · rw [hempty] at hor
      refine .inl ?_
      rw [heq]
      exact List.mem_append_right _ (hor.resolve_left List.not_mem_nil)
    · rw [heq]
      rcases hor with h | h
      · refine .inr ⟨rfl, (m, record.summary), ?_, rfl⟩
        rw [coverage, List.getLast?_concat]
        exact List.mem_map_of_mem (hcovered ▸ h)
      · exact .inl (List.mem_append_right _ (List.mem_cons_of_mem _ h))

/-- What a compaction covers is carried by a summary in its result. -/
theorem coverage_carried (input : AgentLoopCompactionInput) :
    ∀ c ∈ coverage input.history (self.compact input),
      ∃ x ∈ (self.compact input).history.messages,
        isCompactionSummaryMessage x = true ∧ c.2 <:+: x.content := by
  intro c hc
  rcases compact_cases self input with ⟨-, heq⟩ | ⟨-, -, heq⟩ | ⟨-, -, record, -, heq⟩
  · rw [heq] at hc
    exact absurd hc List.not_mem_nil
  · rw [heq] at hc
    exact absurd hc List.not_mem_nil
  · rw [heq, coverage, List.getLast?_concat] at hc
    obtain ⟨m, -, rfl⟩ := List.mem_map.mp hc
    refine ⟨summaryMessage record.summary, ?_, isCompactionSummaryMessage_summaryMessage _, ?_⟩
    · rw [heq]
      exact List.mem_append_right _ List.mem_cons_self
    · exact (List.suffix_append (summaryPrefix ++ newline) record.summary).isInfix

/-! ## Sessions -/

/-- Every message is accounted for, and what was covered is carried by a summary message. -/
structure Ledger.Inv (ledger : Ledger) : Prop where
  accounted : ledger.Accounted
  carried : ∀ c ∈ ledger.covered, ∃ x ∈ ledger.history.messages,
    isCompactionSummaryMessage x = true ∧ c.2 <:+: x.content

theorem Ledger.Inv.start (history : AgentLoopHistory) : (Ledger.start history).Inv where
  accounted := fun _ hm _ => .inl hm
  carried := fun _ hc => absurd hc List.not_mem_nil

theorem Ledger.Inv.append {ledger : Ledger} (h : ledger.Inv) (messages : List AgentLoopMessage) :
    (ledgerStep self ledger (.append messages)).1.Inv where
  accounted := by
    intro m hm hrole
    rcases List.mem_append.mp hm with hm | hm
    · rcases h.accounted m hm hrole with hpresent | ⟨c, hc, hcm, x, hx, hinfix⟩
      · exact .inl (List.mem_append_left _ hpresent)
      · exact .inr ⟨c, hc, hcm, x, List.mem_append_left _ hx, hinfix⟩
    · exact .inl (List.mem_append_right _ hm)
  carried := by
    intro c hc
    obtain ⟨x, hx, hsummary⟩ := h.carried c hc
    exact ⟨x, List.mem_append_left _ hx, hsummary⟩

/-- A history within the limit is returned as it is. -/
theorem compact_of_fits (input : AgentLoopCompactionInput)
    (hfits : self.Fits input.maxMessages input.history.messages) :
    self.compact input = { history := input.history, compacted := false } := if_pos hfits

theorem Ledger.Inv.compact {ledger : Ledger} (h : ledger.Inv) (request : CompactionRequest)
    (hcond : MeetsNoSummary self ledger
      (.compact request, (ledgerStep self ledger (.compact request)).2)) :
    (ledgerStep self ledger (.compact request)).1.Inv := by
  rcases hcond with hfits | hnone
  · have heq := compact_of_fits self { request with history := ledger.history } hfits
    refine ⟨fun m hm hrole => ?_, ?_⟩
    · simp only [ledgerStep, heq, coverage, List.append_nil] at hm ⊢
      rcases List.mem_append.mp hm with hm | hm
      · exact h.accounted m hm hrole
      · exact .inl hm
    · simp only [ledgerStep, heq, coverage, List.append_nil]
      exact h.carried
  · -- what was covered before would be carried by a summary
    have hempty : ledger.covered = [] := by
      refine List.eq_nil_iff_forall_not_mem.mpr fun c hc => ?_
      obtain ⟨x, hx, hsummary, -⟩ := h.carried c hc
      simpa [notSummary, hsummary] using hnone x hx
    have hcarried : ∀ c ∈ (ledgerStep self ledger (.compact request)).1.covered,
        ∃ x ∈ (ledgerStep self ledger (.compact request)).1.history.messages,
          isCompactionSummaryMessage x = true ∧ c.2 <:+: x.content := by
      simp only [ledgerStep, hempty, List.nil_append]
      exact coverage_carried self { request with history := ledger.history }
    refine ⟨fun m hm hrole => ?_, hcarried⟩
    rcases List.mem_append.mp hm with hm | hm
    · have hpresent : m ∈ ledger.history.messages := by
        rcases h.accounted m hm hrole with hpresent | ⟨c, hc, -⟩
        · exact hpresent
        · exact absurd (hempty ▸ hc) List.not_mem_nil
      rcases compact_accounts self { request with history := ledger.history } hnone hpresent with
        hkept | ⟨-, c, hc, hcm⟩
      · exact .inl hkept
      · have hmem : c ∈ (ledgerStep self ledger (.compact request)).1.covered :=
          List.mem_append_right _ hc
        obtain ⟨x, hx, -, hinfix⟩ := hcarried c hmem
        exact .inr ⟨c, hmem, hcm, x, hx, hinfix⟩
    · exact .inl hm

/-- A call that meets no summary and reports no compaction returns every message. -/
theorem returnsAll_of_meetsNoSummary {ledger : Ledger} {action : LedgerAction}
    (hcond : MeetsNoSummary self ledger (action, (ledgerStep self ledger action).2)) :
    ReturnsAll self ledger (action, (ledgerStep self ledger action).2) := by
  intro hfalse m hm
  cases action with
  | append messages => exact List.mem_append_left _ hm
  | compact request =>
    have hfalse : (self.compact { request with history := ledger.history }).compacted = false :=
      hfalse
    rcases hcond with hfits | hnone
    · have heq := compact_of_fits self { request with history := ledger.history } hfits
      simpa only [ledgerStep, heq] using hm
    · rcases compact_accounts self { request with history := ledger.history } hnone hm with
        hkept | ⟨htrue, -⟩
      · exact hkept
      · rw [hfalse] at htrue
        cases htrue

/-- **Nothing is forgotten where compactions meet no earlier summary**: in every session
whose compactions beyond the limit find no summary in the history, every message ever held
is accounted for in every state, and the calls that report no compaction return every
message they were given. -/
theorem nothing_forgotten (history : AgentLoopHistory) (ls : List (LedgerAction × Bool))
    (ledger : Ledger) (hrun : (LTS.ofFn (ledgerStep self)).Run (.start history) ls ledger)
    (hcond : (LTS.ofFn (ledgerStep self)).Always (.start history) ls (MeetsNoSummary self)) :
    (LTS.ofFn (ledgerStep self)).Throughout (.start history) ls Ledger.Accounted ∧
      (LTS.ofFn (ledgerStep self)).Always (.start history) ls (ReturnsAll self) := by
  have hinv : (LTS.ofFn (ledgerStep self)).Throughout (.start history) ls Ledger.Inv := by
    refine LTS.Throughout.guarded (Ledger.Inv.start history) hcond ?_
    rintro a ⟨action, answer⟩ b hstep hmeets ha
    have hstep : ledgerStep self a action = (b, answer) := hstep
    have hb : (ledgerStep self a action).1 = b := by rw [hstep]
    have hanswer : (ledgerStep self a action).2 = answer := by rw [hstep]
    rw [← hb]
    cases action with
    | append messages => exact ha.append self messages
    | compact request => exact ha.compact self request (by rwa [hanswer])
  refine ⟨fun ks rest m hsplit hks => (hinv ks rest m hsplit hks).accounted, ?_⟩
  rintro ks ⟨action, answer⟩ rest a rfl hks
  obtain ⟨m, hm, hrest⟩ := LTS.Run.append_iff.mp hrun
  obtain ⟨b, hstep, -⟩ := LTS.Run.cons_iff.mp hrest
  obtain rfl := LTS.Run.unique hm hks
  have hanswer : (ledgerStep self m action).2 = answer := congrArg Prod.snd hstep
  rw [← hanswer]
  exact returnsAll_of_meetsNoSummary self (by
    rw [hanswer]
    exact hcond ks (action, answer) rest m rfl hks)

/-! Sample sessions: one compaction, and one more after it. -/

def userText (content : String) : AgentLoopMessage :=
  { role := .user
    content := utf16 content }

def quietCompactor : ExtractiveAgentLoopCompactor :=
  { stringifyJson := fun _ => utf16 "null" }

def fourRequests : AgentLoopHistory :=
  createAgentLoopHistory [userText "a", userText "b", userText "c", userText "d"] []

def compactOnce : LedgerAction := .compact { maxMessages := some (.finite 3) }

theorem nothing_forgotten_once :
    (LTS.ofFn (ledgerStep quietCompactor)).Throughout (.start fourRequests)
        (LTS.exec (ledgerStep quietCompactor) (.start fourRequests)
          [compactOnce, .append [userText "e"]]).1 Ledger.Accounted ∧
      (LTS.ofFn (ledgerStep quietCompactor)).Always (.start fourRequests)
        (LTS.exec (ledgerStep quietCompactor) (.start fourRequests)
          [compactOnce, .append [userText "e"]]).1 (ReturnsAll quietCompactor) :=
  nothing_forgotten quietCompactor fourRequests _ _ (LTS.run_exec _ _ _)
    (LTS.ExecAlways.always (by decide +kernel))

/-- The ledger after two compactions. -/
def compactedTwice : Ledger :=
  (LTS.exec (ledgerStep quietCompactor) (.start fourRequests)
    [compactOnce, .append [userText "e"], compactOnce]).2

/-- The second compaction forgets the summary of the first, and the messages it covered. -/
theorem first_summary_forgotten :
    userText "a" ∈ compactedTwice.held ∧ ¬ compactedTwice.Accounted := by
  have hheld : userText "a" ∈ compactedTwice.held :=
    List.mem_append_left _ (List.mem_append_left _ (List.mem_append_left _ List.mem_cons_self))
  have habsent : utf16 "a" ∉ compactedTwice.history.messages.map (·.content) := by
    decide +kernel
  have huncarried : ∀ c ∈ compactedTwice.covered.map (fun c => (c.1.content, c.2)),
      c.1 = utf16 "a" →
        ∀ text ∈ compactedTwice.history.messages.map (·.content), ¬ c.2 <:+: text := by
    decide +kernel
  refine ⟨hheld, fun haccounted => ?_⟩
  rcases haccounted _ hheld nofun with hpresent | ⟨c, hc, hcm, x, hx, hinfix⟩
  · exact habsent (List.mem_map_of_mem hpresent)
  · refine huncarried (c.1.content, c.2) (List.mem_map_of_mem hc) ?_ x.content
      (List.mem_map_of_mem hx) hinfix
    rw [hcm]
    rfl

end AgentLoop

end PulSeed
