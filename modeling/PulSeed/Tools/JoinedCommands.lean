import Mathlib.Data.List.DropRight
import PulSeed.Lib.Traverse
import PulSeed.Tools.CommandReading

/-!
# The assessment of joined commands (`tools/system/ShellTool/command-policy.ts`)

Two commands with a connector between them are one command. The policy reads it as the two: its
tokens are theirs with the connector between them, its analysis is the two analyses as one, and
what it is found to do is what the two do together.

- `tokenize_joined`, `analyze_joined`: the tokens and the analysis.
- `verdict`: the status, from the capabilities and the paths alone; `verdict_mono`: what does more
  is judged no milder.
- `assess_joined`: **the assessment of joined commands is no milder than that of either, and its
  capabilities are theirs merged**, but for a protected target that the one command has and the
  other changes.
-/

namespace PulSeed.CommandPolicy

/-! ## Blanks behind a command -/

/-- The last character of a text is a backslash that escapes nothing. -/
def endsOpen : List Char → Bool
  | [] => false
  | ['\\'] => true
  | '\\' :: _ :: rest => endsOpen rest
  | _ :: rest => endsOpen rest

theorem endsOpen_cons {char : Char} (rest : List Char) (h : char ≠ '\\') :
    endsOpen (char :: rest) = endsOpen rest := by
  rw [endsOpen.eq_def]
  split
  · next heq => cases heq
  · next heq => exact absurd (List.cons.inj heq).1 h
  · next heq => exact absurd (List.cons.inj heq).1 h
  · next heq => rw [(List.cons.inj heq).2]

theorem isShellWhitespace_iff {char : Char} :
    isShellWhitespace char = true ↔ char = ' ' ∨ char = '\t' := by
  simp [isShellWhitespace]

variable {blank : Char} (hblank : isShellWhitespace blank = true)

include hblank in
theorem head?_append_blank {c : Char} (rest more : List Char) (hc : isShellWhitespace c = false) :
    (rest ++ blank :: more).head? = some c ↔ rest.head? = some c := by
  cases rest with
  | nil =>
    rw [List.nil_append, List.head?_cons, List.head?_nil, Option.some.injEq]
    refine iff_of_false ?_ nofun
    rintro rfl
    exact absurd (hc.symm.trans hblank) nofun
  | cons d rest => rfl

include hblank in
theorem tokenizeLoop_blank (current more : List Char) :
    tokenizeLoop none current (blank :: more) =
      (tokenizeLoop none [] more).map (pushWord current ++ ·) := by
  rcases isShellWhitespace_iff.mp hblank with rfl | rfl
  · rw [tokenizeLoop.eq_def]
    rfl
  · rw [tokenizeLoop.eq_def]
    rfl

include hblank in
theorem ne_cons_append_blank {c : Char} {rest : List Char} (more : List Char)
    (hc : isShellWhitespace c = false) (h : ∀ tail, rest = c :: tail → False) (tail : List Char) :
    rest ++ blank :: more ≠ c :: tail := by
  intro heq
  have hhead : (rest ++ blank :: more).head? = some c := congrArg List.head? heq
  rw [head?_append_blank hblank rest more hc] at hhead
  obtain ⟨tail', htail⟩ := List.head?_eq_some_iff.mp hhead
  exact h tail' htail

include hblank in
theorem pushRedirect_blank (current : List Char) (char : Char) (rest more : List Char) :
    pushRedirect current char (rest ++ blank :: more).head? =
      pushRedirect current char rest.head? := by
  unfold pushRedirect redirectOperator
  simp only [head?_append_blank hblank rest more (show isShellWhitespace '>' = false by decide)]

/-- What is pushed in front of the tokens of a text is in front of those of a longer text. -/
theorem tokens_append {rest more : List Char} {f : List ShellToken → List ShellToken}
    {tokens : List ShellToken} (hf : ∀ l l', f (l ++ l') = f l ++ l')
    (h : (tokenizeLoop none [] rest).map f = .ok tokens)
    (hrest : ∀ tokens, tokenizeLoop none [] rest = .ok tokens →
      tokenizeLoop none [] (rest ++ blank :: more) =
        (tokenizeLoop none [] more).map (tokens ++ ·)) :
    (tokenizeLoop none [] (rest ++ blank :: more)).map f =
      (tokenizeLoop none [] more).map (tokens ++ ·) := by
  cases hloop : tokenizeLoop none [] rest with
  | error error =>
    rw [hloop] at h
    cases h
  | ok tail =>
    rw [hloop] at h
    cases h
    rw [hrest tail hloop]
    cases tokenizeLoop none [] more with
    | error error => rfl
    | ok tokens => exact congrArg Except.ok (hf tail tokens)

include hblank in
/-- **The tokens of a command with more behind it** are its own and those of the rest. -/
theorem tokenizeLoop_append {quote : Option Char} {current command : List Char}
    {tokens : List ShellToken} (hquote : quote ≠ some '\\')
    (h : tokenizeLoop quote current command = .ok tokens)
    (hends : endsOpen command = false) (more : List Char) :
    tokenizeLoop quote current (command ++ blank :: more) =
      (tokenizeLoop none [] more).map (tokens ++ ·) := by
  fun_induction tokenizeLoop quote current command generalizing tokens with
  | case1 => cases h
  | case2 current =>
    cases h
    exact tokenizeLoop_blank hblank current more
  | case3 quote current rest ih =>
    rw [endsOpen_cons rest fun h => hquote (congrArg some h)] at hends
    rw [List.cons_append, tokenizeLoop.eq_def]
    dsimp only
    rw [if_pos rfl]
    exact ih (by simp) h hends
  | case4 => cases h
  | case5 => cases h
  | case6 quote current next rest hclose htick hsubstitution ih =>
    rw [List.cons_append, List.cons_append, tokenizeLoop.eq_def]
    dsimp only
    rw [if_neg hclose, if_neg htick, if_neg (by simp), if_pos rfl]
    exact ih hquote h hends
  | case7 => exact absurd hends (by decide)
  | case8 quote current char rest hclose htick hsubstitution hbackslash ih =>
    rw [endsOpen_cons rest hbackslash] at hends
    rw [List.cons_append, tokenizeLoop.eq_def]
    simp only [head?_append_blank hblank rest more (show isShellWhitespace '(' = false by decide)]
    rw [if_neg hclose, if_neg htick, if_neg hsubstitution, if_neg hbackslash]
    exact ih hquote h hends
  | case9 current char rest hopen ih =>
    have hchar : char ≠ '\\' := by
      rintro rfl
      exact absurd hopen (by decide)
    rw [endsOpen_cons rest hchar] at hends
    rw [List.cons_append, tokenizeLoop.eq_def]
    dsimp only
    rw [if_pos hopen]
    exact ih (fun h => hchar (Option.some.inj h)) h hends
  | case10 => cases h
  | case11 => cases h
  | case12 => cases h
  | case13 current next rest hopen hline htick hsubstitution ih =>
    rw [List.cons_append, List.cons_append, tokenizeLoop.eq_def]
    dsimp only
    rw [if_neg hopen, if_neg hline, if_neg htick, if_neg (by simp), if_pos rfl]
    exact ih (by simp) h hends
  | case14 => exact absurd hends (by decide)
  | case15 current char rest hopen hline htick hsubstitution hbackslash hwhite ih =>
    rw [endsOpen_cons rest hbackslash] at hends
    rw [List.cons_append, tokenizeLoop.eq_def]
    simp only [head?_append_blank hblank rest more (show isShellWhitespace '(' = false by decide)]
    rw [if_neg hopen, if_neg hline, if_neg htick, if_neg hsubstitution, if_neg hbackslash,
      if_pos hwhite]
    exact tokens_append (by simp) h fun tokens htokens => ih (by simp) htokens hends
  | case16 current rest _ _ _ _ _ _ ih =>
    have heq : tokenizeLoop none current ('&' :: '&' :: rest ++ blank :: more) =
        (tokenizeLoop none [] (rest ++ blank :: more)).map
          (pushWord current ++ .operator .and :: ·) := by
      rw [List.cons_append, tokenizeLoop.eq_def]
      rfl
    rw [heq]
    exact tokens_append (by simp) h fun tokens htokens => ih (by simp) htokens hends
  | case17 current rest _ _ _ _ _ _ ih =>
    have heq : tokenizeLoop none current ('&' :: '>' :: rest ++ blank :: more) =
        (tokenizeLoop none [] (rest ++ blank :: more)).map
          (pushWord current ++ .operator .combined_redirect :: ·) := by
      rw [List.cons_append, tokenizeLoop.eq_def]
      rfl
    rw [heq]
    exact tokens_append (by simp) h fun tokens htokens => ih (by simp) htokens hends
  | case18 current rest hamp hgreat _ _ _ _ _ _ ih =>
    rw [endsOpen_cons rest (by decide)] at hends
    rw [List.cons_append, tokenizeLoop.eq_def]
    dsimp only
    rw [if_neg (by decide), if_neg (by decide), if_neg (by decide), if_neg (by simp),
      if_neg (by decide), if_neg (by decide), if_pos rfl]
    split
    · next heq => exact absurd heq (ne_cons_append_blank hblank more (by decide) hamp _)
    · next heq => exact absurd heq (ne_cons_append_blank hblank more (by decide) hgreat _)
    · exact ih (by simp) h hends
  | case19 current rest _ _ _ _ _ _ _ ih =>
    have heq : tokenizeLoop none current ('|' :: '|' :: rest ++ blank :: more) =
        (tokenizeLoop none [] (rest ++ blank :: more)).map
          (pushWord current ++ .operator .or :: ·) := by
      rw [List.cons_append, tokenizeLoop.eq_def]
      rfl
    rw [heq]
    exact tokens_append (by simp) h fun tokens htokens => ih (by simp) htokens hends
  | case20 current rest hpipe _ _ _ _ _ _ _ ih =>
    rw [endsOpen_cons rest (by decide)] at hends
    rw [List.cons_append, tokenizeLoop.eq_def]
    dsimp only
    rw [if_neg (by decide), if_neg (by decide), if_neg (by decide), if_neg (by simp),
      if_neg (by decide), if_neg (by decide), if_neg (by decide), if_pos rfl]
    split
    · next heq => exact absurd heq (ne_cons_append_blank hblank more (by decide) hpipe _)
    · exact tokens_append (by simp) h fun tokens htokens => ih (by simp) htokens hends
  | case21 current rest _ _ _ _ _ _ _ _ ih =>
    rw [endsOpen_cons rest (by decide)] at hends
    have heq : tokenizeLoop none current (';' :: rest ++ blank :: more) =
        (tokenizeLoop none [] (rest ++ blank :: more)).map
          (pushWord current ++ .operator .sequence :: ·) := by
      rw [List.cons_append, tokenizeLoop.eq_def]
      rfl
    rw [heq]
    exact tokens_append (by simp) h fun tokens htokens => ih (by simp) htokens hends
  | case22 current rest _ _ _ _ _ _ _ _ _ ih =>
    rw [endsOpen_cons rest (by decide)] at hends
    have heq : tokenizeLoop none current ('<' :: rest ++ blank :: more) =
        (tokenizeLoop none [] (rest ++ blank :: more)).map
          (pushRedirect current '<' (rest ++ blank :: more).head? ++ ·) := by
      rw [List.cons_append, tokenizeLoop.eq_def]
      rfl
    rw [heq, pushRedirect_blank hblank]
    exact tokens_append (by simp) h fun tokens htokens => ih (by simp) htokens hends
  | case23 current rest _ _ _ _ _ _ _ _ _ _ ih =>
    have heq : tokenizeLoop none current ('>' :: '>' :: rest ++ blank :: more) =
        (tokenizeLoop none [] (rest ++ blank :: more)).map
          (pushRedirect current '>' (some '>') ++ ·) := by
      rw [List.cons_append, tokenizeLoop.eq_def]
      rfl
    rw [heq]
    exact tokens_append (by simp) h fun tokens htokens => ih (by simp) htokens hends
  | case24 current rest hgreat _ _ _ _ _ _ _ _ _ _ ih =>
    rw [endsOpen_cons rest (by decide)] at hends
    rw [List.cons_append, tokenizeLoop.eq_def]
    dsimp only
    rw [if_neg (by decide), if_neg (by decide), if_neg (by decide), if_neg (by simp),
      if_neg (by decide), if_neg (by decide), if_neg (by decide), if_neg (by decide),
      if_neg (by decide), if_neg (by decide), if_pos rfl]
    split
    · next heq => exact absurd heq (ne_cons_append_blank hblank more (by decide) hgreat _)
    · rw [pushRedirect_blank hblank]
      exact tokens_append (by simp) h fun tokens htokens => ih (by simp) htokens hends
  | case25 current char rest hopen hline htick hsubstitution hbackslash hwhite hamp hpipe hsemi
      hless hgreat ih =>
    rw [endsOpen_cons rest hbackslash] at hends
    rw [List.cons_append, tokenizeLoop.eq_def]
    simp only [head?_append_blank hblank rest more (show isShellWhitespace '(' = false by decide)]
    rw [if_neg hopen, if_neg hline, if_neg htick, if_neg hsubstitution, if_neg hbackslash,
      if_neg hwhite, if_neg hamp, if_neg hpipe, if_neg hsemi, if_neg hless, if_neg hgreat]
    exact ih (by simp) h hends

/-! ## Commands joined by a connector -/

/-- What joins two commands. -/
inductive Connector where
  | and
  | or
  | sequence
  | pipe
  deriving DecidableEq, Repr

/-- A connector as it is written. -/
def Connector.text : Connector → List Char
  | .and => ['&', '&']
  | .or => ['|', '|']
  | .sequence => [';']
  | .pipe => ['|']

/-- The token of a connector. -/
def Connector.operator : Connector → ShellOperator
  | .and => .and
  | .or => .or
  | .sequence => .sequence
  | .pipe => .pipe

/-- Two commands with a connector between them. -/
def joined (connector : Connector) (first second : List Char) : List Char :=
  first ++ ' ' :: (connector.text ++ ' ' :: second)

/-- Nothing but blanks is between two commands and their connector, and no backslash escapes the
first of them. -/
structure Joins (first second : List Char) : Prop where
  after : ∀ char ∈ trailing first, isShellWhitespace char = true
  before : Drive.trim second ≠ [] → ∀ char ∈ leading second, isShellWhitespace char = true
  ends : endsOpen (Drive.trim first) = false

theorem isWhiteSpace_connector (connector : Connector) :
    ∀ char ∈ connector.text, Drive.isWhiteSpace char = false := by
  have hall : (connector.text.all fun char => !Drive.isWhiteSpace char) = true := by
    cases connector <;> decide
  simpa using hall

theorem tokenizeLoop_blanks {blanks : List Char}
    (hblanks : ∀ char ∈ blanks, isShellWhitespace char = true) (more : List Char) :
    tokenizeLoop none [] (blanks ++ more) = tokenizeLoop none [] more := by
  induction blanks with
  | nil => rfl
  | cons blank blanks ih =>
    rw [List.cons_append, tokenizeLoop_blank (hblanks blank List.mem_cons_self),
      ih fun char hchar => hblanks char (List.mem_cons_of_mem _ hchar)]
    cases tokenizeLoop none [] more <;> rfl

theorem tokenizeLoop_connector (connector : Connector) {more : List Char}
    (hmore : more = [] ∨ ∃ tail, more = ' ' :: tail) :
    tokenizeLoop none [] (connector.text ++ more) =
      (tokenizeLoop none [] more).map (.operator connector.operator :: ·) := by
  rcases hmore with rfl | ⟨tail, rfl⟩
  · cases connector <;> rfl
  · cases connector <;> (rw [tokenizeLoop.eq_def]; rfl)

/-! What is trimmed off two commands that are joined is trimmed off the one or the other. -/

theorem trim_eq (text : List Char) :
    Drive.trim text =
      (text.dropWhile Drive.isWhiteSpace).rdropWhile Drive.isWhiteSpace := rfl

theorem dropWhile_append_of_notMem {l m r : List Char}
    (h : ∀ char ∈ m, Drive.isWhiteSpace char = false) (hm : m ≠ []) :
    (l ++ (m ++ r)).dropWhile Drive.isWhiteSpace =
      l.dropWhile Drive.isWhiteSpace ++ (m ++ r) := by
  obtain ⟨char, m, rfl⟩ := List.exists_cons_of_ne_nil hm
  have hchar := h char List.mem_cons_self
  rw [List.dropWhile_append]
  split
  · next hempty =>
    rw [List.isEmpty_iff.mp hempty, List.nil_append, List.cons_append,
      List.dropWhile_cons_of_neg (by simp [hchar])]
  · rfl

theorem rdropWhile_append (l r : List Char) :
    (l ++ r).rdropWhile Drive.isWhiteSpace =
      if r.rdropWhile Drive.isWhiteSpace = [] then l.rdropWhile Drive.isWhiteSpace
      else l ++ r.rdropWhile Drive.isWhiteSpace := by
  unfold List.rdropWhile
  rw [List.reverse_append, List.dropWhile_append]
  simp only [List.isEmpty_iff, List.reverse_eq_nil_iff]
  split
  · rfl
  · rw [List.reverse_append, List.reverse_reverse]

theorem rdropWhile_append_of_notMem {l m r : List Char}
    (h : ∀ char ∈ m, Drive.isWhiteSpace char = false) (hm : m ≠ []) :
    (l ++ (m ++ r)).rdropWhile Drive.isWhiteSpace =
      l ++ (m ++ r.rdropWhile Drive.isWhiteSpace) := by
  unfold List.rdropWhile
  rw [List.reverse_append, List.reverse_append, List.append_assoc,
    dropWhile_append_of_notMem (fun char hchar => h char (List.mem_reverse.mp hchar))
      (mt List.reverse_eq_nil_iff.mp hm)]
  simp

theorem trim_joined (connector : Connector) (first second : List Char) :
    Drive.trim (joined connector first second) =
      (first ++ [' ']).dropWhile Drive.isWhiteSpace ++
        (connector.text ++ (' ' :: second).rdropWhile Drive.isWhiteSpace) := by
  have hne : connector.text ≠ [] := by cases connector <;> decide
  have hjoined : joined connector first second =
      (first ++ [' ']) ++ (connector.text ++ ' ' :: second) := by
    simp [joined]
  rw [hjoined, trim_eq, dropWhile_append_of_notMem (isWhiteSpace_connector connector) hne,
    rdropWhile_append_of_notMem (isWhiteSpace_connector connector) hne]

theorem tokenizeLoop_first {first : List Char} {tokens : List ShellToken}
    (htokens : tokenizeShellCommand (Drive.trim first) = .ok tokens)
    (hafter : ∀ char ∈ trailing first, isShellWhitespace char = true)
    (hends : endsOpen (Drive.trim first) = false) (more : List Char) :
    tokenizeLoop none [] ((first ++ [' ']).dropWhile Drive.isWhiteSpace ++ more) =
      (tokenizeLoop none [] more).map (tokens ++ ·) := by
  rw [List.dropWhile_append]
  split
  · next hempty =>
    rw [trim_eq, List.isEmpty_iff.mp hempty] at htokens
    cases htokens
    cases htail : tokenizeLoop none [] more with
    | error error => exact htail
    | ok tail => exact htail
  · have hdrop : first.dropWhile Drive.isWhiteSpace = Drive.trim first ++ trailing first := by
      unfold Drive.trim trailing
      rw [← List.reverse_append, List.takeWhile_append_dropWhile, List.reverse_reverse]
    have hgap : ∀ char ∈ trailing first ++ [' '], isShellWhitespace char = true := by
      intro char hchar
      rcases List.mem_append.mp hchar with hchar | hchar
      · exact hafter char hchar
      · rw [List.mem_singleton.mp hchar]
        rfl
    rw [hdrop, List.append_assoc, List.append_assoc, ← List.append_assoc (trailing first)]
    obtain ⟨blank, blanks, hblanks⟩ : ∃ blank blanks, trailing first ++ [' '] = blank :: blanks :=
      List.exists_cons_of_ne_nil (by simp)
    have hloop : tokenizeLoop none [] (Drive.trim first) = .ok tokens := htokens
    rw [hblanks] at hgap ⊢
    rw [List.cons_append, tokenizeLoop_append (hgap blank List.mem_cons_self) (by simp) hloop hends,
      tokenizeLoop_blanks fun char hchar => hgap char (List.mem_cons_of_mem _ hchar)]

theorem tokenizeLoop_second {second : List Char} {tokens : List ShellToken}
    (htokens : tokenizeShellCommand (Drive.trim second) = .ok tokens)
    (hbefore : Drive.trim second ≠ [] → ∀ char ∈ leading second, isShellWhitespace char = true) :
    ((' ' :: second).rdropWhile Drive.isWhiteSpace = [] ∨
      ∃ tail, (' ' :: second).rdropWhile Drive.isWhiteSpace = ' ' :: tail) ∧
    tokenizeLoop none [] ((' ' :: second).rdropWhile Drive.isWhiteSpace) = .ok tokens := by
  have hsplit : ' ' :: second =
      (' ' :: leading second) ++ second.dropWhile Drive.isWhiteSpace := by
    rw [List.cons_append, leading, List.takeWhile_append_dropWhile]
  rw [hsplit, rdropWhile_append, ← trim_eq]
  split
  · next hempty =>
    rw [hempty] at htokens
    have hwhite : ∀ char ∈ ' ' :: leading second, Drive.isWhiteSpace char = true := by
      intro char hchar
      rcases List.mem_cons.mp hchar with rfl | hchar
      · decide
      · exact List.mem_takeWhile_imp hchar
    rw [List.rdropWhile_eq_nil_iff.mpr hwhite]
    exact ⟨.inl rfl, htokens⟩
  · next hnonempty =>
    refine ⟨.inr ⟨_, rfl⟩, ?_⟩
    rw [tokenizeLoop_blanks]
    · exact htokens
    · intro char hchar
      rcases List.mem_cons.mp hchar with rfl | hchar
      · rfl
      · exact hbefore hnonempty char hchar

/-- **The tokens of two commands that are joined** are theirs with the connector between them. -/
theorem tokenize_joined (connector : Connector) {first second : List Char}
    (hjoins : Joins first second) {tokens tokens' : List ShellToken}
    (hfirst : tokenizeShellCommand (Drive.trim first) = .ok tokens)
    (hsecond : tokenizeShellCommand (Drive.trim second) = .ok tokens') :
    tokenizeShellCommand (Drive.trim (joined connector first second)) =
      .ok (tokens ++ .operator connector.operator :: tokens') := by
  obtain ⟨hshape, hloop⟩ := tokenizeLoop_second hsecond hjoins.before
  rw [tokenizeShellCommand, trim_joined, tokenizeLoop_first hfirst hjoins.after hjoins.ends,
    tokenizeLoop_connector connector hshape, hloop]
  rfl

/-! ## Analyses -/

/-- Two analyses as one. -/
def ShellCommandAnalysis.append (first second : ShellCommandAnalysis) : ShellCommandAnalysis where
  commands := first.commands ++ second.commands
  pathTokens := first.pathTokens ++ second.pathTokens
  capabilities := mergeCapabilities first.capabilities second.capabilities
  redirections := first.redirections ++ second.redirections

theorem mergeCapabilities_assoc (a b c : ShellCommandCapabilities) :
    mergeCapabilities (mergeCapabilities a b) c = mergeCapabilities a (mergeCapabilities b c) := by
  simp [mergeCapabilities, Bool.and_assoc, Bool.or_assoc]

theorem mergeCapabilities_comm (a b : ShellCommandCapabilities) :
    mergeCapabilities a b = mergeCapabilities b a := by
  simp [mergeCapabilities, Bool.and_comm, Bool.or_comm]

@[simp] theorem mergeCapabilities_empty (a : ShellCommandCapabilities) :
    mergeCapabilities a emptyCapabilities = a := by
  simp [mergeCapabilities, emptyCapabilities]

theorem append_empty (analysis : ShellCommandAnalysis) : analysis.append {} = analysis := by
  simp [ShellCommandAnalysis.append]

theorem flushCommand_append (words : List (List Char)) (first second : ShellCommandAnalysis) :
    flushCommand words (first.append second) = first.append (flushCommand words second) := by
  unfold flushCommand
  cases buildSimpleCommand words with
  | none => rfl
  | some simple => simp [ShellCommandAnalysis.append, mergeCapabilities_assoc]

/-- An output redirection is merged into the capabilities like a command that writes. -/
theorem takeRedirection_append (operator : ShellOperator) (target : Option (List Char))
    (first second : ShellCommandAnalysis) :
    takeRedirection operator target (first.append second) =
      first.append (takeRedirection operator target second) := by
  unfold takeRedirection
  split
  · simp [ShellCommandAnalysis.append, mergeCapabilities]
  · simp [ShellCommandAnalysis.append]

theorem analyzeLoop_append (words : List (List Char)) (first second : ShellCommandAnalysis)
    (tokens : List ShellToken) :
    analyzeLoop words (first.append second) tokens =
      first.append (analyzeLoop words second tokens) := by
  fun_induction analyzeLoop words second tokens with
  | case1 words analysis =>
    rw [analyzeLoop, flushCommand_append]
  | case2 words analysis value rest ih =>
    rw [analyzeLoop, ih]
  | case3 words analysis operator rest hboundary ih =>
    rw [analyzeLoop.eq_def]
    dsimp only
    rw [if_pos hboundary, flushCommand_append, ih]
  | case4 words analysis operator hboundary target rest ih =>
    rw [analyzeLoop.eq_def]
    dsimp only
    rw [if_neg hboundary, takeRedirection_append, ih]
  | case5 words analysis operator hboundary rest hword ih =>
    rw [analyzeLoop.eq_def]
    dsimp only
    rw [if_neg hboundary]
    split
    · next target rest => exact absurd rfl (hword target rest)
    · rw [takeRedirection_append, ih]

/-- The loop begins anew behind a connector. -/
theorem analyzeLoop_connector (connector : Connector) (words : List (List Char))
    (analysis : ShellCommandAnalysis) (tokens rest : List ShellToken) :
    analyzeLoop words analysis (tokens ++ .operator connector.operator :: rest) =
      analyzeLoop [] (analyzeLoop words analysis tokens) rest := by
  have hconnector : isCommandBoundary connector.operator = true := by cases connector <;> rfl
  fun_induction analyzeLoop words analysis tokens with
  | case1 words analysis =>
    rw [List.nil_append, analyzeLoop.eq_def]
    dsimp only
    rw [if_pos hconnector]
  | case2 words analysis value tokens ih =>
    rw [List.cons_append, analyzeLoop, ih]
  | case3 words analysis operator tokens hboundary ih =>
    rw [List.cons_append, analyzeLoop.eq_def]
    dsimp only
    rw [if_pos hboundary, ih]
  | case4 words analysis operator hboundary target tokens ih =>
    rw [List.cons_append, List.cons_append, analyzeLoop.eq_def]
    dsimp only
    rw [if_neg hboundary, ih]
  | case5 words analysis operator hboundary tokens hword ih =>
    rw [List.cons_append, analyzeLoop.eq_def]
    dsimp only
    rw [if_neg hboundary]
    cases tokens with
    | nil => exact ih
    | cons token tokens =>
      cases token with
      | word target => exact absurd rfl (hword target tokens)
      | operator operator' => exact ih

/-- **The analysis of two commands that are joined** is the two analyses as one. -/
theorem analyze_joined (connector : Connector) {first second : List Char}
    (hjoins : Joins first second) {analysis analysis' : ShellCommandAnalysis}
    (hfirst : analyzeShellCommand first = .ok analysis)
    (hsecond : analyzeShellCommand second = .ok analysis') :
    analyzeShellCommand (joined connector first second) = .ok (analysis.append analysis') := by
  unfold analyzeShellCommand at hfirst hsecond ⊢
  obtain ⟨tokens, htokens, rfl⟩ := map_ok_iff.mp hfirst
  obtain ⟨tokens', htokens', rfl⟩ := map_ok_iff.mp hsecond
  rw [tokenize_joined connector hjoins htokens htokens']
  refine congrArg Except.ok ?_
  rw [analyzeLoop_connector, ← analyzeLoop_append, append_empty]

/-! ## Verdicts -/

/-- A command does more than read files. -/
def ShellCommandCapabilities.mutates (capabilities : ShellCommandCapabilities) : Bool :=
  capabilities.localWrite || !capabilities.readOnly

/-- A command does more than read. -/
def ShellCommandCapabilities.acts (capabilities : ShellCommandCapabilities) : Bool :=
  capabilities.localWrite || capabilities.network || !capabilities.readOnly

/-- The policy denies a command with such capabilities. -/
def denies (policy : Option ExecutionPolicy) (targets : Bool)
    (capabilities : ShellCommandCapabilities) : Bool :=
  capabilities.mutates && targets || capabilities.destructive ||
    capabilities.protectedTarget && capabilities.mutates ||
    capabilities.network && policy.any (!·.networkAccess) ||
    capabilities.acts && policy.any (·.sandboxMode = .read_only)

/-- The status of a command with such capabilities. -/
def verdict (policy : Option ExecutionPolicy) (targets : Bool)
    (capabilities : ShellCommandCapabilities) : Status :=
  if denies policy targets capabilities then .denied
  else if capabilities.acts && policy.all (·.approvalPolicy ≠ .never) then .needs_approval
  else .allowed

/-- How restrictive a status is. -/
def Status.rank : Status → ℕ
  | .allowed => 0
  | .needs_approval => 1
  | .denied => 2

/-- A command with the one capabilities does all that one with the other does. -/
structure ShellCommandCapabilities.Within (capabilities capabilities' : ShellCommandCapabilities) :
    Prop where
  readOnly : capabilities'.readOnly = true → capabilities.readOnly = true
  localWrite : capabilities.localWrite = true → capabilities'.localWrite = true
  network : capabilities.network = true → capabilities'.network = true
  destructive : capabilities.destructive = true → capabilities'.destructive = true
  protectedTarget : capabilities.protectedTarget = true → capabilities'.protectedTarget = true

theorem within_merge (a b : ShellCommandCapabilities) : a.Within (mergeCapabilities a b) := by
  constructor <;> simp +contextual [mergeCapabilities]

section Within

variable {a b : ShellCommandCapabilities} (h : a.Within b)

include h in
theorem mutates_of_within (hmutates : a.mutates = true) : b.mutates = true := by
  have hread := h.readOnly
  have hwrite := h.localWrite
  unfold ShellCommandCapabilities.mutates at hmutates ⊢
  grind

include h in
theorem acts_of_within (hacts : a.acts = true) : b.acts = true := by
  have hread := h.readOnly
  have hwrite := h.localWrite
  have hnetwork := h.network
  unfold ShellCommandCapabilities.acts at hacts ⊢
  grind

include h in
theorem denies_of_within (policy : Option ExecutionPolicy) {targets targets' : Bool}
    (htargets : targets = true → targets' = true) (hdenies : denies policy targets a = true) :
    denies policy targets' b = true := by
  have hmutates := mutates_of_within h
  have hacts := acts_of_within h
  have hnetwork := h.network
  have hdestructive := h.destructive
  have hprotected := h.protectedTarget
  unfold denies at hdenies ⊢
  grind

include h in
/-- **A command that does more is judged no milder.** -/
theorem verdict_mono (policy : Option ExecutionPolicy) {targets targets' : Bool}
    (htargets : targets = true → targets' = true) :
    (verdict policy targets a).rank ≤ (verdict policy targets' b).rank := by
  have hdenies := denies_of_within h policy htargets
  have hacts := acts_of_within h
  unfold verdict
  grind [Status.rank]

end Within

theorem status_eq {inside : InsideRoots} {command : List Char} {policy : Option ExecutionPolicy}
    {cwd : Option String} {analysis : ShellCommandAnalysis}
    (h : analyzeShellCommand command = .ok analysis) :
    (assessShellCommand inside command policy cwd).status =
      verdict policy (targetsProtectedRoot inside analysis.pathTokens policy cwd)
        analysis.capabilities := by
  unfold assessShellCommand verdict denies ShellCommandCapabilities.mutates
    ShellCommandCapabilities.acts
  rw [h]
  dsimp only
  generalize targetsProtectedRoot inside analysis.pathTokens policy cwd = targets
  cases policy with
  | none =>
    simp only [Option.any_none, Option.all_none]
    grind
  | some policy =>
    simp only [Option.any_some, Option.all_some]
    -- the last branch has the approval policy inside the assessment
    split
    · grind
    split
    · grind
    split
    · grind
    split
    · grind
    split
    · grind
    split
    · grind
    split
    · dsimp only
      grind
    · grind

theorem capabilities_eq {inside : InsideRoots} {command : List Char}
    {policy : Option ExecutionPolicy} {cwd : Option String} {analysis : ShellCommandAnalysis}
    (h : analyzeShellCommand command = .ok analysis) :
    (assessShellCommand inside command policy cwd).capabilities =
      { analysis.capabilities with
        protectedTarget := analysis.capabilities.protectedTarget ||
          analysis.capabilities.mutates &&
            targetsProtectedRoot inside analysis.pathTokens policy cwd } := by
  unfold assessShellCommand ShellCommandCapabilities.mutates
  rw [h]
  dsimp only
  split
  · next htargets => simp [htargets]
  next htargets =>
  rw [Bool.eq_false_iff.mpr htargets, Bool.or_false]
  split
  · rfl
  split
  · rfl
  split
  · rfl
  split
  · rfl
  split
  · rfl
  cases policy with
  | none => rfl
  | some policy =>
    dsimp only
    split
    · rfl
    · rfl

theorem ite_protectedTarget {p : Prop} [Decidable p] {a b : ShellCommandCapabilities}
    (ha : a.protectedTarget = false) (hb : b.protectedTarget = false) :
    (if p then a else b).protectedTarget = false := by
  split
  · exact ha
  · exact hb

theorem classifyGitCommand_protectedTarget (args : List (List Char)) :
    (classifyGitCommand args).protectedTarget = false := by
  unfold classifyGitCommand
  split
  · rfl
  · rfl
  · repeat' apply ite_protectedTarget
    all_goals rfl

theorem classifyNpmCommand_protectedTarget (args : List (List Char)) :
    (classifyNpmCommand args).protectedTarget = false := by
  unfold classifyNpmCommand
  split
  · rfl
  · rfl
  · repeat' apply ite_protectedTarget
    all_goals rfl

/-- No simple command has a protected target by itself. -/
theorem classifySimpleCommand_protectedTarget (command : ShellSimpleCommand) :
    (classifySimpleCommand command).protectedTarget = false := by
  unfold classifySimpleCommand
  repeat' apply ite_protectedTarget
  all_goals
    first
    | rfl
    | exact classifyGitCommand_protectedTarget _
    | exact classifyNpmCommand_protectedTarget _

theorem analyzeLoop_protectedTarget {words : List (List Char)} {analysis : ShellCommandAnalysis}
    (tokens : List ShellToken) (h : analysis.capabilities.protectedTarget = false) :
    (analyzeLoop words analysis tokens).capabilities.protectedTarget = false := by
  have hflush : ∀ (words : List (List Char)) (analysis : ShellCommandAnalysis),
      analysis.capabilities.protectedTarget = false →
      (flushCommand words analysis).capabilities.protectedTarget = false := by
    intro words analysis h
    unfold flushCommand
    split
    · exact h
    · simp [mergeCapabilities, h, classifySimpleCommand_protectedTarget]
  have hredirect : ∀ (operator : ShellOperator) (target : Option (List Char))
      (analysis : ShellCommandAnalysis), analysis.capabilities.protectedTarget = false →
      (takeRedirection operator target analysis).capabilities.protectedTarget = false := by
    intro operator target analysis h
    unfold takeRedirection
    dsimp only
    split
    · exact h
    · exact h
  fun_induction analyzeLoop words analysis tokens with
  | case1 words analysis => exact hflush words analysis h
  | case2 _ _ _ _ ih => exact ih h
  | case3 words analysis _ _ _ ih => exact ih (hflush words analysis h)
  | case4 _ analysis operator _ target _ ih =>
    exact ih (hredirect operator (some target) analysis h)
  | case5 _ analysis operator _ _ _ ih => exact ih (hredirect operator none analysis h)

theorem analyze_protectedTarget {command : List Char} {analysis : ShellCommandAnalysis}
    (h : analyzeShellCommand command = .ok analysis) :
    analysis.capabilities.protectedTarget = false := by
  unfold analyzeShellCommand at h
  obtain ⟨tokens, -, rfl⟩ := map_ok_iff.mp h
  exact analyzeLoop_protectedTarget tokens rfl

theorem targetsProtectedRoot_append {inside : InsideRoots} {policy : Option ExecutionPolicy}
    {cwd : Option String} (pathTokens pathTokens' : List (List Char)) :
    targetsProtectedRoot inside (pathTokens ++ pathTokens') policy cwd =
      (targetsProtectedRoot inside pathTokens policy cwd ||
        targetsProtectedRoot inside pathTokens' policy cwd) := by
  unfold targetsProtectedRoot
  cases policy with
  | none => rfl
  | some policy =>
    dsimp only
    split
    · rfl
    · rw [List.any_append]
      grind

/-- **The assessment of two commands that are joined**: its capabilities are theirs merged, with a
protected target where one of the commands changes files and either of them or the directory has
one, and its status is as restrictive as theirs. -/
theorem assess_joined (inside : InsideRoots) (policy : Option ExecutionPolicy)
    (cwd : Option String) (connector : Connector) (first second : List Char)
    (analysis analysis' : ShellCommandAnalysis) (hjoins : Joins first second)
    (hfirst : analyzeShellCommand first = .ok analysis)
    (hsecond : analyzeShellCommand second = .ok analysis') :
    let assessment := assessShellCommand inside first policy cwd
    let assessment' := assessShellCommand inside second policy cwd
    let whole := assessShellCommand inside (joined connector first second) policy cwd
    let merged := mergeCapabilities assessment.capabilities assessment'.capabilities
    whole.capabilities =
      { merged with
        protectedTarget := merged.mutates &&
          (targetsProtectedRoot inside analysis.pathTokens policy cwd ||
            targetsProtectedRoot inside analysis'.pathTokens policy cwd) } ∧
    (merged.protectedTarget = true → whole.capabilities.protectedTarget = true) ∧
    assessment.status.rank ≤ whole.status.rank ∧ assessment'.status.rank ≤ whole.status.rank := by
  have hwhole := analyze_joined connector hjoins hfirst hsecond
  have hnone := analyze_protectedTarget hfirst
  have hnone' := analyze_protectedTarget hsecond
  dsimp only
  rw [status_eq hfirst, status_eq hsecond, status_eq hwhole, capabilities_eq hfirst,
    capabilities_eq hsecond, capabilities_eq hwhole]
  dsimp only [ShellCommandAnalysis.append]
  rw [targetsProtectedRoot_append]
  refine ⟨?_, ?_, ?_, ?_⟩
  · simp [mergeCapabilities, ShellCommandCapabilities.mutates, hnone, hnone']
  · simp only [mergeCapabilities, ShellCommandCapabilities.mutates, hnone, hnone']
    grind
  · exact verdict_mono (within_merge _ _) policy fun htargets => by simp [htargets]
  · rw [mergeCapabilities_comm]
    exact verdict_mono (within_merge _ _) policy fun htargets => by simp [htargets]

/-! ## Sample commands -/

/-- The paths below roots, without links and dots. -/
def belowRoots : InsideRoots := fun roots cwd token =>
  let path := token.elim cwd.toList fun token =>
    if token.head? = some '/' then token else cwd.toList ++ '/' :: token
  roots.any fun root => path = root.toList || (root.toList ++ ['/']).isPrefixOf path

def samplePolicy (protectedPaths : List String) : ExecutionPolicy where
  sandboxMode := .workspace_write
  approvalPolicy := .on_request
  networkAccess := true
  workspaceRoot := "/work"
  protectedPaths

theorem assess_joined_sample :
    (assessShellCommand belowRoots "rm a ".toList (samplePolicy []) none).status.rank ≤
      (assessShellCommand belowRoots (joined .and "rm a ".toList " ls".toList) (samplePolicy [])
        none).status.rank :=
  (assess_joined belowRoots (samplePolicy []) none .and "rm a ".toList " ls".toList
    ⟨[⟨['r', 'm'], [['a']]⟩], [['a']], destructiveCapabilities, []⟩
    ⟨[⟨['l', 's'], []⟩], [], readOnlyCapabilities, []⟩
    ⟨List.all_eq_true.mp (by decide +kernel), fun _ => List.all_eq_true.mp (by decide +kernel),
      by decide +kernel⟩
    (by decide +kernel) (by decide +kernel)).2.2.1

/-- **A command that reads a protected path and one that writes elsewhere have no protected target,
and have one when they are joined. A backslash escapes the blank that joins, and a space that is
no blank becomes part of a word: so the verdict is milder.** -/
theorem protected_when_joined :
    (∀ command ∈ ["cat /repo/a", "touch b", "touch /repo\\", "rm\u00a0", "ls"],
      (analyzeShellCommand command.toList).isOk = true) ∧
    (assessShellCommand belowRoots (joined .and "cat /repo/a".toList "touch b".toList)
        (samplePolicy ["/repo"]) none).capabilities ≠
      mergeCapabilities
        (assessShellCommand belowRoots "cat /repo/a".toList (samplePolicy ["/repo"])
          none).capabilities
        (assessShellCommand belowRoots "touch b".toList (samplePolicy ["/repo"])
          none).capabilities ∧
    (assessShellCommand belowRoots (joined .and "touch /repo\\".toList "ls".toList)
        (samplePolicy ["/repo\\"]) none).status.rank <
      (assessShellCommand belowRoots "touch /repo\\".toList (samplePolicy ["/repo\\"])
        none).status.rank ∧
    (assessShellCommand belowRoots (joined .and "rm\u00a0".toList "ls".toList)
        (samplePolicy []) none).status.rank <
      (assessShellCommand belowRoots "rm\u00a0".toList (samplePolicy []) none).status.rank := by
  refine ⟨?_, ?_, ?_, ?_⟩
  · decide +kernel
  · decide +kernel
  · decide +kernel
  · decide +kernel

end PulSeed.CommandPolicy
