import Mathlib.Data.List.Basic

/-!
# How a shell reads a text

The rules of a POSIX shell for quoting, for the recognition of tokens and for lists of simple
commands, in three stages: `marks` says of each character how it is quoted, `split` gathers the
marks to tokens, and `parse` reads the tokens as a list of simple commands with redirections.

`$`, `~` and the characters of patterns stand for themselves, so a text is read as the shell
reads it when it has no expansions. What is not a list of simple commands is not read at all:
compound commands, here-documents and command substitutions, and whatever the grammar refuses.
-/

namespace PulSeed.PosixShell

/-! ## Quoting -/

/-- A character with its quoting, or a trace of the quoting itself. -/
inductive Mark where
  | bare (c : Char)
  /-- A character after a backslash. -/
  | escaped (c : Char)
  /-- A character in single quotes. -/
  | single (c : Char)
  /-- A character in double quotes. -/
  | double (c : Char)
  /-- A character after a backslash that the double quotes give its meaning. -/
  | doubleEscaped (c : Char)
  /-- The start of a quotation. -/
  | quotes
  /-- A backslash before the end of a line. -/
  | continuation
  | comment
  /-- The text ends here: a command substitution begins. -/
  | substitution
  /-- The text ends here, in a quotation. -/
  | unclosed
  deriving DecidableEq, Repr

/-- Where the reader is. -/
inductive Mode where
  | between
  | word
  | single
  | double
  | comment
  deriving DecidableEq, Repr

def isBlank (c : Char) : Bool := c = ' ' || c = '\t'

/-- The characters that end a word. -/
def isDelimiter (c : Char) : Bool := isBlank c || "\n&|;<>()".toList.contains c

/-- The characters that a backslash escapes in double quotes. -/
def isEscapable (c : Char) : Bool := "$`\"\\".toList.contains c

def beginsSubstitution (c : Char) (rest : List Char) : Bool :=
  c = '`' || (c = '$' && rest.head? = some '(')

/-- The marks of a text. -/
def marks : Mode → List Char → List Mark
  | .single, [] | .double, [] => [.unclosed]
  | .between, [] | .word, [] | .comment, [] => []
  | .comment, c :: rest =>
    if c = '\n' then .bare c :: marks .between rest else marks .comment rest
  | .single, c :: rest =>
    if c = '\'' then marks .word rest else .single c :: marks .single rest
  | .double, c :: rest =>
    if c = '"' then marks .word rest
    else if beginsSubstitution c rest then [.substitution]
    else if c = '\\' then
      match rest with
      | [] => [.unclosed]
      | d :: rest =>
        if d = '\n' then .continuation :: marks .double rest
        else if isEscapable d then .doubleEscaped d :: marks .double rest
        else .double c :: .double d :: marks .double rest
    else .double c :: marks .double rest
  | mode, c :: rest =>
    if c = '\'' then .quotes :: marks .single rest
    else if c = '"' then .quotes :: marks .double rest
    else if beginsSubstitution c rest then [.substitution]
    else if c = '\\' then
      match rest with
      | [] => [.bare c]
      | d :: rest =>
        if d = '\n' then .continuation :: marks mode rest
        else .escaped d :: marks .word rest
    else if c = '#' && mode = .between then .comment :: marks .comment rest
    else .bare c :: marks (if isDelimiter c then .between else .word) rest

/-- The character that a mark leaves after the removal of quotes. -/
def Mark.char : Mark → Option Char
  | .bare c | .escaped c | .single c | .double c | .doubleEscaped c => some c
  | .quotes | .continuation | .comment | .substitution | .unclosed => none

/-- A mark takes part in tokens. -/
def Mark.solid : Mark → Bool
  | .continuation | .comment => false
  | _ => true

/-! ## Tokens -/

abbrev Word := List Mark

/-- A word after the removal of quotes. -/
def text (word : Word) : List Char := word.filterMap Mark.char

inductive Operator where
  | andIf
  | orIf
  | semi
  | dsemi
  | amp
  | pipe
  | newline
  | lparen
  | rparen
  | less
  | great
  | dless
  | dgreat
  | lessAnd
  | greatAnd
  | lessGreat
  | clobber
  deriving DecidableEq, Repr

inductive Token where
  | word (word : Word)
  /-- A number that is written directly before a redirection. -/
  | ioNumber (digits : List Char)
  | operator (operator : Operator)
  | blank
  deriving DecidableEq, Repr

/-- The operator that a character is. -/
def operator? : Char → Option Operator
  | '&' => some .amp
  | '|' => some .pipe
  | ';' => some .semi
  | '\n' => some .newline
  | '(' => some .lparen
  | ')' => some .rparen
  | '<' => some .less
  | '>' => some .great
  | _ => none

/-- The operator that two characters are; what `<<-` begins is a here-document like `<<`. -/
def operatorPair? : Char → Char → Option Operator
  | '&', '&' => some .andIf
  | '|', '|' => some .orIf
  | ';', ';' => some .dsemi
  | '<', '<' => some .dless
  | '>', '>' => some .dgreat
  | '<', '&' => some .lessAnd
  | '>', '&' => some .greatAnd
  | '<', '>' => some .lessGreat
  | '>', '|' => some .clobber
  | _, _ => none

def isDigitMark : Mark → Bool
  | .bare c => c.isDigit
  | _ => false

/-- The token that ends before a blank or an operator that begins with a character. -/
def flush (word : Word) : List Token := if word = [] then [] else [.word word]

/-- The token that ends before an operator: a number is part of the redirection. -/
def lead (c : Char) (word : Word) : List Token :=
  if (c = '<' || c = '>') && word ≠ [] && word.all isDigitMark then [.ioNumber (text word)]
  else flush word

/-- The tokens of marks, after a word that has begun. -/
def split : Word → List Mark → List Token
  | current, [] => flush current
  | current, .bare c :: rest =>
    if isBlank c then flush current ++ .blank :: split [] rest
    else
      match operator? c with
      | none => split (current ++ [.bare c]) rest
      | some o =>
        match rest with
        | .bare d :: rest' =>
          match operatorPair? c d with
          | some pair => lead c current ++ .operator pair :: split [] rest'
          | none => lead c current ++ .operator o :: split [] (.bare d :: rest')
        | rest => lead c current ++ .operator o :: split [] rest
  | current, mark :: rest => split (current ++ [mark]) rest

/-! ## The grammar -/

/-- `[n]<word`, `[n]>word` and the like. -/
structure Redirection where
  descriptor : List Char
  operator : Operator
  target : List Char
  deriving DecidableEq, Repr

/-- The simple commands of a text, as words, and its redirections. -/
structure Program where
  simples : List (List Word) := []
  redirections : List Redirection := []
  deriving DecidableEq, Repr

/-- A simple command that executes something. -/
structure Command where
  executable : List Char
  arguments : List (List Char)
  deriving DecidableEq, Repr

def Operator.redirects : Operator → Bool
  | .less | .great | .dgreat | .lessAnd | .greatAnd | .lessGreat | .clobber => true
  | _ => false

/-- The operators between commands. -/
def Operator.separates : Operator → Bool
  | .andIf | .orIf | .pipe | .semi | .amp => true
  | _ => false

/-- A command must follow the operator. -/
def Operator.continues : Operator → Bool
  | .andIf | .orIf | .pipe => true
  | _ => false

/-- The descriptor of a redirection without a number. -/
def Operator.descriptor : Operator → List Char
  | .less | .lessAnd | .lessGreat => ['0']
  | _ => ['1']

def reservedWords : List String :=
  ["!", "\x7b", "\x7d", "case", "do", "done", "elif", "else", "esac", "fi", "for", "if", "in", "then",
    "until", "while"]

/-- A reserved word is not quoted. -/
def isReserved (word : Word) : Bool :=
  reservedWords.any fun reserved => word = reserved.toList.map Mark.bare

/-- `[A-Za-z_][A-Za-z0-9_]*`. -/
def isName : List Char → Bool
  | [] => false
  | c :: rest => (c = '_' || c.isAlpha) && rest.all fun d => d = '_' || d.isAlpha || d.isDigit

/-- A word begins with a name and `=`, neither of them quoted. -/
def isAssignment (word : Word) : Bool :=
  let name := word.takeWhile (· ≠ .bare '=')
  word.contains (.bare '=') && name = (text name).map .bare && isName (text name)

def Program.simple (words : List Word) (program : Program) : Program :=
  { program with simples := words :: program.simples }

def Program.redirect (redirection : Redirection) (program : Program) : Program :=
  { program with redirections := redirection :: program.redirections }

/-- The list of simple commands that tokens are, after the words of one that has begun. When
one is `required`, the last operator needs a command after it. -/
def parse : Bool → Option (List Word) → List Token → Option Program
  | required, none, [] => if required then none else some {}
  | _, some words, [] => some { simples := [words] }
  | required, current, .blank :: rest => parse required current rest
  | required, current, .word word :: rest =>
    if current = none && isReserved word then none
    else parse required (some (current.getD [] ++ [word])) rest
  | required, current, .ioNumber digits :: rest =>
    match rest with
    | .operator o :: .word target :: rest =>
      if o.redirects then
        (parse required (some (current.getD [])) rest).map (·.redirect ⟨digits, o, text target⟩)
      else none
    | _ => none
  | required, current, .operator o :: rest =>
    if o.redirects then
      match rest with
      | .word target :: rest =>
        (parse required (some (current.getD [])) rest).map
          (·.redirect ⟨o.descriptor, o, text target⟩)
      | _ => none
    else
      match current with
      | none => if o = .newline then parse required none rest else none
      | some words =>
        if o.separates || o = .newline then
          (parse o.continues none rest).map (·.simple words)
        else none

/-- The list of simple commands that a text is. -/
def read (input : List Char) : Option Program :=
  let all := marks .between input
  if .substitution ∈ all ∨ .unclosed ∈ all then none
  else parse false none ((split [] (all.filter Mark.solid)).filter (· ≠ .blank))

/-- What a simple command executes; one may only assign and redirect. -/
def command (words : List Word) : Option Command :=
  match words.dropWhile isAssignment with
  | [] => none
  | executable :: arguments => some ⟨text executable, arguments.map text⟩

def Program.commands (program : Program) : List Command := program.simples.filterMap command

/-! ## Marks of a text -/

theorem beginsSubstitution_iff {c : Char} {rest : List Char} :
    beginsSubstitution c rest = true ↔ c = '`' ∨ (c = '$' ∧ rest.head? = some '(') := by
  unfold beginsSubstitution
  rw [Bool.or_eq_true, Bool.and_eq_true, decide_eq_true_eq, decide_eq_true_eq, decide_eq_true_eq]

/-- Outside quotes and comments. -/
def Mode.Open (mode : Mode) : Prop := mode = .between ∨ mode = .word

theorem marks_open {mode : Mode} (hmode : mode.Open) (c : Char) (rest : List Char) :
    marks mode (c :: rest) =
      if c = '\'' then .quotes :: marks .single rest
      else if c = '"' then .quotes :: marks .double rest
      else if beginsSubstitution c rest then [.substitution]
      else if c = '\\' then
        match rest with
        | [] => [.bare c]
        | d :: rest =>
          if d = '\n' then .continuation :: marks mode rest
          else .escaped d :: marks .word rest
      else if c = '#' && mode = .between then .comment :: marks .comment rest
      else .bare c :: marks (if isDelimiter c then .between else .word) rest := by
  rcases hmode with rfl | rfl
  · exact marks.eq_def .between (c :: rest)
  · exact marks.eq_def .word (c :: rest)

theorem marks_single (c : Char) (rest : List Char) :
    marks .single (c :: rest) =
      if c = '\'' then marks .word rest else .single c :: marks .single rest :=
  marks.eq_def .single (c :: rest)

theorem marks_double (c : Char) (rest : List Char) :
    marks .double (c :: rest) =
      if c = '"' then marks .word rest
      else if beginsSubstitution c rest then [.substitution]
      else if c = '\\' then
        match rest with
        | [] => [.unclosed]
        | d :: rest =>
          if d = '\n' then .continuation :: marks .double rest
          else if isEscapable d then .doubleEscaped d :: marks .double rest
          else .double c :: .double d :: marks .double rest
      else .double c :: marks .double rest :=
  marks.eq_def .double (c :: rest)

theorem marks_nil {mode : Mode} (hmode : mode.Open) : marks mode [] = [] := by
  rcases hmode with rfl | rfl <;> rfl

/-- A character that is neither quoted nor does it quote. -/
theorem marks_bare {mode : Mode} (hmode : mode.Open) {c : Char} {rest : List Char}
    (hsingle : c ≠ '\'') (hdouble : c ≠ '"') (hsubstitution : ¬ beginsSubstitution c rest = true)
    (hbackslash : c ≠ '\\') (hcomment : .comment ∉ marks mode (c :: rest)) :
    ∃ next : Mode, next.Open ∧ marks mode (c :: rest) = .bare c :: marks next rest := by
  rw [marks_open hmode] at hcomment ⊢
  rw [if_neg hsingle, if_neg hdouble, if_neg hsubstitution, if_neg hbackslash]
    at hcomment ⊢
  split at hcomment
  · exact absurd List.mem_cons_self hcomment
  · next h =>
    rw [if_neg h]
    refine ⟨_, ?_, rfl⟩
    split
    · exact .inl rfl
    · exact .inr rfl

/-- A mark without quoting is that of the next character. -/
theorem marks_head {mode : Mode} (hmode : mode.Open) {c : Char} {input : List Char}
    {tail : List Mark} (h : marks mode input = .bare c :: tail) :
    ∃ rest, input = c :: rest := by
  cases input with
  | nil =>
    rw [marks_nil hmode] at h
    cases h
  | cons d rest =>
    rw [marks_open hmode] at h
    split at h
    · cases h
    split at h
    · cases h
    split at h
    · cases h
    split at h
    · split at h
      · cases h
        exact ⟨_, rfl⟩
      · split at h
        · cases h
        · cases h
    split at h
    · cases h
    · cases h
      exact ⟨_, rfl⟩

/-! ## Tokens of marks -/

theorem text_append (word rest : Word) : text (word ++ rest) = text word ++ text rest :=
  List.filterMap_append

theorem split_blank (current : Word) {c : Char} (hblank : isBlank c = true) (rest : List Mark) :
    split current (.bare c :: rest) = flush current ++ .blank :: split [] rest := by
  rw [split, if_pos hblank]

theorem split_ordinary (current : Word) {c : Char} (hblank : ¬ isBlank c = true)
    (hnone : operator? c = none) (rest : List Mark) :
    split current (.bare c :: rest) = split (current ++ [.bare c]) rest := by
  rw [split, if_neg hblank, hnone]

theorem split_mark (current : Word) {mark : Mark} (h : ∀ c, mark ≠ .bare c) (rest : List Mark) :
    split current (mark :: rest) = split (current ++ [mark]) rest := by
  cases mark with
  | bare c => exact absurd rfl (h c)
  | _ => rfl

/-- An operator is as long as can be. -/
theorem split_operator (current : Word) {c : Char} {o : Operator} (hblank : ¬ isBlank c = true)
    (ho : operator? c = some o) (rest : List Mark) :
    (∃ d tail pair, rest = .bare d :: tail ∧ operatorPair? c d = some pair ∧
        split current (.bare c :: rest) = lead c current ++ .operator pair :: split [] tail) ∨
      ((∀ d tail, rest = .bare d :: tail → operatorPair? c d = none) ∧
        split current (.bare c :: rest) = lead c current ++ .operator o :: split [] rest) := by
  rw [split, if_neg hblank, ho]
  dsimp only
  split
  · next d tail =>
    cases hpair : operatorPair? c d with
    | some pair => exact .inl ⟨d, tail, pair, rfl, hpair, rfl⟩
    | none =>
      right
      constructor
      · intro d' tail' h
        cases h
        exact hpair
      · rfl
  · next hne =>
    right
    exact ⟨fun d tail h => absurd h (hne d tail), rfl⟩

/-! ## Blanks and empty lines around a text -/

def isSpace (c : Char) : Bool := isBlank c || c = '\n'

theorem isSpace_cases {c : Char} (h : isSpace c = true) : c = ' ' ∨ c = '\t' ∨ c = '\n' := by
  simpa [isSpace, isBlank, or_assoc] using h

theorem marks_space {mode : Mode} (hmode : mode.Open) {c : Char} (hc : isSpace c = true)
    (rest : List Char) : marks mode (c :: rest) = .bare c :: marks .between rest := by
  have hnone : ¬ beginsSubstitution c rest = true := by
    rw [beginsSubstitution_iff]
    rcases isSpace_cases hc with rfl | rfl | rfl <;> simp
  rw [marks_open hmode]
  rcases isSpace_cases hc with rfl | rfl | rfl
  all_goals
    rw [if_neg (by decide), if_neg (by decide), if_neg hnone, if_neg (by decide),
      if_neg (by simp), if_pos (by decide)]

theorem marks_spaces_append {before : List Char} (hbefore : ∀ c ∈ before, isSpace c = true)
    (rest : List Char) :
    marks .between (before ++ rest) = before.map .bare ++ marks .between rest := by
  induction before with
  | nil => rfl
  | cons c before ih =>
    rw [List.cons_append, marks_space (.inl rfl) (hbefore c List.mem_cons_self),
      ih fun d hd => hbefore d (List.mem_cons_of_mem _ hd)]
    rfl

theorem marks_spaces {mode : Mode} (hmode : mode.Open) {after : List Char}
    (hafter : ∀ c ∈ after, isSpace c = true) : marks mode after = after.map .bare := by
  cases after with
  | nil => exact marks_nil hmode
  | cons c after =>
    rw [marks_space hmode (hafter c List.mem_cons_self), ← List.append_nil after,
      marks_spaces_append fun d hd => hafter d (List.mem_cons_of_mem _ hd)]
    rw [marks_nil (.inl rfl), List.append_nil, List.append_nil]
    rfl

theorem beginsSubstitution_append {after : List Char} (hafter : ∀ c ∈ after, isSpace c = true)
    (c : Char) (rest : List Char) :
    beginsSubstitution c (rest ++ after) = beginsSubstitution c rest := by
  cases rest with
  | cons d rest => rfl
  | nil =>
    have hhead : after.head? ≠ some '(' := by
      intro h
      obtain ⟨tail, rfl⟩ := List.head?_eq_some_iff.mp h
      exact absurd (hafter '(' List.mem_cons_self) (by decide)
    unfold beginsSubstitution
    rw [List.nil_append, decide_eq_false hhead]
    rfl

theorem not_beginsSubstitution_backslash (rest : List Char) :
    ¬ beginsSubstitution '\\' rest = true := by
  rw [beginsSubstitution_iff]
  simp

theorem Mode.Open.of_ne {mode : Mode} (hcomment : mode ≠ .comment) (hsingle : mode ≠ .single)
    (hdouble : mode ≠ .double) : mode.Open := by
  cases mode with
  | between => exact .inl rfl
  | word => exact .inr rfl
  | single => exact absurd rfl hsingle
  | double => exact absurd rfl hdouble
  | comment => exact absurd rfl hcomment

/-- What follows such a mark is read in its light. -/
def Mark.reaches : Mark → Bool
  | .bare c => c = '\\'
  | .unclosed | .substitution | .comment => true
  | _ => false

theorem marks_append_spaces (mode : Mode) (input after : List Char)
    (hafter : ∀ c ∈ after, isSpace c = true) (hmode : mode ≠ .comment)
    (hends : ∀ mark ∈ marks mode input, mark.reaches = false) :
    marks mode (input ++ after) = marks mode input ++ after.map .bare := by
  fun_induction marks mode input with
  | case1 => exact absurd (hends _ List.mem_cons_self) (by decide)
  | case2 => exact absurd (hends _ List.mem_cons_self) (by decide)
  | case3 => exact marks_spaces (.inl rfl) hafter
  | case4 => exact marks_spaces (.inr rfl) hafter
  | case5 => exact absurd rfl hmode
  | case6 => exact absurd rfl hmode
  | case7 => exact absurd rfl hmode
  | case8 rest ih => exact ih (by decide) hends
  | case9 c rest hquote ih =>
    rw [List.cons_append, marks_single, if_neg hquote,
      ih hmode fun mark hmark => hends mark (List.mem_cons_of_mem _ hmark)]
    rfl
  | case10 rest ih =>
    rw [List.cons_append, marks_double, if_pos rfl, ih (by decide) hends]
  | case11 => exact absurd (hends _ List.mem_cons_self) (by decide)
  | case12 => exact absurd (hends _ List.mem_cons_self) (by decide)
  | case13 rest hquote hnone ih =>
    rw [List.cons_append, List.cons_append, marks_double, if_neg hquote,
      if_neg (not_beginsSubstitution_backslash _), if_pos rfl]
    dsimp only
    rw [if_pos rfl, ih hmode fun mark hmark => hends mark (List.mem_cons_of_mem _ hmark)]
    rfl
  | case14 d rest hline hescapable hquote hnone ih =>
    rw [List.cons_append, List.cons_append, marks_double, if_neg hquote,
      if_neg (not_beginsSubstitution_backslash _), if_pos rfl]
    dsimp only
    rw [if_neg hline, if_pos hescapable,
      ih hmode fun mark hmark => hends mark (List.mem_cons_of_mem _ hmark)]
    rfl
  | case15 d rest hline hescapable hquote hnone ih =>
    rw [List.cons_append, List.cons_append, marks_double, if_neg hquote,
      if_neg (not_beginsSubstitution_backslash _), if_pos rfl]
    dsimp only
    rw [if_neg hline, if_neg hescapable, ih hmode fun mark hmark =>
      hends mark (List.mem_cons_of_mem _ (List.mem_cons_of_mem _ hmark))]
    rfl
  | case16 c rest hquote hnone hbackslash ih =>
    rw [List.cons_append, marks_double, if_neg hquote,
      if_neg (by rw [beginsSubstitution_append hafter]; exact hnone), if_neg hbackslash,
      ih hmode fun mark hmark => hends mark (List.mem_cons_of_mem _ hmark)]
    rfl
  | case17 mode rest hcomment hsingle hdouble ih =>
    rw [List.cons_append, marks_open (.of_ne hcomment hsingle hdouble), if_pos rfl,
      ih (by decide) fun mark hmark => hends mark (List.mem_cons_of_mem _ hmark)]
    rfl
  | case18 mode rest hcomment hsingle hdouble hquote ih =>
    rw [List.cons_append, marks_open (.of_ne hcomment hsingle hdouble), if_neg hquote,
      if_pos rfl, ih (by decide) fun mark hmark => hends mark (List.mem_cons_of_mem _ hmark)]
    rfl
  | case19 => exact absurd (hends _ List.mem_cons_self) (by decide)
  | case20 => exact absurd (hends _ List.mem_cons_self) (by decide)
  | case21 mode hcomment hsingle hdouble rest hquote hquotes hnone ih =>
    rw [List.cons_append, List.cons_append, marks_open (.of_ne hcomment hsingle hdouble),
      if_neg hquote, if_neg hquotes, if_neg (not_beginsSubstitution_backslash _), if_pos rfl]
    dsimp only
    rw [if_pos rfl, ih hmode fun mark hmark => hends mark (List.mem_cons_of_mem _ hmark)]
    rfl
  | case22 mode hcomment hsingle hdouble d rest hline hquote hquotes hnone ih =>
    rw [List.cons_append, List.cons_append, marks_open (.of_ne hcomment hsingle hdouble),
      if_neg hquote, if_neg hquotes, if_neg (not_beginsSubstitution_backslash _), if_pos rfl]
    dsimp only
    rw [if_neg hline, ih (by decide) fun mark hmark => hends mark (List.mem_cons_of_mem _ hmark)]
    rfl
  | case23 => exact absurd (hends _ List.mem_cons_self) (by decide)
  | case24 mode c rest hcomment hsingle hdouble hquote hquotes hnone hbackslash hhash ih =>
    rw [List.cons_append, marks_open (.of_ne hcomment hsingle hdouble), if_neg hquote,
      if_neg hquotes, if_neg (by rw [beginsSubstitution_append hafter]; exact hnone),
      if_neg hbackslash, if_neg hhash,
      ih (by split <;> decide) fun mark hmark => hends mark (List.mem_cons_of_mem _ hmark)]
    rfl


/-- The token of a blank or of the end of a line. -/
def spaceToken (c : Char) : Token := if isBlank c then .blank else .operator .newline

theorem split_space (current : Word) {c : Char} (hc : isSpace c = true) (rest : List Mark) :
    split current (.bare c :: rest) = flush current ++ spaceToken c :: split [] rest := by
  rcases isSpace_cases hc with rfl | rfl | rfl
  · exact split_blank current rfl rest
  · exact split_blank current rfl rest
  · rcases split_operator (c := '\n') current (by decide) rfl rest with ⟨d, _, _, -, hpair, -⟩ | ⟨-, heq⟩
    · cases hpair
    · exact heq

theorem split_spaces_append {before : List Char} (hbefore : ∀ c ∈ before, isSpace c = true)
    (rest : List Mark) :
    split [] (before.map .bare ++ rest) = before.map spaceToken ++ split [] rest := by
  induction before with
  | nil => rfl
  | cons c before ih =>
    rw [List.map_cons, List.cons_append, split_space [] (hbefore c List.mem_cons_self),
      ih fun d hd => hbefore d (List.mem_cons_of_mem _ hd)]
    rfl

theorem operatorPair_space (c : Char) {d : Char} (hd : isSpace d = true) :
    operatorPair? c d = none := by
  unfold operatorPair?
  split
  all_goals first
    | exact absurd hd (by decide)
    | rfl

theorem split_spaces {after : List Char} (hafter : ∀ c ∈ after, isSpace c = true)
    (current : Word) :
    split current (after.map .bare) = flush current ++ after.map spaceToken := by
  cases after with
  | nil => exact (List.append_nil _).symm
  | cons c after =>
    have hrest := split_spaces_append (fun d hd => hafter d (List.mem_cons_of_mem _ hd)) []
    rw [List.append_nil] at hrest
    rw [List.map_cons, split_space current (hafter c List.mem_cons_self), hrest]
    exact congrArg (flush current ++ spaceToken c :: ·) (List.append_nil _)

theorem split_append_spaces (current : Word) (input : List Mark) {after : List Char}
    (hafter : ∀ c ∈ after, isSpace c = true) :
    split current (input ++ after.map .bare) = split current input ++ after.map spaceToken := by
  fun_induction split current input with
  | case1 current => exact split_spaces hafter current
  | case2 current c rest hblank ih =>
    rw [List.cons_append, split_blank current hblank, ih, List.append_assoc]
    rfl
  | case3 current c rest hblank hnone ih =>
    rw [List.cons_append, split_ordinary current hblank hnone, ih]
  | case4 current c hblank o ho d rest pair hpair ih =>
    rw [List.cons_append, List.cons_append, split, if_neg hblank, ho]
    dsimp only
    rw [hpair, List.append_assoc, ih]
    rfl
  | case5 current c hblank o ho d rest hnone ih =>
    rw [List.cons_append, List.cons_append, split, if_neg hblank, ho]
    dsimp only
    rw [List.cons_append] at ih
    rw [hnone, List.append_assoc, ih]
    rfl
  | case6 current c hblank o ho rest hrest ih =>
    have hnone : ∀ d tail, rest ++ after.map .bare = .bare d :: tail → operatorPair? c d = none := by
      intro d tail heq
      cases rest with
      | nil =>
        obtain ⟨e, after', rfl, he, -⟩ := List.map_eq_cons_iff.mp heq
        cases he
        exact operatorPair_space c (hafter d List.mem_cons_self)
      | cons mark rest =>
        cases heq
        exact absurd rfl (hrest d rest)
    rcases split_operator current hblank ho (rest ++ after.map .bare) with
      ⟨d, tail, pair, heq, hpair, -⟩ | ⟨-, hsplit⟩
    · rw [hnone d tail heq] at hpair
      cases hpair
    · rw [List.cons_append, hsplit, ih, List.append_assoc]
      rfl
  | case7 current mark rest hmark ih =>
    rw [List.cons_append, split_mark current hmark, ih]

theorem parse_operator (required : Bool) (current : Option (List Word)) (o : Operator)
    (rest : List Token) :
    parse required current (.operator o :: rest) =
      if o.redirects then
        match rest with
        | .word target :: rest =>
          (parse required (some (current.getD [])) rest).map
            (·.redirect ⟨o.descriptor, o, text target⟩)
        | _ => none
      else
        match current with
        | none => if o = .newline then parse required none rest else none
        | some words =>
          if o.separates || o = .newline then
            (parse o.continues none rest).map (·.simple words)
          else none := by
  cases current with
  | none => exact parse.eq_def required none (.operator o :: rest)
  | some words => exact parse.eq_def required (some words) (.operator o :: rest)

theorem parse_ioNumber (required : Bool) (current : Option (List Word)) (digits : List Char)
    (rest : List Token) :
    parse required current (.ioNumber digits :: rest) =
      match rest with
      | .operator o :: .word target :: rest =>
        if o.redirects then
          (parse required (some (current.getD [])) rest).map
            (·.redirect ⟨digits, o, text target⟩)
        else none
      | _ => none := by
  cases current with
  | none => exact parse.eq_def required none (.ioNumber digits :: rest)
  | some words => exact parse.eq_def required (some words) (.ioNumber digits :: rest)

/-- The end of a line after a text changes nothing. -/
theorem parse_append_newline (required : Bool) (current : Option (List Word))
    (tokens : List Token) :
    parse required current (tokens ++ [.operator .newline]) = parse required current tokens := by
  fun_induction parse required current tokens with
  | case1 => rfl
  | case2 required hrequired =>
    rw [Bool.not_eq_true] at hrequired
    rw [hrequired]
    rfl
  | case3 => rfl
  | case4 required current rest ih =>
    rw [List.cons_append, parse, ih]
  | case5 required current word rest hreserved =>
    rw [List.cons_append, parse, if_pos hreserved]
  | case6 required current word rest hreserved ih =>
    rw [List.cons_append, parse, if_neg hreserved, ih]
  | case7 required current digits o target rest hredirects ih =>
    rw [List.cons_append, List.cons_append, List.cons_append, parse, if_pos hredirects, ih]
  | case8 required current digits o target rest hredirects =>
    rw [List.cons_append, List.cons_append, List.cons_append, parse, if_neg hredirects]
  | case9 required current digits rest hrest =>
    rw [List.cons_append, parse_ioNumber]
    split
    · next o target tail heq =>
      -- the line ends after the two tokens at the earliest
      match rest, heq with
      | [_], heq => cases heq
      | _ :: _ :: rest, heq =>
        cases heq
        exact absurd rfl (hrest o target rest)
    · rfl
  | case10 required current o hredirects target rest ih =>
    rw [List.cons_append, List.cons_append, parse_operator, if_pos hredirects]
    dsimp only
    rw [ih]
  | case11 required current o rest hredirects hrest =>
    rw [List.cons_append, parse_operator, if_pos hredirects]
    split
    · next target tail heq =>
      cases rest with
      | nil => cases heq
      | cons token rest =>
        cases heq
        exact absurd rfl (hrest target rest)
    · rfl
  | case12 required rest hredirects ih =>
    rw [List.cons_append, parse_operator, if_neg hredirects]
    dsimp only
    rw [if_pos rfl, ih]
  | case13 required o rest hredirects hline =>
    rw [List.cons_append, parse_operator, if_neg hredirects]
    dsimp only
    rw [if_neg hline]
  | case14 required o rest hredirects words hseparates ih =>
    rw [List.cons_append, parse_operator, if_neg hredirects]
    dsimp only
    rw [if_pos hseparates, ih]
  | case15 required o rest hredirects words hseparates =>
    rw [List.cons_append, parse_operator, if_neg hredirects]
    dsimp only
    rw [if_neg hseparates]

/-- The tokens of blanks and empty lines, without the blanks. -/
theorem filter_spaces (spaces : List Char) :
    ∃ n, (spaces.map spaceToken).filter (· ≠ .blank) = List.replicate n (.operator .newline) := by
  induction spaces with
  | nil => exact ⟨0, rfl⟩
  | cons c spaces ih =>
    obtain ⟨n, ih⟩ := ih
    rw [List.map_cons]
    unfold spaceToken
    split
    · exact ⟨n, ih⟩
    · exact ⟨n + 1, congrArg (Token.operator .newline :: ·) ih⟩

theorem parse_newlines_append (required : Bool) (n : ℕ) (tokens : List Token) :
    parse required none (List.replicate n (.operator .newline) ++ tokens) =
      parse required none tokens := by
  induction n with
  | zero => rfl
  | succ n ih =>
    rw [List.replicate_succ, List.cons_append, parse_operator, if_neg (by decide)]
    exact ih

theorem parse_append_newlines (required : Bool) (current : Option (List Word))
    (tokens : List Token) (n : ℕ) :
    parse required current (tokens ++ List.replicate n (.operator .newline)) =
      parse required current tokens := by
  induction n with
  | zero => rw [List.replicate_zero, List.append_nil]
  | succ n ih =>
    rw [List.replicate_succ', ← List.append_assoc, parse_append_newline, ih]

/-- **Blanks and empty lines around a text do not matter**, where nothing in it reaches beyond
its end. -/
theorem read_spaces {before input after : List Char} (hbefore : ∀ c ∈ before, isSpace c = true)
    (hafter : ∀ c ∈ after, isSpace c = true)
    (hends : after ≠ [] → ∀ mark ∈ marks .between input, mark.reaches = false) :
    read (before ++ input ++ after) = read input := by
  have hmarks : marks .between (before ++ input ++ after) =
      before.map .bare ++ marks .between input ++ after.map .bare := by
    rw [List.append_assoc, marks_spaces_append hbefore, List.append_assoc]
    by_cases hnil : after = []
    · rw [hnil, List.map_nil, List.append_nil, List.append_nil]
    · rw [marks_append_spaces .between input after hafter (by decide) (hends hnil)]
  have hspaces : ∀ (spaces : List Char) (mark : Mark), (∀ c, mark ≠ .bare c) →
      mark ∉ spaces.map .bare := by
    intro spaces mark hmark hmem
    obtain ⟨c, -, rfl⟩ := List.mem_map.mp hmem
    exact hmark c rfl
  have hmem : ∀ mark : Mark, (∀ c, mark ≠ .bare c) →
      (mark ∈ before.map .bare ++ marks .between input ++ after.map .bare ↔
        mark ∈ marks .between input) := by
    intro mark hmark
    rw [List.mem_append, List.mem_append, or_iff_left (hspaces after mark hmark),
      or_iff_right (hspaces before mark hmark)]
  have hsolid : ∀ spaces : List Char,
      (spaces.map Mark.bare).filter Mark.solid = spaces.map .bare := by
    intro spaces
    refine List.filter_eq_self.mpr fun mark hmark => ?_
    obtain ⟨c, -, rfl⟩ := List.mem_map.mp hmark
    rfl
  unfold read
  dsimp only
  rw [hmarks, if_congr (or_congr (hmem .substitution (by rintro c ⟨⟩))
    (hmem .unclosed (by rintro c ⟨⟩))) rfl rfl]
  split
  · rfl
  · obtain ⟨m, hm⟩ := filter_spaces before
    obtain ⟨n, hn⟩ := filter_spaces after
    rw [List.filter_append, List.filter_append, hsolid, hsolid, split_append_spaces _ _ hafter,
      split_spaces_append hbefore, List.filter_append, List.filter_append, hm, hn,
      parse_append_newlines, parse_newlines_append]

example : (read "A=1 ls -l 'a b'\"c\" 2>e | wc& ls".toList).map Program.commands =
    some [⟨"ls".toList, ["-l".toList, "a bc".toList]⟩, ⟨"wc".toList, []⟩, ⟨"ls".toList, []⟩] := by
  decide +kernel

end PulSeed.PosixShell
