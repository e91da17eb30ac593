import PulSeed.Lib.JsonText
import PulSeed.Lib.Occurrences
import Mathlib.Data.List.DropRight

/-!
# The JSON in an answer

`extractJSON` takes the JSON out of what a model answers: the whole answer if it is JSON, or what
a code fence holds, or what goes from the first bracket to the one that closes it.

- `scan_run`: the search for the closing bracket follows the automaton of `JsonText`, and stops
  where its stack becomes empty, whatever the strings hold.
- `extractJSON_prose`, `extractJSON_fenced`: the object or array comes back, out of prose and out
  of a code fence, if it holds no fence itself.
- `extracts_iff`: and only if.
-/

namespace PulSeed

namespace ExtractJson

open Text JsonText

/-! ## The extraction -/

def fence : Text := utf16 "```"

def jsonFence : Text := utf16 "```json"

/-- `[a-zA-Z0-9_-]`, of which the name of a language is made. -/
def isLanguageUnit (u : UInt16) : Bool :=
  isDigit u || (65 ≤ u && u ≤ 90) || (97 ≤ u && u ≤ 122) || u = 95 || u = 45

/-- White space, a block that goes on to the next fence, and the fence: the block, trimmed. -/
def block (text : Text) : Option Text :=
  (splitFirst fence (text.dropWhile isWhiteSpace)).map fun parts => trim parts.1

def jsonBlock (trimmed : Text) : Option Text :=
  (splitFirst jsonFence trimmed).bind fun parts => block parts.2

def genericBlock (trimmed : Text) : Option Text :=
  (splitFirst fence trimmed).bind fun parts => block (parts.2.dropWhile isLanguageUnit)

/-- Where the first bracket is, and what it opens. -/
def opening (trimmed : Text) : Option (ℕ × Container) :=
  match trimmed.idxOf? 123, trimmed.idxOf? 91 with
  | none, none => none
  | none, some firstBracket => some (firstBracket, .array)
  | some firstBrace, none => some (firstBrace, .object)
  | some firstBrace, some firstBracket =>
    if firstBracket < firstBrace then some (firstBracket, .array) else some (firstBrace, .object)

/-- The index of the unit that brings the depth back to zero, where the text begins at `i`. -/
def scan (openChar closeChar : UInt16) (i : ℕ) (depth : ℤ) (inString escape : Bool) :
    Text → Option ℕ
  | [] => none
  | ch :: rest =>
    if escape then scan openChar closeChar (i + 1) depth inString false rest
    else if ch = 92 && inString then scan openChar closeChar (i + 1) depth inString true rest
    else if ch = 34 then scan openChar closeChar (i + 1) depth (!inString) false rest
    else if inString then scan openChar closeChar (i + 1) depth inString false rest
    else if ch = openChar then scan openChar closeChar (i + 1) (depth + 1) inString false rest
    else if ch = closeChar then
      if depth - 1 = 0 then some i
      else scan openChar closeChar (i + 1) (depth - 1) inString false rest
    else scan openChar closeChar (i + 1) depth inString false rest

/-- From the first bracket to the one that closes it. -/
def braces (trimmed : Text) : Text :=
  match opening trimmed with
  | none => trimmed
  | some (start, container) =>
    match scan container.openUnit container.closeUnit start 0 false false (trimmed.drop start) with
    | none => trimmed
    | some i => (trimmed.take (i + 1)).drop start

def extractJSON (text : Text) : Text :=
  let trimmed := trim text
  if isJson trimmed then trimmed
  else
    match jsonBlock trimmed with
    | some block => block
    | none =>
      match genericBlock trimmed with
      | some block => block
      | none => braces trimmed

/-! ## The search for the closing bracket -/

/-- How often the stack has the container. -/
def depth (container : Container) (s : Reading) : ℤ := s.stack.count container

section

variable {container other : Container} {i : ℕ} {d : ℤ} {rest : Text} {u : UInt16}

theorem scan_plain (hu : Plain u) :
    scan container.openUnit container.closeUnit i d false false (u :: rest) =
      scan container.openUnit container.closeUnit (i + 1) d false false rest := by
  have hne : ∀ v ∈ marks, u ≠ v := fun v hv heq => hu (heq ▸ hv)
  have hopen : u ≠ container.openUnit := hne _ (by cases container <;> decide)
  have hclose : u ≠ container.closeUnit := hne _ (by cases container <;> decide)
  rw [scan, if_neg nofun, if_neg (by simp), if_neg (hne 34 (by decide)), if_neg nofun,
    if_neg hopen, if_neg hclose]

theorem scan_open :
    scan container.openUnit container.closeUnit i d false false (other.openUnit :: rest) =
      scan container.openUnit container.closeUnit (i + 1)
        (if other = container then d + 1 else d) false false rest := by
  cases container <;> cases other <;> rfl

theorem scan_close :
    scan container.openUnit container.closeUnit i d false false (other.closeUnit :: rest) =
      if other = container then
        if d - 1 = 0 then some i
        else scan container.openUnit container.closeUnit (i + 1) (d - 1) false false rest
      else scan container.openUnit container.closeUnit (i + 1) d false false rest := by
  cases container <;> cases other <;> rfl

end

theorem inString_of_escaped {mode : Mode} (h : mode.escaped = true) : mode.inString = true := by
  cases mode <;> first | rfl | cases h

/-- The search with the automaton in the state `s`, at a text that goes on from index `i`. -/
def scanFrom (container : Container) (i : ℕ) (s : Reading) (text : Text) : Option ℕ :=
  scan container.openUnit container.closeUnit i (depth container s) s.mode.inString
    s.mode.escaped text

/-- A bracket that closes a container of the stack: the last one, and the search ends, or
one above it. -/
theorem scan_closed {container other : Container} {s : Reading} {below : List Container}
    (hopen : s.stack.getLast? = some container) (hin : s.mode.inString = false)
    (hstack : s.stack = other :: below) :
    (below = [] ∧ other = container ∧
      ∀ i rest, scanFrom container i s (other.closeUnit :: rest) = some i) ∨
    (below.getLast? = some container ∧ ∀ i rest,
      scanFrom container i s (other.closeUnit :: rest) =
        scanFrom container (i + 1) ⟨.after, below⟩ rest) := by
  unfold scanFrom depth
  have hescaped := Mode.escaped_of_inString hin
  rw [hstack] at hopen ⊢
  cases below with
  | nil =>
    obtain rfl : other = container := by simpa using hopen
    refine .inl ⟨rfl, rfl, fun i rest => ?_⟩
    rw [hin, hescaped, scan_close, if_pos rfl, if_pos (by simp)]
  | cons first below =>
    have hlast : (first :: below).getLast? = some container := by
      rwa [List.getLast?_cons_cons] at hopen
    -- the last container is still below, so the count does not reach zero
    have hpos : 0 < (first :: below).count container :=
      List.count_pos_iff.mpr (List.mem_of_getLast? hlast)
    refine .inr ⟨hlast, fun i rest => ?_⟩
    rw [hin, hescaped, scan_close, List.count_cons]
    by_cases heq : other = container
    · have hne : ¬ (((first :: below).count container : ℤ) + 1 - 1 = 0) := by omega
      subst heq
      simp only [beq_self_eq_true, if_true, Nat.cast_add, Nat.cast_one]
      rw [if_neg hne, add_sub_cancel_right]
      rfl
    · simp only [heq, beq_iff_eq, if_false, Nat.add_zero]
      rfl

/-- A unit is read while the container is open: it is closed, and the search ends, or it is open
still, and the search goes on. -/
theorem scan_step {container : Container} {s s' : Reading} {u : UInt16}
    (hopen : s.stack.getLast? = some container) (h : step s u = some s') :
    (s' = ⟨.after, []⟩ ∧ u = container.closeUnit ∧
      ∀ i rest, scanFrom container i s (u :: rest) = some i) ∨
    (s'.stack.getLast? = some container ∧
      ∀ i rest, scanFrom container i s (u :: rest) = scanFrom container (i + 1) s' rest) := by
  -- the depth is the count of the container in the stack, which only brackets change
  unfold scanFrom depth
  cases step_cases h with
  | quote hu hescaped hin' hescaped' hstack =>
    subst hu
    refine .inr ⟨hstack ▸ hopen, fun i rest => ?_⟩
    rw [scan, hescaped, hin', hescaped', hstack]
    rfl
  | backslash hu hin hescaped hin' hescaped' hstack =>
    subst hu
    refine .inr ⟨hstack ▸ hopen, fun i rest => ?_⟩
    rw [scan, hescaped, hin, hin', hescaped', hstack]
    rfl
  | escaped hescaped hin' hescaped' hstack =>
    refine .inr ⟨hstack ▸ hopen, fun i rest => ?_⟩
    rw [scan, hescaped, inString_of_escaped hescaped, hin', hescaped', hstack]
    rfl
  | inside hquote hbackslash hin hescaped hin' hescaped' hstack =>
    refine .inr ⟨hstack ▸ hopen, fun i rest => ?_⟩
    rw [scan, hescaped, hin, hin', hescaped', hstack, if_neg nofun, if_neg (by simp [hbackslash]),
      if_neg hquote, if_pos rfl]
  | opened other hu hin hin' hstack =>
    subst hu
    have hescaped := Mode.escaped_of_inString hin
    have hescaped' := Mode.escaped_of_inString hin'
    refine .inr ⟨?_, fun i rest => ?_⟩
    · rw [hstack, List.getLast?_cons, hopen]
      rfl
    · rw [hin, hescaped, scan_open, hin', hescaped', hstack, List.count_cons]
      congr 1
      by_cases heq : other = container
      · simp [heq]
      · simp [heq]
  | closed other hu hin hafter hstack =>
    subst hu
    obtain ⟨mode', stack'⟩ := s'
    subst hafter
    rcases scan_closed hopen hin hstack with ⟨hnone, hsame, hscan⟩ | ⟨hlast, hscan⟩
    · exact .inl ⟨congrArg (Reading.mk .after) hnone, congrArg Container.closeUnit hsame, hscan⟩
    · exact .inr ⟨hlast, hscan⟩
  | plain hu hin hin' hstack =>
    refine .inr ⟨hstack ▸ hopen, fun i rest => ?_⟩
    rw [hin, Mode.escaped_of_inString hin, scan_plain hu, hin', Mode.escaped_of_inString hin',
      hstack]

/-- **The search ends where the stack becomes empty**; after that there is only white space. -/
theorem scan_run {container : Container} {s s' : Reading} {text : Text}
    (hopen : s.stack.getLast? = some container) (h : run s text = some s')
    (hclosed : s'.stack = []) :
    ∃ inner blanks, text = inner ++ container.closeUnit :: blanks ∧
      (∀ u ∈ blanks, isSpace u = true) ∧
      run s (inner ++ [container.closeUnit]) = some ⟨.after, []⟩ ∧
      ∀ i more, scanFrom container i s (inner ++ container.closeUnit :: more) =
        some (i + inner.length) := by
  induction text generalizing s with
  | nil =>
    cases h
    rw [hclosed] at hopen
    cases hopen
  | cons u text ih =>
    obtain ⟨next, hstep, hrest⟩ := Option.bind_eq_some_iff.mp h
    rcases scan_step hopen hstep with ⟨rfl, rfl, hscan⟩ | ⟨hopen', hscan⟩
    · refine ⟨[], text, rfl, (run_closed hrest).2, ?_, fun i more => hscan i more⟩
      rw [List.nil_append, run, hstep]
      rfl
    · obtain ⟨inner, blanks, rfl, hblanks, hrun, hinner⟩ := ih hopen' hrest
      refine ⟨u :: inner, blanks, rfl, hblanks, ?_, fun i more => ?_⟩
      · rw [List.cons_append, run, hstep]
        exact hrun
      · rw [List.cons_append, hscan, hinner, List.length_cons]
        congr 1
        omega

/-! ## Objects and arrays -/

/-- From bracket to bracket. -/
def bracketed (container : Container) (inner : Text) : Text :=
  container.openUnit :: (inner ++ [container.closeUnit])

/-- The brackets around `inner` are those of one object or array. -/
structure Encloses (container : Container) (inner : Text) : Prop where
  run : run start (bracketed container inner) = some ⟨.after, []⟩
  scan : ∀ i more, scan container.openUnit container.closeUnit i 0 false false
    (bracketed container inner ++ more) = some (i + inner.length + 1)

/-- `JSON.parse(text)` gives an object or an array. -/
def isContainer (text : Text) : Bool :=
  isJson text &&
    ((text.dropWhile isSpace).head? = some 123 || (text.dropWhile isSpace).head? = some 91)

theorem run_spaces {blanks rest : Text} (h : ∀ u ∈ blanks, isSpace u = true) :
    run start (blanks ++ rest) = run start rest := by
  induction blanks with
  | nil => rfl
  | cons u blanks ih =>
    have hstep : step start u = some start := if_pos (h u List.mem_cons_self)
    rw [List.cons_append, run, hstep]
    exact ih fun v hv => h v (List.mem_cons_of_mem _ hv)

/-- What follows an opening bracket. -/
def opened : Container → Reading
  | .array => ⟨.firstElement, [.array]⟩
  | .object => ⟨.firstKey, [.object]⟩

theorem encloses_of_run {container : Container} {inner : Text}
    (hrun : JsonText.run (opened container) (inner ++ [container.closeUnit]) = some ⟨.after, []⟩)
    (hscan : ∀ i more, scanFrom container i (opened container)
      (inner ++ container.closeUnit :: more) = some (i + inner.length)) :
    Encloses container inner where
  run := by
    rw [bracketed, JsonText.run]
    cases container <;> exact hrun
  scan i more := by
    have hinner := hscan (i + 1) more
    rw [bracketed, List.cons_append, scan_open, if_pos rfl, List.append_assoc]
    have hstate : scanFrom container (i + 1) (opened container) =
        ExtractJson.scan container.openUnit container.closeUnit (i + 1) (0 + 1) false false := by
      cases container <;> rfl
    rw [hstate] at hinner
    rw [List.singleton_append, hinner]
    congr 1
    omega

theorem bracketed_of_isContainer {text : Text} (h : isContainer text = true) :
    ∃ container inner before after, Encloses container inner ∧
      text = before ++ bracketed container inner ++ after ∧
      (∀ u ∈ before, isSpace u = true) ∧ ∀ u ∈ after, isSpace u = true := by
  obtain ⟨hjson, hhead⟩ := Bool.and_eq_true_iff.mp h
  have hsplit := List.takeWhile_append_dropWhile (p := isSpace) (l := text)
  have hblanks : ∀ u ∈ text.takeWhile isSpace, isSpace u = true := fun u => List.mem_takeWhile_imp
  have hfirst : ∃ container rest,
      text.dropWhile isSpace = Container.openUnit container :: rest := by
    rw [Bool.or_eq_true, decide_eq_true_eq, decide_eq_true_eq] at hhead
    rcases hhead with hhead | hhead
    · exact ⟨.object, _, List.eq_cons_of_mem_head? hhead⟩
    · exact ⟨.array, _, List.eq_cons_of_mem_head? hhead⟩
  obtain ⟨container, rest, hrest⟩ := hfirst
  unfold isJson at hjson
  cases hrun : run start text with
  | none =>
    rw [hrun] at hjson
    cases hjson
  | some s =>
    rw [hrun, Bool.and_eq_true] at hjson
    rw [← hsplit, run_spaces hblanks, hrest, run] at hrun
    have hbegin : run (opened container) rest = some s := by
      cases container <;> exact hrun
    have hbottom : (opened container).stack.getLast? = some container := by
      cases container <;> rfl
    obtain ⟨inner, after, rfl, hafter, hinner, hscan⟩ :=
      scan_run hbottom hbegin (List.isEmpty_iff.mp hjson.2)
    refine ⟨container, inner, _, after, encloses_of_run hinner hscan, ?_, hblanks, hafter⟩
    refine hsplit.symm.trans ?_
    rw [hrest]
    simp [bracketed]

/-! ## Trimming -/

/-- Neither the first nor the last unit is white space. -/
structure Bare (text : Text) : Prop where
  head : ∃ u rest, text = u :: rest ∧ isWhiteSpace u = false
  last : ∃ rest u, text = rest ++ [u] ∧ isWhiteSpace u = false

theorem dropWhile_append_cons {p : UInt16 → Bool} {u : UInt16} (before after : Text)
    (hu : p u = false) :
    (before ++ u :: after).dropWhile p = before.dropWhile p ++ u :: after := by
  rw [List.dropWhile_append]
  split
  · next hempty =>
    rw [List.isEmpty_iff.mp hempty, List.dropWhile_cons_of_neg (by simp [hu])]
    rfl
  · rfl

theorem trim_append {text : Text} (h : Bare text) (before after : Text) :
    trim (before ++ text ++ after) = trimStart before ++ text ++ trimEnd after := by
  obtain ⟨u, rest, hhead, hu⟩ := h.head
  obtain ⟨rest', v, hlast, hv⟩ := h.last
  have hstart : trimStart (before ++ text ++ after) = trimStart before ++ text ++ after := by
    unfold trimStart
    rw [List.append_assoc, hhead, List.cons_append, dropWhile_append_cons _ _ hu]
    simp
  have hreverse : (trimStart before ++ (rest' ++ [v]) ++ after).reverse =
      after.reverse ++ v :: (trimStart before ++ rest').reverse := by
    simp
  unfold trim
  rw [hstart, hlast]
  unfold trimEnd
  rw [hreverse, dropWhile_append_cons _ _ hv]
  simp

theorem trimEnd_of_blank {blanks : Text} (h : ∀ u ∈ blanks, isWhiteSpace u = true) :
    trimEnd blanks = [] := by
  unfold trimEnd
  rw [List.dropWhile_eq_nil_iff.mpr fun u hu => h u (List.mem_reverse.mp hu)]
  rfl

theorem trimStart_of_blank {blanks : Text} (h : ∀ u ∈ blanks, isWhiteSpace u = true) :
    trimStart blanks = [] :=
  List.dropWhile_eq_nil_iff.mpr h

theorem trim_within (text : Text) : trim text <:+: text := by
  have hend : trimEnd (trimStart text) <+: trimStart text := List.rdropWhile_prefix isWhiteSpace _
  exact hend.isInfix.trans (List.dropWhile_suffix isWhiteSpace).isInfix

theorem isWhiteSpace_of_isSpace {u : UInt16} (h : isSpace u = true) : isWhiteSpace u = true := by
  unfold isSpace at h
  simp only [Bool.or_eq_true, decide_eq_true_eq] at h
  rcases h with ((rfl | rfl) | rfl) | rfl <;> decide

theorem bare_bracketed (container : Container) (inner : Text) : Bare (bracketed container inner) where
  head := ⟨_, _, rfl, by cases container <;> decide⟩
  last := ⟨container.openUnit :: inner, container.closeUnit, rfl, by cases container <;> decide⟩

theorem dropWhile_bracketed (container : Container) (inner after : Text) :
    (bracketed container inner ++ after).dropWhile isWhiteSpace =
      bracketed container inner ++ after := by
  obtain ⟨u, rest, hhead, hu⟩ := (bare_bracketed container inner).head
  rw [hhead, List.cons_append, List.dropWhile_cons_of_neg (by simp [hu])]

/-! ## Out of prose and out of a code fence -/

/-- No bracket opens, and there are no backquotes and quotes. -/
def Prose (text : Text) : Prop := ∀ u ∈ text, u ∉ ([123, 91, 96, 34] : List UInt16)

variable {container : Container} {inner before after : Text}

theorem Prose.trimStart (h : Prose before) : Prose (trimStart before) :=
  fun u hu => h u ((List.dropWhile_suffix isWhiteSpace).subset hu)

theorem Prose.trimEnd (h : Prose after) : Prose (trimEnd after) := by
  intro u hu
  have hfront : Text.trimEnd after <+: after := List.rdropWhile_prefix isWhiteSpace _
  exact h u (hfront.subset hu)

/-- A text that is trimmed and begins with neither a bracket nor a quote is not JSON, if it has
brackets or backquotes at all. -/
theorem not_isJson {u v : UInt16} {rest : Text} (hu : isWhiteSpace u = false)
    (hmark : u ∉ ([123, 91, 34] : List UInt16)) (hv : v ∈ u :: rest) (hplain : ¬ Plain v) :
    isJson (u :: rest) = false := by
  simp only [List.mem_cons, List.not_mem_nil, or_false, not_or] at hmark
  by_contra hjson
  have hspace : isSpace u = false := by
    by_contra hspace
    rw [isWhiteSpace_of_isSpace (Bool.not_eq_false _ ▸ hspace)] at hu
    cases hu
  exact hplain (plain_of_isJson (Bool.not_eq_false _ ▸ hjson) hspace hmark.1 hmark.2.1 hmark.2.2 v hv)

theorem not_isJson_of_prose (hprose : Prose before) (hne : trimStart before ≠ []) {v : UInt16}
    {rest : Text} (hv : v ∈ rest) (hplain : ¬ Plain v) :
    isJson (trimStart before ++ rest) = false := by
  have hwhite := List.head_dropWhile_not isWhiteSpace hne
  obtain ⟨u, start, heq⟩ := List.exists_cons_of_ne_nil hne
  have hu : isWhiteSpace u = false := by
    unfold Text.trimStart at heq
    simpa only [heq, List.head_cons] using hwhite
  have hmark := hprose.trimStart u (heq ▸ List.mem_cons_self)
  rw [heq, List.cons_append]
  refine not_isJson hu ?_ (List.mem_cons_of_mem _ (List.mem_append_right _ hv)) hplain
  simp only [List.mem_cons, List.not_mem_nil, or_false, not_or] at hmark ⊢
  exact ⟨hmark.1, hmark.2.1, hmark.2.2.2⟩

theorem openUnit_not_plain (container : Container) : ¬ Plain container.openUnit := by
  cases container <;> decide

/-- If the trimmed text is JSON, then there is nothing around the object or array. -/
theorem nil_of_isJson (h : Encloses container inner) (hbefore : Prose before)
    (hjson : isJson (trimStart before ++ bracketed container inner ++ trimEnd after) = true) :
    trimStart before = [] ∧ trimEnd after = [] := by
  have hnil : trimStart before = [] := by
    by_contra hne
    have hmem : container.openUnit ∈ bracketed container inner ++ trimEnd after :=
      List.mem_append_left _ List.mem_cons_self
    rw [List.append_assoc, not_isJson_of_prose hbefore hne hmem (openUnit_not_plain container)]
      at hjson
    cases hjson
  refine ⟨hnil, ?_⟩
  rw [hnil, List.nil_append] at hjson
  unfold isJson at hjson
  rw [run_append, h.run] at hjson
  cases hrun : JsonText.run ⟨.after, []⟩ (trimEnd after) with
  | none =>
    rw [Option.bind_some, hrun] at hjson
    cases hjson
  | some s =>
    -- what is left of the text after it is white space, and none is left by `trimEnd`
    by_contra hne
    have hlast := List.rdropWhile_last_not isWhiteSpace after hne
    exact hlast (isWhiteSpace_of_isSpace ((run_closed hrun).2 _ (List.getLast_mem hne)))

theorem idxOf?_prose {u : UInt16} {start rest : Text} (h : u ∉ start) :
    (start ++ u :: rest).idxOf? u = some start.length := by
  refine List.idxOf?_eq_some_iff.mpr ⟨by simp, by simp, fun j hj heq => h ?_⟩
  rw [List.getElem_append_left hj] at heq
  exact heq ▸ List.getElem_mem hj

theorem lt_of_idxOf? {u v : UInt16} {start rest : Text} (h : v ∉ start) (hne : u ≠ v) {j : ℕ}
    (hj : (start ++ u :: rest).idxOf? v = some j) : start.length < j := by
  obtain ⟨hlt, heq, -⟩ := List.idxOf?_eq_some_iff.mp hj
  by_contra hle
  rcases Nat.lt_or_eq_of_le (Nat.le_of_not_lt hle) with hlt' | rfl
  · rw [List.getElem_append_left hlt'] at heq
    exact h (heq ▸ List.getElem_mem hlt')
  · simp only [List.getElem_append_right (Nat.le_refl _), Nat.sub_self, List.getElem_cons_zero]
      at heq
    exact hne heq

theorem opening_bracketed {start : Text} (hstart : Prose start) (rest : Text) :
    opening (start ++ container.openUnit :: rest) = some (start.length, container) := by
  have hbrace : (123 : UInt16) ∉ start := fun hmem => hstart _ hmem (by decide)
  have hbracket : (91 : UInt16) ∉ start := fun hmem => hstart _ hmem (by decide)
  unfold opening
  cases container with
  | array =>
    have hfirst : (start ++ Container.array.openUnit :: rest).idxOf? 91 = some start.length :=
      idxOf?_prose hbracket
    rw [hfirst]
    cases hother : (start ++ Container.array.openUnit :: rest).idxOf? 123 with
    | none => rfl
    | some j => exact if_pos (lt_of_idxOf? hbrace (by decide) hother)
  | object =>
    have hfirst : (start ++ Container.object.openUnit :: rest).idxOf? 123 = some start.length :=
      idxOf?_prose hbrace
    rw [hfirst]
    cases hother : (start ++ Container.object.openUnit :: rest).idxOf? 91 with
    | none => rfl
    | some j => exact if_neg (Nat.lt_asymm (lt_of_idxOf? hbracket (by decide) hother))

theorem braces_bracketed {start : Text} (h : Encloses container inner) (hstart : Prose start)
    (rest : Text) :
    braces (start ++ bracketed container inner ++ rest) = bracketed container inner := by
  have hopening : opening (start ++ bracketed container inner ++ rest) =
      some (start.length, container) := by
    rw [List.append_assoc]
    exact opening_bracketed hstart _
  have hlength : start.length + inner.length + 1 + 1 =
      (start ++ bracketed container inner).length := by
    simp [bracketed]
    omega
  unfold braces
  rw [hopening]
  dsimp only
  rw [List.append_assoc, List.drop_left, h.scan, ← List.append_assoc]
  dsimp only
  rw [hlength, List.take_left, List.drop_left]

theorem backquote_notMem (h : Prose before) : (96 : UInt16) ∉ before :=
  fun hmem => h _ hmem (by decide)

theorem fence_eq : fence = [96, 96, 96] := by decide

theorem jsonFence_eq : jsonFence = 96 :: [96, 96, 106, 115, 111, 110] := by decide

/-- A fence in a text with prose around it lies in the text, if the last unit is no backquote. -/
theorem fence_within {text rest : Text} {v : UInt16} (hlast : text = rest ++ [v]) (hv : v ≠ 96)
    (hbefore : (96 : UInt16) ∉ before) (hafter : (96 : UInt16) ∉ after)
    (h : fence <:+: before ++ text ++ after) : fence <:+: text := by
  have hpattern : v ∉ fence := by
    rw [fence_eq]
    simp [hv]
  obtain ⟨i, hi⟩ := exists_occursAt.mpr h
  rw [List.append_assoc] at hi
  have hle : before.length ≤ i := OccursAt.le_of_notMem hbefore (fence_eq ▸ hi)
  obtain ⟨j, rfl⟩ := Nat.exists_eq_add_of_le hle
  have hj := occursAt_append_left.mp hi
  rw [hlast, List.append_assoc, List.singleton_append] at hj
  by_cases hin : j ≤ rest.length
  · have hrest := exists_occursAt.mp ⟨j, hj.of_notMem hpattern hin⟩
    rw [hlast]
    exact hrest.trans (List.prefix_append rest [v]).isInfix
  · -- otherwise it lies in the prose behind the text
    obtain ⟨k, hk⟩ : ∃ k, j = (rest ++ [v]).length + k :=
      Nat.exists_eq_add_of_le (by simp only [List.length_append, List.length_singleton]; omega)
    rw [hk, List.append_cons, occursAt_append_left] at hj
    have hwithin := exists_occursAt.mp ⟨k, hj⟩
    exact absurd (hwithin.subset (by rw [fence_eq]; exact List.mem_cons_self)) hafter

theorem last_bracketed (container : Container) (inner : Text) :
    bracketed container inner = (container.openUnit :: inner) ++ [container.closeUnit] := rfl

theorem closeUnit_ne (container : Container) : container.closeUnit ≠ 96 := by
  cases container <;> decide

/-- **Out of prose** comes the object or array, if it holds no fence. -/
theorem extractJSON_prose (h : Encloses container inner) (hbefore : Prose before)
    (hafter : Prose after) (hfence : ¬ fence <:+: bracketed container inner) :
    extractJSON (before ++ bracketed container inner ++ after) = bracketed container inner := by
  unfold extractJSON
  rw [trim_append (bare_bracketed container inner)]
  dsimp only
  split
  · next hjson =>
    obtain ⟨hstart, hend⟩ := nil_of_isJson h hbefore hjson
    rw [hstart, hend, List.append_nil]
    rfl
  have hnone : ¬ fence <:+: trimStart before ++ bracketed container inner ++ trimEnd after :=
    fun hwithin => hfence (fence_within (last_bracketed container inner) (closeUnit_ne container)
      (backquote_notMem hbefore.trimStart) (backquote_notMem hafter.trimEnd) hwithin)
  have hjsonBlock :
      jsonBlock (trimStart before ++ bracketed container inner ++ trimEnd after) = none := by
    have hsplit : splitFirst jsonFence
        (trimStart before ++ bracketed container inner ++ trimEnd after) = none := by
      refine splitFirst_eq_none.mpr fun i hi => hnone ?_
      have hfront : fence <+: jsonFence := by decide
      exact hfront.isInfix.trans (exists_occursAt.mp ⟨i, hi⟩)
    unfold jsonBlock
    rw [hsplit]
    rfl
  have hgenericBlock :
      genericBlock (trimStart before ++ bracketed container inner ++ trimEnd after) = none := by
    have hsplit : splitFirst fence
        (trimStart before ++ bracketed container inner ++ trimEnd after) = none :=
      splitFirst_eq_none.mpr fun i hi => hnone (exists_occursAt.mp ⟨i, hi⟩)
    unfold genericBlock
    rw [hsplit]
    rfl
  rw [hjsonBlock, hgenericBlock]
  exact braces_bracketed h hbefore.trimStart _

/-- A text in a code fence that says that it is JSON, with prose around it. -/
def fenced (before text after : Text) : Text :=
  before ++ (jsonFence ++ text ++ fence) ++ after

/-- Out of a code fence comes what is in front of the next fence. -/
theorem extractJSON_of_fenced (hbefore : Prose before) {text inside rest : Text}
    (hinside : splitFirst fence ((text ++ fence ++ trimEnd after).dropWhile isWhiteSpace) =
      some (inside, rest)) :
    extractJSON (fenced before text after) = trim inside := by
  have hbare : Bare (jsonFence ++ text ++ fence) := by
    refine ⟨⟨96, [96, 96, 106, 115, 111, 110] ++ text ++ fence, ?_, by decide⟩,
      ⟨jsonFence ++ text ++ [96, 96], 96, ?_, by decide⟩⟩
    · rw [jsonFence_eq]
      rfl
    · rw [fence_eq]
      simp
  have hmem : (96 : UInt16) ∈ jsonFence ++ text ++ fence ++ trimEnd after := by
    rw [jsonFence_eq]
    exact List.mem_cons_self
  have hjson : isJson (trimStart before ++ (jsonFence ++ text ++ fence) ++ trimEnd after) =
      false := by
    rw [List.append_assoc]
    by_cases hne : trimStart before = []
    · rw [hne, List.nil_append]
      rw [jsonFence_eq] at hmem ⊢
      exact not_isJson (by decide) (by decide) hmem (by decide)
    · exact not_isJson_of_prose hbefore hne hmem (by decide)
  have hsplit : splitFirst jsonFence
      (trimStart before ++ (jsonFence ++ text ++ fence) ++ trimEnd after) =
        some (trimStart before, text ++ fence ++ trimEnd after) := by
    have hassoc : trimStart before ++ (jsonFence ++ text ++ fence) ++ trimEnd after =
        trimStart before ++ jsonFence ++ (text ++ fence ++ trimEnd after) := by
      simp only [List.append_assoc]
    rw [hassoc]
    refine splitFirst_of_first fun i hi => ?_
    rw [List.append_assoc] at hi
    exact OccursAt.le_of_notMem (backquote_notMem hbefore.trimStart) (jsonFence_eq ▸ hi)
  unfold extractJSON fenced
  rw [trim_append hbare]
  dsimp only
  rw [hjson, if_neg nofun]
  unfold jsonBlock block
  rw [hsplit, Option.bind_some, hinside]
  rfl

/-- **Out of a code fence** too, whatever white space is around it there. -/
theorem extractJSON_fenced (h : ¬ fence <:+: bracketed container inner) (hbefore : Prose before)
    {blanks blanks' : Text} (hblanks : ∀ u ∈ blanks, isWhiteSpace u = true)
    (hblanks' : ∀ u ∈ blanks', isWhiteSpace u = true) :
    extractJSON (fenced before (blanks ++ bracketed container inner ++ blanks') after) =
      bracketed container inner := by
  have hdrop :
      (blanks ++ bracketed container inner ++ blanks' ++ fence ++ trimEnd after).dropWhile
          isWhiteSpace =
        bracketed container inner ++ blanks' ++ fence ++ trimEnd after := by
    simp only [List.append_assoc]
    rw [List.dropWhile_append_of_pos hblanks, dropWhile_bracketed]
  have hquote : (96 : UInt16) ∉ blanks' := by
    intro hmem
    have hwhite := hblanks' _ hmem
    revert hwhite
    decide
  have hlast : ∃ rest v, bracketed container inner ++ blanks' = rest ++ [v] ∧ v ≠ 96 := by
    rcases List.eq_nil_or_concat blanks' with rfl | ⟨rest, v, rfl⟩
    · exact ⟨_, _, by rw [List.append_nil, last_bracketed], closeUnit_ne container⟩
    · refine ⟨bracketed container inner ++ rest, v, by simp, fun heq => hquote ?_⟩
      simp [heq]
  obtain ⟨rest, v, hrest, hv⟩ := hlast
  have hsplit :
      splitFirst fence (bracketed container inner ++ blanks' ++ fence ++ trimEnd after) =
        some (bracketed container inner ++ blanks', trimEnd after) := by
    refine splitFirst_of_first fun i hi => ?_
    by_contra hlt
    rw [hrest] at hi hlt
    simp only [List.length_append, List.length_singleton] at hlt
    rw [List.append_assoc, List.append_assoc, List.singleton_append] at hi
    have hpattern : v ∉ fence := by
      rw [fence_eq]
      simp [hv]
    have hin := exists_occursAt.mp ⟨i, hi.of_notMem hpattern (by omega)⟩
    have hwhole : fence <:+: [] ++ bracketed container inner ++ blanks' := by
      rw [List.nil_append, hrest]
      exact hin.trans (List.prefix_append rest [v]).isInfix
    exact h (fence_within (last_bracketed container inner) (closeUnit_ne container)
      List.not_mem_nil hquote hwhole)
  have htrim : trim ([] ++ bracketed container inner ++ blanks') = bracketed container inner := by
    rw [trim_append (bare_bracketed container inner), trimEnd_of_blank hblanks', List.append_nil]
    rfl
  exact (extractJSON_of_fenced hbefore (hdrop ▸ hsplit)).trans htrim

/-! ## Which objects and arrays come back -/

/-- The text comes back from between prose, and from a code fence up to the white space around
it. -/
structure Extracts (text : Text) : Prop where
  prose : ∀ before after, Prose before → Prose after →
    extractJSON (before ++ text ++ after) = text
  fenced : ∀ before blanks blanks' after, Prose before → Prose after →
    (∀ u ∈ blanks, isWhiteSpace u = true) → (∀ u ∈ blanks', isWhiteSpace u = true) →
    trim (extractJSON (fenced before (blanks ++ text ++ blanks') after)) = trim text

theorem includes_eq_false {text pattern : Text} :
    includes text pattern = false ↔ ¬ pattern <:+: text := by
  unfold includes
  rw [Option.isSome_eq_false_iff, Option.isNone_iff_eq_none, splitFirst_eq_none,
    ← exists_occursAt, not_exists]

theorem prose_nil : Prose [] := nofun

/-- **An object or an array comes back exactly if** there is no white space around it and it holds
no three backquotes in a row. -/
theorem extracts_iff {text : Text} (h : isContainer text = true) :
    Extracts text ↔ trim text = text ∧ includes text fence = false := by
  obtain ⟨container, inner, before, after, hencloses, htext, hbefore, hafter⟩ :=
    bracketed_of_isContainer h
  have htrim : trim text = bracketed container inner := by
    rw [htext, trim_append (bare_bracketed container inner),
      trimStart_of_blank fun u hu => isWhiteSpace_of_isSpace (hbefore u hu),
      trimEnd_of_blank fun u hu => isWhiteSpace_of_isSpace (hafter u hu), List.append_nil]
    rfl
  rw [includes_eq_false]
  constructor
  · intro hextracts
    have hself : extractJSON text = trim text := by
      have hjson : isJson (trim text) = true := by
        unfold isJson
        rw [htrim, hencloses.run]
        rfl
      unfold extractJSON
      dsimp only
      rw [if_pos hjson]
    have heq : trim text = text := by
      have hwhole := hextracts.prose [] [] prose_nil prose_nil
      rw [List.nil_append, List.append_nil, hself] at hwhole
      exact hwhole
    refine ⟨heq, fun hfence => ?_⟩
    have htext' : text = bracketed container inner := heq.symm.trans htrim
    obtain ⟨inside, rest, hsplit⟩ :
        ∃ inside rest, splitFirst fence (text ++ fence ++ trimEnd []) = some (inside, rest) := by
      cases hsplit : splitFirst fence (text ++ fence ++ trimEnd []) with
      | none => exact absurd (OccursAt.here text fence _) (splitFirst_eq_none.mp hsplit _)
      | some parts => exact ⟨_, _, rfl⟩
    have hdrop : (text ++ fence ++ trimEnd []).dropWhile isWhiteSpace =
        text ++ fence ++ trimEnd [] := by
      rw [htext', List.append_assoc, dropWhile_bracketed]
    have hresult : trim (trim inside) = trim text := by
      have hfenced := hextracts.fenced [] [] [] [] prose_nil prose_nil nofun nofun
      rw [List.nil_append, List.append_nil,
        extractJSON_of_fenced prose_nil (hdrop.symm ▸ hsplit)] at hfenced
      exact hfenced
    -- the block ends at the first fence, so that it holds none; the text does
    have hinside : fence <:+: inside := by
      have htrimmed : fence <:+: trim (trim inside) := by
        rw [hresult, heq]
        exact hfence
      exact htrimmed.trans ((trim_within _).trans (trim_within _))
    exact not_infix_of_splitFirst (by decide) hsplit hinside
  · rintro ⟨heq, hfence⟩
    have htext' : text = bracketed container inner := heq.symm.trans htrim
    rw [htext'] at hfence
    constructor
    · intro before after hbefore hafter
      rw [htext']
      exact extractJSON_prose hencloses hbefore hafter hfence
    · intro before blanks blanks' after hbefore hafter hblanks hblanks'
      rw [heq, htext', extractJSON_fenced hfence hbefore hblanks hblanks', ← htrim, heq, heq]

theorem extracts_iff_sample :
    isContainer (utf16 "\x7b\"a\":[1,\"]\"]\x7d") = true ∧
      (Extracts (utf16 "\x7b\"a\":[1,\"]\"]\x7d") ↔
        trim (utf16 "\x7b\"a\":[1,\"]\"]\x7d") = utf16 "\x7b\"a\":[1,\"]\"]\x7d" ∧
          includes (utf16 "\x7b\"a\":[1,\"]\"]\x7d") fence = false) :=
  ⟨by decide, extracts_iff (by decide)⟩

/-- A fence in a string ends the block. -/
theorem cut_in_string :
    isContainer (utf16 "\x7b\"a\":\"```\"\x7d") = true ∧
      trim (extractJSON (fenced [] (utf16 "\x7b\"a\":\"```\"\x7d") [])) ≠
        trim (utf16 "\x7b\"a\":\"```\"\x7d") := by
  decide

end ExtractJson

end PulSeed
