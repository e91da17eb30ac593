import Mathlib.Data.List.Basic
import PulSeed.Lib.Text

/-!
# JSON texts

Which texts are JSON: those that an automaton reads to the end, unit by unit, with a stack of the
arrays and objects that are open. `Mode` says what may follow, `step` reads a unit.

- `step_cases`: what reading a unit does to the stack, to being inside of a string and to being
  behind a backslash.
- `run_closed`, `run_scalar`: after a whole value there is only white space, and outside of arrays,
  objects and strings there are no brackets and quotes.
-/

namespace PulSeed

namespace JsonText

/-! ## The automaton -/

inductive Container where
  | array
  | object
  deriving DecidableEq

/-- The words that are values. -/
inductive Word where
  | true
  | false
  | null
  deriving DecidableEq

def Word.letters : Word → Text
  | .true => [116, 114, 117, 101]
  | .false => [102, 97, 108, 115, 101]
  | .null => [110, 117, 108, 108]

/-- What may follow. -/
inductive Mode where
  | value
  /-- After `[`. -/
  | firstElement
  /-- After an opening brace. -/
  | firstKey
  | key
  | colon
  /-- A value has been read. -/
  | after
  | string (isKey : Bool)
  | escape (isKey : Bool)
  /-- In `\u`, with so many digits to come after the next. -/
  | hex (isKey : Bool) (left : ℕ)
  | word (word : Word) (read : ℕ)
  | minus
  | zero
  | integer
  | point
  | fraction
  | exponent
  | exponentSign
  | exponentDigits
  deriving DecidableEq

/-- What may follow, and what is open. -/
structure Reading where
  mode : Mode
  stack : List Container
  deriving DecidableEq

def isSpace (u : UInt16) : Bool := u = 32 || u = 9 || u = 10 || u = 13

def isDigit (u : UInt16) : Bool := 48 ≤ u && u ≤ 57

def isHex (u : UInt16) : Bool := isDigit u || (65 ≤ u && u ≤ 70) || (97 ≤ u && u ≤ 102)

/-- The units that may follow a backslash, but for `u`. -/
def isEscape (u : UInt16) : Bool := u ∈ ([34, 92, 47, 98, 102, 110, 114, 116] : List UInt16)

def Container.openUnit : Container → UInt16
  | .array => 91
  | .object => 123

def Container.closeUnit : Container → UInt16
  | .array => 93
  | .object => 125

/-- A unit after a value. -/
def endValue (stack : List Container) (u : UInt16) : Option Reading :=
  if isSpace u then some ⟨.after, stack⟩
  else
    match stack with
    | [] => none
    | container :: rest =>
      if u = container.closeUnit then some ⟨.after, rest⟩
      else if u = 44 then
        match container with
        | .array => some ⟨.value, stack⟩
        | .object => some ⟨.key, stack⟩
      else none

/-- The first unit of a value. -/
def beginValue (stack : List Container) (u : UInt16) : Option Reading :=
  if u = 123 then some ⟨.firstKey, .object :: stack⟩
  else if u = 91 then some ⟨.firstElement, .array :: stack⟩
  else if u = 34 then some ⟨.string false, stack⟩
  else if u = 45 then some ⟨.minus, stack⟩
  else if u = 48 then some ⟨.zero, stack⟩
  else if isDigit u then some ⟨.integer, stack⟩
  else if u = 116 then some ⟨.word .true 1, stack⟩
  else if u = 102 then some ⟨.word .false 1, stack⟩
  else if u = 110 then some ⟨.word .null 1, stack⟩
  else none

/-- A unit is read. -/
def step (s : Reading) (u : UInt16) : Option Reading :=
  match s.mode with
  | .value => if isSpace u then some s else beginValue s.stack u
  | .firstElement =>
    if isSpace u then some s
    else if u = 93 then s.stack.head?.bind fun container =>
      if container = .array then some ⟨.after, s.stack.tail⟩ else none
    else beginValue s.stack u
  | .firstKey =>
    if isSpace u then some s
    else if u = 125 then s.stack.head?.bind fun container =>
      if container = .object then some ⟨.after, s.stack.tail⟩ else none
    else if u = 34 then some ⟨.string true, s.stack⟩
    else none
  | .key => if isSpace u then some s else if u = 34 then some ⟨.string true, s.stack⟩ else none
  | .colon => if isSpace u then some s else if u = 58 then some ⟨.value, s.stack⟩ else none
  | .after => endValue s.stack u
  | .string isKey =>
    if u = 34 then some ⟨if isKey then .colon else .after, s.stack⟩
    else if u = 92 then some ⟨.escape isKey, s.stack⟩
    else if u < 32 then none
    else some s
  | .escape isKey =>
    if isEscape u then some ⟨.string isKey, s.stack⟩
    else if u = 117 then some ⟨.hex isKey 3, s.stack⟩
    else none
  | .hex isKey left =>
    if isHex u then some ⟨if left = 0 then .string isKey else .hex isKey (left - 1), s.stack⟩
    else none
  | .word word read =>
    if word.letters[read]? = some u then
      some ⟨if read + 1 = word.letters.length then .after else .word word (read + 1), s.stack⟩
    else none
  | .minus =>
    if u = 48 then some ⟨.zero, s.stack⟩
    else if isDigit u then some ⟨.integer, s.stack⟩
    else none
  | .zero =>
    if u = 46 then some ⟨.point, s.stack⟩
    else if u = 101 || u = 69 then some ⟨.exponent, s.stack⟩
    else endValue s.stack u
  | .integer =>
    if isDigit u then some s
    else if u = 46 then some ⟨.point, s.stack⟩
    else if u = 101 || u = 69 then some ⟨.exponent, s.stack⟩
    else endValue s.stack u
  | .point => if isDigit u then some ⟨.fraction, s.stack⟩ else none
  | .fraction =>
    if isDigit u then some s
    else if u = 101 || u = 69 then some ⟨.exponent, s.stack⟩
    else endValue s.stack u
  | .exponent =>
    if u = 43 || u = 45 then some ⟨.exponentSign, s.stack⟩
    else if isDigit u then some ⟨.exponentDigits, s.stack⟩
    else none
  | .exponentSign => if isDigit u then some ⟨.exponentDigits, s.stack⟩ else none
  | .exponentDigits => if isDigit u then some s else endValue s.stack u

def run (s : Reading) : Text → Option Reading
  | [] => some s
  | u :: text => (step s u).bind fun s => run s text

/-- A value may end here. -/
def Mode.final : Mode → Bool
  | .after | .zero | .integer | .fraction | .exponentDigits => true
  | _ => false

def start : Reading := ⟨.value, []⟩

/-- `JSON.parse(text)` gives a value. -/
def isJson (text : Text) : Bool :=
  match run start text with
  | none => false
  | some s => s.mode.final && s.stack.isEmpty

/-! ## What a unit does -/

/-- Inside of a string. -/
def Mode.inString : Mode → Bool
  | .string _ | .escape _ | .hex _ _ => true
  | _ => false

/-- Behind a backslash. -/
def Mode.escaped : Mode → Bool
  | .escape _ => true
  | _ => false

/-- Quotes, the backslash, the backquote and the brackets. -/
def marks : List UInt16 := [34, 92, 96, 91, 93, 123, 125]

def Plain (u : UInt16) : Prop := u ∉ marks

instance (u : UInt16) : Decidable (Plain u) := inferInstanceAs (Decidable (u ∉ marks))

theorem plain_of {p : UInt16 → Bool} {u : UInt16} (hu : p u = true)
    (h : (marks.all fun v => !p v) = true) : Plain u := by
  intro hmem
  have hnot := List.all_eq_true.mp h u hmem
  rw [hu] at hnot
  cases hnot

theorem plain_space {u : UInt16} (h : isSpace u = true) : Plain u := plain_of h (by decide)

theorem plain_digit {u : UInt16} (h : isDigit u = true) : Plain u := plain_of h (by decide)

theorem plain_hex {u : UInt16} (h : isHex u = true) : Plain u := plain_of h (by decide)

theorem plain_letter {word : Word} {read : ℕ} {u : UInt16} (h : word.letters[read]? = some u) :
    Plain u := by
  have hmem : word.letters.contains u = true :=
    List.contains_iff_mem.mpr (List.mem_of_getElem? h)
  cases word with
  | true => exact plain_of hmem (by decide)
  | false => exact plain_of hmem (by decide)
  | null => exact plain_of hmem (by decide)

theorem Mode.escaped_of_inString {mode : Mode} (h : mode.inString = false) :
    mode.escaped = false := by
  cases mode <;> first | rfl | cases h

/-- What reading a unit does: it begins or ends a string, goes on in one, opens or closes an array
or an object, or does none of these. -/
inductive Effect (s : Reading) (u : UInt16) (s' : Reading) : Prop where
  | quote : u = 34 → s.mode.escaped = false → s'.mode.inString = !s.mode.inString →
      s'.mode.escaped = false → s'.stack = s.stack → Effect s u s'
  | backslash : u = 92 → s.mode.inString = true → s.mode.escaped = false →
      s'.mode.inString = true → s'.mode.escaped = true → s'.stack = s.stack → Effect s u s'
  | escaped : s.mode.escaped = true → s'.mode.inString = true → s'.mode.escaped = false →
      s'.stack = s.stack → Effect s u s'
  | inside : u ≠ 34 → u ≠ 92 → s.mode.inString = true → s.mode.escaped = false →
      s'.mode.inString = true → s'.mode.escaped = false → s'.stack = s.stack → Effect s u s'
  | opened (container : Container) : u = container.openUnit → s.mode.inString = false →
      s'.mode.inString = false → s'.stack = container :: s.stack → Effect s u s'
  | closed (container : Container) : u = container.closeUnit → s.mode.inString = false →
      s'.mode = .after → s.stack = container :: s'.stack → Effect s u s'
  | plain : Plain u → s.mode.inString = false → s'.mode.inString = false →
      s'.stack = s.stack → Effect s u s'

theorem endValue_cases {stack : List Container} {u : UInt16} {mode : Mode} {s' : Reading}
    (hmode : mode.inString = false) (h : endValue stack u = some s') :
    Effect ⟨mode, stack⟩ u s' := by
  unfold endValue at h
  split at h
  · next hspace =>
    cases h
    exact .plain (plain_space hspace) hmode rfl rfl
  cases stack with
  | nil => cases h
  | cons container rest =>
    dsimp only at h
    split at h
    · next hclose =>
      cases h
      exact .closed container hclose hmode rfl rfl
    split at h
    · next hcomma =>
      have hplain : Plain u := hcomma ▸ by decide
      cases container with
      | array =>
        cases h
        exact .plain hplain hmode rfl rfl
      | object =>
        cases h
        exact .plain hplain hmode rfl rfl
    · cases h

/-- A unit that changes neither the stack nor being inside of a string. -/
theorem effect_ite {stack : List Container} {u : UInt16} {mode mode' : Mode} {s' : Reading}
    {p : Prop} [Decidable p] {r : Option Reading}
    (h : (if p then some ⟨mode', stack⟩ else r) = some s') (hmode : mode.inString = false)
    (hmode' : mode'.inString = false) (hp : p → Plain u)
    (hr : r = some s' → Effect ⟨mode, stack⟩ u s') : Effect ⟨mode, stack⟩ u s' := by
  split at h
  · next hu =>
    cases h
    exact .plain (hp hu) hmode hmode' rfl
  · exact hr h

/-- A bracket that closes an empty container. -/
theorem close_cases {stack : List Container} {u : UInt16} {mode : Mode} {s' : Reading}
    {c : Container} (hu : u = c.closeUnit) (hmode : mode.inString = false)
    (h : (stack.head?.bind fun container =>
      if container = c then some (⟨.after, stack.tail⟩ : Reading) else none) = some s') :
    Effect ⟨mode, stack⟩ u s' := by
  cases stack with
  | nil => cases h
  | cons container rest =>
    simp only [List.head?_cons, Option.bind_some, List.tail_cons] at h
    split at h
    · next hcontainer =>
      cases h
      exact .closed container (hcontainer ▸ hu) hmode rfl rfl
    · cases h

theorem beginValue_cases {stack : List Container} {u : UInt16} {mode : Mode} {s' : Reading}
    (hmode : mode.inString = false) (h : beginValue stack u = some s') :
    Effect ⟨mode, stack⟩ u s' := by
  unfold beginValue at h
  split at h
  · next hu =>
    cases h
    exact .opened .object hu hmode rfl rfl
  split at h
  · next hu =>
    cases h
    exact .opened .array hu hmode rfl rfl
  split at h
  · next hu =>
    cases h
    exact .quote hu (Mode.escaped_of_inString hmode) (by dsimp only; rw [hmode]; rfl) rfl rfl
  -- a number or a word begins
  refine effect_ite h hmode rfl (fun hu => hu ▸ by decide) fun h => ?_
  refine effect_ite h hmode rfl (fun hu => hu ▸ by decide) fun h => ?_
  refine effect_ite h hmode rfl plain_digit fun h => ?_
  refine effect_ite h hmode rfl (fun hu => hu ▸ by decide) fun h => ?_
  refine effect_ite h hmode rfl (fun hu => hu ▸ by decide) fun h => ?_
  exact effect_ite h hmode rfl (fun hu => hu ▸ by decide) nofun

theorem plain_pair {u v w : UInt16} (hv : Plain v) (hw : Plain w)
    (h : (decide (u = v) || decide (u = w)) = true) : Plain u := by
  rw [Bool.or_eq_true, decide_eq_true_eq, decide_eq_true_eq] at h
  rcases h with rfl | rfl
  · exact hv
  · exact hw

/-- **What reading a unit does**, mode by mode. Between the parts of a value a unit is plain or
a bracket (`effect_ite`, `close_cases`), and at the ends of values it is what `endValue` and
`beginValue` make of it. -/
theorem step_cases {s s' : Reading} {u : UInt16} (h : step s u = some s') : Effect s u s' := by
  obtain ⟨mode, stack⟩ := s
  unfold step at h
  cases mode with
  | value =>
    dsimp only at h
    exact effect_ite h rfl rfl plain_space (beginValue_cases rfl)
  | firstElement =>
    dsimp only at h
    refine effect_ite h rfl rfl plain_space fun h => ?_
    split at h
    · next hu => exact close_cases (c := .array) hu rfl h
    · exact beginValue_cases rfl h
  | firstKey =>
    dsimp only at h
    refine effect_ite h rfl rfl plain_space fun h => ?_
    split at h
    · next hu => exact close_cases (c := .object) hu rfl h
    · split at h
      · next hu =>
        cases h
        exact .quote hu rfl rfl rfl rfl
      · cases h
  | key =>
    dsimp only at h
    refine effect_ite h rfl rfl plain_space fun h => ?_
    split at h
    · next hu =>
      cases h
      exact .quote hu rfl rfl rfl rfl
    · cases h
  | colon =>
    dsimp only at h
    refine effect_ite h rfl rfl plain_space fun h => ?_
    exact effect_ite h rfl rfl (fun hu => hu ▸ by decide) nofun
  | after => exact endValue_cases rfl h
  -- in a string every unit but a quote, a backslash and a control character is kept
  | string isKey =>
    dsimp only at h
    split at h
    · next hu =>
      cases h
      cases isKey
      · exact .quote hu rfl rfl rfl rfl
      · exact .quote hu rfl rfl rfl rfl
    split at h
    · next hu =>
      cases h
      exact .backslash hu rfl rfl rfl rfl rfl
    split at h
    · cases h
    · next hquote hbackslash _ =>
      cases h
      exact .inside hquote hbackslash rfl rfl rfl rfl rfl
  | escape isKey =>
    dsimp only at h
    split at h
    · cases h
      exact .escaped rfl rfl rfl rfl
    split at h
    · cases h
      exact .escaped rfl rfl rfl rfl
    · cases h
  | hex isKey left =>
    dsimp only at h
    split at h
    · next hu =>
      cases h
      have hplain := plain_hex hu
      have hquote : u ≠ 34 := fun heq => hplain (heq ▸ by decide)
      have hbackslash : u ≠ 92 := fun heq => hplain (heq ▸ by decide)
      by_cases hleft : left = 0
      · exact .inside hquote hbackslash rfl rfl (by simp [hleft]; rfl) (by simp [hleft]; rfl) rfl
      · exact .inside hquote hbackslash rfl rfl (by simp [hleft]; rfl) (by simp [hleft]; rfl) rfl
    · cases h
  | word word read =>
    dsimp only at h
    split at h
    · next hu =>
      cases h
      refine .plain (plain_letter hu) rfl ?_ rfl
      dsimp only
      split <;> rfl
    · cases h
  -- the parts of a number
  | minus =>
    dsimp only at h
    refine effect_ite h rfl rfl (fun hu => hu ▸ by decide) fun h => ?_
    exact effect_ite h rfl rfl plain_digit nofun
  | zero =>
    dsimp only at h
    refine effect_ite h rfl rfl (fun hu => hu ▸ by decide) fun h => ?_
    exact effect_ite h rfl rfl (plain_pair (by decide) (by decide)) (endValue_cases rfl)
  | integer =>
    dsimp only at h
    refine effect_ite h rfl rfl plain_digit fun h => ?_
    refine effect_ite h rfl rfl (fun hu => hu ▸ by decide) fun h => ?_
    exact effect_ite h rfl rfl (plain_pair (by decide) (by decide)) (endValue_cases rfl)
  | point =>
    dsimp only at h
    exact effect_ite h rfl rfl plain_digit nofun
  | fraction =>
    dsimp only at h
    refine effect_ite h rfl rfl plain_digit fun h => ?_
    exact effect_ite h rfl rfl (plain_pair (by decide) (by decide)) (endValue_cases rfl)
  | exponent =>
    dsimp only at h
    refine effect_ite h rfl rfl (plain_pair (by decide) (by decide)) fun h => ?_
    exact effect_ite h rfl rfl plain_digit nofun
  | exponentSign =>
    dsimp only at h
    exact effect_ite h rfl rfl plain_digit nofun
  | exponentDigits =>
    dsimp only at h
    exact effect_ite h rfl rfl plain_digit (endValue_cases rfl)

/-! ## After a value, and outside of containers -/

/-- Neither inside of a string nor where a key or an element may follow. -/
def Mode.scalar : Mode → Bool
  | .after | .word _ _ | .minus | .zero | .integer | .point | .fraction | .exponent
  | .exponentSign | .exponentDigits => true
  | _ => false

theorem endValue_nil {u : UInt16} {s : Reading} (h : endValue [] u = some s) :
    s = ⟨.after, []⟩ ∧ isSpace u = true := by
  unfold endValue at h
  split at h
  · next hspace =>
    cases h
    exact ⟨rfl, hspace⟩
  · cases h

/-- After a whole value there is only white space. -/
theorem run_closed {text : Text} {s : Reading} (h : run ⟨.after, []⟩ text = some s) :
    s = ⟨.after, []⟩ ∧ ∀ u ∈ text, isSpace u = true := by
  induction text with
  | nil =>
    cases h
    exact ⟨rfl, nofun⟩
  | cons u text ih =>
    obtain ⟨next, hstep, hrest⟩ := Option.bind_eq_some_iff.mp h
    obtain ⟨rfl, hspace⟩ := endValue_nil hstep
    obtain ⟨hs, hspaces⟩ := ih hrest
    exact ⟨hs, List.forall_mem_cons.mpr ⟨hspace, hspaces⟩⟩

/-- A unit of a value that is neither a string nor a container, and is in none. -/
def Stays (u : UInt16) (s : Reading) : Prop := s.stack = [] ∧ s.mode.scalar = true ∧ Plain u

theorem stays_ite {u : UInt16} {mode : Mode} {s : Reading} {p : Prop} [Decidable p]
    {r : Option Reading} (h : (if p then some ⟨mode, []⟩ else r) = some s)
    (hmode : mode.scalar = true) (hp : p → Plain u) (hr : r = some s → Stays u s) : Stays u s := by
  split at h
  · next hu =>
    cases h
    exact ⟨rfl, hmode, hp hu⟩
  · exact hr h

theorem stays_endValue {u : UInt16} {s : Reading} (h : endValue [] u = some s) : Stays u s := by
  obtain ⟨rfl, hspace⟩ := endValue_nil h
  exact ⟨rfl, rfl, plain_space hspace⟩

theorem stays_step {s s' : Reading} {u : UInt16} (hstack : s.stack = [])
    (hmode : s.mode.scalar = true) (h : step s u = some s') : Stays u s' := by
  obtain ⟨mode, stack⟩ := s
  cases hstack
  unfold step at h
  cases mode with
  | value | firstElement | firstKey | key | colon | string _ | escape _ | hex _ _ => cases hmode
  | after => exact stays_endValue h
  | word word read =>
    dsimp only at h
    split at h
    · next hu =>
      cases h
      refine ⟨rfl, ?_, plain_letter hu⟩
      dsimp only
      split <;> rfl
    · cases h
  | minus =>
    dsimp only at h
    refine stays_ite h rfl (fun hu => hu ▸ by decide) fun h => ?_
    exact stays_ite h rfl plain_digit nofun
  | zero =>
    dsimp only at h
    refine stays_ite h rfl (fun hu => hu ▸ by decide) fun h => ?_
    exact stays_ite h rfl (plain_pair (by decide) (by decide)) stays_endValue
  | integer =>
    dsimp only at h
    refine stays_ite h rfl plain_digit fun h => ?_
    refine stays_ite h rfl (fun hu => hu ▸ by decide) fun h => ?_
    exact stays_ite h rfl (plain_pair (by decide) (by decide)) stays_endValue
  | point => exact stays_ite h rfl plain_digit nofun
  | fraction =>
    dsimp only at h
    refine stays_ite h rfl plain_digit fun h => ?_
    exact stays_ite h rfl (plain_pair (by decide) (by decide)) stays_endValue
  | exponent =>
    dsimp only at h
    refine stays_ite h rfl (plain_pair (by decide) (by decide)) fun h => ?_
    exact stays_ite h rfl plain_digit nofun
  | exponentSign => exact stays_ite h rfl plain_digit nofun
  | exponentDigits =>
    dsimp only at h
    exact stays_ite h rfl plain_digit stays_endValue

theorem run_scalar {text : Text} {s s' : Reading} (hstack : s.stack = [])
    (hmode : s.mode.scalar = true) (h : run s text = some s') : ∀ u ∈ text, Plain u := by
  induction text generalizing s with
  | nil => nofun
  | cons u text ih =>
    obtain ⟨next, hstep, hrest⟩ := Option.bind_eq_some_iff.mp h
    obtain ⟨hstack', hmode', hplain⟩ := stays_step hstack hmode hstep
    exact List.forall_mem_cons.mpr ⟨hplain, ih hstack' hmode' hrest⟩

/-- **A text that begins with neither a bracket nor a quote has none**, if it is JSON. -/
theorem plain_of_isJson {u : UInt16} {text : Text} (h : isJson (u :: text) = true)
    (hspace : isSpace u = false) (hobject : u ≠ 123) (harray : u ≠ 91) (hquote : u ≠ 34) :
    ∀ v ∈ u :: text, Plain v := by
  unfold isJson at h
  cases hrun : run start (u :: text) with
  | none =>
    rw [hrun] at h
    cases h
  | some s =>
    obtain ⟨next, hstep, hrest⟩ := Option.bind_eq_some_iff.mp hrun
    have hstays : Stays u next := by
      unfold step start beginValue at hstep
      dsimp only at hstep
      rw [if_neg (by simp [hspace]), if_neg hobject, if_neg harray, if_neg hquote] at hstep
      refine stays_ite hstep rfl (fun hu => hu ▸ by decide) fun h => ?_
      refine stays_ite h rfl (fun hu => hu ▸ by decide) fun h => ?_
      refine stays_ite h rfl plain_digit fun h => ?_
      refine stays_ite h rfl (fun hu => hu ▸ by decide) fun h => ?_
      refine stays_ite h rfl (fun hu => hu ▸ by decide) fun h => ?_
      exact stays_ite h rfl (fun hu => hu ▸ by decide) nofun
    exact List.forall_mem_cons.mpr ⟨hstays.2.2, run_scalar hstays.1 hstays.2.1 hrest⟩

theorem run_append {s : Reading} (first second : Text) :
    run s (first ++ second) = (run s first).bind fun s => run s second := by
  induction first generalizing s with
  | nil => rfl
  | cons u first ih =>
    rw [List.cons_append, run, run, Option.bind_assoc]
    exact Option.bind_congr fun s _ => ih

end JsonText

end PulSeed
