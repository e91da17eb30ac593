import PulSeed.Lib.Occurrences

/-!
# Editing a file (`tools/fs/FileEditTool/FileEditTool.ts`)

`call` reads the file, counts the occurrences of the old text, one after another, and writes
the content with the one occurrence replaced, or all of them. The first is done by
`String.prototype.replace`, which reads dollar sequences of the new text as patterns; the
second by splitting and joining.

- `countOccurrences_eq`: the count, by the pieces that the occurrences leave.
- `EditsExactly`: what the edit of a file should write.
- `edits_exactly_iff`: **an edit replaces exactly the requested text exactly when, where all
  occurrences of the old text overlap, there is only one and the new text stands for itself
  there.**
-/

namespace PulSeed.FileEdit

/-- `FileEditInputSchema`. -/
structure FileEditInput where
  path : String
  oldText : Text
  newText : Text
  replaceAll : Bool := false
  oldText_ne : oldText ≠ [] := by decide

/-- The same edit, with `replaceAll` set or not. -/
def FileEditInput.withMode (input : FileEditInput) (replaceAll : Bool) : FileEditInput :=
  { input with replaceAll := replaceAll }

/-- The data of a successful result (`FileEditOutput`). -/
structure FileEditOutput where
  path : String
  matchesReplaced : ℕ
  bytesWritten : ℕ
  deriving DecidableEq

/-- `ToolResult`. -/
structure ToolResult where
  success : Bool
  data : Option FileEditOutput := none
  summary : String
  error : Option String := none
  artifacts : List String := []
  deriving DecidableEq

/-- What a call meets: whether it is a dry run, what `validateFilePath` answers (the resolved
path or an error), what reading the file gives, and whether writing it fails. -/
structure Environment where
  dryRun : Bool := false
  validation : Except String String
  content : Except String Text
  writeError : Option String := none

/-- The answer of a call, and what it has written to the file. -/
structure Outcome where
  result : ToolResult
  written : Option Text := none
  deriving DecidableEq

/-- The loop of `countOccurrences`; `none` stands for a loop of more turns. -/
def countFrom (text search : Text) : ℕ → ℕ → ℕ → Option ℕ
  | 0, _, _ => none
  | turns + 1, idx, count =>
    match text.indexOf search idx with
    | none => some count
    | some found => countFrom text search turns (found + search.length) (count + 1)

/-- `countOccurrences`. -/
def countOccurrences (text search : Text) : Option ℕ :=
  countFrom text search (text.length + 1) 0 0

/-- The bytes of the UTF-8 encoding of one code unit that is not part of a pair. -/
def unitBytes (u : UInt16) : ℕ := if u < 0x80 then 1 else if u < 0x800 then 2 else 3

/-- `Buffer.byteLength(text)`. -/
def byteLength : Text → ℕ
  | [] => 0
  | [u] => unitBytes u
  | u :: v :: rest =>
    if 0xD800 ≤ u ∧ u < 0xDC00 ∧ 0xDC00 ≤ v ∧ v < 0xE000 then 4 + byteLength rest
    else unitBytes u + byteLength (v :: rest)

/-- The content that `call` writes for a content with a match. -/
def newContent (input : FileEditInput) (content : Text) : Text :=
  if input.replaceAll then Text.join input.newText (Text.split input.oldText content)
  else content.replace input.oldText input.newText

/-- `FileEditTool.call`. -/
def call (env : Environment) (input : FileEditInput) : Option Outcome :=
  match env.validation with
  | .error error => some { result := {
      success := false
      summary := s!"Edit blocked: {error}"
      error := some error } }
  | .ok resolved =>
    if env.dryRun then
      some { result := {
        success := true
        data := some { path := resolved, matchesReplaced := 0, bytesWritten := 0 }
        summary := s!"dry-run: would edit {resolved}" } }
    else
      match env.content with
      | .error message => some { result := {
          success := false
          summary := s!"Read failed: {message}"
          error := some message } }
      | .ok content => (countOccurrences content input.oldText).map fun matchCount =>
          if matchCount = 0 then
            { result := {
              success := false
              summary := "Text not found in file"
              error := some "Text not found in file" } }
          else if !input.replaceAll && 1 < matchCount then
            let error := s!"Found {matchCount} matches — use replaceAll or provide more context to make match unique"
            { result := { success := false, summary := error, error := some error } }
          else
            let replaced := if input.replaceAll then matchCount else 1
            match env.writeError with
            | some message =>
              { result := {
                success := false
                summary := s!"Write failed: {message}"
                error := some message } }
            | none =>
              { result := {
                  success := true
                  data := some {
                    path := resolved
                    matchesReplaced := replaced
                    bytesWritten := byteLength (newContent input content) }
                  summary := s!"Replaced {replaced} match(es) in {resolved}"
                  artifacts := [resolved] }
                written := some (newContent input content) }

/-! ## Counting -/

theorem countFrom_eq {text search : Text} (hne : search ≠ []) {turns idx count : ℕ}
    {ps : List Text} (hps : Pieces search (text.drop idx) ps) (hidx : idx ≤ text.length)
    (hturns : text.length - idx < turns) :
    countFrom text search turns idx count = some (count + (ps.length - 1)) := by
  induction turns generalizing idx count ps with
  | zero => omega
  | succ turns ih =>
    unfold countFrom Text.indexOf
    generalize hrest : text.drop idx = rest at hps
    cases hps with
    | last hnone =>
      rw [Text.splitFirst_eq_none.mpr hnone]
      rfl
    | @cut before after ps hfirst hafter =>
      rw [Text.splitFirst_of_first hfirst]
      simp only [Option.map_some]
      have hpos : 0 < search.length := List.length_pos_iff.mpr hne
      have hlength : text.length - idx = before.length + search.length + after.length := by
        have hlen := congrArg List.length hrest
        simp only [List.length_drop, List.length_append] at hlen
        exact hlen
      have hdrop : text.drop (idx + before.length + search.length) = after := by
        have hparts : idx + before.length + search.length =
            idx + (before ++ search).length := by simp [Nat.add_assoc]
        rw [hparts, ← List.drop_drop, hrest, List.drop_left]
      have hsome : 0 < ps.length := List.length_pos_iff.mpr hafter.ne_nil
      rw [ih (hdrop ▸ hafter) (by omega) (by omega)]
      simp only [List.length_cons]
      congr 1
      omega

/-- **The count** is the number of cuts that the occurrences make, from left to right. -/
theorem countOccurrences_eq {text search : Text} {ps : List Text} (hne : search ≠ [])
    (hps : Pieces search text ps) : countOccurrences text search = some (ps.length - 1) := by
  unfold countOccurrences
  rw [countFrom_eq hne (by simpa using hps) (Nat.zero_le _) (by omega), Nat.zero_add]

/-- Every call returns. -/
theorem call_isSome (env : Environment) (input : FileEditInput) : (call env input).isSome := by
  unfold call
  cases env.validation with
  | error error => rfl
  | ok resolved =>
    dsimp only
    split
    · rfl
    · cases env.content with
      | error message => rfl
      | ok content =>
        dsimp only
        rw [countOccurrences_eq input.oldText_ne (Text.pieces_split input.oldText_ne content)]
        rfl

/-! ## What an edit writes -/

section Edit

variable {env : Environment} {input : FileEditInput} {content : Text} {outcome : Outcome}
  {ps : List Text}

/-- A successful call has found the old text, once where it replaces one occurrence, and has
written the new content. -/
theorem call_success (hdry : env.dryRun = false) (hcontent : env.content = .ok content)
    (hcall : call env input = some outcome) (hsuccess : outcome.result.success = true)
    (hps : Pieces input.oldText content ps) :
    1 < ps.length ∧ (input.replaceAll = false → ps.length = 2) ∧
      outcome.written = some (newContent input content) := by
  unfold call at hcall
  split at hcall
  · obtain rfl := Option.some.inj hcall
    simp at hsuccess
  rw [if_neg (by simp [hdry]), hcontent] at hcall
  dsimp only at hcall
  rw [countOccurrences_eq input.oldText_ne hps, Option.map_some] at hcall
  obtain rfl := Option.some.inj hcall
  split at hsuccess
  · simp at hsuccess
  next hfound =>
  split at hsuccess
  · simp at hsuccess
  next hunique =>
  split at hsuccess
  · simp at hsuccess
  rw [if_neg hfound, if_neg hunique]
  refine ⟨by omega, fun hsingle => ?_, rfl⟩
  simp only [hsingle, Bool.not_false, Bool.true_and, decide_eq_true_eq] at hunique
  omega

variable (input) in
/-- A call that has found the old text once writes the new content, or fails to. -/
theorem call_once {resolved : String} (hvalid : env.validation = .ok resolved)
    (hdry : env.dryRun = false) (hcontent : env.content = .ok content)
    (hps : Pieces input.oldText content ps) (hlength : ps.length = 2)
    (hcall : call env input = some outcome) :
    (env.writeError = none → outcome.result.success = true) ∧
      outcome.written =
        if env.writeError.isSome then none else some (newContent input content) := by
  unfold call at hcall
  rw [hvalid] at hcall
  dsimp only at hcall
  rw [if_neg (by simp [hdry]), hcontent] at hcall
  dsimp only at hcall
  rw [countOccurrences_eq input.oldText_ne hps, Option.map_some, hlength] at hcall
  obtain rfl := Option.some.inj hcall
  cases hwrite : env.writeError with
  | none => simp
  | some message => simp

theorem newContent_all (hps : Pieces input.oldText content ps) :
    newContent (input.withMode true) content = input.newText.intercalate ps := by
  rw [← (Text.pieces_split input.oldText_ne content).unique hps]
  rfl

theorem newContent_single {before after : Text}
    (hps : Pieces input.oldText content [before, after]) :
    newContent (input.withMode false) content =
      before ++ Text.substitution input.oldText before after input.newText ++ after := by
  change content.replace input.oldText input.newText = _
  unfold Text.replace
  cases hps with
  | cut hfirst hrest =>
    cases hrest with
    | last => rw [Text.splitFirst_of_first hfirst]
    | cut _ hnil => exact absurd rfl hnil.ne_nil

end Edit

/-- **An edit replaces exactly the requested text**, in the calls that are no dry run: without
`replaceAll` the old text occurs at one position only and is replaced by the new text, with it
all that is cut is, and both write the same where the old text occurs at one position. -/
structure EditsExactly (content : Text) (input : FileEditInput) : Prop where
  single : ∀ env outcome, env.dryRun = false → env.content = .ok content →
    call env (input.withMode false) = some outcome → outcome.result.success = true →
    ∃ before after, content = before ++ input.oldText ++ after ∧
      (∀ i, OccursAt input.oldText content i → i = before.length) ∧
      outcome.written = some (before ++ input.newText ++ after)
  all : ∀ env outcome, env.dryRun = false → env.content = .ok content →
    call env (input.withMode true) = some outcome → outcome.result.success = true →
    ∃ pieces, Pieces input.oldText content pieces ∧
      outcome.written = some (input.newText.intercalate pieces)
  agree : ∀ env one every, env.dryRun = false → env.content = .ok content →
    (∃ i, ∀ j, OccursAt input.oldText content j ↔ j = i) →
    call env (input.withMode false) = some one →
    call env (input.withMode true) = some every → one.written = every.written

/-- Where all occurrences of the old text overlap, there is only one, and the dollar patterns of
the new text stand for themselves at its place. -/
def StandsForItself (content : Text) (input : FileEditInput) : Prop :=
  (∀ i j, OccursAt input.oldText content i → OccursAt input.oldText content j →
    j < i + input.oldText.length) →
  ∀ before after, content = before ++ input.oldText ++ after →
    (∀ i, OccursAt input.oldText content i → i = before.length) ∧
      Text.substitution input.oldText before after input.newText = input.newText

section Exact

variable {content : Text} {input : FileEditInput}

/-- Where the old text is found once, the condition is about the first occurrence. -/
theorem standsForItself_of_two {before after : Text} (h : StandsForItself content input)
    (hps : Pieces input.oldText content [before, after]) :
    content = before ++ input.oldText ++ after ∧
      (∀ i, OccursAt input.oldText content i → i = before.length) ∧
      Text.substitution input.oldText before after input.newText = input.newText := by
  have hsplit : content = before ++ input.oldText ++ after := by
    rw [← hps.intercalate]
    simp
  refine ⟨hsplit, h (fun i j hi hj => ?_) before after hsplit⟩
  by_contra hlt
  have hmore := hps.disjoint_iff.mpr ⟨i, j, hi, hj, not_lt.mp hlt⟩
  simp at hmore

theorem EditsExactly.standsForItself (h : EditsExactly content input) :
    StandsForItself content input := by
  intro hoverlap before after hsplit
  have hhere : OccursAt input.oldText content before.length := hsplit ▸ OccursAt.here ..
  have hps := Text.pieces_split input.oldText_ne content
  obtain ⟨first, rest, htwo, -⟩ := hps.two_pieces ⟨_, hhere⟩ hoverlap
  rw [htwo] at hps
  -- a call that can write succeeds, so the edit is exact for it
  let env : Environment := { validation := .ok input.path, content := .ok content }
  obtain ⟨outcome, hcall⟩ := Option.isSome_iff_exists.mp
    (call_isSome env (input.withMode false))
  obtain ⟨hsuccess, hwritten⟩ := call_once (input.withMode false) rfl rfl rfl hps rfl hcall
  obtain ⟨b, a, hba, honly, hexact⟩ := h.single env outcome rfl rfl hcall (hsuccess rfl)
  have hb : before.length = b.length := honly _ hhere
  obtain ⟨rfl, rfl⟩ := OccursAt.split_unique (hsplit.symm.trans hba) hb
  refine ⟨honly, ?_⟩
  have hfirst : first.length = before.length := by
    refine honly _ ?_
    rw [← hps.intercalate]
    exact ⟨first, rest, by simp, rfl⟩
  have hparts : first ++ input.oldText ++ rest = before ++ input.oldText ++ after := by
    rw [← hsplit, ← hps.intercalate]
    simp
  obtain ⟨rfl, rfl⟩ := OccursAt.split_unique hparts hfirst
  rw [hexact, newContent_single hps] at hwritten
  exact (List.append_cancel_left (List.append_cancel_right (Option.some.inj hwritten))).symm

/-- **An edit replaces exactly the requested text** exactly when, where all occurrences of the
old text overlap, there is only one and the new text stands for itself there. -/
theorem edits_exactly_iff (content : Text) (input : FileEditInput) :
    EditsExactly content input ↔ StandsForItself content input := by
  refine ⟨EditsExactly.standsForItself, fun h => ⟨?_, ?_, ?_⟩⟩
  · intro env outcome hdry hcontent hcall hsuccess
    have hps := Text.pieces_split input.oldText_ne content
    obtain ⟨-, hlength, hwritten⟩ := call_success hdry hcontent hcall hsuccess hps
    obtain ⟨before, after, htwo⟩ := List.length_eq_two.mp (hlength rfl)
    rw [htwo] at hps
    obtain ⟨hsplit, honly, hself⟩ := standsForItself_of_two h hps
    refine ⟨before, after, hsplit, honly, ?_⟩
    rw [hwritten, newContent_single hps]
    exact congrArg (fun text => some (before ++ text ++ after)) hself
  · intro env outcome hdry hcontent hcall hsuccess
    have hps := Text.pieces_split input.oldText_ne content
    obtain ⟨-, -, hwritten⟩ := call_success hdry hcontent hcall hsuccess hps
    exact ⟨_, hps, hwritten.trans (congrArg some (newContent_all hps))⟩
  · rintro env one every hdry hcontent ⟨i, honly⟩ hone hevery
    have hps := Text.pieces_split input.oldText_ne content
    obtain ⟨before, after, htwo, -⟩ := hps.two_pieces ⟨i, (honly i).mpr rfl⟩ fun j k hj hk => by
      rw [(honly j).mp hj, (honly k).mp hk]
      have hpos : 0 < input.oldText.length := List.length_pos_iff.mpr input.oldText_ne
      omega
    rw [htwo] at hps
    obtain ⟨-, -, hself⟩ := standsForItself_of_two h hps
    cases hvalid : env.validation with
    | error error =>
      unfold call at hone hevery
      rw [hvalid] at hone hevery
      obtain rfl := Option.some.inj hone
      obtain rfl := Option.some.inj hevery
      rfl
    | ok resolved =>
      have hone := (call_once (input.withMode false) hvalid hdry hcontent
        hps rfl hone).2
      have hevery := (call_once (input.withMode true) hvalid hdry hcontent
        hps rfl hevery).2
      rw [newContent_single hps] at hone
      rw [newContent_all hps] at hevery
      rw [hone, hevery]
      simp [hself]

end Exact

/-- A line that is edited to name the price in dollars. -/
def priceEdit : FileEditInput where
  path := "price.txt"
  oldText := utf16 "COST"
  newText := utf16 "$$5"

/-- **A dollar sequence is not written as it is**: the edit writes one dollar for two. -/
theorem price_not_exact : ¬ EditsExactly (utf16 "price: COST") priceEdit := by
  intro h
  let env : Environment := { validation := .ok "/price.txt", content := .ok (utf16 "price: COST") }
  obtain ⟨outcome, hcall⟩ := Option.isSome_iff_exists.mp
    (call_isSome env (priceEdit.withMode false))
  have hsuccess : (call env (priceEdit.withMode false)).any (·.result.success) =
      true := by decide
  have hdollar : (call env (priceEdit.withMode false)).bind (·.written) =
      some (utf16 "price: $5") := by decide
  rw [hcall] at hsuccess hdollar
  obtain ⟨before, after, hsplit, -, hwritten⟩ := h.single env outcome rfl rfl hcall hsuccess
  have hlength := congrArg List.length hsplit
  have hnew := congrArg List.length (Option.some.inj (hdollar.symm.trans hwritten))
  simp only [List.length_append] at hlength hnew
  have hlengths : (utf16 "price: COST").length = 11 ∧ (utf16 "price: $5").length = 9 ∧
      priceEdit.oldText.length = 4 ∧ priceEdit.newText.length = 3 := by decide
  omega

end PulSeed.FileEdit
