import Mathlib.Data.List.Induction
import PulSeed.Lib.Occurrences
import PulSeed.Tools.ApplyPatch

/-!
# Hunks as edits of lines (`tools/fs/ApplyPatchTool/ApplyPatchTool.ts`)

A hunk says which lines of a file are there and which shall be. `parseCodexPatch` makes two texts
of it, and the first occurrence of the one is replaced by the other.

- `hunkBlocks`: the lines of the hunks of a patch, from which its texts are made
  (`parseOperation_update`).
- `edits_lines_iff`: one hunk, on one content.
- `update_by_lines_iff`: **every hunk of an accepted update is an edit of whole lines exactly when
  it has lines to find and lines to leave, its text is first found at the start of a line, and
  the new text has no replacement pattern that takes effect.**
-/

namespace PulSeed

namespace ApplyPatch

open Text

/-! ## Whole lines -/

/-- The text of lines, each with its line end. -/
def terminated (lines : List Text) : Text := lines.flatMap (· ++ newline)

theorem newline_eq : newline = [10] := by decide +kernel

@[simp] theorem terminated_nil : terminated [] = [] := rfl

@[simp] theorem terminated_cons (line : Text) (lines : List Text) :
    terminated (line :: lines) = line ++ newline ++ terminated lines := rfl

theorem join_newline {lines : List Text} (h : lines ≠ []) :
    join newline lines ++ newline = terminated lines := by
  induction lines with
  | nil => exact absurd rfl h
  | cons line lines ih =>
    cases lines with
    | nil => simp [join]
    | cons next lines =>
      rw [terminated_cons, ← ih (List.cons_ne_nil _ _)]
      simp [join, List.intercalate]

/-- A text in front of the start of a line. -/
def AtLineStart (before : Text) : Prop := before = [] ∨ before.getLast? = some 10

theorem atLineStart_iff {before : Text} :
    AtLineStart before ↔ ∃ lines, (∀ line ∈ lines, 10 ∉ line) ∧ before = terminated lines := by
  constructor
  · intro h
    induction before with
    | nil => exact ⟨[], nofun, rfl⟩
    | cons u before ih =>
      have hlast : (u :: before).getLast? = some 10 := h.resolve_left (List.cons_ne_nil _ _)
      cases before with
      | nil =>
        obtain rfl : u = 10 := by simpa using hlast
        exact ⟨[[]], by simp, by simp [newline_eq]⟩
      | cons u' before =>
        obtain ⟨lines, hlines, heq⟩ := ih (.inr (by simpa using hlast))
        by_cases hu : u = 10
        · refine ⟨[] :: lines, by simpa using hlines, ?_⟩
          rw [terminated_cons, ← heq, hu, newline_eq]
          rfl
        · cases lines with
          | nil => cases heq
          | cons line lines =>
            refine ⟨(u :: line) :: lines, ?_, ?_⟩
            · rw [List.forall_mem_cons] at hlines ⊢
              exact ⟨by simpa [Ne.symm hu] using hlines.1, hlines.2⟩
            · rw [heq, terminated_cons, terminated_cons]
              simp
  · rintro ⟨lines, -, rfl⟩
    cases lines using List.reverseRecOn with
    | nil => exact .inl rfl
    | append_singleton lines line =>
      right
      simp [terminated, newline_eq]

/-! ## The lines of hunks -/

/-- The lines of a hunk: those that are there, and those that shall be. -/
structure HunkLines where
  oldLines : List Text
  newLines : List Text
  deriving DecidableEq

/-- The texts of a hunk. -/
def HunkLines.toHunk (block : HunkLines) : Hunk where
  oldText := join newline block.oldLines ++ newline
  newText := join newline block.newLines ++ newline

/-- The hunks read so far, and the lines of the one that is open. -/
structure LineState where
  blocks : List HunkLines := []
  oldLines : List Text := []
  newLines : List Text := []

def LineState.flush (s : LineState) : LineState :=
  if s.oldLines.length = 0 ∧ s.newLines.length = 0 then s
  else { blocks := s.blocks ++ [⟨s.oldLines, s.newLines⟩] }

/-- The lines of an update, each of them kept for the hunk that it is in. -/
def readLines : LineState → List Text → LineState
  | s, [] => s
  | s, line :: rest =>
    if startsWith line (utf16 "@@") then readLines s.flush rest
    else if startsWith line (utf16 "-") then
      readLines { s with oldLines := s.oldLines ++ [line.drop 1] } rest
    else if startsWith line (utf16 "+") then
      readLines { s with newLines := s.newLines ++ [line.drop 1] } rest
    else if startsWith line (utf16 " ") then
      readLines { s with
        oldLines := s.oldLines ++ [line.drop 1]
        newLines := s.newLines ++ [line.drop 1] } rest
    else readLines s rest

/-- The lines of the hunks of an update: its context and deleted lines, and its context and
added lines. -/
def hunkBlocks (body : List Text) : List HunkLines := (readLines {} body).flush.blocks

/-- The state of the parser that has read these lines. -/
def LineState.toHunkState (s : LineState) : HunkState where
  hunks := s.blocks.map (·.toHunk)
  oldLines := s.oldLines
  newLines := s.newLines

theorem toHunkState_flush (s : LineState) : s.flush.toHunkState = s.toHunkState.flush := by
  unfold LineState.flush HunkState.flush LineState.toHunkState
  dsimp only
  split
  · rfl
  · simp [HunkLines.toHunk]

/-- **The parser makes its texts of these lines.** -/
theorem hunkLines_eq {filePath : Text} {body : List Text} {s : LineState} {s' : HunkState}
    (h : hunkLines filePath s.toHunkState body = .ok s') : s' = (readLines s body).toHunkState := by
  induction body generalizing s with
  | nil => exact (Except.ok.inj h).symm
  | cons line rest ih =>
    unfold hunkLines at h
    unfold readLines
    split
    · next hmarker =>
      rw [if_pos hmarker, ← toHunkState_flush] at h
      exact ih h
    next hmarker =>
    rw [if_neg hmarker] at h
    split
    · next hminus =>
      rw [if_pos hminus] at h
      exact ih h
    next hminus =>
    rw [if_neg hminus] at h
    split
    · next hplus =>
      rw [if_pos hplus] at h
      exact ih h
    next hplus =>
    rw [if_neg hplus] at h
    split
    · next hspace =>
      rw [if_pos hspace] at h
      exact ih h
    next hspace =>
    rw [if_neg hspace] at h
    split at h
    · cases h
    · exact ih h

theorem parseOperation_update {line filePath : Text} {body : List Text} {hunks : List Hunk}
    (h : parseOperation line body = .ok (.update filePath hunks)) :
    hunks = (hunkBlocks body).map (·.toHunk) := by
  unfold parseOperation at h
  split at h
  · dsimp only at h
    cases hlines : addLines (trim (line.drop addHeader.length)) body with
    | error error =>
      rw [hlines] at h
      cases h
    | ok content =>
      rw [hlines] at h
      cases h
  · dsimp only at h
    split at h
    · cases h
    · next s hs =>
      split at h
      · cases h
      · have hs := hunkLines_eq (s := {}) hs
        have hhunks : s.flush.hunks = hunks := by
          cases h
          rfl
        rw [← hhunks, hs, ← toHunkState_flush]
        rfl

/-! ## One hunk -/

variable {current : Text} {block : HunkLines}

/-- The replacement for a hunk is one of whole lines: where its text is first found, its old lines
are taken out and its new lines are put in, and the lines before and after them stay. -/
def EditsLines (current : Text) (block : HunkLines) : Prop :=
  ∃ before after, (∀ line ∈ before, 10 ∉ line) ∧
    splitFirst block.toHunk.oldText current = some (terminated before, after) ∧
    current = terminated before ++ terminated block.oldLines ++ after ∧
    replace current block.toHunk.oldText block.toHunk.newText =
      terminated before ++ terminated block.newLines ++ after

/-- A hunk has lines to find and lines to leave, is first found at the start of a line, and has
no replacement pattern that takes effect. -/
structure Fits (current : Text) (block : HunkLines) : Prop where
  old : block.oldLines ≠ []
  new : block.newLines ≠ []
  start : ∀ before after, splitFirst block.toHunk.oldText current = some (before, after) →
    AtLineStart before
  literal : ∀ before after, splitFirst block.toHunk.oldText current = some (before, after) →
    substitution block.toHunk.oldText before after block.toHunk.newText = block.toHunk.newText

theorem replace_of_splitFirst {text pattern replacement before after : Text}
    (h : splitFirst pattern text = some (before, after)) :
    replace text pattern replacement =
      before ++ substitution pattern before after replacement ++ after := by
  unfold replace
  rw [h]

/-- A text without a dollar sign is put in as it is. -/
theorem substitution_of_notMem {matched before after text : Text} (h : 36 ∉ text) :
    substitution matched before after text = text := by
  induction text with
  | nil => rfl
  | cons u text ih =>
    obtain ⟨hu, htext⟩ := not_or.mp (mt List.mem_cons.mpr h)
    rw [substitution.eq_def]
    split
    · next heq => exact absurd (List.cons.inj heq).1.symm hu
    · next heq => exact absurd (List.cons.inj heq).1.symm hu
    · next heq => exact absurd (List.cons.inj heq).1.symm hu
    · next heq => exact absurd (List.cons.inj heq).1.symm hu
    · next heq =>
      obtain ⟨rfl, rfl⟩ := List.cons.inj heq
      rw [ih htext]
    · next heq => cases heq

theorem substitution_newline (matched before after : Text) :
    substitution matched before after newline = newline :=
  substitution_of_notMem (by decide +kernel)

/-- **When a hunk is an edit of whole lines.** -/
theorem edits_lines_iff (hfound : includes current block.toHunk.oldText = true) :
    EditsLines current block ↔ Fits current block := by
  obtain ⟨⟨before, after⟩, hsplit⟩ := Option.isSome_iff_exists.mp hfound
  obtain ⟨hcurrent, -⟩ := splitFirst_eq_some hsplit
  constructor
  · rintro ⟨lines, after', hlines, hsplit', hold, hnew⟩
    obtain ⟨rfl, rfl⟩ := Prod.mk.inj (Option.some.inj (hsplit.symm.trans hsplit'))
    rw [replace_of_splitFirst hsplit] at hnew
    have hold : block.toHunk.oldText = terminated block.oldLines := by
      rw [hcurrent] at hold
      exact List.append_cancel_left (List.append_cancel_right hold)
    have hnew : substitution block.toHunk.oldText (terminated lines) after block.toHunk.newText =
        terminated block.newLines := List.append_cancel_left (List.append_cancel_right hnew)
    have hnonempty : block.newLines ≠ [] := by
      intro hempty
      have htext : block.toHunk.newText = newline := by
        unfold HunkLines.toHunk
        rw [hempty]
        rfl
      rw [htext, substitution_newline, hempty] at hnew
      cases newline_eq.symm.trans hnew
    refine ⟨?_, hnonempty, ?_, ?_⟩
    · intro hempty
      have htext : block.toHunk.oldText = newline := by
        unfold HunkLines.toHunk
        rw [hempty]
        rfl
      rw [htext, hempty] at hold
      cases newline_eq.symm.trans hold
    · intro before' after' hsplit''
      obtain ⟨rfl, rfl⟩ := Prod.mk.inj (Option.some.inj (hsplit.symm.trans hsplit''))
      exact atLineStart_iff.mpr ⟨lines, hlines, rfl⟩
    · intro before' after' hsplit''
      obtain ⟨rfl, rfl⟩ := Prod.mk.inj (Option.some.inj (hsplit.symm.trans hsplit''))
      rw [hnew]
      exact (join_newline hnonempty).symm
  · intro h
    obtain ⟨lines, hlines, rfl⟩ := atLineStart_iff.mp (h.start before after hsplit)
    refine ⟨lines, after, hlines, hsplit, ?_, ?_⟩
    · rw [← join_newline h.old]
      exact hcurrent
    · rw [replace_of_splitFirst hsplit, h.literal _ _ hsplit, ← join_newline h.new]
      rfl

/-! ## All hunks of an update -/

/-- A property of every hunk, on the content that the hunks before it have left. -/
def EachHunk (P : Text → HunkLines → Prop) : Text → List HunkLines → Prop
  | _, [] => True
  | current, block :: blocks =>
    P current block ∧
      EachHunk P (replace current block.toHunk.oldText block.toHunk.newText) blocks

/-- The content after each hunk has been applied is that after an edit of whole lines. -/
inductive Replaced : Text → List HunkLines → Text → Prop where
  | done {current : Text} : Replaced current [] current
  | hunk {before : List Text} {after result : Text} {block : HunkLines}
      {blocks : List HunkLines} :
      Replaced (terminated before ++ terminated block.newLines ++ after) blocks result →
      Replaced (terminated before ++ terminated block.oldLines ++ after) (block :: blocks) result

theorem replaced_nil_iff {result : Text} : Replaced current [] result ↔ result = current := by
  constructor
  · rintro ⟨⟩
    rfl
  · rintro rfl
    exact .done

theorem replaced_cons_iff {blocks : List HunkLines} {result : Text} :
    Replaced current (block :: blocks) result ↔
      ∃ before after, current = terminated before ++ terminated block.oldLines ++ after ∧
        Replaced (terminated before ++ terminated block.newLines ++ after) blocks result := by
  constructor
  · intro h
    cases h with
    | hunk hrest => exact ⟨_, _, rfl, hrest⟩
  · rintro ⟨before, after, rfl, hrest⟩
    exact .hunk hrest

/-- **Edits of whole lines, one after the other, give the new content.** -/
theorem replaced_of_edits {filePath : Text} {blocks : List HunkLines} {result : Text}
    (haccept : applyHunks filePath current (blocks.map (·.toHunk)) = .ok result)
    (h : EachHunk EditsLines current blocks) : Replaced current blocks result := by
  induction blocks generalizing current with
  | nil =>
    cases haccept
    exact .done
  | cons block blocks ih =>
    obtain ⟨⟨before, after, -, -, hold, hnew⟩, hrest⟩ := h
    rw [List.map_cons, applyHunks] at haccept
    split at haccept
    · cases haccept
    · have hnext := ih haccept hrest
      rw [hnew] at hnext
      rw [hold]
      exact .hunk hnext

/-- **Hunks and lines**: every hunk of an accepted update is an edit of whole lines exactly when
it fits the content that it is applied to. -/
theorem update_by_lines_iff (line : Text) (body : List Text) (filePath : Text) (hunks : List Hunk)
    (content result : Text)
    (hparse : parseOperation line body = .ok (.update filePath hunks))
    (haccept : applyHunks filePath content hunks = .ok result) :
    (EachHunk EditsLines content (hunkBlocks body) ∧ Replaced content (hunkBlocks body) result) ↔
      EachHunk Fits content (hunkBlocks body) := by
  obtain rfl := parseOperation_update hparse
  have hiff : EachHunk EditsLines content (hunkBlocks body) ↔
      EachHunk Fits content (hunkBlocks body) := by
    clear hparse
    generalize hunkBlocks body = blocks at haccept ⊢
    induction blocks generalizing content with
    | nil => exact Iff.rfl
    | cons block blocks ih =>
      rw [List.map_cons, applyHunks] at haccept
      split at haccept
      · cases haccept
      · next hfound =>
        have hfound : includes content block.toHunk.oldText = true := by simpa using hfound
        exact and_congr (edits_lines_iff hfound) (ih _ haccept)
  rw [← hiff]
  exact and_iff_left_of_imp (replaced_of_edits haccept)

/-! ## Sample updates -/

/-- The lines of an update that replaces one line by another. -/
def sampleBody : List Text := [utf16 "@@", utf16 " a", utf16 "-b", utf16 "+c"]

theorem hunkBlocks_sampleBody :
    hunkBlocks sampleBody = [⟨[utf16 "a", utf16 "b"], [utf16 "a", utf16 "c"]⟩] := by
  decide +kernel

theorem update_by_lines_iff_sample :
    EachHunk EditsLines (utf16 "a\nb\nd\n") (hunkBlocks sampleBody) ∧
      Replaced (utf16 "a\nb\nd\n") (hunkBlocks sampleBody) (utf16 "a\nc\nd\n") := by
  refine (update_by_lines_iff (utf16 "*** Update File: f") sampleBody (utf16 "f")
    [⟨utf16 "a\nb\n", utf16 "a\nc\n"⟩] _ _ (by decide +kernel) (by decide +kernel)).mpr ?_
  rw [hunkBlocks_sampleBody]
  refine ⟨⟨List.cons_ne_nil _ _, List.cons_ne_nil _ _, ?_, ?_⟩, trivial⟩
  · intro before after hsplit
    have hfirst : splitFirst (utf16 "a\nb\n") (utf16 "a\nb\nd\n") = some ([], utf16 "d\n") := by
      decide +kernel
    cases hfirst.symm.trans hsplit
    exact .inl rfl
  · intro before after _
    exact substitution_of_notMem (by decide +kernel)

/-- The lines of an update that deletes a line. -/
def sampleDeletion : List Text := [utf16 "@@", utf16 "-a"]

/-- **A deleted line leaves an empty one.** -/
theorem empty_line_left : ¬ ∀ (line : Text) (body : List Text) (filePath : Text)
    (hunks : List Hunk) (content result : Text),
    parseOperation line body = .ok (.update filePath hunks) →
    applyHunks filePath content hunks = .ok result →
    Replaced content (hunkBlocks body) result := by
  intro h
  have hreplaced := h (utf16 "*** Update File: f") sampleDeletion (utf16 "f")
    [⟨utf16 "a\n", utf16 "\n"⟩] (utf16 "a\nb\n") (utf16 "\nb\n") (by decide +kernel)
    (by decide +kernel)
  have hblocks : hunkBlocks sampleDeletion = [⟨[utf16 "a"], []⟩] := by decide +kernel
  rw [hblocks] at hreplaced
  obtain ⟨before, after, hcontent, hrest⟩ := replaced_cons_iff.mp hreplaced
  have hresult := replaced_nil_iff.mp hrest
  -- The line is gone from the lines, so the text would have to be two units shorter.
  have hlong := congrArg List.length hcontent
  have hshort := congrArg List.length hresult
  simp only [List.length_append, terminated_cons, terminated_nil, List.length_nil] at hlong hshort
  have hold : (utf16 "a\nb\n").length = 4 := by decide +kernel
  have hnew : (utf16 "\nb\n").length = 3 := by decide +kernel
  have hline : (utf16 "a").length + newline.length = 2 := by decide +kernel
  omega

end ApplyPatch

end PulSeed
