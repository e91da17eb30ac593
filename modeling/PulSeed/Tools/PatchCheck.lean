import PulSeed.Lib.InTurn
import PulSeed.Tools.PatchAtomicity

/-!
# What the check of a patch says about the patch

With `checkOnly`, `callCodexPatch` validates every operation on the files as they are; without it,
an operation is applied to the files that the operations before it have left. `Checked` and
`Ready` are the two conditions on an operation, and `Foreseen` says when they come to the same: no
text that a hunk looks for goes before its turn, and none of what an operation needs to be absent
or present is so only at its turn.

- `check_passes_iff`, `patch_applies_iff`: each run in terms of its condition.
- `check_agrees_iff`: **the check says what the patch does exactly** when the files at the start
  tell what each operation will find.
-/

namespace PulSeed

namespace ApplyPatch

open Text

variable {Rest : Type} {fs : NodeFs Rest} {cwd : Text}

/-! ## Files without faults -/

/-- No call of the file system fails, except one on a file that is not there. -/
structure NodeFs.Reliable (fs : NodeFs Rest) : Prop where
  access_present : ∀ (disk : Disk Rest) path bytes, disk.content path = some bytes →
    fs.access disk path = none
  access_absent : ∀ (disk : Disk Rest) path, disk.content path = none →
    ∃ error, fs.access disk path = some error ∧ error.code = utf16 "ENOENT"
  mkdir : ∀ disk path, (fs.mkdir disk path).2 = none
  read : ∀ disk path, fs.readError disk path = none
  write : ∀ disk path bytes, (fs.write disk path bytes).2 = none

theorem NodeFs.Reliable.readFile (hfs : fs.Reliable) (disk : Disk Rest) (path : Text) :
    (∃ bytes, disk.content path = some bytes ∧
      fs.readFile disk path = .ok (fs.decode bytes)) ∨
    disk.content path = none ∧ ∃ error, fs.readFile disk path = .error error := by
  unfold NodeFs.readFile
  rw [hfs.read]
  cases disk.content path with
  | none => exact .inr ⟨rfl, _, rfl⟩
  | some bytes => exact .inl ⟨bytes, rfl, rfl⟩

theorem NodeFs.Reliable.writeFile (hfs : fs.Reliable) (disk : Disk Rest) (path text : Text) :
    (fs.writeFile disk path text).2 = none := by
  have hwrite := hfs.write disk path (fs.encode text)
  unfold NodeFs.writeFile
  split
  · next heq => simp [heq] at hwrite
  · rfl

/-! ## Hunks in turn -/

/-- The text after a hunk. -/
def rewrite (text : Text) (hunk : Hunk) : Text := replace text hunk.oldText hunk.newText

/-- The text of a hunk is found. -/
def Found (text : Text) (hunk : Hunk) : Prop := includes text hunk.oldText = true

/-- **The hunks of an update are applied** when each of them is found at its turn. -/
theorem applyHunks_isOk_iff {filePath text : Text} {hunks : List Hunk} :
    (∃ result, applyHunks filePath text hunks = .ok result) ↔ InTurn rewrite Found text hunks := by
  induction hunks generalizing text with
  | nil => exact iff_of_true ⟨text, rfl⟩ trivial
  | cons hunk hunks ih =>
    rw [applyHunks, InTurn, ← ih]
    unfold Found rewrite
    cases includes text hunk.oldText with
    | true => simp
    | false => simp

/-! ## Operations on given contents -/

variable (fs cwd) in
/-- What an operation reads in the file at its path. -/
def textAt (content : Text → Option Bytes) (filePath : Text) : Option Text :=
  match resolveWorkspacePath cwd filePath with
  | .error _ => none
  | .ok target => (content target).map fs.decode

/-- The path of an operation does not leave the workspace. -/
def InWorkspace (cwd filePath : Text) : Prop :=
  ∃ target, resolveWorkspacePath cwd filePath = .ok target

variable (fs cwd) in
/-- What the check asks of an operation: a file to add is not there, and one to update has the
text of each hunk. -/
def Checked (content : Text → Option Bytes) : CodexPatchOperation → Prop
  | .add filePath _ => InWorkspace cwd filePath ∧ textAt fs cwd content filePath = none
  | .update filePath hunks =>
    ∃ text, textAt fs cwd content filePath = some text ∧ ∀ hunk ∈ hunks, Found text hunk

variable (fs cwd) in
/-- What an operation needs at its turn: a file to update has the text of each hunk when the hunks
before it have been applied. -/
def Ready (content : Text → Option Bytes) : CodexPatchOperation → Prop
  | .add filePath _ => InWorkspace cwd filePath
  | .update filePath hunks =>
    ∃ text, textAt fs cwd content filePath = some text ∧ InTurn rewrite Found text hunks

variable (fs cwd) in
/-- The contents after an operation. -/
def contentAfter (content : Text → Option Bytes) (operation : CodexPatchOperation) :
    Text → Option Bytes :=
  (edit fs cwd content operation).elim content (put content)

theorem edit_isSome_iff {content : Text → Option Bytes} {operation : CodexPatchOperation} :
    (∃ write, edit fs cwd content operation = some write) ↔ Ready fs cwd content operation := by
  cases operation with
  | add filePath text =>
    unfold edit Ready InWorkspace CodexPatchOperation.filePath
    dsimp only
    cases resolveWorkspacePath cwd filePath with
    | error error => exact iff_of_false nofun nofun
    | ok target => exact iff_of_true ⟨_, rfl⟩ ⟨target, rfl⟩
  | update filePath hunks =>
    unfold edit Ready textAt CodexPatchOperation.filePath
    dsimp only
    cases resolveWorkspacePath cwd filePath with
    | error error => exact iff_of_false nofun nofun
    | ok target =>
      dsimp only
      cases content target with
      | none => exact iff_of_false nofun nofun
      | some bytes =>
        dsimp only [Option.map_some]
        simp only [Option.some.injEq, exists_eq_left']
        rw [← applyHunks_isOk_iff]
        cases applyHunks filePath (fs.decode bytes) hunks with
        | error error => exact iff_of_false nofun nofun
        | ok text => exact iff_of_true ⟨_, rfl⟩ ⟨text, rfl⟩

/-- A file that is there is there after every operation. -/
theorem textAt_contentAfter {content : Text → Option Bytes} {filePath text : Text}
    (h : textAt fs cwd content filePath = some text) (operation : CodexPatchOperation) :
    ∃ text', textAt fs cwd (contentAfter fs cwd content operation) filePath = some text' := by
  unfold textAt at h ⊢
  unfold contentAfter
  cases hresolve : resolveWorkspacePath cwd filePath with
  | error error => simp [hresolve] at h
  | ok target =>
    rw [hresolve] at h
    cases edit fs cwd content operation with
    | none => exact ⟨text, h⟩
    | some write =>
      dsimp only [Option.elim_some, put]
      by_cases hwrite : target = write.1
      · exact ⟨fs.decode write.2, by rw [hwrite, Function.update_self]; rfl⟩
      · exact ⟨text, by rw [Function.update_of_ne hwrite]; exact h⟩

theorem textAt_foldl {content : Text → Option Bytes} {filePath text : Text}
    (h : textAt fs cwd content filePath = some text) (operations : List CodexPatchOperation) :
    ∃ text', textAt fs cwd (operations.foldl (contentAfter fs cwd) content) filePath =
      some text' := by
  induction operations generalizing content text with
  | nil => exact ⟨text, h⟩
  | cons operation operations ih =>
    obtain ⟨text', htext'⟩ := textAt_contentAfter h operation
    exact ih htext'

/-! ## The two runs -/

theorem validateCodexPatchOperation_eq_none_iff (hfs : fs.Reliable) {disk : Disk Rest}
    {operation : CodexPatchOperation} :
    validateCodexPatchOperation fs disk cwd operation = none ↔
      Checked fs cwd disk.content operation := by
  cases operation with
  | add filePath text =>
    unfold validateCodexPatchOperation Checked InWorkspace textAt CodexPatchOperation.filePath
    dsimp only
    cases resolveWorkspacePath cwd filePath with
    | error error => exact iff_of_false nofun fun h => nomatch h.1
    | ok target =>
      dsimp only
      cases hbytes : disk.content target with
      | none =>
        obtain ⟨error, herror, hcode⟩ := hfs.access_absent disk target hbytes
        rw [herror]
        exact iff_of_true (if_neg fun h => h hcode) ⟨⟨target, rfl⟩, rfl⟩
      | some bytes =>
        rw [hfs.access_present disk target bytes hbytes]
        exact iff_of_false nofun fun h => nomatch h.2
  | update filePath hunks =>
    unfold validateCodexPatchOperation Checked textAt CodexPatchOperation.filePath
    dsimp only
    cases resolveWorkspacePath cwd filePath with
    | error error => exact iff_of_false nofun nofun
    | ok target =>
      dsimp only
      obtain ⟨bytes, hbytes, hread⟩ | ⟨hbytes, error, hread⟩ := hfs.readFile disk target
      · rw [hbytes, hread]
        simp [Found]
      · rw [hbytes, hread]
        exact iff_of_false nofun nofun

/-- **The check passes** when every operation can be checked on the files at the start. -/
theorem check_passes_iff (hfs : fs.Reliable) {disk : Disk Rest}
    {operations : List CodexPatchOperation} :
    operations.findSome? (validateCodexPatchOperation fs disk cwd) = none ↔
      ∀ operation ∈ operations, Checked fs cwd disk.content operation := by
  rw [List.findSome?_eq_none_iff]
  exact forall₂_congr fun operation _ => validateCodexPatchOperation_eq_none_iff hfs

theorem applyCodexPatchOperation_eq_none (hfs : fs.Reliable) {disk : Disk Rest}
    {operation : CodexPatchOperation} (hready : Ready fs cwd disk.content operation) :
    (applyCodexPatchOperation fs disk cwd operation).2 = none := by
  cases operation with
  | add filePath text =>
    obtain ⟨target, htarget⟩ := hready
    unfold applyCodexPatchOperation CodexPatchOperation.filePath
    rw [htarget]
    dsimp only
    have hmkdir := hfs.mkdir disk (dirname target)
    split
    · next heq => simp [heq] at hmkdir
    · rw [hfs.writeFile]
      rfl
  | update filePath hunks =>
    obtain ⟨text, htext, hhunks⟩ := hready
    unfold applyCodexPatchOperation CodexPatchOperation.filePath
    unfold textAt at htext
    dsimp only
    cases hresolve : resolveWorkspacePath cwd filePath with
    | error error => simp [hresolve] at htext
    | ok target =>
      rw [hresolve] at htext
      obtain ⟨bytes, hbytes, rfl⟩ := Option.map_eq_some_iff.mp htext
      obtain ⟨result, hresult⟩ := (@applyHunks_isOk_iff filePath _ _).mpr hhunks
      dsimp only
      obtain ⟨bytes', hbytes', hread⟩ | ⟨hnone, -⟩ := hfs.readFile disk target
      · cases hbytes.symm.trans hbytes'
        rw [hread]
        dsimp only
        rw [hresult]
        dsimp only
        rw [hfs.writeFile]
        rfl
      · cases hbytes.symm.trans hnone

/-- **The patch is applied** when every operation can be made at its turn. -/
theorem patch_applies_iff (hfs : fs.Reliable) {disk : Disk Rest}
    {operations : List CodexPatchOperation} :
    (applyOperations fs cwd disk operations).2 = none ↔
      InTurn (contentAfter fs cwd) (Ready fs cwd) disk.content operations := by
  induction operations generalizing disk with
  | nil => exact iff_of_true rfl trivial
  | cons operation operations ih =>
    rw [applyOperations, InTurn]
    have hcases := @applyCodexPatchOperation_cases _ fs cwd disk operation
    rcases hcases with ⟨error, herror, -⟩ | ⟨hnone, write, hedit, hcontent⟩
    · have hready : ¬ Ready fs cwd disk.content operation := fun hready =>
        Option.some_ne_none _ (herror.symm.trans (applyCodexPatchOperation_eq_none hfs hready))
      split
      · exact iff_of_false (Option.some_ne_none _) fun h => hready h.1
      · next heq => simp [heq] at herror
    · have hafter : (applyCodexPatchOperation fs disk cwd operation).1.content =
          contentAfter fs cwd disk.content operation := by
        rw [hcontent, contentAfter, hedit]
        rfl
      split
      · next heq => simp [heq] at hnone
      · next disk' heq =>
        rw [heq] at hafter
        rw [ih, hafter]
        exact (and_iff_right (edit_isSome_iff.mp ⟨write, hedit⟩)).symm

/-! ## Agreement -/

variable (fs cwd) in
/-- A hunk of an operation is no longer found. -/
def HunkGone (content : Text → Option Bytes) : CodexPatchOperation → Prop
  | .add _ _ => False
  | .update filePath hunks =>
    ∃ text, textAt fs cwd content filePath = some text ∧
      AtTurn rewrite (fun text hunk => ¬ Found text hunk) text hunks

variable (fs cwd) in
/-- The file to add is there, the one to update is not, or it lacks the text of a hunk. -/
def Lacking (content : Text → Option Bytes) : CodexPatchOperation → Prop
  | .add filePath _ => ∃ text, textAt fs cwd content filePath = some text
  | .update filePath hunks =>
    ∀ text, textAt fs cwd content filePath = some text → ∃ hunk ∈ hunks, ¬ Found text hunk

variable (fs cwd) in
/-- The files at the start tell what the operations will find. -/
structure Foreseen (content : Text → Option Bytes) (operations : List CodexPatchOperation) :
    Prop where
  /-- No text that the files have at the start is gone when its hunk is to be applied. -/
  kept : (∀ operation ∈ operations, Checked fs cwd content operation) →
    ¬ AtTurn (contentAfter fs cwd) (HunkGone fs cwd) content operations
  /-- No operation lacks at the start what it has at its turn. -/
  present : InTurn (contentAfter fs cwd) (Ready fs cwd) content operations →
    ∀ operation ∈ operations, ¬ Lacking fs cwd content operation

theorem HunkGone.not_ready {content : Text → Option Bytes} {operation : CodexPatchOperation}
    (h : HunkGone fs cwd content operation) : ¬ Ready fs cwd content operation := by
  cases operation with
  | add filePath text => exact h.elim
  | update filePath hunks =>
    obtain ⟨text, htext, hgone⟩ := h
    rintro ⟨text', htext', hhunks⟩
    cases htext.symm.trans htext'
    exact not_inTurn_iff.mpr hgone hhunks

theorem Checked.not_lacking {content : Text → Option Bytes} {operation : CodexPatchOperation}
    (h : Checked fs cwd content operation) : ¬ Lacking fs cwd content operation := by
  cases operation with
  | add filePath text =>
    rintro ⟨text', htext'⟩
    exact nomatch h.2.symm.trans htext'
  | update filePath hunks =>
    obtain ⟨text, htext, hhunks⟩ := h
    intro hlacking
    obtain ⟨hunk, hmem, hmissing⟩ := hlacking text htext
    exact hmissing (hhunks hunk hmem)

/-- What was checked at the start and cannot be done at its turn has lost a hunk. -/
theorem hunkGone_of_checked {content : Text → Option Bytes} {operation : CodexPatchOperation}
    {before : List CodexPatchOperation} (hchecked : Checked fs cwd content operation)
    (hready : ¬ Ready fs cwd (before.foldl (contentAfter fs cwd) content) operation) :
    HunkGone fs cwd (before.foldl (contentAfter fs cwd) content) operation := by
  cases operation with
  | add filePath text => exact hready hchecked.1
  | update filePath hunks =>
    obtain ⟨text, htext, -⟩ := hchecked
    obtain ⟨text', htext'⟩ := textAt_foldl htext before
    exact ⟨text', htext', not_inTurn_iff.mp fun h => hready ⟨text', htext', h⟩⟩

/-- An operation that can be done at some time can be checked where it lacks nothing. -/
theorem checked_of_ready {content content' : Text → Option Bytes}
    {operation : CodexPatchOperation} (hready : Ready fs cwd content' operation)
    (hlacking : ¬ Lacking fs cwd content operation) : Checked fs cwd content operation := by
  cases operation with
  | add filePath text =>
    refine ⟨hready, Option.eq_none_iff_forall_ne_some.mpr fun text' htext' => ?_⟩
    exact hlacking ⟨text', htext'⟩
  | update filePath hunks =>
    unfold Lacking at hlacking
    push Not at hlacking
    exact hlacking

/-- **When the two conditions come to the same.** -/
theorem checked_iff_inTurn_iff {content : Text → Option Bytes}
    {operations : List CodexPatchOperation} :
    ((∀ operation ∈ operations, Checked fs cwd content operation) ↔
      InTurn (contentAfter fs cwd) (Ready fs cwd) content operations) ↔
      Foreseen fs cwd content operations := by
  constructor
  · intro hiff
    refine ⟨fun hchecked => ?_, fun hready operation hmem => ?_⟩
    · rintro ⟨before, operation, after, hoperations, hgone⟩
      exact not_inTurn_iff.mpr ⟨before, operation, after, hoperations, hgone.not_ready⟩
        (hiff.mp hchecked)
    · exact (hiff.mpr hready operation hmem).not_lacking
  · intro h
    constructor
    · intro hchecked
      by_contra hready
      obtain ⟨before, operation, after, hoperations, hready⟩ := not_inTurn_iff.mp hready
      have hmem : operation ∈ operations := by simp [hoperations]
      exact h.kept hchecked
        ⟨before, operation, after, hoperations, hunkGone_of_checked (hchecked _ hmem) hready⟩
    · intro hready operation hmem
      obtain ⟨content', hready'⟩ := hready.mem hmem
      exact checked_of_ready hready' (h.present hready operation hmem)

theorem memoryFs_reliable : memoryFs.Reliable where
  access_present := fun disk path bytes h => by simp [memoryFs, h]
  access_absent := fun disk path h => by simp [memoryFs, h]
  mkdir := fun _ _ => rfl
  read := fun _ _ => rfl
  write := fun _ _ _ => rfl

/-- A disk with one file. -/
def oldDisk : Disk Unit where
  content := fun path => if path = utf16 "/work/old.txt" then some [97, 10, 98, 10] else none
  rest := ()

/-- A patch of an added and an updated file. -/
def checkedPatch : Text :=
  utf16
    "*** Begin Patch\n*** Add File: new.txt\n+x\n*** Update File: old.txt\n-a\n+c\n*** End Patch"

def checkedOperations : List CodexPatchOperation :=
  [.add (utf16 "new.txt") (utf16 "x\n"),
    .update (utf16 "old.txt") [⟨utf16 "a\n", utf16 "c\n"⟩]]

/-- A patch that adds a file. -/
def addPatch : Text := utf16 "*** Begin Patch\n*** Add File: old.txt\n+x\n*** End Patch"

end ApplyPatch

end PulSeed
