import Mathlib.Logic.Function.Basic
import PulSeed.Lib.Text

/-!
# Codex patches (`tools/fs/ApplyPatchTool/ApplyPatchTool.ts`)

`callCodexPatch` parses a patch into operations that add or update files, refuses it
when a path is protected, and then applies the operations one after another: an
operation that cannot be applied ends the call, after the ones before it have written
their files.

A `Disk` is what the files contain, and the `rest` of the file system: directories,
modes and so on. `NodeFs` says which calls of `node:fs` fail, in whatever way they
depend on the disk, and what they do to the rest; a write that fails leaves the
contents alone. The protected-path policy is a parameter, which reads the disk only.
-/

namespace PulSeed

namespace ApplyPatch

open Text

/-! ## The file system -/

abbrev Bytes := List UInt8

/-- A file system: the contents of its files by their absolute paths, and the rest of it. -/
structure Disk (Rest : Type) where
  content : Text → Option Bytes
  rest : Rest

/-- The error of a call of `node:fs`. -/
structure FsError where
  code : Text
  message : Text

/-- The calls of `node:fs/promises`: their errors, and what they do to the rest of the disk. -/
structure NodeFs (Rest : Type) where
  access : Disk Rest → Text → Option FsError
  mkdir : Disk Rest → Text → Rest × Option FsError
  readError : Disk Rest → Text → Option FsError
  write : Disk Rest → Text → Bytes → Rest × Option FsError
  decode : Bytes → Text
  encode : Text → Bytes

variable {Rest : Type} (fs : NodeFs Rest)

/-- `fsp.readFile(path, "utf-8")`. -/
def NodeFs.readFile (disk : Disk Rest) (path : Text) : Except FsError Text :=
  match fs.readError disk path, disk.content path with
  | some error, _ => .error error
  | none, some bytes => .ok (fs.decode bytes)
  | none, none => .error
    { code := utf16 "ENOENT"
      message := utf16 "ENOENT: no such file or directory, open '" ++ path ++ utf16 "'" }

/-- `fsp.writeFile(path, text, "utf-8")`. -/
def NodeFs.writeFile (disk : Disk Rest) (path : Text) (text : Text) :
    Disk Rest × Option FsError :=
  match fs.write disk path (fs.encode text) with
  | (rest, some error) => ({ disk with rest }, some error)
  | (rest, none) =>
    ({ content := Function.update disk.content path (some (fs.encode text))
       rest }, none)

/-! ## Paths -/

def slash : UInt16 := 47

/-- The segments of an absolute path, `.` and `..` resolved. -/
def normalizeSegments (segments : List Text) : List Text :=
  segments.foldl (fun done segment =>
    if segment = [] ∨ segment = utf16 "." then done
    else if segment = utf16 ".." then done.dropLast
    else done ++ [segment]) []

/-- `path.resolve(base, filePath)`, for an absolute base. -/
def resolvePath (base filePath : Text) : Text :=
  let absolute := if filePath.head? = some slash then filePath else base ++ slash :: filePath
  slash :: join [slash] (normalizeSegments (absolute.splitOn slash))

/-- `path.dirname` of a resolved path. -/
def dirname (path : Text) : Text :=
  slash :: join [slash] (normalizeSegments (path.splitOn slash)).dropLast

/-! ## Parsing -/

structure Hunk where
  oldText : Text
  newText : Text
  deriving DecidableEq

inductive CodexPatchOperation
  | add (filePath content : Text)
  | update (filePath : Text) (hunks : List Hunk)
  deriving DecidableEq

def CodexPatchOperation.filePath : CodexPatchOperation → Text
  | .add filePath _ => filePath
  | .update filePath _ => filePath

def addHeader : Text := utf16 "*** Add File: "

def updateHeader : Text := utf16 "*** Update File: "

/-- The lines up to the next marker. -/
def isBody (line : Text) : Bool := !startsWith line (utf16 "*** ")

/-- The content lines of an added file. -/
def addLines (filePath : Text) : List Text → Except Text (List Text)
  | [] => .ok []
  | line :: rest =>
    if !startsWith line (utf16 "+") then
      .error (utf16 "Invalid add-file line for " ++ filePath ++ utf16 ": " ++ line)
    else (addLines filePath rest).map fun content => line.drop 1 :: content

/-- The hunks read so far, and the lines of the one that is open. -/
structure HunkState where
  hunks : List Hunk := []
  oldLines : List Text := []
  newLines : List Text := []

/-- The local function `flush`. -/
def HunkState.flush (s : HunkState) : HunkState :=
  if s.oldLines.length = 0 ∧ s.newLines.length = 0 then s
  else
    { hunks := s.hunks ++
        [{ oldText := join newline s.oldLines ++ newline
           newText := join newline s.newLines ++ newline }] }

/-- The hunk lines of an updated file. -/
def hunkLines (filePath : Text) : HunkState → List Text → Except Text HunkState
  | s, [] => .ok s
  | s, line :: rest =>
    if startsWith line (utf16 "@@") then hunkLines filePath s.flush rest
    else if startsWith line (utf16 "-") then
      hunkLines filePath { s with oldLines := s.oldLines ++ [line.drop 1] } rest
    else if startsWith line (utf16 "+") then
      hunkLines filePath { s with newLines := s.newLines ++ [line.drop 1] } rest
    else if startsWith line (utf16 " ") then
      hunkLines filePath { s with
        oldLines := s.oldLines ++ [line.drop 1]
        newLines := s.newLines ++ [line.drop 1] } rest
    else if trim line ≠ [] then
      .error (utf16 "Invalid update-file line for " ++ filePath ++ utf16 ": " ++ line)
    else hunkLines filePath s rest

/-- The operation whose header is the first line and whose body follows. -/
def parseOperation (line : Text) (body : List Text) : Except Text CodexPatchOperation :=
  if startsWith line addHeader then
    let filePath := trim (line.drop addHeader.length)
    (addLines filePath body).map fun content =>
      .add filePath (join newline content ++ newline)
  else
    let filePath := trim (line.drop updateHeader.length)
    match hunkLines filePath {} body with
    | .error error => .error error
    | .ok s =>
      let hunks := s.flush.hunks
      if hunks.length = 0 then .error (utf16 "No update hunks found for " ++ filePath)
      else .ok (.update filePath hunks)

/-- The loop of `parseCodexPatch` over the lines that are left; every turn takes at least
one of them, so as many turns as lines are enough. -/
def parseLoop : ℕ → List Text → List CodexPatchOperation → Except Text (List CodexPatchOperation)
  | _, [], operations => .ok operations
  | 0, _ :: _, operations => .ok operations
  | turns + 1, raw :: rest, operations =>
    let line := trimEnd raw
    if line = utf16 "*** End Patch" then .ok operations
    else if startsWith line addHeader || startsWith line updateHeader then
      match parseOperation line (rest.takeWhile isBody) with
      | .error error => .error error
      | .ok operation => parseLoop turns (rest.dropWhile isBody) (operations ++ [operation])
    else if trim line = [] then parseLoop turns rest operations
    else .error (utf16 "Unsupported Codex patch operation: " ++ line)

/-- `function parseCodexPatch`. -/
def parseCodexPatch (patch : Text) : Except Text (List CodexPatchOperation) :=
  match lines patch with
  | [] => .error (utf16 "Codex patch must start with *** Begin Patch")
  | first :: rest =>
    if trim first ≠ utf16 "*** Begin Patch" then
      .error (utf16 "Codex patch must start with *** Begin Patch")
    else
      match parseLoop rest.length rest [] with
      | .error error => .error error
      | .ok operations =>
        if operations.length = 0 then .error (utf16 "No patch operations found")
        else .ok operations

/-! ## Applying a patch -/

/-- `function resolveWorkspacePath`. -/
def resolveWorkspacePath (cwd filePath : Text) : Except Text Text :=
  let resolvedCwd := resolvePath cwd []
  let resolved := resolvePath resolvedCwd filePath
  if resolved ≠ resolvedCwd ∧ !startsWith resolved (resolvedCwd ++ [slash]) then
    .error (utf16 "Patch path escapes workspace: " ++ filePath)
  else .ok resolved

def contextNotFound (filePath : Text) (hunk : Hunk) : Text :=
  utf16 "Patch context not found in " ++ filePath ++ utf16 ": " ++ trim hunk.oldText

/-- The text after the hunks of an update, each replaced at its first occurrence. -/
def applyHunks (filePath : Text) : Text → List Hunk → Except Text Text
  | current, [] => .ok current
  | current, hunk :: hunks =>
    if !includes current hunk.oldText then .error (contextNotFound filePath hunk)
    else applyHunks filePath (replace current hunk.oldText hunk.newText) hunks

/-- `function validateCodexPatchOperation`; an error, if there is one. -/
def validateCodexPatchOperation (disk : Disk Rest) (cwd : Text)
    (operation : CodexPatchOperation) : Option Text :=
  match resolveWorkspacePath cwd operation.filePath with
  | .error error => some error
  | .ok target =>
    match operation with
    | .add filePath _ =>
      match fs.access disk target with
      | none => some (utf16 "File already exists: " ++ filePath)
      | some error => if error.code ≠ utf16 "ENOENT" then some error.message else none
    | .update filePath hunks =>
      match fs.readFile disk target with
      | .error error => some error.message
      | .ok current =>
        (hunks.find? fun hunk => !includes current hunk.oldText).map (contextNotFound filePath)

/-- `function applyCodexPatchOperation`; the disk after it, and an error if there is one. -/
def applyCodexPatchOperation (disk : Disk Rest) (cwd : Text)
    (operation : CodexPatchOperation) : Disk Rest × Option Text :=
  match resolveWorkspacePath cwd operation.filePath with
  | .error error => (disk, some error)
  | .ok target =>
    match operation with
    | .add _ content =>
      match fs.mkdir disk (dirname target) with
      | (rest, some error) => ({ disk with rest }, some error.message)
      | (rest, none) =>
        let written := fs.writeFile { disk with rest } target content
        (written.1, written.2.map (·.message))
    | .update filePath hunks =>
      match fs.readFile disk target with
      | .error error => (disk, some error.message)
      | .ok current =>
        match applyHunks filePath current hunks with
        | .error error => (disk, some error)
        | .ok current =>
          let written := fs.writeFile disk target current
          (written.1, written.2.map (·.message))

/-- The loop that applies the operations, up to the first error. -/
def applyOperations (cwd : Text) : Disk Rest → List CodexPatchOperation → Disk Rest × Option Text
  | disk, [] => (disk, none)
  | disk, operation :: operations =>
    match applyCodexPatchOperation fs disk cwd operation with
    | (disk, some error) => (disk, some error)
    | (disk, none) => applyOperations cwd disk operations

/-- `ApplyPatchInputSchema`, without the working directory that `call` resolves. -/
structure ApplyPatchInput where
  patch : Text
  checkOnly : Bool := false

/-- The result of a call, its duration left out. -/
structure ToolResult where
  success : Bool
  changedPaths : List Text
  stderr : Text
  checkOnly : Bool
  summary : Text
  error : Option Text := none
  notExecuted : Option Text := none
  artifacts : List Text

/-- The result of the `catch` of `callCodexPatch`. -/
def patchFailed (input : ApplyPatchInput) (message : Text) : ToolResult :=
  { success := false
    changedPaths := []
    stderr := message
    checkOnly := input.checkOnly
    summary := utf16 "Patch failed: " ++ message
    error := some message
    artifacts := [] }

/-- The result of a patch with a blocked path. -/
def patchBlocked (input : ApplyPatchInput) (changedPaths : List Text) (error : Text) :
    ToolResult :=
  { success := false
    changedPaths
    stderr := error
    checkOnly := input.checkOnly
    summary := utf16 "Patch blocked: " ++ error
    error := some error
    notExecuted := some error
    artifacts := changedPaths }

/-- The result of a patch that was applied or checked. -/
def patchApplied (input : ApplyPatchInput) (changedPaths : List Text) : ToolResult :=
  let paths := join (utf16 ", ") changedPaths
  { success := true
    changedPaths
    stderr := []
    checkOnly := input.checkOnly
    summary := utf16 (if input.checkOnly then "Patch check passed" else "Patch applied") ++
      utf16 ": " ++ (if paths = [] then utf16 "no paths detected" else paths)
    artifacts := changedPaths }

/-- `callCodexPatch`; `validateProtectedPath` gives the error of a blocked path. -/
def callCodexPatch (validateProtectedPath : Disk Rest → Text → Option Text) (disk : Disk Rest)
    (cwd : Text) (input : ApplyPatchInput) : Disk Rest × ToolResult :=
  match parseCodexPatch input.patch with
  | .error message => (disk, patchFailed input message)
  | .ok operations =>
    let changedPaths := operations.map (·.filePath)
    match changedPaths.findSome? (validateProtectedPath disk) with
    | some error => (disk, patchBlocked input changedPaths error)
    | none =>
      if input.checkOnly then
        match operations.findSome? (validateCodexPatchOperation fs disk cwd) with
        | some message => (disk, patchFailed input message)
        | none => (disk, patchApplied input changedPaths)
      else
        match applyOperations fs cwd disk operations with
        | (disk, some message) => (disk, patchFailed input message)
        | (disk, none) => (disk, patchApplied input changedPaths)

end ApplyPatch

end PulSeed
