import Mathlib.Data.List.Sort
import Mathlib.Logic.Function.Basic
import PulSeed.Lib.Text
import PulSeed.Lib.Transition

/-!
# The event spool (`base/utils/event-spool.ts`, `platform/drive/drive-system.ts`)

An event is a file of the spool directory. `writeEventSpoolJson` puts one there, and
`processEvents` lists the directory, reads the events one after another, moves each into the
archive directory and returns those it has moved. The archive is pruned each time.

A call takes its file operations one by one, and other calls take theirs in between: the steps of
a call are those of `CallStep` and `WriteStep`, one for each file operation, and a run of `spool`
is an interleaving of them. No file operation fails but for a file that is not there. A directory
of files is a function from names; the temporary file of an atomic write has a name that no
listing keeps, and is left out.
-/

namespace PulSeed

namespace EventSpool

open Text

/-! ## Names -/

def EVENT_SPOOL_MAX_FILE_BYTES : ℕ := 1048576
def EVENT_SPOOL_MAX_PENDING_FILES : ℕ := 10000
def EVENT_SPOOL_RETAINED_DIRECTORY_MAX_FILES : ℕ := 1000
def EVENT_SPOOL_RETAINED_DIRECTORY_MAX_AGE_MS : ℕ := 7 * 24 * 60 * 60 * 1000
def MAX_SAFE_INTEGER : ℕ := 2 ^ 53 - 1

def RESERVED_EVENT_SPOOL_FILENAMES : List Text := [utf16 "daemon-token.json"]

/-- `isEventSpoolJsonFileName`. -/
def isEventSpoolJsonFileName (fileName : Text) : Bool :=
  !fileName.contains 47 && endsWith fileName (utf16 ".json") &&
    !endsWith fileName (utf16 ".tmp") && !RESERVED_EVENT_SPOOL_FILENAMES.contains fileName

/-- `path.parse(fileName)`, the name and the extension, for a name that ends with `.json`. -/
def parseFileName (fileName : Text) : Text × Text :=
  if fileName = utf16 ".json" then (fileName, [])
  else (fileName.take (fileName.length - 5), utf16 ".json")

/-- The name that `reserveEventSpoolDestination` makes of a time and a UUID. -/
def uniqueName (fileName stamp uuid : Text) : Text :=
  let parsed := parseFileName fileName
  parsed.1 ++ utf16 "-" ++ stamp ++ utf16 "-" ++ uuid ++ parsed.2

/-! ## Directories -/

/-- What is under a name of a directory. -/
inductive Entry (Content : Type) where
  | directory
  | file (content : Content) (mtimeMs : ℚ)

abbrev Directory (Content : Type) := Text → Option (Entry Content)

variable {Content Event : Type}

/-- What `fsp.readdir` gives. -/
def Lists (directory : Directory Content) (entries : List Text) : Prop :=
  entries.Nodup ∧ ∀ name, name ∈ entries ↔ directory name ≠ none

/-- `listEventSpoolJsonFiles`, of the names in the directory. -/
def listEventSpoolJsonFiles (entries : List Text) (maxFiles : ℕ) : List Text :=
  ((entries.filter isEventSpoolJsonFileName).mergeSort (· ≤ ·)).take maxFiles

/-- The files that `pruneEventSpoolDirectory` removes, of those with their times. -/
def overdue (now : ℚ) (entries : List (Text × ℚ)) : List Text :=
  let entries := entries.mergeSort fun a b => b.2 ≤ a.2
  let retained := (entries.take EVENT_SPOOL_RETAINED_DIRECTORY_MAX_FILES).map (·.1)
  let removed := entries.filter fun entry =>
    decide (now - entry.2 > EVENT_SPOOL_RETAINED_DIRECTORY_MAX_AGE_MS) ||
      !retained.contains entry.1
  removed.map (·.1)

/-! ## The steps of a call of `processEvents` -/

/-- What an event is read as, from the file that holds it: `readEventSpoolText`, `JSON.parse` and
`PulSeedEventSchema.parse`. -/
abbrev Reader (Content Event : Type) := Content → Option Event

/-- Where `archiveEvent` is. -/
inductive Archiving where
  /-- `reserveEventSpoolDestination`, before it looks for a file under a name; so many made names
  have been tried. -/
  | reserve (candidate : Text) (attempts : ℕ)
  | rename (destination : Text)
  | list
  | stat (fileNames : List Text) (entries : List (Text × ℚ))
  | unlink (fileNames : List Text)

/-- Where a call of `processEvents` is; events are kept with the names of their files. -/
inductive Call (Event : Type) where
  | start
  /-- At the head of the loop over the names. -/
  | loop (fileNames : List Text) (events : List (Text × Event))
  /-- A file is to be read. -/
  | read (fileName : Text) (fileNames : List Text) (events : List (Text × Event))
  /-- The file of an event is being moved. -/
  | archive (phase : Archiving) (fileName : Text) (event : Event) (fileNames : List Text)
      (events : List (Text × Event))
  | returned (events : List (Text × Event))

/-- The spool and its archive. -/
structure Directories (Content : Type) where
  events : Directory Content
  archive : Directory Content

variable (readEvent : Reader Content Event) (older : Text × Event → Text × Event → Bool)

/-- One file operation of `archiveEvent`, and where the call is after it. -/
inductive ArchiveStep (fileName : Text) (event : Event) (fileNames : List Text)
    (events : List (Text × Event)) :
    Directories Content → Archiving → Directories Content → Call Event → Prop
  | reserved {d candidate attempts} : d.archive candidate = none →
      ArchiveStep fileName event fileNames events d (.reserve candidate attempts) d
        (.archive (.rename candidate) fileName event fileNames events)
  | occupied {d candidate attempts} (stamp uuid : Text) : d.archive candidate ≠ none →
      attempts < 10 → isEventSpoolJsonFileName (uniqueName fileName stamp uuid) = true →
      ArchiveStep fileName event fileNames events d (.reserve candidate attempts) d
        (.archive (.reserve (uniqueName fileName stamp uuid) (attempts + 1)) fileName event
          fileNames events)
  /-- No name could be made, or as many as are tried were there. -/
  | unable {d candidate attempts} (stamp uuid : Text) : d.archive candidate ≠ none →
      (attempts < 10 → isEventSpoolJsonFileName (uniqueName fileName stamp uuid) = false) →
      ArchiveStep fileName event fileNames events d (.reserve candidate attempts) d
        (.loop fileNames events)
  | moved {d destination entry} : d.events fileName = some entry →
      ArchiveStep fileName event fileNames events d (.rename destination)
        { events := Function.update d.events fileName none
          archive := Function.update d.archive destination (some entry) }
        (.archive .list fileName event fileNames events)
  /-- Another call has moved the file. -/
  | gone {d destination} : d.events fileName = none →
      ArchiveStep fileName event fileNames events d (.rename destination) d
        (.loop fileNames events)
  | listed {d names} : Lists d.archive names →
      ArchiveStep fileName event fileNames events d .list d
        (.archive (.stat (listEventSpoolJsonFiles names (MAX_SAFE_INTEGER - 1)) []) fileName event
          fileNames events)
  | stated {d name names entries content mtimeMs} :
      d.archive name = some (.file content mtimeMs) →
      ArchiveStep fileName event fileNames events d (.stat (name :: names) entries) d
        (.archive (.stat names (entries ++ [(name, mtimeMs)])) fileName event fileNames events)
  | passed {d name names entries} :
      (∀ content mtimeMs, d.archive name ≠ some (.file content mtimeMs)) →
      ArchiveStep fileName event fileNames events d (.stat (name :: names) entries) d
        (.archive (.stat names entries) fileName event fileNames events)
  | decided {d entries} (now : ℚ) :
      ArchiveStep fileName event fileNames events d (.stat [] entries) d
        (.archive (.unlink (overdue now entries)) fileName event fileNames events)
  | unlinked {d name names content mtimeMs} : d.archive name = some (.file content mtimeMs) →
      ArchiveStep fileName event fileNames events d (.unlink (name :: names))
        { d with archive := Function.update d.archive name none }
        (.archive (.unlink names) fileName event fileNames events)
  | left {d name names} : (∀ content mtimeMs, d.archive name ≠ some (.file content mtimeMs)) →
      ArchiveStep fileName event fileNames events d (.unlink (name :: names)) d
        (.archive (.unlink names) fileName event fileNames events)
  | pruned {d} :
      ArchiveStep fileName event fileNames events d (.unlink []) d
        (.loop fileNames (events ++ [(fileName, event)]))

/-- One file operation of `processEvents`. -/
inductive CallStep :
    Directories Content → Call Event → Directories Content → Call Event → Prop
  | listed {d names} : Lists d.events names →
      CallStep d .start d (.loop (listEventSpoolJsonFiles names EVENT_SPOOL_MAX_PENDING_FILES) [])
  | stated {d fileName fileNames events content mtimeMs} :
      d.events fileName = some (.file content mtimeMs) →
      CallStep d (.loop (fileName :: fileNames) events) d (.read fileName fileNames events)
  | passed {d fileName fileNames events} :
      (∀ content mtimeMs, d.events fileName ≠ some (.file content mtimeMs)) →
      CallStep d (.loop (fileName :: fileNames) events) d (.loop fileNames events)
  | parsed {d fileName fileNames events content mtimeMs event} :
      d.events fileName = some (.file content mtimeMs) → readEvent content = some event →
      CallStep d (.read fileName fileNames events) d
        (.archive (.reserve fileName 0) fileName event fileNames events)
  /-- The file is not there any more, or holds no event. -/
  | skipped {d fileName fileNames events} :
      (∀ content mtimeMs, d.events fileName = some (.file content mtimeMs) →
        readEvent content = none) →
      CallStep d (.read fileName fileNames events) d (.loop fileNames events)
  | archived {d d' phase fileName event fileNames events call} :
      ArchiveStep fileName event fileNames events d phase d' call →
      CallStep d (.archive phase fileName event fileNames events) d' call
  | returned {d events} :
      CallStep d (.loop [] events) d (.returned (events.mergeSort older))

/-! ## The steps of a call of `writeEventSpoolJson` -/

/-- What is written, and under which name. -/
structure Write (Content : Type) where
  fileName : Text
  content : Content
  byteLength : ℕ
  maxPendingFiles : ℕ := EVENT_SPOOL_MAX_PENDING_FILES
  maxBytes : ℕ := EVENT_SPOOL_MAX_FILE_BYTES

/-- Where a call of `writeEventSpoolJson` is. -/
inductive Writing where
  | start
  | ready
  | written
  | failed
  deriving DecidableEq

/-- One file operation of `writeEventSpoolJson`. -/
inductive WriteStep (write : Write Content) :
    Directories Content → Writing → Directories Content → Writing → Prop
  | listed {d names} : Lists d.events names →
      (listEventSpoolJsonFiles names (write.maxPendingFiles + 1)).length < write.maxPendingFiles →
      write.byteLength ≤ write.maxBytes → isEventSpoolJsonFileName write.fileName = true →
      WriteStep write d .start d .ready
  | refused {d names} : Lists d.events names →
      write.maxPendingFiles ≤
          (listEventSpoolJsonFiles names (write.maxPendingFiles + 1)).length ∨
        write.maxBytes < write.byteLength ∨ isEventSpoolJsonFileName write.fileName = false →
      WriteStep write d .start d .failed
  | renamed {d} (mtimeMs : ℚ) :
      WriteStep write d .ready
        { d with events :=
            Function.update d.events write.fileName (some (.file write.content mtimeMs)) }
        .written

/-! ## Interleavings -/

/-- The directories, and where every call is. -/
structure State (Content Event : Type) extends Directories Content where
  calls : ℕ → Call Event
  writers : ℕ → Writing

/-- Whose file operation it is. -/
inductive Actor where
  | call (index : ℕ)
  | writer (index : ℕ)

/-- One file operation of one of the calls. -/
inductive Step (writes : ℕ → Write Content) :
    State Content Event → Actor → State Content Event → Prop
  | call {s : State Content Event} {index d call} :
      CallStep readEvent older s.toDirectories (s.calls index) d call →
      Step writes s (.call index)
        { s with toDirectories := d, calls := Function.update s.calls index call }
  | writer {s : State Content Event} {index d writing} :
      WriteStep (writes index) s.toDirectories (s.writers index) d writing →
      Step writes s (.writer index)
        { s with toDirectories := d, writers := Function.update s.writers index writing }

/-- The calls on one spool directory. -/
def spool (writes : ℕ → Write Content) : LTS (State Content Event) Actor where
  step := Step readEvent older writes

end EventSpool

end PulSeed
