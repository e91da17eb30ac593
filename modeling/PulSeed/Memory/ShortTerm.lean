import Mathlib.Algebra.Order.Ring.Rat
import PulSeed.Lib.Transition

/-!
# Short-term memory and its compression (`platform/knowledge/memory/`)

The short-term entries of a goal are rows of a table. `recordToShortTerm` loads them all and
replaces them with one more; `compressToLongTerm` loads them, has a language model distil the
expired ones into lessons, stores the lessons, and replaces the entries with the others. Each
access of the store is a step of its own, and the calls on one goal and data type interleave
in any order.

- `validateCompressionQuality`: what lets a compression go on.
- `Recording.access`, `Compression.access`: the next access of a call, which may fail.
- `step`: the calls on one goal and data type as a transition system.
-/

namespace PulSeed.Memory

/-! ## Data -/

/-- `ShortTermEntrySchema`, of one goal and data type: the id, the loop, and the values of
`data` that are read, where they are texts. -/
structure ShortTermEntry where
  id : String
  loop_number : ℕ
  status : Option String := none
  verdict : Option String := none
  outcome : Option String := none
  deriving DecidableEq

inductive LessonType
  | strategy_outcome | success_pattern | failure_pattern
  deriving DecidableEq

/-- A lesson as the language model gives it. -/
structure Lesson where
  type : LessonType
  context : String
  lesson : String
  relevance_tags : List String := []
  deriving DecidableEq

/-- `LessonEntrySchema`: a lesson with the loops that it is drawn from. -/
structure LessonEntry extends Lesson where
  source_loops : List String := []
  deriving DecidableEq

/-- The `quality_check` of a compression. -/
structure QualityCheck where
  passed : Bool
  failure_coverage_ratio : ℚ
  contradictions_found : ℕ
  deriving DecidableEq

/-- `CompressionResult`. -/
structure CompressionResult where
  entries_compressed : ℕ
  lessons_generated : ℕ
  statistics_updated : Bool
  quality_check : QualityCheck
  deriving DecidableEq

/-! ## Compression -/

/-- An entry about a failure. -/
def ShortTermEntry.isFailure (e : ShortTermEntry) : Bool :=
  e.status = some "failed" || e.verdict = some "fail" || e.outcome = some "failure"

/-- Lessons of opposite types that share a tag. -/
def LessonEntry.contradicts (a b : LessonEntry) : Bool :=
  ((a.type = .success_pattern && b.type = .failure_pattern) ||
    (a.type = .failure_pattern && b.type = .success_pattern)) &&
  a.relevance_tags.any (· ∈ b.relevance_tags)

/-- The pairs of lessons that contradict each other. -/
def contradictions : List LessonEntry → ℕ
  | [] => 0
  | a :: lessons => lessons.countP a.contradicts + contradictions lessons

/-- `validateCompressionQuality`. -/
def validateCompressionQuality (lessons : List LessonEntry) (entries : List ShortTermEntry) :
    QualityCheck :=
  let failureCount := entries.countP ShortTermEntry.isFailure
  { passed := failureCount = 0 || (failureCount : ℚ) / 2 ≤ lessons.length
    failure_coverage_ratio :=
      if failureCount = 0 then 1 else min 1 (lessons.length / ((failureCount : ℚ) / 2))
    contradictions_found := contradictions lessons }

/-- The greatest loop number of the entries. -/
def maxLoopNumber (entries : List ShortTermEntry) : ℕ :=
  entries.foldl (fun max e => Nat.max max e.loop_number) 0

/-- The entries whose loop exceeds the retention limit. -/
def expiredEntries (retentionLimit : ℕ) (entries : List ShortTermEntry) : List ShortTermEntry :=
  entries.filter fun e =>
    decide ((e.loop_number : ℤ) ≤ (maxLoopNumber entries : ℤ) - (retentionLimit : ℤ))

/-- The entries that a compression keeps. -/
def remainingEntries (retentionLimit : ℕ) (entries : List ShortTermEntry) :
    List ShortTermEntry :=
  let compressedIds := (expiredEntries retentionLimit entries).map (·.id)
  entries.filter fun e => e.id ∉ compressedIds

/-- The lessons with their sources. -/
def attachSources (expired : List ShortTermEntry) (lessons : List Lesson) : List LessonEntry :=
  lessons.map fun l => { l with source_loops := expired.map fun e => s!"loop_{e.loop_number}" }

/-- The result when no entry is expired. -/
def nothingExpired : CompressionResult where
  entries_compressed := 0
  lessons_generated := 0
  statistics_updated := false
  quality_check := { passed := true, failure_coverage_ratio := 1, contradictions_found := 0 }

/-- The result when the quality check does not pass. -/
def qualityFailed (check : QualityCheck) : CompressionResult where
  entries_compressed := 0
  lessons_generated := 0
  statistics_updated := false
  quality_check := { check with passed := false }

/-- The result when something throws. -/
def compressionFailed : CompressionResult where
  entries_compressed := 0
  lessons_generated := 0
  statistics_updated := false
  quality_check := { passed := false, failure_coverage_ratio := 0, contradictions_found := 0 }

/-- The result of a compression. -/
def compressed (expired : List ShortTermEntry) (lessons : List LessonEntry) :
    CompressionResult where
  entries_compressed := expired.length
  lessons_generated := lessons.length
  statistics_updated := true
  quality_check := validateCompressionQuality lessons expired

/-! ## The store -/

/-- A row is inserted, or replaces the one with its id. -/
def upsert (rows : List ShortTermEntry) (e : ShortTermEntry) : List ShortTermEntry :=
  rows.filter (·.id ≠ e.id) ++ [e]

/-- `replaceShortTermEntries`: the rows are deleted and the entries inserted in their order. -/
def replaceShortTermEntries (entries : List ShortTermEntry) : List ShortTermEntry :=
  entries.foldl upsert []

/-- The lessons that one call of `storeLessonsLongTerm` has stored, and what they are drawn
from. -/
structure StoredLessons where
  lessons : List LessonEntry
  sourceEntries : List ShortTermEntry
  deriving DecidableEq

/-- What is stored for the goal: the short-term entries of the data type, and the lessons. -/
structure Store where
  entries : List ShortTermEntry
  longTerm : List StoredLessons := []
  deriving DecidableEq

/-! ## Calls -/

/-- The access that a call of `recordToShortTerm` makes next, or its end. -/
inductive RecordPhase
  | load
  | append (entries : List ShortTermEntry)
  /-- `updateIndex`. -/
  | index
  | resolved
  | rejected
  deriving DecidableEq

/-- A call of `recordToShortTerm`, with the entry that it has made. -/
structure Recording where
  entry : ShortTermEntry
  phase : RecordPhase := .load
  deriving DecidableEq

/-- The next access of a recording, which may fail. -/
def Recording.access (r : Recording) (store : Store) : Bool → Option (Store × Recording)
  | true =>
    match r.phase with
    | .load => some (store, { r with phase := .append store.entries })
    | .append entries => some (
        { store with entries := replaceShortTermEntries (entries ++ [r.entry]) },
        { r with phase := .index })
    | .index => some (store, { r with phase := .resolved })
    | .resolved | .rejected => none
  | false =>
    match r.phase with
    | .load | .append _ | .index => some (store, { r with phase := .rejected })
    | .resolved | .rejected => none

/-- What a call of `compressToLongTerm` does next, or its end. -/
inductive CompressionPhase
  | load
  /-- The language model extracts patterns and distils lessons. -/
  | distill (allEntries : List ShortTermEntry)
  /-- The lessons are stored, which is one transaction. -/
  | store (allEntries : List ShortTermEntry) (lessons : List LessonEntry)
  /-- The lessons are indexed and the statistics updated. -/
  | account (allEntries : List ShortTermEntry) (lessons : List LessonEntry)
  | purge (allEntries : List ShortTermEntry) (lessons : List LessonEntry)
  /-- `removeFromIndex`. -/
  | unindex (allEntries : List ShortTermEntry) (lessons : List LessonEntry)
  | resolved (result : CompressionResult)
  | rejected
  deriving DecidableEq

/-- A call of `compressToLongTerm`. `changed` marks that it has changed the short-term
entries. -/
structure Compression where
  phase : CompressionPhase := .load
  changed : Bool := false
  deriving DecidableEq

/-- The next access of a compression, which may fail. The load is outside of the `try`. -/
def Compression.access (retentionLimit : ℕ) (c : Compression) (store : Store) :
    Bool → Option (Store × Compression)
  | true =>
    match c.phase with
    | .load =>
      if expiredEntries retentionLimit store.entries = [] then
        some (store, { c with phase := .resolved nothingExpired })
      else some (store, { c with phase := .distill store.entries })
    | .store allEntries lessons =>
      let stored := { lessons, sourceEntries := expiredEntries retentionLimit allEntries }
      some ({ store with longTerm := store.longTerm ++ [stored] },
        { c with phase := .account allEntries lessons })
    | .account allEntries lessons => some (store, { c with phase := .purge allEntries lessons })
    | .purge allEntries lessons =>
      let entries := replaceShortTermEntries (remainingEntries retentionLimit allEntries)
      some ({ store with entries },
        { phase := .unindex allEntries lessons, changed := entries ≠ store.entries })
    | .unindex allEntries lessons =>
      some (store,
        { c with phase := .resolved (compressed (expiredEntries retentionLimit allEntries) lessons) })
    | .distill _ | .resolved _ | .rejected => none
  | false =>
    match c.phase with
    | .load => some (store, { c with phase := .rejected })
    | .store .. | .account .. | .purge .. | .unindex .. =>
      some (store, { c with phase := .resolved compressionFailed })
    | .distill _ | .resolved _ | .rejected => none

/-- The language model is done, with lessons or not: they are stored if they pass the quality
check. -/
def Compression.distilled (retentionLimit : ℕ) (c : Compression) (answer : Option (List Lesson)) :
    Option Compression :=
  match c.phase with
  | .distill allEntries =>
    match answer with
    | none => some { c with phase := .resolved compressionFailed }
    | some rawLessons =>
      let expired := expiredEntries retentionLimit allEntries
      let lessons := attachSources expired rawLessons
      let check := validateCompressionQuality lessons expired
      if check.passed then some { c with phase := .store allEntries lessons }
      else some { c with phase := .resolved (qualityFailed check) }
  | _ => none

/-! ## The system -/

/-- The store, and the calls so far. -/
structure State where
  store : Store
  recordings : List Recording := []
  compressions : List Compression := []
  deriving DecidableEq

inductive Event
  /-- A call of `recordToShortTerm`, with the entry that it makes. -/
  | record (entry : ShortTermEntry)
  /-- A recording makes its next access, which fails or not. -/
  | recordAccess (n : ℕ) (ok : Bool)
  /-- A call of `compressToLongTerm`. -/
  | compress
  | compressAccess (n : ℕ) (ok : Bool)
  /-- The language model is done for a compression. -/
  | distilled (n : ℕ) (answer : Option (List Lesson))

/-- A step of the calls on one goal and data type. The entry of a recording has an id that
`generateId` has not made before. -/
def step (retentionLimit : ℕ) (s : State) : Event → Option State
  | .record entry =>
    if ∀ r ∈ s.recordings, r.entry.id ≠ entry.id then
      some { s with recordings := s.recordings ++ [{ entry }] }
    else none
  | .recordAccess n ok =>
    (s.recordings[n]?).bind fun r => (r.access s.store ok).map fun (store, r) =>
      { s with store, recordings := s.recordings.set n r }
  | .compress => some { s with compressions := s.compressions ++ [{}] }
  | .compressAccess n ok =>
    (s.compressions[n]?).bind fun c => (c.access retentionLimit s.store ok).map fun (store, c) =>
      { s with store, compressions := s.compressions.set n c }
  | .distilled n answer =>
    (s.compressions[n]?).bind fun c => (c.distilled retentionLimit answer).map fun c =>
      { s with compressions := s.compressions.set n c }

/-- The calls on one goal and data type. -/
def memory (retentionLimit : ℕ) : LTS State Event := .ofPartial (step retentionLimit)

/-- Before the calls, with entries that earlier ones have recorded. -/
def initial (entries : List ShortTermEntry) : State where
  store := { entries }
  recordings := entries.map fun entry => { entry, phase := .resolved }

end PulSeed.Memory
