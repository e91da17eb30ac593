import PulSeed.Lib.Text
import PulSeed.Memory.Compression
import Mathlib.Data.Rat.Floor
import Mathlib.Tactic.Linarith

/-!
# The retention policy of short-term memory (`memory-compression.ts`)

`applyRetentionPolicy` computes an effective limit for each data type: the base limit of the
goal, longer when a dimension of the entries is unsatisfied, shorter when one is marked for
early compression. It compresses a data type when its loops span that limit. The compression
itself does not know the effective limit and purges what the base limit has expired.

- `RespectsDelay`: what the policy is to purge, by the effective limit.
- `applyRetentionPolicy_respects_iff`: **it does exactly when no entry of a data type that is
  compressed stands between the two limits.**
-/

namespace PulSeed.Memory

/-! ## Data -/

/-- A short-term entry with its dimensions. -/
structure RetainedEntry extends ShortTermEntry where
  dimensions : List String := []
  deriving DecidableEq

/-- `RetentionConfig`; the overrides in the order of `Object.entries`. -/
structure RetentionConfig where
  default_retention_loops : ℕ := 100
  goal_type_overrides : List (Text × ℕ)

/-- `MemoryDataType`. -/
inductive MemoryDataType
  | experience_log | observation | strategy | task | knowledge
  deriving DecidableEq

/-- What `MemoryCompressionDeps` gives to the policy: `driveScorer` by its dissatisfaction
scores. -/
structure MemoryCompressionDeps where
  config : RetentionConfig
  driveScorer : Option (String → Number) := none
  earlyCompressionCandidates : Text → Option (List String) := fun _ => none

/-- The rows of a goal and data type. The id is the primary key of the table. -/
structure Rows where
  entries : List RetainedEntry
  nodup : (entries.map (·.id)).Nodup

/-! ## The limits -/

def getRetentionLimit (config : RetentionConfig) (goalId : Text) : ℕ :=
  match config.goal_type_overrides.find? fun o => goalId.startsWith o.1 || goalId.includes o.1 with
  | some o => o.2
  | none => config.default_retention_loops

def compressionDelay (deps : MemoryCompressionDeps) (goalId : Text) (dimension : String) : ℚ :=
  let retentionPeriod : ℚ := getRetentionLimit deps.config goalId
  match deps.driveScorer with
  | none => retentionPeriod
  | some getDissatisfactionScore =>
    let dissatisfaction := getDissatisfactionScore dimension
    if (Number.finite (7 / 10)).lt dissatisfaction then retentionPeriod * 2
    else if (Number.finite (2 / 5)).lt dissatisfaction then retentionPeriod * (3 / 2)
    else retentionPeriod

/-- `Math.max` of numbers, of which there is one. -/
def maximum : List ℚ → ℚ
  | [] => 0
  | q :: qs => qs.foldl max q

/-- The dimensions present in the entries. -/
def allDimensions (entries : List RetainedEntry) : List String :=
  (entries.flatMap (·.dimensions)).eraseDups

/-- The limit that `applyRetentionPolicy` computes for the entries of a data type. -/
def effectiveRetentionLimit (deps : MemoryCompressionDeps) (goalId : Text)
    (entries : List RetainedEntry) : ℚ :=
  let dims := allDimensions entries
  let base : ℚ := getRetentionLimit deps.config goalId
  let delayed := if dims ≠ [] ∧ deps.driveScorer.isSome then
      maximum (dims.map (compressionDelay deps goalId))
    else base
  match deps.earlyCompressionCandidates goalId with
  | some earlyDims =>
    if dims.any fun d => earlyDims.contains d then min delayed ⌊base * (1 / 2)⌋ else delayed
  | none => delayed

/-! ## Compression -/

/-- The greatest loop number of the entries. -/
def maxLoop (entries : List RetainedEntry) : ℕ := maxLoopNumber (entries.map (·.toShortTermEntry))

/-- The least loop number, infinite when there is no entry. -/
def minLoop (entries : List RetainedEntry) : Number :=
  entries.foldl (fun min e => min.min (.finite e.loop_number)) .posInf

/-- The entries that the base limit has expired. -/
def expired (retentionLimit : ℕ) (entries : List RetainedEntry) : List RetainedEntry :=
  entries.filter fun e =>
    decide ((e.loop_number : ℤ) ≤ (maxLoop entries : ℤ) - (retentionLimit : ℤ))

/-- What the language model and the store make of one compression. -/
structure Attempt where
  /-- The distilled lessons; without them a call of the model has thrown. -/
  rawLessons : Option (List Lesson)
  /-- The lessons are stored and the statistics updated. -/
  stored : Bool := true
  /-- The short-term entries are replaced. -/
  replaced : Bool := true
  /-- `removeFromIndex` is done. -/
  unindexed : Bool := true

/-- `compressToLongTerm`: its result, and the entries that it leaves. -/
def compressToLongTerm (retentionLimit : ℕ) (allEntries : List RetainedEntry)
    (attempt : Attempt) : CompressionResult × List RetainedEntry :=
  let expiredEntries := expired retentionLimit allEntries
  let sources := expiredEntries.map (·.toShortTermEntry)
  if expiredEntries = [] then (nothingExpired, allEntries)
  else match attempt.rawLessons with
    | none => (compressionFailed, allEntries)
    | some rawLessons =>
      let lessons := attachSources sources rawLessons
      let qualityCheck := validateCompressionQuality lessons sources
      if qualityCheck.passed = false then (qualityFailed qualityCheck, allEntries)
      else if attempt.stored = false ∨ attempt.replaced = false then
        (compressionFailed, allEntries)
      else
        let compressedIds := expiredEntries.map (·.id)
        let remaining := allEntries.filter fun e => e.id ∉ compressedIds
        if attempt.unindexed = false then (compressionFailed, remaining)
        else (compressed sources lessons, remaining)

theorem compressToLongTerm_sublist (retentionLimit : ℕ) (allEntries : List RetainedEntry)
    (attempt : Attempt) :
    (compressToLongTerm retentionLimit allEntries attempt).2.Sublist allEntries := by
  unfold compressToLongTerm
  dsimp only
  split
  · exact .refl _
  · split
    · exact .refl _
    · split
      · exact .refl _
      · split
        · exact .refl _
        · split
          · exact List.filter_sublist
          · exact List.filter_sublist

/-! ## The policy -/

/-- The loops of the entries span the effective limit. -/
def isTriggered (deps : MemoryCompressionDeps) (goalId : Text) (entries : List RetainedEntry) :
    Bool :=
  (Number.finite (effectiveRetentionLimit deps goalId entries)).le
    ((Number.finite (maxLoop entries)).sub (minLoop entries))

/-- What the policy does to one data type. -/
def applyToDataType (deps : MemoryCompressionDeps) (goalId : Text) (rows : Rows)
    (attempt : Attempt) : Option CompressionResult × Rows :=
  if rows.entries = [] then (none, rows)
  else if isTriggered deps goalId rows.entries then
    let limit := getRetentionLimit deps.config goalId
    (some (compressToLongTerm limit rows.entries attempt).1,
      { entries := (compressToLongTerm limit rows.entries attempt).2
        nodup := rows.nodup.sublist
          ((compressToLongTerm_sublist limit rows.entries attempt).map _) })
  else (none, rows)

/-- What is stored for a goal. -/
abbrev ShortTerm := MemoryDataType → Rows

def dataTypes : List MemoryDataType :=
  [.experience_log, .observation, .strategy, .task, .knowledge]

/-- `applyRetentionPolicy`: the results with their data types, and what is stored then. -/
def applyRetentionPolicy (deps : MemoryCompressionDeps) (goalId : Text) (stored : ShortTerm)
    (attempts : MemoryDataType → Attempt) :
    List (MemoryDataType × CompressionResult) × ShortTerm :=
  dataTypes.foldl (fun s dataType =>
    let applied := applyToDataType deps goalId (s.2 dataType) (attempts dataType)
    (s.1 ++ (applied.1.map fun result => (dataType, result)).toList,
      Function.update s.2 dataType applied.2)) ([], stored)

/-! ## What the policy is to purge -/

/-- How far an entry is from the highest loop. -/
def distance (entries : List RetainedEntry) (e : RetainedEntry) : ℚ :=
  (maxLoop entries : ℚ) - e.loop_number

/-- The effective limit of a data type. -/
def limitOf (deps : MemoryCompressionDeps) (goalId : Text) (rows : Rows) : ℚ :=
  effectiveRetentionLimit deps goalId rows.entries

/-- Entries are purged by the effective limit: none below it, and all from it on when their
compression passes its quality check. -/
structure RespectsDelay (deps : MemoryCompressionDeps) (goalId : Text) (stored : ShortTerm)
    (results : List (MemoryDataType × CompressionResult)) (stored' : ShortTerm) : Prop where
  only : ∀ dataType, ∀ e ∈ (stored dataType).entries, e ∉ (stored' dataType).entries →
    limitOf deps goalId (stored dataType) ≤ distance (stored dataType).entries e
  all : ∀ dataType result, (dataType, result) ∈ results → result.quality_check.passed = true →
    ∀ e ∈ (stored dataType).entries,
      limitOf deps goalId (stored dataType) ≤ distance (stored dataType).entries e →
      e ∉ (stored' dataType).entries

/-- The lessons pass the quality check, and they and the remaining entries are stored. -/
def Attempt.Succeeds (retentionLimit : ℕ) (entries : List RetainedEntry) (attempt : Attempt) :
    Prop :=
  ∃ rawLessons, attempt.rawLessons = some rawLessons ∧
    (validateCompressionQuality
      (attachSources ((expired retentionLimit entries).map (·.toShortTermEntry)) rawLessons)
      ((expired retentionLimit entries).map (·.toShortTermEntry))).passed = true ∧
    attempt.stored = true ∧ attempt.replaced = true

/-- Where an entry reaches the effective limit: a compression that succeeds finds no entry
that only the base limit has expired; and one that passes, by success or because the base
limit has expired nothing, finds none that only the effective limit has. -/
def LimitsAgree (deps : MemoryCompressionDeps) (goalId : Text) (rows : Rows)
    (attempt : Attempt) : Prop :=
  let base := getRetentionLimit deps.config goalId
  (∃ e ∈ rows.entries, limitOf deps goalId rows ≤ distance rows.entries e) →
    (attempt.Succeeds base rows.entries → ∀ e ∈ rows.entries,
      ¬ ((base : ℚ) ≤ distance rows.entries e ∧
        distance rows.entries e < limitOf deps goalId rows)) ∧
    (expired base rows.entries = [] ∨
        attempt.Succeeds base rows.entries ∧ attempt.unindexed = true →
      ∀ e ∈ rows.entries, ¬ (limitOf deps goalId rows ≤ distance rows.entries e ∧
        distance rows.entries e < base))

/-! ## The trigger -/

section Trigger

variable {deps : MemoryCompressionDeps} {goalId : Text} {entries : List RetainedEntry}

/-- The least loop number is the one of an entry. -/
theorem foldl_min_spec (a : RetainedEntry) (entries : List RetainedEntry) :
    ∃ e ∈ a :: entries,
      entries.foldl (fun min e => min.min (.finite e.loop_number)) (.finite a.loop_number) =
        Number.finite e.loop_number ∧
      ∀ e' ∈ a :: entries, e.loop_number ≤ e'.loop_number := by
  induction entries generalizing a with
  | nil => exact ⟨a, List.mem_cons_self, rfl, by simp⟩
  | cons b entries ih =>
    rw [List.foldl_cons, Number.min_finite]
    by_cases hab : a.loop_number ≤ b.loop_number
    · obtain ⟨e, he, heq, hle⟩ := ih a
      rw [min_eq_left (by exact_mod_cast hab)]
      refine ⟨e, ?_, heq, ?_⟩
      · exact (List.mem_cons.mp he).elim (fun h => h ▸ List.mem_cons_self)
          fun h => List.mem_cons_of_mem _ (List.mem_cons_of_mem _ h)
      · have hea := hle a List.mem_cons_self
        rw [List.forall_mem_cons, List.forall_mem_cons]
        exact ⟨hea, hea.trans hab, fun e' he' => hle e' (List.mem_cons_of_mem _ he')⟩
    · obtain ⟨e, he, heq, hle⟩ := ih b
      rw [min_eq_right (by exact_mod_cast le_of_not_ge hab)]
      refine ⟨e, List.mem_cons_of_mem _ he, heq, ?_⟩
      have heb := hle b List.mem_cons_self
      rw [List.forall_mem_cons]
      exact ⟨heb.trans (le_of_not_ge hab), hle⟩

theorem minLoop_spec (h : entries ≠ []) : ∃ e ∈ entries, minLoop entries = .finite e.loop_number ∧
    ∀ e' ∈ entries, e.loop_number ≤ e'.loop_number := by
  obtain ⟨a, rest, rfl⟩ := List.exists_cons_of_ne_nil h
  exact foldl_min_spec a rest

/-- **Compression is triggered when an entry reaches the effective limit.** -/
theorem isTriggered_iff (h : entries ≠ []) : isTriggered deps goalId entries = true ↔
    ∃ e ∈ entries, effectiveRetentionLimit deps goalId entries ≤ distance entries e := by
  obtain ⟨least, hmem, hleast, hle⟩ := minLoop_spec h
  unfold isTriggered
  rw [hleast, Number.sub_finite, Number.le_finite, decide_eq_true_eq]
  constructor
  · exact fun hspan => ⟨least, hmem, hspan⟩
  · rintro ⟨e, he, hreach⟩
    have hloop : (least.loop_number : ℚ) ≤ e.loop_number := by exact_mod_cast hle e he
    unfold distance at hreach
    linarith

end Trigger

/-! ## One compression -/

section Compress

variable {retentionLimit : ℕ} {entries : List RetainedEntry} {attempt : Attempt}
  {e : RetainedEntry}

theorem mem_expired : e ∈ expired retentionLimit entries ↔
    e ∈ entries ∧ (retentionLimit : ℚ) ≤ distance entries e := by
  unfold expired distance
  rw [List.mem_filter, decide_eq_true_eq, ← Int.cast_le (R := ℚ)]
  push_cast
  refine and_congr_right fun _ => ?_
  constructor <;> intro h <;> linarith

/-- **What a compression does**: it purges what is expired when it succeeds, and passes then,
or when nothing is expired. -/
theorem compressToLongTerm_cases (retentionLimit : ℕ) (entries : List RetainedEntry)
    (attempt : Attempt) :
    let outcome := compressToLongTerm retentionLimit entries attempt
    let expiredEntries := expired retentionLimit entries
    (expiredEntries = [] ∧ outcome = (nothingExpired, entries)) ∨
    (expiredEntries ≠ [] ∧ ¬ attempt.Succeeds retentionLimit entries ∧ outcome.2 = entries ∧
      outcome.1.quality_check.passed = false) ∨
    (expiredEntries ≠ [] ∧ attempt.Succeeds retentionLimit entries ∧
      outcome.2 = entries.filter (fun e => e.id ∉ expiredEntries.map (·.id)) ∧
      outcome.1.quality_check.passed = attempt.unindexed) := by
  intro outcome expiredEntries
  by_cases hexpired : expiredEntries = []
  · exact .inl ⟨hexpired, if_pos hexpired⟩
  refine .inr ?_
  have houtcome : outcome = _ := if_neg hexpired
  cases hraw : attempt.rawLessons with
  | none =>
    rw [hraw] at houtcome
    refine .inl ⟨hexpired, ?_, by rw [houtcome], by rw [houtcome]; rfl⟩
    rintro ⟨rawLessons, heq, -⟩
    exact nomatch hraw.symm.trans heq
  | some rawLessons =>
    rw [hraw] at houtcome
    dsimp only at houtcome
    split at houtcome
    · next hcheck =>
      refine .inl ⟨hexpired, ?_, by rw [houtcome], by rw [houtcome]; rfl⟩
      rintro ⟨_, heq, hpassed, -⟩
      cases hraw.symm.trans heq
      exact absurd hpassed (Bool.eq_false_iff.mp hcheck)
    · next hcheck =>
      split at houtcome
      · next hwrites =>
        refine .inl ⟨hexpired, ?_, by rw [houtcome], by rw [houtcome]; rfl⟩
        rintro ⟨_, -, -, hstored, hreplaced⟩
        rw [hstored, hreplaced] at hwrites
        exact absurd hwrites (by decide)
      · next hwrites =>
        rw [not_or, Bool.not_eq_false, Bool.not_eq_false] at hwrites
        rw [Bool.not_eq_false] at hcheck
        refine .inr ⟨hexpired, ⟨rawLessons, hraw, hcheck, hwrites⟩, ?_⟩
        split at houtcome
        · next hunindexed =>
          rw [houtcome, hunindexed]
          exact ⟨rfl, rfl⟩
        · next hunindexed =>
          rw [houtcome]
          exact ⟨rfl, hcheck.trans (Bool.not_eq_false _ ▸ hunindexed).symm⟩

/-- A compression that succeeds purges just what the base limit has expired. -/
theorem not_mem_compressToLongTerm_iff (hnodup : (entries.map (·.id)).Nodup) (he : e ∈ entries) :
    e ∉ (compressToLongTerm retentionLimit entries attempt).2 ↔
      attempt.Succeeds retentionLimit entries ∧ (retentionLimit : ℚ) ≤ distance entries e := by
  have hmem : e ∈ expired retentionLimit entries ↔ (retentionLimit : ℚ) ≤ distance entries e := by
    rw [mem_expired, and_iff_right he]
  rw [← hmem]
  obtain ⟨hexpired, houtcome⟩ | ⟨-, hfails, houtcome, -⟩ | ⟨-, hsucceeds, houtcome, -⟩ :=
    compressToLongTerm_cases retentionLimit entries attempt
  · rw [houtcome, hexpired]
    exact ⟨fun h => absurd he h, nofun⟩
  · rw [houtcome]
    exact ⟨fun h => absurd he h, fun h => absurd h.1 hfails⟩
  · rw [houtcome, List.mem_filter, decide_eq_true_eq, and_iff_right he, not_not,
      and_iff_right hsucceeds]
    constructor
    · intro hid
      obtain ⟨e', he', heq⟩ := List.mem_map.mp hid
      exact List.inj_on_of_nodup_map hnodup (mem_expired.mp he').1 he heq ▸ he'
    · exact fun h => List.mem_map_of_mem h

theorem passed_compressToLongTerm_iff :
    (compressToLongTerm retentionLimit entries attempt).1.quality_check.passed = true ↔
      expired retentionLimit entries = [] ∨
        attempt.Succeeds retentionLimit entries ∧ attempt.unindexed = true := by
  obtain ⟨hexpired, houtcome⟩ | ⟨hexpired, hfails, -, hpassed⟩ | ⟨hexpired, hsucceeds, -, hpassed⟩ :=
    compressToLongTerm_cases retentionLimit entries attempt
  · rw [houtcome]
    exact ⟨fun _ => .inl hexpired, fun _ => rfl⟩
  · rw [hpassed, or_iff_right hexpired]
    exact ⟨nofun, fun h => absurd h.1 hfails⟩
  · rw [hpassed, or_iff_right hexpired, and_iff_right hsucceeds]

end Compress

/-! ## One data type -/

section DataType

variable {deps : MemoryCompressionDeps} {goalId : Text} {rows : Rows} {attempt : Attempt}

/-- `RespectsDelay`, of one data type. -/
structure TypeRespects (deps : MemoryCompressionDeps) (goalId : Text) (rows : Rows)
    (applied : Option CompressionResult × Rows) : Prop where
  only : ∀ e ∈ rows.entries, e ∉ applied.2.entries →
    limitOf deps goalId rows ≤ distance rows.entries e
  all : ∀ result, applied.1 = some result → result.quality_check.passed = true →
    ∀ e ∈ rows.entries, limitOf deps goalId rows ≤ distance rows.entries e →
      e ∉ applied.2.entries

/-- A data type that is not compressed is kept as it is. -/
theorem typeRespects_kept : TypeRespects deps goalId rows (none, rows) :=
  ⟨fun _ he hpurged => absurd he hpurged, nofun⟩

/-- **The two limits agree on one data type.** -/
theorem applyToDataType_respects_iff :
    TypeRespects deps goalId rows (applyToDataType deps goalId rows attempt) ↔
      LimitsAgree deps goalId rows attempt := by
  by_cases hempty : rows.entries = []
  · have happlied : applyToDataType deps goalId rows attempt = (none, rows) := if_pos hempty
    rw [happlied]
    refine ⟨fun _ hreach => ?_, fun _ => typeRespects_kept⟩
    obtain ⟨e, he, -⟩ := hreach
    rw [hempty] at he
    cases he
  have hcompress : applyToDataType deps goalId rows attempt = _ := if_neg hempty
  by_cases htriggered : isTriggered deps goalId rows.entries = true
  · rw [if_pos htriggered] at hcompress
    rw [hcompress]
    have hreach := (isTriggered_iff hempty).mp htriggered
    constructor
    · intro h _
      refine ⟨fun hsucceeds e he hbetween => ?_, fun hpassed e he hbetween => ?_⟩
      · have hpurged := (not_mem_compressToLongTerm_iff rows.nodup he).mpr
          ⟨hsucceeds, hbetween.1⟩
        exact absurd (h.only e he hpurged) (not_le.mpr hbetween.2)
      · have hpurged := h.all _ rfl (passed_compressToLongTerm_iff.mpr hpassed) e he hbetween.1
        have hbase := ((not_mem_compressToLongTerm_iff rows.nodup he).mp hpurged).2
        exact absurd hbase (not_le.mpr hbetween.2)
    · intro h
      obtain ⟨hshort, hlong⟩ := h hreach
      constructor
      · intro e he hpurged
        obtain ⟨hsucceeds, hbase⟩ := (not_mem_compressToLongTerm_iff rows.nodup he).mp hpurged
        exact not_lt.mp fun hlt => hshort hsucceeds e he ⟨hbase, hlt⟩
      · intro result hresult hpassed e he hlimit
        cases hresult
        have hpassed := passed_compressToLongTerm_iff.mp hpassed
        have hbase : ∀ e ∈ rows.entries, limitOf deps goalId rows ≤ distance rows.entries e →
            (getRetentionLimit deps.config goalId : ℚ) ≤ distance rows.entries e :=
          fun e he hlimit => not_lt.mp fun hlt => hlong hpassed e he ⟨hlimit, hlt⟩
        refine (not_mem_compressToLongTerm_iff rows.nodup he).mpr ⟨?_, hbase e he hlimit⟩
        refine (hpassed.resolve_left fun hexpired => ?_).1
        -- the entry is one that the base limit has expired
        have hmem := mem_expired.mpr ⟨he, hbase e he hlimit⟩
        rw [hexpired] at hmem
        cases hmem
  · rw [if_neg htriggered] at hcompress
    rw [hcompress]
    refine ⟨fun _ hreach => ?_, fun _ => typeRespects_kept⟩
    exact absurd ((isTriggered_iff hempty).mpr hreach) htriggered

end DataType

/-! ## All data types -/

section Policy

variable (deps : MemoryCompressionDeps) (goalId : Text) (attempts : MemoryDataType → Attempt)

/-- The loop of the policy, over some data types. -/
def applyFrom (s : List (MemoryDataType × CompressionResult) × ShortTerm) (types : List MemoryDataType) :
    List (MemoryDataType × CompressionResult) × ShortTerm :=
  types.foldl (fun s dataType =>
    let applied := applyToDataType deps goalId (s.2 dataType) (attempts dataType)
    (s.1 ++ (applied.1.map fun result => (dataType, result)).toList,
      Function.update s.2 dataType applied.2)) s

/-- **Each data type is treated once, as it was stored.** -/
theorem applyFrom_spec {types : List MemoryDataType} (hnodup : types.Nodup)
    (s : List (MemoryDataType × CompressionResult) × ShortTerm) :
    (∀ dataType, (applyFrom deps goalId attempts s types).2 dataType =
      if dataType ∈ types then
        (applyToDataType deps goalId (s.2 dataType) (attempts dataType)).2
      else s.2 dataType) ∧
    ∀ dataType result, (dataType, result) ∈ (applyFrom deps goalId attempts s types).1 ↔
      (dataType, result) ∈ s.1 ∨ dataType ∈ types ∧
        (applyToDataType deps goalId (s.2 dataType) (attempts dataType)).1 = some result := by
  induction types generalizing s with
  | nil => exact ⟨fun _ => (if_neg List.not_mem_nil).symm, fun _ _ => by simp [applyFrom]⟩
  | cons first types ih =>
    obtain ⟨hfirst, hnodup⟩ := List.nodup_cons.mp hnodup
    obtain ⟨hstored, hresults⟩ := ih hnodup
      (s.1 ++ ((applyToDataType deps goalId (s.2 first) (attempts first)).1.map
          fun result => (first, result)).toList,
        Function.update s.2 first
          (applyToDataType deps goalId (s.2 first) (attempts first)).2)
    constructor
    · intro dataType
      refine (hstored dataType).trans ?_
      by_cases hdata : dataType = first
      · subst hdata
        rw [if_neg hfirst, if_pos List.mem_cons_self]
        exact Function.update_self ..
      · simp only [List.mem_cons, hdata, false_or, Function.update_of_ne hdata]
    · intro dataType result
      refine (hresults dataType result).trans ?_
      by_cases hdata : dataType = first
      · subst hdata
        simp [hfirst]
      · have hother : ¬ first = dataType := Ne.symm hdata
        simp [hdata, hother]

theorem applyRetentionPolicy_spec (stored : ShortTerm) :
    (∀ dataType, (applyRetentionPolicy deps goalId stored attempts).2 dataType =
      (applyToDataType deps goalId (stored dataType) (attempts dataType)).2) ∧
    ∀ dataType result, (dataType, result) ∈ (applyRetentionPolicy deps goalId stored attempts).1 ↔
      (applyToDataType deps goalId (stored dataType) (attempts dataType)).1 = some result := by
  have hall : ∀ dataType, dataType ∈ dataTypes := by
    intro dataType
    cases dataType <;> decide
  obtain ⟨hstored, hresults⟩ := applyFrom_spec deps goalId attempts
    (show dataTypes.Nodup by decide) ([], stored)
  refine ⟨fun dataType => (hstored dataType).trans (if_pos (hall dataType)),
    fun dataType result => (hresults dataType result).trans ?_⟩
  simp [hall]

/-- **When retention respects the effective delay.** -/
theorem applyRetentionPolicy_respects_iff (stored : ShortTerm) :
    RespectsDelay deps goalId stored (applyRetentionPolicy deps goalId stored attempts).1
        (applyRetentionPolicy deps goalId stored attempts).2 ↔
      ∀ dataType, LimitsAgree deps goalId (stored dataType) (attempts dataType) := by
  obtain ⟨hstored, hresults⟩ := applyRetentionPolicy_spec deps goalId attempts stored
  have htypes : RespectsDelay deps goalId stored
        (applyRetentionPolicy deps goalId stored attempts).1
        (applyRetentionPolicy deps goalId stored attempts).2 ↔
      ∀ dataType, TypeRespects deps goalId (stored dataType)
        (applyToDataType deps goalId (stored dataType) (attempts dataType)) := by
    constructor
    · intro h dataType
      constructor
      · intro e he hpurged
        exact h.only dataType e he (hstored dataType ▸ hpurged)
      · intro result hresult hpassed e he hlimit
        have hpurged := h.all dataType result ((hresults dataType result).mpr hresult) hpassed e he
          hlimit
        rwa [hstored dataType] at hpurged
    · intro h
      constructor
      · intro dataType e he hpurged
        rw [hstored dataType] at hpurged
        exact (h dataType).only e he hpurged
      · intro dataType result hresult hpassed e he hlimit
        rw [hstored dataType]
        exact (h dataType).all result ((hresults dataType result).mp hresult) hpassed e he hlimit
  rw [htypes]
  exact forall_congr' fun dataType => applyToDataType_respects_iff

end Policy

/-! ## A purge below the effective limit -/

/-- A base limit of four loops, doubled by an unsatisfied dimension. -/
def delayedDeps : MemoryCompressionDeps where
  config := { default_retention_loops := 4, goal_type_overrides := [] }
  driveScorer := some fun _ => .finite (9 / 10)

def loggedEntry (id : String) (loop_number : ℕ) : RetainedEntry where
  id := id
  loop_number := loop_number
  dimensions := ["dim1"]

/-- Entries of the loops 0, 3 and 8, in the experience log. -/
def loggedEntries : ShortTerm
  | .experience_log => {
      entries := [loggedEntry "a" 0, loggedEntry "b" 3, loggedEntry "c" 8]
      nodup := by decide }
  | _ => { entries := [], nodup := List.nodup_nil }

def oneLesson : Attempt where
  rawLessons := some [{ type := .success_pattern, context := "", lesson := "" }]

/-- The entry of loop 3 is five loops back, the effective limit is eight, and it is purged. -/
theorem purged_below_limit :
    ¬ RespectsDelay delayedDeps (utf16 "goal-a") loggedEntries
      (applyRetentionPolicy delayedDeps (utf16 "goal-a") loggedEntries fun _ => oneLesson).1
      (applyRetentionPolicy delayedDeps (utf16 "goal-a") loggedEntries fun _ => oneLesson).2 := by
  intro h
  have hmem : loggedEntry "b" 3 ∈ (loggedEntries .experience_log).entries := by decide
  have honly := h.only .experience_log (loggedEntry "b" 3) hmem (by decide +kernel)
  revert honly
  decide +kernel

end PulSeed.Memory
