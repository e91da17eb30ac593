import Mathlib.Algebra.Order.Ring.Rat
import Mathlib.Data.String.Basic
import PulSeed.Lib.EraseDups
import PulSeed.Lib.LastWins
import PulSeed.Lib.ObjectMap

/-!
# Artifact retention (`runtime/store/artifact-retention.ts`)

The evidence of a goal refers to artifacts, from its entries and from the candidates of its
entries. All references with one key are merged into a record, which is classified: the cleanup
plan protects it, or lets it be retained, reviewed or deleted.

- `mergeArtifactRecords`: two references to one artifact.
- `classifyArtifactRecord`: the decision about a record.
- `cleanupPlan`: the decisions of `summarizeArtifactRetention`.
-/

namespace PulSeed.ArtifactRetention

/-! ## Data -/

/-- `RuntimeArtifactRetentionClassSchema`. -/
inductive RetentionClass
  | final_deliverable | best_candidate | robust_candidate | near_miss | reproducibility_critical
  | evidence_report | low_value_smoke | cache_intermediate | duplicate_superseded | other
  deriving DecidableEq

def RetentionClass.name : RetentionClass → String
  | .final_deliverable => "final_deliverable"
  | .best_candidate => "best_candidate"
  | .robust_candidate => "robust_candidate"
  | .near_miss => "near_miss"
  | .reproducibility_critical => "reproducibility_critical"
  | .evidence_report => "evidence_report"
  | .low_value_smoke => "low_value_smoke"
  | .cache_intermediate => "cache_intermediate"
  | .duplicate_superseded => "duplicate_superseded"
  | .other => "other"

inductive ArtifactKind
  | log | metrics | report | diff | url | other
  deriving DecidableEq

/-- What an artifact is called. The schemas rule out empty texts. -/
structure ArtifactNames where
  label : String
  path : Option String := none
  state_relative_path : Option String := none
  url : Option String := none
  deriving DecidableEq

/-- `RuntimeEvidenceArtifactRefSchema`. -/
structure Artifact extends ArtifactNames where
  kind : ArtifactKind := .other
  retention_class : Option RetentionClass := none
  size_bytes : Option ℕ := none
  source : Option String := none
  dependency_refs : Option (List String) := none
  deriving DecidableEq

inductive MetricDirection
  | maximize | minimize | neutral
  deriving DecidableEq

/-- `RuntimeEvidenceMetricSchema`; the value is there when it is a number. -/
structure Metric where
  value : Option ℚ := none
  direction : Option MetricDirection := none
  deriving DecidableEq

structure Robustness where
  stability_score : Option ℚ := none
  diversity_score : Option ℚ := none
  robust_score : Option ℚ := none
  evidence_confidence : Option ℚ := none
  deriving DecidableEq

/-- `RuntimeEvidenceCandidateRecordSchema`: what is read of a candidate. `near_miss` says
whether the candidate has one. -/
structure Candidate where
  candidate_id : String
  metrics : List Metric := []
  artifacts : List Artifact := []
  robustness : Option Robustness := none
  near_miss : Bool := false
  deriving DecidableEq

inductive EntryKind
  | observation | strategy | task_generation | execution | verification | decision | metric
  | evaluator | research | dream_checkpoint | artifact | failure | correction | other
  deriving DecidableEq

inductive EntryOutcome
  | improved | regressed | inconclusive | failed | blocked | continued
  deriving DecidableEq

/-- `RuntimeEvidenceEntrySchema`: what is read of an entry. The texts of times compare as the
times do. -/
structure Entry where
  id : String
  occurred_at : String
  kind : EntryKind
  outcome : Option EntryOutcome := none
  artifacts : List Artifact := []
  candidates : List Candidate := []
  deriving DecidableEq

inductive CandidateRole
  | raw_best | robust_best | safe | aggressive | diverse | near_miss
  deriving DecidableEq

/-- `ArtifactRecord`. -/
structure ArtifactRecord where
  artifact : Artifact
  entry : Entry
  candidate : Option Candidate := none
  candidateRole : Option CandidateRole := none
  manifestCritical : Bool
  deriving DecidableEq

inductive CleanupAction
  | protect | retain | compress_or_summarize | delete_candidate | review
  deriving DecidableEq

inductive DecisionBasis
  | manifest | candidate_near_miss | candidate_role | final_artifact_entry
  | explicit_retention_class | artifact_kind | unknown
  deriving DecidableEq

/-- `RuntimeArtifactRetentionDecision`. -/
structure Decision where
  key : String
  label : String
  path : Option String
  state_relative_path : Option String
  url : Option String
  kind : ArtifactKind
  retention_class : RetentionClass
  retention_basis : DecisionBasis
  isProtected : Bool
  protection_reasons : List String
  size_bytes : Option ℕ
  source : Option String
  dependency_refs : List String
  evidence_entry_ids : List String
  candidate_ids : List String
  cleanup_action : CleanupAction
  destructive : Bool
  approval_required : Bool
  reason : String
  deriving DecidableEq

/-! ## Records -/

/-- `artifactKey`; a label is always there. -/
def artifactKey (names : ArtifactNames) : String :=
  ((names.path.or names.state_relative_path).or names.url).getD names.label

/-- `newerEntry`. -/
def newerEntry (a b : Entry) : Entry := if b.occurred_at ≤ a.occurred_at then a else b

/-- The `rank` of a role. -/
def CandidateRole.rank : CandidateRole → ℕ
  | .robust_best => 6
  | .safe => 5
  | .raw_best => 4
  | .aggressive => 3
  | .near_miss => 2
  | .diverse => 1

/-- `strongerCandidateRole`. -/
def strongerCandidateRole : Option CandidateRole → Option CandidateRole → Option CandidateRole
  | none, b => b
  | some a, none => some a
  | some a, some b => if a.rank < b.rank then some b else some a

/-- The spread of two references, with the dependencies of both. -/
def mergeArtifacts (existing incoming : Artifact) : Artifact where
  label := incoming.label
  path := incoming.path.or existing.path
  state_relative_path := incoming.state_relative_path.or existing.state_relative_path
  url := incoming.url.or existing.url
  kind := incoming.kind
  retention_class := incoming.retention_class.or existing.retention_class
  size_bytes := incoming.size_bytes.or existing.size_bytes
  source := incoming.source.or existing.source
  dependency_refs := some
    (existing.dependency_refs.getD [] ++ incoming.dependency_refs.getD []).eraseDups

/-- `mergeArtifactRecords`. -/
def mergeArtifactRecords (existing incoming : ArtifactRecord) : ArtifactRecord where
  artifact := mergeArtifacts existing.artifact incoming.artifact
  entry := newerEntry existing.entry incoming.entry
  candidate := incoming.candidate.or existing.candidate
  candidateRole := strongerCandidateRole existing.candidateRole incoming.candidateRole
  manifestCritical := existing.manifestCritical || incoming.manifestCritical

/-- `addRecord`. -/
def addRecord (records : ObjectMap String ArtifactRecord) (incoming : ArtifactRecord) :
    ObjectMap String ArtifactRecord :=
  let key := artifactKey incoming.artifact.toArtifactNames
  match records.get? key with
  | none => records.set key incoming
  | some existing => records.set key (mergeArtifactRecords existing incoming)

/-! ## The roles of candidates -/

/-- A candidate with the metric that it is ranked by. -/
structure Scored where
  candidate : Candidate
  value : ℚ
  direction : Option MetricDirection

/-- The candidates of all entries, in the order of time. -/
def contexts (entries : List Entry) : List Candidate :=
  (entries.mergeSort (fun a b => a.occurred_at ≤ b.occurred_at)).flatMap (·.candidates)

/-- A candidate with a metric that is a number. -/
def scored (candidate : Candidate) : Option Scored :=
  (candidate.metrics.find? (·.value.isSome)).bind fun metric =>
    metric.value.map fun value => { candidate, value, direction := metric.direction }

/-- The comparison by metrics, in the direction of the first one. -/
def compareScored (a b : Scored) : ℚ :=
  if a.direction = some .minimize then a.value - b.value else b.value - a.value

/-- `robustnessScore`. -/
def robustnessScore (candidate : Candidate) : ℚ :=
  match candidate.robustness with
  | none => 0
  | some robustness => robustness.robust_score.getD
      ((robustness.stability_score.getD 0 + robustness.diversity_score.getD 0 +
        robustness.evidence_confidence.getD 0) / 3)

/-- The candidate has a score of robustness. -/
def Candidate.isRobust (candidate : Candidate) : Bool :=
  candidate.robustness.any fun robustness =>
    robustness.stability_score.isSome || robustness.robust_score.isSome

/-- A list sorted by a comparison, as `sort` does it. Where directions are mixed the comparison
is no order and the result is up to the implementation, so that `sort` is a parameter. -/
abbrev SortBy := (Scored → Scored → ℚ) → List Scored → List Scored

section Roles

variable (sort : SortBy) (entries : List Entry)

/-- The candidates that have a metric, the best first. -/
def ranked : List Scored := sort compareScored ((contexts entries).filterMap scored)

/-- `candidateRoleMap`. -/
def candidateRoleMap (id : String) : Option CandidateRole :=
  let latest := LastWins.lastSome
    (fun c : Candidate => if c.candidate_id = id then some c else none) (contexts entries)
  let role := if latest.any (·.near_miss) then some .near_miss else none
  if (contexts entries).filterMap scored = [] then role
  else
    let ranked := ranked sort entries
    let rawBest := ranked.head?.map (·.candidate)
    let robust := (sort (fun a b => robustnessScore b.candidate - robustnessScore a.candidate)
      (ranked.filter (·.candidate.isRobust))).head?.map (·.candidate)
    if robust.any (·.candidate_id = id) then some .robust_best
    else if rawBest.any (·.candidate_id = id) then some .raw_best
    else role

end Roles

/-! ## Decisions -/

/-- `classifyRetention`. -/
def classifyRetention (record : ArtifactRecord) : RetentionClass × DecisionBasis :=
  if record.manifestCritical then (.reproducibility_critical, .manifest)
  else if record.candidate.any (·.near_miss) then (.near_miss, .candidate_near_miss)
  else if record.candidateRole = some .robust_best ∨ record.candidateRole = some .safe then
    (.robust_candidate, .candidate_role)
  else if record.candidateRole = some .raw_best ∨ record.candidateRole = some .aggressive then
    (.best_candidate, .candidate_role)
  else if record.entry.kind = .artifact ∧ record.entry.outcome = some .improved then
    (.final_deliverable, .final_artifact_entry)
  else
    match record.artifact.retention_class with
    | some retention_class => (retention_class, .explicit_retention_class)
    | none =>
      if record.artifact.kind = .report ∨ record.artifact.kind = .metrics ∨
          record.entry.kind = .verification then (.evidence_report, .artifact_kind)
      else (.other, .unknown)

/-- `protectionReasonsFor`. -/
def protectionReasonsFor (retentionClass : RetentionClass) (manifestCritical : Bool) :
    List String :=
  (if manifestCritical then ["reproducibility_manifest"] else []) ++
  match retentionClass with
  | .final_deliverable => ["final_deliverable"]
  | .best_candidate => ["best_candidate"]
  | .robust_candidate => ["robust_candidate"]
  | .near_miss => ["near_miss"]
  | .reproducibility_critical => ["reproducibility_critical"]
  | _ => []

/-- `cleanupActionFor`. -/
def cleanupActionFor (retentionClass : RetentionClass) (isProtected : Bool) : CleanupAction :=
  if isProtected then .protect
  else
    match retentionClass with
    | .low_value_smoke | .cache_intermediate | .duplicate_superseded => .delete_candidate
    | .evidence_report => .retain
    | _ => .review

/-- `cleanupReasonFor`. -/
def cleanupReasonFor (retentionClass : RetentionClass) (action : CleanupAction)
    (reasons : List String) : String :=
  match action with
  | .protect => "Protected: " ++ ", ".intercalate reasons
  | .delete_candidate =>
    retentionClass.name ++ " may be deleted only after operator approval."
  | .retain => retentionClass.name ++ " retained for status and reporting."
  | _ => retentionClass.name ++ " requires operator review before cleanup."

/-- `classifyArtifactRecord`. -/
def classifyArtifactRecord (record : ArtifactRecord) : Decision :=
  let (retentionClass, basis) := classifyRetention record
  let reasons := protectionReasonsFor retentionClass record.manifestCritical
  let action := cleanupActionFor retentionClass (0 < reasons.length)
  let destructive : Bool := action = .delete_candidate
  { key := artifactKey record.artifact.toArtifactNames
    label := record.artifact.label
    path := record.artifact.path
    state_relative_path := record.artifact.state_relative_path
    url := record.artifact.url
    kind := record.artifact.kind
    retention_class := retentionClass
    retention_basis := basis
    isProtected := 0 < reasons.length
    protection_reasons := reasons
    size_bytes := record.artifact.size_bytes
    source := record.artifact.source
    dependency_refs := record.artifact.dependency_refs.getD []
    evidence_entry_ids := [record.entry.id]
    candidate_ids := record.candidate.elim [] fun candidate => [candidate.candidate_id]
    cleanup_action := action
    destructive
    approval_required := destructive
    reason := cleanupReasonFor retentionClass action reasons }

/-! ## The plan -/

section Plan

variable (sort : SortBy) (manifests : List (List ArtifactNames)) (entries : List Entry)

/-- The keys of the artifacts of the manifests, each a list of artifacts. -/
def manifestArtifactKeys : List String := manifests.flatten.map artifactKey

/-- A reference of an entry or of a candidate, as a record. -/
def toRecord (entry : Entry) (candidate : Option Candidate) (artifact : Artifact) :
    ArtifactRecord where
  artifact := artifact
  entry := entry
  candidate := candidate
  candidateRole := candidate.bind fun candidate =>
    candidateRoleMap sort entries candidate.candidate_id
  manifestCritical := artifactKey artifact.toArtifactNames ∈ manifestArtifactKeys manifests

/-- The references of an entry. -/
def references (entry : Entry) : List ArtifactRecord :=
  entry.artifacts.map (toRecord sort manifests entries entry none) ++
  entry.candidates.flatMap fun candidate =>
    candidate.artifacts.map (toRecord sort manifests entries entry (some candidate))

/-- `collectArtifactRecords`. -/
def collectArtifactRecords : ObjectMap String ArtifactRecord :=
  (entries.flatMap (references sort manifests entries)).foldl addRecord .empty

/-- The `actions` of the cleanup plan of `summarizeArtifactRetention`. -/
def cleanupPlan : List Decision :=
  (collectArtifactRecords sort manifests entries).entries.map fun e => classifyArtifactRecord e.2

end Plan

end PulSeed.ArtifactRetention
