import Mathlib.Data.List.Sort
import PulSeed.Drive.Values
import PulSeed.Lib.Keyed
import PulSeed.Lib.Transition
import PulSeed.Runtime.Envelope

/-!
# The memory truth store (`runtime/store/memory-truth-maintenance-store.ts`)

Claims with a lifecycle and a visibility, the corrections and tombstones that refer to
them, and the conflict sets that contain them. A call is one database transaction: the
list of its row writes is fixed by the store it starts from (`snapshotWrites`,
`correctionWrites`), only what a conflict set does to a claim reads the claim as the
writes before it left it. A write that breaks a constraint of the tables throws, and so
does a write to a table that is not modelled (evidence, projections, recall records, the
typed memory records, runtime events); then the whole call is rolled back.

Rows are parsed values, and of a claim only the fields the writers read or set are kept.
-/

namespace PulSeed

namespace MemoryTruth

/-- `MemoryClaimLifecycleSchema`. -/
inductive Lifecycle
  | active | corrected | retracted | forgotten | conflicted | archived
  deriving DecidableEq, Repr

def Lifecycle.name : Lifecycle → String
  | active => "active"
  | corrected => "corrected"
  | retracted => "retracted"
  | forgotten => "forgotten"
  | conflicted => "conflicted"
  | archived => "archived"

/-- `MemoryClaimLifecycleSchema.safeParse` of a string. -/
def Lifecycle.parse (s : String) : Option Lifecycle :=
  [active, corrected, retracted, forgotten, conflicted, archived].find? fun l => l.name = s

@[simp] theorem Lifecycle.parse_name (l : Lifecycle) : Lifecycle.parse l.name = some l := by
  cases l <;> decide +kernel

/-- `MemoryClaimSchema`. -/
structure MemoryClaim where
  claimId : String
  ownerKind : String := "memory"
  ownerScope : String := "global"
  sourceEvidenceRefs : List String := []
  lifecycle : Lifecycle := .active
  updatedAt : String
  invalidatedBy : Option String := none
  supersededBy : Option String := none
  visibleToNormalSurface : Bool := true
  operatorExplanationRefs : List String := []
  metadata : List (String × Json) := []

inductive CorrectionKind
  | corrected | superseded | retracted | forgotten | quarantined
  deriving DecidableEq, Repr

/-- `CorrectionRefSchema`. -/
structure CorrectionRef where
  correctionId : String
  targetClaimId : String
  correctionKind : CorrectionKind
  replacementClaimId : Option String := none
  idempotencyKey : String
  createdAt : String
  evidenceRefs : List String := []
  deriving DecidableEq

/-- `ForgetTombstoneSchema`. -/
structure ForgetTombstone where
  tombstoneId : String
  claimId : String
  idempotencyKey : String
  sourceEvidenceRef : Option String := none
  reason : String
  preventsReimport : Bool := true
  operatorRestoredAt : Option String := none
  createdAt : String
  deriving DecidableEq

inductive ConflictStatus
  | unresolved | held | resolved
  deriving DecidableEq, Repr

/-- `ConflictSetSchema`. -/
structure ConflictSet where
  conflictSetId : String
  claimIds : List String
  status : ConflictStatus := .unresolved
  resolutionClaimId : Option String := none
  updatedAt : String
  twoClaims : 2 ≤ claimIds.length := by decide
  resolutionNamed : minOne? resolutionClaimId := by decide
  deriving DecidableEq

structure Store where
  claims : Keyed MemoryClaim.claimId
  corrections : Keyed CorrectionRef.correctionId
  tombstones : Keyed ForgetTombstone.tombstoneId
  conflictSets : Keyed ConflictSet.conflictSetId

def Store.empty : Store := ⟨.empty, .empty, .empty, .empty⟩

/-- `unique`. -/
def unique (values : List String) : List String :=
  values.foldl (fun kept v => if v ∈ kept then kept else kept ++ [v]) []

/-! ## What a conflict set does to a claim -/

/-- What `object[key]` finds on every object that has no own member of that name. -/
def objectPrototype : List String :=
  ["constructor", "toString", "toLocaleString", "valueOf", "hasOwnProperty", "isPrototypeOf",
    "propertyIsEnumerable", "__proto__", "__defineGetter__", "__defineSetter__",
    "__lookupGetter__", "__lookupSetter__"]

/-- A JSON value as the condition of an `if`. -/
def jsonTruthy : Json → Bool
  | .null => false
  | .bool b => b
  | .num n => n ≠ 0
  | .str s => s ≠ ""
  | .arr _ => true
  | .obj _ => true

def conflictStateMetadata (claim : MemoryClaim) : List (String × Json) :=
  match ObjectMap.lookup claim.metadata "conflict_state" with
  | some (.obj members) => members
  | _ => []

/-- `conflictState[id]` as the condition of an `if`. -/
def occupied (conflictState : List (String × Json)) (id : String) : Bool :=
  match ObjectMap.lookup conflictState id with
  | some value => jsonTruthy value
  | none => id ∈ objectPrototype

def rememberedState (claim : MemoryClaim) : Json :=
  .obj [("lifecycle", .str claim.lifecycle.name),
    ("visible_to_normal_surface", .bool claim.visibleToNormalSurface)]

def rememberPreConflictClaimState (claim : MemoryClaim) (conflict : ConflictSet) :
    List (String × Json) :=
  let conflictState := conflictStateMetadata claim
  let conflictState :=
    if occupied conflictState conflict.conflictSetId then conflictState
    else ObjectMap.setEntries conflictState conflict.conflictSetId (rememberedState claim)
  ObjectMap.setEntries claim.metadata "conflict_state" (.obj conflictState)

/-- A remembered lifecycle and visibility. -/
def parseRemembered : Json → Option (Lifecycle × Bool)
  | .obj raw =>
    match ObjectMap.lookup raw "lifecycle", ObjectMap.lookup raw "visible_to_normal_surface" with
    | some (.str lifecycle), some (.bool visible) =>
      (Lifecycle.parse lifecycle).map fun lifecycle => (lifecycle, visible)
    | _, _ => none
  | _ => none

def preConflictClaimState (claim : MemoryClaim) (conflictSetId : String) :
    Option (Lifecycle × Bool) :=
  (ObjectMap.lookup (conflictStateMetadata claim) conflictSetId).bind parseRemembered

def forgetPreConflictClaimState (claim : MemoryClaim) (conflictSetId : String) :
    List (String × Json) :=
  let conflictState := ObjectMap.deleteEntries (conflictStateMetadata claim) conflictSetId
  if conflictState ≠ [] then
    ObjectMap.setEntries claim.metadata "conflict_state" (.obj conflictState)
  else ObjectMap.deleteEntries claim.metadata "conflict_state"

/-- The set was resolved in favour of another claim. -/
def ConflictSet.LostBy (conflict : ConflictSet) (claimId : String) : Prop :=
  ∃ winner ∈ conflict.resolutionClaimId, claimId ≠ winner

instance (conflict : ConflictSet) (claimId : String) : Decidable (conflict.LostBy claimId) :=
  match h : conflict.resolutionClaimId with
  | none => .isFalse fun ⟨w, hw, _⟩ => by simp [h] at hw
  | some winner => decidable_of_iff (claimId ≠ winner) (by simp [ConflictSet.LostBy, h])

def resolvedConflictClaim (claim : MemoryClaim) (conflict : ConflictSet) : MemoryClaim :=
  let previousState := preConflictClaimState claim conflict.conflictSetId
  let metadata := forgetPreConflictClaimState claim conflict.conflictSetId
  let explanationRefs := unique (claim.operatorExplanationRefs ++ [conflict.conflictSetId])
  if conflict.LostBy claim.claimId then
    { claim with
      lifecycle :=
        if claim.lifecycle = .active ∨ claim.lifecycle = .conflicted then .archived
        else claim.lifecycle
      visibleToNormalSurface := false
      invalidatedBy := claim.invalidatedBy.or (some conflict.conflictSetId)
      updatedAt := conflict.updatedAt
      operatorExplanationRefs := explanationRefs
      metadata }
  else
    { claim with
      lifecycle := (previousState.map Prod.fst).getD .active
      visibleToNormalSurface := (previousState.map Prod.snd).getD true
      updatedAt := conflict.updatedAt
      operatorExplanationRefs := explanationRefs
      metadata }

/-- The claim under a set that is not resolved. -/
def conflictedClaim (claim : MemoryClaim) (conflict : ConflictSet) : MemoryClaim :=
  { claim with
    lifecycle := .conflicted
    visibleToNormalSurface := false
    updatedAt := conflict.updatedAt
    operatorExplanationRefs := unique (claim.operatorExplanationRefs ++ [conflict.conflictSetId])
    metadata := rememberPreConflictClaimState claim conflict }

/-- What `upsertConflict` stores for one of the claims of the set. -/
def conflictClaim (conflict : ConflictSet) (claim : MemoryClaim) : MemoryClaim :=
  if conflict.status = .resolved then resolvedConflictClaim claim conflict
  else conflictedClaim claim conflict

@[simp] theorem claimId_conflictClaim (conflict : ConflictSet) (claim : MemoryClaim) :
    (conflictClaim conflict claim).claimId = claim.claimId := by
  unfold conflictClaim resolvedConflictClaim conflictedClaim
  split
  · dsimp only
    split <;> rfl
  · rfl

/-! ## Row writes -/

def readClaim (s : Store) (claimId : String) : Option MemoryClaim := s.claims.find claimId

def upsertClaim (s : Store) (claim : MemoryClaim) : Store :=
  { s with claims := s.claims.upsert claim }

/-- Refused when another correction has the idempotency key, or a claim it names does not
exist. -/
def upsertCorrection (s : Store) (correction : CorrectionRef) : Option Store :=
  if s.corrections.rows.any fun r => r.idempotencyKey = correction.idempotencyKey ∧
      r.correctionId ≠ correction.correctionId then none
  else if (readClaim s correction.targetClaimId).isNone then none
  else if ∃ id ∈ correction.replacementClaimId, (readClaim s id).isNone then none
  else some { s with corrections := s.corrections.upsert correction }

/-- Refused when another tombstone has the idempotency key, or the claim does not exist. -/
def upsertTombstone (s : Store) (tombstone : ForgetTombstone) : Option Store :=
  if s.tombstones.rows.any fun r => r.idempotencyKey = tombstone.idempotencyKey ∧
      r.tombstoneId ≠ tombstone.tombstoneId then none
  else if (readClaim s tombstone.claimId).isNone then none
  else some { s with tombstones := s.tombstones.upsert tombstone }

/-- One claim of a conflict set; the row that links the two needs the claim to exist. -/
def upsertConflictClaim (s : Store) (conflict : ConflictSet) (claimId : String) : Option Store :=
  (readClaim s claimId).map fun claim => upsertClaim s (conflictClaim conflict claim)

/-- A stored claim that a snapshot removes: its tombstone, and the claim as it is kept. -/
structure Forgetting where
  tombstone : ForgetTombstone
  claim : MemoryClaim
  ofClaim : tombstone.claimId = claim.claimId
  isForgotten : claim.lifecycle = .forgotten
  isInvisible : claim.visibleToNormalSurface = false

inductive Write
  | forget (forgetting : Forgetting)
  | claim (claim : MemoryClaim)
  | correction (correction : CorrectionRef)
  | tombstone (tombstone : ForgetTombstone)
  | conflictSet (conflict : ConflictSet)
  | conflictClaim (conflict : ConflictSet) (claimId : String)

def Write.perform (s : Store) : Write → Option Store
  | .forget f => (upsertTombstone s f.tombstone).map fun s => upsertClaim s f.claim
  | .claim c => some (upsertClaim s c)
  | .correction c => upsertCorrection s c
  | .tombstone t => upsertTombstone s t
  | .conflictSet k => some { s with conflictSets := s.conflictSets.upsert k }
  | .conflictClaim k claimId => upsertConflictClaim s k claimId

/-- The writes of a call in order; the first that throws ends it. -/
def performAll (s : Store) : List Write → Option Store
  | [] => some s
  | w :: ws => (w.perform s).bind fun s' => performAll s' ws

/-- The writes of `upsertConflict`. -/
def conflictWrites (conflict : ConflictSet) : List Write :=
  .conflictSet conflict :: conflict.claimIds.map (.conflictClaim conflict)

def upsertConflict (s : Store) (conflict : ConflictSet) : Option Store :=
  performAll s (conflictWrites conflict)

/-! ## Calls -/

/-- A tombstone that was never restored and prevents the import of its claim. -/
def ForgetTombstone.Blocks (tombstone : ForgetTombstone) : Prop :=
  tombstone.preventsReimport = true ∧ tombstone.operatorRestoredAt = none

instance (tombstone : ForgetTombstone) : Decidable tombstone.Blocks :=
  inferInstanceAs (Decidable (_ ∧ _))

def hasBlockingTombstone (s : Store) (claimId : String) : Bool :=
  s.tombstones.rows.any fun tombstone => tombstone.claimId = claimId ∧ tombstone.Blocks

/-- `MemoryTruthSnapshotInput`. -/
structure SnapshotInput where
  ownerKind : String
  ownerScope : String
  claims : List MemoryClaim := []
  corrections : List CorrectionRef := []
  tombstones : List ForgetTombstone := []
  conflictSets : List ConflictSet := []
  tombstoneReason : Option String := none
  dropRemovedClaimIds : List String := []
  now : String

/-- The order in which `readClaims` lists claims. -/
def ReadsBefore (a b : MemoryClaim) : Prop :=
  b.updatedAt < a.updatedAt ∨ a.updatedAt = b.updatedAt ∧ ¬ b.claimId < a.claimId

instance : DecidableRel ReadsBefore := fun a b =>
  inferInstanceAs (Decidable (b.updatedAt < a.updatedAt ∨ _ ∧ ¬ b.claimId < a.claimId))

/-- `readClaims` of an owner: its active claims. -/
def readClaims (s : Store) (ownerKind ownerScope : String) : List MemoryClaim :=
  (s.claims.rows.filter fun claim => claim.ownerKind = ownerKind ∧
    claim.ownerScope = ownerScope ∧ claim.lifecycle = .active).insertionSort ReadsBefore

section

variable (stableId : String → String)

/-- What the snapshot writes for a stored claim it does not contain. -/
def forgetExisting (input : SnapshotInput) (existing : MemoryClaim) : Forgetting :=
  let correctionId := "memory-truth-snapshot-forget-" ++ stableId
    (input.ownerKind ++ ":" ++ input.ownerScope ++ ":" ++ existing.claimId ++ ":" ++ input.now)
  { tombstone :=
      { tombstoneId := "tombstone-" ++ correctionId
        claimId := existing.claimId
        idempotencyKey := correctionId
        sourceEvidenceRef := existing.sourceEvidenceRefs.head?
        reason := input.tombstoneReason.getD <| "Memory owner snapshot removed this claim; " ++
          "retaining tombstone to prevent stale resurrection."
        createdAt := input.now }
    claim :=
      { existing with
        metadata :=
          if existing.claimId ∈ input.dropRemovedClaimIds then
            ObjectMap.setEntries existing.metadata "destructive_delete_requested" (.bool true)
          else existing.metadata
        lifecycle := .forgotten
        invalidatedBy := some correctionId
        visibleToNormalSurface := false
        updatedAt := input.now }
    ofClaim := rfl
    isForgotten := rfl
    isInvisible := rfl }

/-- The claims of the snapshot, as those of its owner. -/
def SnapshotInput.ownClaims (input : SnapshotInput) : List MemoryClaim :=
  input.claims.map fun claim =>
    { claim with
      ownerKind := input.ownerKind
      ownerScope := input.ownerScope }

/-- The snapshot's claims without those a tombstone keeps from coming back. -/
def acceptedClaims (s : Store) (input : SnapshotInput) : List MemoryClaim :=
  let resurrectedClaimIds := (input.ownClaims.filter fun claim =>
    claim.lifecycle = .active ∧ hasBlockingTombstone s claim.claimId = true).map (·.claimId)
  input.ownClaims.filter fun claim => claim.claimId ∉ resurrectedClaimIds

/-- The writes of `saveOwnerSnapshot`. -/
def snapshotWrites (s : Store) (input : SnapshotInput) : List Write :=
  let acceptedClaims := acceptedClaims s input
  let acceptedClaimIds := acceptedClaims.map (·.claimId)
  let existingClaims := readClaims s input.ownerKind input.ownerScope
  let writableClaimIds := acceptedClaimIds ++ existingClaims.map (·.claimId)
  let acceptedCorrections := input.corrections.filter fun correction =>
    correction.targetClaimId ∈ writableClaimIds ∧
      ∀ id ∈ correction.replacementClaimId, id ∈ writableClaimIds
  let acceptedTombstones := input.tombstones.filter fun tombstone =>
    tombstone.claimId ∈ writableClaimIds
  let removed := existingClaims.filter fun existing =>
    existing.claimId ∉ acceptedClaimIds ∧ existing.lifecycle ≠ .forgotten
  removed.map (fun c => .forget (forgetExisting stableId input c)) ++ acceptedClaims.map .claim ++
    acceptedCorrections.map .correction ++ acceptedTombstones.map .tombstone ++
    input.conflictSets.flatMap conflictWrites

/-- `MemoryCorrectionTransactionInput`. -/
structure CorrectionInput where
  correction : CorrectionRef
  replacementClaim : Option MemoryClaim := none
  tombstone : Option ForgetTombstone := none
  conflictSets : List ConflictSet := []

def lifecycleForCorrection : CorrectionKind → Lifecycle
  | .corrected => .corrected
  | .superseded => .corrected
  | .forgotten => .forgotten
  | .retracted => .retracted
  | .quarantined => .archived

/-- The target of a correction, as the correction leaves it. -/
def correctedTarget (target : MemoryClaim) (input : CorrectionInput) : MemoryClaim :=
  { target with
    lifecycle := lifecycleForCorrection input.correction.correctionKind
    invalidatedBy := some input.correction.correctionId
    supersededBy := (input.replacementClaim.map (·.claimId)).or input.correction.replacementClaimId
    visibleToNormalSurface := false
    updatedAt := input.correction.createdAt
    operatorExplanationRefs := unique (target.operatorExplanationRefs ++
      input.correction.correctionId :: input.correction.evidenceRefs) }

/-- The writes of `applyCorrectionTransaction`: none when a correction with the idempotency
key is stored; it throws when the target does not exist. -/
def correctionWrites (s : Store) (input : CorrectionInput) : Option (List Write) :=
  if s.corrections.rows.any fun r => r.idempotencyKey = input.correction.idempotencyKey then
    some []
  else
    (readClaim s input.correction.targetClaimId).map fun target =>
      input.replacementClaim.toList.map .claim ++ .correction input.correction ::
        .claim (correctedTarget target input) :: input.tombstone.toList.map .tombstone ++
        input.conflictSets.flatMap conflictWrites

/-- A call, and whether a write to a table that is not modelled throws in it. -/
inductive Call
  | saveOwnerSnapshot (input : SnapshotInput) (throws : Bool)
  | applyCorrectionTransaction (input : CorrectionInput) (throws : Bool)

/-- The writes of a call; `none` when it throws before or beside them. -/
def Call.writes (s : Store) : Call → Option (List Write)
  | .saveOwnerSnapshot input throws =>
    if throws ∨ Drive.trim input.ownerKind.toList = [] ∨ Drive.trim input.ownerScope.toList = []
    then none
    else some (snapshotWrites stableId s input)
  | .applyCorrectionTransaction input throws =>
    if throws then none else correctionWrites s input

/-- A call and whether it was committed. -/
def call (s : Store) (c : Call) : Store × Bool :=
  match (c.writes stableId s).bind (performAll s) with
  | some s' => (s', true)
  | none => (s, false)

end

end MemoryTruth

end PulSeed
