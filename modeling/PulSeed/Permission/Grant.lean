import PulSeed.Lib.ObjectMap
import PulSeed.Lib.Transition
import PulSeed.Runtime.Envelope

/-!
# Permission grants (`runtime/store/permission-grant-store.ts`)

A grant is a row of `permission_grants`. Every method of the store is one
transaction that reads the row, computes its replacement and parses it before it is
written, so a value that fails the schema makes the method throw and leaves the row as
it was; `supersede` alone is three transactions with other callers between them. The
clock is an argument of every step, and so are the caller's own timestamps: neither has
to be increasing, or an integer.

`PermissionGrantRecord` is a record as the updaters build it, `ParsedGrant` one that
`PermissionGrantRecordSchema` accepts; the store holds the latter. `grantLTS` is the
store with any number of callers, one transaction a step.
-/

namespace PulSeed.Grant

/-! ## Records -/

/-- `PermissionGrantStateSchema`. -/
inductive PermissionGrantState
  | proposed | active | expired | revoked | superseded
  deriving DecidableEq, Repr

/-- `PermissionGrantCapabilitySchema`. -/
inductive PermissionGrantCapability
  | readWorkspace | writeWorkspace | runTests | runSafeLocalCommands | updateMemory
  | updateSurface | notifyUser | delegateWork | inspectRuntime | prepareDraft
  deriving DecidableEq, Repr

/-- `PermissionGrantExcludedCapabilitySchema`. -/
inductive PermissionGrantExcludedCapability
  | destructiveAction | delete | writeRemote | networkSend | externalSend | secretChange
  | protectedPathMutation | productionMutation | billingOrPurchase | unknownCapability
  deriving DecidableEq, Repr

/-- The kinds of `PermissionGrantSubjectSchema`. -/
inductive PermissionGrantSubjectKind
  | user | operator | agent | system
  deriving DecidableEq, Repr

/-- `PermissionGrantSubjectSchema`. -/
structure PermissionGrantSubject where
  kind : PermissionGrantSubjectKind
  id : String
  displayName : Option String := none

/-- `PermissionGrantOriginSchema`. -/
structure PermissionGrantOrigin where
  channel : String
  platform : Option String := none
  conversationId : Option String := none
  userId : Option String := none
  sessionId : Option String := none
  turnId : Option String := none
  messageId : Option String := none
  replyTarget : Option Json := none

/-- `PermissionGrantSourceSchema`. -/
inductive PermissionGrantSource
  | redactedText (redactedText : String) (redactionReason : Option String)
  | sourceRef (ref : String) (redactionReason : Option String)

/-- The kinds of `PermissionGrantScopeSchema`. -/
inductive PermissionGrantScopeKind
  | turn | run | goal | session | workspace | project | global
  deriving DecidableEq, Repr

/-- `PermissionGrantScopeSchema`, before its refinement. -/
structure PermissionGrantScope where
  kind : PermissionGrantScopeKind
  turnId : Option String := none
  runId : Option String := none
  goalId : Option String := none
  sessionId : Option String := none
  workspaceRoot : Option String := none
  projectId : Option String := none

/-- `PermissionGrantDurationSchema`. -/
inductive PermissionGrantDuration
  | once | untilRunDone | untilGoalDone | session | standing
  | expiresAt (expiresAt : Millis)
  deriving DecidableEq

/-- `PermissionGrantReviewSchema`. -/
inductive PermissionGrantReview
  | none
  | periodic (intervalMs dueAt : Millis) (lastReviewedAt : Option Millis)

/-- `PermissionGrantFreshnessBindingSchema`. -/
structure PermissionGrantFreshnessBinding where
  permissionStateEpoch : Option Millis := none
  projectStateRef : Option String := none
  goalStateRef : Option String := none
  sessionStateRef : Option String := none
  surfaceStateRef : Option String := none
  relationshipStateRef : Option String := none
  worldStateRef : Option String := none

/-- The statuses of `PermissionGrantStalenessSchema`. -/
inductive StalenessStatus
  | fresh | stale | unknown
  deriving DecidableEq, Repr

/-- `PermissionGrantStalenessSchema`. -/
structure PermissionGrantStaleness where
  status : StalenessStatus := .fresh
  checkedAt : Option Millis := none
  staleAt : Option Millis := none
  reason : Option String := none
  binding : PermissionGrantFreshnessBinding := {}

/-- The fields of `PermissionGrantRecordSchema`, as an updater writes them. -/
structure PermissionGrantRecord where
  grantId : String
  subject : PermissionGrantSubject
  origin : PermissionGrantOrigin
  source : PermissionGrantSource
  scope : PermissionGrantScope
  duration : PermissionGrantDuration
  review : PermissionGrantReview := .none
  capabilities : List PermissionGrantCapability
  excludedCapabilities : List PermissionGrantExcludedCapability := []
  state : PermissionGrantState
  stateVersion : Millis
  stateEpoch : Millis
  staleness : PermissionGrantStaleness := {}
  createdAt : Millis
  updatedAt : Millis
  activatedAt : Option Millis := none
  expiredAt : Option Millis := none
  revokedAt : Option Millis := none
  revokedBy : Option String := none
  revocationReason : Option String := none
  supersededAt : Option Millis := none
  supersedes : List String := []
  supersededBy : Option String := none
  lastUsedAt : Option Millis := none
  usageCount : Millis := 0
  auditRefs : List String := []

/-! ## The schema -/

def PermissionGrantSubject.Valid (s : PermissionGrantSubject) : Prop :=
  s.id ≠ "" ∧ minOne? s.displayName

instance (s : PermissionGrantSubject) : Decidable s.Valid :=
  inferInstanceAs (Decidable (_ ∧ _))

def PermissionGrantOrigin.Valid (o : PermissionGrantOrigin) : Prop :=
  o.channel ≠ "" ∧ ∀ s ∈ [o.platform, o.conversationId, o.userId, o.sessionId, o.turnId,
    o.messageId], minOne? s

instance (o : PermissionGrantOrigin) : Decidable o.Valid :=
  inferInstanceAs (Decidable (_ ∧ ∀ s ∈ [_, _, _, _, _, _], minOne? s))

def PermissionGrantSource.Valid : PermissionGrantSource → Prop
  | .redactedText text reason => text ≠ "" ∧ minOne? reason
  | .sourceRef ref reason => ref ≠ "" ∧ minOne? reason

instance : (s : PermissionGrantSource) → Decidable s.Valid
  | .redactedText _ _ => inferInstanceAs (Decidable (_ ∧ _))
  | .sourceRef _ _ => inferInstanceAs (Decidable (_ ∧ _))

/-- The field that the refinement of the scope schema requires, `requiredByScope`. -/
def PermissionGrantScope.requiredField (s : PermissionGrantScope) : Option (Option String) :=
  match s.kind with
  | .turn => some s.turnId
  | .run => some s.runId
  | .goal => some s.goalId
  | .session => some s.sessionId
  | .workspace => some s.workspaceRoot
  | .project => some s.projectId
  | .global => none

def PermissionGrantScope.Valid (s : PermissionGrantScope) : Prop :=
  (∀ f ∈ [s.turnId, s.runId, s.goalId, s.sessionId, s.workspaceRoot, s.projectId], minOne? f) ∧
    ∀ f ∈ s.requiredField, (truthy f).isSome

instance (s : PermissionGrantScope) : Decidable s.Valid :=
  inferInstanceAs (Decidable ((∀ f ∈ [_, _, _, _, _, _], minOne? f) ∧
    ∀ f ∈ s.requiredField, (truthy f).isSome))

def PermissionGrantDuration.Valid : PermissionGrantDuration → Prop
  | .expiresAt t => IsSafeNonnegativeInt t
  | _ => True

instance : (d : PermissionGrantDuration) → Decidable d.Valid
  | .expiresAt t => inferInstanceAs (Decidable (IsSafeNonnegativeInt t))
  | .once | .untilRunDone | .untilGoalDone | .session | .standing => instDecidableTrue

def PermissionGrantReview.Valid : PermissionGrantReview → Prop
  | .none => True
  | .periodic intervalMs dueAt lastReviewedAt =>
    IsSafeNonnegativeInt intervalMs ∧ 0 < intervalMs ∧ IsSafeNonnegativeInt dueAt ∧
      IsSafeNonnegativeInt? lastReviewedAt

instance : (r : PermissionGrantReview) → Decidable r.Valid
  | .none => instDecidableTrue
  | .periodic _ _ _ => inferInstanceAs (Decidable (_ ∧ _ ∧ _ ∧ _))

def PermissionGrantFreshnessBinding.Valid (b : PermissionGrantFreshnessBinding) : Prop :=
  IsSafeNonnegativeInt? b.permissionStateEpoch ∧ ∀ s ∈ [b.projectStateRef, b.goalStateRef,
    b.sessionStateRef, b.surfaceStateRef, b.relationshipStateRef, b.worldStateRef], minOne? s

instance (b : PermissionGrantFreshnessBinding) : Decidable b.Valid :=
  inferInstanceAs (Decidable (_ ∧ ∀ s ∈ [_, _, _, _, _, _], minOne? s))

def PermissionGrantStaleness.Valid (s : PermissionGrantStaleness) : Prop :=
  IsSafeNonnegativeInt? s.checkedAt ∧ IsSafeNonnegativeInt? s.staleAt ∧ minOne? s.reason ∧
    s.binding.Valid

instance (s : PermissionGrantStaleness) : Decidable s.Valid :=
  inferInstanceAs (Decidable (_ ∧ _ ∧ _ ∧ _))

/-- `PermissionGrantRecordSchema`: the checks of the fields. -/
def PermissionGrantRecord.FieldsValid (r : PermissionGrantRecord) : Prop :=
  (r.grantId ≠ "" ∧ r.subject.Valid ∧ r.origin.Valid ∧ r.source.Valid ∧ r.scope.Valid ∧
    r.duration.Valid ∧ r.review.Valid ∧ r.capabilities ≠ [] ∧ r.staleness.Valid) ∧
  (∀ x ∈ [r.stateVersion, r.stateEpoch, r.createdAt, r.updatedAt, r.usageCount],
    IsSafeNonnegativeInt x) ∧
  (∀ x ∈ [r.activatedAt, r.expiredAt, r.revokedAt, r.supersededAt, r.lastUsedAt],
    IsSafeNonnegativeInt? x) ∧
  (∀ s ∈ [r.revokedBy, r.revocationReason, r.supersededBy], minOne? s) ∧
  ∀ s ∈ r.supersedes ++ r.auditRefs, s ≠ ""

instance (r : PermissionGrantRecord) : Decidable r.FieldsValid :=
  inferInstanceAs (Decidable ((_ ∧ _ ∧ _ ∧ _ ∧ _ ∧ _ ∧ _ ∧ _ ∧ _) ∧
    (∀ x ∈ [_, _, _, _, _], IsSafeNonnegativeInt x) ∧
    (∀ x ∈ [_, _, _, _, _], IsSafeNonnegativeInt? x) ∧
    (∀ s ∈ [_, _, _], minOne? s) ∧ ∀ s ∈ _ ++ _, s ≠ ""))

/-- `PermissionGrantRecordSchema`: the refinement. -/
def PermissionGrantRecord.Refined (r : PermissionGrantRecord) : Prop :=
  (r.capabilities.Nodup ∧ r.excludedCapabilities.Nodup ∧ r.auditRefs.Nodup ∧
    r.supersedes.Nodup) ∧
  (r.state = .active → r.activatedAt ≠ none) ∧ (r.state = .expired → r.expiredAt ≠ none) ∧
  (r.state = .revoked → r.revokedAt ≠ none) ∧
  (r.state = .superseded → (truthy r.supersededBy).isSome) ∧
  (r.duration = .standing → ∃ intervalMs dueAt last, r.review = .periodic intervalMs dueAt last)

instance (r : PermissionGrantRecord) : Decidable r.Refined :=
  haveI : Decidable (∃ intervalMs dueAt last, r.review = .periodic intervalMs dueAt last) :=
    match r.review with
    | .none => .isFalse (by simp)
    | .periodic i d l => .isTrue ⟨i, d, l, rfl⟩
  inferInstanceAs (Decidable ((_ ∧ _ ∧ _ ∧ _) ∧ _ ∧ _ ∧ _ ∧ _ ∧ _))

/-- A record that `PermissionGrantRecordSchema` accepts. -/
structure ParsedGrant where
  record : PermissionGrantRecord
  isValid : record.FieldsValid ∧ record.Refined

/-- `PermissionGrantRecordSchema.parse`. -/
def PermissionGrantRecord.parse (r : PermissionGrantRecord) : Option ParsedGrant :=
  if h : r.FieldsValid ∧ r.Refined then some ⟨r, h⟩ else none

theorem PermissionGrantRecord.parse_record {r : PermissionGrantRecord} {g : ParsedGrant}
    (h : r.parse = some g) : g.record = r := by
  unfold parse at h
  split at h
  · cases h
    rfl
  · cases h

/-! ## The tests of a grant -/

def isPermissionGrantExpired (record : PermissionGrantRecord) (now : Millis) : Bool :=
  record.state == .expired ||
    match record.duration with
    | .expiresAt expiresAt => decide (expiresAt ≤ now)
    | _ => false

def isPermissionGrantReviewDue (record : PermissionGrantRecord) (now : Millis) : Bool :=
  match record.review with
  | .periodic _ dueAt _ => decide (dueAt ≤ now)
  | .none => false

def isPermissionGrantStale (record : PermissionGrantRecord) : Bool :=
  record.staleness.status != .fresh

def isPermissionGrantCurrentlyActive (record : PermissionGrantRecord) (now : Millis) : Bool :=
  record.state == .active
    && !isPermissionGrantExpired record now
    && !isPermissionGrantReviewDue record now
    && !isPermissionGrantStale record
    && !(record.duration == .once && decide (0 < record.usageCount))

/-! ## The transactions -/

/-- The table `permission_grants`, by its primary key. -/
abbrev GrantTable := ObjectMap String ParsedGrant

/-- What the caller of a method sees: a record, `null`, or an exception. -/
inductive GrantOutcome
  | returned (record : PermissionGrantRecord)
  | null
  | threw

/-- `unique`: the elements in the order of their first occurrence. -/
def unique {α : Type} [DecidableEq α] (values : List α) : List α := values.eraseDups

def appendUnique (current additions : List String) : List String := unique (current ++ additions)

/-- `update`, with the clock that the check of `requireActive` reads when it is made. -/
def update (grants : GrantTable) (grantId : String)
    (updater : PermissionGrantRecord → PermissionGrantRecord) (requireActive : Option Millis) :
    GrantTable × GrantOutcome :=
  match grants.get? grantId with
  | none => (grants, .null)
  | some current =>
    if requireActive.any fun now => !isPermissionGrantCurrentlyActive current.record now then
      (grants, .null)
    else
      match (updater current.record).parse with
      | none => (grants, .threw)
      | some updated => (grants.set grantId updated, .returned updated.record)

/-- `PermissionGrantCreateInput`. -/
structure PermissionGrantCreateInput where
  grantId : String
  subject : PermissionGrantSubject
  origin : PermissionGrantOrigin
  source : PermissionGrantSource
  scope : PermissionGrantScope
  duration : PermissionGrantDuration
  review : Option PermissionGrantReview := none
  capabilities : List PermissionGrantCapability
  excludedCapabilities : Option (List PermissionGrantExcludedCapability) := none
  staleness : Option PermissionGrantStaleness := none
  auditRefs : Option (List String) := none
  supersedes : Option (List String) := none
  createdAt : Option Millis := none

/-- The record that `create` parses. -/
def PermissionGrantCreateInput.record (input : PermissionGrantCreateInput)
    (state : PermissionGrantState) (now : Millis) : PermissionGrantRecord where
  grantId := input.grantId
  subject := input.subject
  origin := input.origin
  source := input.source
  scope := input.scope
  duration := input.duration
  review := input.review.getD .none
  capabilities := unique input.capabilities
  excludedCapabilities := unique (input.excludedCapabilities.getD [])
  state := state
  stateVersion := 0
  stateEpoch := now
  staleness := input.staleness.getD { status := .fresh, checkedAt := some now }
  createdAt := now
  updatedAt := now
  activatedAt := if state = .active then some now else none
  supersedes := unique (input.supersedes.getD [])
  usageCount := 0
  auditRefs := unique (input.auditRefs.getD [])

/-- `create`. -/
def create (grants : GrantTable) (input : PermissionGrantCreateInput)
    (state : PermissionGrantState) (now : Millis) : GrantTable × GrantOutcome :=
  match grants.get? input.grantId with
  | some _ => (grants, .threw)
  | none =>
    match (input.record state (input.createdAt.getD now)).parse with
    | none => (grants, .threw)
    | some record => (grants.set input.grantId record, .returned record.record)

/-- The updater of `activate`. -/
def activateUpdater (activatedAt : Millis) (auditRefs : Option (List String))
    (grant : PermissionGrantRecord) : PermissionGrantRecord :=
  if grant.state ≠ .proposed ∧ grant.state ≠ .active then grant
  else { grant with
    state := .active
    stateVersion := grant.stateVersion + 1
    stateEpoch := activatedAt
    activatedAt := some (grant.activatedAt.getD activatedAt)
    updatedAt := activatedAt
    auditRefs := appendUnique grant.auditRefs (auditRefs.getD []) }

/-- The updater of `expire`. -/
def expireUpdater (expiredAt : Millis) (auditRefs : List String)
    (grant : PermissionGrantRecord) : PermissionGrantRecord :=
  { grant with
    state := .expired
    stateVersion := grant.stateVersion + 1
    stateEpoch := expiredAt
    expiredAt := some expiredAt
    updatedAt := expiredAt
    auditRefs := appendUnique grant.auditRefs auditRefs }

/-- `PermissionGrantRevocationInput`, without its timestamp. -/
structure RevocationInput where
  revokedBy : Option String := none
  reason : Option String := none
  auditRefs : Option (List String) := none

/-- The updater of `revoke`. -/
def revokeUpdater (revokedAt : Millis) (input : RevocationInput)
    (grant : PermissionGrantRecord) : PermissionGrantRecord :=
  { grant with
    state := .revoked
    stateVersion := grant.stateVersion + 1
    stateEpoch := revokedAt
    revokedAt := some revokedAt
    revokedBy := truthy input.revokedBy <|> grant.revokedBy
    revocationReason := truthy input.reason <|> grant.revocationReason
    updatedAt := revokedAt
    auditRefs := appendUnique grant.auditRefs (input.auditRefs.getD []) }

/-- The updater of `markStale`. -/
def markStaleUpdater (staleAt : Millis) (reason : String) (auditRefs : Option (List String))
    (grant : PermissionGrantRecord) : PermissionGrantRecord :=
  { grant with
    updatedAt := staleAt
    staleness := { grant.staleness with
      status := .stale
      checkedAt := some staleAt
      staleAt := some staleAt
      reason := some reason }
    auditRefs := appendUnique grant.auditRefs (auditRefs.getD []) }

/-- The updater of `review`. -/
def reviewUpdater (reviewedAt nextReviewDueAt : Millis) (auditRefs : Option (List String))
    (grant : PermissionGrantRecord) : PermissionGrantRecord :=
  if grant.state ≠ .active then grant
  else { grant with
    stateVersion := grant.stateVersion + 1
    stateEpoch := reviewedAt
    updatedAt := reviewedAt
    review := .periodic (max (nextReviewDueAt - reviewedAt) 1) nextReviewDueAt (some reviewedAt)
    staleness := { grant.staleness with status := .fresh, checkedAt := some reviewedAt }
    auditRefs := appendUnique grant.auditRefs (auditRefs.getD []) }

/-- The updater of `recordUse`: a grant of duration `once` expires with its use. -/
def recordUseUpdater (usedAt : Millis) (auditRef : Option String)
    (grant : PermissionGrantRecord) : PermissionGrantRecord :=
  let next := { grant with
    updatedAt := usedAt
    lastUsedAt := some usedAt
    usageCount := grant.usageCount + 1
    auditRefs := appendUnique grant.auditRefs (truthy auditRef).toList }
  if grant.duration ≠ .once then next
  else { next with
    state := .expired
    stateVersion := grant.stateVersion + 1
    stateEpoch := usedAt
    expiredAt := some usedAt }

/-- The updater of the last transaction of `supersede`. -/
def supersedeUpdater (supersededAt : Millis) (replacementId : String)
    (auditRefs : Option (List String)) (grant : PermissionGrantRecord) : PermissionGrantRecord :=
  { grant with
    state := .superseded
    stateVersion := grant.stateVersion + 1
    stateEpoch := supersededAt
    supersededAt := some supersededAt
    supersededBy := some replacementId
    updatedAt := supersededAt
    auditRefs := appendUnique grant.auditRefs (auditRefs.getD []) }

/-! ## The store and its callers -/

/-- A call of `supersede` between two of its transactions. -/
inductive Supersession
  | loaded (grantId : String) (supersededAt : SafeInt) (input : PermissionGrantCreateInput)
      (auditRefs : Option (List String))
  | created (grantId : String) (supersededAt : SafeInt) (replacement : PermissionGrantRecord)
      (auditRefs : Option (List String))

/-- The table, and the calls of `supersede` under way. -/
structure GrantStore where
  grants : GrantTable
  superseding : List Supersession

/-- One transaction of a caller, with the clock `now` it reads; an absent timestamp of
the caller is the clock's. `recordUse` reads the clock once for the check and, without a
`used_at`, once more. -/
inductive GrantOp
  | createProposed (input : PermissionGrantCreateInput) (now : Millis)
  | createActive (input : PermissionGrantCreateInput) (now : Millis)
  | activate (grantId : String) (activatedAt : Option Millis) (auditRefs : Option (List String))
      (now : Millis)
  | expire (grantId : String) (expiredAt : Option Millis) (auditRefs : List String) (now : Millis)
  | revoke (grantId : String) (revokedAt : Option Millis) (input : RevocationInput) (now : Millis)
  | markStale (grantId : String) (staleAt : Option Millis) (reason : String)
      (auditRefs : Option (List String)) (now : Millis)
  | review (grantId : String) (reviewedAt : Option Millis) (nextReviewDueAt : Millis)
      (auditRefs : Option (List String)) (now : Millis)
  | recordUse (grantId : String) (usedAt : Option Millis) (auditRef : Option String)
      (now usedNow : Millis)
  | supersedeLoad (grantId : String) (replacement : PermissionGrantCreateInput)
      (supersededAt : Option Millis) (auditRefs : Option (List String)) (now : Millis)
  | supersedeCreate (k : Nat) (now : Millis)
  | supersedeUpdate (k : Nat)

/-- The first transaction of `supersede`: the replacement is prepared with the grant it
replaces and the time of the replacement. -/
def supersedeLoad (s : GrantStore) (grantId : String) (replacement : PermissionGrantCreateInput)
    (supersededAt : Millis) (auditRefs : Option (List String)) : GrantStore × GrantOutcome :=
  match s.grants.get? grantId with
  | none => (s, .null)
  | some current =>
    match SafeInt.parse supersededAt with
    | none => (s, .threw)
    | some supersededAt =>
      let input := { replacement with
        supersedes := some (appendUnique (replacement.supersedes.getD []) [grantId])
        createdAt := some (replacement.createdAt.getD supersededAt.millis) }
      ({ s with superseding := s.superseding ++ [.loaded grantId supersededAt input auditRefs] },
        .returned current.record)

/-- The second transaction of `supersede`. -/
def supersedeCreate (s : GrantStore) (k : Nat) (now : Millis) : GrantStore × GrantOutcome :=
  match s.superseding[k]? with
  | some (.loaded grantId supersededAt input auditRefs) =>
    match create s.grants input .proposed now with
    | (grants, .returned replacement) =>
      (⟨grants, s.superseding.set k (.created grantId supersededAt replacement auditRefs)⟩,
        .returned replacement)
    | (grants, outcome) => (⟨grants, s.superseding.eraseIdx k⟩, outcome)
  | _ => (s, .null)

/-- The third transaction of `supersede`. -/
def supersedeUpdate (s : GrantStore) (k : Nat) : GrantStore × GrantOutcome :=
  match s.superseding[k]? with
  | some (.created grantId supersededAt replacement auditRefs) =>
    let (grants, outcome) := update s.grants grantId
      (supersedeUpdater supersededAt.millis replacement.grantId auditRefs) none
    (⟨grants, s.superseding.eraseIdx k⟩, outcome)
  | _ => (s, .null)

/-- A transaction on the table alone. -/
def GrantStore.onGrants (s : GrantStore) (f : GrantTable → GrantTable × GrantOutcome) :
    GrantStore × GrantOutcome :=
  ({ s with grants := (f s.grants).1 }, (f s.grants).2)

/-- One transaction. -/
def perform (s : GrantStore) : GrantOp → GrantStore × GrantOutcome
  | .createProposed input now => s.onGrants fun t => create t input .proposed now
  | .createActive input now => s.onGrants fun t => create t input .active now
  | .activate grantId activatedAt auditRefs now =>
    s.onGrants fun t => update t grantId (activateUpdater (activatedAt.getD now) auditRefs) none
  | .expire grantId expiredAt auditRefs now =>
    s.onGrants fun t => update t grantId (expireUpdater (expiredAt.getD now) auditRefs) none
  | .revoke grantId revokedAt input now =>
    s.onGrants fun t => update t grantId (revokeUpdater (revokedAt.getD now) input) none
  | .markStale grantId staleAt reason auditRefs now =>
    s.onGrants fun t =>
      update t grantId (markStaleUpdater (staleAt.getD now) reason auditRefs) none
  | .review grantId reviewedAt nextReviewDueAt auditRefs now =>
    s.onGrants fun t =>
      update t grantId (reviewUpdater (reviewedAt.getD now) nextReviewDueAt auditRefs) none
  | .recordUse grantId usedAt auditRef now usedNow =>
    s.onGrants fun t =>
      update t grantId (recordUseUpdater (usedAt.getD usedNow) auditRef) (some now)
  | .supersedeLoad grantId replacement supersededAt auditRefs now =>
    supersedeLoad s grantId replacement (supersededAt.getD now) auditRefs
  | .supersedeCreate k now => supersedeCreate s k now
  | .supersedeUpdate k => supersedeUpdate s k

/-- The store and its callers, one transaction a step. -/
def grantLTS : LTS GrantStore (GrantOp × GrantOutcome) := LTS.ofFn perform

end PulSeed.Grant
