import Mathlib.Data.List.Lex
import Mathlib.Data.List.Sort
import PulSeed.Lib.Text
import PulSeed.Lib.Transition
import PulSeed.Runtime.Envelope

/-!
# Permission wait plans (`runtime/store/permission-wait-plan-store.ts`)

The row of one plan, and any number of callers of `resumeApproved` and of the marks. A
call loads the plan in one store step, decides on what it loaded, and saves the record
it computed in a later one; a resume that finds the plan past its time runs
`markExpired`, a load and a save of its own. `planLTS` interleaves these steps freely.

Whatever a call reads besides the store, the clock and the id of the audit event it
makes, is an argument of its load. A record or an event that fails its schema makes the
call throw.
-/

namespace PulSeed.WaitPlan

/-! ## Records -/

/-- `PermissionWaitPlanStateSchema`. -/
inductive PermissionWaitPlanState
  | waitingForPermission | approved | denied | expired | cancelled | resumed | mismatchRejected
  deriving DecidableEq, Repr

/-- `PermissionWaitPlanTargetSchema`. -/
structure PermissionWaitPlanTarget where
  goalId : Option String := none
  runId : Option String := none
  sessionId : Option String := none
  turnId : Option String := none
  toolCallId : Option String := none
  deriving DecidableEq

/-- The values of `reversibility`. -/
inductive Reversibility
  | reversible | irreversible | unknown
  deriving DecidableEq, Repr

/-- `PermissionWaitPlanPermissionSchema`. -/
structure PermissionWaitPlanPermission where
  permissionLevel : String
  isDestructive : Bool
  reversibility : Reversibility
  deriving DecidableEq

/-- `PermissionWaitPlanCapabilityFactsSchema`. -/
structure PermissionWaitPlanCapabilityFacts where
  toolPermissionLevel : String
  toolIsReadOnly : Bool
  toolIsDestructive : Bool
  toolRequiresNetwork : Option Bool := none
  toolActivityCategory : Option String := none
  toolTags : List String := []
  capabilityId : Option String := none
  capabilityProviderKind : Option String := none
  capabilityProviderRef : Option String := none
  capabilityOperationKind : Option String := none
  capabilitySideEffectProfile : Option String := none
  capabilityReadinessState : Option String := none
  capabilityApprovalFingerprint : Option String := none
  capabilityAdmissionId : Option String := none
  capabilityAdmissionStatus : Option String := none
  hostDecisionStatus : Option String := none
  hostDecisionReason : Option String := none
  permissionGrantStatus : Option String := none
  permissionGrantReason : Option String := none
  deriving DecidableEq

/-- `PermissionWaitCanonicalPlanSchema`. -/
structure PermissionWaitCanonicalPlan where
  toolName : String
  input : Json
  cwd : String
  command : Option String := none
  target : PermissionWaitPlanTarget
  permission : PermissionWaitPlanPermission
  stateEpoch : Option String := none
  capabilityFacts : PermissionWaitPlanCapabilityFacts

/-- `PermissionWaitPlanAuditEventSchema`. -/
structure PermissionWaitPlanAuditEvent where
  eventId : String
  state : PermissionWaitPlanState
  createdAt : Millis
  reason : Option String := none
  responseChannel : Option String := none
  auditRefs : List String := []
  mismatchReasons : Option (List String) := none

/-- `PermissionWaitPlanRecordSchema`. -/
structure PermissionWaitPlanRecord where
  waitPlanId : String
  approvalId : String
  goalId : Option String := none
  state : PermissionWaitPlanState
  createdAt : Millis
  updatedAt : Millis
  expiresAt : Option Millis := none
  resolvedAt : Option Millis := none
  resumedAt : Option Millis := none
  origin : Option ApprovalOrigin := none
  canonicalPlan : PermissionWaitCanonicalPlan
  auditRefs : List String := []
  auditEvents : List PermissionWaitPlanAuditEvent := []

/-! ## The schemas -/

def PermissionWaitPlanTarget.Valid (t : PermissionWaitPlanTarget) : Prop :=
  ∀ s ∈ [t.goalId, t.runId, t.sessionId, t.turnId, t.toolCallId], minOne? s

instance (t : PermissionWaitPlanTarget) : Decidable t.Valid :=
  inferInstanceAs (Decidable (∀ s ∈ [_, _, _, _, _], minOne? s))

def PermissionWaitPlanCapabilityFacts.Valid (f : PermissionWaitPlanCapabilityFacts) : Prop :=
  f.toolPermissionLevel ≠ "" ∧ ∀ s ∈ [f.toolActivityCategory, f.capabilityId,
    f.capabilityProviderKind, f.capabilityProviderRef, f.capabilityOperationKind,
    f.capabilitySideEffectProfile, f.capabilityReadinessState, f.capabilityApprovalFingerprint,
    f.capabilityAdmissionId, f.capabilityAdmissionStatus, f.hostDecisionStatus,
    f.hostDecisionReason, f.permissionGrantStatus, f.permissionGrantReason], minOne? s

instance (f : PermissionWaitPlanCapabilityFacts) : Decidable f.Valid :=
  inferInstanceAs (Decidable (_ ∧ ∀ s ∈ [_, _, _, _, _, _, _, _, _, _, _, _, _, _], minOne? s))

def PermissionWaitCanonicalPlan.Valid (p : PermissionWaitCanonicalPlan) : Prop :=
  (p.toolName ≠ "" ∧ p.cwd ≠ "" ∧ minOne? p.command ∧ minOne? p.stateEpoch ∧
    p.permission.permissionLevel ≠ "") ∧ p.target.Valid ∧ p.capabilityFacts.Valid

instance (p : PermissionWaitCanonicalPlan) : Decidable p.Valid :=
  inferInstanceAs (Decidable ((_ ∧ _ ∧ _ ∧ _ ∧ _) ∧ _ ∧ _))

def PermissionWaitPlanAuditEvent.Valid (e : PermissionWaitPlanAuditEvent) : Prop :=
  e.eventId ≠ "" ∧ IsSafeNonnegativeInt e.createdAt ∧ minOne? e.reason ∧ minOne? e.responseChannel

instance (e : PermissionWaitPlanAuditEvent) : Decidable e.Valid :=
  inferInstanceAs (Decidable (_ ∧ _ ∧ _ ∧ _))

def PermissionWaitPlanRecord.Valid (r : PermissionWaitPlanRecord) : Prop :=
  (r.waitPlanId ≠ "" ∧ r.approvalId ≠ "" ∧ minOne? r.goalId ∧
    IsSafeNonnegativeInt r.createdAt ∧ IsSafeNonnegativeInt r.updatedAt) ∧
  (∀ x ∈ [r.expiresAt, r.resolvedAt, r.resumedAt], IsSafeNonnegativeInt? x) ∧
  (∀ o ∈ r.origin, o.Valid) ∧ r.canonicalPlan.Valid ∧ ∀ e ∈ r.auditEvents, e.Valid

instance (r : PermissionWaitPlanRecord) : Decidable r.Valid :=
  inferInstanceAs (Decidable ((_ ∧ _ ∧ _ ∧ _ ∧ _) ∧
    (∀ x ∈ [_, _, _], IsSafeNonnegativeInt? x) ∧ (∀ o ∈ r.origin, o.Valid) ∧ _ ∧
    ∀ e ∈ r.auditEvents, e.Valid))

/-- `PermissionWaitPlanAuditEventSchema.parse`. -/
def PermissionWaitPlanAuditEvent.parse (e : PermissionWaitPlanAuditEvent) :
    Option PermissionWaitPlanAuditEvent :=
  if e.Valid then some e else none

/-- `PermissionWaitPlanRecordSchema.parse`. -/
def PermissionWaitPlanRecord.parse (r : PermissionWaitPlanRecord) :
    Option PermissionWaitPlanRecord :=
  if r.Valid then some r else none

/-! ## Comparing plans -/

/-- The order of `Object.keys(value).sort()`: by code units. -/
def keyLE (a b : String × Json) : Prop :=
  (utf16 a.1).map UInt16.toNat ≤ (utf16 b.1).map UInt16.toNat

instance : DecidableRel keyLE := fun a b =>
  inferInstanceAs (Decidable ((utf16 a.1).map UInt16.toNat ≤ (utf16 b.1).map UInt16.toNat))

/-- `sorted[key] = value`, one after the other: `__proto__` sets the prototype and no member. -/
def assignMembers (members : List (String × Json)) : List (String × Json) :=
  members.filter fun m => m.1 ≠ "__proto__"

mutual

/-- `sortJson`. -/
def sortJson : Json → Json
  | .null => .null
  | .bool b => .bool b
  | .num n => .num n
  | .str s => .str s
  | .arr items => .arr (sortItems items)
  | .obj members => .obj (assignMembers ((sortMembers members).insertionSort keyLE))

def sortItems : List Json → List Json
  | [] => []
  | item :: items => sortJson item :: sortItems items

def sortMembers : List (String × Json) → List (String × Json)
  | [] => []
  | (key, value) :: members => (key, sortJson value) :: sortMembers members

end

mutual

/-- The values are equal, members in order; then `JSON.stringify` prints the same. -/
def sameJson : Json → Json → Bool
  | .null, .null => true
  | .bool a, .bool b => a == b
  | .num a, .num b => a == b
  | .str a, .str b => a == b
  | .arr xs, .arr ys => sameItems xs ys
  | .obj ms, .obj ns => sameMembers ms ns
  | _, _ => false

def sameItems : List Json → List Json → Bool
  | [], [] => true
  | x :: xs, y :: ys => sameJson x y && sameItems xs ys
  | _, _ => false

def sameMembers : List (String × Json) → List (String × Json) → Bool
  | [], [] => true
  | (k, v) :: ms, (l, w) :: ns => k == l && sameJson v w && sameMembers ms ns
  | _, _ => false

end

/-- `stableJson(a) === stableJson(b)`. -/
def sameStableJson (a b : Json) : Bool := sameJson (sortJson a) (sortJson b)

/-- `diffPermissionWaitCanonicalPlans`. -/
def diffPermissionWaitCanonicalPlans (expected actual : PermissionWaitCanonicalPlan) :
    List String :=
  (if expected.toolName ≠ actual.toolName then ["tool_name_changed"] else [])
    ++ (if expected.cwd ≠ actual.cwd then ["cwd_changed"] else [])
    ++ (if expected.command ≠ actual.command then ["command_changed"] else [])
    ++ (if expected.stateEpoch ≠ actual.stateEpoch then ["state_epoch_changed"] else [])
    ++ (if expected.target ≠ actual.target then ["target_changed"] else [])
    ++ (if expected.permission ≠ actual.permission then ["permission_changed"] else [])
    ++ (if expected.capabilityFacts ≠ actual.capabilityFacts then ["capability_facts_changed"]
      else [])
    ++ (if sameStableJson expected.input actual.input then [] else ["input_changed"])

/-- `isTerminalPermissionWaitPlanState`. -/
def PermissionWaitPlanState.isTerminal : PermissionWaitPlanState → Bool
  | .denied | .expired | .cancelled | .resumed | .mismatchRejected => true
  | .waitingForPermission | .approved => false

/-- `mergeRefs`. -/
def mergeRefs (existing next : List String) : List String := (existing ++ next).eraseDups

/-! ## The calls -/

/-- The input of `transition`. -/
structure TransitionInput where
  resolvedAt : Option Millis := none
  responseChannel : Option String := none
  reason : Option String := none
  auditRefs : Option (List String) := none

/-- The input of `resumeApproved`. -/
structure ResumeInput where
  canonicalPlan : PermissionWaitCanonicalPlan
  resumedAt : Option Millis := none
  auditRefs : Option (List String) := none

/-- A call on the plan. -/
inductive PlanRequest
  | transition (state : PermissionWaitPlanState) (input : TransitionInput)
  | resumeApproved (input : ResumeInput)

/-- `markApproved`. -/
def markApproved (resolvedAt : Option Millis) (responseChannel : Option String)
    (auditRefs : Option (List String)) : PlanRequest :=
  .transition .approved ⟨resolvedAt, responseChannel, none, auditRefs⟩

/-- `markDenied`. -/
def markDenied (input : TransitionInput) : PlanRequest := .transition .denied input

/-- The transition of `markExpired`. -/
def markExpiredInput (resolvedAt : Option Millis) (reason : Option String)
    (auditRefs : Option (List String)) : TransitionInput :=
  ⟨resolvedAt, none, some (reason.getD "approval_expired"), auditRefs⟩

/-- `markExpired`. -/
def markExpired (resolvedAt : Option Millis) (reason : Option String)
    (auditRefs : Option (List String)) : PlanRequest :=
  .transition .expired (markExpiredInput resolvedAt reason auditRefs)

/-- `markCancelled`. -/
def markCancelled (input : TransitionInput) : PlanRequest := .transition .cancelled input

/-- What the caller of a call gets. -/
inductive PlanResult
  /-- of a mark: the record, or `null` -/
  | marked (record : Option PermissionWaitPlanRecord)
  | resumed (record : PermissionWaitPlanRecord)
  | mismatchRejected (record : PermissionWaitPlanRecord) (mismatchReasons : List String)
  | expired (record : PermissionWaitPlanRecord)
  | notApproved (record : PermissionWaitPlanRecord)
  | notFound

/-- What a call does with its load: it returns, throws, is to save a record and return a
result, or is to mark the plan expired. -/
inductive Decision
  | done (result : PlanResult)
  | throw
  | save (record : PermissionWaitPlanRecord) (result : PlanResult)
  | expire (loaded : PermissionWaitPlanRecord) (input : TransitionInput)

/-- What a call reads after its load: the clock, and the id and the clock of `event`. -/
structure Reading where
  now : Millis
  eventId : String
  eventAt : Millis

/-- `event`. -/
def event (reading : Reading) (state : PermissionWaitPlanState) (reason : Option String)
    (responseChannel : Option String) (auditRefs : Option (List String))
    (mismatchReasons : Option (List String)) : Option PermissionWaitPlanAuditEvent :=
  PermissionWaitPlanAuditEvent.parse
    { eventId := reading.eventId
      state := state
      createdAt := reading.eventAt
      reason := truthy reason
      responseChannel := truthy responseChannel
      auditRefs := auditRefs.getD []
      mismatchReasons := mismatchReasons }

/-- The record with an audit event appended, parsed as `save` parses it. -/
def withEvent (record : PermissionWaitPlanRecord) (auditRefs : Option (List String))
    (event : Option PermissionWaitPlanAuditEvent) : Option PermissionWaitPlanRecord :=
  event.bind fun event => PermissionWaitPlanRecord.parse { record with
    auditRefs := mergeRefs record.auditRefs (auditRefs.getD [])
    auditEvents := record.auditEvents ++ [event] }

/-- `save`, up to its transaction. -/
def saving (record : Option PermissionWaitPlanRecord)
    (result : PermissionWaitPlanRecord → PlanResult) : Decision :=
  match record with
  | none => .throw
  | some record => .save record (result record)

/-- `transition` after its load, with the result it makes of its record. -/
def transition (result : Option PermissionWaitPlanRecord → PlanResult)
    (state : PermissionWaitPlanState) (input : TransitionInput) (reading : Reading) :
    Option PermissionWaitPlanRecord → Decision
  | none => .done (result none)
  | some current =>
    if current.state.isTerminal then .done (result (some current))
    else if current.state = state then .done (result (some current))
    else
      let resolvedAt := input.resolvedAt.getD reading.now
      saving (withEvent { current with
          state := state
          updatedAt := resolvedAt
          resolvedAt := some resolvedAt } input.auditRefs
          (event reading state input.reason input.responseChannel input.auditRefs none))
        (fun record => result (some record))

/-- `resumeApproved` after its first load. -/
def resumeApproved (input : ResumeInput) (reading : Reading) :
    Option PermissionWaitPlanRecord → Decision
  | none => .done .notFound
  | some current =>
    if current.state = .expired then .done (.expired current)
    else if (current.state = .waitingForPermission ∨ current.state = .approved) ∧
        current.expiresAt.any (fun expiresAt => decide (expiresAt ≤ reading.now)) then
      .expire current (markExpiredInput (some reading.now) (some "approval_expired_before_resume")
        input.auditRefs)
    else if current.state ≠ .approved then .done (.notApproved current)
    else
      let mismatchReasons := diffPermissionWaitCanonicalPlans current.canonicalPlan
        input.canonicalPlan
      if mismatchReasons ≠ [] then
        saving (withEvent { current with
            state := .mismatchRejected
            updatedAt := reading.now
            resolvedAt := some reading.now } input.auditRefs
            (event reading .mismatchRejected (some "canonical_plan_mismatch") none
              input.auditRefs (some mismatchReasons)))
          (fun record => .mismatchRejected record mismatchReasons)
      else
        let resumedAt := input.resumedAt.getD reading.now
        saving (withEvent { current with
            state := .resumed
            resumedAt := some resumedAt
            updatedAt := resumedAt } input.auditRefs
            (event reading .resumed (some "approved_plan_resumed") none input.auditRefs none))
          .resumed

/-- Where a call is. -/
inductive PlanPhase
  /-- before its load -/
  | loading (request : PlanRequest)
  /-- a resume before the load of its `markExpired` -/
  | expiring (loaded : PermissionWaitPlanRecord) (input : TransitionInput)
  /-- before the transaction of `save` -/
  | saving (record : PermissionWaitPlanRecord) (result : PlanResult)
  | returned (result : PlanResult)
  | threw

/-- The phase a decision leads to. -/
def Decision.phase : Decision → PlanPhase
  | .done result => .returned result
  | .throw => .threw
  | .save record result => .saving record result
  | .expire loaded input => .expiring loaded input

/-- The decision of a call at its load. -/
def PlanPhase.decide (row : Option PermissionWaitPlanRecord) (reading : Reading) :
    PlanPhase → Option Decision
  | .loading (.transition state input) => some (transition .marked state input reading row)
  | .loading (.resumeApproved input) => some (resumeApproved input reading row)
  | .expiring loaded input =>
    some (transition (fun expired => .expired (expired.getD loaded)) .expired input reading row)
  | _ => none

/-- The row of the plan and the calls on it, in the order they were made. -/
structure PlanStore where
  row : Option PermissionWaitPlanRecord
  calls : List PlanPhase

/-- A step: a new call, the load of a call, the transaction of its save. -/
inductive PlanStep
  | call (request : PlanRequest)
  | load (k : Nat) (reading : Reading)
  | save (k : Nat)

/-- One step; a step that is not due is disabled. -/
def planStep (s : PlanStore) : PlanStep → Option PlanStore
  | .call request => some { s with calls := s.calls ++ [.loading request] }
  | .load k reading =>
    s.calls[k]?.bind fun phase =>
      (phase.decide s.row reading).map fun decision =>
        { s with calls := s.calls.set k decision.phase }
  | .save k =>
    s.calls[k]?.bind fun phase =>
      match phase with
      | .saving record result =>
        some { row := some record, calls := s.calls.set k (.returned result) }
      | _ => none

/-- Any number of callers on one plan. -/
def planLTS : LTS PlanStore PlanStep := LTS.ofPartial planStep

/-- The call has returned a successful resume. -/
def PlanPhase.isResumed : PlanPhase → Bool
  | .returned (.resumed _) => true
  | _ => false

end PulSeed.WaitPlan
