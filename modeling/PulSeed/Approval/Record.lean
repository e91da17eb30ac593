import PulSeed.Lib.ObjectMap
import PulSeed.Runtime.Envelope
import Mathlib.Data.List.Sort

/-!
# Approval records (`runtime/store/approval-store.ts`, `runtime/permission-dialogue.ts`)

The rows of `approval_records` and the transactions of `ApprovalStore` on them: a pending
save leaves a resolved row alone, and a resolution of a row that is resolved already
answers with that row (`Rows.resolvePending_settled`). The payload of a record is the JSON
it was saved with; `getPendingPermissionTask` reads the permission task in it.
-/

namespace PulSeed.Approval

/-! ## Records -/

/-- `ApprovalStateSchema`. -/
inductive ApprovalState
  | pending | approved | denied | expired | cancelled
  deriving DecidableEq, Repr

/-- `ApprovalRecordSchema`. -/
structure ApprovalRecord where
  approvalId : String
  surfaceIssuanceId : Option String := none
  goalId : Option String := none
  requestEnvelopeId : String
  correlationId : String
  state : ApprovalState
  createdAt : Millis
  expiresAt : Millis
  resolvedAt : Option Millis := none
  responseChannel : Option String := none
  origin : Option ApprovalOrigin := none
  payload : Json

def ApprovalRecord.Valid (r : ApprovalRecord) : Prop :=
  minOne? r.surfaceIssuanceId ∧ IsSafeNonnegativeInt r.createdAt ∧
    IsSafeNonnegativeInt r.expiresAt ∧ IsSafeNonnegativeInt? r.resolvedAt ∧
    ∀ o ∈ r.origin, o.Valid

instance (r : ApprovalRecord) : Decidable r.Valid :=
  inferInstanceAs (Decidable (_ ∧ _ ∧ _ ∧ _ ∧ ∀ o ∈ r.origin, o.Valid))

/-- `ApprovalRecordSchema.parse`. -/
def ApprovalRecord.parse (r : ApprovalRecord) : Option ApprovalRecord :=
  if r.Valid then some r else none

theorem ApprovalRecord.parse_eq_some {r p : ApprovalRecord} (h : r.parse = some p) : p = r := by
  unfold ApprovalRecord.parse at h
  split at h
  · exact (Option.some.inj h).symm
  · cases h

/-! ## The permission task of a payload -/

/-- `value[key]` of an object; `undefined` is `none`. -/
def member (key : String) : Json → Option Json
  | .obj members => (members.find? fun m => m.1 == key).map Prod.snd
  | _ => none

/-- `{ ...value, [key]: item }` of an object. -/
def withMember (key : String) (item : Json) : Json → Json
  | .obj members => .obj (ObjectMap.setEntries members key item)
  | value => value

/-- The object without one member. -/
def withoutMember (key : String) : Json → Json
  | .obj members => .obj (members.filter fun m => m.1 ≠ key)
  | value => value

/-- `isRecord`. -/
def isRecord : Json → Bool
  | .obj _ => true
  | _ => false

/-- `z.string().min(1)`. -/
def stringMinOne : Json → Bool
  | .str s => decide (s ≠ "")
  | _ => false

/-- `z.boolean()`. -/
def boolean : Json → Bool
  | .bool _ => true
  | _ => false

/-- `z.number().int().nonnegative().safe()`. -/
def safeNonnegativeInt : Json → Bool
  | .num n => decide (IsSafeNonnegativeInt n)
  | _ => false

/-- `z.enum(values)`; a literal is an enumeration of one value. -/
def oneOf (values : List String) : Json → Bool
  | .str s => decide (s ∈ values)
  | _ => false

/-- `z.array(item)`, with `.min(1)` when `nonempty`. -/
def arrayOf (item : Json → Bool) (nonempty : Bool) : Json → Bool
  | .arr items => items.all item && (!nonempty || !items.isEmpty)
  | _ => false

/-- A required member of a schema. -/
def required (value : Json) (key : String) (schema : Json → Bool) : Bool :=
  (member key value).any schema

/-- An optional member of a schema, one with a default included. -/
def optional (value : Json) (key : String) (schema : Json → Bool) : Bool :=
  (member key value).all schema

/-- `PermissionGrantCapabilitySchema`. -/
def permissionGrantCapability : Json → Bool :=
  oneOf ["read_workspace", "write_workspace", "run_tests", "run_safe_local_commands",
    "update_memory", "update_surface", "notify_user", "delegate_work", "inspect_runtime",
    "prepare_draft"]

/-- `PermissionGrantExcludedCapabilitySchema`. -/
def permissionGrantExcludedCapability : Json → Bool :=
  oneOf ["destructive_action", "delete", "write_remote", "network_send", "external_send",
    "secret_change", "protected_path_mutation", "production_mutation", "billing_or_purchase",
    "unknown_capability"]

/-- `PendingPermissionGrantProposalScopeSchema`. -/
def pendingPermissionGrantProposalScope : Json → Bool :=
  oneOf ["once", "run", "goal", "session", "workspace", "project", "global"]

/-- The members of a strict object are among `keys`. -/
def strict (keys : List String) : Json → Bool
  | .obj members => members.all fun m => decide (m.1 ∈ keys)
  | _ => false

/-- `PendingPermissionGrantProposalSchema`. -/
def pendingPermissionGrantProposal (proposal : Json) : Bool :=
  strict ["schema_version", "capabilities", "current_request_capabilities",
    "excluded_capabilities", "default_scope", "allowed_scopes", "summary"] proposal
  && required proposal "schema_version" (oneOf ["permission-grant-proposal-v1"])
  && required proposal "capabilities" (arrayOf permissionGrantCapability true)
  && optional proposal "current_request_capabilities" (arrayOf permissionGrantCapability true)
  && optional proposal "excluded_capabilities" (arrayOf permissionGrantExcludedCapability false)
  && optional proposal "default_scope" pendingPermissionGrantProposalScope
  && optional proposal "allowed_scopes" (arrayOf pendingPermissionGrantProposalScope true)
  && optional proposal "summary" stringMinOne

/-- `PendingPermissionTargetSchema`. -/
def pendingPermissionTarget (target : Json) : Bool :=
  isRecord target
  && optional target "session_id" stringMinOne
  && optional target "run_id" stringMinOne
  && optional target "tool_id" stringMinOne
  && optional target "tool_call_id" stringMinOne

/-- `PendingPermissionTaskSchema`. -/
def pendingPermissionTask (task : Json) : Bool :=
  required task "kind" (oneOf ["permission"])
  && required task "id" stringMinOne
  && required task "description" stringMinOne
  && required task "action" stringMinOne
  && required task "operation_summary" stringMinOne
  && required task "risk_class" (oneOf ["low", "medium", "high", "critical", "unknown"])
  && required task "target" pendingPermissionTarget
  && required task "state_epoch" stringMinOne
  && optional task "wait_plan_id" stringMinOne
  && optional task "state_version" stringMinOne
  && optional task "expires_at" safeNonnegativeInt
  && optional task "permission_level" stringMinOne
  && optional task "is_destructive" boolean
  && optional task "reversibility" stringMinOne
  && optional task "grant_proposal" pendingPermissionGrantProposal

/-- `withPermissionExpiry`; `none` when the parse throws. Parsing drops the members the
schema does not name and fills the defaults of the proposal, which nothing here reads. -/
def withPermissionExpiry (task : Json) (expiresAt : Millis) : Option Json :=
  if (member "kind" task).any (oneOf ["permission"]) then
    let task := withMember "expires_at" (.num expiresAt) task
    if pendingPermissionTask task then some task else none
  else some task

/-- `getPendingPermissionTask`. -/
def getPendingPermissionTask (record : ApprovalRecord) : Option Json :=
  (member "task" record.payload).bind fun task =>
    if pendingPermissionTask task then some task
    else if (member "expires_at" task).isNone then none
    else
      let taskWithoutExpiry := withoutMember "expires_at" task
      if pendingPermissionTask taskWithoutExpiry then some taskWithoutExpiry else none

/-- `permission?.wait_plan_id` of a record. -/
def waitPlanId (record : ApprovalRecord) : Option String :=
  (getPendingPermissionTask record).bind fun permission =>
    match member "wait_plan_id" permission with
    | some (.str id) => some id
    | _ => none

/-! ## The store -/

/-- The rows of `approval_records`, by `approval_id`. -/
abbrev Rows := ObjectMap String ApprovalRecord

namespace Rows

/-- `loadPending`. -/
def loadPending (rows : Rows) (approvalId : String) : Option ApprovalRecord :=
  (rows.get? approvalId).bind fun record =>
    if record.state = .pending then some record else none

/-- `listPending`: by `created_at`, then by `approval_id`. -/
def listPending (rows : Rows) : List ApprovalRecord :=
  ((rows.entries.map Prod.snd).filter fun record => record.state = .pending).insertionSort
    fun a b => a.createdAt < b.createdAt ∨ a.createdAt = b.createdAt ∧ a.approvalId ≤ b.approvalId

/-- The transaction of `savePending`: a resolved row stays. -/
def savePending (rows : Rows) (parsed : ApprovalRecord) : Rows :=
  match rows.get? parsed.approvalId with
  | some existing => if existing.state ≠ .pending then rows else rows.set parsed.approvalId parsed
  | none => rows.set parsed.approvalId parsed

/-- What `resolvePending` does: it throws, or answers a record or `null`. -/
inductive Answer
  | threw
  | answered (record : Option ApprovalRecord)

/-- The transaction of `resolvePending`. -/
def resolvePending (rows : Rows) (approvalId : String) (state : ApprovalState)
    (resolvedAt : Millis) (responseChannel : Option String) : Rows × Answer :=
  match rows.get? approvalId with
  | none => (rows, .answered none)
  | some current =>
    if current.state ≠ .pending then (rows, .answered (some current))
    else
      match ApprovalRecord.parse { current with
          state := state
          resolvedAt := some resolvedAt
          responseChannel := responseChannel } with
      | none => (rows, .threw)
      | some resolved => (rows.set approvalId resolved, .answered (some resolved))

/-- The row is resolved. -/
def Settled (rows : Rows) (approvalId : String) (record : ApprovalRecord) : Prop :=
  rows.get? approvalId = some record ∧ record.state ≠ .pending

/-- A save of a pending record does not touch a resolved row. -/
theorem Settled.savePending {rows : Rows} {approvalId : String} {record : ApprovalRecord}
    (h : rows.Settled approvalId record) (parsed : ApprovalRecord) :
    (rows.savePending parsed).Settled approvalId record := by
  refine ⟨?_, h.2⟩
  unfold Rows.savePending
  by_cases hid : approvalId = parsed.approvalId
  · subst hid
    rw [h.1]
    dsimp only
    rw [if_pos h.2]
    exact h.1
  · have hset : (ObjectMap.set rows parsed.approvalId parsed).get? approvalId = some record := by
      rw [ObjectMap.get?_set, if_neg hid, h.1]
    split
    · split
      · exact h.1
      · exact hset
    · exact hset

/-- **What a resolution does**: it answers with the resolved row it finds and leaves the
rows alone, it resolves a pending row, or nothing is stored. -/
theorem resolvePending_cases {rows : Rows} {approvalId : String} {state : ApprovalState}
    {resolvedAt : Millis} {responseChannel : Option String} {rows' : Rows}
    {record : ApprovalRecord}
    (h : rows.resolvePending approvalId state resolvedAt responseChannel =
      (rows', .answered (some record))) :
    (rows' = rows ∧ rows.Settled approvalId record) ∨
    (record.state = state ∧ rows' = rows.set approvalId record ∧
      ∃ current, rows.get? approvalId = some current ∧ current.state = .pending) := by
  unfold Rows.resolvePending at h
  split at h
  · simp at h
  · next current hcurrent =>
    split at h
    · next hstate =>
      obtain ⟨rfl, hrecord⟩ := Prod.mk.inj h
      cases hrecord
      exact .inl ⟨rfl, hcurrent, hstate⟩
    · next hstate =>
      split at h
      · simp at h
      · next resolved hparse =>
        obtain ⟨rfl, hrecord⟩ := Prod.mk.inj h
        cases hrecord
        have hresolved := ApprovalRecord.parse_eq_some hparse
        exact .inr ⟨by rw [hresolved], rfl, current, hcurrent, not_not.mp hstate⟩

/-- A resolution that answers no record leaves the rows alone. -/
theorem resolvePending_rows {rows : Rows} {approvalId : String} {state : ApprovalState}
    {resolvedAt : Millis} {responseChannel : Option String} {rows' : Rows} {answer : Answer}
    (h : rows.resolvePending approvalId state resolvedAt responseChannel = (rows', answer))
    (hanswer : ∀ record, answer ≠ .answered (some record)) : rows' = rows := by
  unfold Rows.resolvePending at h
  split at h
  · exact (congrArg Prod.fst h).symm
  · split at h
    · exact (congrArg Prod.fst h).symm
    · split at h
      · exact (congrArg Prod.fst h).symm
      · exact absurd (congrArg Prod.snd h).symm (hanswer _)

/-- **A resolved row stays as it is.** -/
theorem Settled.resolvePending {rows : Rows} {approvalId : String} {record : ApprovalRecord}
    (h : rows.Settled approvalId record) (id : String) (state : ApprovalState)
    (resolvedAt : Millis) (responseChannel : Option String) :
    (rows.resolvePending id state resolvedAt responseChannel).1.Settled approvalId record := by
  cases hres : rows.resolvePending id state resolvedAt responseChannel with
  | mk rows' answer =>
    by_cases hanswer : ∃ r, answer = .answered (some r)
    · obtain ⟨r, rfl⟩ := hanswer
      rcases resolvePending_cases hres with ⟨rfl, -⟩ | ⟨-, rfl, current, hcurrent, hpending⟩
      · exact h
      · refine ⟨?_, h.2⟩
        have hid : approvalId ≠ id := by
          rintro rfl
          rw [h.1] at hcurrent
          exact h.2 (Option.some.inj hcurrent ▸ hpending)
        rw [ObjectMap.get?_set, if_neg hid, h.1]
    · obtain rfl := resolvePending_rows hres fun r hr => hanswer ⟨r, hr⟩
      exact h

end Rows

end PulSeed.Approval
