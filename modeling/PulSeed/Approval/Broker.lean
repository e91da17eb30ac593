import PulSeed.Approval.Record
import PulSeed.Permission.WaitPlan

/-!
# The approval broker (`runtime/approval-broker.ts`)

One broker, its sessions, the approval rows and the wait plans. Every call on the broker,
every timer that fires and every delivery is a *task*; a task runs without interruption
from one `await` to the next, and `brokerStep` interleaves these pieces freely. A wait plan
is stepped by `WaitPlan.planStep`, for the calls of others as well.

A finalization waits for the save of the session it finds, takes whatever session is there
afterwards, resolves the row, moves the wait plan, and only then answers: it resolves the
promise of the session, broadcasts and returns. What can be seen of it is collected in
`observed`.
-/

namespace PulSeed.Approval

open WaitPlan (PlanStore PlanStep planStep PlanPhase TransitionInput PlanRequest)

/-! ## Action bindings (`runtime/surface-projection-protocol.ts`) -/

/-- `MAX_VALID_DATE_MS`. -/
def maxValidDateMs : Millis := 8640000000000000

/-- `safeEpochDateTime`, as the milliseconds of the date. -/
def safeEpochDateTime (value : Millis) : Option Int :=
  if maxValidDateMs < |value| then none else some (value.num.tdiv value.den)

/-- What a call reads of the clock: `this.now()`, and the date where that is not one. -/
structure Reading where
  now : Millis
  date : Int

/-- `safeEpochDateTime(this.now()) ?? new Date()`. -/
def Reading.dateTime (reading : Reading) : Int :=
  (safeEpochDateTime reading.now).getD reading.date

/-- The kinds of the two actions on an approval. -/
inductive SurfaceActionKind
  | approve | reject
  deriving DecidableEq, Repr

/-- `approved ? "approve" : "reject"`. -/
def SurfaceActionKind.ofDecision (approved : Bool) : SurfaceActionKind :=
  if approved then .approve else .reject

/-- `SurfaceActionBindingSchema`: the members `validateSurfaceActionBinding` compares. The
surface and its instance are those of the record itself, the status is `active`. -/
structure SurfaceActionBinding where
  bindingId : String
  actionKind : SurfaceActionKind
  expiresAt : Option Int
  conversationId : Option String
  sessionId : Option String
  messageId : Option String

/-- `surfaceActionBindingToken`. -/
def surfaceActionBindingToken (binding : SurfaceActionBinding) : String :=
  match binding.bindingId.toList with
  | 's' :: 'a' :: 'b' :: ':' :: token => String.ofList token
  | _ => binding.bindingId

/-- `findSurfaceActionBindingByToken`. -/
def findSurfaceActionBindingByToken (bindings : List SurfaceActionBinding) (token : String) :
    Option SurfaceActionBinding :=
  bindings.find? fun binding =>
    binding.bindingId == token || surfaceActionBindingToken binding == token

/-- `expected === undefined || expected === actual`. -/
def targetMatches (expected actual : Option String) : Bool :=
  expected.isNone || decide (expected = actual)

/-- `validateSurfaceActionBinding(..).status === "accepted"`. -/
def validateSurfaceActionBinding (binding : SurfaceActionBinding) (actionKind : SurfaceActionKind)
    (conversationId sessionId messageId : Option String) (now : Int) : Bool :=
  !(binding.expiresAt.any fun expiresAt => decide (expiresAt < now))
    && decide (binding.actionKind = actionKind)
    && targetMatches binding.conversationId conversationId
    && targetMatches binding.sessionId sessionId
    && targetMatches binding.messageId messageId

/-! ## The broker -/

/-- `ApprovalBrokerOptions`, and what the broker takes from the surface protocol: the
hash in the id of a binding, and whether the schemas accept the projection of a record. -/
structure ApprovalBrokerOptions where
  permissionWaitPlanStore : Bool
  deliverConversationalApproval : Bool
  stableToken : ApprovalRecord → SurfaceActionKind → String
  projects : ApprovalRecord → Bool

/-- `createApprovalActionBinding`. -/
def createApprovalActionBinding (options : ApprovalBrokerOptions) (record : ApprovalRecord)
    (actionKind : SurfaceActionKind) : SurfaceActionBinding where
  bindingId := options.stableToken record actionKind
  actionKind := actionKind
  expiresAt := safeEpochDateTime record.expiresAt
  conversationId := record.origin.bind fun origin => truthy (some origin.conversationId)
  sessionId := record.origin.bind fun origin => truthy origin.sessionId
  messageId := record.origin.bind fun origin => truthy origin.turnId

/-- The action bindings of `projectApprovalSurface`; `none` when a schema throws. -/
def projectApprovalSurface (options : ApprovalBrokerOptions) (record : ApprovalRecord) :
    Option (List SurfaceActionBinding) :=
  if options.projects record then
    some [createApprovalActionBinding options record .approve,
      createApprovalActionBinding options record .reject]
  else none

/-- `ApprovalResolutionBinding`. -/
structure ApprovalResolutionBinding where
  surfaceActionBindingId : Option String := none
  surfaceActionBindingToken : Option String := none

/-- `validateApprovalResolutionBinding`; `none` when it throws. -/
def validateApprovalResolutionBinding (options : ApprovalBrokerOptions) (record : ApprovalRecord)
    (approved : Bool) (bindingInput : ApprovalResolutionBinding) (now : Int) : Option Bool :=
  (projectApprovalSurface options record).map fun bindings =>
    let expectedAction := SurfaceActionKind.ofDecision approved
    let expectedBinding := createApprovalActionBinding options record expectedAction
    match truthy (bindingInput.surfaceActionBindingId.or
        bindingInput.surfaceActionBindingToken) with
    | none => false
    | some inputRef =>
      match findSurfaceActionBindingByToken bindings inputRef with
      | none => false
      | some providedBinding =>
        decide (providedBinding.bindingId = expectedBinding.bindingId)
          && validateSurfaceActionBinding providedBinding expectedAction none none none now

/-- `requiredFieldMatches`. -/
def requiredFieldMatches (expected actual : Option String) : Bool :=
  expected.isSome && decide (expected = actual)

/-- `approvalOriginMatches`. -/
def approvalOriginMatches (expected : Option ApprovalOrigin) (actual : ApprovalOrigin) : Bool :=
  expected.any fun expected =>
    decide (expected.channel = actual.channel)
      && decide (expected.conversationId = actual.conversationId)
      && requiredFieldMatches expected.userId actual.userId
      && requiredFieldMatches expected.sessionId actual.sessionId
      && requiredFieldMatches expected.turnId actual.turnId

/-- The arguments of `requestApproval` and, with an origin, of
`requestConversationalApproval`. -/
structure ApprovalRequest where
  approvalId : String
  goalId : String
  task : Json
  timeoutMs : Millis
  origin : Option ApprovalOrigin := none
  deliverOverride : Bool := false

/-- The record of a request; `none` when the task is not a permission task it can be. -/
def ApprovalRequest.record (request : ApprovalRequest) (surfaceIssuanceId : String)
    (createdAt : Millis) : Option ApprovalRecord :=
  (withPermissionExpiry request.task (createdAt + request.timeoutMs)).map fun taskWithExpiry =>
    { approvalId := request.approvalId
      surfaceIssuanceId := some surfaceIssuanceId
      goalId := some request.goalId
      requestEnvelopeId := request.approvalId
      correlationId := request.approvalId
      state := .pending
      createdAt := createdAt
      expiresAt := createdAt + request.timeoutMs
      origin := request.origin
      payload := .obj [("task", taskWithExpiry)] }

/-- The two ways to resolve an approval. -/
inductive ResolveCall
  | resolveApproval (approved : Bool) (responseChannel : String)
      (binding : ApprovalResolutionBinding)
  | resolveConversationalApproval (approved : Bool) (origin : ApprovalOrigin)

def ResolveCall.approved : ResolveCall → Bool
  | .resolveApproval approved _ _ => approved
  | .resolveConversationalApproval approved _ => approved

def ResolveCall.responseChannel : ResolveCall → String
  | .resolveApproval _ responseChannel _ => responseChannel
  | .resolveConversationalApproval _ origin => origin.channel

/-- The checks of a call on the pending record it found, before `finalizeApproval`; `none`
when they throw. -/
def ResolveCall.admits (options : ApprovalBrokerOptions) (reading : Reading)
    (record : Option ApprovalRecord) : ResolveCall → Option Bool
  | .resolveApproval approved _ binding =>
    match record with
    | none => some false
    | some pendingRecord =>
      if pendingRecord.origin.isSome then some false
      else validateApprovalResolutionBinding options pendingRecord approved binding
        reading.dateTime
  | .resolveConversationalApproval approved origin =>
    match record with
    | none => some false
    | some record =>
      if approvalOriginMatches record.origin origin then
        let actionKind := SurfaceActionKind.ofDecision approved
        (projectApprovalSurface options record).map fun _ =>
          validateSurfaceActionBinding (createApprovalActionBinding options record actionKind)
            actionKind (some origin.conversationId) origin.sessionId origin.turnId
            reading.dateTime
      else some false

/-- The resolution a finalization is to make: a decision, whose flag is its state. -/
structure Resolution where
  state : ApprovalState
  approved : Bool
  reason : Option String := none
  responseChannel : Option String := none
  isDecision : state ≠ .pending
  agrees : approved = true ↔ state = .approved

/-- The resolution of a call. -/
def Resolution.answer (approved : Bool) (responseChannel : String) : Resolution where
  state := if approved then .approved else .denied
  approved := approved
  responseChannel := some responseChannel
  isDecision := by cases approved <;> simp
  agrees := by cases approved <;> simp

/-- The resolution of a timer and of `start`. -/
def Resolution.timeout : Resolution where
  state := .expired
  approved := false
  reason := some "timeout"
  responseChannel := some "system"
  isDecision := by simp
  agrees := by simp

/-- The resolution of a delivery that failed. -/
def Resolution.undelivered (reason : Option String) (responseChannel : String) : Resolution where
  state := .denied
  approved := false
  reason := some (reason.getD "approval_channel_unreachable")
  responseChannel := some responseChannel
  isDecision := by simp
  agrees := by simp

/-- Who waits for a finalization. -/
inductive Caller
  /-- a resolve call with this decision -/
  | call (approved : Bool)
  | timer
  /-- a delivery on this channel, in its `try` or not -/
  | delivery (responseChannel : String) (inTry : Bool)
  /-- `start`, with the records still to restore and the request that waits for it -/
  | start (request : Option ApprovalRequest) (records : List ApprovalRecord)

/-- One `finalizeApproval`. -/
structure Finalization where
  caller : Caller
  approvalId : String
  resolution : Resolution

/-- `PendingApprovalSession`: `resolve` and `ready` are the request they belong to, `timer`
says that it has not fired. -/
structure PendingApprovalSession where
  record : ApprovalRecord
  resolve : Option Nat
  timer : Bool
  ready : Option Nat
  finalizing : Bool

/-- Where a task is. -/
inductive Task
  /-- a request whose `start` returned -/
  | started (request : ApprovalRequest)
  /-- `start` before it lists the pending records -/
  | listing (request : Option ApprovalRequest)
  | restoring (request : Option ApprovalRequest) (records : List ApprovalRecord)
  /-- a request before the transaction of its `savePending` -/
  | saving (record : ApprovalRecord) (deliverOverride : Bool)
  | saved (record : ApprovalRecord) (deliverOverride : Bool)
  | saveFailed (record : ApprovalRecord)
  /-- a request whose `ready` is fulfilled, or rejected -/
  | ready
  | readyRejected
  | delivering (record : ApprovalRecord) (responseChannel : String)
  /-- a resolve call before and after its `loadPending` -/
  | loading (approvalId : String) (call : ResolveCall)
  | loaded (approvalId : String) (call : ResolveCall) (record : Option ApprovalRecord)
  | awaitingReady (finalization : Finalization) (ready : Nat)
  | resolving (finalization : Finalization) (session : Option PendingApprovalSession)
      (resolvedAt : Millis)
  | resolved (finalization : Finalization) (session : Option PendingApprovalSession)
      (record : ApprovalRecord)
  /-- while the mark of the wait plan is on its way -/
  | transitioning (finalization : Finalization) (session : Option PendingApprovalSession)
      (record : ApprovalRecord) (mark : Option (String × Nat))
  | finished

/-- What can be seen of an approval. -/
inductive Observation
  /-- the row was resolved -/
  | resolvedRow (state : ApprovalState)
  /-- the promise of this request resolved -/
  | promise (request : Nat) (approved : Bool)
  /-- `approval_resolved` -/
  | approvalResolved (goalId : Option String) (approved : Bool) (reason : Option String)
      (responseChannel : Option String)
  /-- the wait plan was asked to move -/
  | transition (waitPlanId : String) (state : ApprovalState)
  /-- a resolve call with this decision returned `true` -/
  | returnedTrue (approved : Bool)

/-- The broker, its store and its tasks. -/
structure State where
  rows : Rows
  plans : String → PlanStore
  pending : ObjectMap String PendingApprovalSession
  started : Bool
  broadcast : Bool
  tasks : List Task
  /-- the requests whose promise is settled -/
  settled : List Nat
  observed : List (String × Observation)

/-- A broker on a store, before anything was called. -/
def State.initial (rows : Rows) (plans : String → PlanStore) (broadcast : Bool) : State where
  rows := rows
  plans := plans
  pending := .empty
  started := false
  broadcast := broadcast
  tasks := []
  settled := []
  observed := []

namespace State

def put (s : State) (k : Nat) (task : Task) : State := { s with tasks := s.tasks.set k task }

def spawn (s : State) (task : Task) : State := { s with tasks := s.tasks ++ [task] }

def observe (s : State) (approvalId : String) (observation : Observation) : State :=
  { s with observed := s.observed ++ [(approvalId, observation)] }

/-- `trackPending`: the timer of an earlier session is cleared with it. -/
def trackPending (s : State) (record : ApprovalRecord) (request : Option Nat) : State :=
  let session :=
    { record := record
      resolve := request
      timer := true
      ready := request
      finalizing := false }
  { s with pending := s.pending.set record.approvalId session }

/-- `finalizeApproval` after the wait for `ready`, up to the transaction. -/
def takeSession (s : State) (f : Finalization) (now : Millis) : State × Task :=
  ({ s with pending := s.pending.delete f.approvalId },
    .resolving f (s.pending.get? f.approvalId) now)

/-- `finalizeApproval`, up to its first `await`. -/
def finalizeApproval (s : State) (f : Finalization) (now : Millis) : State × Task :=
  match s.pending.get? f.approvalId with
  | some session =>
    match session.ready with
    | some ready =>
      ({ s with pending := s.pending.set f.approvalId { session with finalizing := true } },
        .awaitingReady f ready)
    | none => s.takeSession f now
  | none => s.takeSession f now

/-- The state after a piece of task `k` that left the task `result.2`. -/
def continued (k : Nat) (result : State × Task) : State := result.1.put k result.2

/-- The state after the first piece of a new task. -/
def launched (result : State × Task) : State := result.1.spawn result.2

/-- What the caller does when its finalization returned. -/
def returned (s : State) (k : Nat) (f : Finalization) (record : Option ApprovalRecord) : State :=
  match f.caller with
  | .call approved =>
    match record with
    | some _ => (s.observe f.approvalId (.returnedTrue approved)).put k .finished
    | none => s.put k .finished
  | .start request records => s.put k (.restoring request records)
  | .timer | .delivery _ _ => s.put k .finished

/-- What the caller does when its finalization threw. -/
def threw (s : State) (k : Nat) (f : Finalization) (now : Millis) : State :=
  match f.caller with
  | .delivery responseChannel true =>
    continued k (s.finalizeApproval
      ⟨.delivery responseChannel false, f.approvalId, .undelivered none responseChannel⟩ now)
  | _ => s.put k .finished

/-- A resolve call once it has the pending record. -/
def resolveWith (options : ApprovalBrokerOptions) (s : State) (approvalId : String)
    (call : ResolveCall) (record : Option ApprovalRecord) (reading : Reading) : State × Task :=
  match call.admits options reading record with
  | some true => s.finalizeApproval ⟨.call call.approved, approvalId,
      .answer call.approved call.responseChannel⟩ reading.now
  | _ => (s, .finished)

/-- The mark of the wait plan that `transitionPermissionWaitPlan` makes. -/
def markRequest (record : ApprovalRecord) (resolution : Resolution) (now : Millis) :
    Option PlanRequest :=
  let resolvedAt := some (record.resolvedAt.getD now)
  let auditRefs := some ["approval:" ++ record.approvalId]
  let input : TransitionInput :=
    ⟨resolvedAt, truthy resolution.responseChannel, truthy resolution.reason, auditRefs⟩
  match resolution.state with
  | .approved => some (WaitPlan.markApproved resolvedAt (truthy resolution.responseChannel)
      auditRefs)
  | .denied => some (WaitPlan.markDenied input)
  | .expired => some (WaitPlan.markExpired resolvedAt (truthy resolution.reason) auditRefs)
  | .cancelled => some (WaitPlan.markCancelled input)
  | .pending => none

/-- The wait plan that `transitionPermissionWaitPlan` moves. -/
def planOf (options : ApprovalBrokerOptions) (record : ApprovalRecord) : Option String :=
  if options.permissionWaitPlanStore then truthy (waitPlanId record) else none

/-- `transitionPermissionWaitPlan`, up to its `await`. -/
def transitionPermissionWaitPlan (options : ApprovalBrokerOptions) (s : State) (k : Nat)
    (f : Finalization) (session : Option PendingApprovalSession) (record : ApprovalRecord)
    (now : Millis) : State :=
  match planOf options record, markRequest record f.resolution now with
  | some plan, some request =>
    { (s.observe f.approvalId (.transition plan f.resolution.state)).put k
        (.transitioning f session record (some (plan, (s.plans plan).calls.length))) with
      plans := Function.update s.plans plan
        { s.plans plan with calls := (s.plans plan).calls ++ [.loading request] } }
  | _, _ => s.put k (.transitioning f session record none)

/-- `currentSession?.resolve?.(resolution.approved)`: the first settlement counts. -/
def resolvePromise (s : State) (f : Finalization) (session : Option PendingApprovalSession) :
    State :=
  match session.bind PendingApprovalSession.resolve with
  | some request =>
    if request ∈ s.settled then s
    else { s.observe f.approvalId (.promise request f.resolution.approved) with
      settled := s.settled ++ [request] }
  | none => s

/-- `this.broadcast?.("approval_resolved", ..)`. -/
def broadcastResolved (s : State) (f : Finalization) (record : ApprovalRecord) : State :=
  if s.broadcast then
    s.observe f.approvalId (.approvalResolved record.goalId f.resolution.approved
      f.resolution.reason f.resolution.responseChannel)
  else s

/-- The end of `finalizeApproval`. -/
def complete (s : State) (k : Nat) (f : Finalization) (session : Option PendingApprovalSession)
    (record : ApprovalRecord) : State :=
  ((s.resolvePromise f session).broadcastResolved f record).returned k f (some record)

/-- The mark has returned or thrown; an error is logged. -/
def markDone (s : State) : Option (String × Nat) → Bool
  | none => true
  | some (plan, call) =>
    match (s.plans plan).calls[call]? with
    | some (.returned _) | some .threw => true
    | _ => false

/-- `deliverIfConversational`, up to its first `await`. -/
def deliverIfConversational (options : ApprovalBrokerOptions) (s : State)
    (record : ApprovalRecord) (deliverOverride : Bool) (now : Millis) : State :=
  match record.origin with
  | none => s
  | some origin =>
    let failed := fun (s : State) => launched (s.finalizeApproval
      ⟨.delivery origin.channel false, record.approvalId, .undelivered none origin.channel⟩ now)
    if !deliverOverride && !options.deliverConversationalApproval then failed s
    else if (projectApprovalSurface options record).isNone then failed s
    else s.spawn (.delivering record origin.channel)

/-- The `then` callback of `savePending` in `trackApprovalRequest`. -/
def saveCallback (options : ApprovalBrokerOptions) (s : State) (k : Nat)
    (record : ApprovalRecord) (deliverOverride : Bool) (now : Millis) : State :=
  match s.pending.get? record.approvalId with
  | none => s.put k .ready
  | some session =>
    if session.finalizing then s.put k .ready
    -- `emitApprovalRequired` projects the record, for a broadcast
    else if s.broadcast && (projectApprovalSurface options record).isNone then
      s.put k .readyRejected
    else deliverIfConversational options (s.put k .ready) record deliverOverride now

end State

/-- How a delivery ends. -/
inductive Delivery
  | delivered
  | undelivered (reason : Option String)
  | threw

/-- The steps of the system. -/
inductive Step
  | setBroadcast
  | stop
  | start
  | request (request : ApprovalRequest)
  | resolve (approvalId : String) (call : ResolveCall) (reading : Reading)
  /-- the timer of a session fires -/
  | timeout (approvalId : String) (now : Millis)
  /-- a step of a wait plan -/
  | plan (waitPlanId : String) (step : PlanStep)
  /-- task `k` goes on to its next `await` -/
  | resume (k : Nat) (reading : Reading) (surfaceIssuanceId : String) (delivery : Delivery)

open State in
/-- One piece of task `k`. -/
def resumeTask (options : ApprovalBrokerOptions) (s : State) (k : Nat) (reading : Reading)
    (surfaceIssuanceId : String) (delivery : Delivery) : Task → Option State
  | .started request =>
    match request.record surfaceIssuanceId reading.now with
    | none => some (s.put k .finished)
    | some record =>
      match record.parse with
      | some _ => some ((s.trackPending record (some k)).put k
          (.saving record request.deliverOverride))
      | none => some ((s.trackPending record (some k)).put k (.saveFailed record))
  | .listing request => some (s.put k (.restoring request s.rows.listPending))
  | .restoring request records =>
    match records with
    | [] =>
      match request with
      | some request => some (s.put k (.started request))
      | none => some (s.put k .finished)
    | record :: records =>
      if record.expiresAt ≤ reading.now then
        some (continued k (s.finalizeApproval
          ⟨.start request records, record.approvalId, .timeout⟩ reading.now))
      else some ((s.trackPending record none).put k (.restoring request records))
  | .saving record deliverOverride =>
    some ({ s with rows := s.rows.savePending record }.put k (.saved record deliverOverride))
  | .saved record deliverOverride =>
    some (saveCallback options s k record deliverOverride reading.now)
  | .saveFailed record =>
    some ({ s with
      pending := s.pending.delete record.approvalId
      settled := s.settled ++ [k] }.put k .ready)
  | .delivering record responseChannel =>
    match delivery with
    | .delivered => some (s.put k .finished)
    | .undelivered reason => some (continued k (s.finalizeApproval
        ⟨.delivery responseChannel true, record.approvalId,
          .undelivered reason responseChannel⟩ reading.now))
    | .threw => some (continued k (s.finalizeApproval
        ⟨.delivery responseChannel false, record.approvalId,
          .undelivered none responseChannel⟩ reading.now))
  | .loading approvalId call => some (s.put k (.loaded approvalId call
      (s.rows.loadPending approvalId)))
  | .loaded approvalId call record =>
    some (continued k (s.resolveWith options approvalId call record reading))
  | .awaitingReady f ready =>
    match s.tasks[ready]? with
    | some .ready => some (continued k (s.takeSession f reading.now))
    | some .readyRejected => some (s.returned k f none)
    | _ => none
  | .resolving f session resolvedAt =>
    match s.rows.resolvePending f.approvalId f.resolution.state resolvedAt
        f.resolution.responseChannel with
    | (_, .threw) => some (s.threw k f reading.now)
    | (_, .answered none) => some (s.returned k f none)
    | (rows, .answered (some record)) =>
      let s' := if (s.rows.loadPending f.approvalId).isSome then
          s.observe f.approvalId (.resolvedRow f.resolution.state) else s
      some ({ s' with rows := rows }.put k (.resolved f session record))
  | .resolved f session record =>
    some (transitionPermissionWaitPlan options s k f session record reading.now)
  | .transitioning f session record mark =>
    if s.markDone mark then some (s.complete k f session record) else none
  | .ready | .readyRejected | .finished => none

open State in
/-- One step; a step that is not due is disabled. -/
def brokerStep (options : ApprovalBrokerOptions) (s : State) : Step → Option State
  | .setBroadcast => some { s with broadcast := true }
  | .stop => some { s with pending := .empty, started := false }
  | .start => if s.started then some s else some ({ s with started := true }.spawn (.listing none))
  | .request request =>
    if s.started then some (s.spawn (.started request))
    else some ({ s with started := true }.spawn (.listing (some request)))
  | .resolve approvalId call reading =>
    match call, s.pending.get? approvalId with
    | .resolveApproval .., some session =>
      some (launched (s.resolveWith options approvalId call (some session.record) reading))
    | _, _ => some (s.spawn (.loading approvalId call))
  | .timeout approvalId now =>
    (s.pending.get? approvalId).bind fun session =>
      if session.timer then
        let fired := s.pending.set approvalId { session with timer := false }
        some (launched ({ s with pending := fired }.finalizeApproval
          ⟨.timer, approvalId, .timeout⟩ now))
      else none
  | .plan waitPlanId step =>
    (planStep (s.plans waitPlanId) step).map fun plan =>
      { s with plans := Function.update s.plans waitPlanId plan }
  | .resume k reading surfaceIssuanceId delivery =>
    s.tasks[k]?.bind fun task => resumeTask options s k reading surfaceIssuanceId delivery task

/-- One broker and everyone who calls it. -/
def brokerLTS (options : ApprovalBrokerOptions) : LTS State Step :=
  LTS.ofPartial (brokerStep options)

end PulSeed.Approval
