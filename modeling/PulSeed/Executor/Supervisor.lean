import PulSeed.Executor.Worker
import PulSeed.Runtime.GoalLease
import Mathlib.Data.Finset.Basic

/-!
# `LoopSupervisor` (`runtime/executor/loop-supervisor.ts`)

The asynchronous methods of the supervisor are cut at their `await`s. An `Action`
is one uninterrupted segment of one of them: the resumption of the poll, of one
`executeWorker`, of a lease renewal, a timer that fires, a call from outside.
`act` performs it; it is `none` when nothing waits there. A segment makes at most
one call to the queue or to the lease manager, and both answer as modelled.

Exceptions: a call of a segment may throw (`Moment.fault`), and so may what a
segment waited for. An exception that reaches a `catch` block is handled in a
segment of its own, which adds interleavings and removes none.

Left out: the background-run ledger and the callbacks, of which only the points
where they are awaited remain, the persisted snapshot of the state, and log lines.
-/

namespace PulSeed.Executor

open Queue GoalLease

abbrev WorkerId := Nat

/-- The `id` of a worker, as the stores see it. -/
def workerName (w : WorkerId) : String := toString w

/-- `SupervisorConfig`. -/
structure SupervisorConfig where
  concurrency : Nat := 4
  maxCrashCount : Nat := 3
  crashBackoffBaseMs : Millis := 1000
  pollIntervalMs : Millis := 100
  claimLeaseMs : Millis := 30000

/-- The settings of a supervisor and of the stores it shares with others. -/
structure Config where
  supervisor : SupervisorConfig := {}
  queue : QueueConfig := {}
  defaultLeaseMs : Millis := 30000

/-- What a segment gets from outside: the time, the clock readings of its queue
call, the values of `randomUUID()` and `Math.random()`, whether its call throws
for a reason outside the model, and the message of whatever is thrown. -/
structure Moment where
  now : Millis
  clock : Clock
  uuid : Uuid
  random : ℚ := 0
  fault : Bool := false
  error : String := ""

/-- Where `pollAndAssign` waits; `rest` are the idle workers not yet looked at. -/
inductive Poll
  /-- No poll is running. -/
  | none
  /-- `claimNextDispatch`. -/
  | claimed (worker : WorkerId) (dispatch : Option Activation) (rest : List WorkerId)
  /-- `markCoalescedBackgroundRun`. -/
  | coalescing (dispatch : Activation) (rest : List WorkerId)
  /-- `goalLeaseManager.acquire`, before its transaction. -/
  | acquiring (worker : WorkerId) (dispatch : Activation) (now : Millis) (rest : List WorkerId)
  /-- `goalLeaseManager.acquire`, after its transaction. -/
  | acquired (worker : WorkerId) (dispatch : Activation) (granted : Bool) (rest : List WorkerId)
  /-- `completeClaim` or `failClaim`, before the next worker. -/
  | settling (rest : List WorkerId)
  /-- `failClaim` and `releaseExecutionLease` of a supervisor that stops. -/
  | stopping (dispatch : Activation)

/-- A lease renewal under way. -/
structure Renewal where
  worker : WorkerId
  activation : Activation
  now : Millis
  claimRenewed : Bool
  /-- What `goalLeaseManager.renew` answered. -/
  leaseRenewed : Option Bool := none

/-- A fenced write of the state manager, before it is accepted or rejected. -/
inductive FencedWrite
  /-- The fence of the activation waits for `goalLeaseManager.read`. -/
  | reading (fence : Activation)
  /-- The lease has been read. -/
  | deciding (fence : Activation) (current : Option GoalLeaseRecord)

/-- The members of a `LoopSupervisor`, what it has under way, and the write fences
of its state manager. -/
structure Supervisor where
  workers : List WorkerId
  worker : WorkerId → GoalWorker := fun _ => {}
  nextWorker : WorkerId
  activeGoals : ObjectMap String WorkerId := ObjectMap.empty
  crashCounts : ObjectMap String Nat
  suspendedGoals : Finset String := ∅
  stoppedGoals : Finset String := ∅
  running : Bool := true
  /-- `shutdown` has aborted the active executions. -/
  aborted : Bool := false
  poll : Poll := .none
  executions : WorkerId → Option Execution := fun _ => none
  relinquishedTokens : Finset String := ∅
  relinquishedLeases : List Activation := []
  retryTimers : List (Activation × String) := []
  renewals : List Renewal := []
  writeFences : ObjectMap String Activation := ObjectMap.empty
  writes : ObjectMap String FencedWrite := ObjectMap.empty

/-- A supervisor after `start`, with the crash counts `loadState` found. -/
def Supervisor.start (cfg : SupervisorConfig) (crashCounts : ObjectMap String Nat) :
    Supervisor where
  workers := List.range cfg.concurrency
  nextWorker := cfg.concurrency
  crashCounts := crashCounts

/-- What a segment does that others can see. -/
inductive Event
  | queue (call : Call) (outcome : Outcome)
  | lease (op : LeaseOp) (outcome : LeaseOutcome)
  /-- `durableLoop.run` is called for the goal. -/
  | iteration (goalId : String)
  /-- A write of the goal's state is let through, by the fence if one is installed. -/
  | written (goalId : String) (fence : Option Activation)
  /-- `StateFenceError`. -/
  | fenced (goalId : String)

/-- The stores, a supervisor and the events of the segment so far. -/
structure Turn where
  table : Table
  leases : LeaseTable
  sup : Supervisor
  events : List Event := []

/-! ## Updates -/

namespace Supervisor

def setWorker (s : Supervisor) (w : WorkerId) (worker : GoalWorker) : Supervisor :=
  { s with worker := Function.update s.worker w worker }

def setExecution (s : Supervisor) (w : WorkerId) (e : Option Execution) : Supervisor :=
  { s with executions := Function.update s.executions w e }

def setPoll (s : Supervisor) (poll : Poll) : Supervisor := { s with poll := poll }

/-- `hasAssignedGoal`. -/
def hasAssignedGoal (s : Supervisor) (w : WorkerId) : Bool :=
  s.activeGoals.entries.any fun e => e.2 = w

/-- The workers a poll may assign. -/
def idleWorkers (s : Supervisor) : List WorkerId :=
  s.workers.filter fun w => (s.worker w).isIdle && !s.hasAssignedGoal w

end Supervisor

namespace Turn

/-- Change the supervisor. -/
def update (f : Supervisor → Supervisor) (t : Turn) : Turn := { t with sup := f t.sup }

def emit (event : Event) (t : Turn) : Turn := { t with events := t.events ++ [event] }

/-- A call to the queue. -/
def queue (cfg : Config) (m : Moment) (op : QueueOp) (t : Turn) : Turn × Outcome :=
  if m.fault then (t, .threw)
  else
    let (table, outcome) := Queue.perform cfg.queue t.table ⟨op, m.clock⟩
    ({ t with table := table }.emit (.queue ⟨op, m.clock⟩ outcome), outcome)

/-- A transaction of the lease manager. -/
def lease (cfg : Config) (m : Moment) (op : LeaseOp) (t : Turn) : Turn × LeaseOutcome :=
  if m.fault then (t, .threw)
  else
    let (leases, outcome) := GoalLease.perform cfg.defaultLeaseMs t.leases op
    ({ t with leases := leases }.emit (.lease op outcome), outcome)

end Turn

section Methods

variable (cfg : Config) (m : Moment)

/-! ## Claims -/

/-- The call did not throw. -/
def returned : Outcome → Bool
  | .threw => false
  | _ => true

/-- `completeClaim`; the flag says that it did not throw. -/
def completeClaim (a : Activation) (ownershipLost : Bool) (t : Turn) : Turn × Bool :=
  if ownershipLost then (t, true)
  else
    let (t, outcome) := t.queue cfg m (.ack a.token)
    (t, returned outcome)

/-- `failClaim`; the flag says that it did not throw. -/
def failClaim (a : Activation) (reason : String) (requeue ownershipLost : Bool) (t : Turn) :
    Turn × Bool :=
  if ownershipLost then (t, true)
  else
    let (t, outcome) := t.queue cfg m (.nack a.token reason requeue)
    (t, returned outcome)

/-- The messages `claimNextDispatch` asks for. -/
def isGoalActivation (envelope : Envelope) : Bool :=
  decide (envelope.type = .event ∧ envelope.name = "goal_activated") &&
    (truthy envelope.goalId).isSome

/-- The dispatch `claimNextDispatch` makes of a claim. -/
def dispatchOf (c : Claim) : Option Activation :=
  (truthy c.envelope.goalId).map fun goalId => ⟨goalId, c⟩

/-! ## `pollAndAssign` -/

/-- The head of the loop: claim a message for the next idle worker. -/
def claimNext (rest : List WorkerId) (t : Turn) : Turn :=
  match rest with
  | [] => t.update (·.setPoll .none)
  | w :: rest =>
    match t.queue cfg m (.claim (workerName w) (some cfg.supervisor.claimLeaseMs)
        isGoalActivation m.uuid) with
    | (t, .claimed c) => t.update (·.setPoll (.claimed w (c.bind dispatchOf) rest))
    | (t, _) => t.update (·.setPoll .none)

/-- `schedulePoll`. -/
def schedulePoll (t : Turn) : Option Turn :=
  match t.sup.poll with
  | .none => if t.sup.running then some (claimNext cfg m t.sup.idleWorkers t) else some t
  | _ => none

/-- Wait for the settlement of a claim; an exception ends the poll. -/
def settleThen (rest : List WorkerId) (r : Turn × Bool) : Turn :=
  r.1.update (·.setPoll (if r.2 then .settling rest else .none))

/-- The goal becomes active on the worker and `executeWorker` starts. -/
def assign (w : WorkerId) (a : Activation) (s : Supervisor) : Supervisor :=
  { s with
    activeGoals := s.activeGoals.set a.goalId w
    executions := Function.update s.executions w (some { activation := a })
    writeFences := s.writeFences.set a.goalId a }

/-- `acquireExecutionLease`: the options. -/
def acquireOptions (w : WorkerId) (a : Activation) : AcquireOptions where
  workerId := workerName w
  ownerToken := a.token
  attemptId := a.token
  leaseMs := some cfg.supervisor.claimLeaseMs

/-- `pollAndAssign`, resumed after an `await`. -/
def pollAndAssign (t : Turn) : Option Turn :=
  match t.sup.poll with
  | .none => none
  | .claimed _ none _ => some (t.update (·.setPoll .none))
  | .claimed w (some a) rest =>
    match t.sup.activeGoals.get? a.goalId with
    | some active =>
      some (t.update fun s => (s.setWorker active (s.worker active).requestExtend).setPoll
        (.coalescing a rest))
    | none =>
      if a.goalId ∈ t.sup.stoppedGoals then
        some (settleThen rest (completeClaim cfg m a false t))
      else if a.goalId ∈ t.sup.suspendedGoals then
        some (settleThen rest (failClaim cfg m a "goal suspended" false false t))
      else some (t.update (·.setPoll (.acquiring w a m.now rest)))
  | .coalescing a rest => some (settleThen rest (completeClaim cfg m a false t))
  | .acquiring w a now rest =>
    match t.lease cfg m (.acquire a.goalId (acquireOptions cfg w a) now) with
    | (t, .acquired lease) => some (t.update (·.setPoll (.acquired w a lease.isSome rest)))
    | (t, _) => some (t.update (·.setPoll .none))
  | .acquired w a granted rest =>
    if !granted then
      some (settleThen rest (failClaim cfg m a "goal lease unavailable" true false t))
    else if !t.sup.running then
      let (t, ok) := failClaim cfg m a "supervisor stopping" true false t
      some (t.update (·.setPoll (if ok then .stopping a else .none)))
    else some (claimNext cfg m rest (t.update (assign w a)))
  | .settling rest => some (claimNext cfg m rest t)
  | .stopping a =>
    let (t, _) := t.lease cfg m (.release a.goalId a.token)
    some (t.update (·.setPoll .none))

/-! ## `executeWorker` -/

/-- What an `await` of `executeWorker` gives. -/
inductive Reply
  | resolved
  | loopResult (result : LoopResult)
  | rejected

/-- Move the execution of the worker to another `await`. -/
def enter (w : WorkerId) (e : Execution) (phase : Phase) (s : Supervisor) : Supervisor :=
  s.setExecution w (some (e.moveTo phase))

/-- The head of the loop of `execute`: the next iteration. -/
def iterate (w : WorkerId) (e : Execution) (t : Turn) : Turn :=
  (t.update fun s => enter w e .run (s.setWorker w (s.worker w).beginIteration)).emit
    (.iteration e.activation.goalId)

/-- Wait for the settlement of the claim; an exception goes to the `catch` block. -/
def settle (w : WorkerId) (e : Execution) (r : Turn × Bool) : Turn :=
  r.1.update (enter w e (if r.2 then .settled else .caught m.error))

/-- `calculateCrashBackoff`. -/
def calculateCrashBackoff (crashCount : Nat) : Millis :=
  min (cfg.supervisor.crashBackoffBaseMs * 2 ^ (crashCount - 1) * (1 + m.random * (3 / 10))) 30000

/-- `deferDurableRetry`. -/
def deferDurableRetry (w : WorkerId) (e : Execution) (reason : String) (backoffMs : Millis)
    (t : Turn) : Turn :=
  if e.ownershipLost then t.update (enter w e .settled)
  else
    let leaseMs := backoffMs + max cfg.supervisor.pollIntervalMs 100
    match t.queue cfg m (.renew e.activation.token (some leaseMs)) with
    | (t, .renewed (some _)) =>
      t.update fun s => enter w e .settled
        { s with retryTimers := s.retryTimers ++ [(e.activation, reason)] }
    | (t, .threw) => t.update (enter w e (.caught m.error))
    | (t, _) => t.update (enter w e .settled)

/-- The beginning of the `finally` block: the renewal stops, the fence goes. -/
def cleanUp (w : WorkerId) (e : Execution) (s : Supervisor) : Supervisor :=
  enter w { e with renewing := false } .releasing
    { s with writeFences := s.writeFences.delete e.activation.goalId }

/-- `executeWorker` once `worker.execute` has settled. -/
def afterExecute (w : WorkerId) (e : Execution) (result : WorkerResult) (t : Turn) : Turn :=
  let goalId := e.activation.goalId
  if e.activation.token ∈ t.sup.relinquishedTokens then t.update (cleanUp w e)
  else if result.status = .error then
    let count := (t.sup.crashCounts.get? goalId).getD 0 + 1
    let t := t.update fun s => { s with crashCounts := s.crashCounts.set goalId count }
    if cfg.supervisor.maxCrashCount ≤ count then
      let reason := result.error.getD "goal suspended after max crashes"
      t.update fun s => enter w e (if m.fault then .caught m.error else .suspending reason)
        { s with suspendedGoals := insert goalId s.suspendedGoals }
    else
      deferDurableRetry cfg m w e (result.error.getD "goal execution failed")
        (calculateCrashBackoff cfg m count) t
  else
    t.update fun s => enter w e .completing
      { s with
        crashCounts := s.crashCounts.delete goalId
        suspendedGoals := s.suspendedGoals.erase goalId }

/-- `executeWorker`, resumed after an `await`. -/
def executeWorker (w : WorkerId) (e : Execution) (reply : Reply) (t : Turn) : Option Turn :=
  let goalId := e.activation.goalId
  let worker := t.sup.worker w
  match e.phase, reply with
  | .admission, .resolved => some (t.update (enter w e .markStarted))
  | .admission, .rejected => some (t.update (enter w e (.caught m.error)))
  | .markStarted, .resolved =>
    some (t.update fun s => enter w e .runStart (s.setWorker w (.execute goalId)))
  | .runStart, .resolved => some (iterate w e t)
  | .run, .loopResult result =>
    some (t.update fun s => enter w e (.runComplete result) (s.setWorker w (worker.record result)))
  | .run, .rejected =>
    let (worker, result) := worker.fail goalId m.error t.sup.aborted
    some (t.update fun s => enter w e (.returned result) (s.setWorker w worker))
  | .runComplete last, .resolved | .runComplete last, .rejected =>
    if worker.extendRequested then some (iterate w e t)
    else some (t.update (enter w e (.immediate last)))
  | .immediate last, .resolved =>
    if worker.extendRequested then some (iterate w e t)
    else
      let (worker, result) := worker.finish goalId last
      some (t.update fun s => enter w e (.returned result) (s.setWorker w worker))
  | .returned result, .resolved => some (afterExecute cfg m w e result t)
  | .completing, .resolved | .completing, .rejected => some (t.update (enter w e .terminal))
  | .terminal, .resolved =>
    some (settle m w e (completeClaim cfg m e.activation e.ownershipLost t))
  | .suspending reason, .resolved =>
    some (settle m w e (failClaim cfg m e.activation reason false e.ownershipLost t))
  | .caught reason, .resolved =>
    -- an exception of this `failClaim` still runs the `finally` block
    some ((failClaim cfg m e.activation reason true e.ownershipLost t).1.update
      (enter w e .settled))
  | .settled, .resolved => some (t.update (cleanUp w e))
  | .releasing, .resolved =>
    some ((t.lease cfg m (.release goalId e.activation.token)).1.update (enter w e .released))
  | .released, .resolved =>
    some (t.update fun s =>
      { s.setExecution w none with activeGoals := s.activeGoals.delete goalId })
  | _, _ => none

/-! ## Lease renewal, retry timers -/

/-- The renewal timer of an execution fires. -/
def renewTick (w : WorkerId) (e : Execution) (t : Turn) : Option Turn :=
  if !e.renewing || t.sup.renewals.any (fun r => r.activation.token = e.activation.token) then none
  else
    let leaseMs := some cfg.supervisor.claimLeaseMs
    match t.queue cfg m (.renew e.activation.token leaseMs) with
    | (t, .renewed claim) =>
      some (t.update fun s => { s with
        renewals := s.renewals ++ [⟨w, e.activation, m.now, claim.isSome, none⟩] })
    | (t, _) => some t

/-- `onLeaseLost`. -/
def leaseLost (r : Renewal) (s : Supervisor) : Supervisor :=
  match s.executions r.worker with
  | some e =>
    if e.activation.token = r.activation.token then
      s.setExecution r.worker (some { e with ownershipLost := true, renewing := false })
    else s
  | none => s

/-- A renewal, resumed: the transaction of `renew`, then what follows its answer. -/
def renewStep (k : Nat) (t : Turn) : Option Turn :=
  match t.sup.renewals[k]? with
  | none => none
  | some r =>
    match r.leaseRenewed with
    | none =>
      match t.lease cfg m (.renew r.activation.goalId r.activation.token
          (some cfg.supervisor.claimLeaseMs) r.now) with
      | (t, .renewed lease) =>
        some (t.update fun s => { s with
          renewals := s.renewals.set k { r with leaseRenewed := some lease.isSome } })
      | (t, _) => some (t.update fun s => { s with renewals := s.renewals.eraseIdx k })
    | some leaseRenewed =>
      some (t.update fun s =>
        let s := { s with renewals := s.renewals.eraseIdx k }
        if r.claimRenewed && leaseRenewed then s else leaseLost r s)

/-- The timer of `deferDurableRetry` fires. -/
def retryTimer (k : Nat) (t : Turn) : Option Turn :=
  match t.sup.retryTimers[k]? with
  | none => none
  | some (a, reason) =>
    let t := t.update fun s => { s with retryTimers := s.retryTimers.eraseIdx k }
    if t.sup.running then some (failClaim cfg m a reason true false t).1 else some t

/-! ## Calls from outside -/

/-- `ActivateGoalOptions`: the background run with its parent session, and the
`wait_resume` object. -/
structure ActivateGoalOptions where
  backgroundRun : Option (String × Option Json) := none
  waitResume : Option Json := none

/-- The payload of an activation. -/
def activationPayload (options : ActivateGoalOptions) : Json :=
  let backgroundRun := match options.backgroundRun with
    | some (runId, parent) =>
      if runId = "" then []
      else [("backgroundRun", Json.obj (("backgroundRunId", .str runId) ::
        (parent.map fun p => ("parentSessionId", p)).toList))]
    | none => []
  .obj (backgroundRun ++ (options.waitResume.map fun w => ("wait_resume", w)).toList)

/-- The envelope `enqueueGoalActivation` creates. -/
def activationEnvelope (goalId : String) (options : ActivateGoalOptions) (createdAt : SafeInt) :
    Envelope where
  id := m.uuid.val
  type := .event
  name := "goal_activated"
  source := "supervisor"
  goalId := some goalId
  dedupeKey := some (match truthy (options.backgroundRun.map Prod.fst) with
    | some runId => s!"goal_activated:{goalId}:{runId}"
    | none => s!"goal_activated:{goalId}")
  priority := .normal
  payload := activationPayload options
  createdAt := createdAt

/-- `enqueueGoalActivation`. An envelope that the queue cannot parse makes it throw. -/
def enqueueGoalActivation (goalId : String) (options : ActivateGoalOptions) (t : Turn) : Turn :=
  if goalId ∈ t.sup.stoppedGoals then t
  else
    match SafeInt.parse m.now with
    | some createdAt =>
      (t.queue cfg m (.accept (activationEnvelope m goalId options createdAt))).1
    | none => t

/-- `activateGoal`. -/
def activateGoal (goalId : String) (options : ActivateGoalOptions) (t : Turn) : Turn :=
  enqueueGoalActivation cfg m goalId options (t.update fun s =>
    { s with
      stoppedGoals := s.stoppedGoals.erase goalId
      suspendedGoals := s.suspendedGoals.erase goalId })

/-- `deactivateGoal`. -/
def deactivateGoal (goalId : String) (s : Supervisor) : Supervisor :=
  { s with stoppedGoals := insert goalId s.stoppedGoals }

/-- `replaceIdleWorkers`. -/
def replaceIdleWorkers (s : Supervisor) : Supervisor :=
  if s.activeGoals.entries ≠ [] ∨ ∃ w ∈ s.workers, !(s.worker w).isIdle then s
  else
    { s with
      workers := List.range' s.nextWorker cfg.supervisor.concurrency
      worker := fun w => if s.nextWorker ≤ w then {} else s.worker w
      nextWorker := s.nextWorker + cfg.supervisor.concurrency }

/-- `shutdown`, up to its first `await`. -/
def shutdown (s : Supervisor) : Supervisor := { s with running := false, retryTimers := [] }

/-- `relinquishActiveExecutionAfterShutdownGrace`, up to the release of the lease. -/
def relinquish (e : Execution) (t : Turn) : Option Turn :=
  if e.activation.token ∈ t.sup.relinquishedTokens then none
  else
    let t := t.update fun s =>
      { s with
        relinquishedTokens := insert e.activation.token s.relinquishedTokens
        activeGoals := s.activeGoals.delete e.activation.goalId }
    match failClaim cfg m e.activation "daemon shutdown interrupted active execution" true
        false t with
    | (t, true) => some (t.update fun s =>
        { s with relinquishedLeases := s.relinquishedLeases ++ [e.activation] })
    | (t, false) => some t

/-- The release of the lease of a relinquished execution. -/
def releaseRelinquished (k : Nat) (t : Turn) : Option Turn :=
  match t.sup.relinquishedLeases[k]? with
  | none => none
  | some a =>
    some ((t.lease cfg m (.release a.goalId a.token)).1.update fun s =>
      { s with relinquishedLeases := s.relinquishedLeases.eraseIdx k })

/-! ## Fenced writes (`StateManager.runGoalStateMutation`) -/

/-- A write of the goal's state reaches `assertWriteFence`. Writes of one goal run
one after the other. -/
def beginWrite (goalId : String) (t : Turn) : Option Turn :=
  match t.sup.writes.get? goalId with
  | some _ => none
  | none =>
    match t.sup.writeFences.get? goalId with
    | none => some (t.emit (.written goalId none))
    | some fence => some (t.update fun s =>
        { s with writes := s.writes.set goalId (.reading fence) })

/-- The test of the fence that `installWriteFence` installs. -/
def fenceHolds (fence : Activation) (current : Option GoalLeaseRecord) : Bool :=
  match current with
  | some lease => decide (lease.ownerToken = fence.token ∧ lease.attemptId = fence.token ∧
      m.now < lease.leaseUntil.millis)
  | none => false

/-- The fence of a write, resumed: the read of the lease, then the decision. -/
def fenceStep (goalId : String) (t : Turn) : Option Turn :=
  let forget (s : Supervisor) := { s with writes := s.writes.delete goalId }
  match t.sup.writes.get? goalId with
  | none => none
  | some (.reading fence) =>
    match t.lease cfg m (.read goalId) with
    | (t, .read current) => some (t.update fun s =>
        { s with writes := s.writes.set goalId (.deciding fence current) })
    | (t, _) => some ((t.update forget).emit (.fenced goalId))
  | some (.deciding fence current) =>
    some ((t.update forget).emit
      (if fenceHolds m fence current then .written goalId (some fence) else .fenced goalId))

/-! ## Segments -/

/-- One segment of the supervisor. -/
inductive Action
  | schedulePoll
  | poll
  | execution (worker : WorkerId) (reply : Reply)
  | renewTick (worker : WorkerId)
  | renewStep (k : Nat)
  | retryTimer (k : Nat)
  | activateGoal (goalId : String) (options : ActivateGoalOptions)
  | deactivateGoal (goalId : String)
  | replaceIdleWorkers
  | shutdown
  /-- `shutdown` aborts the active executions. -/
  | abort
  | relinquish (worker : WorkerId)
  | releaseRelinquished (k : Nat)
  | beginWrite (goalId : String)
  | fenceStep (goalId : String)

/-- Perform a segment; `none` when nothing waits there. -/
def act (action : Action) (t : Turn) : Option Turn :=
  match action with
  | .schedulePoll => schedulePoll cfg m t
  | .poll => pollAndAssign cfg m t
  | .execution w reply => (t.sup.executions w).bind fun e => executeWorker cfg m w e reply t
  | .renewTick w => (t.sup.executions w).bind fun e => renewTick cfg m w e t
  | .renewStep k => renewStep cfg m k t
  | .retryTimer k => retryTimer cfg m k t
  | .activateGoal goalId options => some (activateGoal cfg m goalId options t)
  | .deactivateGoal goalId => some (t.update (deactivateGoal goalId))
  | .replaceIdleWorkers => some (t.update (replaceIdleWorkers cfg))
  | .shutdown => some (t.update shutdown)
  | .abort => if t.sup.running then none else some (t.update fun s => { s with aborted := true })
  | .relinquish w =>
    if t.sup.aborted then (t.sup.executions w).bind fun e => relinquish cfg m e t else none
  | .releaseRelinquished k => releaseRelinquished cfg m k t
  | .beginWrite goalId => beginWrite goalId t
  | .fenceStep goalId => fenceStep cfg m goalId t

end Methods

end PulSeed.Executor
