import PulSeed.Queue.Operations

/-!
# `GoalWorker` (`runtime/executor/goal-worker.ts`)

A worker runs the durable loop for one goal at a time. `execute` is cut at its
`await`s: each definition below is what runs between two of them. The hooks are
those the supervisor passes; the start time and the duration, which only label
the result, are left out.
-/

namespace PulSeed.Executor

/-- `WorkerStatus`. -/
inductive WorkerStatus
  | idle | running | crashed
  deriving DecidableEq, Repr

/-- `LoopResult['finalStatus']`, and the `status` of a `WorkerResult`. -/
inductive RunStatus
  | completed | stalled | maxIterations | error | stopped | finalization
  deriving DecidableEq, Repr

/-- What `durableLoop.run` resolves to. -/
structure LoopResult where
  finalStatus : RunStatus
  totalIterations : Nat
  errorMessage : Option String
  deriving DecidableEq

/-- `WorkerResult`. -/
structure WorkerResult where
  goalId : String
  status : RunStatus
  totalIterations : Nat
  error : Option String
  deriving DecidableEq

/-- The mutable members of a worker. -/
structure GoalWorker where
  status : WorkerStatus := .idle
  currentGoalId : Option String := none
  currentIterations : Nat := 0
  extendRequested : Bool := false
  deriving DecidableEq

namespace GoalWorker

/-- `isIdle`. -/
def isIdle (w : GoalWorker) : Bool := decide (w.status = .idle)

/-- `requestExtend`. -/
def requestExtend (w : GoalWorker) : GoalWorker := { w with extendRequested := true }

/-- `execute`, up to `onRunStart`. -/
def execute (goalId : String) : GoalWorker where
  status := .running
  currentGoalId := some goalId
  currentIterations := 0
  extendRequested := false

/-- The head of the loop of `execute`, up to `durableLoop.run`. -/
def beginIteration (w : GoalWorker) : GoalWorker := { w with extendRequested := false }

/-- `execute` once `durableLoop.run` has resolved, up to `onRunComplete`. -/
def record (result : LoopResult) (w : GoalWorker) : GoalWorker :=
  { w with currentIterations := w.currentIterations + result.totalIterations }

/-- The `finally` block of `execute`. -/
def cleanUp (w : GoalWorker) : GoalWorker :=
  { w with
    currentGoalId := none
    currentIterations := 0
    status := if w.status = .running then .idle else w.status }

/-- `execute` after its loop. -/
def finish (goalId : String) (last : LoopResult) (w : GoalWorker) : GoalWorker × WorkerResult :=
  (cleanUp { w with status := .idle },
    { goalId := goalId
      status := last.finalStatus
      totalIterations := w.currentIterations
      error := last.errorMessage })

/-- The `catch` block of `execute`. -/
def fail (goalId reason : String) (aborted : Bool) (w : GoalWorker) : GoalWorker × WorkerResult :=
  if aborted then
    (cleanUp { w with status := .idle },
      { goalId := goalId
        status := .stopped
        totalIterations := w.currentIterations
        error := some "operator stop aborted active execution" })
  else
    (cleanUp { w with status := .crashed },
      { goalId := goalId
        status := .error
        totalIterations := 0
        error := some reason })

@[simp] theorem finish_status (goalId : String) (last : LoopResult) (w : GoalWorker) :
    (finish goalId last w).1.status = .idle := rfl

@[simp] theorem fail_status (goalId reason : String) (aborted : Bool) (w : GoalWorker) :
    (fail goalId reason aborted w).1.status = if aborted then .idle else .crashed := by
  cases aborted <;> rfl

end GoalWorker

/-- The message claimed from the queue on which an execution acts: `GoalActivation`.
Its `ownerToken` and `attemptId` both are the claim token. -/
structure Activation where
  goalId : String
  claim : Queue.Claim

/-- `ownerToken`, `attemptId`. -/
def Activation.token (a : Activation) : String := a.claim.claimToken

/-- Where `executeWorker` waits, inside `worker.execute` (from `runStart` to
`immediate`) or around it. -/
inductive Phase
  /-- `recordGoalRunAdmission`. -/
  | admission
  /-- `markBackgroundRunStarted`. -/
  | markStarted
  /-- `onRunStart`. -/
  | runStart
  /-- `durableLoop.run`. -/
  | run
  /-- `onRunComplete`, after an iteration. -/
  | runComplete (last : LoopResult)
  /-- `setImmediate`, when no extension was requested. -/
  | immediate (last : LoopResult)
  /-- `worker.execute` has settled. -/
  | returned (result : WorkerResult)
  /-- `onGoalComplete`. -/
  | completing
  /-- `markBackgroundRunTerminal`, before the claim is completed. -/
  | terminal
  /-- `markBackgroundRunTerminal`, before the claim of a suspended goal is failed. -/
  | suspending (reason : String)
  /-- An exception is on its way to the `catch` block. -/
  | caught (reason : String)
  /-- The claim is settled; the `finally` block is next. -/
  | settled
  /-- `goalLeaseManager.release`, before its transaction. -/
  | releasing
  /-- `goalLeaseManager.release`, after its transaction. -/
  | released
  deriving DecidableEq

/-- The worker has begun `execute` and not left its loop, or will begin it: an
iteration is running or ahead, or the flag is about to be tested. -/
def Phase.beforeLoopEnd : Phase → Bool
  | .admission | .markStarted | .runStart | .run | .runComplete _ | .immediate _ => true
  | _ => false

/-- The phases inside `worker.execute`. -/
def Phase.executing : Phase → Bool
  | .runStart | .run | .runComplete _ | .immediate _ => true
  | _ => false

/-- A running `executeWorker`. -/
structure Execution where
  activation : Activation
  phase : Phase := .admission
  ownershipLost : Bool := false
  /-- The renewal timer has not been stopped. -/
  renewing : Bool := true

/-- The execution, at another `await`. -/
def Execution.moveTo (e : Execution) (phase : Phase) : Execution := { e with phase := phase }

@[simp] theorem Execution.moveTo_activation (e : Execution) (phase : Phase) :
    (e.moveTo phase).activation = e.activation := rfl

@[simp] theorem Execution.moveTo_phase (e : Execution) (phase : Phase) :
    (e.moveTo phase).phase = phase := rfl

end PulSeed.Executor
