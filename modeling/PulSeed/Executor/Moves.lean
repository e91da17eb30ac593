import PulSeed.Executor.Supervisor

/-!
# What one segment can do

`act_move` says once what a segment of the supervisor can do to the worker pool
(the workers, the active goals, the executions and the poll) and which claims,
acknowledgements and iterations it makes. The answers of the queue and of the
lease manager are arbitrary here: what is derived from the moves holds for every
behaviour of the stores.
-/

namespace PulSeed.Executor

open Queue GoalLease

/-! ## Events -/

/-- The queue answered with the claim `c`. -/
def Event.Claims (event : Event) (c : Claim) : Prop :=
  ∃ call outcome, event = .queue call outcome ∧ Queue.Claims (call, outcome) c

/-- The queue acknowledged the claim token `t`. -/
def Event.Acks (event : Event) (t : String) : Prop :=
  ∃ call outcome, event = .queue call outcome ∧ Queue.Acks (call, outcome) t

/-- No claim, no acknowledgement, no iteration. -/
structure Event.Quiet (event : Event) : Prop where
  claims : ∀ c, ¬ event.Claims c
  acks : ∀ t, ¬ event.Acks t
  iteration : ∀ goalId, event ≠ .iteration goalId

/-- A segment without claims, acknowledgements and iterations. -/
def Quiet (events : List Event) : Prop := ∀ event ∈ events, event.Quiet

theorem quiet_written (goalId : String) (fence : Option Activation) :
    (Event.written goalId fence).Quiet := by
  refine ⟨?_, ?_, nofun⟩
  · rintro c ⟨_, _, heq, -⟩
    cases heq
  · rintro token ⟨_, _, heq, -⟩
    cases heq

theorem quiet_fenced (goalId : String) : (Event.fenced goalId).Quiet := by
  refine ⟨?_, ?_, nofun⟩
  · rintro c ⟨_, _, heq, -⟩
    cases heq
  · rintro token ⟨_, _, heq, -⟩
    cases heq

@[simp] theorem quiet_nil : Quiet [] := fun _ h => absurd h List.not_mem_nil

/-- The acknowledgement of an activation, unless the call threw before. -/
def AckCall (a : Activation) (events : List Event) : Prop :=
  events = [] ∨ ∃ clock outcome, events = [.queue ⟨.ack a.token, clock⟩ outcome]

/-- Only `claim` answers with a claim. -/
theorem claim_of_claimed {cfg : QueueConfig} {table : Table} {op : QueueOp} {clock : Clock}
    {c : Option Claim} (h : (Queue.perform cfg table ⟨op, clock⟩).2 = .claimed c) :
    ∃ w leaseMs filter uuid, op = .claim w leaseMs filter uuid := by
  rcases perform_answer cfg table ⟨op, clock⟩ with hthrew | hres
  · rw [h] at hthrew
    cases hthrew
  · rw [h] at hres
    cases op with
    | claim w leaseMs filter uuid => exact ⟨w, leaseMs, filter, uuid, rfl⟩
    | _ => cases hres

/-- The token of a claim is the `randomUUID()` of the call. -/
theorem claimed_token {cfg : QueueConfig} {table : Table} {w : String} {leaseMs : Option Millis}
    {filter : Envelope → Bool} {uuid : Uuid} {clock : Clock} {c : Claim}
    (h : (Queue.perform cfg table ⟨.claim w leaseMs filter uuid, clock⟩).2 = .claimed (some c)) :
    c.claimToken = uuid.val := by
  rcases perform_answer cfg table ⟨.claim w leaseMs filter uuid, clock⟩ with hthrew | hres
  · rw [h] at hthrew
    cases hthrew
  · rw [h] at hres
    have hclaim : (Queue.claim clock w (leaseMs.getD cfg.defaultLeaseMs) filter uuid
        (readQueueState table)).result = some c := (Outcome.claimed.inj hres).symm
    unfold Queue.claim at hclaim
    split at hclaim
    · cases hclaim
    · cases hclaim
      rfl

/-! ## The calls of a segment -/

namespace Turn

variable {cfg : Config} {m : Moment}

theorem queue_spec {op : QueueOp} {t t' : Turn} {outcome : Outcome}
    (h : t.queue cfg m op = (t', outcome)) :
    t'.sup = t.sup ∧ t'.leases = t.leases ∧
      (outcome = .threw ∧ t'.events = t.events ∨
        outcome = (Queue.perform cfg.queue t.table ⟨op, m.clock⟩).2 ∧
          t'.events = t.events ++ [.queue ⟨op, m.clock⟩ outcome]) := by
  unfold queue at h
  split at h
  · cases h
    exact ⟨rfl, rfl, .inl ⟨rfl, rfl⟩⟩
  · cases h
    exact ⟨rfl, rfl, .inr ⟨rfl, rfl⟩⟩

theorem lease_spec {op : LeaseOp} {t t' : Turn} {outcome : LeaseOutcome}
    (h : t.lease cfg m op = (t', outcome)) :
    t'.sup = t.sup ∧
      (outcome = .threw ∧ t'.events = t.events ∧ t'.leases = t.leases ∨
        GoalLease.perform cfg.defaultLeaseMs t.leases op = (t'.leases, outcome) ∧
          t'.events = t.events ++ [.lease op outcome]) := by
  unfold lease at h
  split at h
  · cases h
    exact ⟨rfl, .inl ⟨rfl, rfl, rfl⟩⟩
  · cases h
    exact ⟨rfl, .inr ⟨rfl, rfl⟩⟩

/-- A queue call that is neither `claim` nor `ack` is quiet. -/
theorem queue_quiet {op : QueueOp} {t t' : Turn} {outcome : Outcome}
    (h : t.queue cfg m op = (t', outcome)) (ht : t.events = [])
    (hclaim : ∀ w leaseMs filter uuid, op ≠ .claim w leaseMs filter uuid)
    (hack : ∀ token, op ≠ .ack token) : t'.sup = t.sup ∧ Quiet t'.events := by
  obtain ⟨hsup, -, ⟨-, hev⟩ | ⟨hout, hev⟩⟩ := queue_spec h
  · rw [hev, ht]
    exact ⟨hsup, quiet_nil⟩
  · refine ⟨hsup, fun event hmem => ?_⟩
    rw [hev, ht] at hmem
    obtain rfl := List.mem_singleton.mp hmem
    refine ⟨?_, ?_, nofun⟩
    · rintro c ⟨call, outcome', heq, hc⟩
      cases heq
      obtain ⟨w, leaseMs, filter, uuid, hop⟩ := claim_of_claimed (hout.symm.trans hc)
      exact hclaim w leaseMs filter uuid hop
    · rintro token ⟨call, outcome', heq, hop, -⟩
      cases heq
      exact hack token hop

theorem lease_quiet {op : LeaseOp} {t t' : Turn} {outcome : LeaseOutcome}
    (h : t.lease cfg m op = (t', outcome)) (ht : t.events = []) :
    t'.sup = t.sup ∧ Quiet t'.events := by
  obtain ⟨hsup, ⟨-, hev, -⟩ | ⟨-, hev⟩⟩ := lease_spec h
  · rw [hev, ht]
    exact ⟨hsup, quiet_nil⟩
  · refine ⟨hsup, fun event hmem => ?_⟩
    rw [hev, ht] at hmem
    obtain rfl := List.mem_singleton.mp hmem
    refine ⟨?_, ?_, nofun⟩
    · rintro c ⟨_, _, heq, -⟩
      cases heq
    · rintro token ⟨_, _, heq, -⟩
      cases heq

end Turn

section Calls

variable {cfg : Config} {m : Moment}

theorem failClaim_quiet {a : Activation} {reason : String} {requeue lost ok : Bool} {t t' : Turn}
    (h : failClaim cfg m a reason requeue lost t = (t', ok)) (ht : t.events = []) :
    t'.sup = t.sup ∧ Quiet t'.events := by
  unfold failClaim at h
  split at h
  · cases h
    exact ⟨rfl, by rw [ht]; exact quiet_nil⟩
  · cases hq : t.queue cfg m (.nack a.token reason requeue) with
    | mk t₁ outcome =>
      rw [hq] at h
      cases h
      exact Turn.queue_quiet hq ht nofun nofun

theorem completeClaim_ack {a : Activation} {lost ok : Bool} {t t' : Turn}
    (h : completeClaim cfg m a lost t = (t', ok)) (ht : t.events = []) :
    t'.sup = t.sup ∧ AckCall a t'.events := by
  unfold completeClaim at h
  split at h
  · cases h
    exact ⟨rfl, .inl ht⟩
  · cases hq : t.queue cfg m (.ack a.token) with
    | mk t₁ outcome =>
      rw [hq] at h
      cases h
      obtain ⟨hsup, -, ⟨-, hev⟩ | ⟨-, hev⟩⟩ := Turn.queue_spec hq
      · exact ⟨hsup, .inl (hev.trans ht)⟩
      · exact ⟨hsup, .inr ⟨m.clock, outcome, by rw [hev, ht]; rfl⟩⟩

end Calls

/-! ## Moves -/

/-- The part of a supervisor that its dispatching works on. -/
@[ext]
structure Core where
  workers : List WorkerId
  worker : WorkerId → GoalWorker
  nextWorker : WorkerId
  activeGoals : ObjectMap String WorkerId
  executions : WorkerId → Option Execution
  poll : Poll
  running : Bool
  aborted : Bool

def Supervisor.core (s : Supervisor) : Core where
  workers := s.workers
  worker := s.worker
  nextWorker := s.nextWorker
  activeGoals := s.activeGoals
  executions := s.executions
  poll := s.poll
  running := s.running
  aborted := s.aborted

/-- The steps of a poll that neither claim nor assign nor acknowledge. -/
inductive PollMove : Poll → Poll → Prop
  | ended (p : Poll) : PollMove p .none
  | dropped (w : WorkerId) (a : Activation) (rest : List WorkerId) :
      PollMove (.claimed w (some a) rest) (.settling rest)
  | answered (w : WorkerId) (a : Activation) (now : Millis) (granted : Bool)
      (rest : List WorkerId) : PollMove (.acquiring w a now rest) (.acquired w a granted rest)
  | refused (w : WorkerId) (a : Activation) (rest : List WorkerId) :
      PollMove (.acquired w a false rest) (.settling rest)
  | stopped (w : WorkerId) (a : Activation) (rest : List WorkerId) :
      PollMove (.acquired w a true rest) (.stopping a)

/-- The head of the loop of a poll, with the events it makes. -/
inductive ClaimsNext (m : Moment) (rest : List WorkerId) : List Event → Poll → Prop
  | ended {events : List Event} : Quiet events → ClaimsNext m rest events .none
  | claimed {w : WorkerId} {rest' : List WorkerId} {call : Call} {c : Option Claim} :
      rest = w :: rest' →
      (∃ workerId leaseMs filter, call.op = .claim workerId leaseMs filter m.uuid) →
      (∀ c' ∈ c, c'.claimToken = m.uuid.val) →
      ClaimsNext m rest [.queue call (.claimed c)] (.claimed w (c.bind dispatchOf) rest')

/-- The steps of an execution outside `worker.execute`, and the pauses inside, that
make no claim, acknowledgement or iteration. -/
inductive PhaseMove : Phase → Phase → Prop
  | same (p : Phase) : PhaseMove p p
  | admitted : PhaseMove .admission .markStarted
  | suspended (result : WorkerResult) (reason : String) :
      PhaseMove (.returned result) (.suspending reason)
  | escalationThrew (result : WorkerResult) (reason : String) :
      PhaseMove (.returned result) (.caught reason)
  | deferred (result : WorkerResult) : PhaseMove (.returned result) .settled
  | completing (result : WorkerResult) : PhaseMove (.returned result) .completing
  | relinquished (result : WorkerResult) : PhaseMove (.returned result) .releasing
  | completed : PhaseMove .completing .terminal
  | failed (reason : String) : PhaseMove (.suspending reason) .settled
  | failThrew (reason reason' : String) : PhaseMove (.suspending reason) (.caught reason')
  | recovered (reason : String) : PhaseMove (.caught reason) .settled
  | cleaned : PhaseMove .settled .releasing
  | released : PhaseMove .releasing .released

/-- What one segment of a supervisor can do: its events and the pool it leaves. -/
inductive Move (cfg : Config) (m : Moment) (s : Supervisor) (action : Action) :
    List Event → Core → Prop
  | quiet {events : List Event} : Quiet events → Move cfg m s action events s.core
  | poll {events : List Event} {p : Poll} : Quiet events → PollMove s.poll p →
      Move cfg m s action events { s.core with poll := p }
  | acquire {w : WorkerId} {a : Activation} {rest : List WorkerId} :
      s.poll = .claimed w (some a) rest → s.activeGoals.get? a.goalId = none →
      Move cfg m s action [] { s.core with poll := .acquiring w a m.now rest }
  | next {events : List Event} {rest : List WorkerId} {p : Poll} :
      s.poll = .settling rest ∨ s.poll = .none ∧ s.running = true ∧ rest = s.idleWorkers →
      ClaimsNext m rest events p → Move cfg m s action events { s.core with poll := p }
  | ackStopped {events : List Event} {w : WorkerId} {a : Activation} {rest : List WorkerId}
      {p : Poll} :
      s.poll = .claimed w (some a) rest → a.goalId ∈ s.stoppedGoals → AckCall a events →
      p = .none ∨ p = .settling rest → Move cfg m s action events { s.core with poll := p }
  | coalesce {w active : WorkerId} {a : Activation} {rest : List WorkerId} :
      action = .poll → s.poll = .claimed w (some a) rest →
      s.activeGoals.get? a.goalId = some active →
      Move cfg m s action [] { s.core with
        worker := Function.update s.worker active (s.worker active).requestExtend
        poll := .coalescing a rest }
  | ackCoalesced {events : List Event} {a : Activation} {rest : List WorkerId} {p : Poll} :
      s.poll = .coalescing a rest → AckCall a events → p = .none ∨ p = .settling rest →
      Move cfg m s action events { s.core with poll := p }
  | assign {events : List Event} {w : WorkerId} {a : Activation} {rest : List WorkerId}
      {p : Poll} :
      s.poll = .acquired w a true rest → s.running = true → ClaimsNext m rest events p →
      Move cfg m s action events { s.core with
        activeGoals := s.activeGoals.set a.goalId w
        executions := Function.update s.executions w (some { activation := a })
        poll := p }
  | phase {events : List Event} {w : WorkerId} {e e' : Execution} :
      s.executions w = some e → e'.activation = e.activation → PhaseMove e.phase e'.phase →
      Quiet events →
      Move cfg m s action events { s.core with executions := Function.update s.executions w (some e') }
  | reject {w : WorkerId} {e : Execution} (reason : String) :
      action = .execution w .rejected → s.executions w = some e → e.phase = .admission →
      Move cfg m s action [] { s.core with
        executions := Function.update s.executions w (some (e.moveTo (.caught reason))) }
  | execute {w : WorkerId} {e : Execution} :
      s.executions w = some e → e.phase = .markStarted →
      Move cfg m s action [] { s.core with
        worker := Function.update s.worker w (.execute e.activation.goalId)
        executions := Function.update s.executions w (some (e.moveTo .runStart)) }
  | iterate {w : WorkerId} {e : Execution} :
      s.executions w = some e → e.phase.executing = true → e.phase ≠ .run →
      Move cfg m s action [.iteration e.activation.goalId] { s.core with
        worker := Function.update s.worker w (s.worker w).beginIteration
        executions := Function.update s.executions w (some (e.moveTo .run)) }
  | record {w : WorkerId} {e : Execution} (result : LoopResult) :
      s.executions w = some e → e.phase = .run →
      Move cfg m s action [] { s.core with
        worker := Function.update s.worker w ((s.worker w).record result)
        executions := Function.update s.executions w
          (some (e.moveTo (.runComplete result))) }
  | pause {w : WorkerId} {e : Execution} {last : LoopResult} :
      s.executions w = some e → e.phase = .runComplete last →
      (s.worker w).extendRequested = false →
      Move cfg m s action [] { s.core with
        executions := Function.update s.executions w (some (e.moveTo (.immediate last))) }
  | fail {w : WorkerId} {e : Execution} (reason : String) :
      action = .execution w .rejected → s.executions w = some e → e.phase = .run →
      Move cfg m s action [] { s.core with
        worker := Function.update s.worker w
          ((s.worker w).fail e.activation.goalId reason s.aborted).1
        executions := Function.update s.executions w
          (some (e.moveTo (.returned
            ((s.worker w).fail e.activation.goalId reason s.aborted).2))) }
  | finish {w : WorkerId} {e : Execution} {last : LoopResult} :
      s.executions w = some e → e.phase = .immediate last →
      (s.worker w).extendRequested = false →
      Move cfg m s action [] { s.core with
        worker := Function.update s.worker w ((s.worker w).finish e.activation.goalId last).1
        executions := Function.update s.executions w
          (some (e.moveTo (.returned ((s.worker w).finish e.activation.goalId last).2))) }
  | ackCompleted {events : List Event} {w : WorkerId} {e : Execution} {p : Phase} :
      s.executions w = some e → e.phase = .terminal → AckCall e.activation events →
      p = .settled ∨ (∃ reason, p = .caught reason) →
      Move cfg m s action events { s.core with
        executions := Function.update s.executions w (some (e.moveTo p)) }
  | done {w : WorkerId} {e : Execution} :
      s.executions w = some e → e.phase = .released →
      Move cfg m s action [] { s.core with
        activeGoals := s.activeGoals.delete e.activation.goalId
        executions := Function.update s.executions w none }
  | shutdown : Move cfg m s action [] { s.core with running := false }
  | abort : s.running = false → Move cfg m s action [] { s.core with aborted := true }
  | relinquish {events : List Event} {w : WorkerId} {e : Execution} :
      s.aborted = true → s.executions w = some e → Quiet events →
      Move cfg m s action events { s.core with activeGoals := s.activeGoals.delete e.activation.goalId }
  | replace : action = .replaceIdleWorkers → s.activeGoals.entries = [] →
      (∀ w ∈ s.workers, (s.worker w).status = .idle) →
      Move cfg m s action [] { s.core with
        workers := List.range' s.nextWorker cfg.supervisor.concurrency
        worker := fun w => if s.nextWorker ≤ w then {} else s.worker w
        nextWorker := s.nextWorker + cfg.supervisor.concurrency }

/-! ## Every segment is a move -/

section Segments

variable {cfg : Config} {m : Moment} {t t' : Turn} {action : Action}

theorem claimNext_spec (cfg : Config) (m : Moment) (t : Turn) (rest : List WorkerId)
    (ht : t.events = []) :
    ∃ p, (claimNext cfg m rest t).sup = t.sup.setPoll p ∧
      ClaimsNext m rest (claimNext cfg m rest t).events p := by
  cases rest with
  | nil => exact ⟨.none, rfl, .ended (by rw [show (claimNext cfg m [] t).events = [] from ht]; simp)⟩
  | cons w rest =>
    unfold claimNext
    simp only
    cases hq : t.queue cfg m (.claim (workerName w) (some cfg.supervisor.claimLeaseMs)
        isGoalActivation m.uuid) with
    | mk t₁ outcome =>
      obtain ⟨hsup, -, hev⟩ := Turn.queue_spec hq
      have hquiet : (∀ c, outcome ≠ .claimed c) → Quiet t₁.events := by
        intro hno event hmem
        rcases hev with ⟨-, hev⟩ | ⟨-, hev⟩
        · rw [hev, ht] at hmem
          cases hmem
        · rw [hev, ht] at hmem
          obtain rfl := List.mem_singleton.mp hmem
          refine ⟨?_, ?_, nofun⟩
          · rintro c ⟨_, _, heq, hc⟩
            cases heq
            exact hno _ hc
          · rintro token ⟨_, _, heq, hop, -⟩
            cases heq
            cases hop
      cases outcome with
      | claimed c =>
        refine ⟨.claimed w (c.bind dispatchOf) rest, by rw [← hsup]; rfl, ?_⟩
        rcases hev with ⟨hthrew, -⟩ | ⟨hout, hev⟩
        · cases hthrew
        · show ClaimsNext _ _ t₁.events _
          rw [hev, ht]
          exact .claimed rfl ⟨_, _, _, rfl⟩ fun c' hc => claimed_token (hout.symm.trans (congrArg _ hc))
      | _ => exact ⟨.none, by rw [← hsup]; rfl, .ended (hquiet fun c hc => (by cases hc))⟩

theorem settleThen_poll (rest : List WorkerId) (r : Turn × Bool) :
    ∃ p, (settleThen rest r).sup = r.1.sup.setPoll p ∧ (p = .none ∨ p = .settling rest) := by
  obtain ⟨t, ok⟩ := r
  cases ok
  · exact ⟨.none, rfl, .inl rfl⟩
  · exact ⟨.settling rest, rfl, .inr rfl⟩

theorem schedulePoll_move (h : schedulePoll cfg m t = some t') (ht : t.events = []) :
    Move cfg m t.sup action t'.events t'.sup.core := by
  unfold schedulePoll at h
  split at h
  · next hpoll =>
    split at h
    · next hrunning =>
      cases h
      obtain ⟨p, hsup, hnext⟩ := claimNext_spec cfg m t t.sup.idleWorkers ht
      rw [hsup]
      exact .next (.inr ⟨hpoll, hrunning, rfl⟩) hnext
    · cases h
      rw [ht]
      exact .quiet quiet_nil
  · cases h

/-- The poll settles a claim with `failClaim`. -/
theorem failThen_move {a : Activation} {reason : String} {requeue : Bool}
    {rest : List WorkerId} (ht : t.events = []) (hmove : PollMove t.sup.poll (.settling rest)) :
    Move cfg m t.sup action (settleThen rest (failClaim cfg m a reason requeue false t)).events
      (settleThen rest (failClaim cfg m a reason requeue false t)).sup.core := by
  cases hfail : failClaim cfg m a reason requeue false t with
  | mk t₁ ok =>
    obtain ⟨hsup, hquiet⟩ := failClaim_quiet hfail ht
    obtain ⟨p, hp, hcase⟩ := settleThen_poll rest (t₁, ok)
    rw [hp, hsup]
    refine .poll hquiet ?_
    rcases hcase with rfl | rfl
    · exact .ended _
    · exact hmove

theorem pollAndAssign_move (h : pollAndAssign cfg m t = some t') (ht : t.events = []) :
    Move cfg m t.sup .poll t'.events t'.sup.core := by
  unfold pollAndAssign at h
  split at h
  · cases h
  · cases h
    show Move _ _ _ _ t.events _
    rw [ht]
    exact .poll quiet_nil (.ended _)
  · next w a rest hpoll =>
    cases hactive : t.sup.activeGoals.get? a.goalId with
    | some active =>
      rw [hactive] at h
      cases h
      show Move _ _ _ _ t.events _
      rw [ht]
      exact .coalesce rfl hpoll hactive
    | none =>
      rw [hactive] at h
      simp only at h
      split at h
      · next hstopped =>
        cases h
        cases hack : completeClaim cfg m a false t with
        | mk t₁ ok =>
          obtain ⟨hsup, hcall⟩ := completeClaim_ack hack ht
          obtain ⟨p, hp, hcase⟩ := settleThen_poll rest (t₁, ok)
          rw [hp, hsup]
          exact .ackStopped hpoll hstopped hcall hcase
      · split at h
        · cases h
          exact failThen_move ht (hpoll ▸ .dropped w a rest)
        · cases h
          show Move _ _ _ _ t.events _
          rw [ht]
          exact .acquire hpoll hactive
  · next a rest hpoll =>
    cases h
    cases hack : completeClaim cfg m a false t with
    | mk t₁ ok =>
      obtain ⟨hsup, hcall⟩ := completeClaim_ack hack ht
      obtain ⟨p, hp, hcase⟩ := settleThen_poll rest (t₁, ok)
      rw [hp, hsup]
      exact .ackCoalesced hpoll hcall hcase
  · next w a now rest hpoll =>
    cases hlease : t.lease cfg m (.acquire a.goalId (acquireOptions cfg w a) now) with
    | mk t₁ outcome =>
      rw [hlease] at h
      obtain ⟨hsup, hquiet⟩ := Turn.lease_quiet hlease ht
      cases outcome with
      | acquired lease =>
        cases h
        show Move _ _ _ _ t₁.events (t₁.sup.setPoll _).core
        rw [hsup]
        exact .poll hquiet (hpoll ▸ .answered w a now lease.isSome rest)
      | _ =>
        cases h
        show Move _ _ _ _ t₁.events (t₁.sup.setPoll _).core
        rw [hsup]
        exact .poll hquiet (.ended _)
  · next w a granted rest hpoll =>
    split at h
    · next hrefused =>
      cases h
      obtain rfl : granted = false := by simpa using hrefused
      exact failThen_move ht (hpoll ▸ .refused w a rest)
    · next hgranted =>
      obtain rfl : granted = true := by simpa using hgranted
      split at h
      · cases hfail : failClaim cfg m a "supervisor stopping" true false t with
        | mk t₁ ok =>
          rw [hfail] at h
          cases h
          obtain ⟨hsup, hquiet⟩ := failClaim_quiet hfail ht
          show Move _ _ _ _ t₁.events (t₁.sup.setPoll _).core
          rw [hsup]
          refine .poll hquiet ?_
          cases ok
          · exact .ended _
          · exact hpoll ▸ .stopped w a rest
      · next hrunning =>
        cases h
        obtain ⟨p, hsup, hnext⟩ := claimNext_spec cfg m (t.update (assign w a)) rest ht
        rw [hsup]
        exact .assign hpoll (by simpa using hrunning) hnext
  · next rest hpoll =>
    cases h
    obtain ⟨p, hsup, hnext⟩ := claimNext_spec cfg m t rest ht
    rw [hsup]
    exact .next (.inl hpoll) hnext
  · next a hpoll =>
    cases hlease : t.lease cfg m (.release a.goalId a.token) with
    | mk t₁ outcome =>
      rw [hlease] at h
      cases h
      obtain ⟨hsup, hquiet⟩ := Turn.lease_quiet hlease ht
      show Move _ _ _ _ t₁.events (t₁.sup.setPoll _).core
      rw [hsup]
      exact .poll hquiet (.ended _)

/-- The execution settles its claim with `failClaim`. -/
theorem failClaim_move {w : WorkerId} {e : Execution} {reason : String} {requeue lost : Bool}
    {p : Bool → Phase} (hexec : t.sup.executions w = some e) (ht : t.events = [])
    (hmove : ∀ ok, PhaseMove e.phase (p ok)) (r : Turn × Bool)
    (hr : failClaim cfg m e.activation reason requeue lost t = r) :
    Move cfg m t.sup action (r.1.update (enter w e (p r.2))).events
      (r.1.update (enter w e (p r.2))).sup.core := by
  obtain ⟨t₁, ok⟩ := r
  obtain ⟨hsup, hquiet⟩ := failClaim_quiet hr ht
  show Move _ _ _ _ t₁.events (enter w e (p ok) t₁.sup).core
  rw [hsup]
  exact .phase hexec rfl (hmove ok) hquiet

/-- A segment of an execution that only moves it on. -/
theorem enter_move {w : WorkerId} {e : Execution} {p : Phase}
    (hexec : t.sup.executions w = some e) (ht : t.events = []) (hmove : PhaseMove e.phase p) :
    Move cfg m t.sup action (t.update (enter w e p)).events (t.update (enter w e p)).sup.core := by
  show Move _ _ _ _ t.events _
  rw [ht]
  exact .phase hexec rfl hmove quiet_nil

theorem cleanUp_move {w : WorkerId} {e : Execution} (hexec : t.sup.executions w = some e)
    (ht : t.events = []) (hmove : PhaseMove e.phase .releasing) :
    Move cfg m t.sup action (t.update (cleanUp w e)).events (t.update (cleanUp w e)).sup.core := by
  show Move _ _ _ _ t.events _
  rw [ht]
  exact .phase hexec rfl hmove quiet_nil

theorem deferDurableRetry_move {w : WorkerId} {e : Execution} {reason : String}
    {backoffMs : Millis} {s : Supervisor} (hcore : t.sup.core = s.core)
    (hexec : s.executions w = some e) (ht : t.events = [])
    (hsettled : PhaseMove e.phase .settled) (hcaught : PhaseMove e.phase (.caught m.error)) :
    Move cfg m s action (deferDurableRetry cfg m w e reason backoffMs t).events
      (deferDurableRetry cfg m w e reason backoffMs t).sup.core := by
  have hmoved : ∀ {t₁ : Turn} {s' : Supervisor} {p : Phase}, Quiet t₁.events →
      s'.core = s.core → PhaseMove e.phase p → Move cfg m s action t₁.events (enter w e p s').core := by
    intro t₁ s' p hquiet hs' hmove
    show Move cfg m s action t₁.events { s'.core with executions := Function.update s'.core.executions w _ }
    rw [hs']
    exact .phase hexec rfl hmove hquiet
  unfold deferDurableRetry
  split
  · have hquiet : Quiet t.events := ht ▸ quiet_nil
    exact hmoved hquiet hcore hsettled
  · simp only
    cases hq : t.queue cfg m (.renew e.activation.token
        (some (backoffMs + max cfg.supervisor.pollIntervalMs 100))) with
    | mk t₁ outcome =>
      obtain ⟨hsup, hquiet⟩ := Turn.queue_quiet hq ht nofun nofun
      have hcore₁ : t₁.sup.core = s.core := by rw [hsup, hcore]
      split
      all_goals
        next heq =>
        obtain ⟨rfl, rfl⟩ := Prod.mk.inj heq
        exact hmoved hquiet hcore₁ (by assumption)

theorem afterExecute_move {w : WorkerId} {e : Execution} {result : WorkerResult}
    (hexec : t.sup.executions w = some e) (hphase : e.phase = .returned result)
    (ht : t.events = []) :
    Move cfg m t.sup action (afterExecute cfg m w e result t).events
      (afterExecute cfg m w e result t).sup.core := by
  unfold afterExecute
  simp only
  split
  · exact cleanUp_move hexec ht (hphase ▸ .relinquished result)
  · split
    · split
      · show Move _ _ _ _ t.events _
        rw [ht]
        refine .phase hexec rfl ?_ quiet_nil
        rw [hphase]
        cases m.fault
        · exact .suspended _ _
        · exact .escalationThrew _ _
      · exact deferDurableRetry_move rfl hexec ht (hphase ▸ .deferred result)
          (hphase ▸ .escalationThrew result _)
    · show Move _ _ _ _ t.events _
      rw [ht]
      exact .phase hexec rfl (hphase ▸ .completing result) quiet_nil

theorem iterate_move {w : WorkerId} {e : Execution} (hexec : t.sup.executions w = some e)
    (hphase : e.phase.executing = true) (hrun : e.phase ≠ .run) (ht : t.events = []) :
    Move cfg m t.sup action (iterate w e t).events (iterate w e t).sup.core := by
  show Move _ _ _ _ (t.events ++ [.iteration e.activation.goalId]) _
  rw [ht]
  exact .iterate hexec hphase hrun

theorem executeWorker_move {w : WorkerId} {e : Execution} {reply : Reply}
    (hexec : t.sup.executions w = some e) (h : executeWorker cfg m w e reply t = some t')
    (ht : t.events = []) : Move cfg m t.sup (.execution w reply) t'.events t'.sup.core := by
  have hev : ∀ f, (t.update f).events = [] := fun _ => ht
  unfold executeWorker at h
  simp only at h
  split at h
  · next hphase =>
    cases h
    exact enter_move hexec ht (hphase ▸ .admitted)
  · next hphase =>
    cases h
    rw [hev]
    exact .reject m.error rfl hexec hphase
  · next hphase =>
    cases h
    rw [hev]
    exact .execute hexec hphase
  · next hphase =>
    cases h
    exact iterate_move hexec (by rw [hphase]; rfl) (by rw [hphase]; nofun) ht
  · next result hphase =>
    cases h
    rw [hev]
    exact .record result hexec hphase
  · next hphase =>
    cases h
    rw [hev]
    exact .fail m.error rfl hexec hphase
  · next last hphase =>
    split at h
    · cases h
      exact iterate_move hexec (by rw [hphase]; rfl) (by rw [hphase]; nofun) ht
    · next hflag =>
      cases h
      rw [hev]
      exact .pause hexec hphase (by simpa using hflag)
  · next last hphase =>
    split at h
    · cases h
      exact iterate_move hexec (by rw [hphase]; rfl) (by rw [hphase]; nofun) ht
    · next hflag =>
      cases h
      rw [hev]
      exact .pause hexec hphase (by simpa using hflag)
  · next last hphase =>
    split at h
    · cases h
      exact iterate_move hexec (by rw [hphase]; rfl) (by rw [hphase]; nofun) ht
    · next hflag =>
      cases h
      rw [hev]
      exact .finish hexec hphase (by simpa using hflag)
  · next result hphase =>
    cases h
    exact afterExecute_move hexec hphase ht
  · next hphase =>
    cases h
    exact enter_move hexec ht (hphase ▸ .completed)
  · next hphase =>
    cases h
    exact enter_move hexec ht (hphase ▸ .completed)
  · next hphase =>
    cases h
    cases hack : completeClaim cfg m e.activation e.ownershipLost t with
    | mk t₁ ok =>
      obtain ⟨hsup, hcall⟩ := completeClaim_ack hack ht
      show Move _ _ _ _ t₁.events (enter w e _ t₁.sup).core
      rw [hsup]
      refine .ackCompleted hexec hphase hcall ?_
      cases ok
      · exact .inr ⟨m.error, rfl⟩
      · exact .inl rfl
  · next reason hphase =>
    cases h
    refine failClaim_move (p := fun ok => if ok then .settled else .caught m.error) hexec ht
      (fun ok => ?_) _ rfl
    rw [hphase]
    cases ok
    · exact .failThrew _ _
    · exact .failed _
  · next reason hphase =>
    cases h
    exact failClaim_move (p := fun _ => .settled) hexec ht (fun _ => hphase ▸ .recovered _) _ rfl
  · next hphase =>
    cases h
    exact cleanUp_move hexec ht (hphase ▸ .cleaned)
  · next hphase =>
    cases h
    cases hlease : t.lease cfg m (.release e.activation.goalId e.activation.token) with
    | mk t₁ outcome =>
      obtain ⟨hsup, hquiet⟩ := Turn.lease_quiet hlease ht
      show Move _ _ _ _ t₁.events (enter w e .released t₁.sup).core
      rw [hsup]
      exact .phase hexec rfl (hphase ▸ .released) hquiet
  · next hphase =>
    cases h
    rw [hev]
    exact .done hexec hphase
  · cases h

theorem renewTick_move {w : WorkerId} {e : Execution}
    (h : renewTick cfg m w e t = some t') (ht : t.events = []) :
    Move cfg m t.sup action t'.events t'.sup.core := by
  unfold renewTick at h
  split at h
  · cases h
  · simp only at h
    cases hq : t.queue cfg m (.renew e.activation.token (some cfg.supervisor.claimLeaseMs)) with
    | mk t₁ outcome =>
      obtain ⟨hsup, hquiet⟩ := Turn.queue_quiet hq ht nofun nofun
      rw [hq] at h
      have hcore : t₁.sup.core = t.sup.core := by rw [hsup]
      split at h
      · next heq =>
        obtain ⟨rfl, rfl⟩ := Prod.mk.inj heq
        cases h
        show Move _ _ _ _ t₁.events t₁.sup.core
        rw [hcore]
        exact .quiet hquiet
      · next heq =>
        obtain ⟨rfl, rfl⟩ := Prod.mk.inj heq
        cases h
        rw [hcore]
        exact .quiet hquiet

theorem leaseLost_move (r : Renewal) (s s' : Supervisor) (hcore : s'.core = s.core) :
    Move cfg m s action [] (leaseLost r s').core := by
  have hexecs : s'.executions = s.executions := congrArg Core.executions hcore
  unfold leaseLost
  split
  · next e hexec =>
    split
    · show Move cfg m s action [] { s'.core with executions := Function.update s'.core.executions _ _ }
      rw [hcore]
      exact .phase (e := e) (hexecs ▸ hexec) rfl (.same _) quiet_nil
    · rw [hcore]
      exact .quiet quiet_nil
  · rw [hcore]
    exact .quiet quiet_nil

theorem renewStep_move {k : Nat} (h : renewStep cfg m k t = some t') (ht : t.events = []) :
    Move cfg m t.sup action t'.events t'.sup.core := by
  unfold renewStep at h
  split at h
  · cases h
  · next r hr =>
    split at h
    · cases hlease : t.lease cfg m (.renew r.activation.goalId r.activation.token
          (some cfg.supervisor.claimLeaseMs) r.now) with
      | mk t₁ outcome =>
        obtain ⟨hsup, hquiet⟩ := Turn.lease_quiet hlease ht
        rw [hlease] at h
        have hcore : t₁.sup.core = t.sup.core := by rw [hsup]
        split at h
        all_goals
          next heq =>
          obtain ⟨rfl, rfl⟩ := Prod.mk.inj heq
          cases h
          show Move _ _ _ _ t₁.events t₁.sup.core
          rw [hcore]
          exact .quiet hquiet
    · cases h
      show Move _ _ _ _ t.events _
      rw [ht]
      show Move _ _ _ _ _ (if _ then _ else _ : Supervisor).core
      split
      · exact .quiet quiet_nil
      · exact leaseLost_move r _ _ rfl

theorem retryTimer_move {k : Nat} (h : retryTimer cfg m k t = some t') (ht : t.events = []) :
    Move cfg m t.sup action t'.events t'.sup.core := by
  unfold retryTimer at h
  split at h
  · cases h
  · next a reason hk =>
    simp only at h
    split at h
    · cases h
      obtain ⟨hsup, hquiet⟩ := failClaim_quiet
        (Prod.mk.eta (p := failClaim cfg m a reason true false (t.update fun s =>
          { s with retryTimers := s.retryTimers.eraseIdx k }))).symm ht
      rw [hsup]
      exact .quiet hquiet
    · cases h
      show Move _ _ _ _ t.events _
      rw [ht]
      exact .quiet quiet_nil

theorem activateGoal_move {goalId : String} {options : ActivateGoalOptions}
    (ht : t.events = []) :
    Move cfg m t.sup action (activateGoal cfg m goalId options t).events
      (activateGoal cfg m goalId options t).sup.core := by
  unfold activateGoal enqueueGoalActivation
  have hquiet : Move cfg m t.sup action t.events t.sup.core := ht ▸ .quiet quiet_nil
  split
  · exact hquiet
  · split
    · next createdAt _ =>
      obtain ⟨hsup, hq⟩ := Turn.queue_quiet
        (Prod.mk.eta (p := (t.update fun s =>
          { s with
            stoppedGoals := s.stoppedGoals.erase goalId
            suspendedGoals := s.suspendedGoals.erase goalId }).queue cfg m
          (.accept (activationEnvelope m goalId options createdAt)))).symm ht nofun nofun
      rw [hsup]
      exact .quiet hq
    · exact hquiet

theorem relinquish_move {w : WorkerId} {e : Execution} (haborted : t.sup.aborted = true)
    (hexec : t.sup.executions w = some e) (h : relinquish cfg m e t = some t')
    (ht : t.events = []) : Move cfg m t.sup action t'.events t'.sup.core := by
  unfold relinquish at h
  split at h
  · cases h
  · simp only at h
    split at h
    all_goals
      next heq =>
      obtain ⟨hsup, hquiet⟩ := failClaim_quiet heq ht
      cases h
      refine (congrArg (Move cfg m t.sup action _) ?_).mp (.relinquish haborted hexec hquiet)
      exact Eq.symm (congrArg Supervisor.core hsup)

theorem releaseRelinquished_move {k : Nat} (h : releaseRelinquished cfg m k t = some t')
    (ht : t.events = []) : Move cfg m t.sup action t'.events t'.sup.core := by
  unfold releaseRelinquished at h
  split at h
  · cases h
  · next a hk =>
    cases hlease : t.lease cfg m (.release a.goalId a.token) with
    | mk t₁ outcome =>
      obtain ⟨hsup, hquiet⟩ := Turn.lease_quiet hlease ht
      rw [hlease] at h
      cases h
      have hcore : t₁.sup.core = t.sup.core := by rw [hsup]
      show Move _ _ _ _ t₁.events t₁.sup.core
      rw [hcore]
      exact .quiet hquiet

theorem beginWrite_move {goalId : String} (h : beginWrite goalId t = some t')
    (ht : t.events = []) : Move cfg m t.sup action t'.events t'.sup.core := by
  unfold beginWrite at h
  split at h
  · cases h
  · split at h
    · cases h
      refine .quiet fun event hmem => ?_
      have hmem : event ∈ t.events ++ [.written goalId none] := hmem
      rw [ht] at hmem
      obtain rfl := List.mem_singleton.mp hmem
      exact quiet_written _ _
    · cases h
      show Move _ _ _ _ t.events _
      rw [ht]
      exact .quiet quiet_nil

theorem fenceStep_move {goalId : String} (h : fenceStep cfg m goalId t = some t')
    (ht : t.events = []) : Move cfg m t.sup action t'.events t'.sup.core := by
  unfold fenceStep at h
  simp only at h
  split at h
  · cases h
  · next fence hwrite =>
    cases hlease : t.lease cfg m (.read goalId) with
    | mk t₁ outcome =>
      obtain ⟨hsup, hquiet⟩ := Turn.lease_quiet hlease ht
      rw [hlease] at h
      have hcore : t₁.sup.core = t.sup.core := by rw [hsup]
      split at h
      · next heq =>
        obtain ⟨rfl, rfl⟩ := Prod.mk.inj heq
        cases h
        show Move _ _ _ _ t₁.events t₁.sup.core
        rw [hcore]
        exact .quiet hquiet
      · next heq =>
        obtain ⟨rfl, rfl⟩ := Prod.mk.inj heq
        cases h
        show Move _ _ _ _ (t₁.events ++ [.fenced goalId]) t₁.sup.core
        rw [hcore]
        refine .quiet fun event hmem => ?_
        rcases List.mem_append.mp hmem with hold | hnew
        · exact hquiet event hold
        · obtain rfl := List.mem_singleton.mp hnew
          exact quiet_fenced goalId
  · next fence current hwrite =>
    cases h
    refine .quiet fun event hmem => ?_
    have hmem : event ∈ t.events ++ [_] := hmem
    rw [ht] at hmem
    obtain rfl := List.mem_singleton.mp hmem
    split
    · exact quiet_written _ _
    · exact quiet_fenced _

/-- **The inversion lemma**: every segment is a move. -/
theorem act_move {action : Action} (h : act cfg m action t = some t') (ht : t.events = []) :
    Move cfg m t.sup action t'.events t'.sup.core := by
  unfold act at h
  cases action with
  | schedulePoll => exact schedulePoll_move h ht
  | poll => exact pollAndAssign_move h ht
  | execution w reply =>
    obtain ⟨e, hexec, h⟩ := Option.bind_eq_some_iff.mp h
    exact executeWorker_move hexec h ht
  | renewTick w =>
    obtain ⟨e, -, h⟩ := Option.bind_eq_some_iff.mp h
    exact renewTick_move h ht
  | renewStep k => exact renewStep_move h ht
  | retryTimer k => exact retryTimer_move h ht
  | activateGoal goalId options =>
    cases h
    exact activateGoal_move ht
  | deactivateGoal goalId =>
    cases h
    show Move _ _ _ _ t.events _
    rw [ht]
    exact .quiet quiet_nil
  | replaceIdleWorkers =>
    cases h
    show Move _ _ _ _ t.events (replaceIdleWorkers cfg t.sup).core
    rw [ht]
    unfold replaceIdleWorkers
    split
    · exact .quiet quiet_nil
    · next hidle =>
      obtain ⟨hactive, hworkers⟩ := not_or.mp hidle
      refine .replace rfl (not_not.mp hactive) fun w hw => ?_
      have hnot := fun hbusy => hworkers ⟨w, hw, hbusy⟩
      simpa [GoalWorker.isIdle] using hnot
  | shutdown =>
    cases h
    show Move _ _ _ _ t.events _
    rw [ht]
    exact .shutdown
  | abort =>
    simp only at h
    split at h
    · cases h
    · next hstopped =>
      cases h
      show Move _ _ _ _ t.events _
      rw [ht]
      exact .abort (by simpa using hstopped)
  | relinquish w =>
    simp only at h
    split at h
    · next haborted =>
      obtain ⟨e, hexec, h⟩ := Option.bind_eq_some_iff.mp h
      exact relinquish_move haborted hexec h ht
    · cases h
  | releaseRelinquished k => exact releaseRelinquished_move h ht
  | beginWrite goalId => exact beginWrite_move h ht
  | fenceStep goalId => exact fenceStep_move h ht

end Segments

end PulSeed.Executor
