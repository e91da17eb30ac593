import PulSeed.Executor.Pool
import PulSeed.Executor.Stores

/-!
# No activation is lost

A `goal_activated` message for a goal that is active already is coalesced: the
supervisor sets a flag on the worker and acknowledges the message. The worker tests
the flag when an iteration has ended and after `setImmediate`; between that last
test and the end of `executeWorker` the goal is still active, but the flag is no
longer read. The flag is also forgotten when the admission of the goal or its loop
throws.

`Owed` is the promise a set flag stands for: an execution of the goal that will begin
another iteration. Every segment keeps the promise or fulfils it (`Move.owed`), except
in these cases, which `KeepsActivation` excludes.
-/

namespace PulSeed.Executor

open Queue GoalLease

/-! ## The condition -/

/-- The execution of the worker will still test the flag, or begin its loop. -/
def Supervisor.listens (s : Supervisor) (w : WorkerId) : Bool :=
  match s.executions w with
  | some e => e.phase.beforeLoopEnd
  | none => false

/-- An exception in the admission or the loop of the worker would discard a
requested extension. -/
def Supervisor.discards (s : Supervisor) (w : WorkerId) : Bool :=
  match s.executions w with
  | some e => decide (e.phase = .admission ∨ e.phase = .run) && (s.worker w).extendRequested
  | none => false

/-- The segment coalesces an activation only into a worker that has not left its
loop, and no exception discards a requested extension. -/
def KeepsActivation (s : Supervisor) : Action → Prop
  | .poll =>
    match s.poll with
    | .claimed _ (some a) _ => ∀ w ∈ s.activeGoals.get? a.goalId, s.listens w = true
    | _ => True
  | .execution w .rejected => s.discards w = false
  | _ => True

instance (s : Supervisor) (action : Action) : Decidable (KeepsActivation s action) := by
  unfold KeepsActivation
  split
  · split <;> infer_instance
  · infer_instance
  · infer_instance

/-! ## Owed iterations -/

/-- An execution at this point begins another iteration, when the flag is as given. -/
def Phase.willIterate (extendRequested : Bool) : Phase → Bool
  | .runStart => true
  | .admission | .markStarted | .run | .runComplete _ | .immediate _ => extendRequested
  | _ => false

/-- A flag that is set before the worker leaves its loop is a promise. -/
theorem Phase.willIterate_requested {p : Phase} (h : p.beforeLoopEnd = true) :
    p.willIterate true = true := by
  cases p with
  | admission | markStarted | runStart | run | runComplete | immediate => rfl
  | _ => cases h

/-- A flag that is set owes no less. -/
theorem Phase.willIterate_mono {p : Phase} {flag : Bool} (h : p.willIterate flag = true) :
    p.willIterate true = true := by
  cases p with
  | admission | markStarted | runStart | run | runComplete | immediate => rfl
  | _ => cases h

/-- An execution of the goal will begin another iteration. -/
def Owed (k : Core) (g : String) : Prop :=
  ∃ w e, k.executions w = some e ∧ e.activation.goalId = g ∧
    e.phase.willIterate (k.worker w).extendRequested = true

theorem PhaseMove.willIterate {p p' : Phase} (h : PhaseMove p p') (flag : Bool)
    (hp : p.willIterate flag = true) : p'.willIterate flag = true := by
  cases h with
  | same => exact hp
  | admitted => exact hp
  | _ => cases hp

section

variable {k : Core} {g : String} {w : WorkerId} {e e' : Execution} {worker : GoalWorker}

/-- Other executions keep what they owe. -/
theorem Owed.update (h : Owed k g) (hexec : k.executions w = some e)
    (hw : e.activation.goalId = g → e.phase.willIterate (k.worker w).extendRequested = true →
      e'.activation.goalId = g ∧ e'.phase.willIterate worker.extendRequested = true) :
    Owed { k with
      worker := Function.update k.worker w worker
      executions := Function.update k.executions w (some e') } g := by
  obtain ⟨w', e₀, he₀, hgoal, howed⟩ := h
  by_cases hww : w' = w
  · subst hww
    obtain rfl : e₀ = e := Option.some.inj (he₀.symm.trans hexec)
    obtain ⟨hgoal', howed'⟩ := hw hgoal howed
    refine ⟨w', e', Function.update_self .., hgoal', ?_⟩
    show e'.phase.willIterate (Function.update k.worker w' worker w').extendRequested = true
    rw [Function.update_self]
    exact howed'
  · refine ⟨w', e₀, (Function.update_of_ne hww _ _).trans he₀, hgoal, ?_⟩
    show e₀.phase.willIterate (Function.update k.worker w worker w').extendRequested = true
    rw [Function.update_of_ne hww]
    exact howed

/-- The same, when no worker changes. -/
theorem Owed.setExecution (h : Owed k g) (hexec : k.executions w = some e)
    (hw : e.activation.goalId = g → e.phase.willIterate (k.worker w).extendRequested = true →
      e'.activation.goalId = g ∧ e'.phase.willIterate (k.worker w).extendRequested = true) :
    Owed { k with executions := Function.update k.executions w (some e') } g := by
  have hupdate := h.update hexec hw
  rw [Function.update_eq_self] at hupdate
  exact hupdate

end

/-- A supervisor that runs and has no active goal owes nothing. -/
theorem Wired.not_owed {s : Supervisor} (h : Wired s.core) (hrun : s.running = true)
    (hnone : s.activeGoals.entries = []) (g : String) : ¬ Owed s.core g := by
  rintro ⟨w, e, hexec, -, -⟩
  have hmem := ObjectMap.mem_entries_iff.mpr (h.active hrun w e hexec)
  rw [show s.core.activeGoals.entries = [] from hnone] at hmem
  cases hmem

/-- **Every segment keeps an owed iteration or begins it.** -/
theorem Move.owed {cfg : Config} {m : Moment} {s : Supervisor} {action : Action} {events : List Event}
    {k : Core} (hmove : Move cfg m s action events k) (hkeeps : KeepsActivation s action)
    (hwired : Wired s.core) {g : String} (h : Owed s.core g) :
    Owed k g ∨ .iteration g ∈ events := by
  -- an execution that does not iterate again owes nothing
  have hnothing : ∀ {w e e'},
      Phase.willIterate (s.worker w).extendRequested (Execution.phase e) = false →
      e.activation.goalId = g → e.phase.willIterate (s.core.worker w).extendRequested = true →
      (Execution.activation e').goalId = g ∧
        e'.phase.willIterate (s.core.worker w).extendRequested = true := by
    intro w e e' hno _ hyes
    rw [show s.core.worker w = s.worker w from rfl, hno] at hyes
    cases hyes
  have hdiscards : ∀ {w e}, action = .execution w .rejected → s.executions w = some e →
      e.phase = .admission ∨ e.phase = .run → (s.worker w).extendRequested = false := by
    intro w e haction hexec hphase
    rw [haction] at hkeeps
    have hkeeps : s.discards w = false := hkeeps
    unfold Supervisor.discards at hkeeps
    rw [hexec] at hkeeps
    simpa [hphase] using hkeeps
  cases hmove with
  | quiet => exact .inl h
  | poll => exact .inl h
  | acquire => exact .inl h
  | next => exact .inl h
  | ackStopped => exact .inl h
  | @coalesce w active a rest _ _ _ =>
    obtain ⟨w', e, hexec, hgoal, howed⟩ := h
    refine .inl ⟨w', e, hexec, hgoal, ?_⟩
    show e.phase.willIterate
      (Function.update s.worker active (s.worker active).requestExtend w').extendRequested = true
    by_cases hww : w' = active
    · subst hww
      rw [Function.update_self]
      exact Phase.willIterate_mono howed
    · rw [Function.update_of_ne hww]
      exact howed
  | ackCoalesced => exact .inl h
  | @assign events w a rest p hpoll _ _ =>
    obtain ⟨w', e, hexec, hgoal, howed⟩ := h
    have hfree : s.core.executions w = none := by
      refine hwired.candidates_free w ?_
      rw [show s.core.poll = _ from hpoll]
      exact List.mem_cons_self ..
    have hww : w' ≠ w := by
      rintro rfl
      rw [hexec] at hfree
      cases hfree
    exact .inl ⟨w', e, (Function.update_of_ne hww _ _).trans hexec, hgoal, howed⟩
  | phase hexec hact hphase _ =>
    exact .inl (h.setExecution hexec fun hgoal hyes => ⟨hact ▸ hgoal, hphase.willIterate _ hyes⟩)
  | reject reason haction hexec hphase =>
    refine .inl (h.setExecution hexec (hnothing ?_))
    rw [hphase, hdiscards haction hexec (.inl hphase)]
    rfl
  | execute hexec _ => exact .inl (h.update hexec fun hgoal _ => ⟨hgoal, rfl⟩)
  | @iterate w e hexec _ _ =>
    by_cases hgoal : e.activation.goalId = g
    · exact .inr (List.mem_singleton.mpr (hgoal ▸ rfl))
    · exact .inl (h.update hexec fun hgoal' _ => absurd hgoal' hgoal)
  | record result hexec hphase =>
    refine .inl (h.update hexec fun hgoal hyes => ⟨hgoal, ?_⟩)
    rw [hphase] at hyes
    exact hyes
  | pause hexec hphase hflag =>
    refine .inl (h.setExecution hexec (hnothing ?_))
    rw [hphase, hflag]
    rfl
  | fail reason haction hexec hphase =>
    refine .inl (h.update hexec fun hgoal hyes => ?_)
    rw [hphase, show s.core.worker _ = s.worker _ from rfl,
      hdiscards haction hexec (.inr hphase)] at hyes
    cases hyes
  | finish hexec hphase hflag =>
    refine .inl (h.update hexec fun hgoal hyes => ?_)
    rw [hphase, show s.core.worker _ = s.worker _ from rfl, hflag] at hyes
    cases hyes
  | ackCompleted hexec hphase _ _ =>
    refine .inl (h.setExecution hexec (hnothing ?_))
    rw [hphase]
    rfl
  | @done w e hexec hphase =>
    obtain ⟨w', e', hexec', hgoal, howed⟩ := h
    have hww : w' ≠ w := by
      rintro rfl
      obtain rfl : e' = e := Option.some.inj (hexec'.symm.trans hexec)
      rw [hphase] at howed
      cases howed
    exact .inl ⟨w', e', (Function.update_of_ne hww _ _).trans hexec', hgoal, howed⟩
  | shutdown => exact .inl h
  | abort => exact .inl h
  | relinquish => exact .inl h
  | replace =>
    obtain ⟨w, e, hexec, hgoal, howed⟩ := h
    refine .inl ⟨w, e, hexec, hgoal, ?_⟩
    have hold : w < s.nextWorker := hwired.made w (.inr (.inr (by rw [hexec]; nofun)))
    show e.phase.willIterate
      (if s.nextWorker ≤ w then ({} : GoalWorker) else s.worker w).extendRequested = true
    rw [if_neg (Nat.not_le.mpr hold)]
    exact howed

/-! ## Claims, iterations and acknowledgements -/

/-- The points at which an execution has begun an iteration. -/
def Phase.iterated : Phase → Bool
  | .run | .runComplete _ | .immediate _ | .returned _ | .completing | .terminal => true
  | _ => false

/-- The activation a poll has coalesced and is about to acknowledge. -/
def Poll.coalesced : Poll → Option Activation
  | .coalescing a _ => some a
  | _ => Option.none

theorem PhaseMove.iterated {p p' : Phase} (h : PhaseMove p p') (hp : p'.iterated = true) :
    p.iterated = true := by
  cases h with
  | same => exact hp
  | completing => rfl
  | completed => rfl
  | _ => cases hp

theorem Poll.dispatch_of_coalesced {p : Poll} {a : Activation} (h : p.coalesced = some a) :
    p.dispatch = some a := by
  cases p with
  | coalescing => exact h
  | _ => cases h

theorem PollMove.coalesced {p p' : Poll} (h : PollMove p p') : p'.coalesced = none := by
  cases h <;> rfl

theorem ClaimsNext.coalesced {m : Moment} {rest : List WorkerId} {events : List Event} {p : Poll}
    (h : ClaimsNext m rest events p) : p.coalesced = none := by
  cases h <;> rfl

theorem settled_dispatch {p : Poll} {rest : List WorkerId} (h : p = .none ∨ p = .settling rest) :
    p.dispatch = none ∧ p.coalesced = none := by
  rcases h with rfl | rfl
  · exact ⟨rfl, rfl⟩
  · exact ⟨rfl, rfl⟩

/-- **What is acknowledged**: an activation of a stopped goal, a coalesced one, or the
one an execution has completed. -/
theorem Move.acks {cfg : Config} {m : Moment} {s : Supervisor} {action : Action} {events : List Event}
    {k : Core} (hmove : Move cfg m s action events k) {event : Event} (hmem : event ∈ events)
    {token : String} (hacks : event.Acks token) :
    ∃ a : Activation, a.token = token ∧
      (s.core.poll.dispatch = some a ∧ a.goalId ∈ s.stoppedGoals ∨
        s.core.poll.coalesced = some a ∨
        ∃ w e, s.core.executions w = some e ∧ e.phase = .terminal ∧ e.activation = a) := by
  have hquiet : Quiet events → False := fun hquiet => (hquiet event hmem).acks token hacks
  -- the token of the event is the one of the call
  have hcall : ∀ {a}, AckCall a events → a.token = token := by
    rintro a (rfl | ⟨clock, outcome, rfl⟩)
    · cases hmem
    · obtain rfl := List.mem_singleton.mp hmem
      obtain ⟨call, outcome', heq, hop, -⟩ := hacks
      cases heq
      cases hop
      rfl
  have hnext : ∀ {rest p}, ClaimsNext m rest events p → False := by
    intro rest p hnext
    cases hnext with
    | ended hq => exact hquiet hq
    | claimed hrest hclaim _ =>
      obtain rfl := List.mem_singleton.mp hmem
      obtain ⟨call, outcome', heq, -, hout⟩ := hacks
      cases heq
      cases hout
  cases hmove with
  | quiet hq => exact (hquiet hq).elim
  | poll hq _ => exact (hquiet hq).elim
  | next _ h => exact (hnext h).elim
  | @ackStopped _ w a rest p hpoll hstopped hack _ =>
    exact ⟨a, hcall hack, .inl ⟨by rw [show s.core.poll = _ from hpoll]; rfl, hstopped⟩⟩
  | @ackCoalesced _ a rest p hpoll hack _ =>
    exact ⟨a, hcall hack, .inr (.inl (by rw [show s.core.poll = _ from hpoll]; rfl))⟩
  | assign _ _ h => exact (hnext h).elim
  | phase _ _ _ hq => exact (hquiet hq).elim
  | @iterate w e _ _ _ =>
    obtain rfl := List.mem_singleton.mp hmem
    obtain ⟨_, _, heq, -⟩ := hacks
    cases heq
  | @ackCompleted _ w e p hexec hphase hack _ =>
    exact ⟨e.activation, hcall hack, .inr (.inr ⟨w, e, hexec, hphase, rfl⟩)⟩
  | relinquish _ _ hq => exact (hquiet hq).elim
  | _ => cases hmem

section

variable {ι : Type} [DecidableEq ι] {i : ι} {history : List (Label ι)} {l : Label ι}
  {a : Activation}

/-- The message of the activation has been accepted, and claimed by supervisor `i`. -/
structure ClaimedIn (i : ι) (history : List (Label ι)) (a : Activation) : Prop where
  dispatch : dispatchOf a.claim = some a
  claimed : ∃ l ∈ history, ∃ event ∈ eventsOf i l, event.Claims a.claim
  accepted : AcceptedIn history a.claim.envelope

/-- After the message of the activation was accepted, supervisor `i` began an
iteration for its goal. -/
def Iterated (i : ι) (history : List (Label ι)) (a : Activation) : Prop :=
  ∃ before after, history = before ++ after ∧ AcceptedIn before a.claim.envelope ∧
    ∃ l ∈ after, Event.iteration a.goalId ∈ eventsOf i l

theorem ClaimedIn.append (h : ClaimedIn i history a) (after : List (Label ι)) :
    ClaimedIn i (history ++ after) a := by
  obtain ⟨l', hl', hclaims⟩ := h.claimed
  exact ⟨h.dispatch, ⟨l', List.mem_append_left _ hl', hclaims⟩, h.accepted.append after⟩

theorem Iterated.append (h : Iterated i history a) (after : List (Label ι)) :
    Iterated i (history ++ after) a := by
  obtain ⟨before, rest, rfl, haccepted, l', hl', hiter⟩ := h
  exact ⟨before, rest ++ after, by simp, haccepted, l', List.mem_append_left _ hl', hiter⟩

theorem ClaimedIn.iterated (h : ClaimedIn i history a)
    (hiter : Event.iteration a.goalId ∈ eventsOf i l) : Iterated i (history ++ [l]) a :=
  ⟨history, [l], rfl, h.accepted, l, by simp, hiter⟩

/-- What a supervisor deals with was claimed, and an acknowledgement it is about to
make is followed by an iteration or owed one. -/
structure Followed (i : ι) (history : List (Label ι)) (k : Core) : Prop where
  poll : ∀ a, k.poll.dispatch = some a → ClaimedIn i history a
  coalesced : ∀ a, k.poll.coalesced = some a → Iterated i history a ∨ Owed k a.goalId
  executions : ∀ w e, k.executions w = some e → ClaimedIn i history e.activation ∧
    (e.phase.iterated = true → Iterated i history e.activation)

/-- Where an execution after a step that makes `events` comes from: an execution
before, or the activation the poll has been granted. -/
def Comes (s : Core) (events : List Event) (w : WorkerId) (e' : Execution) : Prop :=
  (∃ e, s.executions w = some e ∧ e'.activation = e.activation ∧
    (e'.phase.iterated = true → e.phase.iterated = true ∨
      Event.iteration e.activation.goalId ∈ events)) ∨
  s.poll.dispatch = some e'.activation ∧ e'.phase.iterated = false

/-- One execution changes, the others stay. -/
theorem Comes.update {s : Core} {events : List Event} {w w' : WorkerId} {e e' e'' : Execution}
    (hexec : s.executions w = some e) (hact : e'.activation = e.activation)
    (hiter : e'.phase.iterated = true → e.phase.iterated = true ∨
      Event.iteration e.activation.goalId ∈ events)
    (h : Function.update s.executions w (some e') w' = some e'') : Comes s events w' e'' := by
  by_cases hww : w' = w
  · subst hww
    rw [Function.update_self] at h
    cases h
    exact .inl ⟨e, hexec, hact, hiter⟩
  · rw [Function.update_of_ne hww] at h
    exact .inl ⟨e'', h, rfl, .inl⟩

/-- How a step keeps `Followed`: where each poll and each execution comes from. -/
theorem Followed.advance {s k : Core} {events : List Event} (h : Followed i history s)
    (hevents : eventsOf i l = events)
    (haccepted : ∀ event ∈ events, ∀ c, event.Claims c → AcceptedIn (history ++ [l]) c.envelope)
    (howed : ∀ g, Owed s g → Owed k g ∨ Event.iteration g ∈ events)
    (hpoll : ∀ a, k.poll.dispatch = some a → s.poll.dispatch = some a ∨
      dispatchOf a.claim = some a ∧ ∃ event ∈ events, event.Claims a.claim)
    (hcoalesced : ∀ a, k.poll.coalesced = some a →
      s.poll.coalesced = some a ∨ Owed k a.goalId)
    (hexec : ∀ w e', k.executions w = some e' → Comes s events w e') :
    Followed i (history ++ [l]) k := by
  subst hevents
  refine ⟨fun a ha => ?_, fun a ha => ?_, fun w e' he' => ?_⟩
  · rcases hpoll a ha with hold | ⟨hgoal, hclaims⟩
    · exact (h.poll a hold).append [l]
    · obtain ⟨event, hmem, hc⟩ := hclaims
      exact ⟨hgoal, ⟨l, by simp, event, hmem, hc⟩, haccepted event hmem _ hc⟩
  · rcases hcoalesced a ha with hold | hnew
    · rcases h.coalesced a hold with hiter | hpromise
      · exact .inl (hiter.append [l])
      · rcases howed _ hpromise with hkept | hiter
        · exact .inr hkept
        · exact .inl ((h.poll a (Poll.dispatch_of_coalesced hold)).iterated hiter)
    · exact .inr hnew
  · rcases hexec w e' he' with ⟨e, he, hact, hiterated⟩ | ⟨hdispatch, hnot⟩
    · obtain ⟨hclaimed, hiter⟩ := h.executions w e he
      rw [hact]
      refine ⟨hclaimed.append [l], fun hphase => ?_⟩
      rcases hiterated hphase with hold | hnew
      · exact (hiter hold).append [l]
      · exact hclaimed.iterated hnew
    · refine ⟨(h.poll _ hdispatch).append [l], fun hphase => ?_⟩
      rw [hnot] at hphase
      cases hphase

/-- **Every segment keeps what it will acknowledge followed.** -/
theorem Move.followed {cfg : Config} {m : Moment} {s : Supervisor} {action : Action}
    {events : List Event} {k : Core} (hmove : Move cfg m s action events k) (hevents : eventsOf i l = events)
    (haccepted : ∀ event ∈ events, ∀ c, event.Claims c → AcceptedIn (history ++ [l]) c.envelope)
    (hkeeps : KeepsActivation s action) (hwired : Wired s.core)
    (h : Followed i history s.core) : Followed i (history ++ [l]) k := by
  have howed := fun g => hmove.owed hkeeps hwired (g := g)
  -- an execution, a poll that stay as they are
  have hsame : ∀ w e', s.core.executions w = some e' → Comes s.core events w e' :=
    fun w e' he' => .inl ⟨e', he', rfl, .inl⟩
  have hpoll : ∀ a, s.core.poll.dispatch = some a → s.core.poll.dispatch = some a ∨
      dispatchOf a.claim = some a ∧ ∃ event ∈ events, event.Claims a.claim :=
    fun _ => .inl
  have hold : ∀ {k : Core} (a : Activation), s.core.poll.coalesced = some a →
      s.core.poll.coalesced = some a ∨ Owed k a.goalId := fun _ => .inl
  -- a poll that has nothing to acknowledge
  have hidle : ∀ {k : Core} {p : Poll}, p.coalesced = none → ∀ a, p.coalesced = some a →
      s.core.poll.coalesced = some a ∨ Owed k a.goalId := by
    intro k p hp a ha
    rw [hp] at ha
    cases ha
  have hsettled : ∀ {p rest}, p = .none ∨ p = .settling rest → ∀ a, Poll.dispatch p = some a →
      s.core.poll.dispatch = some a ∨
        dispatchOf a.claim = some a ∧ ∃ event ∈ events, event.Claims a.claim := by
    intro p rest hp a ha
    rw [(settled_dispatch hp).1] at ha
    cases ha
  cases hmove with
  | quiet => exact h.advance hevents haccepted howed hpoll hold hsame
  | poll _ hp =>
    exact h.advance hevents haccepted howed (fun a ha => .inl (hp.dispatch ha)) (hidle hp.coalesced) hsame
  | acquire hget =>
    refine h.advance hevents haccepted howed (fun b hb => .inl ?_) (hidle rfl) hsame
    rw [show s.core.poll = _ from hget]
    exact hb
  | next _ hnext =>
    exact h.advance hevents haccepted howed (fun a ha => .inr (hnext.dispatch ha))
      (hidle hnext.coalesced) hsame
  | ackStopped _ _ _ hp =>
    exact h.advance hevents haccepted howed (hsettled hp) (hidle (settled_dispatch hp).2) hsame
  | @coalesce w active a rest haction hget hactive =>
    refine h.advance hevents haccepted howed (fun b hb => .inl ?_) (fun b hb => .inr ?_) hsame
    · rw [show s.core.poll = _ from hget]
      exact hb
    · -- the worker still listens, so the flag is a promise
      cases hb
      obtain ⟨e, hexec, hgoal⟩ := hwired.owned _ _ hactive
      have hlistens : s.listens active = true := by
        rw [haction] at hkeeps
        unfold KeepsActivation at hkeeps
        simp only [hget] at hkeeps
        exact hkeeps active hactive
      unfold Supervisor.listens at hlistens
      rw [show s.executions active = some e from hexec] at hlistens
      refine ⟨active, e, hexec, hgoal, ?_⟩
      show e.phase.willIterate (Function.update s.worker active
        (s.worker active).requestExtend active).extendRequested = true
      rw [Function.update_self]
      exact Phase.willIterate_requested hlistens
  | ackCoalesced _ _ hp =>
    exact h.advance hevents haccepted howed (hsettled hp) (hidle (settled_dispatch hp).2) hsame
  | @assign _ w a rest p hget _ hnext =>
    refine h.advance hevents haccepted howed (fun b hb => .inr (hnext.dispatch hb))
      (hidle hnext.coalesced) (fun w' e' he' => ?_)
    have he' : Function.update s.executions w (some { activation := a }) w' = some e' := he'
    by_cases hww : w' = w
    · subst hww
      rw [Function.update_self] at he'
      cases he'
      exact .inr ⟨by rw [show s.core.poll = _ from hget]; rfl, rfl⟩
    · rw [Function.update_of_ne hww] at he'
      exact hsame w' e' he'
  | phase hexec hact hphase _ =>
    exact h.advance hevents haccepted howed hpoll hold fun w' e'' he'' =>
      Comes.update hexec hact (fun hp => .inl (hphase.iterated hp)) he''
  | reject _ _ hexec _ =>
    exact h.advance hevents haccepted howed hpoll hold fun w' e'' he'' =>
      Comes.update hexec (Execution.moveTo_activation ..) (fun hp => (by cases hp)) he''
  | execute hexec _ =>
    exact h.advance hevents haccepted howed hpoll hold fun w' e'' he'' =>
      Comes.update hexec (Execution.moveTo_activation ..) (fun hp => (by cases hp)) he''
  | iterate hexec _ _ =>
    exact h.advance hevents haccepted howed hpoll hold fun w' e'' he'' =>
      Comes.update hexec (Execution.moveTo_activation ..) (fun _ => .inr (List.mem_singleton_self _)) he''
  | record _ hexec hphase =>
    exact h.advance hevents haccepted howed hpoll hold fun w' e'' he'' =>
      Comes.update hexec (Execution.moveTo_activation ..) (fun _ => .inl (by rw [hphase]; rfl)) he''
  | pause hexec hphase _ =>
    exact h.advance hevents haccepted howed hpoll hold fun w' e'' he'' =>
      Comes.update hexec (Execution.moveTo_activation ..) (fun _ => .inl (by rw [hphase]; rfl)) he''
  | fail _ _ hexec hphase =>
    exact h.advance hevents haccepted howed hpoll hold fun w' e'' he'' =>
      Comes.update hexec (Execution.moveTo_activation ..) (fun _ => .inl (by rw [hphase]; rfl)) he''
  | finish hexec hphase _ =>
    exact h.advance hevents haccepted howed hpoll hold fun w' e'' he'' =>
      Comes.update hexec (Execution.moveTo_activation ..) (fun _ => .inl (by rw [hphase]; rfl)) he''
  | ackCompleted hexec hphase _ _ =>
    exact h.advance hevents haccepted howed hpoll hold fun w' e'' he'' =>
      Comes.update hexec (Execution.moveTo_activation ..) (fun _ => .inl (by rw [hphase]; rfl)) he''
  | @done w e hexec _ =>
    refine h.advance hevents haccepted howed hpoll hold fun w' e' he' => ?_
    have he' : Function.update s.executions w none w' = some e' := he'
    by_cases hww : w' = w
    · subst hww
      rw [Function.update_self] at he'
      cases he'
    · rw [Function.update_of_ne hww] at he'
      exact hsame w' e' he'
  | _ => exact h.advance hevents haccepted howed hpoll hold hsame

/-! ## Over a run -/

/-- The condition `KeepsActivation` on the steps of supervisor `i`. -/
def ActivationsKept (i : ι) (world : World ι) (l : Label ι) : Prop :=
  match l.1.party with
  | .supervisor j action => j = i → KeepsActivation (world.sups i) action
  | _ => True

instance (i : ι) (world : World ι) (l : Label ι) : Decidable (ActivationsKept i world l) := by
  rcases l with ⟨⟨j, action⟩ | _ | _, _⟩
  · show Decidable (j = i → KeepsActivation (world.sups i) action)
    infer_instance
  · exact instDecidableTrue
  · exact instDecidableTrue

variable {cfg : SystemConfig ι} {now : Millis} {crashCounts : ι → ObjectMap String Nat}
  {world : World ι}

/-- The acknowledged activations of the history, and what follows them. -/
def AcksFollowed (cfg : SystemConfig ι) (i : ι) (now : Millis)
    (crashCounts : ι → ObjectMap String Nat) (history : List (Label ι)) (k : Core) : Prop :=
  ∀ before l after acked token, history = before ++ l :: after →
    SystemRun cfg now crashCounts before acked → (∃ event ∈ eventsOf i l, event.Acks token) →
    ∃ a : Activation, a.token = token ∧ ClaimedIn i before a ∧
      (a.goalId ∉ (acked.sups i).stoppedGoals → Iterated i history a ∨ Owed k a.goalId)

/-- A step keeps what follows the acknowledgements so far, and the invariant says what
follows those it makes. -/
theorem acksFollowed_step {a b : World ι} (hrun : SystemRun cfg now crashCounts history a)
    (hstep : (systemLTS cfg).step a l b) (hfollowed : Followed i history (a.sups i).core)
    (howed : ∀ g, Owed (a.sups i).core g →
      Owed (b.sups i).core g ∨ Event.iteration g ∈ eventsOf i l)
    (h : AcksFollowed cfg i now crashCounts history (a.sups i).core) :
    AcksFollowed cfg i now crashCounts (history ++ [l]) (b.sups i).core := by
  have hkept : ∀ {a' : Activation}, ClaimedIn i history a' →
      Iterated i history a' ∨ Owed (a.sups i).core a'.goalId →
      Iterated i (history ++ [l]) a' ∨ Owed (b.sups i).core a'.goalId := by
    rintro a' hclaimed (hiter | hpromise)
    · exact .inl (hiter.append [l])
    · rcases howed _ hpromise with hstill | hiter
      · exact .inr hstill
      · exact .inl (hclaimed.iterated hiter)
  intro before l' after acked token hsplit hbefore hacks
  rcases List.eq_nil_or_concat after with rfl | ⟨rest, l'', rfl⟩
  · -- the step itself acknowledges
    obtain ⟨rfl, hl⟩ := List.append_inj' hsplit rfl
    cases hl
    obtain rfl := LTS.Run.unique hrun hbefore
    obtain ⟨event, hmem, hacks⟩ := hacks
    rcases step_sup hstep i with ⟨-, hnone⟩ | ⟨action, -, hmove⟩
    · rw [hnone] at hmem
      cases hmem
    · obtain ⟨a', rfl, hcase⟩ := hmove.acks hmem hacks
      refine ⟨a', rfl, ?_⟩
      rcases hcase with ⟨hdispatch, hstopped⟩ | hcoalesced | ⟨w, e, hexec, hphase, rfl⟩
      · exact ⟨hfollowed.poll _ hdispatch, fun hnot => absurd hstopped hnot⟩
      · have hclaimed := hfollowed.poll _ (Poll.dispatch_of_coalesced hcoalesced)
        exact ⟨hclaimed, fun _ => hkept hclaimed (hfollowed.coalesced _ hcoalesced)⟩
      · obtain ⟨hclaimed, hiter⟩ := hfollowed.executions w e hexec
        exact ⟨hclaimed, fun _ => hkept hclaimed (.inl (hiter (by rw [hphase]; rfl)))⟩
  · rw [List.concat_eq_append, ← List.cons_append, ← List.append_assoc] at hsplit
    obtain ⟨hhistory, -⟩ := List.append_inj' hsplit rfl
    obtain ⟨a', htoken, hclaimed, himp⟩ := h before l' rest acked token hhistory hbefore hacks
    refine ⟨a', htoken, hclaimed, fun hnot => hkept ?_ (himp hnot)⟩
    rw [hhistory]
    exact hclaimed.append _

theorem SystemRun.acksFollowed (h : SystemRun cfg now crashCounts history world)
    (hkept : (systemLTS cfg).Always (World.start cfg now crashCounts) history
      (ActivationsKept i)) :
    AcksFollowed cfg i now crashCounts history (world.sups i).core := by
  suffices key : Followed i history (world.sups i).core ∧
      AcksFollowed cfg i now crashCounts history (world.sups i).core from key.2
  revert hkept
  refine LTS.Run.history (P := fun history world => (systemLTS cfg).Always
    (World.start cfg now crashCounts) history (ActivationsKept i) →
    Followed i history (world.sups i).core ∧
      AcksFollowed cfg i now crashCounts history (world.sups i).core) h ?_ ?_
  · intro _
    refine ⟨⟨fun a ha => (by cases ha), fun a ha => (by cases ha), fun w e he => (by cases he)⟩, ?_⟩
    intro before l after acked token hsplit
    simp at hsplit
  · intro hist a l b hrun hstep ih hkept
    obtain ⟨hfollowed, hacks⟩ := ih hkept.init
    have hwired := SystemRun.wired hrun i
    have haccepted : ∀ event ∈ eventsOf i l, ∀ c, event.Claims c →
        AcceptedIn (hist ++ [l]) c.envelope := fun event hmem c hclaims =>
      SystemRun.claims_accepted (hrun.snoc hstep) (mem_of_mem_eventsOf hmem) hclaims
    rcases step_sup hstep i with ⟨hsame, hnone⟩ | ⟨action, hparty, hmove⟩
    · have hmove : Move (cfg.config i) l.1.moment (a.sups i) .shutdown (eventsOf i l) (b.sups i).core := by
        rw [hsame, hnone]
        exact .quiet quiet_nil
      exact ⟨hmove.followed rfl haccepted trivial hwired hfollowed,
        acksFollowed_step hrun hstep hfollowed (fun g => hmove.owed trivial hwired) hacks⟩
    · have hkeeps := hkept.last hrun
      unfold ActivationsKept at hkeeps
      rw [hparty] at hkeeps
      exact ⟨hmove.followed rfl haccepted (hkeeps rfl) hwired hfollowed,
        acksFollowed_step hrun hstep hfollowed (fun g => hmove.owed (hkeeps rfl) hwired) hacks⟩

end

/-! ## An owed iteration begins -/

/-- How many segments of an execution that owes an iteration bring it about. -/
def Phase.segmentsLeft : Phase → Nat
  | .admission => 3
  | .markStarted | .run => 2
  | _ => 1

theorem Phase.segmentsLeft_bounds (p : Phase) : 0 < p.segmentsLeft ∧ p.segmentsLeft ≤ 3 := by
  unfold Phase.segmentsLeft
  split <;> omega

/-- An execution that owes an iteration begins it with its next segment, or comes closer. -/
theorem act_owed (cfg : Config) (m : Moment) (t : Turn) {w : WorkerId} {e : Execution}
    (hexec : t.sup.executions w = some e)
    (howed : e.phase.willIterate (t.sup.worker w).extendRequested = true) :
    ∃ reply t', act cfg m (.execution w reply) t = some t' ∧
      (Event.iteration e.activation.goalId ∈ t'.events ∨
        ∃ e', t'.sup.executions w = some e' ∧ e'.activation = e.activation ∧
          e'.phase.willIterate (t'.sup.worker w).extendRequested = true ∧
          e'.phase.segmentsLeft + 1 = e.phase.segmentsLeft) := by
  have hact : ∀ reply, act cfg m (.execution w reply) t = executeWorker cfg m w e reply t := by
    intro reply
    show (t.sup.executions w).bind _ = _
    rw [hexec]
    rfl
  have hiterate : Event.iteration e.activation.goalId ∈ (iterate w e t).events :=
    List.mem_append_right _ (List.mem_singleton_self _)
  cases hphase : e.phase with
  | admission =>
    rw [hphase] at howed
    refine ⟨.resolved, t.update (enter w e .markStarted), ?_, .inr ⟨e.moveTo .markStarted,
      Function.update_self .., rfl, howed, rfl⟩⟩
    rw [hact]
    unfold executeWorker
    simp only [hphase]
  | markStarted =>
    refine ⟨.resolved, t.update fun s => enter w e .runStart
      (s.setWorker w (.execute e.activation.goalId)), ?_, .inr ⟨e.moveTo .runStart,
      Function.update_self .., rfl, rfl, rfl⟩⟩
    rw [hact]
    unfold executeWorker
    simp only [hphase]
  | runStart =>
    refine ⟨.resolved, iterate w e t, ?_, .inl hiterate⟩
    rw [hact]
    unfold executeWorker
    simp only [hphase]
  | run =>
    rw [hphase] at howed
    refine ⟨.loopResult ⟨.completed, 0, none⟩, t.update fun s => enter w e
      (.runComplete ⟨.completed, 0, none⟩)
      (s.setWorker w ((t.sup.worker w).record ⟨.completed, 0, none⟩)), ?_,
      .inr ⟨e.moveTo (.runComplete ⟨.completed, 0, none⟩), Function.update_self .., rfl, ?_, rfl⟩⟩
    · rw [hact]
      unfold executeWorker
      simp only [hphase]
    · show (Function.update t.sup.worker w ((t.sup.worker w).record _) w).extendRequested = true
      rw [Function.update_self]
      exact howed
  | runComplete last =>
    rw [hphase] at howed
    refine ⟨.resolved, iterate w e t, ?_, .inl hiterate⟩
    rw [hact]
    unfold executeWorker
    simp only [hphase]
    exact if_pos howed
  | immediate last =>
    rw [hphase] at howed
    refine ⟨.resolved, iterate w e t, ?_, .inl hiterate⟩
    rw [hact]
    unfold executeWorker
    simp only [hphase]
    exact if_pos howed
  | _ =>
    rw [hphase] at howed
    cases howed

section

variable {ι : Type} [DecidableEq ι] {cfg : SystemConfig ι} {i : ι} {g : String}

/-- **An owed iteration begins**, with the next segments of its execution. -/
theorem owed_iterates (ms : List Moment) {world : World ι} {w : WorkerId} {e : Execution}
    (hexec : (world.sups i).executions w = some e) (hgoal : e.activation.goalId = g)
    (howed : e.phase.willIterate ((world.sups i).worker w).extendRequested = true)
    (hleft : e.phase.segmentsLeft ≤ ms.length) (hadmits : Admits world.now world.issued ms) :
    ∃ after world', (systemLTS cfg).Run world after world' ∧ after.length ≤ ms.length ∧
      ∃ l ∈ after, Event.iteration g ∈ eventsOf i l := by
  induction ms generalizing world e with
  | nil =>
    have hpos := e.phase.segmentsLeft_bounds.1
    simp only [List.length_nil] at hleft
    omega
  | cons m ms ih =>
    obtain ⟨hnow, hfresh, hrest⟩ := hadmits
    obtain ⟨reply, t, hact, hcase⟩ := act_owed (cfg.config i) m
      ⟨world.table, world.leases, world.sups i, []⟩ hexec howed
    have hstep := step_of_act hnow hfresh hact
    have hself : (world.withTurn i m t).sups i = t.sup := World.withTurn_self ..
    have hevents : eventsOf i ((⟨.supervisor i (.execution w reply), m⟩, t.events) : Label ι) =
        t.events := if_pos rfl
    rcases hcase with hiter | ⟨e', hexec', hact', howed', hleft'⟩
    · refine ⟨_, _, .single hstep, by simp, _, List.mem_singleton_self _, ?_⟩
      rw [hevents, ← hgoal]
      exact hiter
    · have hexec' : ((world.withTurn i m t).sups i).executions w = some e' := hself ▸ hexec'
      obtain ⟨after, world', hrun, hlength, hiter⟩ := ih hexec'
        (hact' ▸ hgoal) (hself ▸ howed')
        (by simp only [List.length_cons] at hleft; omega) hrest
      obtain ⟨l, hl, hiter⟩ := hiter
      exact ⟨_, world', .cons hstep hrun, by simp only [List.length_cons]; omega, l,
        List.mem_cons_of_mem _ hl, hiter⟩

/-- **No lost activation.** In a run in which no activation is coalesced into a worker
that has left its loop, and no exception of an admission or a loop discards a requested
extension: an activation that the supervisor acknowledges was accepted and claimed
before, and, if its goal is not stopped, an iteration for the goal has begun since it
was accepted, or an execution of the goal owes one, which its next three segments at
most begin. -/
theorem activation_not_lost (cfg : SystemConfig ι) (i : ι) {now : Millis}
    {crashCounts : ι → ObjectMap String Nat} {history : List (Label ι)} {world : World ι}
    (h : SystemRun cfg now crashCounts history world)
    (hkept : (systemLTS cfg).Always (World.start cfg now crashCounts) history
      (ActivationsKept i))
    {before after : List (Label ι)} {l : Label ι} {acked : World ι} {token : String}
    (hsplit : history = before ++ l :: after) (hbefore : SystemRun cfg now crashCounts before acked)
    (hacks : ∃ event ∈ eventsOf i l, event.Acks token) :
    ∃ a : Activation, a.token = token ∧ ClaimedIn i before a ∧
      (a.goalId ∉ (acked.sups i).stoppedGoals →
        Iterated i history a ∨
        Owed (world.sups i).core a.goalId ∧
          ∀ m₁ m₂ m₃, Admits world.now world.issued [m₁, m₂, m₃] →
            ∃ next world', (systemLTS cfg).Run world next world' ∧ next.length ≤ 3 ∧
              Iterated i (history ++ next) a) := by
  obtain ⟨a, htoken, hclaimed, himp⟩ :=
    h.acksFollowed hkept before l after acked token hsplit hbefore hacks
  refine ⟨a, htoken, hclaimed, fun hnot => (himp hnot).imp_right fun howed => ⟨howed, ?_⟩⟩
  intro m₁ m₂ m₃ hadmits
  obtain ⟨w, e, hexec, hgoal, hyes⟩ := howed
  have hleft := e.phase.segmentsLeft_bounds.2
  obtain ⟨next, world', hrun, hlength, hiter⟩ :=
    owed_iterates [m₁, m₂, m₃] hexec hgoal hyes hleft hadmits
  refine ⟨next, world', hrun, hlength, history, next, rfl, ?_, hiter⟩
  rw [hsplit]
  exact (hclaimed.append _).accepted

end

/-! ## Sample runs -/

/-- The token an event acknowledges. -/
def Event.ackedToken : Event → Option String
  | .queue ⟨.ack token, _⟩ (.acked true) => some token
  | _ => none

theorem Event.ackedToken_eq {event : Event} {token : String} :
    event.ackedToken = some token ↔ event.Acks token := by
  constructor
  · intro h
    unfold Event.ackedToken at h
    split at h
    · cases h
      exact ⟨_, _, rfl, rfl, rfl⟩
    · cases h
  · rintro ⟨⟨op, clock⟩, outcome, rfl, hop, hout⟩
    cases hop
    cases hout
    rfl

instance (event : Event) (token : String) : Decidable (event.Acks token) :=
  decidable_of_iff _ Event.ackedToken_eq

/-- Two workers. -/
def twoWorkers : SystemConfig Unit where
  supervisor := fun _ => { concurrency := 2 }

/-- A goal runs on worker 0 of two, and the poll has found nothing for worker 1. -/
def runGoalFirst : List Action :=
  [.activateGoal "g" {}, .schedulePoll, .poll, .poll, .poll, .poll, .execution 0 .resolved,
    .execution 0 .resolved, .execution 0 .resolved]

/-- A second activation of the goal, claimed for worker 1 and coalesced. -/
def activateAgain : List Action :=
  [.activateGoal "g" { backgroundRun := some ("run", none) }, .schedulePoll, .poll]

/-- An activation that is coalesced while the loop runs, and acknowledged. -/
def extendedRun : List (Request Unit) :=
  segments () (runGoalFirst ++ activateAgain ++ [.poll, .execution 0 (.loopResult ⟨.completed, 1, none⟩),
    .execution 0 .resolved])

/-- It is acknowledged, and the loop goes round again. -/
theorem activation_not_lost_extended :
    ∃ a : Activation, a.token = "u10" ∧
      ClaimedIn () (runRequests twoWorkers (extendedRun.take 12)).1 a ∧
      (Iterated () (runRequests twoWorkers extendedRun).1 a ∨
        Owed ((runRequests twoWorkers extendedRun).2.sups ()).core a.goalId) := by
  obtain ⟨after, hsplit⟩ :=
    runRequests_split twoWorkers (show 12 < extendedRun.length by decide)
  obtain ⟨a, htoken, hclaimed, himp⟩ := activation_not_lost twoWorkers ()
    (runRequests_run twoWorkers extendedRun) (LTS.ExecAlways.always (by decide +kernel)) hsplit
    (runRequests_run twoWorkers _)
    (show ∃ event ∈ eventsOf () _, event.Acks "u10" by decide +kernel)
  have hstopped : ((runRequests twoWorkers (extendedRun.take 12)).2.sups ()).stoppedGoals = ∅ := by
    decide +kernel
  refine ⟨a, htoken, hclaimed, ?_⟩
  exact (himp (by rw [hstopped]; exact Finset.notMem_empty _)).imp_right And.left

/-- What the events of a history say, by `f`. -/
def reports {ι : Type} (f : Event → Option String) (history : List (Label ι)) : List String :=
  history.flatMap fun l => l.2.filterMap f

theorem mem_reports {ι : Type} {f : Event → Option String} {history : List (Label ι)}
    {l : Label ι} {event : Event} {x : String} (hl : l ∈ history) (hmem : event ∈ l.2)
    (hf : f event = some x) : x ∈ reports f history :=
  List.mem_flatMap.mpr ⟨l, hl, List.mem_filterMap.mpr ⟨event, hmem, hf⟩⟩

/-- The id of the message an event accepts. -/
def Event.acceptedId : Event → Option String
  | .queue ⟨.accept envelope, _⟩ (.accepted result) =>
    if result.accepted then some envelope.id else none
  | _ => none

/-- The id of the message an event claims under the token. -/
def Event.claimedId (token : String) : Event → Option String
  | .queue _ (.claimed (some c)) => if c.claimToken = token then some c.envelope.id else none
  | _ => none

/-- The goal for which an event begins an iteration. -/
def Event.begun : Event → Option String
  | .iteration goalId => some goalId
  | _ => none

theorem Iterated.reported {ι : Type} [DecidableEq ι] {i : ι} {history : List (Label ι)}
    {a : Activation} (h : Iterated i history a) :
    ∃ k ≤ history.length, a.claim.envelope.id ∈ reports Event.acceptedId (history.take k) ∧
      a.goalId ∈ reports Event.begun (history.drop k) := by
  obtain ⟨before, after, rfl, ⟨l, hl, ⟨op, clock⟩, outcome, hmem, hop, result, hout, hyes⟩, l', hl',
    hiter⟩ := h
  refine ⟨before.length, by simp, ?_, ?_⟩
  · rw [List.take_left]
    refine mem_reports hl hmem ?_
    cases hop
    cases hout
    exact if_pos hyes
  · rw [List.drop_left]
    exact mem_reports hl' (mem_of_mem_eventsOf hiter) rfl

theorem ClaimedIn.reported {ι : Type} [DecidableEq ι] {i : ι} {history : List (Label ι)}
    {a : Activation} (h : ClaimedIn i history a) :
    a.claim.envelope.id ∈ reports (Event.claimedId a.token) history := by
  obtain ⟨l, hl, event, hmem, call, outcome, rfl, hclaims⟩ := h.claimed
  refine mem_reports hl (mem_of_mem_eventsOf hmem) ?_
  cases hclaims
  exact if_pos rfl

/-- The worker has left its loop, and the execution still waits for the callbacks that
follow, when a second activation of the goal is coalesced. -/
def swallowedRun : List (Request Unit) :=
  segments () (runGoalFirst ++ [.execution 0 (.loopResult ⟨.completed, 1, none⟩),
    .execution 0 .resolved, .execution 0 .resolved] ++ activateAgain ++ [.poll, .poll,
    .execution 0 .resolved, .execution 0 .resolved, .execution 0 .resolved,
    .execution 0 .resolved, .execution 0 .resolved, .execution 0 .resolved])

/-- It is acknowledged, no iteration follows its acceptance, and nothing is left that
would begin one. -/
theorem activation_lost :
    ∃ (history before after : List (Label Unit)) (l : Label Unit) (acked world : World Unit)
      (token : String),
      SystemRun twoWorkers 0 (fun _ => ObjectMap.empty) history world ∧
      history = before ++ l :: after ∧
      SystemRun twoWorkers 0 (fun _ => ObjectMap.empty) before acked ∧
      (∃ event ∈ eventsOf () l, event.Acks token) ∧
      (acked.sups ()).stoppedGoals = ∅ ∧ (acked.sups ()).suspendedGoals = ∅ ∧
      (world.sups ()).suspendedGoals = ∅ ∧
      (∀ g, ¬ Owed (world.sups ()).core g) ∧
      ∀ a : Activation, a.token = token → ClaimedIn () history a → ¬ Iterated () history a := by
  obtain ⟨after, hsplit⟩ :=
    runRequests_split twoWorkers (show 15 < swallowedRun.length by decide)
  have hrun := runRequests_run twoWorkers swallowedRun
  refine ⟨_, _, after, _, _, _, "u13", hrun, hsplit, runRequests_run twoWorkers _,
    by decide +kernel, by decide +kernel, by decide +kernel, by decide +kernel,
    (hrun.wired ()).not_owed (by decide +kernel) (by decide +kernel), ?_⟩
  · intro a htoken hclaimed hiter
    have hid := hclaimed.reported
    rw [htoken, show reports (Event.claimedId "u13") (runRequests twoWorkers swallowedRun).1 =
      ["u12"] by decide +kernel] at hid
    obtain ⟨k, hk, haccepted, hbegun⟩ := hiter.reported
    rw [List.mem_singleton.mp hid] at haccepted
    have hall : ∀ k ≤ (runRequests twoWorkers swallowedRun).1.length,
        "u12" ∈ reports Event.acceptedId ((runRequests twoWorkers swallowedRun).1.take k) →
        reports Event.begun ((runRequests twoWorkers swallowedRun).1.drop k) = [] := by
      decide +kernel
    rw [hall k hk haccepted] at hbegun
    cases hbegun

end PulSeed.Executor
