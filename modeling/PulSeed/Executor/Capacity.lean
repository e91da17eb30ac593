import PulSeed.Executor.Pool

/-!
# Worker capacity

`pollAndAssign` dispatches to workers that are idle and unassigned. A worker whose
`durableLoop.run` throws is left with the status `crashed`, which nothing resets
and which is not idle: it is never dispatched to again (`capacity_lost`). As long as
no run throws before the shutdown aborts it, and the workers are not replaced while
a poll holds a snapshot of them, every worker is free or executes a goal
(`capacity_preserved`).
-/

namespace PulSeed.Executor

open Queue GoalLease

/-! ## The condition -/

/-- No poll is running. -/
def Poll.idle : Poll → Bool
  | .none => true
  | _ => false

/-- An exception of `durableLoop.run` would leave the worker crashed. -/
def Supervisor.crashes (s : Supervisor) (w : WorkerId) : Bool :=
  match s.executions w with
  | some e => decide (e.phase = .run) && !s.aborted
  | none => false

/-- The segment neither crashes a worker nor replaces the workers under a poll. -/
def KeepsWorkers (s : Supervisor) : Action → Prop
  | .execution w .rejected => s.crashes w = false
  | .replaceIdleWorkers => s.poll.idle = true
  | _ => True

instance (s : Supervisor) (action : Action) : Decidable (KeepsWorkers s action) := by
  unfold KeepsWorkers
  cases action with
  | execution w event => cases event <;> infer_instance
  | _ => infer_instance

/-! ## The invariant -/

/-- Every worker is idle or inside `execute`, and those in use are on the staff. -/
structure Staffed (n : Nat) (k : Core) : Prop where
  size : k.workers.length = n
  statuses : ∀ w, (k.worker w).status = .idle ∨
    ∃ e, k.executions w = some e ∧ e.phase.executing = true
  candidates : ∀ w ∈ k.poll.candidates, w ∈ k.workers
  staff : k.running = true → ∀ g w, k.activeGoals.get? g = some w → w ∈ k.workers

theorem staffed_start (cfg : SupervisorConfig) (crashCounts : ObjectMap String Nat) :
    Staffed cfg.concurrency (Supervisor.start cfg crashCounts).core where
  size := List.length_range
  statuses _ := .inl rfl
  candidates _ h := by cases h
  staff _ _ _ h := by cases h

section

variable {n : Nat} {k : Core}

/-- A worker without an execution inside `execute` is idle. -/
theorem Staffed.idle (h : Staffed n k) {w : WorkerId}
    (hexec : ∀ e, k.executions w = some e → e.phase.executing = false) :
    (k.worker w).status = .idle := by
  rcases h.statuses w with hidle | ⟨e, he, hphase⟩
  · exact hidle
  · rw [hexec e he] at hphase
    cases hphase

/-- The status of a worker whose execution stays. -/
theorem Staffed.status_of_ne (h : Staffed n k) {w w' : WorkerId} (hww : w' ≠ w)
    (e? : Option Execution) : (k.worker w').status = .idle ∨
      ∃ e, Function.update k.executions w e? w' = some e ∧ e.phase.executing = true := by
  rw [Function.update_of_ne hww]
  exact h.statuses w'

/-- The poll goes on, and no status changes. -/
theorem Staffed.setPoll (h : Staffed n k) {p : Poll} {worker : WorkerId → GoalWorker}
    (hsub : p.candidates ⊆ k.poll.candidates)
    (hworker : ∀ w, (worker w).status = (k.worker w).status) :
    Staffed n { k with worker := worker, poll := p } where
  size := h.size
  statuses w := by
    rw [show ({ k with worker := worker, poll := p } : Core).worker w = worker w from rfl,
      hworker w]
    exact h.statuses w
  candidates w hw := h.candidates w (hsub hw)
  staff := h.staff

/-- An execution goes on, and leaves its worker idle or inside `execute`. -/
theorem Staffed.setExecution (h : Staffed n k) {w : WorkerId} {e' : Execution}
    {worker : WorkerId → GoalWorker} (hother : ∀ w', w' ≠ w → worker w' = k.worker w')
    (hw : (worker w).status = .idle ∨ e'.phase.executing = true) :
    Staffed n { k with
      worker := worker, executions := Function.update k.executions w (some e') } where
  size := h.size
  statuses w' := by
    by_cases hww : w' = w
    · subst hww
      exact hw.imp id fun hphase => ⟨e', Function.update_self .., hphase⟩
    · show (worker w').status = .idle ∨ _
      rw [hother w' hww]
      exact h.status_of_ne hww _
  candidates := h.candidates
  staff := h.staff

end

theorem PhaseMove.executing {p p' : Phase} (h : PhaseMove p p') : p'.executing = p.executing := by
  cases h <;> rfl

/-- **Every segment that keeps the workers keeps the staffing.** -/
theorem Move.staffed {cfg : Config} {m : Moment} {s : Supervisor} {action : Action}
    {events : List Event} {k : Core} (hmove : Move cfg m s action events k) (hkeeps : KeepsWorkers s action)
    (hwired : Wired s.core) (h : Staffed cfg.supervisor.concurrency s.core) :
    Staffed cfg.supervisor.concurrency k := by
  -- outside `execute`, the worker of an execution is idle
  have houtside : ∀ {w e}, s.executions w = some e → e.phase.executing = false →
      (s.worker w).status = .idle := by
    intro w e hexec hphase
    refine h.idle fun e' he' => ?_
    obtain rfl : e' = e := Option.some.inj (he'.symm.trans hexec)
    exact hphase
  have hstay : ∀ {w e'}, (s.worker w).status = .idle ∨ Phase.executing e'.phase = true →
      Staffed cfg.supervisor.concurrency { s.core with
        executions := Function.update s.executions w (some e') } :=
    fun hw => h.setExecution (fun _ _ => rfl) hw
  have hupdate : ∀ {w worker e'},
      worker.status = .idle ∨ Phase.executing e'.phase = true →
      Staffed cfg.supervisor.concurrency { s.core with
        worker := Function.update s.worker w worker
        executions := Function.update s.executions w (some e') } := by
    intro w worker e' hw
    refine h.setExecution (fun w' hww => Function.update_of_ne hww _ _) ?_
    rw [Function.update_self]
    exact hw
  cases hmove with
  | quiet => exact h
  | poll _ hp => exact h.setPoll hp.candidates.subset fun _ => rfl
  | acquire hpoll _ =>
    refine h.setPoll ?_ fun _ => rfl
    rw [show s.core.poll = _ from hpoll]
    exact List.Subset.refl _
  | next hrest hnext =>
    rcases hrest with hpoll | ⟨hpoll, hrun, rfl⟩
    · refine h.setPoll ?_ fun _ => rfl
      rw [show s.core.poll = _ from hpoll]
      exact hnext.candidates.1.subset
    · exact ⟨h.size, h.statuses,
        fun w hw => List.mem_of_mem_filter (hnext.candidates.1.subset hw), h.staff⟩
  | ackStopped hpoll _ _ hp =>
    refine h.setPoll ?_ fun _ => rfl
    rw [show s.core.poll = _ from hpoll]
    exact (settled_candidates hp (List.sublist_cons_self _ _)).1.subset
  | @coalesce w active a rest _ hpoll _ =>
    refine h.setPoll ?_ fun w' => ?_
    · rw [show s.core.poll = _ from hpoll]
      exact List.subset_cons_self _ _
    · by_cases hww : w' = active
      · subst hww
        rw [Function.update_self]
        rfl
      · rw [Function.update_of_ne hww]
        rfl
  | ackCoalesced hpoll _ hp =>
    refine h.setPoll ?_ fun _ => rfl
    rw [show s.core.poll = _ from hpoll]
    exact (settled_candidates hp (List.Sublist.refl _)).1.subset
  | @assign events w a rest p hpoll hrun hnext =>
    have hcandidates : s.core.poll.candidates = w :: rest := by
      rw [show s.core.poll = _ from hpoll]
      rfl
    have hw : w ∈ s.core.poll.candidates := by
      rw [hcandidates]
      exact List.mem_cons_self ..
    refine ⟨h.size, fun w' => ?_, fun w' hw' => ?_, fun _ g w' hg => ?_⟩
    · by_cases hww : w' = w
      · subst hww
        refine .inl (h.idle fun e he => ?_)
        rw [hwired.candidates_free w' hw] at he
        cases he
      · exact h.status_of_ne hww _
    · refine h.candidates w' ?_
      rw [hcandidates]
      exact List.mem_cons_of_mem _ (hnext.candidates.1.subset hw')
    · rw [ObjectMap.get?_set] at hg
      split at hg
      · obtain rfl := Option.some.inj hg
        exact h.candidates w hw
      · exact h.staff hrun g w' hg
  | @phase events w e e' hexec _ hphase _ =>
    refine hstay ?_
    cases hexecuting : e.phase.executing with
    | false => exact .inl (houtside hexec hexecuting)
    | true => exact .inr (hphase.executing.trans hexecuting)
  | reject _ _ hexec hphase => exact hstay (.inl (houtside hexec (by rw [hphase]; rfl)))
  | execute _ _ => exact hupdate (.inr rfl)
  | iterate _ _ _ => exact hupdate (.inr rfl)
  | record _ _ _ => exact hupdate (.inr rfl)
  | pause _ _ _ => exact hstay (.inr rfl)
  | @fail w e reason haction hexec hphase =>
    refine hupdate (.inl ?_)
    have haborted : s.crashes w = false := by
      rw [haction] at hkeeps
      exact hkeeps
    unfold Supervisor.crashes at haborted
    rw [hexec] at haborted
    have haborted : s.aborted = true := by simpa [hphase] using haborted
    rw [GoalWorker.fail_status, haborted]
    rfl
  | finish _ _ _ => exact hupdate (.inl (GoalWorker.finish_status ..))
  | ackCompleted hexec hphase _ _ => exact hstay (.inl (houtside hexec (by rw [hphase]; rfl)))
  | @done w e hexec hphase =>
    refine ⟨h.size, fun w' => ?_, h.candidates, fun hrun g w' hg => ?_⟩
    · by_cases hww : w' = w
      · subst hww
        exact .inl (houtside hexec (by rw [hphase]; rfl))
      · exact h.status_of_ne hww _
    · rw [ObjectMap.get?_delete] at hg
      split at hg
      · cases hg
      · exact h.staff hrun g w' hg
  | shutdown => exact ⟨h.size, h.statuses, h.candidates, fun hrun => (by cases hrun)⟩
  | abort _ => exact ⟨h.size, h.statuses, h.candidates, h.staff⟩
  | relinquish _ _ _ =>
    refine ⟨h.size, h.statuses, h.candidates, fun hrun g w hg => ?_⟩
    rw [ObjectMap.get?_delete] at hg
    split at hg
    · cases hg
    · exact h.staff hrun g w hg
  | replace haction hactive _ =>
    refine ⟨List.length_range', fun w => ?_, fun w hw => ?_, fun _ g w hg => ?_⟩
    · by_cases hnew : s.nextWorker ≤ w
      · left
        show (if s.nextWorker ≤ w then ({} : GoalWorker) else s.worker w).status = .idle
        rw [if_pos hnew]
      · show (if s.nextWorker ≤ w then ({} : GoalWorker) else s.worker w).status = .idle ∨ _
        rw [if_neg hnew]
        exact h.statuses w
    · -- no poll is running
      rw [haction] at hkeeps
      have hidle : s.poll.idle = true := hkeeps
      have hnone : s.poll.candidates = [] := by
        cases hpoll : s.poll with
        | none => rfl
        | _ =>
          rw [hpoll] at hidle
          cases hidle
      rw [show s.core.poll.candidates = [] from hnone] at hw
      cases hw
    · have hmem := ObjectMap.mem_entries_iff.mpr hg
      rw [show s.core.activeGoals.entries = [] from hactive] at hmem
      cases hmem

/-! ## Counting -/

/-- What is left of a list without some of its members. -/
theorem length_filter_not_mem {l assigned : List WorkerId} (hl : l.Nodup)
    (hassigned : assigned.Nodup) (hsub : assigned ⊆ l) :
    (l.filter fun w => decide (w ∉ assigned)).length + assigned.length = l.length := by
  have hperm : (l.filter fun w => decide (w ∈ assigned)).Perm assigned := by
    refine (List.perm_ext_iff_of_nodup (hl.filter _) hassigned).mpr fun w => ?_
    simp only [List.mem_filter, decide_eq_true_eq, and_iff_right_iff_imp]
    exact fun hw => hsub hw
  have hsplit := List.length_eq_length_filter_add (l := l) fun w => decide (w ∈ assigned)
  simp only [hperm.length_eq] at hsplit
  simp only [decide_not]
  omega

/-- **Free and assigned workers make up the staff.** -/
theorem Staffed.count {n : Nat} {s : Supervisor} (h : Staffed n s.core) (hwired : Wired s.core)
    (hrun : s.running = true) : s.idleWorkers.length + s.activeGoals.entries.length = n := by
  have hnodup : (s.activeGoals.entries.map Prod.snd).Nodup := by
    refine List.Nodup.map_on ?_ (List.Nodup.of_map _ s.activeGoals.nodupKeys)
    rintro ⟨g, w⟩ hmem ⟨g', w'⟩ hmem' rfl
    obtain ⟨e, he, hgoal⟩ := hwired.owned g w (ObjectMap.mem_entries_iff.mp hmem)
    obtain ⟨e', he', hgoal'⟩ := hwired.owned g' w (ObjectMap.mem_entries_iff.mp hmem')
    obtain rfl : e = e' := Option.some.inj (he.symm.trans he')
    rw [← hgoal, ← hgoal']
  have hsub : s.activeGoals.entries.map Prod.snd ⊆ s.workers := by
    intro w hw
    obtain ⟨⟨g, w'⟩, hmem, rfl⟩ := List.mem_map.mp hw
    exact h.staff hrun g w' (ObjectMap.mem_entries_iff.mp hmem)
  have hidle : s.idleWorkers =
      s.workers.filter fun w => decide (w ∉ s.activeGoals.entries.map Prod.snd) := by
    refine List.filter_congr fun w _ => ?_
    have hassigned : s.hasAssignedGoal w =
        decide (w ∈ s.activeGoals.entries.map Prod.snd) := by
      unfold Supervisor.hasAssignedGoal
      rw [Bool.eq_iff_iff, List.any_eq_true, decide_eq_true_eq, List.mem_map]
      simp only [decide_eq_true_eq]
    cases hw : s.hasAssignedGoal w with
    | true => simp [← hassigned, hw]
    | false =>
      -- an unassigned worker has no execution, so it is idle
      have hfree := hwired.idle_free hrun hw
      have hst : (s.worker w).status = .idle := h.idle fun e he => by
        rw [show s.core.executions w = none from hfree] at he
        cases he
      have hnot : w ∉ s.activeGoals.entries.map Prod.snd := by
        rw [hw] at hassigned
        simpa using hassigned.symm
      simp [GoalWorker.isIdle, hst, hnot]
  have hcount := length_filter_not_mem hwired.nodup hnodup hsub
  rw [← h.size, ← hcount, List.length_map]
  exact congrArg (· + s.activeGoals.entries.length) (congrArg List.length hidle)

/-! ## A poll dispatches -/

namespace Turn

theorem queue_answer (cfg : Config) {m : Moment} (t : Turn) (op : QueueOp)
    (hfault : m.fault = false) :
    ∃ t', t.queue cfg m op = (t', (Queue.perform cfg.queue t.table ⟨op, m.clock⟩).2) ∧
      t'.sup = t.sup ∧ t'.leases = t.leases := by
  unfold queue
  rw [if_neg (by rw [hfault]; exact Bool.false_ne_true)]
  exact ⟨_, rfl, rfl, rfl⟩

theorem lease_answer (cfg : Config) {m : Moment} (t : Turn) (op : LeaseOp)
    (hfault : m.fault = false) :
    ∃ t', t.lease cfg m op = (t', (GoalLease.perform cfg.defaultLeaseMs t.leases op).2) ∧
      t'.sup = t.sup := by
  unfold lease
  rw [if_neg (by rw [hfault]; exact Bool.false_ne_true)]
  exact ⟨_, rfl, rfl⟩

end Turn

section

variable (cfg : Config) (m : Moment) (t : Turn) {w : WorkerId} {rest : List WorkerId}
  {a : Activation}

theorem schedulePoll_claims {c : Claim} (hpoll : t.sup.poll = .none)
    (hrun : t.sup.running = true) (hidle : t.sup.idleWorkers = w :: rest)
    (hfault : m.fault = false)
    (hclaim : (Queue.perform cfg.queue t.table ⟨.claim (workerName w)
      (some cfg.supervisor.claimLeaseMs) isGoalActivation m.uuid, m.clock⟩).2 = .claimed (some c)) :
    ∃ t', act cfg m .schedulePoll t = some t' ∧
      t'.sup = t.sup.setPoll (.claimed w (dispatchOf c) rest) ∧ t'.leases = t.leases := by
  obtain ⟨t₁, hqueue, hsup, hleases⟩ := t.queue_answer cfg (.claim (workerName w)
    (some cfg.supervisor.claimLeaseMs) isGoalActivation m.uuid) hfault
  rw [hclaim] at hqueue
  refine ⟨t₁.update (·.setPoll (.claimed w (dispatchOf c) rest)), ?_, by rw [← hsup]; rfl, hleases⟩
  show schedulePoll cfg m t = _
  unfold schedulePoll
  simp only [hpoll, hrun, if_true, hidle]
  unfold claimNext
  simp only [hqueue]
  rfl

theorem poll_acquires (hpoll : t.sup.poll = .claimed w (some a) rest)
    (hfree : t.sup.activeGoals.get? a.goalId = none) (hstopped : a.goalId ∉ t.sup.stoppedGoals)
    (hsuspended : a.goalId ∉ t.sup.suspendedGoals) :
    act cfg m .poll t = some (t.update (·.setPoll (.acquiring w a m.now rest))) := by
  show pollAndAssign cfg m t = _
  unfold pollAndAssign
  simp only [hpoll, hfree, if_neg hstopped, if_neg hsuspended]

theorem poll_granted {now : Millis} {r : GoalLeaseRecord}
    (hpoll : t.sup.poll = .acquiring w a now rest) (hfault : m.fault = false)
    (hlease : (GoalLease.perform cfg.defaultLeaseMs t.leases
      (.acquire a.goalId (acquireOptions cfg w a) now)).2 = .acquired (some r)) :
    ∃ t', act cfg m .poll t = some t' ∧ t'.sup = t.sup.setPoll (.acquired w a true rest) := by
  obtain ⟨t₁, hcall, hsup⟩ := t.lease_answer cfg
    (.acquire a.goalId (acquireOptions cfg w a) now) hfault
  rw [hlease] at hcall
  refine ⟨t₁.update (·.setPoll (.acquired w a true rest)), ?_, by rw [← hsup]; rfl⟩
  show pollAndAssign cfg m t = _
  unfold pollAndAssign
  simp only [hpoll, hcall]
  rfl

theorem poll_assigns (ht : t.events = []) (hpoll : t.sup.poll = .acquired w a true rest)
    (hrun : t.sup.running = true) :
    ∃ t', act cfg m .poll t = some t' ∧ t'.sup.activeGoals.get? a.goalId = some w ∧
      t'.sup.executions w = some { activation := a } := by
  refine ⟨claimNext cfg m rest (t.update (assign w a)), ?_, ?_⟩
  · show pollAndAssign cfg m t = _
    unfold pollAndAssign
    simp [hpoll, hrun]
  · obtain ⟨p, hsup, -⟩ := claimNext_spec cfg m (t.update (assign w a)) rest ht
    rw [hsup]
    exact ⟨ObjectMap.get?_set_self .., Function.update_self ..⟩

end

section

variable {ι : Type} [DecidableEq ι] {cfg : SystemConfig ι} {world : World ι} {i : ι}

/-- **A queued activation is dispatched**: a poll that finds a free worker, claims
an activation of a goal that may run and is granted its lease starts it. -/
theorem poll_dispatches {w : WorkerId} {rest : List WorkerId} {m₁ m₂ m₃ m₄ : Moment} {c : Claim}
    {a : Activation} {r : GoalLeaseRecord}
    (hpoll : (world.sups i).poll = .none) (hrun : (world.sups i).running = true)
    (hidle : (world.sups i).idleWorkers = w :: rest)
    (hadmits : Admits world.now world.issued [m₁, m₂, m₃, m₄])
    (hfault : m₁.fault = false ∧ m₃.fault = false)
    (hclaim : (Queue.perform cfg.queue world.table ⟨.claim (workerName w)
      (some (cfg.supervisor i).claimLeaseMs) isGoalActivation m₁.uuid, m₁.clock⟩).2 =
        .claimed (some c))
    (hgoal : dispatchOf c = some a)
    (hfree : (world.sups i).activeGoals.get? a.goalId = none)
    (hstopped : a.goalId ∉ (world.sups i).stoppedGoals)
    (hsuspended : a.goalId ∉ (world.sups i).suspendedGoals)
    (hlease : (GoalLease.perform cfg.defaultLeaseMs world.leases (.acquire a.goalId
      (acquireOptions (cfg.config i) w a) m₂.now)).2 = .acquired (some r)) :
    ∃ events world', (systemLTS cfg).Run world
        ([(⟨.supervisor i .schedulePoll, m₁⟩ : Request ι), ⟨.supervisor i .poll, m₂⟩,
          ⟨.supervisor i .poll, m₃⟩, ⟨.supervisor i .poll, m₄⟩].zip events) world' ∧
      events.length = 4 ∧ (world'.sups i).activeGoals.get? a.goalId = some w ∧
      (world'.sups i).executions w = some { activation := a } := by
  obtain ⟨hnow₁, hfresh₁, hnow₂, hfresh₂, hnow₃, hfresh₃, hnow₄, hfresh₄, -⟩ := hadmits
  -- each segment starts from the stores and the supervisor that the one before left
  let turn (v : World ι) : Turn := ⟨v.table, v.leases, v.sups i, []⟩
  obtain ⟨t₁, hact₁, hsup₁, hleases₁⟩ :=
    schedulePoll_claims (cfg.config i) m₁ (turn world) hpoll hrun hidle hfault.1 hclaim
  have hstep₁ := step_of_act hnow₁ hfresh₁ hact₁
  rw [hgoal] at hsup₁
  let world₁ := world.withTurn i m₁ t₁
  have hturn₁ : (turn world₁).sup = (world.sups i).setPoll (.claimed w (some a) rest) :=
    (world.withTurn_self i m₁ t₁).trans hsup₁
  have hact₂ := poll_acquires (cfg.config i) m₂ (turn world₁) (by rw [hturn₁]; rfl)
    (by rw [hturn₁]; exact hfree) (by rw [hturn₁]; exact hstopped)
    (by rw [hturn₁]; exact hsuspended)
  have hstep₂ := step_of_act hnow₂ hfresh₂ hact₂
  let world₂ := world₁.withTurn i m₂
    ((turn world₁).update (·.setPoll (.acquiring w a m₂.now rest)))
  have hturn₂ : (turn world₂).sup =
      ((world.sups i).setPoll (.claimed w (some a) rest)).setPoll
        (.acquiring w a m₂.now rest) :=
    (world₁.withTurn_self i m₂ _).trans
      (congrArg (·.setPoll (.acquiring w a m₂.now rest)) hturn₁)
  obtain ⟨t₃, hact₃, hsup₃⟩ := poll_granted (cfg.config i) m₃ (turn world₂)
    (by rw [hturn₂]; rfl) hfault.2 (by
      rw [show (turn world₂).leases = world.leases from hleases₁]
      exact hlease)
  have hstep₃ := step_of_act hnow₃ hfresh₃ hact₃
  rw [hturn₂] at hsup₃
  let world₃ := world₂.withTurn i m₃ t₃
  have hturn₃ : (turn world₃).sup = t₃.sup := world₂.withTurn_self i m₃ t₃
  obtain ⟨t₄, hact₄, hactive, hexec⟩ := poll_assigns (cfg.config i) m₄ (turn world₃) rfl
    (by rw [hturn₃, hsup₃]; rfl) (by rw [hturn₃, hsup₃]; exact hrun)
  have hstep₄ := step_of_act hnow₄ hfresh₄ hact₄
  refine ⟨[t₁.events, [], t₃.events, t₄.events], _,
    .cons hstep₁ (.cons hstep₂ (.cons hstep₃ (.cons hstep₄ .nil))), rfl, ?_, ?_⟩
  · rw [World.withTurn_self]
    exact hactive
  · rw [World.withTurn_self]
    exact hexec

/-! ## The main result -/

/-- The condition `KeepsWorkers` on the steps of supervisor `i`. -/
def WorkersKept (i : ι) (world : World ι) (l : Label ι) : Prop :=
  match l.1.party with
  | .supervisor j action => j = i → KeepsWorkers (world.sups i) action
  | _ => True

instance (i : ι) (world : World ι) (l : Label ι) : Decidable (WorkersKept i world l) := by
  unfold WorkersKept
  cases l.1.party <;> infer_instance

theorem SystemRun.staffed {now : Millis} {crashCounts : ι → ObjectMap String Nat}
    {history : List (Label ι)} (h : SystemRun cfg now crashCounts history world)
    (hkept : (systemLTS cfg).Always (World.start cfg now crashCounts) history (WorkersKept i)) :
    Staffed (cfg.supervisor i).concurrency (world.sups i).core := by
  refine (LTS.Run.guarded (P := fun world => Wired (world.sups i).core ∧
    Staffed (cfg.supervisor i).concurrency (world.sups i).core) h
    ⟨wired_start _ _, staffed_start _ _⟩ hkept ?_).2
  rintro a l b hstep hkept ⟨hwired, hstaffed⟩
  rcases step_sup hstep i with ⟨hsame, -⟩ | ⟨action, hparty, hmove⟩
  · rw [hsame]
    exact ⟨hwired, hstaffed⟩
  · unfold WorkersKept at hkept
    rw [hparty] at hkept
    exact ⟨hmove.wired hwired, hmove.staffed (hkept rfl) hwired hstaffed⟩

/-- **Worker capacity.** While the supervisor runs, in a run in which no
`durableLoop.run` throws without being aborted and no poll has its workers replaced
under it: the workers that `pollAndAssign` can dispatch to and the active goals, each
of which is one execution, add up to the concurrency. When no goal is active all
workers are idle, and a queued activation is dispatched: a poll that claims it, for a
goal that is neither stopped nor suspended and whose lease is granted, starts it. -/
theorem capacity_preserved (cfg : SystemConfig ι) (i : ι) {now : Millis}
    {crashCounts : ι → ObjectMap String Nat} {history : List (Label ι)} {world : World ι}
    (h : SystemRun cfg now crashCounts history world)
    (hkept : (systemLTS cfg).Always (World.start cfg now crashCounts) history (WorkersKept i))
    (hrun : (world.sups i).running = true) :
    (world.sups i).idleWorkers.length + (world.sups i).activeGoals.entries.length =
      (cfg.supervisor i).concurrency ∧
    (∀ g w, (world.sups i).activeGoals.get? g = some w ↔
      ∃ e, (world.sups i).executions w = some e ∧ e.activation.goalId = g) ∧
    ((world.sups i).activeGoals.entries = [] →
      (∀ w ∈ (world.sups i).workers, ((world.sups i).worker w).isIdle = true) ∧
      ∀ w rest m₁ m₂ m₃ m₄ c a r, (world.sups i).workers = w :: rest →
        (world.sups i).poll = .none → Admits world.now world.issued [m₁, m₂, m₃, m₄] →
        m₁.fault = false ∧ m₃.fault = false →
        (Queue.perform cfg.queue world.table ⟨.claim (workerName w)
          (some (cfg.supervisor i).claimLeaseMs) isGoalActivation m₁.uuid, m₁.clock⟩).2 =
            .claimed (some c) →
        dispatchOf c = some a → a.goalId ∉ (world.sups i).stoppedGoals →
        a.goalId ∉ (world.sups i).suspendedGoals →
        (GoalLease.perform cfg.defaultLeaseMs world.leases (.acquire a.goalId
          (acquireOptions (cfg.config i) w a) m₂.now)).2 = .acquired (some r) →
        ∃ events world', (systemLTS cfg).Run world
            ([(⟨.supervisor i .schedulePoll, m₁⟩ : Request ι), ⟨.supervisor i .poll, m₂⟩,
              ⟨.supervisor i .poll, m₃⟩, ⟨.supervisor i .poll, m₄⟩].zip events) world' ∧
          events.length = 4 ∧ (world'.sups i).activeGoals.get? a.goalId = some w ∧
          (world'.sups i).executions w = some { activation := a }) := by
  have hwired := h.wired i
  have hstaffed := h.staffed hkept
  have hcount := hstaffed.count hwired hrun
  refine ⟨hcount, fun g w => ⟨hwired.owned g w, ?_⟩, fun hnone => ?_⟩
  · rintro ⟨e, hexec, rfl⟩
    exact hwired.active hrun w e hexec
  · -- as many dispatchable workers as there are workers: all are dispatchable
    have hall : (world.sups i).idleWorkers = (world.sups i).workers := by
      refine List.filter_sublist.eq_of_length ?_
      rw [hnone, List.length_nil, Nat.add_zero] at hcount
      exact hcount.trans hstaffed.size.symm
    refine ⟨fun w hw => ?_, ?_⟩
    · have hmem := (List.mem_filter.mp (hall ▸ hw : w ∈ (world.sups i).idleWorkers)).2
      exact (Bool.and_eq_true_iff.mp hmem).1
    · intro w rest m₁ m₂ m₃ m₄ c a r hworkers hpoll hadmits hfault hclaim hgoal hstopped
        hsuspended hlease
      have hfree : (world.sups i).activeGoals.get? a.goalId = none := by
        refine ObjectMap.not_mem_keys_iff.mp ?_
        unfold ObjectMap.keys
        rw [hnone]
        exact List.not_mem_nil
      exact poll_dispatches hpoll hrun (hall.trans hworkers) hadmits hfault hclaim hgoal hfree
        hstopped hsuspended hlease

end

/-- One supervisor with one worker. -/
def oneWorker : SystemConfig Unit where
  supervisor := fun _ => { concurrency := 1 }

/-- A goal is activated, dispatched to worker 0, and its loop runs. -/
def runGoal : List Action :=
  [.activateGoal "g" {}, .schedulePoll, .poll, .poll, .poll, .execution 0 .resolved,
    .execution 0 .resolved, .execution 0 .resolved]

/-- The loop of the goal reports an error, and the execution ends. -/
def retryGoal : List (Request Unit) :=
  segments () (runGoal ++
    [.execution 0 (.loopResult ⟨.error, 1, none⟩), .execution 0 .resolved,
      .execution 0 .resolved, .execution 0 .resolved, .execution 0 .resolved,
      .execution 0 .resolved, .execution 0 .resolved])

/-- A goal whose loop reports an error is retried later, and its worker is free again. -/
theorem capacity_preserved_retried :
    (((runRequests oneWorker retryGoal).2.sups ()).retryTimers.length = 1 ∧
      ((runRequests oneWorker retryGoal).2.sups ()).activeGoals.entries = []) ∧
    ((runRequests oneWorker retryGoal).2.sups ()).idleWorkers.length +
      ((runRequests oneWorker retryGoal).2.sups ()).activeGoals.entries.length =
        (oneWorker.supervisor ()).concurrency :=
  ⟨by decide +kernel, (capacity_preserved oneWorker () (runRequests_run oneWorker retryGoal)
    (LTS.ExecAlways.always (by decide +kernel)) (by decide +kernel)).1⟩

/-- The loop of a goal throws: no goal is active, and no worker is left to dispatch to. -/
theorem capacity_lost :
    ∃ (history : List (Label Unit)) (world : World Unit),
      SystemRun oneWorker 0 (fun _ => ObjectMap.empty) history world ∧
        (world.sups ()).running = true ∧ (world.sups ()).activeGoals.entries = [] ∧
        (world.sups ()).idleWorkers.length + (world.sups ()).activeGoals.entries.length ≠
          (oneWorker.supervisor ()).concurrency :=
  ⟨_, _, runRequests_run oneWorker (segments () (runGoal ++
    [.execution 0 .rejected, .execution 0 .resolved, .execution 0 .resolved,
      .execution 0 .resolved, .execution 0 .resolved])),
    by decide +kernel, by decide +kernel, by decide +kernel⟩

end PulSeed.Executor
