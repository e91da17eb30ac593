import PulSeed.Executor.System
import PulSeed.Queue.Tokens

/-!
# What one segment does to the stores

`act_deals` says once which calls a segment makes: the queue goes through exactly
the calls that the events report, and the lease table, the renewals under way and
the fenced writes change in one of ten ways. Over a run of the system the queue
therefore has a history of its own (`SystemRun.queueRun`), to which the results about
the queue apply.
-/

namespace PulSeed.Executor

open Queue GoalLease

/-- The calls to the queue among the events. -/
def queueCalls (events : List Event) : List (Call × Outcome) :=
  events.filterMap fun
    | .queue call outcome => some (call, outcome)
    | _ => none

@[simp] theorem queueCalls_append (events events' : List Event) :
    queueCalls (events ++ events') = queueCalls events ++ queueCalls events' :=
  List.filterMap_append

theorem mem_queueCalls {events : List Event} {call : Call} {outcome : Outcome} :
    (call, outcome) ∈ queueCalls events ↔ Event.queue call outcome ∈ events := by
  unfold queueCalls
  rw [List.mem_filterMap]
  constructor
  · rintro ⟨event, hmem, heq⟩
    cases event with
    | queue => cases heq; exact hmem
    | _ => cases heq
  · exact fun hmem => ⟨_, hmem, rfl⟩

/-- A call to the lease manager, or a write that has passed a fence. -/
def Event.touchesLeases : Event → Bool
  | .lease _ _ | .written _ (some _) => true
  | _ => false

/-- Neither. -/
def Unleased (events : List Event) : Prop := ∀ event ∈ events, event.touchesLeases = false

theorem unleased_nil : Unleased [] := fun _ h => absurd h List.not_mem_nil

theorem unleased_singleton {event : Event} (h : event.touchesLeases = false) :
    Unleased [event] := by
  intro event' hmem
  rw [List.mem_singleton.mp hmem]
  exact h

theorem Unleased.append {events events' : List Event} (h : Unleased events)
    (h' : Unleased events') : Unleased (events ++ events') := by
  intro event hmem
  rcases List.mem_append.mp hmem with hmem | hmem
  · exact h event hmem
  · exact h' event hmem

/-! ## Segments that leave the leases alone -/

/-- From `t` to `t'` only the queue was called, the events report its calls, and the
leases, the renewals and the fenced writes are what they were. -/
structure Keeps (cfg : Config) (t t' : Turn) : Prop where
  leases : t'.leases = t.leases
  renewals : t'.sup.renewals = t.sup.renewals
  writes : t'.sup.writes = t.sup.writes
  events : ∃ new, t'.events = t.events ++ new ∧ Unleased new ∧
    (queueLTS cfg.queue).Run t.table (queueCalls new) t'.table

section

variable {cfg : Config} {m : Moment} {t t' t₁ : Turn}

theorem Keeps.refl (t : Turn) : Keeps cfg t t :=
  ⟨rfl, rfl, rfl, [], by simp, unleased_nil, .nil⟩

theorem Keeps.trans (h : Keeps cfg t t') (h' : Keeps cfg t' t₁) : Keeps cfg t t₁ := by
  obtain ⟨new, hev, hnone, hrun⟩ := h.events
  obtain ⟨new', hev', hnone', hrun'⟩ := h'.events
  refine ⟨h'.leases.trans h.leases, h'.renewals.trans h.renewals, h'.writes.trans h.writes,
    new ++ new', by rw [hev', hev, List.append_assoc], hnone.append hnone', ?_⟩
  rw [queueCalls_append]
  exact hrun.append hrun'

theorem Keeps.update (h : Keeps cfg t t') {f : Supervisor → Supervisor}
    (hrenewals : (f t'.sup).renewals = t'.sup.renewals)
    (hwrites : (f t'.sup).writes = t'.sup.writes) : Keeps cfg t (t'.update f) :=
  h.trans ⟨rfl, hrenewals, hwrites, [], by simp [Turn.update], unleased_nil, .nil⟩

theorem Keeps.emit_iteration (h : Keeps cfg t t') (goalId : String) :
    Keeps cfg t (t'.emit (.iteration goalId)) :=
  h.trans ⟨rfl, rfl, rfl, [.iteration goalId], rfl, unleased_singleton rfl, .nil⟩

theorem Turn.queue_keeps {op : QueueOp} {outcome : Outcome}
    (h : t.queue cfg m op = (t', outcome)) : Keeps cfg t t' := by
  unfold Turn.queue at h
  split at h
  · cases h
    exact .refl t
  · cases h
    exact ⟨rfl, rfl, rfl, [.queue ⟨op, m.clock⟩ _], rfl, unleased_singleton rfl, .single rfl⟩

theorem completeClaim_keeps (a : Activation) (lost : Bool) :
    Keeps cfg t (completeClaim cfg m a lost t).1 := by
  unfold completeClaim
  split
  · exact .refl t
  · cases hq : t.queue cfg m (.ack a.token) with
    | mk t₁ outcome => exact Turn.queue_keeps hq

theorem failClaim_keeps (a : Activation) (reason : String) (requeue lost : Bool) :
    Keeps cfg t (failClaim cfg m a reason requeue lost t).1 := by
  unfold failClaim
  split
  · exact .refl t
  · cases hq : t.queue cfg m (.nack a.token reason requeue) with
    | mk t₁ outcome => exact Turn.queue_keeps hq

theorem claimNext_keeps (rest : List WorkerId) : Keeps cfg t (claimNext cfg m rest t) := by
  cases rest with
  | nil =>
    show Keeps cfg t (t.update (·.setPoll .none))
    exact (Keeps.refl t).update rfl rfl
  | cons w rest =>
    unfold claimNext
    simp only
    cases hq : t.queue cfg m (.claim (workerName w) (some cfg.supervisor.claimLeaseMs)
        isGoalActivation m.uuid) with
    | mk t₁ outcome =>
      have hkeeps := Turn.queue_keeps hq
      cases outcome with
      | claimed c => exact hkeeps.update rfl rfl
      | _ => exact hkeeps.update rfl rfl

theorem settleThen_keeps {r : Turn × Bool} (rest : List WorkerId) (h : Keeps cfg t r.1) :
    Keeps cfg t (settleThen rest r) := h.update rfl rfl

theorem enter_keeps (h : Keeps cfg t t') (w : WorkerId) (e : Execution) (p : Phase) :
    Keeps cfg t (t'.update (enter w e p)) := h.update rfl rfl

theorem deferDurableRetry_keeps (w : WorkerId) (e : Execution) (reason : String)
    (backoffMs : Millis) : Keeps cfg t (deferDurableRetry cfg m w e reason backoffMs t) := by
  unfold deferDurableRetry
  split
  · exact (Keeps.refl t).update rfl rfl
  · simp only
    cases hq : t.queue cfg m (.renew e.activation.token
        (some (backoffMs + max cfg.supervisor.pollIntervalMs 100))) with
    | mk t₁ outcome =>
      split
      all_goals
        next heq =>
        obtain ⟨rfl, rfl⟩ := Prod.mk.inj heq
        exact (Turn.queue_keeps hq).update rfl rfl

theorem afterExecute_keeps (w : WorkerId) (e : Execution) (result : WorkerResult) :
    Keeps cfg t (afterExecute cfg m w e result t) := by
  unfold afterExecute
  simp only
  split
  · exact (Keeps.refl t).update rfl rfl
  · split
    · split
      · exact ((Keeps.refl t).update rfl rfl).update rfl rfl
      · exact ((Keeps.refl t).update rfl rfl).trans (deferDurableRetry_keeps w e _ _)
    · exact (Keeps.refl t).update rfl rfl

theorem iterate_keeps (w : WorkerId) (e : Execution) : Keeps cfg t (iterate w e t) :=
  ((Keeps.refl t).update rfl rfl).emit_iteration _

/-- Every segment of an execution but the release of its lease. -/
theorem executeWorker_keeps {w : WorkerId} {e : Execution} {reply : Reply}
    (h : executeWorker cfg m w e reply t = some t') (hphase : e.phase ≠ .releasing) :
    Keeps cfg t t' := by
  have hstay : ∀ {p : Phase}, Keeps cfg t (t.update (enter w e p)) :=
    enter_keeps (.refl t) w e _
  have hpause : ∀ {last : LoopResult},
      some (if (t.sup.worker w).extendRequested then iterate w e t
        else t.update (enter w e (.immediate last))) = some t' → Keeps cfg t t' := by
    intro last h
    cases h
    split
    · exact iterate_keeps w e
    · exact hstay
  unfold executeWorker at h
  simp only at h
  split at h
  · cases h
    exact hstay
  · cases h
    exact hstay
  · cases h
    exact (Keeps.refl t).update rfl rfl
  · cases h
    exact iterate_keeps w e
  · cases h
    exact (Keeps.refl t).update rfl rfl
  · cases h
    exact (Keeps.refl t).update rfl rfl
  · rw [← apply_ite some] at h
    exact hpause h
  · rw [← apply_ite some] at h
    exact hpause h
  · split at h
    · cases h
      exact iterate_keeps w e
    · cases h
      exact (Keeps.refl t).update rfl rfl
  · cases h
    exact afterExecute_keeps w e _
  · cases h
    exact hstay
  · cases h
    exact hstay
  · cases h
    exact (completeClaim_keeps e.activation e.ownershipLost).update rfl rfl
  · cases h
    exact (failClaim_keeps e.activation _ false e.ownershipLost).update rfl rfl
  · cases h
    exact (failClaim_keeps e.activation _ true e.ownershipLost).update rfl rfl
  · cases h
    exact (Keeps.refl t).update rfl rfl
  · next hreleasing => exact absurd hreleasing hphase
  · cases h
    exact (Keeps.refl t).update rfl rfl
  · cases h

end

/-! ## Every segment -/

/-- What the lease manager and the write fences depend on. -/
structure Dealings where
  leases : LeaseTable
  renewals : List Renewal
  writes : ObjectMap String FencedWrite

def Turn.dealings (t : Turn) : Dealings := ⟨t.leases, t.sup.renewals, t.sup.writes⟩

/-- What one segment of supervisor `s` can do to the leases, the renewals under way
and the fenced writes, with its events. -/
inductive Deal (cfg : Config) (m : Moment) (s : Supervisor) (leases : LeaseTable) :
    List Event → Dealings → Prop
  | kept {events : List Event} : Unleased events →
      Deal cfg m s leases events ⟨leases, s.renewals, s.writes⟩
  | acquire {w : WorkerId} {a : Activation} {now : Millis} {rest : List WorkerId} {op : LeaseOp} :
      s.poll = .acquiring w a now rest → op = .acquire a.goalId (acquireOptions cfg w a) now →
      Deal cfg m s leases [.lease op (perform cfg.defaultLeaseMs leases op).2]
        ⟨(perform cfg.defaultLeaseMs leases op).1, s.renewals, s.writes⟩
  | release {goalId token : String} {op : LeaseOp} : op = .release goalId token →
      Deal cfg m s leases [.lease op (perform cfg.defaultLeaseMs leases op).2]
        ⟨(perform cfg.defaultLeaseMs leases op).1, s.renewals, s.writes⟩
  | begin {events : List Event} {w : WorkerId} {e : Execution} (claimRenewed : Bool) :
      s.executions w = some e → (∀ r ∈ s.renewals, r.activation.token ≠ e.activation.token) →
      Unleased events →
      Deal cfg m s leases events
        ⟨leases, s.renewals ++ [⟨w, e.activation, m.now, claimRenewed, none⟩], s.writes⟩
  | renew {k : Nat} {r : Renewal} {op : LeaseOp} {renewals : List Renewal} :
      s.renewals[k]? = some r → r.leaseRenewed = none →
      op = .renew r.activation.goalId r.activation.token (some cfg.supervisor.claimLeaseMs) r.now →
      renewals = s.renewals.eraseIdx k ∨
        (∃ answer, renewals = s.renewals.set k { r with leaseRenewed := some answer }) →
      Deal cfg m s leases [.lease op (perform cfg.defaultLeaseMs leases op).2]
        ⟨(perform cfg.defaultLeaseMs leases op).1, renewals, s.writes⟩
  | answered (k : Nat) : Deal cfg m s leases [] ⟨leases, s.renewals.eraseIdx k, s.writes⟩
  | fence {goalId : String} {fence : Activation} : s.writeFences.get? goalId = some fence →
      Deal cfg m s leases [] ⟨leases, s.renewals, s.writes.set goalId (.reading fence)⟩
  | read {goalId : String} {fence : Activation} {op : LeaseOp} :
      s.writes.get? goalId = some (.reading fence) → op = .read goalId →
      Deal cfg m s leases [.lease op (perform cfg.defaultLeaseMs leases op).2]
        ⟨leases, s.renewals, s.writes.set goalId (.deciding fence (leases.get? goalId))⟩
  | reject {events : List Event} (goalId : String) : Unleased events →
      Deal cfg m s leases events ⟨leases, s.renewals, s.writes.delete goalId⟩
  | write {goalId : String} {fence : Activation} {current : Option GoalLeaseRecord} :
      s.writes.get? goalId = some (.deciding fence current) → fenceHolds m fence current = true →
      Deal cfg m s leases [.written goalId (some fence)]
        ⟨leases, s.renewals, s.writes.delete goalId⟩

section

variable {cfg : Config} {m : Moment} {t t' t₁ : Turn}

/-- What a segment does to the stores. -/
def Deals (cfg : Config) (m : Moment) (t t' : Turn) : Prop :=
  (queueLTS cfg.queue).Run t.table (queueCalls t'.events) t'.table ∧
    Deal cfg m t.sup t.leases t'.events t'.dealings

theorem Keeps.deals (h : Keeps cfg t t') (ht : t.events = []) : Deals cfg m t t' := by
  obtain ⟨new, hev, hnone, hrun⟩ := h.events
  rw [ht, List.nil_append] at hev
  subst hev
  refine ⟨hrun, ?_⟩
  unfold Turn.dealings
  rw [h.leases, h.renewals, h.writes]
  exact .kept hnone

/-- A call to the lease manager: it throws, or it is performed. -/
theorem Turn.lease_cases {op : LeaseOp} {outcome : LeaseOutcome}
    (h : t.lease cfg m op = (t', outcome)) :
    outcome = .threw ∧ t' = t ∨
      perform cfg.defaultLeaseMs t.leases op = (t'.leases, outcome) ∧
        t' = { t with leases := t'.leases, events := t.events ++ [.lease op outcome] } := by
  unfold Turn.lease at h
  split at h
  · cases h
    exact .inl ⟨rfl, rfl⟩
  · cases h
    exact .inr ⟨rfl, rfl⟩

/-- A segment that calls the lease manager once, and then changes neither the
renewals nor the fenced writes. -/
theorem lease_deals {op : LeaseOp} {f : Supervisor → Supervisor} {outcome : LeaseOutcome}
    (h : t.lease cfg m op = (t₁, outcome)) (ht : t.events = [])
    (hrenewals : (f t₁.sup).renewals = t₁.sup.renewals)
    (hwrites : (f t₁.sup).writes = t₁.sup.writes)
    (hdeal : Deal cfg m t.sup t.leases [.lease op (perform cfg.defaultLeaseMs t.leases op).2]
      ⟨(perform cfg.defaultLeaseMs t.leases op).1, t.sup.renewals, t.sup.writes⟩) :
    Deals cfg m t (t₁.update f) := by
  rcases Turn.lease_cases h with ⟨-, rfl⟩ | ⟨hperform, ht₁⟩
  · exact ((Keeps.refl t₁).update hrenewals hwrites).deals ht
  · rw [hperform] at hdeal
    have htable : t₁.table = t.table := by rw [ht₁]
    have hevents : t₁.events = [.lease op outcome] := by rw [ht₁, ht]; rfl
    have hsup : t₁.sup = t.sup := by rw [ht₁]
    refine ⟨?_, ?_⟩
    · show (queueLTS cfg.queue).Run t.table (queueCalls t₁.events) t₁.table
      rw [hevents, htable]
      exact .nil
    · show Deal cfg m t.sup t.leases t₁.events ⟨t₁.leases, (f t₁.sup).renewals, (f t₁.sup).writes⟩
      rw [hrenewals, hwrites, hsup, hevents]
      exact hdeal

theorem pollAndAssign_deals (h : pollAndAssign cfg m t = some t') (ht : t.events = []) :
    Deals cfg m t t' := by
  unfold pollAndAssign at h
  split at h
  · cases h
  · cases h
    exact Keeps.deals ((Keeps.refl t).update rfl rfl) ht
  · split at h
    · cases h
      exact Keeps.deals ((Keeps.refl t).update rfl rfl) ht
    · split at h
      · cases h
        exact (settleThen_keeps _ (completeClaim_keeps _ _)).deals ht
      · split at h
        · cases h
          exact (settleThen_keeps _ (failClaim_keeps _ _ _ _)).deals ht
        · cases h
          exact Keeps.deals ((Keeps.refl t).update rfl rfl) ht
  · cases h
    exact (settleThen_keeps _ (completeClaim_keeps _ _)).deals ht
  · next w a now rest hpoll =>
    cases hlease : t.lease cfg m (.acquire a.goalId (acquireOptions cfg w a) now) with
    | mk t₁ outcome =>
      rw [hlease] at h
      cases outcome with
      | acquired lease =>
        cases h
        exact lease_deals hlease ht rfl rfl (.acquire hpoll rfl)
      | _ =>
        cases h
        exact lease_deals hlease ht rfl rfl (.acquire hpoll rfl)
  · next w a granted rest hpoll =>
    split at h
    · cases h
      exact (settleThen_keeps _ (failClaim_keeps _ _ _ _)).deals ht
    · split at h
      · have hfail : Keeps cfg t (failClaim cfg m a "supervisor stopping" true false t).1 :=
          failClaim_keeps a _ true false
        cases hcall : failClaim cfg m a "supervisor stopping" true false t with
        | mk t₁ ok =>
          rw [hcall] at h hfail
          cases h
          exact Keeps.deals (hfail.update rfl rfl) ht
      · cases h
        have hassign : Keeps cfg t (t.update (assign w a)) := (Keeps.refl t).update rfl rfl
        exact (hassign.trans (claimNext_keeps rest)).deals ht
  · cases h
    exact (claimNext_keeps _).deals ht
  · next a hpoll =>
    cases hlease : t.lease cfg m (.release a.goalId a.token) with
    | mk t₁ outcome =>
      rw [hlease] at h
      cases h
      exact lease_deals hlease ht rfl rfl (.release rfl)

theorem executeWorker_deals {w : WorkerId} {e : Execution} {reply : Reply}
    (h : executeWorker cfg m w e reply t = some t') (ht : t.events = []) : Deals cfg m t t' := by
  by_cases hphase : e.phase = .releasing
  · unfold executeWorker at h
    simp only [hphase] at h
    cases reply with
    | resolved =>
      cases hlease : t.lease cfg m (.release e.activation.goalId e.activation.token) with
      | mk t₁ outcome =>
        rw [hlease] at h
        cases h
        exact lease_deals hlease ht rfl rfl (.release rfl)
    | _ => cases h
  · exact (executeWorker_keeps h hphase).deals ht

theorem renewTick_deals {w : WorkerId} {e : Execution} (hexec : t.sup.executions w = some e)
    (h : renewTick cfg m w e t = some t') (ht : t.events = []) : Deals cfg m t t' := by
  unfold renewTick at h
  split at h
  · cases h
  · next hidle =>
    simp only at h
    cases hq : t.queue cfg m (.renew e.activation.token (some cfg.supervisor.claimLeaseMs)) with
    | mk t₁ outcome =>
      rw [hq] at h
      have hkeeps := Turn.queue_keeps hq
      split at h
      · next heq =>
        obtain ⟨rfl, rfl⟩ := Prod.mk.inj heq
        cases h
        obtain ⟨new, hev, hnone, hrun⟩ := hkeeps.events
        rw [ht, List.nil_append] at hev
        refine ⟨hev ▸ hrun, ?_⟩
        show Deal cfg m t.sup t.leases t₁.events ⟨t₁.leases, t₁.sup.renewals ++ _, t₁.sup.writes⟩
        rw [hkeeps.leases, hkeeps.renewals, hkeeps.writes, hev]
        refine .begin _ hexec (fun r hr htoken => hidle ?_) hnone
        rw [List.any_eq_true.mpr ⟨r, hr, by simpa using htoken⟩]
        simp
      · next heq =>
        obtain ⟨rfl, rfl⟩ := Prod.mk.inj heq
        cases h
        exact hkeeps.deals ht

theorem renewStep_deals {k : Nat} (h : renewStep cfg m k t = some t') (ht : t.events = []) :
    Deals cfg m t t' := by
  have hdropped : ∀ f : Supervisor → Supervisor, (f t.sup).renewals = t.sup.renewals.eraseIdx k →
      (f t.sup).writes = t.sup.writes → Deals cfg m t (t.update f) := by
    intro f hrenewals hwrites
    refine ⟨?_, ?_⟩
    · show (queueLTS cfg.queue).Run t.table (queueCalls t.events) t.table
      rw [ht]
      exact .nil
    · show Deal cfg m t.sup t.leases t.events ⟨t.leases, (f t.sup).renewals, (f t.sup).writes⟩
      rw [hrenewals, hwrites, ht]
      exact .answered k
  unfold renewStep at h
  split at h
  · cases h
  · next r hr =>
    split at h
    · next hpending =>
      cases hlease : t.lease cfg m (.renew r.activation.goalId r.activation.token
          (some cfg.supervisor.claimLeaseMs) r.now) with
      | mk t₁ outcome =>
        rw [hlease] at h
        rcases Turn.lease_cases hlease with ⟨rfl, rfl⟩ | ⟨hperform, ht₁⟩
        · cases h
          exact hdropped _ rfl rfl
        · have hdeal : ∀ renewals, renewals = t.sup.renewals.eraseIdx k ∨
              (∃ answer, renewals = t.sup.renewals.set k { r with leaseRenewed := some answer }) →
              Deal cfg m t.sup t.leases [.lease (.renew r.activation.goalId r.activation.token
                (some cfg.supervisor.claimLeaseMs) r.now) outcome]
                ⟨t₁.leases, renewals, t.sup.writes⟩ := by
            intro renewals hor
            let op : LeaseOp := .renew r.activation.goalId r.activation.token
              (some cfg.supervisor.claimLeaseMs) r.now
            have h : Deal cfg m t.sup t.leases
                [.lease op (perform cfg.defaultLeaseMs t.leases op).2]
                ⟨(perform cfg.defaultLeaseMs t.leases op).1, renewals, t.sup.writes⟩ :=
              Deal.renew hr hpending rfl hor
            rwa [hperform] at h
          have hsup : t₁.sup = t.sup := by rw [ht₁]
          have hevents : t₁.events = [.lease (.renew r.activation.goalId r.activation.token
              (some cfg.supervisor.claimLeaseMs) r.now) outcome] := by
            rw [ht₁, ht]
            rfl
          have hrun : (queueLTS cfg.queue).Run t.table (queueCalls t₁.events) t₁.table := by
            rw [hevents, show t₁.table = t.table by rw [ht₁]]
            exact .nil
          split at h
          · next heq =>
            obtain ⟨rfl, rfl⟩ := Prod.mk.inj heq
            cases h
            refine ⟨hrun, ?_⟩
            show Deal cfg m t.sup t.leases t₁.events ⟨t₁.leases, t₁.sup.renewals.set k _, t₁.sup.writes⟩
            rw [hsup, hevents]
            exact hdeal _ (.inr ⟨_, rfl⟩)
          · next heq =>
            obtain ⟨rfl, rfl⟩ := Prod.mk.inj heq
            cases h
            refine ⟨hrun, ?_⟩
            show Deal cfg m t.sup t.leases t₁.events
              ⟨t₁.leases, t₁.sup.renewals.eraseIdx k, t₁.sup.writes⟩
            rw [hsup, hevents]
            exact hdeal _ (.inl rfl)
    · cases h
      refine hdropped _ ?_ ?_
      · show (if _ then _ else leaseLost r _ : Supervisor).renewals = _
        split
        · rfl
        · unfold leaseLost
          split
          · split <;> rfl
          · rfl
      · show (if _ then _ else leaseLost r _ : Supervisor).writes = _
        split
        · rfl
        · unfold leaseLost
          split
          · split <;> rfl
          · rfl

theorem relinquish_keeps {e : Execution} (h : relinquish cfg m e t = some t') :
    Keeps cfg t t' := by
  unfold relinquish at h
  split at h
  · cases h
  · simp only at h
    split at h
    all_goals
      next heq =>
      cases h
      have hstart : Keeps cfg t (t.update fun s => { s with
          relinquishedTokens := insert e.activation.token s.relinquishedTokens
          activeGoals := s.activeGoals.delete e.activation.goalId }) :=
        (Keeps.refl t).update rfl rfl
      have hfail := hstart.trans (failClaim_keeps (m := m) e.activation
        "daemon shutdown interrupted active execution" true false)
      rw [heq] at hfail
      first
        | exact hfail.update rfl rfl
        | exact hfail

theorem activateGoal_keeps (goalId : String) (options : ActivateGoalOptions) :
    Keeps cfg t (activateGoal cfg m goalId options t) := by
  have hstart : Keeps cfg t (t.update fun s => { s with
      stoppedGoals := s.stoppedGoals.erase goalId
      suspendedGoals := s.suspendedGoals.erase goalId }) := (Keeps.refl t).update rfl rfl
  unfold activateGoal enqueueGoalActivation
  split
  · exact hstart
  · split
    · exact hstart.trans (Turn.queue_keeps (Prod.mk.eta (p := Turn.queue cfg m _ _)).symm)
    · exact hstart

theorem retryTimer_keeps {k : Nat} (h : retryTimer cfg m k t = some t') : Keeps cfg t t' := by
  unfold retryTimer at h
  split at h
  · cases h
  · next a reason _ =>
    have hstart : Keeps cfg t (t.update fun s => { s with
        retryTimers := s.retryTimers.eraseIdx k }) := (Keeps.refl t).update rfl rfl
    simp only at h
    split at h
    · cases h
      exact hstart.trans (failClaim_keeps a reason true false)
    · cases h
      exact hstart

theorem beginWrite_deals {goalId : String} (h : beginWrite goalId t = some t')
    (ht : t.events = []) : Deals cfg m t t' := by
  unfold beginWrite at h
  split at h
  · cases h
  · split at h
    · cases h
      refine Keeps.deals ⟨rfl, rfl, rfl, [.written goalId none], rfl, unleased_singleton rfl, .nil⟩ ht
    · next fence hfence =>
      cases h
      refine ⟨?_, ?_⟩
      · show (queueLTS cfg.queue).Run t.table (queueCalls t.events) t.table
        rw [ht]
        exact .nil
      · show Deal cfg m t.sup t.leases t.events _
        rw [ht]
        exact .fence hfence

theorem fenceStep_deals {goalId : String} (h : fenceStep cfg m goalId t = some t')
    (ht : t.events = []) : Deals cfg m t t' := by
  have hforget : ∀ {event : Event}, (∀ call outcome, event ≠ .queue call outcome) →
      Deal cfg m t.sup t.leases [event] ⟨t.leases, t.sup.renewals, t.sup.writes.delete goalId⟩ →
      Deals cfg m t ((t.update fun s => { s with writes := s.writes.delete goalId }).emit event) := by
    intro event hcalls hdeal
    refine ⟨?_, ?_⟩
    · show (queueLTS cfg.queue).Run t.table (queueCalls (t.events ++ [event])) t.table
      have hnone : queueCalls [event] = [] := by
        refine List.eq_nil_iff_forall_not_mem.mpr fun ⟨call, outcome⟩ hmem => ?_
        exact hcalls call outcome (List.mem_singleton.mp (mem_queueCalls.mp hmem)).symm
      rw [ht, List.nil_append, hnone]
      exact .nil
    · show Deal cfg m t.sup t.leases (t.events ++ [event]) _
      rw [ht]
      exact hdeal
  unfold fenceStep at h
  simp only at h
  split at h
  · cases h
  · next fence hwrite =>
    cases hlease : t.lease cfg m (.read goalId) with
    | mk t₁ outcome =>
      rw [hlease] at h
      rcases Turn.lease_cases hlease with ⟨rfl, rfl⟩ | ⟨hperform, ht₁⟩
      · cases h
        exact hforget (fun _ _ h => (by cases h)) (.reject goalId (unleased_singleton rfl))
      · have hperform : (t.leases, LeaseOutcome.read (t.leases.get? goalId)) =
            (t₁.leases, outcome) := hperform
        obtain ⟨hleases, rfl⟩ := Prod.mk.inj hperform
        cases h
        refine ⟨?_, ?_⟩
        · show (queueLTS cfg.queue).Run t.table (queueCalls t₁.events) t₁.table
          rw [ht₁, ht]
          exact .nil
        · show Deal cfg m t.sup t.leases t₁.events ⟨t₁.leases, t₁.sup.renewals,
            t₁.sup.writes.set goalId _⟩
          rw [ht₁, ht, ← hleases]
          exact .read hwrite rfl
  · next fence current hwrite =>
    cases h
    split
    · next hholds => exact hforget (fun _ _ h => (by cases h)) (.write hwrite hholds)
    · exact hforget (fun _ _ h => (by cases h)) (.reject goalId (unleased_singleton rfl))

/-- **The inversion lemma for the stores.** -/
theorem act_deals {action : Action} (h : act cfg m action t = some t') (ht : t.events = []) :
    Deals cfg m t t' := by
  unfold act at h
  cases action with
  | schedulePoll =>
    simp only [schedulePoll] at h
    split at h
    · split at h
      · cases h
        exact (claimNext_keeps _).deals ht
      · cases h
        exact (Keeps.refl t).deals ht
    · cases h
  | poll => exact pollAndAssign_deals h ht
  | execution w reply =>
    obtain ⟨e, -, h⟩ := Option.bind_eq_some_iff.mp h
    exact executeWorker_deals h ht
  | renewTick w =>
    obtain ⟨e, hexec, h⟩ := Option.bind_eq_some_iff.mp h
    exact renewTick_deals hexec h ht
  | renewStep k => exact renewStep_deals h ht
  | retryTimer k => exact (retryTimer_keeps h).deals ht
  | activateGoal goalId options =>
    cases h
    exact (activateGoal_keeps goalId options).deals ht
  | deactivateGoal goalId =>
    cases h
    exact Keeps.deals ((Keeps.refl t).update rfl rfl) ht
  | replaceIdleWorkers =>
    cases h
    refine Keeps.deals ((Keeps.refl t).update ?_ ?_) ht
    · unfold replaceIdleWorkers
      split <;> rfl
    · unfold replaceIdleWorkers
      split <;> rfl
  | shutdown =>
    cases h
    exact Keeps.deals ((Keeps.refl t).update rfl rfl) ht
  | abort =>
    simp only at h
    split at h
    · cases h
    · cases h
      exact Keeps.deals ((Keeps.refl t).update rfl rfl) ht
  | relinquish w =>
    simp only at h
    split at h
    · obtain ⟨e, -, h⟩ := Option.bind_eq_some_iff.mp h
      exact (relinquish_keeps h).deals ht
    · cases h
  | releaseRelinquished k =>
    simp only [releaseRelinquished] at h
    split at h
    · cases h
    · next a hk =>
      cases hlease : t.lease cfg m (.release a.goalId a.token) with
      | mk t₁ outcome =>
        rw [hlease] at h
        cases h
        exact lease_deals hlease ht rfl rfl (.release rfl)
  | beginWrite goalId => exact beginWrite_deals h ht
  | fenceStep goalId => exact fenceStep_deals h ht

end

/-! ## The queue of the system -/

section

variable {ι : Type} [DecidableEq ι] {cfg : SystemConfig ι} {a b : World ι} {l : Label ι}

theorem step_queue (h : (systemLTS cfg).step a l b) :
    (queueLTS cfg.queue).Run a.table (queueCalls l.2) b.table := by
  cases step_cases h with
  | refused hev =>
    rw [hev]
    exact .nil
  | acted _ _ _ hact hev =>
    rw [hev]
    exact (act_deals hact rfl).1
  | queue _ _ hev =>
    rw [hev]
    exact .single rfl
  | reaped _ _ _ hev =>
    rw [hev]
    exact .nil

/-- The calls to the queue in a history of the system. -/
def queueHistory (history : List (Label ι)) : List (Call × Outcome) :=
  history.flatMap fun l => queueCalls l.2

variable {now : Millis} {crashCounts : ι → ObjectMap String Nat} {history : List (Label ι)}
  {world : World ι}

/-- **The queue of the system runs as a queue.** -/
theorem SystemRun.queueRun (h : SystemRun cfg now crashCounts history world) :
    QueueRun cfg.queue (queueHistory history) world.table := by
  refine LTS.Run.history (P := fun history world =>
    QueueRun cfg.queue (queueHistory history) world.table) h ?_ ?_
  · exact LTS.Run.nil
  · intro hist a l b _ hstep hrun
    have hsnoc : queueHistory (hist ++ [l]) = queueHistory hist ++ queueCalls l.2 := by
      simp [queueHistory]
    rw [hsnoc]
    exact LTS.Run.append hrun (step_queue hstep)

/-- The queue accepted the envelope. -/
def AcceptedIn (history : List (Label ι)) (envelope : Envelope) : Prop :=
  ∃ l ∈ history, ∃ call outcome, Event.queue call outcome ∈ l.2 ∧
    Accepts (call, outcome) envelope

omit [DecidableEq ι] in
theorem AcceptedIn.append {envelope : Envelope} (h : AcceptedIn history envelope)
    (after : List (Label ι)) : AcceptedIn (history ++ after) envelope := by
  obtain ⟨l', hl', haccepts⟩ := h
  exact ⟨l', List.mem_append_left _ hl', haccepts⟩

/-- **A claimed message was accepted.** -/
theorem SystemRun.claims_accepted (h : SystemRun cfg now crashCounts (history ++ [l]) world)
    {event : Event} (hmem : event ∈ l.2) {c : Claim} (hclaims : event.Claims c) :
    AcceptedIn (history ++ [l]) c.envelope := by
  obtain ⟨call, outcome, rfl, hclaims⟩ := hclaims
  have hcall : (call, outcome) ∈ queueHistory (history ++ [l]) :=
    List.mem_flatMap.mpr ⟨l, by simp, mem_queueCalls.mpr hmem⟩
  obtain ⟨⟨call', outcome'⟩, hmem', haccepts⟩ := claim_accepted h.queueRun hcall hclaims
  obtain ⟨l', hl', hcall'⟩ := List.mem_flatMap.mp hmem'
  exact ⟨l', hl', call', outcome', mem_queueCalls.mp hcall', haccepts⟩

end

end PulSeed.Executor
