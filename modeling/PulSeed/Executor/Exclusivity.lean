import PulSeed.Executor.Pool
import PulSeed.Executor.Stores
import Mathlib.Tactic.Linarith

/-!
# Goal exclusivity

Within one supervisor `Wired` gives a goal one execution. Between supervisors the
goal leases decide: an owner loses its lease to another only after it has expired,
or by releasing it. A renewal captures the clock before its transaction runs, so it
has to be shown that it never shortens the lease; `Leased` carries what that needs:
every token is handled by one supervisor, and has one renewal under way.

A write fence reads the lease and decides later. `goal_exclusivity` says what a write
it lets through can rely on; `fence_stale` is a write let through after its
supervisor has released the lease and another one has acquired it.
-/

namespace PulSeed.Executor

open Queue GoalLease

/-! ## Where the tokens come from -/

/-- Where the activations after a segment come from: from those before, or from the
claim of the segment. -/
structure Origin (m : Moment) (s k : Core) : Prop where
  executions : ∀ w e', k.executions w = some e' →
    (∃ e, s.executions w = some e ∧ e'.activation = e.activation) ∨
    s.poll.dispatch = some e'.activation ∧
      ∀ a, k.poll.dispatch = some a → a.token = m.uuid.val
  poll : ∀ a, k.poll.dispatch = some a → s.poll.dispatch = some a ∨ a.token = m.uuid.val
  acquiring : ∀ w a now rest, k.poll = .acquiring w a now rest →
    s.poll = .acquiring w a now rest ∨ now = m.now

theorem PollMove.not_acquiring {p p' : Poll} (h : PollMove p p') (w : WorkerId) (a : Activation)
    (now : Millis) (rest : List WorkerId) : p' ≠ .acquiring w a now rest := by
  intro heq
  subst heq
  cases h

theorem ClaimsNext.token {m : Moment} {rest : List WorkerId} {events : List Event} {p : Poll}
    (h : ClaimsNext m rest events p) :
    (∀ a, p.dispatch = some a → a.token = m.uuid.val) ∧
      ∀ w a now rest', p ≠ .acquiring w a now rest' := by
  cases h with
  | ended => exact ⟨fun a ha => (by cases ha), fun _ _ _ _ hp => (by cases hp)⟩
  | @claimed w rest' call c hrest hop htoken =>
    refine ⟨fun a ha => ?_, fun _ _ _ _ hp => (by cases hp)⟩
    obtain ⟨c', hc, hdispatch⟩ := Option.bind_eq_some_iff.mp ha
    obtain ⟨g, hgoal, rfl⟩ := Option.map_eq_some_iff.mp hdispatch
    exact htoken c' hc

/-- **Every segment accounts for its activations.** -/
theorem Move.origin {cfg : Config} {m : Moment} {s : Supervisor} {action : Action}
    {events : List Event} {k : Core} (hmove : Move cfg m s action events k) :
    Origin m s.core k := by
  have hsame : ∀ {p : Poll} w e', s.core.executions w = some e' →
      (∃ e, s.core.executions w = some e ∧ e'.activation = e.activation) ∨
      s.core.poll.dispatch = some e'.activation ∧
        ∀ a, p.dispatch = some a → a.token = m.uuid.val := fun w e' he' => .inl ⟨e', he', rfl⟩
  -- one execution changes, the others stay
  have hone : ∀ {w e e'}, s.core.executions w = some e → e'.activation = e.activation →
      Origin m s.core { s.core with
        worker := k.worker
        executions := Function.update s.core.executions w (some e') } := by
    intro w e e' hexec hact
    refine ⟨fun w' e'' he'' => ?_, fun _ => .inl, fun _ _ _ _ => .inl⟩
    rcases update_cases he'' with ⟨rfl, heq⟩ | ⟨-, hold⟩
    · cases heq
      exact .inl ⟨e, hexec, hact⟩
    · exact .inl ⟨e'', hold, rfl⟩
  -- a poll that does not acquire
  have hsettled : ∀ {p : Poll} {rest : List WorkerId}, p = .none ∨ p = .settling rest →
      Origin m s.core { s.core with poll := p } := by
    rintro p rest (rfl | rfl)
    · exact ⟨hsame, fun _ ha => (by cases ha), fun _ _ _ _ hp => (by cases hp)⟩
    · exact ⟨hsame, fun _ ha => (by cases ha), fun _ _ _ _ hp => (by cases hp)⟩
  cases hmove with
  | quiet => exact ⟨hsame, fun _ => .inl, fun _ _ _ _ => .inl⟩
  | poll _ hp =>
    exact ⟨hsame, fun a ha => .inl (hp.dispatch ha),
      fun w a now rest heq => absurd heq (hp.not_acquiring w a now rest)⟩
  | @acquire w a rest hpoll _ =>
    refine ⟨hsame, fun b hb => .inl ?_, fun w' b now rest' heq => .inr ?_⟩
    · rw [show s.core.poll = _ from hpoll]
      exact hb
    · cases heq
      rfl
  | next _ hnext =>
    exact ⟨hsame, fun a ha => .inr (hnext.token.1 a ha),
      fun w a now rest heq => absurd heq (hnext.token.2 w a now rest)⟩
  | ackStopped _ _ _ hp => exact hsettled hp
  | @coalesce w active a rest _ hpoll _ =>
    refine ⟨hsame, fun b hb => .inl ?_, fun _ _ _ _ hp => (by cases hp)⟩
    rw [show s.core.poll = _ from hpoll]
    exact hb
  | ackCoalesced _ _ hp => exact hsettled hp
  | @assign events w a rest p hpoll _ hnext =>
    refine ⟨fun w' e' he' => ?_, fun b hb => .inr (hnext.token.1 b hb),
      fun w' b now rest' heq => absurd heq (hnext.token.2 w' b now rest')⟩
    rcases update_cases he' with ⟨rfl, heq⟩ | ⟨-, hold⟩
    · cases heq
      exact .inr ⟨by rw [show s.core.poll = _ from hpoll]; rfl, hnext.token.1⟩
    · exact .inl ⟨e', hold, rfl⟩
  | phase hexec hact _ _ => exact hone hexec hact
  | reject _ _ hexec _ => exact hone hexec (Execution.moveTo_activation ..)
  | execute hexec _ => exact hone hexec (Execution.moveTo_activation ..)
  | iterate hexec _ _ => exact hone hexec (Execution.moveTo_activation ..)
  | record _ hexec _ => exact hone hexec (Execution.moveTo_activation ..)
  | pause hexec _ _ => exact hone hexec (Execution.moveTo_activation ..)
  | fail _ _ hexec _ => exact hone hexec (Execution.moveTo_activation ..)
  | finish hexec _ _ => exact hone hexec (Execution.moveTo_activation ..)
  | ackCompleted hexec _ _ _ => exact hone hexec (Execution.moveTo_activation ..)
  | @done w e hexec _ =>
    refine ⟨fun w' e' he' => ?_, fun _ => .inl, fun _ _ _ _ => .inl⟩
    rcases update_cases he' with ⟨-, heq⟩ | ⟨-, hold⟩
    · cases heq
    · exact .inl ⟨e', hold, rfl⟩
  | _ => exact ⟨hsame, fun _ => .inl, fun _ _ _ _ => .inl⟩

/-- The supervisor acts, or may still act, under the token. -/
def Supervisor.Handles (s : Supervisor) (token : String) : Prop :=
  (∃ a, s.poll.dispatch = some a ∧ a.token = token) ∨
  (∃ w e, s.executions w = some e ∧ e.activation.token = token) ∨
  ∃ r ∈ s.renewals, r.activation.token = token

section

variable {cfg : Config} {m : Moment} {s : Supervisor} {leases : LeaseTable} {events : List Event}
  {d : Dealings}

/-- Where a renewal comes from: it was under way, or an execution without one began it. -/
theorem Deal.renewal (h : Deal cfg m s leases events d) {r : Renewal} (hr : r ∈ d.renewals) :
    (∃ r₀ ∈ s.renewals, r.activation = r₀.activation ∧ r.now = r₀.now ∧
      (r.leaseRenewed = none → r₀.leaseRenewed = none)) ∨
    ∃ w e, s.executions w = some e ∧ r.activation = e.activation ∧ r.now = m.now := by
  have hold : r ∈ s.renewals → (∃ r₀ ∈ s.renewals, r.activation = r₀.activation ∧
      r.now = r₀.now ∧ (r.leaseRenewed = none → r₀.leaseRenewed = none)) :=
    fun hmem => ⟨r, hmem, rfl, rfl, id⟩
  cases h with
  | begin claimRenewed hexec _ _ =>
    rcases List.mem_append.mp hr with hmem | hmem
    · exact .inl (hold hmem)
    · rw [List.mem_singleton.mp hmem]
      exact .inr ⟨_, _, hexec, rfl, rfl⟩
  | @renew k r₀ op renewals hk hpending hop hor =>
    have hr : r ∈ renewals := hr
    rcases hor with rfl | ⟨answer, rfl⟩
    · exact .inl (hold (List.mem_of_mem_eraseIdx hr))
    · rcases List.mem_or_eq_of_mem_set hr with hmem | rfl
      · exact .inl (hold hmem)
      · exact .inl ⟨r₀, List.mem_of_getElem? hk, rfl, rfl, fun hnone => (by cases hnone)⟩
  | answered k => exact .inl (hold (List.mem_of_mem_eraseIdx hr))
  | _ => exact .inl (hold hr)

/-- A token has one renewal under way at most. -/
theorem Deal.renewals_nodup (h : Deal cfg m s leases events d)
    (hnodup : (s.renewals.map fun r => r.activation.token).Nodup) :
    (d.renewals.map fun r => r.activation.token).Nodup := by
  have herase : ∀ k, ((s.renewals.eraseIdx k).map fun r => r.activation.token).Nodup :=
    fun k => hnodup.sublist ((List.eraseIdx_sublist ..).map _)
  cases h with
  | @begin events w e claimRenewed hexec hnew _ =>
    show ((s.renewals ++ [_]).map fun r : Renewal => r.activation.token).Nodup
    rw [List.map_append, List.map_singleton]
    refine List.nodup_append.mpr ⟨hnodup, List.nodup_singleton _, ?_⟩
    intro token hmem token' hmem'
    rw [List.mem_singleton.mp hmem']
    obtain ⟨r, hr, rfl⟩ := List.mem_map.mp hmem
    exact hnew r hr
  | @renew k r₀ op renewals hk hpending hop hor =>
    show (renewals.map fun r => r.activation.token).Nodup
    rcases hor with rfl | ⟨answer, rfl⟩
    · exact herase k
    · rw [List.map_set]
      have hsame : (s.renewals.map fun r => r.activation.token).set k r₀.activation.token =
          s.renewals.map fun r => r.activation.token := by
        refine List.ext_getElem? fun n => ?_
        rw [List.getElem?_set]
        split
        · next heq =>
          subst heq
          rw [List.getElem?_map, hk]
          split
          · rfl
          · next hlt =>
            have := (List.getElem?_eq_some_iff.mp hk).1
            rw [List.length_map] at hlt
            omega
        · rfl
      rw [hsame]
      exact hnodup
  | answered k => exact herase k
  | _ => exact hnodup

/-- What a segment does to the lease of a goal. -/
inductive LeaseFate (cfg : Config) (s : Supervisor) (events : List Event) (goalId : String) :
    Option GoalLeaseRecord → Option GoalLeaseRecord → Prop
  | same (lease : Option GoalLeaseRecord) : LeaseFate cfg s events goalId lease lease
  | acquired {lease : Option GoalLeaseRecord} {w : WorkerId} {a : Activation} {now : Millis}
      {rest : List WorkerId} {r : GoalLeaseRecord} :
      s.poll = .acquiring w a now rest →
      (∀ current ∈ lease, current.leaseUntil.millis ≤ now) → r.ownerToken = a.token →
      r.leaseUntil.millis = now + cfg.supervisor.claimLeaseMs →
      LeaseFate cfg s events goalId lease (some r)
  | renewed {current r : GoalLeaseRecord} {ρ : Renewal} :
      ρ ∈ s.renewals → ρ.leaseRenewed = none → ρ.activation.token = current.ownerToken →
      r.ownerToken = current.ownerToken → r.attemptId = current.attemptId →
      r.leaseUntil.millis = ρ.now + cfg.supervisor.claimLeaseMs →
      LeaseFate cfg s events goalId (some current) (some r)
  | released {current : GoalLeaseRecord} :
      Event.lease (.release goalId current.ownerToken) (.released true) ∈ events →
      LeaseFate cfg s events goalId (some current) none

/-- **What a segment can do to a lease.** -/
theorem Deal.lease (h : Deal cfg m s leases events d) (goalId : String) :
    LeaseFate cfg s events goalId (leases.get? goalId) (d.leases.get? goalId) := by
  cases h with
  | @acquire w a now rest op hpoll hop =>
    have hchange := perform_change cfg.defaultLeaseMs leases op goalId
    show LeaseFate cfg s _ goalId _ ((perform cfg.defaultLeaseMs leases op).1.get? goalId)
    revert hchange
    generalize (perform cfg.defaultLeaseMs leases op).1.get? goalId = after
    generalize leases.get? goalId = before
    intro hchange
    subst hop
    cases hchange with
    | kept => exact .same _
    | acquired hop _ hexp hbuild =>
      cases hop
      obtain ⟨howner, -, huntil⟩ := buildRecord_spec hbuild
      exact .acquired hpoll hexp howner huntil
    | renewed hop => cases hop
    | released hop => cases hop
    | reaped hop => cases hop
  | @release g token op hop =>
    have hchange := perform_change cfg.defaultLeaseMs leases op goalId
    show LeaseFate cfg s [.lease op (perform cfg.defaultLeaseMs leases op).2] goalId _
      ((perform cfg.defaultLeaseMs leases op).1.get? goalId)
    revert hchange
    generalize (perform cfg.defaultLeaseMs leases op).1.get? goalId = after
    generalize leases.get? goalId = before
    generalize (perform cfg.defaultLeaseMs leases op).2 = out
    intro hchange
    subst hop
    cases hchange with
    | kept => exact .same _
    | acquired hop => cases hop
    | renewed hop => cases hop
    | released hop hout =>
      cases hop
      exact .released (by rw [hout]; exact List.mem_singleton_self _)
    | reaped hop => cases hop
  | @renew k ρ op renewals hk hpending hop hor =>
    have hchange := perform_change cfg.defaultLeaseMs leases op goalId
    show LeaseFate cfg s _ goalId _ ((perform cfg.defaultLeaseMs leases op).1.get? goalId)
    revert hchange
    generalize (perform cfg.defaultLeaseMs leases op).1.get? goalId = after
    generalize leases.get? goalId = before
    intro hchange
    subst hop
    cases hchange with
    | kept => exact .same _
    | acquired hop => cases hop
    | renewed hop _ _ hrenewed =>
      obtain ⟨-, htoken, rfl, rfl⟩ := LeaseOp.renew.inj hop
      obtain ⟨howner, hattempt, huntil⟩ := renewed_spec hrenewed
      exact .renewed (List.mem_of_getElem? hk) hpending htoken howner hattempt huntil
    | released hop => cases hop
    | reaped hop => cases hop
  | _ => exact .same _

end

/-! ## The leases of the system -/

section

variable {ι : Type} {cfg : SystemConfig ι} {a b : World ι}

/-- Tokens, renewals and leases hang together. -/
structure Leased (cfg : SystemConfig ι) (world : World ι) : Prop where
  issued : ∀ i token, (world.sups i).Handles token → token ∈ world.issued
  /-- A token is handled by one supervisor. -/
  apart : ∀ i j token, (world.sups i).Handles token → (world.sups j).Handles token → i = j
  /-- What the poll deals with has no execution and no renewal yet. -/
  polled : ∀ i a, (world.sups i).poll.dispatch = some a →
    (∀ w e, (world.sups i).executions w = some e → e.activation.token ≠ a.token) ∧
      ∀ r ∈ (world.sups i).renewals, r.activation.token ≠ a.token
  alone : ∀ i, ((world.sups i).renewals.map fun r => r.activation.token).Nodup
  /-- The clock readings that wait for a transaction are in the past. -/
  read : ∀ i, (∀ r ∈ (world.sups i).renewals, r.now ≤ world.now) ∧
    ∀ w a now rest, (world.sups i).poll = .acquiring w a now rest → now ≤ world.now
  owners : ∀ g r, world.leases.get? g = some r → r.ownerToken ∈ world.issued
  /-- A renewal under way will not shorten the lease. -/
  lease : ∀ g r, world.leases.get? g = some r → ∀ i, (world.sups i).Handles r.ownerToken →
    r.leaseUntil.millis ≤ world.now + (cfg.supervisor i).claimLeaseMs ∧
      ∀ ρ ∈ (world.sups i).renewals, ρ.activation.token = r.ownerToken →
        ρ.leaseRenewed = none → r.leaseUntil.millis ≤ ρ.now + (cfg.supervisor i).claimLeaseMs

theorem leased_start (cfg : SystemConfig ι) (now : Millis)
    (crashCounts : ι → ObjectMap String Nat) : Leased cfg (World.start cfg now crashCounts) := by
  have hnone : ∀ i token, ¬ ((World.start cfg now crashCounts).sups i).Handles token := by
    rintro i token (⟨a, ha, -⟩ | ⟨w, e, he, -⟩ | ⟨r, hr, -⟩)
    · cases ha
    · cases he
    · cases hr
  exact
    { issued := fun i token h => absurd h (hnone i token)
      apart := fun i j token h _ => absurd h (hnone i token)
      polled := fun i a ha => (by cases ha)
      alone := fun i => List.nodup_nil
      read := fun i => ⟨fun r hr => (by cases hr), fun w a now rest hp => (by cases hp)⟩
      owners := fun g r hr => (by cases hr)
      lease := fun g r hr => (by cases hr) }

/-- Time passes, leases disappear, the supervisors stay as they are. -/
theorem Leased.pass (h : Leased cfg a) (hsups : b.sups = a.sups) (hnow : a.now ≤ b.now)
    (hissued : a.issued ⊆ b.issued)
    (hleases : ∀ g r, b.leases.get? g = some r → a.leases.get? g = some r) : Leased cfg b where
  issued i token := by
    rw [hsups]
    exact fun hh => hissued (h.issued i token hh)
  apart := by
    rw [hsups]
    exact h.apart
  polled := by
    rw [hsups]
    exact h.polled
  alone := by
    rw [hsups]
    exact h.alone
  read i := by
    rw [hsups]
    exact ⟨fun r hr => ((h.read i).1 r hr).trans hnow,
      fun w a now rest hp => ((h.read i).2 w a now rest hp).trans hnow⟩
  owners g r hr := hissued (h.owners g r (hleases g r hr))
  lease g r hr i := by
    rw [hsups]
    intro hh
    obtain ⟨hle, hrenewals⟩ := h.lease g r (hleases g r hr) i hh
    exact ⟨by linarith, hrenewals⟩

variable [DecidableEq ι] {l : Label ι}

/-- After a segment, a supervisor handles the tokens it handled before, and the one of
its claim. -/
theorem handles_step {cfg : Config} {m : Moment} {s s' : Supervisor} {leases : LeaseTable}
    {events : List Event} {d : Dealings} (horigin : Origin m s.core s'.core)
    (hdeal : Deal cfg m s leases events d) (hrenewals : d.renewals = s'.renewals)
    {token : String} (h : s'.Handles token) : s.Handles token ∨ token = m.uuid.val := by
  have hexec : ∀ {w e}, s'.executions w = some e → s.Handles e.activation.token := by
    intro w e he
    rcases horigin.executions w e he with ⟨e₀, he₀, hact⟩ | ⟨hdispatch, -⟩
    · exact .inr (.inl ⟨w, e₀, he₀, by rw [hact]⟩)
    · exact .inl ⟨_, hdispatch, rfl⟩
  rcases h with ⟨a, ha, rfl⟩ | ⟨w, e, he, rfl⟩ | ⟨r, hr, rfl⟩
  · rcases horigin.poll a ha with hold | hnew
    · exact .inl (.inl ⟨a, hold, rfl⟩)
    · exact .inr hnew
  · exact .inl (hexec he)
  · rw [← hrenewals] at hr
    rcases hdeal.renewal hr with ⟨r₀, hr₀, hact, -, -⟩ | ⟨w, e, he, hact, -⟩
    · exact .inl (.inr (.inr ⟨r₀, hr₀, by rw [hact]⟩))
    · exact .inl (.inr (.inl ⟨w, e, he, by rw [hact]⟩))

section

variable {i : ι} {m : Moment} {t : Turn} (h : Leased cfg a) (hnow : a.now ≤ m.now)
  (hfresh : m.uuid.val ∉ a.issued) (horigin : Origin m (a.sups i).core t.sup.core)
  (hdeal : Deal (cfg.config i) m (a.sups i) a.leases t.events t.dealings)

omit [DecidableEq ι] in
include h hfresh in
theorem Leased.handles_ne {j : ι} {token : String} (hh : (a.sups j).Handles token) :
    token ≠ m.uuid.val := by
  rintro rfl
  exact hfresh (h.issued j _ hh)

include horigin hdeal in
/-- Whoever handles a token after the segment handled it before, or has just drawn it. -/
theorem handles_acted {j : ι} {token : String}
    (hh : ((a.withTurn i m t).sups j).Handles token) :
    (a.sups j).Handles token ∨ j = i ∧ token = m.uuid.val := by
  by_cases hj : j = i
  · subst hj
    rw [World.withTurn_self] at hh
    exact (handles_step horigin hdeal rfl hh).imp_right fun heq => ⟨rfl, heq⟩
  · rw [World.withTurn_other hj] at hh
    exact .inl hh

omit [DecidableEq ι] in
include hdeal in
/-- A renewal after the segment is one from before, or of an execution from before. -/
theorem renewal_acted {r : Renewal} (hr : r ∈ t.sup.renewals) :
    (∃ r₀ ∈ (a.sups i).renewals, r.activation = r₀.activation ∧ r.now = r₀.now ∧
      (r.leaseRenewed = none → r₀.leaseRenewed = none)) ∨
    ∃ w e, (a.sups i).executions w = some e ∧ r.activation = e.activation ∧ r.now = m.now :=
  hdeal.renewal hr

include h hfresh horigin hdeal in
theorem Leased.apart_acted {j k : ι} {token : String}
    (hj : ((a.withTurn i m t).sups j).Handles token)
    (hk : ((a.withTurn i m t).sups k).Handles token) : j = k := by
  rcases handles_acted horigin hdeal hj with hold | ⟨rfl, rfl⟩
  · rcases handles_acted horigin hdeal hk with hold' | ⟨rfl, rfl⟩
    · exact h.apart j k token hold hold'
    · exact absurd rfl (h.handles_ne hfresh hold)
  · rcases handles_acted horigin hdeal hk with hold' | ⟨rfl, -⟩
    · exact absurd rfl (h.handles_ne hfresh hold')
    · rfl

omit [DecidableEq ι] in
include h hfresh horigin hdeal in
/-- What the poll deals with after the segment it has dealt with before, or claims now. -/
theorem Leased.polled_acted {a' : Activation} (ha' : t.sup.poll.dispatch = some a') :
    (∀ w e, t.sup.executions w = some e → e.activation.token ≠ a'.token) ∧
      ∀ r ∈ t.sup.renewals, r.activation.token ≠ a'.token := by
  have hrun : ∀ {w e}, (a.sups i).executions w = some e → e.activation.token ≠ a'.token := by
    intro w e he
    rcases horigin.poll a' ha' with hold | hclaimed
    · exact (h.polled i a' hold).1 w e he
    · rw [hclaimed]
      exact h.handles_ne hfresh (.inr (.inl ⟨w, e, he, rfl⟩))
  refine ⟨fun w e he => ?_, fun r hr => ?_⟩
  · rcases horigin.executions w e he with ⟨e₀, he₀, hact⟩ | ⟨hdispatch, hnext⟩
    · rw [hact]
      exact hrun he₀
    · rw [hnext a' ha']
      exact h.handles_ne hfresh (.inl ⟨_, hdispatch, rfl⟩)
  · rcases renewal_acted hdeal hr with ⟨r₀, hr₀, hact, -, -⟩ | ⟨w, e, he, hact, -⟩
    · rw [hact]
      rcases horigin.poll a' ha' with hold | hclaimed
      · exact (h.polled i a' hold).2 r₀ hr₀
      · rw [hclaimed]
        exact h.handles_ne hfresh (.inr (.inr ⟨r₀, hr₀, rfl⟩))
    · rw [hact]
      exact hrun he

omit [DecidableEq ι] in
include h hnow horigin hdeal in
theorem Leased.read_acted :
    (∀ r ∈ t.sup.renewals, r.now ≤ m.now) ∧
      ∀ w a' now rest, t.sup.poll = .acquiring w a' now rest → now ≤ m.now := by
  refine ⟨fun r hr => ?_, fun w a' now rest hp => ?_⟩
  · rcases renewal_acted hdeal hr with ⟨r₀, hr₀, -, hread, -⟩ | ⟨w, e, -, -, hread⟩
    · rw [hread]
      exact ((h.read i).1 r₀ hr₀).trans hnow
    · rw [hread]
  · rcases horigin.acquiring w a' now rest hp with hold | rfl
    · exact ((h.read i).2 w a' now rest hold).trans hnow
    · exact le_refl _

omit [DecidableEq ι] in
include h hdeal in
/-- The owner of a lease has drawn its token before the segment. -/
theorem Leased.owners_acted {g : String} {r : GoalLeaseRecord}
    (hr : t.dealings.leases.get? g = some r) : r.ownerToken ∈ a.issued := by
  have hfate := hdeal.lease g
  rw [hr] at hfate
  generalize hlease : a.leases.get? g = lease at hfate
  cases hfate with
  | same => exact h.owners g r hlease
  | @acquired _ w a₀ now rest _ hpoll _ howner _ =>
    rw [howner]
    exact h.issued i _ (.inl ⟨a₀, by rw [hpoll]; rfl, rfl⟩)
  | @renewed current _ ρ _ _ _ howner _ _ =>
    rw [howner]
    exact h.owners g current hlease

include h hnow hfresh horigin hdeal in
/-- The lease of a token that a supervisor handles ends in time for its renewals. -/
theorem Leased.lease_acted {g : String} {r : GoalLeaseRecord}
    (hr : t.dealings.leases.get? g = some r) {j : ι}
    (hh : ((a.withTurn i m t).sups j).Handles r.ownerToken) :
    r.leaseUntil.millis ≤ m.now + (cfg.supervisor j).claimLeaseMs ∧
      ∀ ρ ∈ ((a.withTurn i m t).sups j).renewals, ρ.activation.token = r.ownerToken →
        ρ.leaseRenewed = none →
          r.leaseUntil.millis ≤ ρ.now + (cfg.supervisor j).claimLeaseMs := by
  have hold : (a.sups j).Handles r.ownerToken :=
    (handles_acted horigin hdeal hh).resolve_right fun ⟨_, heq⟩ =>
      hfresh (heq ▸ h.owners_acted hdeal hr)
  have hfate := hdeal.lease g
  rw [hr] at hfate
  generalize hlease : a.leases.get? g = lease at hfate
  cases hfate with
  | same =>
    obtain ⟨hle, hrenewals⟩ := h.lease g r hlease j hold
    refine ⟨by linarith, ?_⟩
    by_cases hj : j = i
    · subst hj
      rw [World.withTurn_self]
      intro ρ hρ htoken hpending
      rcases renewal_acted hdeal hρ with ⟨ρ₀, hρ₀, hact, hread, himp⟩ | ⟨w, e, -, -, hread⟩
      · rw [hread]
        exact hrenewals ρ₀ hρ₀ (hact ▸ htoken) (himp hpending)
      · rw [hread]
        linarith
    · rw [World.withTurn_other hj]
      exact hrenewals
  | @acquired _ w a₀ now rest _ hpoll _ howner huntil =>
    -- the claim of the supervisor's own poll, which has no renewal yet
    rw [howner] at hold ⊢
    obtain rfl : j = i := h.apart j i _ hold (.inl ⟨a₀, by rw [hpoll]; rfl, rfl⟩)
    obtain ⟨hexecs, hrenewals⟩ := h.polled j a₀ (by rw [hpoll]; rfl)
    have hread := (h.read j).2 w a₀ now rest hpoll
    have huntil : r.leaseUntil.millis = now + (cfg.supervisor j).claimLeaseMs := huntil
    refine ⟨by linarith, ?_⟩
    rw [World.withTurn_self]
    intro ρ hρ htoken hpending
    rcases renewal_acted hdeal hρ with ⟨ρ₀, hρ₀, hact, -, -⟩ | ⟨w', e, he, hact, -⟩
    · exact absurd (hact ▸ htoken) (hrenewals ρ₀ hρ₀)
    · exact absurd (hact ▸ htoken) (hexecs w' e he)
  | @renewed current _ ρ₁ hρ₁ hpending₁ htoken₁ howner _ huntil =>
    obtain rfl : j = i := h.apart j i _ hold (.inr (.inr ⟨ρ₁, hρ₁, htoken₁.trans howner.symm⟩))
    have hread₁ := (h.read j).1 ρ₁ hρ₁
    have huntil : r.leaseUntil.millis = ρ₁.now + (cfg.supervisor j).claimLeaseMs := huntil
    refine ⟨by linarith, ?_⟩
    rw [World.withTurn_self]
    intro ρ hρ htoken hpending
    rcases renewal_acted hdeal hρ with ⟨ρ₀, hρ₀, hact, hread, -⟩ | ⟨w, e, -, -, hread⟩
    · -- it is the renewal that has just been answered
      have heq : ρ₀ = ρ₁ := by
        refine List.inj_on_of_nodup_map (h.alone j) hρ₀ hρ₁ ?_
        rw [htoken₁, ← howner, ← htoken, hact]
      rw [hread, heq, huntil]
    · rw [hread]
      linarith

include h hnow hfresh horigin hdeal in
/-- **A segment keeps the leases in order.** -/
theorem Leased.acted : Leased cfg (a.withTurn i m t) where
  issued j token hh := by
    rcases handles_acted horigin hdeal hh with hold | ⟨-, rfl⟩
    · exact List.mem_cons_of_mem _ (h.issued j token hold)
    · exact List.mem_cons_self ..
  apart j k token hj hk := h.apart_acted hfresh horigin hdeal hj hk
  polled j a' ha' := by
    by_cases hj : j = i
    · subst hj
      rw [World.withTurn_self] at ha' ⊢
      exact h.polled_acted hfresh horigin hdeal ha'
    · rw [World.withTurn_other hj] at ha' ⊢
      exact h.polled j a' ha'
  alone j := by
    by_cases hj : j = i
    · subst hj
      rw [World.withTurn_self]
      exact hdeal.renewals_nodup (h.alone j)
    · rw [World.withTurn_other hj]
      exact h.alone j
  read j := by
    by_cases hj : j = i
    · subst hj
      rw [World.withTurn_self]
      exact h.read_acted hnow horigin hdeal
    · rw [World.withTurn_other hj]
      exact ⟨fun r hr => ((h.read j).1 r hr).trans hnow,
        fun w a' now rest hp => ((h.read j).2 w a' now rest hp).trans hnow⟩
  owners g r hr := List.mem_cons_of_mem _ (h.owners_acted hdeal hr)
  lease g r hr j hh := h.lease_acted hnow hfresh horigin hdeal hr hh

end

theorem leased_step (hstep : (systemLTS cfg).step a l b) (h : Leased cfg a) : Leased cfg b := by
  cases step_cases hstep with
  | refused => exact h
  | acted _ hnow hfresh hact _ =>
    exact h.acted hnow hfresh (act_move hact rfl).origin (act_deals hact rfl).2
  | queue _ hnow _ =>
    exact h.pass rfl hnow (List.subset_cons_self _ _) fun _ _ hr => hr
  | @reaped now _ hnow _ _ =>
    refine h.pass rfl hnow (List.subset_cons_self _ _) fun g r hr => ?_
    have hr : (dropStale now a.leases).get? g = some r := hr
    rw [get?_dropStale] at hr
    exact (Option.filter_eq_some_iff.mp hr).1

theorem SystemRun.leased {now : Millis} {crashCounts : ι → ObjectMap String Nat}
    {history : List (Label ι)} {world : World ι}
    (h : SystemRun cfg now crashCounts history world) : Leased cfg world :=
  LTS.Run.invariant h (leased_start cfg now crashCounts) fun _ _ _ hstep ha =>
    leased_step hstep ha

/-! ## A lease that has not expired -/

/-- The lease of the goal is held by the owner and the attempt of `r`, at least as long. -/
def HeldOn (world : World ι) (g : String) (r : GoalLeaseRecord) : Prop :=
  ∃ r', world.leases.get? g = some r' ∧ r'.ownerToken = r.ownerToken ∧
    r'.attemptId = r.attemptId ∧ r.leaseUntil.millis ≤ r'.leaseUntil.millis

/-- The owner of `r` released the lease of the goal. -/
def ReleasedIn (history : List (Label ι)) (g : String) (r : GoalLeaseRecord) : Prop :=
  ∃ l ∈ history, Event.lease (.release g r.ownerToken) (.released true) ∈ l.2

theorem step_now (hstep : (systemLTS cfg).step a l b) : a.now ≤ b.now := by
  cases step_cases hstep with
  | refused => exact le_refl _
  | acted _ hnow _ _ _ => exact hnow
  | queue _ hnow _ => exact hnow
  | reaped _ hnow _ _ => exact hnow

/-- **A lease stays with its owner until it expires**, unless the owner releases it. -/
theorem held_step (hstep : (systemLTS cfg).step a l b) (h : Leased cfg a) {g : String}
    {r : GoalLeaseRecord} (hget : a.leases.get? g = some r) (hlive : b.now < r.leaseUntil.millis) :
    HeldOn b g r ∨ ReleasedIn [l] g r := by
  cases step_cases hstep with
  | refused => exact .inl ⟨r, hget, rfl, rfl, le_refl _⟩
  | @acted i action t _ hnow _ hact hev =>
    have hdeal := (act_deals hact rfl).2
    have hfate := hdeal.lease g
    have hlive : l.1.moment.now < r.leaseUntil.millis := hlive
    rw [show (⟨a.table, a.leases, a.sups i, []⟩ : Turn).leases.get? g = some r from hget] at hfate
    generalize hafter : t.dealings.leases.get? g = after at hfate
    cases hfate with
    | same => exact .inl ⟨r, hafter, rfl, rfl, le_refl _⟩
    | @acquired _ w a₀ now rest _ hpoll hexp _ _ =>
      -- it captured the clock before, when the lease had not expired either
      have hread := (h.read i).2 w a₀ now rest hpoll
      have := hexp r rfl
      linarith
    | @renewed _ r' ρ hρ hpending htoken howner hattempt huntil =>
      refine .inl ⟨r', hafter, howner, hattempt, ?_⟩
      rw [huntil]
      exact (h.lease g r hget i (.inr (.inr ⟨ρ, hρ, htoken⟩))).2 ρ hρ htoken hpending
    | released hmem => exact .inr ⟨l, List.mem_singleton_self _, hev ▸ hmem⟩
  | queue _ _ _ => exact .inl ⟨r, hget, rfl, rfl, le_refl _⟩
  | @reaped now _ _ hle _ =>
    have hlive : l.1.moment.now < r.leaseUntil.millis := hlive
    refine .inl ⟨r, ?_, rfl, rfl, le_refl _⟩
    show (dropStale now a.leases).get? g = some r
    rw [get?_dropStale, hget, Option.filter_some_pos]
    simpa using lt_of_le_of_lt hle hlive

/-- The same over a run. -/
theorem held_run {ls : List (Label ι)} (hrun : (systemLTS cfg).Run a ls b) (h : Leased cfg a)
    {g : String} {r : GoalLeaseRecord} (hget : a.leases.get? g = some r)
    (hlive : b.now < r.leaseUntil.millis) : HeldOn b g r ∨ ReleasedIn ls g r := by
  suffices key : Leased cfg b ∧ (b.now < r.leaseUntil.millis → HeldOn b g r ∨ ReleasedIn ls g r)
    from key.2 hlive
  refine LTS.Run.history (P := fun ls b => Leased cfg b ∧
    (b.now < r.leaseUntil.millis → HeldOn b g r ∨ ReleasedIn ls g r)) hrun
    ⟨h, fun _ => .inl ⟨r, hget, rfl, rfl, le_refl _⟩⟩ ?_
  rintro hist c l d - hstep ⟨hc, ih⟩
  refine ⟨leased_step hstep hc, fun hlive => ?_⟩
  rcases ih (lt_of_le_of_lt (step_now hstep) hlive) with ⟨r', hr', howner, hattempt, hle⟩ | hreleased
  · rcases held_step hstep hc hr' (lt_of_lt_of_le hlive hle) with hheld | hreleased
    · obtain ⟨r'', hr'', howner', hattempt', hle'⟩ := hheld
      exact .inl ⟨r'', hr'', howner'.trans howner, hattempt'.trans hattempt, hle.trans hle'⟩
    · obtain ⟨l', hl', hmem⟩ := hreleased
      rw [howner] at hmem
      exact .inr ⟨l', List.mem_append_right _ hl', hmem⟩
  · obtain ⟨l', hl', hmem⟩ := hreleased
    exact .inr ⟨l', List.mem_append_left _ hl', hmem⟩

end

/-! ## Fenced writes -/

section

variable {cfg : Config} {m : Moment} {s : Supervisor} {leases : LeaseTable} {events : List Event}
  {d : Dealings} {g : String} {fence : Activation}

/-- A fence decides on a lease it has read. -/
theorem Deal.decides (h : Deal cfg m s leases events d) {current : Option GoalLeaseRecord}
    (hwrite : d.writes.get? g = some (.deciding fence current)) :
    s.writes.get? g = some (.deciding fence current) ∨
      current = leases.get? g ∧ events = [.lease (.read g) (.read current)] := by
  have hdelete : ∀ {goalId}, (s.writes.delete goalId).get? g = some (.deciding fence current) →
      s.writes.get? g = some (.deciding fence current) := by
    intro goalId hget
    rw [ObjectMap.get?_delete] at hget
    split at hget
    · cases hget
    · exact hget
  cases h with
  | @fence goalId fence' _ =>
    have hwrite : (s.writes.set goalId (.reading fence')).get? g = _ := hwrite
    rw [ObjectMap.get?_set] at hwrite
    split at hwrite
    · cases hwrite
    · exact .inl hwrite
  | @read goalId fence' op hreading hop =>
    subst hop
    have hwrite : (s.writes.set goalId (.deciding fence' (leases.get? goalId))).get? g = _ := hwrite
    rw [ObjectMap.get?_set] at hwrite
    split at hwrite
    · next hg =>
      subst hg
      cases hwrite
      exact .inr ⟨rfl, rfl⟩
    · exact .inl hwrite
  | reject goalId _ => exact .inl (hdelete hwrite)
  | write _ _ => exact .inl (hdelete hwrite)
  | _ => exact .inl hwrite

/-- A write passes a fence that has read the lease and holds on what it read. -/
theorem Deal.written (h : Deal cfg m s leases events d)
    (hmem : Event.written g (some fence) ∈ events) :
    ∃ current, s.writes.get? g = some (.deciding fence current) ∧
      fenceHolds m fence current = true := by
  have hunleased : Unleased events → False := by
    intro hnone
    have hfalse := hnone _ hmem
    cases hfalse
  cases h with
  | kept hnone => exact (hunleased hnone).elim
  | begin _ _ _ hnone => exact (hunleased hnone).elim
  | answered => cases hmem
  | fence => cases hmem
  | reject _ hnone => exact (hunleased hnone).elim
  | write hwrite hholds =>
    cases List.mem_singleton.mp hmem
    exact ⟨_, hwrite, hholds⟩
  | _ => cases List.mem_singleton.mp hmem

/-- A segment acquires a lease for its poll. -/
theorem Deal.acquired (h : Deal cfg m s leases events d) {opts : AcquireOptions} {n : Millis}
    {out : LeaseOutcome} (hmem : Event.lease (.acquire g opts n) out ∈ events) :
    (∃ w a rest, s.poll = .acquiring w a n rest) ∧
      out = (perform cfg.defaultLeaseMs leases (.acquire g opts n)).2 := by
  have hunleased : Unleased events → False := by
    intro hnone
    have hfalse := hnone _ hmem
    cases hfalse
  -- the only call of a segment is another one
  have hother : ∀ {op}, Event.lease (.acquire g opts n) out ∈
      [Event.lease op (perform cfg.defaultLeaseMs leases op).2] → op = .acquire g opts n :=
    fun hmem => by cases List.mem_singleton.mp hmem; rfl
  cases h with
  | kept hnone => exact (hunleased hnone).elim
  | @acquire w a now rest op hpoll hop =>
    obtain rfl := hother hmem
    cases hop
    cases List.mem_singleton.mp hmem
    exact ⟨⟨w, a, rest, hpoll⟩, rfl⟩
  | release hop =>
    subst hop
    cases hother hmem
  | begin _ _ _ hnone => exact (hunleased hnone).elim
  | renew _ _ hop _ =>
    subst hop
    cases hother hmem
  | answered => cases hmem
  | fence => cases hmem
  | read _ hop =>
    subst hop
    cases hother hmem
  | reject _ hnone => exact (hunleased hnone).elim
  | write => cases List.mem_singleton.mp hmem

theorem fenceHolds_iff {current : Option GoalLeaseRecord} (h : fenceHolds m fence current = true) :
    ∃ r, current = some r ∧ r.ownerToken = fence.token ∧ r.attemptId = fence.token ∧
      m.now < r.leaseUntil.millis := by
  cases current with
  | none => cases h
  | some r => exact ⟨r, rfl, by simpa [fenceHolds] using h⟩

end

section

variable {ι : Type} [DecidableEq ι] {cfg : SystemConfig ι} {now : Millis}
  {crashCounts : ι → ObjectMap String Nat} {history : List (Label ι)} {world world' : World ι}
  {l : Label ι}

/-- In the history, the fence of supervisor `i` read `current` as the lease of the goal. -/
def ReadIn (cfg : SystemConfig ι) (now : Millis) (crashCounts : ι → ObjectMap String Nat) (i : ι)
    (history : List (Label ι)) (g : String) (current : Option GoalLeaseRecord) : Prop :=
  ∃ before l after read, history = before ++ l :: after ∧
    SystemRun cfg now crashCounts before read ∧
    eventsOf i l = [.lease (.read g) (.read current)] ∧ read.leases.get? g = current

theorem SystemRun.read_before (h : SystemRun cfg now crashCounts history world) (i : ι)
    {g : String} {fence : Activation} {current : Option GoalLeaseRecord}
    (hwrite : (world.sups i).writes.get? g = some (.deciding fence current)) :
    ReadIn cfg now crashCounts i history g current := by
  revert hwrite
  refine LTS.Run.history (P := fun history world =>
    (world.sups i).writes.get? g = some (.deciding fence current) →
      ReadIn cfg now crashCounts i history g current) h (fun hwrite => by cases hwrite) ?_
  intro hist a l b hrun hstep ih hwrite
  have hold : (a.sups i).writes.get? g = some (.deciding fence current) →
      ReadIn cfg now crashCounts i (hist ++ [l]) g current := by
    intro hget
    obtain ⟨before, l', after, read, rfl, hread, hev, hcurrent⟩ := ih hget
    exact ⟨before, l', after ++ [l], read, by simp, hread, hev, hcurrent⟩
  cases step_cases hstep with
  | refused => exact hold hwrite
  | @acted j action t hparty _ _ hact hev =>
    by_cases hj : j = i
    · subst hj
      rw [World.withTurn_self] at hwrite
      rcases (act_deals hact rfl).2.decides hwrite with hget | ⟨hcurrent, hevents⟩
      · exact hold hget
      · exact ⟨hist, l, [], a, rfl, hrun, by rw [eventsOf_self hparty, hev, hevents],
          hcurrent.symm⟩
    · rw [World.withTurn_other (Ne.symm hj)] at hwrite
      exact hold hwrite
  | queue _ _ _ => exact hold hwrite
  | reaped _ _ _ _ => exact hold hwrite

/-- A lease that is acquired had expired by the clock. -/
theorem acquired_expired (hstep : (systemLTS cfg).step world l world') (h : Leased cfg world)
    {g : String} {opts : AcquireOptions} {n : Millis} {r : GoalLeaseRecord}
    (hmem : Event.lease (.acquire g opts n) (.acquired (some r)) ∈ l.2)
    {current : GoalLeaseRecord} (hget : world.leases.get? g = some current) :
    current.leaseUntil.millis ≤ l.1.moment.now := by
  cases step_cases hstep with
  | refused hev =>
    rw [hev] at hmem
    cases hmem
  | @acted i action t _ hnow _ hact hev =>
    rw [hev] at hmem
    obtain ⟨⟨w, a, rest, hpoll⟩, hout⟩ := (act_deals hact rfl).2.acquired hmem
    have hread := (h.read i).2 w a n rest hpoll
    have hexp := acquire_expired hout.symm current hget
    linarith
  | queue _ _ hev =>
    rw [hev] at hmem
    cases List.mem_singleton.mp hmem
  | reaped _ _ _ hev =>
    rw [hev] at hmem
    cases List.mem_singleton.mp hmem

/-- A write passes its fence on a lease that is held still, or has been released. -/
theorem written_held (h : SystemRun cfg now crashCounts history world)
    (hstep : (systemLTS cfg).step world l world') {i : ι} {g : String} {a : Activation}
    (hmem : Event.written g (some a) ∈ eventsOf i l) :
    ∃ before lread after read r, history = before ++ lread :: after ∧
      SystemRun cfg now crashCounts before read ∧
      eventsOf i lread = [.lease (.read g) (.read (some r))] ∧
      read.leases.get? g = some r ∧ r.ownerToken = a.token ∧ r.attemptId = a.token ∧
      l.1.moment.now < r.leaseUntil.millis ∧
      ((∃ r', world.leases.get? g = some r' ∧ r'.ownerToken = a.token ∧
          r'.attemptId = a.token ∧ l.1.moment.now < r'.leaseUntil.millis) ∨
        ∃ l' ∈ after, Event.lease (.release g a.token) (.released true) ∈ l'.2) := by
  obtain ⟨hnow, current, hwrite, hholds⟩ : world.now ≤ l.1.moment.now ∧
      ∃ current, (world.sups i).writes.get? g = some (.deciding a current) ∧
        fenceHolds l.1.moment a current = true := by
    cases step_cases hstep with
    | refused hev =>
      have := mem_of_mem_eventsOf hmem
      rw [hev] at this
      cases this
    | @acted j action t hparty hnow _ hact hev =>
      by_cases hj : j = i
      · subst hj
        rw [eventsOf_self hparty, hev] at hmem
        exact ⟨hnow, (act_deals hact rfl).2.written hmem⟩
      · rw [eventsOf_other hparty hj] at hmem
        cases hmem
    | queue hparty _ _ =>
      unfold eventsOf at hmem
      rw [hparty] at hmem
      cases hmem
    | reaped hparty _ _ _ =>
      unfold eventsOf at hmem
      rw [hparty] at hmem
      cases hmem
  obtain ⟨r, rfl, howner, hattempt, hlive⟩ := fenceHolds_iff hholds
  obtain ⟨before, lread, after, read, rfl, hread, hev, hget⟩ := h.read_before i hwrite
  refine ⟨before, lread, after, read, r, rfl, hread, hev, hget, howner, hattempt, hlive, ?_⟩
  obtain ⟨read', hbefore, hafter⟩ := LTS.Run.append_iff.mp h
  obtain rfl := LTS.Run.unique hread hbefore
  rcases held_run hafter (SystemRun.leased hread) hget (lt_of_le_of_lt hnow hlive) with
    ⟨r', hr', howner', hattempt', hle⟩ | ⟨l', hl', hreleased⟩
  · exact .inl ⟨r', hr', howner'.trans howner, hattempt'.trans hattempt, lt_of_lt_of_le hlive hle⟩
  · rw [howner] at hreleased
    refine .inr ⟨l', ?_, hreleased⟩
    rcases List.mem_cons.mp hl' with rfl | hmem'
    · -- the read is not a release
      rw [← eventsOf_eq (by rw [hev]; exact List.cons_ne_nil _ _), hev] at hreleased
      cases List.mem_singleton.mp hreleased
    · exact hmem'

/-- **Goal exclusivity.** In every state of every run of supervisors that share the
stores:
(a) within a supervisor, a goal has one execution;
(b) a renewal of a goal succeeds for one token at most, a renewal or a release by
anyone but the owner leaves the leases unchanged, and an acquisition succeeds only when
the goal has no unexpired lease, also by the clock at the time of its transaction;
(c) a write that passes the fence of an activation does so when its fence has read the
lease as held by the activation, that lease has not expired, and it is held by the
activation still, unless the activation released it after the read. -/
theorem goal_exclusivity (cfg : SystemConfig ι) (h : SystemRun cfg now crashCounts history world) :
    (∀ i w w' e e', (world.sups i).executions w = some e →
      (world.sups i).executions w' = some e' →
      e.activation.goalId = e'.activation.goalId → w = w') ∧
    ((∀ d g t t' leaseMs leaseMs' n n' r r',
        (perform d world.leases (.renew g t leaseMs n)).2 = .renewed (some r) →
        (perform d world.leases (.renew g t' leaseMs' n')).2 = .renewed (some r') → t = t') ∧
      (∀ d g t leaseMs n, (∀ r, world.leases.get? g = some r → r.ownerToken ≠ t) →
        (perform d world.leases (.renew g t leaseMs n)).1 = world.leases ∧
        (perform d world.leases (.release g t)).1 = world.leases) ∧
      (∀ d g opts n r, (perform d world.leases (.acquire g opts n)).2 = .acquired (some r) →
        ∀ current, world.leases.get? g = some current → current.leaseUntil.millis ≤ n) ∧
      ∀ l world', (systemLTS cfg).step world l world' →
        ∀ g opts n r, Event.lease (.acquire g opts n) (.acquired (some r)) ∈ l.2 →
          ∀ current, world.leases.get? g = some current →
            current.leaseUntil.millis ≤ l.1.moment.now) ∧
    ∀ l world', (systemLTS cfg).step world l world' →
      ∀ i g a, Event.written g (some a) ∈ eventsOf i l →
        ∃ before lread after read r, history = before ++ lread :: after ∧
          SystemRun cfg now crashCounts before read ∧
          eventsOf i lread = [.lease (.read g) (.read (some r))] ∧
          read.leases.get? g = some r ∧ r.ownerToken = a.token ∧ r.attemptId = a.token ∧
          l.1.moment.now < r.leaseUntil.millis ∧
          ((∃ r', world.leases.get? g = some r' ∧ r'.ownerToken = a.token ∧
              r'.attemptId = a.token ∧ l.1.moment.now < r'.leaseUntil.millis) ∨
            ∃ l' ∈ after, Event.lease (.release g a.token) (.released true) ∈ l'.2) := by
  refine ⟨fun i => (h.wired i).goals, ⟨?_, ?_, ?_, ?_⟩, ?_⟩
  · intro d g t t' leaseMs leaseMs' n n' r r' hr hr'
    obtain ⟨current, hget, rfl⟩ := renewed_owner hr
    obtain ⟨current', hget', rfl⟩ := renewed_owner hr'
    rw [Option.some.inj (hget.symm.trans hget')]
  · exact fun d g t leaseMs n hnot => ⟨renew_not_owner hnot, release_not_owner hnot⟩
  · exact fun d g opts n r hr current hget => acquire_expired hr current hget
  · exact fun l world' hstep g opts n r hmem current hget =>
      acquired_expired hstep h.leased hmem hget
  · exact fun l world' hstep i g a hmem => written_held h hstep hmem

end

/-! ## Sample runs -/

/-- Two supervisors with one worker each. -/
def twoSupervisors : SystemConfig Bool where
  supervisor := fun _ => { concurrency := 1 }

/-- The first supervisor is assigned a goal, and the fence of a write reads its lease. -/
def fencedWrite : List (Bool × Action) :=
  [(true, .activateGoal "g" {}), (true, .schedulePoll), (true, .poll), (true, .poll),
    (true, .poll), (true, .beginWrite "g"), (true, .fenceStep "g")]

/-- It is shut down and relinquishes the goal; the other one acquires the lease. -/
def staleWrite : List (Bool × Action) :=
  fencedWrite ++ [(true, .shutdown), (true, .abort), (true, .relinquish 0),
    (true, .releaseRelinquished 0), (false, .schedulePoll), (false, .poll), (false, .poll)]

/-- The token of the fence that an event has passed. -/
def Event.writtenToken : Event → Option String
  | .written "g" (some a) => some a.token
  | _ => none

theorem mem_written {events : List Event} {token : String}
    (h : token ∈ events.filterMap Event.writtenToken) :
    ∃ a : Activation, a.token = token ∧ Event.written "g" (some a) ∈ events := by
  obtain ⟨event, hmem, hwritten⟩ := List.mem_filterMap.mp h
  unfold Event.writtenToken at hwritten
  split at hwritten
  · cases hwritten
    exact ⟨_, rfl, hmem⟩
  · cases hwritten

/-- The history and the state at which the fence of a sample run decides. -/
def decided (segments : List (Bool × Action)) : List (Label Bool) × World Bool :=
  runRequests twoSupervisors (schedule segments)

/-- The step at which it decides, ten milliseconds later. -/
def decision (segments : List (Bool × Action)) : Label Bool :=
  let r : Request Bool := ⟨.supervisor true (.fenceStep "g"),
    sampleMoment (segments.length + 10 : ℕ) "decision"⟩
  (r, (World.advance twoSupervisors (decided segments).2 r).2)

theorem decided_run (segments : List (Bool × Action)) :
    SystemRun twoSupervisors 0 (fun _ => ObjectMap.empty) (decided segments).1
      (decided segments).2 :=
  runRequests_run _ _

theorem decision_step (segments : List (Bool × Action)) :
    (systemLTS twoSupervisors).step (decided segments).2 (decision segments)
      (World.advance twoSupervisors (decided segments).2 (decision segments).1).1 :=
  Prod.mk.eta.symm

/-- A write that passes its fence at once. -/
theorem goal_exclusivity_written :
    ∃ (a : Activation) (read : World Bool) (r : GoalLeaseRecord), a.token = "u1" ∧
      Event.written "g" (some a) ∈ eventsOf true (decision fencedWrite) ∧
      read.leases.get? "g" = some r ∧ r.ownerToken = a.token ∧
      (decision fencedWrite).1.moment.now < r.leaseUntil.millis := by
  obtain ⟨a, htoken, hmem⟩ := mem_written
    (show "u1" ∈ (eventsOf true (decision fencedWrite)).filterMap Event.writtenToken by
      decide +kernel)
  obtain ⟨-, -, hwrites⟩ := goal_exclusivity twoSupervisors (decided_run fencedWrite)
  obtain ⟨-, -, -, read, r, -, -, -, hget, howner, -, hlive, -⟩ :=
    hwrites _ _ (decision_step fencedWrite) true "g" a hmem
  exact ⟨a, read, r, htoken, hmem, hget, howner, hlive⟩

/-- A write passes its fence while another supervisor holds the lease. -/
theorem fence_stale :
    ∃ (history : List (Label Bool)) (world world' : World Bool) (l : Label Bool)
      (a : Activation) (r : GoalLeaseRecord),
      SystemRun twoSupervisors 0 (fun _ => ObjectMap.empty) history world ∧
      (systemLTS twoSupervisors).step world l world' ∧
      Event.written "g" (some a) ∈ eventsOf true l ∧
      world.leases.get? "g" = some r ∧ l.1.moment.now < r.leaseUntil.millis ∧
      r.ownerToken ≠ a.token := by
  obtain ⟨a, htoken, hmem⟩ := mem_written
    (show "u1" ∈ (eventsOf true (decision staleWrite)).filterMap Event.writtenToken by
      decide +kernel)
  have hlease : ∃ r ∈ (decided staleWrite).2.leases.get? "g",
      (decision staleWrite).1.moment.now < r.leaseUntil.millis ∧ r.ownerToken ≠ "u1" := by
    decide +kernel
  obtain ⟨r, hget, hlive, hother⟩ := hlease
  exact ⟨_, _, _, _, a, r, decided_run staleWrite, decision_step staleWrite, hmem, hget,
    hlive, htoken ▸ hother⟩

end PulSeed.Executor
