import PulSeed.Executor.Moves
import PulSeed.Lib.Transition

/-!
# Supervisors that share their stores

Any number of `LoopSupervisor`s work on one queue and one table of goal leases, in
any interleaving of their segments, with the calls that others make to the queue
and with `reapStale`. The clock never goes back, and `randomUUID()` returns a value
it has not returned before; a request that violates either, or that resumes
something that does not wait, is refused and changes nothing.

An instance is started once. A process that is started again is another instance,
which has not acted before.
-/

namespace PulSeed.Executor

open Queue GoalLease

/-- The settings of the stores and of each supervisor. -/
structure SystemConfig (ι : Type) where
  queue : QueueConfig := {}
  defaultLeaseMs : Millis := 30000
  supervisor : ι → SupervisorConfig := fun _ => {}

/-- The settings that concern one supervisor. -/
def SystemConfig.config {ι : Type} (cfg : SystemConfig ι) (i : ι) : Config where
  supervisor := cfg.supervisor i
  queue := cfg.queue
  defaultLeaseMs := cfg.defaultLeaseMs

/-- The stores, the clock, the values `randomUUID()` has returned, the supervisors. -/
structure World (ι : Type) where
  now : Millis
  table : Table
  leases : LeaseTable
  issued : List String
  sups : ι → Supervisor

/-- Who acts: a supervisor, another user of the queue, or a caller of `reapStale`,
whose default argument is the clock it read. -/
inductive Party (ι : Type)
  | supervisor (i : ι) (action : Action)
  | queue (op : QueueOp)
  | reapStale (now : Millis)

/-- Who acts, and what it gets from outside. -/
structure Request (ι : Type) where
  party : Party ι
  moment : Moment

/-- A request with the events it made. -/
abbrev Label (ι : Type) := Request ι × List Event

section

variable {ι : Type} [DecidableEq ι] (cfg : SystemConfig ι)

/-- The world after the segment `t` of supervisor `i`. -/
def World.withTurn (world : World ι) (i : ι) (m : Moment) (t : Turn) : World ι where
  now := m.now
  table := t.table
  leases := t.leases
  issued := m.uuid.val :: world.issued
  sups := Function.update world.sups i t.sup

theorem World.withTurn_self (world : World ι) (i : ι) (m : Moment) (t : Turn) :
    (world.withTurn i m t).sups i = t.sup := Function.update_self ..

theorem World.withTurn_other {i j : ι} (hj : j ≠ i) (world : World ι) (m : Moment) (t : Turn) :
    (world.withTurn i m t).sups j = world.sups j := Function.update_of_ne hj ..

/-- One step of the system. -/
def World.advance (world : World ι) (r : Request ι) : World ι × List Event :=
  let m := r.moment
  if m.now < world.now ∨ m.uuid.val ∈ world.issued then (world, [])
  else
    let next := { world with now := m.now, issued := m.uuid.val :: world.issued }
    match r.party with
    | .supervisor i action =>
      match act (cfg.config i) m action ⟨world.table, world.leases, world.sups i, []⟩ with
      | none => (world, [])
      | some t => (world.withTurn i m t, t.events)
    | .queue op =>
      let (table, outcome) := Queue.perform cfg.queue world.table ⟨op, m.clock⟩
      ({ next with table := table }, [.queue ⟨op, m.clock⟩ outcome])
    | .reapStale now =>
      if m.now < now then (world, [])
      else
        let (leases, outcome) := GoalLease.perform cfg.defaultLeaseMs world.leases (.reapStale now)
        ({ next with leases := leases }, [.lease (.reapStale now) outcome])

/-- The system before anything has happened: empty stores, and supervisors that
have been started, with the crash counts they found. -/
def World.start (now : Millis) (crashCounts : ι → ObjectMap String Nat) : World ι where
  now := now
  table := []
  leases := ObjectMap.empty
  issued := []
  sups := fun i => Supervisor.start (cfg.supervisor i) (crashCounts i)

/-- The system as a transition system. -/
def systemLTS : LTS (World ι) (Label ι) := LTS.ofFn (World.advance cfg)

/-- The requests of `history`, with the events given there, lead from the start to
`world`. -/
abbrev SystemRun (now : Millis) (crashCounts : ι → ObjectMap String Nat)
    (history : List (Label ι)) (world : World ι) : Prop :=
  (systemLTS cfg).Run (World.start cfg now crashCounts) history world

end

/-! ## One step -/

section

variable {ι : Type} [DecidableEq ι] {cfg : SystemConfig ι} {a b : World ι} {l : Label ι}

/-- The events that supervisor `i` makes in a step. -/
def eventsOf (i : ι) (l : Label ι) : List Event :=
  match l.1.party with
  | .supervisor j _ => if j = i then l.2 else []
  | _ => []

/-- What a step does: nothing, a segment of a supervisor, a call of someone else. -/
inductive Step (cfg : SystemConfig ι) (a : World ι) (l : Label ι) : World ι → Prop
  | refused : l.2 = [] → Step cfg a l a
  | acted {i : ι} {action : Action} {t : Turn} :
      l.1.party = .supervisor i action → a.now ≤ l.1.moment.now →
      l.1.moment.uuid.val ∉ a.issued →
      act (cfg.config i) l.1.moment action ⟨a.table, a.leases, a.sups i, []⟩ = some t →
      l.2 = t.events → Step cfg a l (a.withTurn i l.1.moment t)
  | queue {op : QueueOp} :
      l.1.party = .queue op → a.now ≤ l.1.moment.now →
      l.2 = [.queue ⟨op, l.1.moment.clock⟩
        (Queue.perform cfg.queue a.table ⟨op, l.1.moment.clock⟩).2] →
      Step cfg a l
        { a with
          now := l.1.moment.now
          table := (Queue.perform cfg.queue a.table ⟨op, l.1.moment.clock⟩).1
          issued := l.1.moment.uuid.val :: a.issued }
  | reaped {now : Millis} :
      l.1.party = .reapStale now → a.now ≤ l.1.moment.now → now ≤ l.1.moment.now →
      l.2 = [.lease (.reapStale now)
        (GoalLease.perform cfg.defaultLeaseMs a.leases (.reapStale now)).2] →
      Step cfg a l
        { a with
          now := l.1.moment.now
          leases := (GoalLease.perform cfg.defaultLeaseMs a.leases (.reapStale now)).1
          issued := l.1.moment.uuid.val :: a.issued }

/-- **The inversion lemma of the system.** -/
theorem step_cases (h : (systemLTS cfg).step a l b) : Step cfg a l b := by
  obtain ⟨⟨party, m⟩, events⟩ := l
  have h : World.advance cfg a ⟨party, m⟩ = (b, events) := h
  unfold World.advance at h
  simp only at h
  split at h
  · cases h
    exact .refused rfl
  · next hadmit =>
    obtain ⟨hnow, hfresh⟩ := not_or.mp hadmit
    have hnow : a.now ≤ m.now := not_lt.mp hnow
    split at h
    · next i action =>
      split at h
      · cases h
        exact .refused rfl
      · next t hact =>
        cases h
        exact .acted rfl hnow hfresh hact rfl
    · cases h
      exact .queue rfl hnow rfl
    · next now =>
      split at h
      · cases h
        exact .refused rfl
      · next hle =>
        cases h
        exact .reaped rfl hnow (not_lt.mp hle) rfl

/-- A segment that can be performed is a step. -/
theorem step_of_act {i : ι} {action : Action} {m : Moment} {t : Turn} (hnow : a.now ≤ m.now)
    (hfresh : m.uuid.val ∉ a.issued)
    (h : act (cfg.config i) m action ⟨a.table, a.leases, a.sups i, []⟩ = some t) :
    (systemLTS cfg).step a (⟨.supervisor i action, m⟩, t.events) (a.withTurn i m t) := by
  show World.advance cfg a ⟨.supervisor i action, m⟩ = _
  unfold World.advance
  simp only
  rw [if_neg (not_or.mpr ⟨not_lt.mpr hnow, hfresh⟩), h]

/-- The moments are in order, and each has a new value of `randomUUID()`. -/
def Admits (now : Millis) (issued : List String) : List Moment → Prop
  | [] => True
  | m :: ms => now ≤ m.now ∧ m.uuid.val ∉ issued ∧ Admits m.now (m.uuid.val :: issued) ms

theorem eventsOf_self {i : ι} {action : Action} (h : l.1.party = .supervisor i action) :
    eventsOf i l = l.2 := by
  unfold eventsOf
  rw [h]
  exact if_pos rfl

theorem eventsOf_other {i j : ι} {action : Action} (h : l.1.party = .supervisor j action)
    (hij : j ≠ i) : eventsOf i l = [] := by
  unfold eventsOf
  rw [h]
  exact if_neg hij

theorem eventsOf_eq {i : ι} (h : eventsOf i l ≠ []) : eventsOf i l = l.2 := by
  unfold eventsOf at h ⊢
  split at h
  · split at h
    · next hj => rw [if_pos hj]
    · exact absurd rfl h
  · exact absurd rfl h

theorem mem_of_mem_eventsOf {i : ι} {event : Event} (h : event ∈ eventsOf i l) :
    event ∈ l.2 := by
  unfold eventsOf at h
  split at h
  · split at h
    · exact h
    · cases h
  · cases h

/-- **What a step does to one supervisor**: it moves, or the step leaves it alone. -/
theorem step_sup (h : (systemLTS cfg).step a l b) (i : ι) :
    (b.sups i = a.sups i ∧ eventsOf i l = []) ∨
      ∃ action, l.1.party = .supervisor i action ∧
        Move (cfg.config i) l.1.moment (a.sups i) action (eventsOf i l) (b.sups i).core := by
  cases step_cases h with
  | refused hev =>
    refine .inl ⟨rfl, ?_⟩
    unfold eventsOf
    split
    · rw [hev]
      exact ite_self _
    · rfl
  | @acted j action t hparty _ _ hact hev =>
    by_cases hij : j = i
    · subst hij
      refine .inr ⟨action, hparty, ?_⟩
      rw [eventsOf_self hparty, hev]
      rw [World.withTurn_self]
      exact act_move hact rfl
    · refine .inl ⟨?_, eventsOf_other hparty hij⟩
      exact World.withTurn_other (Ne.symm hij) ..
  | queue hparty _ _ =>
    refine .inl ⟨rfl, ?_⟩
    unfold eventsOf
    rw [hparty]
  | reaped hparty _ _ _ =>
    refine .inl ⟨rfl, ?_⟩
    unfold eventsOf
    rw [hparty]

end

/-! ## Sample runs -/

/-- A moment at which every clock shows `now`, and nothing fails for a reason
outside the model. -/
def sampleMoment (now : Millis) (uuid : String) (h : uuid ≠ "" := by decide) : Moment where
  now := now
  clock := steadyClock now
  uuid := ⟨uuid, h⟩
  error := "failed"

/-- The history and the world of a list of requests, from the start at time zero. -/
def runRequests {ι : Type} [DecidableEq ι] (cfg : SystemConfig ι) (requests : List (Request ι)) :
    List (Label ι) × World ι :=
  LTS.exec (World.advance cfg) (World.start cfg 0 fun _ => ObjectMap.empty) requests

theorem runRequests_run {ι : Type} [DecidableEq ι] (cfg : SystemConfig ι)
    (requests : List (Request ι)) :
    SystemRun cfg 0 (fun _ => ObjectMap.empty) (runRequests cfg requests).1
      (runRequests cfg requests).2 :=
  LTS.run_exec _ _ _

/-- The history of a list of requests, cut at one of them. -/
theorem runRequests_split {ι : Type} [DecidableEq ι] (cfg : SystemConfig ι)
    {requests : List (Request ι)} {n : Nat} (h : n < requests.length) :
    ∃ after, (runRequests cfg requests).1 = (runRequests cfg (requests.take n)).1 ++
      (requests[n], (World.advance cfg (runRequests cfg (requests.take n)).2 requests[n]).2) ::
        after := by
  have hsplit : requests = requests.take n ++ requests[n] :: requests.drop (n + 1) := by
    rw [← List.drop_eq_getElem_cons h, List.take_append_drop]
  refine ⟨(LTS.exec (World.advance cfg) (World.advance cfg (runRequests cfg
    (requests.take n)).2 requests[n]).1 (requests.drop (n + 1))).1, ?_⟩
  conv_lhs => rw [hsplit]
  exact congrArg Prod.fst (LTS.exec_append _ _ _ _)

/-- The segments of a supervisor, one millisecond after the other. -/
def segments {ι : Type} (i : ι) (actions : List Action) : List (Request ι) :=
  actions.mapIdx fun k action => ⟨.supervisor i action,
    { sampleMoment (k + 1 : ℕ) "u" with uuid := ⟨"u" ++ toString k, by simp⟩ }⟩

/-- Segments of several supervisors, one millisecond after the other. -/
def schedule {ι : Type} (segments : List (ι × Action)) : List (Request ι) :=
  segments.mapIdx fun k segment => ⟨.supervisor segment.1 segment.2,
    { sampleMoment (k + 1 : ℕ) "u" with uuid := ⟨"u" ++ toString k, by simp⟩ }⟩

end PulSeed.Executor
