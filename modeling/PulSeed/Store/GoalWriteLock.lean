import PulSeed.Lib.ObjectMap
import PulSeed.Lib.Transition

/-!
# The write lock of a goal (`runtime/store/goal-task-state-store.ts`)

A call of `withGoalStateWriteLock` takes the row of the goal in `goal_state_write_locks`,
does its work and deletes the row. The row is a lease: an attempt deletes a row that has
expired, whoever has taken it. Nothing renews the lease while the work goes on, and nothing
tells the work that the lease is over.

So the lock excludes as long as the work of a call is over before another call finds the
lease expired (`lock_excludes`); a call never deletes the row of another call, and leaves
no row behind.
-/

namespace PulSeed.GoalWriteLock

/-- `GOAL_STATE_WRITE_LOCK_TIMEOUT_MS`. -/
def GOAL_STATE_WRITE_LOCK_TIMEOUT_MS : ℕ := 5000

/-- `GOAL_STATE_WRITE_LOCK_LEASE_MS`. -/
def GOAL_STATE_WRITE_LOCK_LEASE_MS : ℕ := 30000

/-- A row of `goal_state_write_locks`, without the columns that nothing reads. The calls are
numbered, and the number of a call stands for its `randomUUID()`. -/
structure LockRow where
  owner_token : ℕ
  lease_until : ℕ
  deriving DecidableEq

/-- The table, by its primary key. -/
abbrev LockTable := ObjectMap String LockRow

/-- The transaction of `acquireGoalStateWriteLock`: an expired row is deleted, and a row is
inserted unless there is one. It tells whether it was. -/
def tryAcquire (locks : LockTable) (goalId : String) (ownerToken now : ℕ) : LockTable × Bool :=
  let locks :=
    if ∃ row ∈ locks.get? goalId, row.lease_until ≤ now then locks.delete goalId else locks
  if (locks.get? goalId).isSome then (locks, false)
  else (locks.set goalId ⟨ownerToken, now + GOAL_STATE_WRITE_LOCK_LEASE_MS⟩, true)

/-- The transaction of the release. -/
def release (locks : LockTable) (goalId : String) (ownerToken : ℕ) : LockTable :=
  if ∃ row ∈ locks.get? goalId, row.owner_token = ownerToken then locks.delete goalId else locks

/-! ## Calls -/

/-- How far a call of `withGoalStateWriteLock` has come. -/
inductive Phase
  /-- Before the next attempt. -/
  | trying (startedAt : ℕ)
  /-- The attempt was in vain. -/
  | refused (startedAt : ℕ)
  /-- The row is inserted, and `work` is not called yet. -/
  | acquired
  /-- Inside `work`. -/
  | working
  /-- `work` has returned or thrown. -/
  | ended
  | released
  /-- The call has thrown, without the lock. -/
  | timedOut
  deriving DecidableEq

/-- The call has taken the row and its work is still to come or goes on. -/
def Phase.Holds (phase : Phase) : Prop := phase = .acquired ∨ phase = .working

instance (phase : Phase) : Decidable phase.Holds :=
  inferInstanceAs (Decidable (_ ∨ _))

structure Call where
  goalId : String
  phase : Phase
  deriving DecidableEq

/-- The clock, the table and the calls, of all processes. -/
structure State where
  now : ℕ
  locks : LockTable
  calls : ℕ → Option Call

inductive Action
  /-- `Date.now()` goes on. -/
  | tick (ms : ℕ)
  | call (c : ℕ) (goalId : String)
  | attempt (c : ℕ)
  /-- After an attempt in vain: the call gives up, or tries again later. -/
  | retry (c : ℕ)
  | enter (c : ℕ)
  /-- `work` returns or throws. -/
  | finish (c : ℕ)
  | release (c : ℕ)
  deriving DecidableEq

/-- The call is in another phase. -/
def State.setPhase (s : State) (c : ℕ) (call : Call) (phase : Phase) : State :=
  { s with calls := Function.update s.calls c (some { call with phase }) }

/-- One step of a call, or of the clock. -/
def step (s : State) : Action → Option State
  | .tick ms => some { s with now := s.now + ms }
  | .call c goalId =>
    -- a new `randomUUID()` is no token that has been given out
    if s.calls c = none ∧ s.locks.entries.all (·.2.owner_token ≠ c) then
      some { s with calls := Function.update s.calls c (some ⟨goalId, .trying s.now⟩) }
    else none
  | .attempt c =>
    match s.calls c with
    | some ⟨goalId, .trying startedAt⟩ =>
      let (locks, acquired) := tryAcquire s.locks goalId c s.now
      some ({ s with locks }.setPhase c ⟨goalId, .trying startedAt⟩
        (if acquired then .acquired else .refused startedAt))
    | _ => none
  | .retry c =>
    match s.calls c with
    | some ⟨goalId, .refused startedAt⟩ =>
      some (s.setPhase c ⟨goalId, .refused startedAt⟩
        (if GOAL_STATE_WRITE_LOCK_TIMEOUT_MS ≤ s.now - startedAt then .timedOut
          else .trying startedAt))
    | _ => none
  | .enter c =>
    match s.calls c with
    | some ⟨goalId, .acquired⟩ => some (s.setPhase c ⟨goalId, .acquired⟩ .working)
    | _ => none
  | .finish c =>
    match s.calls c with
    | some ⟨goalId, .working⟩ => some (s.setPhase c ⟨goalId, .working⟩ .ended)
    | _ => none
  | .release c =>
    match s.calls c with
    | some ⟨goalId, .ended⟩ =>
      some ({ s with locks := release s.locks goalId c }.setPhase c ⟨goalId, .ended⟩ .released)
    | _ => none

/-- The system of all calls. -/
def lockLTS : LTS State Action := .ofPartial step

/-- No call has been made; the table may hold rows of processes that are gone. -/
def start (now : ℕ) (locks : LockTable) : State := ⟨now, locks, fun _ => none⟩

/-- The call is inside its work for the goal. -/
def State.Inside (s : State) (goalId : String) (c : ℕ) : Prop :=
  s.calls c = some ⟨goalId, .working⟩

instance (s : State) (goalId : String) (c : ℕ) : Decidable (s.Inside goalId c) :=
  inferInstanceAs (Decidable (_ = _))

/-- What the lock promises: one call at most is inside its work for a goal; a call whose
work has ended gives its row back, and no other; and then has none. -/
structure State.Excludes (s : State) : Prop where
  alone : ∀ goalId c c', s.Inside goalId c → s.Inside goalId c' → c = c'
  gives_back : ∀ c goalId, s.calls c = some ⟨goalId, .ended⟩ →
    ∃ s', step s (.release c) = some s' ∧
      (∀ g row, s'.locks.get? g = some row → row.owner_token ≠ c) ∧
      ∀ g row, s.locks.get? g = some row → row.owner_token ≠ c → s'.locks.get? g = some row
  given_back : ∀ c goalId, s.calls c = some ⟨goalId, .released⟩ →
    ∀ g row, s.locks.get? g = some row → row.owner_token ≠ c

/-- An attempt that finds an expired row finds the row of a call whose work is over (or of
a process that is gone). -/
def InTime (s : State) : Action → Prop
  | .attempt c => ∀ call ∈ s.calls c, ∀ row ∈ s.locks.get? call.goalId,
      row.lease_until ≤ s.now → ∀ holder ∈ s.calls row.owner_token, ¬ holder.phase.Holds
  | _ => True

instance (s : State) : ∀ a, Decidable (InTime s a)
  | .attempt c => inferInstanceAs (Decidable (∀ call ∈ s.calls c, ∀ row ∈ _, _ → ∀ holder ∈ _, _))
  | .tick _ | .call _ _ | .retry _ | .enter _ | .finish _ | .release _ => instDecidableTrue

/-! ## The table -/

theorem tryAcquire_cases (locks : LockTable) (goalId : String) (c now : ℕ) :
    (∃ row, locks.get? goalId = some row ∧ now < row.lease_until ∧
      tryAcquire locks goalId c now = (locks, false)) ∨
    ((∀ row, locks.get? goalId = some row → row.lease_until ≤ now) ∧
      (tryAcquire locks goalId c now).2 = true ∧
      ∀ g, (tryAcquire locks goalId c now).1.get? g =
        if g = goalId then some ⟨c, now + GOAL_STATE_WRITE_LOCK_LEASE_MS⟩ else locks.get? g) := by
  unfold tryAcquire
  cases hrow : locks.get? goalId with
  | none =>
    refine .inr ⟨by simp, ?_⟩
    simp [hrow, ObjectMap.get?_set]
  | some row =>
    by_cases hexpired : row.lease_until ≤ now
    · refine .inr ⟨by simpa using hexpired, ?_⟩
      simp only [Option.mem_some_iff, exists_eq_left', hexpired, if_true, ObjectMap.get?_delete,
        Option.isSome_none, Bool.false_eq_true, if_false, ObjectMap.get?_set, true_and]
      intro g
      split <;> rfl
    · refine .inl ⟨row, rfl, by omega, ?_⟩
      simp [hexpired, hrow]

theorem release_get? (locks : LockTable) (goalId : String) (c : ℕ) (g : String) (row : LockRow) :
    (release locks goalId c).get? g = some row ↔
      locks.get? g = some row ∧ (g = goalId → row.owner_token ≠ c) := by
  unfold release
  split
  · next hmine =>
    obtain ⟨mine, hget, howner⟩ := hmine
    rw [ObjectMap.get?_delete]
    by_cases hg : g = goalId
    · subst hg
      have hget : locks.get? g = some mine := hget
      simp [hget, ← howner]
      rintro rfl
      rfl
    · simp [hg]
  · next hother =>
    refine ⟨fun hrow => ⟨hrow, ?_⟩, And.left⟩
    rintro rfl howner
    exact hother ⟨row, hrow, howner⟩

/-! ## Steps -/

/-- What a call does without the table. -/
def Phase.Moves (phase phase' : Phase) : Prop :=
  (∃ startedAt, phase = .refused startedAt ∧ (phase' = .timedOut ∨ phase' = .trying startedAt)) ∨
  (phase = .acquired ∧ phase' = .working) ∨
  (phase = .working ∧ phase' = .ended)

theorem step_cases {s s' : State} {a : Action} (h : step s a = some s') :
    (∃ ms, a = .tick ms ∧ s' = { s with now := s.now + ms }) ∨
    (∃ c goalId, s.calls c = none ∧
      (∀ g row, s.locks.get? g = some row → row.owner_token ≠ c) ∧
      s' = s.setPhase c ⟨goalId, .trying s.now⟩ (.trying s.now)) ∨
    (∃ c goalId startedAt, a = .attempt c ∧ s.calls c = some ⟨goalId, .trying startedAt⟩ ∧
      s' = { s with locks := (tryAcquire s.locks goalId c s.now).1 }.setPhase c
        ⟨goalId, .trying startedAt⟩
        (if (tryAcquire s.locks goalId c s.now).2 then .acquired else .refused startedAt)) ∨
    (∃ c call phase, s.calls c = some call ∧ call.phase.Moves phase ∧
      s' = s.setPhase c call phase) ∨
    (∃ c goalId, s.calls c = some ⟨goalId, .ended⟩ ∧
      s' = { s with locks := release s.locks goalId c }.setPhase c ⟨goalId, .ended⟩ .released) := by
  cases a with
  | tick ms =>
    cases h
    exact .inl ⟨ms, rfl, rfl⟩
  | call c goalId =>
    simp only [step] at h
    split at h
    · next hnew =>
      cases h
      refine .inr (.inl ⟨c, goalId, hnew.1, fun g row hrow => ?_, rfl⟩)
      simpa using List.all_eq_true.mp hnew.2 _ (ObjectMap.mem_entries_iff.mpr hrow)
    · cases h
  | attempt c =>
    simp only [step] at h
    split at h
    · next goalId startedAt hcall =>
      cases h
      exact .inr (.inr (.inl ⟨c, goalId, startedAt, rfl, hcall, rfl⟩))
    · cases h
  | retry c =>
    simp only [step] at h
    split at h
    · next goalId startedAt hcall =>
      cases h
      refine .inr (.inr (.inr (.inl ⟨c, _, _, hcall, .inl ⟨startedAt, rfl, ?_⟩, rfl⟩)))
      split
      · exact .inl rfl
      · exact .inr rfl
    · cases h
  | enter c =>
    simp only [step] at h
    split at h
    · next goalId hcall =>
      cases h
      exact .inr (.inr (.inr (.inl ⟨c, _, _, hcall, .inr (.inl ⟨rfl, rfl⟩), rfl⟩)))
    · cases h
  | finish c =>
    simp only [step] at h
    split at h
    · next goalId hcall =>
      cases h
      exact .inr (.inr (.inr (.inl ⟨c, _, _, hcall, .inr (.inr ⟨rfl, rfl⟩), rfl⟩)))
    · cases h
  | release c =>
    simp only [step] at h
    split at h
    · next goalId hcall =>
      cases h
      exact .inr (.inr (.inr (.inr ⟨c, goalId, hcall, rfl⟩)))
    · cases h

/-- A row with the number of a call is in the goal of the call, and the call has not yet
given it back. -/
def State.RowsOwned (s : State) : Prop :=
  ∀ g row call, s.locks.get? g = some row → s.calls row.owner_token = some call →
    call.goalId = g ∧ (call.phase.Holds ∨ call.phase = .ended)

/-- A call that has taken the row and whose work is not over still has it. -/
def State.HoldersHave (s : State) : Prop :=
  ∀ c call, s.calls c = some call → call.phase.Holds →
    ∃ row, s.locks.get? call.goalId = some row ∧ row.owner_token = c

theorem State.setPhase_self (s : State) (c : ℕ) (call : Call) (phase : Phase) :
    (s.setPhase c call phase).calls c = some { call with phase } :=
  Function.update_self ..

theorem State.setPhase_of_ne (s : State) {c d : ℕ} (h : d ≠ c) (call : Call) (phase : Phase) :
    (s.setPhase c call phase).calls d = s.calls d :=
  Function.update_of_ne h ..

/-- **The rows of a call** are those of its goal, until it has given them back. -/
theorem rowsOwned_step {s s' : State} {a : Action} (h : step s a = some s')
    (howned : s.RowsOwned) : s'.RowsOwned := by
  intro g row call hrow hcall
  rcases step_cases h with ⟨ms, -, rfl⟩ | ⟨c, goalId, -, hnew, rfl⟩ |
    ⟨c, goalId, startedAt, -, htrying, rfl⟩ | ⟨c, old, phase, hold, hmoves, rfl⟩ |
    ⟨c, goalId, hended, rfl⟩
  · exact howned g row call hrow hcall
  · rw [State.setPhase_of_ne _ (hnew g row hrow)] at hcall
    exact howned g row call hrow hcall
  · have hrow : (tryAcquire s.locks goalId c s.now).1.get? g = some row := hrow
    rcases tryAcquire_cases s.locks goalId c s.now with ⟨other, hother, -, heq⟩ | ⟨-, hyes, hget⟩
    · rw [heq] at hrow hcall
      by_cases hc : row.owner_token = c
      · -- a call that still tries owns no row
        obtain ⟨-, hholds | hended⟩ := howned g row _ hrow (hc ▸ htrying)
        · simp [Phase.Holds] at hholds
        · cases hended
      · rw [State.setPhase_of_ne _ hc] at hcall
        exact howned g row call hrow hcall
    · rw [hget g] at hrow
      by_cases hg : g = goalId
      · rw [if_pos hg] at hrow
        cases hrow
        rw [State.setPhase_self, hyes] at hcall
        cases hcall
        exact ⟨hg.symm, .inl (.inl rfl)⟩
      · rw [if_neg hg] at hrow
        by_cases hc : row.owner_token = c
        · obtain ⟨heq, -⟩ := howned g row _ hrow (hc ▸ htrying)
          exact absurd heq.symm hg
        · rw [State.setPhase_of_ne _ hc] at hcall
          exact howned g row call hrow hcall
  · by_cases hc : row.owner_token = c
    · rw [hc, State.setPhase_self] at hcall
      cases hcall
      obtain ⟨hgoal, hphase⟩ := howned g row old hrow (hc ▸ hold)
      refine ⟨hgoal, ?_⟩
      rcases hmoves with ⟨startedAt, hrefused, -⟩ | ⟨-, hworking⟩ | ⟨-, hended⟩
      · rw [hrefused] at hphase
        rcases hphase with (h | h) | h <;> cases h
      · exact .inl (.inr hworking)
      · exact .inr hended
    · rw [State.setPhase_of_ne _ hc] at hcall
      exact howned g row call hrow hcall
  · have hrow : (release s.locks goalId c).get? g = some row := hrow
    obtain ⟨hrow, hkept⟩ := (release_get? ..).mp hrow
    by_cases hc : row.owner_token = c
    · obtain ⟨heq, -⟩ := howned g row _ hrow (hc ▸ hended)
      exact absurd hc (hkept heq.symm)
    · rw [State.setPhase_of_ne _ hc] at hcall
      exact howned g row call hrow hcall

/-- **A holder keeps its row** when it is not taken over. -/
theorem holdersHave_step {s s' : State} {a : Action} (h : step s a = some s')
    (hintime : InTime s a) (hhave : s.HoldersHave) : s'.HoldersHave := by
  intro d call hcall hholds
  rcases step_cases h with ⟨ms, -, rfl⟩ | ⟨c, goalId, -, -, rfl⟩ |
    ⟨c, goalId, startedAt, rfl, htrying, rfl⟩ | ⟨c, old, phase, hold, hmoves, rfl⟩ |
    ⟨c, goalId, hended, rfl⟩
  · exact hhave d call hcall hholds
  · by_cases hd : d = c
    · rw [hd, State.setPhase_self] at hcall
      cases hcall
      simp [Phase.Holds] at hholds
    · rw [State.setPhase_of_ne _ hd] at hcall
      exact hhave d call hcall hholds
  · show ∃ row, (tryAcquire s.locks goalId c s.now).1.get? call.goalId = some row ∧ _
    rcases tryAcquire_cases s.locks goalId c s.now with ⟨other, hother, -, heq⟩ | ⟨hfree, hyes, hget⟩
    · rw [heq] at hcall ⊢
      by_cases hd : d = c
      · rw [hd, State.setPhase_self] at hcall
        cases hcall
        simp [Phase.Holds] at hholds
      · rw [State.setPhase_of_ne _ hd] at hcall
        exact hhave d call hcall hholds
    · rw [hget]
      by_cases hd : d = c
      · rw [hd, State.setPhase_self] at hcall
        cases hcall
        exact ⟨_, if_pos rfl, hd.symm⟩
      · rw [State.setPhase_of_ne _ hd] at hcall
        obtain ⟨row, hrow, howner⟩ := hhave d call hcall hholds
        refine ⟨row, ?_, howner⟩
        rw [if_neg, hrow]
        -- an expired row of a call that still holds is not found
        rintro hgoal
        rw [hgoal] at hrow
        exact hintime _ htrying row hrow (hfree row hrow) call (howner ▸ hcall) hholds
  · by_cases hd : d = c
    · rw [hd, State.setPhase_self] at hcall
      cases hcall
      have hbefore : old.phase.Holds := by
        rcases hmoves with ⟨startedAt, -, h | h⟩ | ⟨hacquired, -⟩ | ⟨-, h⟩
        · simp [h, Phase.Holds] at hholds
        · simp [h, Phase.Holds] at hholds
        · exact .inl hacquired
        · simp [h, Phase.Holds] at hholds
      exact hhave d old (hd ▸ hold) hbefore
    · rw [State.setPhase_of_ne _ hd] at hcall
      exact hhave d call hcall hholds
  · have hd : d ≠ c := by
      rintro rfl
      rw [State.setPhase_self] at hcall
      cases hcall
      simp [Phase.Holds] at hholds
    rw [State.setPhase_of_ne _ hd] at hcall
    obtain ⟨row, hrow, howner⟩ := hhave d call hcall hholds
    refine ⟨row, (release_get? ..).mpr ⟨hrow, fun _ => ?_⟩, howner⟩
    rw [howner]
    exact hd

/-! ## Runs -/

/-- What the steps of calls keep is enough for the promise. -/
theorem State.excludes_of {s : State} (howned : s.RowsOwned) (hhave : s.HoldersHave) :
    s.Excludes where
  alone := by
    intro goalId c c' hinside hinside'
    obtain ⟨row, hrow, howner⟩ := hhave c _ hinside (.inr rfl)
    obtain ⟨row', hrow', howner'⟩ := hhave c' _ hinside' (.inr rfl)
    have hsame : row = row' := Option.some.inj (hrow.symm.trans hrow')
    rw [← howner, ← howner', hsame]
  gives_back := by
    intro c goalId hended
    refine ⟨_, by simp only [step, hended]; rfl, ?_, ?_⟩
    · intro g row hrow howner
      obtain ⟨hrow, hkept⟩ := (release_get? ..).mp hrow
      obtain ⟨hgoal, -⟩ := howned g row _ hrow (howner ▸ hended)
      exact hkept hgoal.symm howner
    · intro g row hrow howner
      exact (release_get? ..).mpr ⟨hrow, fun _ => howner⟩
  given_back := by
    intro c goalId hreleased g row hrow howner
    obtain ⟨-, hphase⟩ := howned g row _ hrow (howner ▸ hreleased)
    rcases hphase with (h | h) | h <;> cases h

/-- **The lock excludes** in every run in which no row is taken over from a call whose work
still is to come or goes on. -/
theorem lock_excludes (now : ℕ) (locks : LockTable) (as : List Action)
    (hintime : lockLTS.Always (start now locks) as InTime) :
    lockLTS.Throughout (start now locks) as State.Excludes := by
  have hstart : (start now locks).RowsOwned ∧ (start now locks).HoldersHave := by
    constructor
    · intro g row call _ hcall
      cases hcall
    · intro c call hcall
      cases hcall
  have hall : lockLTS.Throughout (start now locks) as fun s => s.RowsOwned ∧ s.HoldersHave :=
    LTS.Throughout.guarded hstart hintime fun s a s' hstep hcond hinv =>
      ⟨rowsOwned_step hstep hinv.1, holdersHave_step hstep hcond hinv.2⟩
  intro ks rest s hsplit hrun
  obtain ⟨howned, hhave⟩ := hall ks rest s hsplit hrun
  exact State.excludes_of howned hhave

theorem step_enter {s : State} {c : ℕ} {goalId : String}
    (h : s.calls c = some ⟨goalId, .acquired⟩) :
    step s (.enter c) = some (s.setPhase c ⟨goalId, .acquired⟩ .working) := by
  simp only [step, h]

/-- A call that has taken the row can go inside, or is inside; the others stay where they
are. -/
theorem goes_inside {s : State} {d : ℕ} {call : Call} (hcall : s.calls d = some call)
    (hholds : call.phase.Holds) :
    ∃ as s', lockLTS.Run s as s' ∧ s'.Inside call.goalId d ∧
      ∀ c, c ≠ d → s'.calls c = s.calls c := by
  obtain ⟨goalId, phase⟩ := call
  rcases hholds with h | h
  · subst h
    exact ⟨_, _, .single (step_enter hcall), State.setPhase_self ..,
      fun c hc => State.setPhase_of_ne _ hc ..⟩
  · subst h
    exact ⟨[], s, .nil, hcall, fun c _ => rfl⟩

/-- **The condition is needed**: once a row is taken over from a call whose work is still to
come or goes on, the two can get inside together. -/
theorem both_inside_of_not_inTime {s s' : State} {c : ℕ} (howned : s.RowsOwned)
    (hlate : ¬ InTime s (.attempt c)) (hstep : step s (.attempt c) = some s') :
    ∃ as s'' goalId d, lockLTS.Run s' as s'' ∧ d ≠ c ∧ s''.Inside goalId c ∧
      s''.Inside goalId d := by
  simp only [InTime, not_forall, not_not] at hlate
  obtain ⟨call, hcall, row, hrow, hexpired, holder, hholder, hholds⟩ := hlate
  simp only [step] at hstep
  split at hstep
  · next goalId startedAt htrying =>
    rw [htrying] at hcall
    cases hcall
    obtain ⟨hgoal, -⟩ := howned goalId row holder hrow hholder
    have hother : row.owner_token ≠ c := by
      intro hc
      rw [hc, htrying] at hholder
      cases hholder
      simp [Phase.Holds] at hholds
    rcases tryAcquire_cases s.locks goalId c s.now with ⟨_, hrow', hlater, -⟩ | ⟨-, hyes, -⟩
    · rw [hrow] at hrow'
      cases hrow'
      omega
    · simp only [hyes, if_true] at hstep
      obtain rfl := Option.some.inj hstep
      -- the holder goes in first, then the call that has taken its row over
      have hholder' := (State.setPhase_of_ne
        { s with locks := (tryAcquire s.locks goalId c s.now).1 } hother
        ⟨goalId, .trying startedAt⟩ .acquired).trans hholder
      obtain ⟨as, s₁, hrun, hinside, hframe⟩ := goes_inside hholder' hholds
      have hacquired : s₁.calls c = some ⟨goalId, .acquired⟩ :=
        (hframe c hother.symm).trans (State.setPhase_self ..)
      have henter : lockLTS.step s₁ (.enter c) (s₁.setPhase c ⟨goalId, .acquired⟩ .working) :=
        step_enter hacquired
      refine ⟨as ++ [.enter c], s₁.setPhase c ⟨goalId, .acquired⟩ .working, goalId,
        row.owner_token, hrun.snoc henter, hother, State.setPhase_self .., ?_⟩
      rw [State.Inside, State.setPhase_of_ne _ hother, ← hgoal]
      exact hinside
  · cases hstep

/-- **A late takeover never stays harmless**: every run that reaches one goes on to two calls
that are inside their work for one goal. -/
theorem late_takeover_unsafe {now : ℕ} {locks : LockTable} {as : List Action} {s s' : State}
    {c : ℕ} (hrun : lockLTS.Run (start now locks) as s) (hlate : ¬ InTime s (.attempt c))
    (hstep : step s (.attempt c) = some s') :
    ∃ more s'' goalId d, lockLTS.Run (start now locks) (as ++ .attempt c :: more) s'' ∧ d ≠ c ∧
      s''.Inside goalId c ∧ s''.Inside goalId d := by
  -- no row of the start belongs to a call, and no step breaks that rows are owned
  have howned : s.RowsOwned := hrun.invariant (P := State.RowsOwned)
    (fun _ _ call _ hcall => absurd hcall (Option.some_ne_none call).symm)
    fun _ _ _ hstep ha => rowsOwned_step hstep ha
  obtain ⟨more, s'', goalId, d, hmore, hd, hc, hinside⟩ :=
    both_inside_of_not_inTime howned hlate hstep
  exact ⟨more, s'', goalId, d, hrun.append (.cons hstep hmore), hd, hc, hinside⟩

/-- The second call comes when the lease of the first has run out, and the first is at work. -/
def lateArrival : List Action :=
  [.call 0 "g", .attempt 0, .enter 0, .tick GOAL_STATE_WRITE_LOCK_LEASE_MS, .call 1 "g"]

theorem late_takeover_unsafe_sample : ∃ more s'' goalId d,
    lockLTS.Run (start 0 .empty) (lateArrival ++ .attempt 1 :: more) s'' ∧ d ≠ 1 ∧
      s''.Inside goalId 1 ∧ s''.Inside goalId d := by
  have hlate : (LTS.execPartial step (start 0 .empty) lateArrival).any
      (fun s => ¬ InTime s (.attempt 1) ∧ (step s (.attempt 1)).isSome) = true := by decide
  obtain ⟨s, hs, hboth⟩ := (Option.any_eq_true _ _).mp hlate
  obtain ⟨hlate, hstep⟩ := of_decide_eq_true hboth
  obtain ⟨s', hstep⟩ := Option.isSome_iff_exists.mp hstep
  exact late_takeover_unsafe (LTS.run_execPartial hs) hlate hstep

/-- Two calls take turns: the second is refused while the first is at work, and takes the
lock after it. -/
def turns : List Action :=
  [.call 0 "g", .attempt 0, .enter 0, .call 1 "g", .attempt 1, .retry 1, .tick 40000, .finish 0,
    .attempt 1, .enter 1, .release 0]

theorem lock_excludes_turns :
    lockLTS.Throughout (start 0 .empty) turns State.Excludes :=
  lock_excludes 0 .empty turns (LTS.ExecPartialAlways.always (f := step) (by decide))

/-- The work of a call takes as long as its lease, and another call comes. -/
def overrun : List Action :=
  [.call 0 "g", .attempt 0, .enter 0, .tick GOAL_STATE_WRITE_LOCK_LEASE_MS, .call 1 "g",
    .attempt 1, .enter 1]

/-- **Two calls are inside** their work for one goal. -/
theorem overrun_not_excluded :
    ¬ lockLTS.Throughout (start 0 .empty) overrun State.Excludes := by
  intro hall
  have hinside : (LTS.execPartial step (start 0 .empty) overrun).any
      (fun s => s.Inside "g" 0 ∧ s.Inside "g" 1) = true := by decide
  obtain ⟨s, hs, hboth⟩ := (Option.any_eq_true _ _).mp hinside
  obtain ⟨h₀, h₁⟩ := of_decide_eq_true hboth
  cases (hall overrun [] s (by simp) (LTS.run_execPartial hs)).alone "g" 0 1 h₀ h₁

end PulSeed.GoalWriteLock
