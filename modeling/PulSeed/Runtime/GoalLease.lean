import PulSeed.Lib.ObjectMap
import PulSeed.Runtime.Envelope
import Mathlib.Data.List.Sort
import Mathlib.Data.Prod.Lex
import Mathlib.Data.String.Basic

/-!
# Goal leases (`runtime/goal-lease-manager.ts`)

The table `goal_leases` holds at most one lease per goal. Every method of the
manager reads the clock when it is called and runs its transaction later, so the
`now` of an operation is an argument that may lie behind the clock when the
transaction runs. A record that fails its schema makes the method throw, and the
transaction leaves the table as it was.

What the executors rely on is stated at the lookup: `acquire_eq_acquired` and
`renew_eq_renewed` say when an operation succeeds and what it leaves behind,
`perform_change` that no operation takes a lease from an owner before it has expired
except at the owner's own request.
-/

namespace PulSeed

namespace GoalLease

/-- `GoalLeaseRecordSchema`. -/
structure GoalLeaseRecord where
  goalId : String
  ownerToken : String
  attemptId : String
  workerId : String
  leaseUntil : SafeInt
  acquiredAt : SafeInt
  lastRenewedAt : SafeInt
  deriving DecidableEq

/-- The table `goal_leases`, by its primary key. -/
abbrev LeaseTable := ObjectMap String GoalLeaseRecord

/-- `GoalLeaseAcquireOptions`. The tokens default to `randomUUID()`; here they are
the values used. -/
structure AcquireOptions where
  workerId : String
  ownerToken : String
  attemptId : String
  leaseMs : Option Millis

/-- `buildRecord`: `none` when the schema rejects the record. -/
def buildRecord (defaultLeaseMs : Millis) (goalId : String) (opts : AcquireOptions)
    (now : Millis) : Option GoalLeaseRecord := do
  let leaseUntil ← SafeInt.parse (now + opts.leaseMs.getD defaultLeaseMs)
  let acquiredAt ← SafeInt.parse now
  return {
    goalId := goalId
    ownerToken := opts.ownerToken
    attemptId := opts.attemptId
    workerId := opts.workerId
    leaseUntil := leaseUntil
    acquiredAt := acquiredAt
    lastRenewedAt := acquiredAt }

/-- The record `renew` stores: `none` when the schema rejects it. -/
def GoalLeaseRecord.renewed (current : GoalLeaseRecord) (leaseMs now : Millis) :
    Option GoalLeaseRecord := do
  let leaseUntil ← SafeInt.parse (now + leaseMs)
  let lastRenewedAt ← SafeInt.parse now
  return { current with leaseUntil := leaseUntil, lastRenewedAt := lastRenewedAt }

/-- The methods of the manager, with their arguments and the clock they read. -/
inductive LeaseOp
  | acquire (goalId : String) (opts : AcquireOptions) (now : Millis)
  | renew (goalId ownerToken : String) (leaseMs : Option Millis) (now : Millis)
  | release (goalId ownerToken : String)
  | read (goalId : String)
  | reapStale (now : Millis)

/-- What the caller of a method sees. -/
inductive LeaseOutcome
  | acquired (lease : Option GoalLeaseRecord)
  | renewed (lease : Option GoalLeaseRecord)
  | released (done : Bool)
  | read (lease : Option GoalLeaseRecord)
  | reaped (removed : List GoalLeaseRecord)
  | threw
  deriving DecidableEq

/-- The transaction of `acquire`. -/
def acquire (defaultLeaseMs : Millis) (goalId : String) (opts : AcquireOptions) (now : Millis)
    (table : LeaseTable) : LeaseTable × LeaseOutcome :=
  if ∃ current ∈ table.get? goalId, now < current.leaseUntil.millis then (table, .acquired none)
  else
    match buildRecord defaultLeaseMs goalId opts now with
    | some record => (table.set goalId record, .acquired (some record))
    | none => (table, .threw)

/-- The transaction of `renew`. -/
def renew (defaultLeaseMs : Millis) (goalId ownerToken : String) (leaseMs : Option Millis)
    (now : Millis) (table : LeaseTable) : LeaseTable × LeaseOutcome :=
  match table.get? goalId with
  | none => (table, .renewed none)
  | some current =>
    if current.ownerToken ≠ ownerToken ∨ current.leaseUntil.millis ≤ now then
      (table, .renewed none)
    else
      match current.renewed (leaseMs.getD defaultLeaseMs) now with
      | some record => (table.set goalId record, .renewed (some record))
      | none => (table, .threw)

/-- The transaction of `release`: whether or not the lease has expired. -/
def release (goalId ownerToken : String) (table : LeaseTable) : LeaseTable × LeaseOutcome :=
  match table.get? goalId with
  | none => (table, .released false)
  | some current =>
    if current.ownerToken ≠ ownerToken then (table, .released false)
    else (table.delete goalId, .released true)

/-- The leases that `reapStale` removes, in the order it returns them. -/
def staleLeases (now : Millis) (table : LeaseTable) : List GoalLeaseRecord :=
  ((table.entries.map Prod.snd).filter fun r => r.leaseUntil.millis ≤ now).insertionSort
    fun a b => toLex (a.leaseUntil.val, a.goalId) ≤ toLex (b.leaseUntil.val, b.goalId)

/-- `DELETE FROM goal_leases WHERE lease_until <= ?`. -/
def dropStale (now : Millis) (table : LeaseTable) : LeaseTable where
  entries := table.entries.filter fun e => now < e.2.leaseUntil.millis
  nodupKeys := table.nodupKeys.sublist (List.filter_sublist.map Prod.fst)

/-- One method call on the table. -/
def perform (defaultLeaseMs : Millis) (table : LeaseTable) : LeaseOp → LeaseTable × LeaseOutcome
  | .acquire goalId opts now => acquire defaultLeaseMs goalId opts now table
  | .renew goalId ownerToken leaseMs now =>
    renew defaultLeaseMs goalId ownerToken leaseMs now table
  | .release goalId ownerToken => release goalId ownerToken table
  | .read goalId => (table, .read (table.get? goalId))
  | .reapStale now => (dropStale now table, .reaped (staleLeases now table))

/-! ## What an operation grants -/

theorem buildRecord_spec {d : Millis} {goalId : String} {opts : AcquireOptions} {now : Millis}
    {r : GoalLeaseRecord} (h : buildRecord d goalId opts now = some r) :
    r.ownerToken = opts.ownerToken ∧ r.attemptId = opts.attemptId ∧
      r.leaseUntil.millis = now + opts.leaseMs.getD d := by
  obtain ⟨leaseUntil, hlease, h⟩ := Option.bind_eq_some_iff.mp h
  obtain ⟨acquiredAt, -, h⟩ := Option.bind_eq_some_iff.mp h
  cases h
  exact ⟨rfl, rfl, SafeInt.parse_millis hlease⟩

theorem renewed_spec {current r : GoalLeaseRecord} {leaseMs now : Millis}
    (h : current.renewed leaseMs now = some r) :
    r.ownerToken = current.ownerToken ∧ r.attemptId = current.attemptId ∧
      r.leaseUntil.millis = now + leaseMs := by
  obtain ⟨leaseUntil, hlease, h⟩ := Option.bind_eq_some_iff.mp h
  obtain ⟨lastRenewedAt, -, h⟩ := Option.bind_eq_some_iff.mp h
  cases h
  exact ⟨rfl, rfl, SafeInt.parse_millis hlease⟩

/-- **`acquire` succeeds exactly when the goal has no unexpired lease.** -/
theorem acquire_eq_acquired {d : Millis} {goalId : String} {opts : AcquireOptions} {now : Millis}
    {table table' : LeaseTable} {r : GoalLeaseRecord} :
    acquire d goalId opts now table = (table', .acquired (some r)) ↔
      (∀ current ∈ table.get? goalId, current.leaseUntil.millis ≤ now) ∧
        buildRecord d goalId opts now = some r ∧ table' = table.set goalId r := by
  unfold acquire
  split
  · next hheld =>
    obtain ⟨current, hcur, hlt⟩ := hheld
    refine ⟨fun h => (by cases h), fun ⟨hexp, _⟩ => ?_⟩
    exact absurd (hexp current hcur) (not_le.mpr hlt)
  · next hfree =>
    have hexp : ∀ current ∈ table.get? goalId, current.leaseUntil.millis ≤ now :=
      fun current hcur => not_lt.mp fun hlt => hfree ⟨current, hcur, hlt⟩
    cases hbuild : buildRecord d goalId opts now with
    | none => simp
    | some record =>
      constructor
      · intro h
        cases h
        exact ⟨hexp, rfl, rfl⟩
      · rintro ⟨-, hr, rfl⟩
        cases hr
        rfl

/-- **`renew` succeeds exactly for the owner of an unexpired lease.** -/
theorem renew_eq_renewed {d : Millis} {goalId ownerToken : String} {leaseMs : Option Millis}
    {now : Millis} {table table' : LeaseTable} {r : GoalLeaseRecord} :
    renew d goalId ownerToken leaseMs now table = (table', .renewed (some r)) ↔
      ∃ current, table.get? goalId = some current ∧ current.ownerToken = ownerToken ∧
        now < current.leaseUntil.millis ∧
        current.renewed (leaseMs.getD d) now = some r ∧ table' = table.set goalId r := by
  unfold renew
  cases hget : table.get? goalId with
  | none => simp
  | some current =>
    simp only [Option.some.injEq, exists_eq_left']
    split
    · next hlost =>
      refine ⟨fun h => (by cases h), fun ⟨howner, hlt, _⟩ => ?_⟩
      rcases hlost with hne | hexp
      · exact absurd howner hne
      · exact absurd hexp (not_le.mpr hlt)
    · next hheld =>
      obtain ⟨howner, hlt⟩ := not_or.mp hheld
      cases hren : current.renewed (leaseMs.getD d) now with
      | none => simp
      | some record =>
        constructor
        · intro h
          cases h
          exact ⟨not_not.mp howner, not_le.mp hlt, rfl, rfl⟩
        · rintro ⟨-, -, hr, rfl⟩
          cases hr
          rfl

section

variable {d : Millis} {goalId token : String} {leaseMs : Option Millis} {now : Millis}
  {table : LeaseTable}

theorem acquire_expired {opts : AcquireOptions} {r : GoalLeaseRecord}
    (h : (perform d table (.acquire goalId opts now)).2 = .acquired (some r)) :
    ∀ current, table.get? goalId = some current → current.leaseUntil.millis ≤ now := by
  have hacquire : acquire d goalId opts now table =
      ((perform d table (.acquire goalId opts now)).1, .acquired (some r)) := by
    rw [← h]
    rfl
  exact fun current hget => (acquire_eq_acquired.mp hacquire).1 current hget

/-- **A renewal succeeds for the owner only.** -/
theorem renewed_owner {r : GoalLeaseRecord}
    (h : (perform d table (.renew goalId token leaseMs now)).2 = .renewed (some r)) :
    ∃ current, table.get? goalId = some current ∧ current.ownerToken = token := by
  have hrenew : renew d goalId token leaseMs now table =
      ((perform d table (.renew goalId token leaseMs now)).1, .renewed (some r)) := by
    rw [← h]
    rfl
  obtain ⟨current, hget, howner, -⟩ := renew_eq_renewed.mp hrenew
  exact ⟨current, hget, howner⟩

theorem renew_not_owner (h : ∀ r, table.get? goalId = some r → r.ownerToken ≠ token) :
    (perform d table (.renew goalId token leaseMs now)).1 = table := by
  show (renew d goalId token leaseMs now table).1 = table
  unfold renew
  split
  · rfl
  · next current hget => rw [if_pos (.inl (h current hget))]

theorem release_not_owner (h : ∀ r, table.get? goalId = some r → r.ownerToken ≠ token) :
    (perform d table (.release goalId token)).1 = table := by
  show (release goalId token table).1 = table
  unfold release
  split
  · rfl
  · next current hget => rw [if_pos (h current hget)]

end

/-- What one operation does to the lease of a goal: the lease before, the lease after. -/
inductive Change (d : Millis) (goalId : String) (op : LeaseOp) (out : LeaseOutcome) :
    Option GoalLeaseRecord → Option GoalLeaseRecord → Prop
  | kept (lease : Option GoalLeaseRecord) : Change d goalId op out lease lease
  | acquired {lease : Option GoalLeaseRecord} {opts : AcquireOptions} {now : Millis}
      {r : GoalLeaseRecord} :
      op = .acquire goalId opts now → out = .acquired (some r) →
      (∀ current ∈ lease, current.leaseUntil.millis ≤ now) →
      buildRecord d goalId opts now = some r → Change d goalId op out lease (some r)
  | renewed {current : GoalLeaseRecord} {leaseMs : Option Millis} {now : Millis}
      {r : GoalLeaseRecord} :
      op = .renew goalId current.ownerToken leaseMs now → out = .renewed (some r) →
      now < current.leaseUntil.millis → current.renewed (leaseMs.getD d) now = some r →
      Change d goalId op out (some current) (some r)
  | released {current : GoalLeaseRecord} :
      op = .release goalId current.ownerToken → out = .released true →
      Change d goalId op out (some current) none
  | reaped {current : GoalLeaseRecord} {now : Millis} :
      op = .reapStale now → current.leaseUntil.millis ≤ now →
      Change d goalId op out (some current) none

theorem get?_dropStale (now : Millis) (table : LeaseTable) (goalId : String) :
    (dropStale now table).get? goalId =
      (table.get? goalId).filter fun r => now < r.leaseUntil.millis := by
  ext r
  rw [Option.filter_eq_some_iff, ← ObjectMap.mem_entries_iff, ← ObjectMap.mem_entries_iff]
  exact List.mem_filter

/-- **What an operation can do to a lease.** It changes the lease of one goal at
most; a lease passes to another owner or disappears only when it has expired or
its owner releases it. -/
theorem perform_change (d : Millis) (table : LeaseTable) (op : LeaseOp) (goalId : String) :
    Change d goalId op (perform d table op).2 (table.get? goalId)
      ((perform d table op).1.get? goalId) := by
  cases op with
  | acquire g opts now =>
    show Change _ _ _ (acquire d g opts now table).2 _ ((acquire d g opts now table).1.get? goalId)
    unfold acquire
    split
    · exact .kept _
    · next hfree =>
      cases hbuild : buildRecord d g opts now with
      | none => exact .kept _
      | some record =>
        by_cases hg : goalId = g
        · subst hg
          rw [ObjectMap.get?_set_self]
          refine .acquired rfl rfl (fun current hcur => ?_) hbuild
          exact not_lt.mp fun hlt => hfree ⟨current, hcur, hlt⟩
        · rw [ObjectMap.get?_set, if_neg hg]
          exact .kept _
  | renew g token leaseMs now =>
    show Change _ _ _ (renew d g token leaseMs now table).2 _
      ((renew d g token leaseMs now table).1.get? goalId)
    unfold renew
    cases hget : table.get? g with
    | none => exact .kept _
    | some current =>
      simp only
      split
      · exact .kept _
      · next hheld =>
        obtain ⟨howner, hlt⟩ := not_or.mp hheld
        cases hren : current.renewed (leaseMs.getD d) now with
        | none => exact .kept _
        | some record =>
          by_cases hg : goalId = g
          · subst hg
            rw [ObjectMap.get?_set_self, hget]
            obtain rfl := not_not.mp howner
            exact .renewed rfl rfl (not_le.mp hlt) hren
          · rw [ObjectMap.get?_set, if_neg hg]
            exact .kept _
  | release g token =>
    show Change _ _ _ (release g token table).2 _ ((release g token table).1.get? goalId)
    unfold release
    cases hget : table.get? g with
    | none => exact .kept _
    | some current =>
      simp only
      split
      · exact .kept _
      · next howner =>
        by_cases hg : goalId = g
        · subst hg
          rw [ObjectMap.get?_delete, if_pos rfl, hget]
          obtain rfl := not_not.mp howner
          exact .released rfl rfl
        · rw [ObjectMap.get?_delete, if_neg hg]
          exact .kept _
  | read g => exact .kept _
  | reapStale now =>
    show Change _ _ _ _ _ ((dropStale now table).get? goalId)
    rw [get?_dropStale]
    cases hget : table.get? goalId with
    | none => exact .kept _
    | some current =>
      by_cases hexp : now < current.leaseUntil.millis
      · rw [Option.filter_some_pos (by simpa using hexp)]
        exact .kept _
      · rw [Option.filter_some_neg (by simpa using hexp)]
        exact .reaped rfl (not_lt.mp hexp)

end GoalLease

end PulSeed
