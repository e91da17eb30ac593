import PulSeed.Lib.WriteThrough
import PulSeed.Store.MemoryTruth

/-!
# Trust balances (`platform/traits/trust-manager.ts`)

The trust store has a balance for each domain, the categories that always need an approval,
and a log of what was overridden by hand. The manager loads it when a call first needs it,
changes it in memory and saves it with every change.

- `nothing_lost_of_current`: **in a run in which every call that changes the store holds its
  last saved contents, and the saves arrive in the order in which they were made, every gate
  and every log entry is stored when all calls have ended, and the balance of a domain is
  what its updates make of the one before.**

Balances are exact numbers. A call on a domain with the name of a member that every object
inherits finds that member in place of a balance or of a list of categories, and throws.
-/

namespace PulSeed.TrustManager

open MemoryTruth (objectPrototype)

/-! ## The store -/

/-- `TRUST_SUCCESS_DELTA`. -/
def TRUST_SUCCESS_DELTA : Number := .finite 3

/-- `TRUST_FAILURE_DELTA`. -/
def TRUST_FAILURE_DELTA : Number := .finite (-10)

/-- What `TrustBalanceSchema` checks of a balance. -/
def inBounds (balance : Number) : Bool :=
  (Number.finite (-100)).le balance && balance.le (.finite 100)

/-- `TrustBalance`. -/
structure TrustBalance where
  domain : String
  balance : Number
  success_delta : Number
  failure_delta : Number
  bounds : inBounds balance = true

/-- `override_type` of an entry. -/
inductive OverrideType where
  | trust_grant
  | permanent_gate

/-- `TrustOverrideLogEntry`. -/
structure TrustOverrideLogEntry where
  timestamp : String
  override_type : OverrideType
  domain : String
  target_category : Option String := none
  balance_before : Option Number := none
  balance_after : Option Number := none

/-- `TrustStore`. -/
structure TrustStore where
  balances : ObjectMap String TrustBalance
  permanent_gates : ObjectMap String (List String)
  override_log : List TrustOverrideLogEntry

/-- `emptyTrustStore`. -/
def emptyTrustStore : TrustStore := ⟨.empty, .empty, []⟩

/-- `defaultBalance`. -/
def defaultBalance (domain : String) : TrustBalance where
  domain := domain
  balance := .finite 0
  success_delta := TRUST_SUCCESS_DELTA
  failure_delta := TRUST_FAILURE_DELTA
  bounds := by decide +kernel

/-- `clamp`. -/
def clamp (value : Number) : Number := (Number.finite (-100)).max ((Number.finite 100).min value)

/-- `store.balances[domain] ?? defaultBalance(domain)`, unless this is an inherited member. -/
def TrustStore.current (store : TrustStore) (domain : String) : Option TrustBalance :=
  match store.balances.get? domain with
  | some balance => some balance
  | none => if domain ∈ objectPrototype then none else some (defaultBalance domain)

/-- `store.permanent_gates[domain]`, made when it is not there, unless this is an inherited
member. -/
def TrustStore.currentGates (store : TrustStore) (domain : String) : Option (List String) :=
  match store.permanent_gates.get? domain with
  | some gates => some gates
  | none => if domain ∈ objectPrototype then none else some []

/-- `TrustBalanceSchema.parse({ ...current, balance })`. -/
def TrustBalance.withBalance (current : TrustBalance) (balance : Number) : Option TrustBalance :=
  if h : inBounds balance = true then some { current with balance := balance, bounds := h } else none

/-! ## Calls -/

/-- A call, once the rate limit of successes has been looked at. -/
inductive Call where
  | recordSuccess (domain : String) (limited : Bool)
  | recordFailure (domain : String)
  | setOverride (domain : String) (balance : Number) (timestamp : String)
  | addPermanentGate (domain category timestamp : String)

/-- What `recordSuccess` and `recordFailure` do to the store. -/
def recordDelta (store : TrustStore) (domain : String) (delta : Number) : Option TrustStore := do
  let current ← store.current domain
  let updated ← current.withBalance (clamp (current.balance.add delta))
  return { store with balances := store.balances.set domain updated }

/-- What `setOverride` does to the store. -/
def setOverride (store : TrustStore) (domain : String) (balance : Number) (timestamp : String) :
    Option TrustStore := do
  let current ← store.current domain
  let balanceBefore := current.balance
  let balanceAfter := clamp balance
  let updated ← current.withBalance balanceAfter
  return { store with
    balances := store.balances.set domain updated
    override_log := store.override_log ++ [{
      timestamp
      override_type := .trust_grant
      domain
      balance_before := some balanceBefore
      balance_after := some balanceAfter }] }

/-- What `addPermanentGate` does to the store. -/
def addPermanentGate (store : TrustStore) (domain category timestamp : String) :
    Option TrustStore := do
  let gates ← store.currentGates domain
  return { store with
    permanent_gates := store.permanent_gates.set domain
      (if category ∈ gates then gates else gates ++ [category])
    override_log := store.override_log ++ [{
      timestamp
      override_type := .permanent_gate
      domain
      target_category := some category }] }

/-- What a call saves, from the store that it holds: nothing when it throws, and nothing for a
success beyond the rate limit. -/
def update : Call → TrustStore → Option TrustStore
  | .recordSuccess domain limited, store =>
    if limited then none else recordDelta store domain TRUST_SUCCESS_DELTA
  | .recordFailure domain, store => recordDelta store domain TRUST_FAILURE_DELTA
  | .setOverride domain balance timestamp, store =>
    TrustManager.setOverride store domain balance timestamp
  | .addPermanentGate domain category timestamp, store =>
    TrustManager.addPermanentGate store domain category timestamp

/-! ## The manager -/

/-- `TRUST_RATE_LIMIT_MAX`. -/
def TRUST_RATE_LIMIT_MAX : ℕ := 3

/-- `TRUST_RATE_LIMIT_WINDOW_MS`. -/
def TRUST_RATE_LIMIT_WINDOW_MS : ℤ := 3600000

/-- What a caller asks for. The time of a success is that of the request, the timestamp of an
entry that of its change. -/
inductive Request where
  | recordSuccess (domain : String) (now : ℤ)
  | recordFailure (domain : String)
  | setOverride (domain : String) (balance : Number) (timestamp : String)
  | addPermanentGate (domain category timestamp : String)

/-- `successTimestamps`. -/
abbrev SuccessTimestamps := String → List ℤ

/-- The start of a request: a success is recorded, unless there have been too many of late. -/
def arrive (successTimestamps : SuccessTimestamps) : Request → Call × SuccessTimestamps
  | .recordSuccess domain now =>
    let windowStart := now - TRUST_RATE_LIMIT_WINDOW_MS
    let timestamps := (successTimestamps domain).filter (windowStart ≤ ·)
    if TRUST_RATE_LIMIT_MAX ≤ timestamps.length then
      (.recordSuccess domain true, Function.update successTimestamps domain timestamps)
    else
      (.recordSuccess domain false,
        Function.update successTimestamps domain (timestamps ++ [now]))
  | .recordFailure domain => (.recordFailure domain, successTimestamps)
  | .setOverride domain balance timestamp =>
    (.setOverride domain balance timestamp, successTimestamps)
  | .addPermanentGate domain category timestamp =>
    (.addPermanentGate domain category timestamp, successTimestamps)

structure State where
  successTimestamps : SuccessTimestamps := fun _ => []
  io : WriteThrough.State Call TrustStore

abbrev Event := WriteThrough.Event Request

/-- The event of the cached store, and the timestamps after it. -/
def accept (successTimestamps : SuccessTimestamps) :
    Event → WriteThrough.Event Call × SuccessTimestamps
  | .start request =>
    (.start (arrive successTimestamps request).1, (arrive successTimestamps request).2)
  | .answer n => (.answer n, successTimestamps)
  | .take n => (.take n, successTimestamps)
  | .change n => (.change n, successTimestamps)
  | .arrive n => (.arrive n, successTimestamps)

def step (s : State) (e : Event) : Option State :=
  (WriteThrough.step update s.io (accept s.successTimestamps e).1).map fun io =>
    { successTimestamps := (accept s.successTimestamps e).2, io }

/-- The system of the calls on one manager. -/
def trustSystem : LTS State Event := .ofPartial step

/-- A manager that has not loaded its store. -/
def initial (stored : TrustStore) : State where
  io := { stored }

/-- The calls that a list of events starts. -/
def started (successTimestamps : SuccessTimestamps) : List Event → List Call
  | [] => []
  | e :: events => (accept successTimestamps e).1.started ++
      started (accept successTimestamps e).2 events

/-! ## What a change does -/

/-- The balance of a domain, 0 when it has none yet. -/
def TrustStore.balanceIn (store : TrustStore) (domain : String) : Number :=
  ((store.balances.get? domain).map (·.balance)).getD (.finite 0)

/-- The gates of a domain. -/
def TrustStore.gatesIn (store : TrustStore) (domain : String) : List String :=
  (store.permanent_gates.get? domain).getD []

/-- The calls that update the balance of a domain. -/
def Call.updates (domain : String) : Call → Bool
  | .recordSuccess d limited => d = domain && !limited
  | .recordFailure d => d = domain
  | .setOverride d _ _ => d = domain
  | .addPermanentGate .. => false

/-- What an update makes of a balance. -/
def Call.adjust (balance : Number) : Call → Number
  | .recordSuccess .. => clamp (balance.add TRUST_SUCCESS_DELTA)
  | .recordFailure _ => clamp (balance.add TRUST_FAILURE_DELTA)
  | .setOverride _ value _ => clamp value
  | .addPermanentGate .. => balance

/-- The entries that a call logs. -/
def Call.entries (store : TrustStore) : Call → List TrustOverrideLogEntry
  | .setOverride domain balance timestamp => [{
      timestamp
      override_type := .trust_grant
      domain
      balance_before := some (store.balanceIn domain)
      balance_after := some (clamp balance) }]
  | .addPermanentGate domain category timestamp => [{
      timestamp
      override_type := .permanent_gate
      domain
      target_category := some category }]
  | _ => []

theorem current_balance {store : TrustStore} {domain : String} {current : TrustBalance}
    (h : store.current domain = some current) : current.balance = store.balanceIn domain := by
  unfold TrustStore.current at h
  unfold TrustStore.balanceIn
  split at h
  · next balance hget =>
    obtain rfl := Option.some.inj h
    rw [hget]
    rfl
  · next hget =>
    split at h
    · cases h
    · obtain rfl := Option.some.inj h
      rw [hget]
      rfl

theorem currentGates_eq {store : TrustStore} {domain : String} {gates : List String}
    (h : store.currentGates domain = some gates) : gates = store.gatesIn domain := by
  unfold TrustStore.currentGates at h
  unfold TrustStore.gatesIn
  split at h
  · next found hget =>
    obtain rfl := Option.some.inj h
    rw [hget]
    rfl
  · next hget =>
    split at h
    · cases h
    · obtain rfl := Option.some.inj h
      rw [hget]
      rfl

theorem withBalance_balance {current updated : TrustBalance} {balance : Number}
    (h : current.withBalance balance = some updated) : updated.balance = balance := by
  unfold TrustBalance.withBalance at h
  split at h
  · obtain rfl := Option.some.inj h
    rfl
  · cases h

/-- The balances after one of them has been set. -/
theorem balanceIn_set (store : TrustStore) {domain : String} {updated : TrustBalance}
    {balance : Number} (h : updated.balance = balance) (log : List TrustOverrideLogEntry)
    (d : String) :
    TrustStore.balanceIn { store with
      balances := store.balances.set domain updated, override_log := log } d =
      if domain = d then balance else store.balanceIn d := by
  unfold TrustStore.balanceIn
  dsimp only
  rw [ObjectMap.get?_set]
  by_cases hd : domain = d
  · rw [if_pos hd.symm, if_pos hd, ← h]
    rfl
  · rw [if_neg (Ne.symm hd), if_neg hd]

/-- What a call makes of the store. -/
structure Changed (call : Call) (store store' : TrustStore) : Prop where
  balance : ∀ domain, store'.balanceIn domain =
    if call.updates domain then call.adjust (store.balanceIn domain) else store.balanceIn domain
  gates : ∀ domain category, category ∈ store'.gatesIn domain ↔
    category ∈ store.gatesIn domain ∨
      ∃ timestamp, call = .addPermanentGate domain category timestamp
  log : store'.override_log = store.override_log ++ call.entries store

theorem recordDelta_changed {store store' : TrustStore} {domain : String} {delta : Number}
    (h : recordDelta store domain delta = some store') :
    (∀ d, store'.balanceIn d =
      if domain = d then clamp ((store.balanceIn domain).add delta) else store.balanceIn d) ∧
      store'.gatesIn = store.gatesIn ∧ store'.override_log = store.override_log := by
  unfold recordDelta at h
  obtain ⟨current, hcurrent, h⟩ := Option.bind_eq_some_iff.mp h
  obtain ⟨updated, hupdated, h⟩ := Option.bind_eq_some_iff.mp h
  obtain rfl := Option.some.inj h
  refine ⟨fun d => ?_, rfl, rfl⟩
  rw [← current_balance hcurrent]
  exact balanceIn_set store (withBalance_balance hupdated) store.override_log d

/-- **What a call does to the store that it holds.** -/
theorem update_changed {call : Call} {store store' : TrustStore}
    (h : update call store = some store') : Changed call store store' := by
  cases call with
  | recordSuccess domain limited =>
    unfold update at h
    dsimp only at h
    split at h
    · cases h
    · next hlimited =>
      obtain ⟨hbalance, hgates, hlog⟩ := recordDelta_changed h
      refine ⟨fun d => ?_, fun d category => ?_, ?_⟩
      · rw [hbalance d]
        by_cases hd : domain = d
        · subst hd
          simp [Call.updates, Call.adjust, hlimited]
        · simp [Call.updates, hd]
      · rw [hgates]
        simp
      · rw [hlog]
        simp [Call.entries]
  | recordFailure domain =>
    obtain ⟨hbalance, hgates, hlog⟩ := recordDelta_changed h
    refine ⟨fun d => ?_, fun d category => ?_, ?_⟩
    · rw [hbalance d]
      by_cases hd : domain = d
      · subst hd
        simp [Call.updates, Call.adjust]
      · simp [Call.updates, hd]
    · rw [hgates]
      simp
    · rw [hlog]
      simp [Call.entries]
  | setOverride domain balance timestamp =>
    have h : setOverride store domain balance timestamp = some store' := h
    unfold setOverride at h
    obtain ⟨current, hcurrent, h⟩ := Option.bind_eq_some_iff.mp h
    obtain ⟨updated, hupdated, h⟩ := Option.bind_eq_some_iff.mp h
    obtain rfl := Option.some.inj h
    refine ⟨fun d => ?_, fun d category => ?_, ?_⟩
    · rw [balanceIn_set store (withBalance_balance hupdated)]
      by_cases hd : domain = d
      · simp [Call.updates, Call.adjust, hd]
      · simp [Call.updates, hd]
    · simp [TrustStore.gatesIn]
    · simp [Call.entries, current_balance hcurrent]
  | addPermanentGate domain category timestamp =>
    have h : addPermanentGate store domain category timestamp = some store' := h
    unfold addPermanentGate at h
    obtain ⟨gates, hgates, h⟩ := Option.bind_eq_some_iff.mp h
    obtain rfl := Option.some.inj h
    obtain rfl := currentGates_eq hgates
    refine ⟨fun d => ?_, fun d c => ?_, ?_⟩
    · rfl
    · unfold TrustStore.gatesIn
      dsimp only
      rw [ObjectMap.get?_set]
      by_cases hd : d = domain
      · subst hd
        rw [if_pos rfl]
        by_cases hmem : category ∈ (store.permanent_gates.get? d).getD []
        · rw [Option.getD_some, if_pos hmem]
          refine ⟨.inl, ?_⟩
          rintro (hc | ⟨t, ht⟩)
          · exact hc
          · cases ht
            exact hmem
        · rw [Option.getD_some, if_neg hmem, List.mem_append, List.mem_singleton]
          simp [eq_comm]
      · rw [if_neg hd]
        refine ⟨.inl, ?_⟩
        rintro (hc | ⟨t, ht⟩)
        · exact hc
        · cases ht
          exact absurd rfl hd
    · simp [Call.entries]

/-! ## Which calls change nothing -/

/-- The calls that may end without a change: they throw, or the rate limit is reached. -/
def Call.skipped : Call → Bool
  | .recordSuccess domain limited => limited || domain ∈ objectPrototype
  | .recordFailure domain => domain ∈ objectPrototype
  | .setOverride domain balance _ => domain ∈ objectPrototype || balance = .nan
  | .addPermanentGate domain .. => domain ∈ objectPrototype

theorem clamp_inBounds {value : Number} (h : value ≠ .nan) : inBounds (clamp value) = true := by
  cases value with
  | nan => exact absurd rfl h
  | negInf => decide +kernel
  | posInf => decide +kernel
  | finite q =>
    unfold clamp inBounds
    rw [Number.min_finite, Number.max_finite, Number.le_finite, Number.le_finite,
      Bool.and_eq_true, decide_eq_true_eq, decide_eq_true_eq]
    exact ⟨le_max_left _ _, max_le (by decide +kernel) (min_le_left _ _)⟩

theorem add_ne_nan {balance : Number} (h : inBounds balance = true) (q : ℚ) :
    balance.add (.finite q) ≠ .nan := by
  cases balance with
  | nan => cases h
  | negInf => exact Number.noConfusion
  | posInf => exact Number.noConfusion
  | finite b => exact Number.noConfusion

theorem current_none {store : TrustStore} {domain : String} (h : store.current domain = none) :
    domain ∈ objectPrototype := by
  unfold TrustStore.current at h
  split at h
  · cases h
  · split at h
    · next hmem => exact hmem
    · cases h

theorem currentGates_none {store : TrustStore} {domain : String}
    (h : store.currentGates domain = none) : domain ∈ objectPrototype := by
  unfold TrustStore.currentGates at h
  split at h
  · cases h
  · split at h
    · next hmem => exact hmem
    · cases h

theorem withBalance_none {current : TrustBalance} {value : Number}
    (h : current.withBalance (clamp value) = none) : value = .nan := by
  unfold TrustBalance.withBalance at h
  split at h
  · cases h
  · next hbounds => exact not_not.mp fun hnan => hbounds (clamp_inBounds hnan)

theorem recordDelta_none {store : TrustStore} {domain : String} {q : ℚ}
    (h : recordDelta store domain (.finite q) = none) : domain ∈ objectPrototype := by
  unfold recordDelta at h
  cases hcurrent : store.current domain with
  | none => exact current_none hcurrent
  | some current =>
    have h := Option.bind_eq_none_iff.mp h current hcurrent
    cases hupdated : current.withBalance (clamp (current.balance.add (.finite q))) with
    | none => exact absurd (withBalance_none hupdated) (add_ne_nan current.bounds q)
    | some updated => cases Option.bind_eq_none_iff.mp h updated hupdated

/-- A call that changes nothing throws, or is beyond the rate limit. -/
theorem update_none {call : Call} {store : TrustStore} (h : update call store = none) :
    call.skipped = true := by
  cases call with
  | recordSuccess domain limited =>
    cases limited with
    | true => rfl
    | false => exact decide_eq_true (recordDelta_none h)
  | recordFailure domain => exact decide_eq_true (recordDelta_none h)
  | setOverride domain balance timestamp =>
    have h : setOverride store domain balance timestamp = none := h
    unfold setOverride at h
    unfold Call.skipped
    rw [Bool.or_eq_true, decide_eq_true_eq, decide_eq_true_eq]
    cases hcurrent : store.current domain with
    | none => exact .inl (current_none hcurrent)
    | some current =>
      have h := Option.bind_eq_none_iff.mp h current hcurrent
      cases hupdated : current.withBalance (clamp balance) with
      | none => exact .inr (withBalance_none hupdated)
      | some updated => cases Option.bind_eq_none_iff.mp h updated hupdated
  | addPermanentGate domain category timestamp =>
    have h : addPermanentGate store domain category timestamp = none := h
    unfold addPermanentGate at h
    cases hgates : store.currentGates domain with
    | none => exact decide_eq_true (currentGates_none hgates)
    | some gates => cases Option.bind_eq_none_iff.mp h gates hgates

/-! ## Balances that are read -/

/-- `getBalance`, which throws on an inherited member. -/
def TrustStore.getBalance (store : TrustStore) (domain : String) : Option Number :=
  (store.current domain).map (·.balance)

/-- A balance that is read, after a call of this domain: it stays when the new one is refused. -/
def Call.settle (call : Call) (balance : Number) : Number :=
  if inBounds (call.adjust balance) = true then call.adjust balance else balance

theorem getBalance_set (store : TrustStore) {domain : String} {updated : TrustBalance}
    (log : List TrustOverrideLogEntry) (d : String) :
    TrustStore.getBalance { store with
      balances := store.balances.set domain updated, override_log := log } d =
      if domain = d then some updated.balance else store.getBalance d := by
  unfold TrustStore.getBalance TrustStore.current
  dsimp only
  rw [ObjectMap.get?_set]
  by_cases hd : domain = d
  · rw [if_pos hd.symm, if_pos hd]
    rfl
  · rw [if_neg (Ne.symm hd), if_neg hd]

/-- A change of one balance, with what it logs. -/
theorem getBalance_change (store : TrustStore) (domain : String) (value : Number → Number)
    (log : TrustBalance → List TrustOverrideLogEntry) (d : String) :
    ((((store.current domain).bind fun current =>
        (current.withBalance (value current.balance)).bind fun updated =>
          some { store with
            balances := store.balances.set domain updated, override_log := log current }
      ).getD store).getBalance d) =
      if domain = d then (store.getBalance d).map fun balance =>
        if inBounds (value balance) = true then value balance else balance
      else store.getBalance d := by
  cases hcurrent : store.current domain with
  | none =>
    split
    · next hd =>
      subst hd
      simp [TrustStore.getBalance, hcurrent]
    · rfl
  | some current =>
    rw [Option.bind_some]
    have hread : store.getBalance domain = some current.balance := by
      rw [TrustStore.getBalance, hcurrent]
      rfl
    unfold TrustBalance.withBalance
    split
    · next hbounds =>
      rw [Option.bind_some, Option.getD_some, getBalance_set]
      split
      · next hd =>
        rw [← hd, hread, Option.map_some, if_pos hbounds]
      · rfl
    · next hbounds =>
      rw [Option.bind_none, Option.getD_none]
      split
      · next hd =>
        rw [← hd, hread, Option.map_some, if_neg hbounds]
      · rfl

/-- **What a call makes of the balances that are read.** -/
theorem getBalance_update (call : Call) (store : TrustStore) (domain : String) :
    ((update call store).getD store).getBalance domain =
      if call.updates domain = true then (store.getBalance domain).map call.settle
      else store.getBalance domain := by
  cases call with
  | recordSuccess d limited =>
    cases limited with
    | true => simp [update, Call.updates]
    | false =>
      have hchange := getBalance_change store d (fun b => clamp (b.add TRUST_SUCCESS_DELTA))
        (fun _ => store.override_log) domain
      rw [show update (.recordSuccess d false) store =
        recordDelta store d TRUST_SUCCESS_DELTA from rfl]
      refine hchange.trans ?_
      by_cases hd : d = domain
      · simp [Call.updates, hd]
        rfl
      · simp [Call.updates, hd]
  | recordFailure d =>
    refine (getBalance_change store d (fun b => clamp (b.add TRUST_FAILURE_DELTA))
      (fun _ => store.override_log) domain).trans ?_
    by_cases hd : d = domain
    · simp [Call.updates, hd]
      rfl
    · simp [Call.updates, hd]
  | setOverride d balance timestamp =>
    refine (getBalance_change store d (fun _ => clamp balance)
      (fun current => store.override_log ++ [{
        timestamp
        override_type := .trust_grant
        domain := d
        balance_before := some current.balance
        balance_after := some (clamp balance) }]) domain).trans ?_
    by_cases hd : d = domain
    · simp [Call.updates, hd]
      rfl
    · simp [Call.updates, hd]
  | addPermanentGate d category timestamp =>
    unfold update addPermanentGate
    dsimp only
    cases store.currentGates d with
    | none => rfl
    | some gates => rfl

theorem clamp_eq {value : Number} (h : inBounds value = true) : clamp value = value := by
  cases value with
  | nan => cases h
  | negInf => exact absurd h (by decide +kernel)
  | posInf => exact absurd h (by decide +kernel)
  | finite q =>
    unfold inBounds at h
    rw [Number.le_finite, Number.le_finite, Bool.and_eq_true, decide_eq_true_eq,
      decide_eq_true_eq] at h
    unfold clamp
    rw [Number.min_finite, Number.max_finite, min_eq_right h.2, max_eq_right h.1]

/-! ## Several calls, one after the other -/

/-- The entries that calls log, one after the other. -/
def entriesOf (store : TrustStore) : List Call → List TrustOverrideLogEntry
  | [] => []
  | call :: calls => call.entries store ++ entriesOf ((update call store).getD store) calls

/-- **What several calls do to the store.** -/
theorem perform_changed {before after : TrustStore} {calls : List Call}
    (h : WriteThrough.perform update before calls = some after) :
    (∀ domain, after.balanceIn domain =
      (calls.filter (·.updates domain)).foldl Call.adjust (before.balanceIn domain)) ∧
    (∀ domain category, category ∈ after.gatesIn domain ↔ category ∈ before.gatesIn domain ∨
      ∃ timestamp, .addPermanentGate domain category timestamp ∈ calls) ∧
    after.override_log = before.override_log ++ entriesOf before calls := by
  induction calls generalizing before with
  | nil =>
    obtain rfl := Option.some.inj h
    exact ⟨fun _ => rfl, by simp, (List.append_nil _).symm⟩
  | cons call calls ih =>
    obtain ⟨next, hupdate, hrest⟩ := WriteThrough.perform_cons h
    have hchanged := update_changed hupdate
    obtain ⟨hbalance, hgates, hlog⟩ := ih hrest
    refine ⟨fun domain => ?_, fun domain category => ?_, ?_⟩
    · rw [hbalance domain, hchanged.balance domain, List.filter_cons]
      split <;> rfl
    · rw [hgates, hchanged.gates, or_assoc]
      refine or_congr_right ?_
      constructor
      · rintro (⟨t, ht⟩ | ⟨t, ht⟩)
        · exact ⟨t, by simp [ht]⟩
        · exact ⟨t, List.mem_cons_of_mem _ ht⟩
      · rintro ⟨t, ht⟩
        rcases List.mem_cons.mp ht with ht | ht
        · exact .inl ⟨t, ht.symm⟩
        · exact .inr ⟨t, ht⟩
    · rw [hlog, hchanged.log, List.append_assoc]
      rw [entriesOf, hupdate]
      rfl

/-! ## Whole runs -/

/-- What a step of the manager requires of its cached store. -/
def Current (s : State) (e : Event) : Prop :=
  WriteThrough.Current update s.io (accept s.successTimestamps e).1

/-- A step of the manager is one of its cached store. -/
theorem step_io {s s' : State} {e : Event} (h : step s e = some s') :
    WriteThrough.step update s.io (accept s.successTimestamps e).1 = some s'.io ∧
      s'.successTimestamps = (accept s.successTimestamps e).2 := by
  obtain ⟨io, hio, rfl⟩ := Option.map_eq_some_iff.mp h
  exact ⟨hio, rfl⟩

theorem run_started {s s' : State} {events : List Event} (hrun : trustSystem.Run s events s') :
    s'.io.started.Perm (s.io.started ++ started s.successTimestamps events) := by
  induction events generalizing s with
  | nil =>
    rw [hrun.nil_inv]
    simp [started]
  | cons e events ih =>
    obtain ⟨m, hstep, hrest⟩ := LTS.Run.cons_iff.mp hrun
    obtain ⟨hio, htimestamps⟩ := step_io hstep
    refine (ih hrest).trans ?_
    rw [htimestamps, started, ← List.append_assoc]
    exact (WriteThrough.step_started hio).append_right _

/-- What is stored when all calls of a run have ended. -/
structure NothingLost (before : TrustStore) (events : List Event) (s : State) : Prop where
  /-- A call has resolved, unless it threw or was beyond the rate limit. -/
  resolved : ∃ ended, (s.io.resolved ++ ended).Perm (started (fun _ => []) events) ∧
    ∀ call ∈ ended, call.skipped = true
  /-- Every gate that was added is there, and every gate that was there before. -/
  gates : ∀ domain category, (category ∈ before.gatesIn domain ∨
    ∃ timestamp, .addPermanentGate domain category timestamp ∈ s.io.resolved) →
      category ∈ s.io.stored.gatesIn domain
  /-- The log has the entries of all calls. -/
  log : ∃ order, order.Perm s.io.resolved ∧
    s.io.stored.override_log = before.override_log ++ entriesOf before order
  /-- The balance of a domain is what its updates make of the one before. -/
  balances : ∀ domain, ∃ order : List Call, order.Perm (s.io.resolved.filter (·.updates domain)) ∧
    s.io.stored.balanceIn domain = order.foldl Call.adjust (before.balanceIn domain)

/-- **In a run in which the calls that change the store hold its last saved contents, and the
saves arrive in order, no update is lost.** -/
theorem nothing_lost_of_current (before : TrustStore) (events : List Event) (s : State)
    (hrun : trustSystem.Run (initial before) events s)
    (hended : s.io.calls = [] ∧ s.io.saves = [])
    (hcurrent : trustSystem.Always (initial before) events Current) :
    NothingLost before events s := by
  have hfirst : WriteThrough.Applied update before (initial before).io := rfl
  have happlied : WriteThrough.Applied update before s.io := by
    refine hrun.guarded (P := fun s => WriteThrough.Applied update before s.io) hfirst hcurrent ?_
    intro a e b hstep he ha
    exact WriteThrough.step_applied (step_io hstep).1 he ha
  have hunsaved : ∀ call ∈ s.io.unsaved, call.skipped = true := by
    refine hrun.invariant (P := fun s => ∀ call ∈ s.io.unsaved, call.skipped = true) ?_ ?_
    · intro call hcall
      cases hcall
    · intro a e b hstep ha
      exact WriteThrough.step_unsaved (P := fun call => call.skipped = true)
        (fun _ _ => update_none) (step_io hstep).1 ha
  have hstarted := run_started hrun
  obtain ⟨hbalances, hgates, hlog⟩ :=
    perform_changed (WriteThrough.stored_of_applied happlied hended.2)
  constructor
  · refine ⟨s.io.unsaved, ?_, hunsaved⟩
    simpa [WriteThrough.State.started, hended.1, hended.2, initial] using hstarted
  · exact fun domain category => (hgates domain category).mpr
  · exact ⟨s.io.resolved, .refl _, hlog⟩
  · exact fun domain => ⟨_, .refl _, hbalances domain⟩

/-! ## Sample runs -/

/-- Two gates are added; the second call finds the store that the first has loaded. -/
def sampleEvents : List Event :=
  [.start (.addPermanentGate "shell" "delete" "1"), .answer 0, .take 0,
    .start (.addPermanentGate "web" "post" "1"), .change 0, .change 0, .arrive 0, .arrive 0]

/-- The state after the events. -/
def sampleState (events : List Event) : State :=
  (LTS.execPartial step (initial emptyTrustStore) events).getD (initial emptyTrustStore)

theorem nothing_lost_of_current_sample :
    NothingLost emptyTrustStore sampleEvents (sampleState sampleEvents) := by
  refine nothing_lost_of_current emptyTrustStore sampleEvents _ (LTS.run_execPartial rfl)
    ⟨rfl, rfl⟩ (LTS.ExecPartialAlways.always (f := step) ?_)
  refine ⟨trivial, trivial, trivial, trivial, ?_, ?_, rfl, rfl, trivial⟩
  · intro call object value hcall hobject _
    cases hcall
    cases hobject
    rfl
  · intro call object value hcall hobject _
    cases hcall
    cases hobject
    rfl

/-- Two gates are added by a manager that has not loaded its store. -/
def sampleLoads : List Event :=
  [.start (.addPermanentGate "shell" "delete" "1"), .start (.addPermanentGate "web" "post" "1"),
    .answer 0, .answer 1, .take 0, .change 0, .take 0, .change 0, .arrive 0, .arrive 0]

/-- **A gate is lost**: the second call takes a store of its own, without the first gate. -/
theorem gate_lost :
    trustSystem.Run (initial emptyTrustStore) sampleLoads (sampleState sampleLoads) ∧
      (sampleState sampleLoads).io.calls = [] ∧ (sampleState sampleLoads).io.saves = [] ∧
      ¬ NothingLost emptyTrustStore sampleLoads (sampleState sampleLoads) := by
  refine ⟨LTS.run_execPartial rfl, rfl, rfl, fun h => ?_⟩
  have hresolved : .addPermanentGate "shell" "delete" "1" ∈
      (sampleState sampleLoads).io.resolved := List.mem_cons_self
  have hlost : "delete" ∉ (sampleState sampleLoads).io.stored.gatesIn "shell" := by decide
  exact hlost (h.gates "shell" "delete" (.inr ⟨"1", hresolved⟩))

end PulSeed.TrustManager
