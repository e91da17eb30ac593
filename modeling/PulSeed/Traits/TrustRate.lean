import Mathlib.Tactic.Linarith
import PulSeed.Lib.SlidingWindow
import PulSeed.Traits.TrustManager

/-!
# The rate of trust (`platform/traits/trust-manager.ts`)

`recordSuccess` notes the time of a call before it loads the store and raises the balance, and
skips a call when three are noted for the domain in the last hour.

- `Manager.recordSuccess`: one call; `recordSuccess_cases` says what it can do.
- `Manager.Admits`: what a manager notes are the calls that it has admitted (`admits`).
- `rate_limited_iff`: **at most three calls raise a balance in any hour, and a call that finds
  fewer raises it, exactly when every call that is not beyond the limit can be recorded.**
-/

namespace PulSeed.TrustManager

open MemoryTruth (objectPrototype)

/-! ## Calls one after another -/

/-- A manager between two calls. -/
structure Manager where
  successTimestamps : SuccessTimestamps := fun _ => []
  cache : Option TrustStore := none

/-- A call of `recordSuccess`, with the store that `loadStore` gets if it has to; none when it
throws. -/
structure Success where
  domain : String
  now : ℤ
  loaded : Option TrustStore

/-- What a call has done: it was beyond the rate limit, it has raised the balance, it has found
the balance at its upper bound, it has thrown. -/
structure Report where
  limited : Bool := false
  raised : Bool := false
  full : Bool := false
  threw : Bool := false

/-- The balance of a domain is at its upper bound. -/
def TrustStore.isFull (store : TrustStore) (domain : String) : Bool :=
  (Number.finite 100).le (store.balanceIn domain)

/-- The noted times of a domain in the last hour. -/
def Manager.timestamps (m : Manager) (domain : String) (now : ℤ) : List ℤ :=
  (m.successTimestamps domain).filter (now - TRUST_RATE_LIMIT_WINDOW_MS ≤ ·)

/-- The call is beyond the rate limit. -/
def Manager.limits (m : Manager) (c : Success) : Bool :=
  TRUST_RATE_LIMIT_MAX ≤ (m.timestamps c.domain c.now).length

/-- `recordSuccess`. A store that cannot be saved keeps the balance in memory. -/
def Manager.recordSuccess (m : Manager) (c : Success) : Manager × Report :=
  let (call, successTimestamps) := arrive m.successTimestamps (.recordSuccess c.domain c.now)
  match m.cache.or c.loaded with
  | none => ({ m with successTimestamps }, { limited := m.limits c, threw := true })
  | some store =>
    if m.limits c then
      ({ successTimestamps, cache := some store },
        { limited := true, full := store.isFull c.domain })
    else
      match update call store with
      | none => ({ successTimestamps, cache := some store },
          { full := store.isFull c.domain, threw := true })
      | some store' => ({ successTimestamps, cache := some store' }, {
          raised := (store.balanceIn c.domain).lt (store'.balanceIn c.domain)
          full := store.isFull c.domain })

/-- The calls on one manager, each with what it has done. -/
def successSystem : LTS Manager (Success × Report) := .ofFn Manager.recordSuccess

/-- The calls that raised the balance of a domain between two times. -/
def raises (domain : String) (first last : ℤ) (calls : List (Success × Report)) :
    List (Success × Report) :=
  calls.filter fun e =>
    e.1.domain = domain ∧ first ≤ e.1.now ∧ e.1.now ≤ last ∧ e.2.raised = true

/-- At most three calls raise a balance in any hour, and a call that finds fewer than three in
the hour before it raises the balance, unless it is at its upper bound. -/
structure RateLimited (calls : List (Success × Report)) : Prop where
  bounded : ∀ domain first last, last - first ≤ TRUST_RATE_LIMIT_WINDOW_MS →
    (raises domain first last calls).length ≤ TRUST_RATE_LIMIT_MAX
  tight : ∀ before e after, calls = before ++ e :: after →
    (raises e.1.domain (e.1.now - TRUST_RATE_LIMIT_WINDOW_MS) e.1.now before).length <
      TRUST_RATE_LIMIT_MAX → e.2.raised = true ∨ e.2.full = true

/-- The call can be recorded: it is beyond the rate limit, or there is a store, and the name of
the domain is not that of an inherited member that the store finds in place of a balance. -/
def Manager.CanRecord (m : Manager) (e : Success × Report) : Prop :=
  m.limits e.1 = true ∨
    ∃ store, m.cache.or e.1.loaded = some store ∧
      (e.1.domain ∈ objectPrototype → (store.balances.get? e.1.domain).isSome = true)

instance (m : Manager) (e : Success × Report) : Decidable (m.CanRecord e) :=
  decidable_of_iff (m.limits e.1 = true ∨ (m.cache.or e.1.loaded).any (fun store =>
    e.1.domain ∈ objectPrototype → (store.balances.get? e.1.domain).isSome = true) = true)
    (by simp [Manager.CanRecord, Option.any_eq_true, imp_iff_not_or])

/-! ## One call -/

section Call

variable {m : Manager} {c : Success} {store store' : TrustStore} {domain : String}

/-- The noted times after a call. -/
def Manager.noted (m : Manager) (c : Success) : SuccessTimestamps :=
  Function.update m.successTimestamps c.domain
    (m.timestamps c.domain c.now ++ if m.limits c then [] else [c.now])

theorem arrive_recordSuccess : arrive m.successTimestamps (.recordSuccess c.domain c.now) =
    (.recordSuccess c.domain (m.limits c), m.noted c) := by
  unfold arrive Manager.noted Manager.limits Manager.timestamps
  dsimp only
  split
  · next hmany => rw [decide_eq_true hmany, if_pos rfl, List.append_nil]
  · next hfew => rw [decide_eq_false hfew, if_neg Bool.false_ne_true]

/-- A call throws without a store, is beyond the limit, throws with one, or raises. -/
theorem recordSuccess_cases (m : Manager) (c : Success) :
    (m.cache.or c.loaded = none ∧ m.recordSuccess c =
      ({ m with successTimestamps := m.noted c }, { limited := m.limits c, threw := true })) ∨
    (∃ store, m.cache.or c.loaded = some store ∧ m.limits c = true ∧ m.recordSuccess c =
      (⟨m.noted c, some store⟩, { limited := true, full := store.isFull c.domain })) ∨
    (∃ store, m.cache.or c.loaded = some store ∧ m.limits c = false ∧
      recordDelta store c.domain TRUST_SUCCESS_DELTA = none ∧ m.recordSuccess c =
        (⟨m.noted c, some store⟩, { full := store.isFull c.domain, threw := true })) ∨
    (∃ store store', m.cache.or c.loaded = some store ∧ m.limits c = false ∧
      recordDelta store c.domain TRUST_SUCCESS_DELTA = some store' ∧ m.recordSuccess c =
        (⟨m.noted c, some store'⟩, {
          raised := (store.balanceIn c.domain).lt (store'.balanceIn c.domain)
          full := store.isFull c.domain })) := by
  unfold Manager.recordSuccess
  rw [arrive_recordSuccess]
  dsimp only
  cases hstore : m.cache.or c.loaded with
  | none => exact .inl ⟨rfl, rfl⟩
  | some store =>
    right
    dsimp only
    cases hlimits : m.limits c with
    | true => exact .inl ⟨store, rfl, rfl, rfl⟩
    | false =>
      right
      cases hdelta : recordDelta store c.domain TRUST_SUCCESS_DELTA with
      | none =>
        refine .inl ⟨store, rfl, rfl, hdelta, ?_⟩
        unfold update
        simp only [Bool.false_eq_true, if_false, hdelta]
      | some store' =>
        refine .inr ⟨store, store', rfl, rfl, hdelta, ?_⟩
        unfold update
        simp only [Bool.false_eq_true, if_false, hdelta]

theorem recordSuccess_timestamps : (m.recordSuccess c).1.successTimestamps = m.noted c := by
  rcases recordSuccess_cases m c with ⟨-, h⟩ | ⟨store, -, -, h⟩ | ⟨store, -, -, -, h⟩ |
    ⟨store, store', -, -, -, h⟩
  all_goals rw [h]

theorem recordSuccess_limited : (m.recordSuccess c).2.limited = m.limits c := by
  rcases recordSuccess_cases m c with ⟨-, h⟩ | ⟨store, -, hlimits, h⟩ | ⟨store, -, hlimits, -, h⟩ |
    ⟨store, store', -, hlimits, -, h⟩
  · rw [h]
  all_goals rw [h, hlimits]

/-- A call that raises a balance is not beyond the limit. -/
theorem limited_of_raised (h : (m.recordSuccess c).2.raised = true) :
    (m.recordSuccess c).2.limited = false := by
  rcases recordSuccess_cases m c with ⟨-, hc⟩ | ⟨store, -, -, hc⟩ | ⟨store, -, -, -, hc⟩ |
    ⟨store, store', -, -, -, hc⟩
  · rw [hc] at h
    cases h
  · rw [hc] at h
    cases h
  · rw [hc] at h
    cases h
  · rw [hc]

/-! ## Full balances -/

theorem balanceIn_finite (store : TrustStore) (domain : String) :
    ∃ q, store.balanceIn domain = .finite q ∧ -100 ≤ q ∧ q ≤ 100 := by
  have hbounds : inBounds (store.balanceIn domain) = true := by
    unfold TrustStore.balanceIn
    cases store.balances.get? domain with
    | none => decide +kernel
    | some balance => exact balance.bounds
  cases hbalance : store.balanceIn domain with
  | finite q =>
    rw [hbalance] at hbounds
    exact ⟨q, rfl, by simpa [inBounds] using hbounds⟩
  | nan | negInf | posInf =>
    rw [hbalance] at hbounds
    exact absurd hbounds (by decide +kernel)

/-- The balance after a success. -/
theorem balanceIn_recordDelta (h : recordDelta store domain TRUST_SUCCESS_DELTA = some store')
    {q : ℚ} (hq : store.balanceIn domain = .finite q) :
    store'.balanceIn domain = .finite (max (-100) (min 100 (q + 3))) := by
  rw [(recordDelta_changed h).1 domain, if_pos rfl, hq]
  unfold clamp TRUST_SUCCESS_DELTA
  rw [Number.add_finite, Number.min_finite, Number.max_finite]

/-- **A success raises a balance that is below its upper bound.** -/
theorem raised_or_full (h : recordDelta store domain TRUST_SUCCESS_DELTA = some store') :
    (store.balanceIn domain).lt (store'.balanceIn domain) = true ∨
      store.isFull domain = true := by
  obtain ⟨q, hq, hlow, hhigh⟩ := balanceIn_finite store domain
  unfold TrustStore.isFull
  rw [balanceIn_recordDelta h hq, hq, Number.lt_finite, Number.le_finite, decide_eq_true_eq,
    decide_eq_true_eq]
  rcases le_or_gt 100 q with hfull | hless
  · exact .inr hfull
  · exact .inl (lt_max_of_lt_right (lt_min hless (by linarith)))

theorem isFull_recordDelta {d : String}
    (h : recordDelta store domain TRUST_SUCCESS_DELTA = some store')
    (hfull : store.isFull d = true) : store'.isFull d = true := by
  unfold TrustStore.isFull at hfull ⊢
  by_cases hd : domain = d
  · subst hd
    obtain ⟨q, hq, hlow, hhigh⟩ := balanceIn_finite store domain
    rw [hq, Number.le_finite, decide_eq_true_eq] at hfull
    rw [balanceIn_recordDelta h hq, Number.le_finite, decide_eq_true_eq]
    exact le_max_of_le_right (le_min le_rfl (by linarith))
  · rw [(recordDelta_changed h).1 d, if_neg hd]
    exact hfull

/-- The store in memory has the balance of the domain at its upper bound. -/
def Manager.IsFull (m : Manager) (domain : String) : Prop :=
  ∃ store, m.cache = some store ∧ store.isFull domain = true

/-- A balance at its upper bound stays there. -/
theorem recordSuccess_isFull {d : String} (h : m.IsFull d) : (m.recordSuccess c).1.IsFull d := by
  obtain ⟨held, hcache, hfull⟩ := h
  have hor : m.cache.or c.loaded = some held := by
    rw [hcache]
    rfl
  rcases recordSuccess_cases m c with ⟨hnone, -⟩ | ⟨store, hstore, -, hc⟩ |
    ⟨store, hstore, -, -, hc⟩ | ⟨store, store', hstore, -, hdelta, hc⟩
  · rw [hor] at hnone
    cases hnone
  · obtain rfl := Option.some.inj (hor.symm.trans hstore)
    rw [hc]
    exact ⟨held, rfl, hfull⟩
  · obtain rfl := Option.some.inj (hor.symm.trans hstore)
    rw [hc]
    exact ⟨held, rfl, hfull⟩
  · obtain rfl := Option.some.inj (hor.symm.trans hstore)
    rw [hc]
    exact ⟨store', rfl, isFull_recordDelta hdelta hfull⟩

/-- What a call finds at its upper bound is there afterwards. -/
theorem isFull_of_full (h : (m.recordSuccess c).2.full = true) :
    (m.recordSuccess c).1.IsFull c.domain := by
  rcases recordSuccess_cases m c with ⟨-, hc⟩ | ⟨store, hstore, -, hc⟩ |
    ⟨store, hstore, -, -, hc⟩ | ⟨store, store', hstore, -, hdelta, hc⟩
  · rw [hc] at h
    cases h
  · rw [hc] at h ⊢
    exact ⟨store, rfl, h⟩
  · rw [hc] at h ⊢
    exact ⟨store, rfl, h⟩
  · rw [hc] at h ⊢
    exact ⟨store', rfl, isFull_recordDelta hdelta h⟩

theorem full_of_isFull (h : m.IsFull c.domain) : (m.recordSuccess c).2.full = true := by
  obtain ⟨held, hcache, hfull⟩ := h
  have hor : m.cache.or c.loaded = some held := by
    rw [hcache]
    rfl
  rcases recordSuccess_cases m c with ⟨hnone, -⟩ | ⟨store, hstore, -, hc⟩ |
    ⟨store, hstore, -, -, hc⟩ | ⟨store, store', hstore, -, -, hc⟩
  · rw [hor] at hnone
    cases hnone
  all_goals
    obtain rfl := Option.some.inj (hor.symm.trans hstore)
    rw [hc]
    exact hfull

/-- A success cannot be recorded when an inherited member is found in place of a balance. -/
theorem recordDelta_none_iff : recordDelta store domain TRUST_SUCCESS_DELTA = none ↔
    domain ∈ objectPrototype ∧ store.balances.get? domain = none := by
  constructor
  · intro h
    refine ⟨recordDelta_none h, ?_⟩
    cases hget : store.balances.get? domain with
    | none => rfl
    | some current =>
      have hcurrent : store.current domain = some current := by
        unfold TrustStore.current
        rw [hget]
      have h := Option.bind_eq_none_iff.mp h current hcurrent
      cases hupdated : current.withBalance (clamp (current.balance.add TRUST_SUCCESS_DELTA)) with
      | none => exact absurd (withBalance_none hupdated) (add_ne_nan current.bounds 3)
      | some updated => cases Option.bind_eq_none_iff.mp h updated hupdated
  · rintro ⟨hmem, hget⟩
    unfold recordDelta TrustStore.current
    rw [hget, if_pos hmem]
    rfl

theorem recordDelta_ne_none_iff : recordDelta store domain TRUST_SUCCESS_DELTA ≠ none ↔
    (domain ∈ objectPrototype → (store.balances.get? domain).isSome = true) := by
  rw [Ne, recordDelta_none_iff, not_and, Option.isSome_iff_ne_none]

/-- **Which admitted calls raise the balance or find it at its upper bound.** -/
theorem canRecord_iff (hlimits : m.limits c = false) :
    m.CanRecord (c, (m.recordSuccess c).2) ↔
      (m.recordSuccess c).2.raised = true ∨ (m.recordSuccess c).2.full = true := by
  unfold Manager.CanRecord
  rw [hlimits]
  simp only [Bool.false_eq_true, false_or, ← recordDelta_ne_none_iff]
  rcases recordSuccess_cases m c with ⟨hnone, hc⟩ | ⟨store, -, hcontra, -⟩ |
    ⟨store, hstore, -, hdelta, hc⟩ | ⟨store, store', hstore, -, hdelta, hc⟩
  · rw [hnone, hc]
    simp
  · rw [hlimits] at hcontra
    cases hcontra
  · -- without a balance of its own, the domain is not at the upper bound either
    have hfull : store.isFull c.domain = false := by
      unfold TrustStore.isFull TrustStore.balanceIn
      rw [(recordDelta_none_iff.mp hdelta).2]
      decide +kernel
    rw [hstore, hc]
    simp [hdelta, hfull]
  · rw [hstore, hc]
    simp only [Option.some.injEq, exists_eq_left', hdelta]
    exact iff_of_true (Option.some_ne_none _) (raised_or_full hdelta)

end Call

/-! ## What is noted -/

section Runs

variable {calls : List (Success × Report)} {m : Manager} {domain : String}

/-- The times of the admitted calls of a domain. -/
def admitted (domain : String) (calls : List (Success × Report)) : List ℤ :=
  (calls.filter fun e => e.1.domain = domain ∧ e.2.limited = false).map fun e => e.1.now

theorem admitted_append (before : List (Success × Report)) (e : Success × Report) :
    admitted domain (before ++ [e]) = admitted domain before ++
      if e.1.domain = domain ∧ e.2.limited = false then [e.1.now] else [] := by
  unfold admitted
  rw [List.filter_append, List.map_append]
  congr 1
  by_cases h : e.1.domain = domain ∧ e.2.limited = false
  · simp [h]
  · rw [List.filter_cons_of_neg (by simpa using h), if_neg h]
    rfl

/-- What a manager notes are the calls that it admits, of which any hour has at most three. -/
structure Manager.Admits (m : Manager) (calls : List (Success × Report)) : Prop where
  keeps : ∀ domain,
    KeepsAll TRUST_RATE_LIMIT_WINDOW_MS (calls.map (·.1.now)) (admitted domain calls)
      (m.successTimestamps domain)
  bounded : ∀ domain,
    Bounded TRUST_RATE_LIMIT_WINDOW_MS TRUST_RATE_LIMIT_MAX (admitted domain calls)
  raised : ∀ e ∈ calls, e.2.raised = true → e.2.limited = false

/-- **One call**, no earlier than those before it. -/
theorem Manager.Admits.add {c : Success} (h : m.Admits calls)
    (hlast : ∀ t ∈ calls.map (·.1.now), t ≤ c.now) :
    (m.recordSuccess c).1.Admits (calls ++ [(c, (m.recordSuccess c).2)]) := by
  have hkept : ∀ d, m.timestamps d c.now =
      since TRUST_RATE_LIMIT_WINDOW_MS c.now (m.successTimestamps d) := fun _ => rfl
  refine ⟨fun d => ?_, fun d => ?_, ?_⟩
  · rw [recordSuccess_timestamps, admitted_append, recordSuccess_limited, List.map_append,
      List.map_singleton]
    dsimp only
    unfold Manager.noted
    by_cases hd : c.domain = d
    · subst hd
      rw [Function.update_self, hkept]
      cases m.limits c with
      | true =>
        rw [if_pos rfl, if_neg (by simp), List.append_nil, List.append_nil]
        exact (h.keeps c.domain).forget hlast
      | false =>
        rw [if_neg Bool.false_ne_true, if_pos ⟨rfl, rfl⟩]
        exact (h.keeps c.domain).add hlast
    · rw [Function.update_of_ne (Ne.symm hd), if_neg fun hcontra => hd hcontra.1, List.append_nil]
      exact fun now hnow => h.keeps d now fun t ht => hnow t (List.mem_append_left _ ht)
  · rw [admitted_append, recordSuccess_limited]
    dsimp only
    split
    · next hadmitted =>
      obtain ⟨rfl, hlimits⟩ := hadmitted
      refine (h.bounded c.domain).add (h.keeps c.domain) hlast ?_
      unfold Manager.limits at hlimits
      rw [hkept, decide_eq_false_iff_not, not_le] at hlimits
      exact hlimits
    · rw [List.append_nil]
      exact h.bounded d
  · intro e he hraised
    rcases List.mem_append.mp he with he | he
    · exact h.raised e he hraised
    · obtain rfl := List.mem_singleton.mp he
      exact limited_of_raised hraised

/-- The times of the calls do not decrease. -/
def InOrder (calls : List (Success × Report)) : Prop :=
  (calls.map (·.1.now)).Pairwise (· ≤ ·)

instance : Decidable (InOrder calls) :=
  inferInstanceAs (Decidable ((calls.map (·.1.now)).Pairwise (· ≤ ·)))

theorem InOrder.before {e : Success × Report} {after : List (Success × Report)}
    (h : InOrder (calls ++ e :: after)) :
    InOrder calls ∧ ∀ t ∈ calls.map (·.1.now), t ≤ e.1.now := by
  unfold InOrder at h
  rw [List.map_append, List.map_cons] at h
  obtain ⟨hbefore, -, hlast⟩ := List.pairwise_append.mp h
  exact ⟨hbefore, fun t ht => hlast t ht _ List.mem_cons_self⟩

/-- **What a manager notes, in every run.** -/
theorem admits (hrun : successSystem.Run {} calls m) (horder : InOrder calls) : m.Admits calls := by
  refine hrun.history (P := fun calls m => InOrder calls → m.Admits calls) (fun _ => ?_) ?_ horder
  · exact ⟨fun _ _ _ => rfl, fun _ _ _ _ => Nat.zero_le _, fun _ he => nomatch he⟩
  · rintro before m ⟨c, report⟩ m' - hstep ih horder
    obtain ⟨hbefore, hlast⟩ := horder.before
    have hstep : m.recordSuccess c = (m', report) := hstep
    have hadmits := (ih hbefore).add hlast
    rwa [hstep] at hadmits

/-- Of the admitted calls, no more raise a balance than there are. -/
theorem raises_length_le (h : ∀ e ∈ calls, e.2.raised = true → e.2.limited = false)
    (first last : ℤ) : (raises domain first last calls).length ≤
      (between first last (admitted domain calls)).length := by
  unfold raises between admitted
  rw [List.filter_map, List.length_map, List.filter_filter, ← List.countP_eq_length_filter,
    ← List.countP_eq_length_filter]
  refine List.countP_mono_left fun e he hraises => ?_
  obtain ⟨hdomain, hfirst, hlast, hraised⟩ := of_decide_eq_true hraises
  simp [hdomain, hfirst, hlast, h e he hraised]

/-- Of the calls so far, the limiter counts no more than are in the hour. -/
theorem since_length_le {now : ℤ} (hlast : ∀ t ∈ calls.map (·.1.now), t ≤ now) :
    (since TRUST_RATE_LIMIT_WINDOW_MS now (admitted domain calls)).length ≤
      (between (now - TRUST_RATE_LIMIT_WINDOW_MS) now (admitted domain calls)).length := by
  unfold since between
  rw [← List.countP_eq_length_filter, ← List.countP_eq_length_filter]
  refine List.countP_mono_left fun t ht hsince => ?_
  obtain ⟨e, he, rfl⟩ := List.mem_map.mp ht
  have hle : e.1.now ≤ now := hlast _ (List.mem_map_of_mem (List.mem_of_mem_filter he))
  exact decide_eq_true ⟨of_decide_eq_true hsince, hle⟩

/-- When every admitted call of a domain raises its balance, the limiter counts no more. -/
theorem admitted_length_le {first last : ℤ}
    (h : ∀ e ∈ calls, e.1.domain = domain → e.2.limited = false → e.2.raised = true) :
    (between first last (admitted domain calls)).length ≤
      (raises domain first last calls).length := by
  unfold raises between admitted
  rw [List.filter_map, List.length_map, List.filter_filter, ← List.countP_eq_length_filter,
    ← List.countP_eq_length_filter]
  refine List.countP_mono_left fun e he hadmitted => ?_
  rw [Bool.and_eq_true, decide_eq_true_eq] at hadmitted
  obtain ⟨hwindow, hdomain, hlimited⟩ := hadmitted
  obtain ⟨hfirst, hlast⟩ := of_decide_eq_true hwindow
  exact decide_eq_true ⟨hdomain, hfirst, hlast, h e he hdomain hlimited⟩

/-- The calls of a domain that find it at its upper bound leave it there. -/
theorem isFull_of_mem (hrun : successSystem.Run {} calls m) :
    ∀ e ∈ calls, e.2.full = true → m.IsFull e.1.domain := by
  refine hrun.history (P := fun calls m => ∀ e ∈ calls, e.2.full = true → m.IsFull e.1.domain)
    (fun e he => nomatch he) ?_
  rintro before m ⟨c, report⟩ m' - hstep ih e he hfull
  have hstep : m.recordSuccess c = (m', report) := hstep
  have hm : m' = (m.recordSuccess c).1 := by rw [hstep]
  have hreport : report = (m.recordSuccess c).2 := by rw [hstep]
  subst hm hreport
  rcases List.mem_append.mp he with he | he
  · exact recordSuccess_isFull (ih e he hfull)
  · obtain rfl := List.mem_singleton.mp he
    exact isFull_of_full hfull

/-- The reports of a run are those of its calls. -/
theorem report_of_run {before after : List (Success × Report)} {e : Success × Report} {a : Manager}
    (hrun : successSystem.Run {} (before ++ e :: after) m)
    (hbefore : successSystem.Run {} before a) : e.2 = (a.recordSuccess e.1).2 := by
  obtain ⟨b, hb, hrest⟩ := LTS.Run.append_iff.mp hrun
  obtain rfl := hb.unique hbefore
  obtain ⟨b', hstep, -⟩ := LTS.Run.cons_iff.mp hrest
  have hstep : b.recordSuccess e.1 = (b', e.2) := hstep
  rw [hstep]

/-- **At most three calls raise a balance in any hour.** -/
theorem raises_bounded (hrun : successSystem.Run {} calls m) (horder : InOrder calls)
    {first last : ℤ} (hwidth : last - first ≤ TRUST_RATE_LIMIT_WINDOW_MS) :
    (raises domain first last calls).length ≤ TRUST_RATE_LIMIT_MAX :=
  (raises_length_le (admits hrun horder).raised first last).trans
    ((admits hrun horder).bounded domain first last hwidth)

/-- What the limiter looks at, before a call. -/
theorem timestamps_eq (h : m.Admits calls) {now : ℤ}
    (hlast : ∀ t ∈ calls.map (·.1.now), t ≤ now) :
    m.timestamps domain now = since TRUST_RATE_LIMIT_WINDOW_MS now (admitted domain calls) :=
  h.keeps domain now hlast

/-- A call that finds fewer than three raises in the hour before it, and is beyond the limit all
the same, finds the balance at its upper bound, when every admitted call could be recorded. -/
theorem isFull_of_limits {c : Success} (hrun : successSystem.Run {} calls m)
    (horder : InOrder calls) (hlast : ∀ t ∈ calls.map (·.1.now), t ≤ c.now)
    (hcan : successSystem.Always {} calls Manager.CanRecord)
    (hfew : (raises c.domain (c.now - TRUST_RATE_LIMIT_WINDOW_MS) c.now calls).length <
      TRUST_RATE_LIMIT_MAX) (hlimits : m.limits c = true) : m.IsFull c.domain := by
  have hmany : TRUST_RATE_LIMIT_MAX ≤ (m.timestamps c.domain c.now).length :=
    of_decide_eq_true hlimits
  rw [timestamps_eq (admits hrun horder) hlast] at hmany
  -- one of the admitted calls has not raised the balance
  by_cases hall : ∀ e ∈ calls, e.1.domain = c.domain → e.2.limited = false → e.2.raised = true
  · exact absurd (hmany.trans ((since_length_le hlast).trans (admitted_length_le hall)))
      (not_le.mpr hfew)
  · push Not at hall
    obtain ⟨e, he, hdomain, hlimited, hraised⟩ := hall
    obtain ⟨before, after, rfl⟩ := List.append_of_mem he
    obtain ⟨a, ha, -⟩ := LTS.Run.append_iff.mp hrun
    have hreport := report_of_run hrun ha
    have hcanRecord : a.CanRecord (e.1, (a.recordSuccess e.1).2) :=
      hreport ▸ hcan before e after a rfl ha
    rw [hreport, recordSuccess_limited] at hlimited
    rw [canRecord_iff hlimited, ← hreport] at hcanRecord
    rw [← hdomain]
    exact isFull_of_mem hrun e he (hcanRecord.resolve_left hraised)

/-- **The limit on trust**: in a run with a clock that does not go back, at most three calls
raise a balance in any hour, and a call that finds fewer raises it, exactly when every call that
is not beyond the limit can be recorded. -/
theorem rate_limited_iff (calls : List (Success × Report)) (m : Manager)
    (hrun : successSystem.Run {} calls m) (horder : InOrder calls) :
    RateLimited calls ↔ successSystem.Always {} calls Manager.CanRecord := by
  constructor
  · rintro hlimited before e after a rfl hbefore
    have hreport := report_of_run hrun hbefore
    cases hlimits : a.limits e.1 with
    | true => exact .inl hlimits
    | false =>
      obtain ⟨hfirst, hlast⟩ := horder.before
      have hfew := of_decide_eq_false hlimits
      rw [timestamps_eq (admits hbefore hfirst) hlast, not_le] at hfew
      have hraises : (raises e.1.domain (e.1.now - TRUST_RATE_LIMIT_WINDOW_MS) e.1.now
          before).length ≤ (between (e.1.now - TRUST_RATE_LIMIT_WINDOW_MS) e.1.now
            (admitted e.1.domain before)).length :=
        raises_length_le (admits hbefore hfirst).raised _ _
      have hbetween := (between_sublist_since (le_refl (e.1.now - TRUST_RATE_LIMIT_WINDOW_MS))
        e.1.now (admitted e.1.domain before)).length_le
      have htight := hlimited.tight before e after rfl
        ((hraises.trans hbetween).trans_lt hfew)
      rw [hreport] at htight
      exact (canRecord_iff hlimits).mpr htight
  · intro hcan
    refine ⟨fun domain first last hwidth => raises_bounded hrun horder hwidth, ?_⟩
    rintro before e after rfl hfew
    obtain ⟨a, hbefore, -⟩ := LTS.Run.append_iff.mp hrun
    have hreport := report_of_run hrun hbefore
    rw [hreport]
    cases hlimits : a.limits e.1 with
    | true =>
      obtain ⟨hfirst, hlast⟩ := horder.before
      exact .inr (full_of_isFull
        (isFull_of_limits hbefore hfirst hlast hcan.take hfew hlimits))
    | false => exact (canRecord_iff hlimits).mp (hreport ▸ hcan before e after a rfl hbefore)

end Runs

/-! ## Sample runs -/

/-- Five calls, the fourth of them beyond the limit, and the last an hour after the second. -/
def sampleCalls : List Success :=
  [⟨"code", 0, some emptyTrustStore⟩, ⟨"code", 1000, none⟩, ⟨"code", 1000, none⟩,
    ⟨"code", 3600000, none⟩, ⟨"code", 3601001, none⟩]

theorem rate_limited_iff_sample :
    RateLimited (LTS.exec Manager.recordSuccess {} sampleCalls).1 := by
  refine (rate_limited_iff _ _ (LTS.run_exec Manager.recordSuccess {} sampleCalls)
    (by decide +kernel)).mpr (LTS.ExecAlways.always (f := Manager.recordSuccess) ?_)
  decide +kernel

/-- The first success in a domain whose name is that of an inherited member. -/
def sampleInherited : List (Success × Report) :=
  (LTS.exec Manager.recordSuccess {} [⟨"constructor", 0, some emptyTrustStore⟩]).1

/-- **A success is lost**: no call has raised the balance, and this one throws. -/
theorem success_lost : ¬ ∀ calls m, successSystem.Run {} calls m → InOrder calls →
    RateLimited calls := by
  intro h
  have htight := (h sampleInherited _ (LTS.run_exec Manager.recordSuccess {} _)
    (by decide +kernel)).tight [] _ [] rfl (by decide +kernel)
  revert htight
  decide +kernel

end PulSeed.TrustManager
