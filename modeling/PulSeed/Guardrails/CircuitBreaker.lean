import Mathlib.Data.Int.Notation
import Mathlib.Logic.Function.Basic
import PulSeed.Lib.Transition

/-!
# Circuit breakers of automation providers (`runtime/guardrails/circuit-breaker.ts`)

A breaker is kept for each provider and service. Failures open it, an open one refuses runs
until its cooldown has passed, a success closes it, and a breaker may be paused by hand, in
the store. The store keeps a breaker under one string, made from the two ids of its pair.

A completion writes its breaker whatever state it is in, so a run that was admitted before
may undo a pause or shorten a cooldown; and two pairs whose strings are the same share one
breaker. `Respects` excludes just these steps:

- `lawful_of_respectful`: **in a run in which every step respects the breakers, a breaker
  that is paused refuses every run, no pair changes the breaker of another, and an open
  breaker refuses every run until its cooldown has passed, unless a success is recorded.**

Times are milliseconds.
-/

namespace PulSeed.CircuitBreakerController

/-! ## Breakers -/

/-- `AutomationFailureCode`. -/
inductive AutomationFailureCode where
  | auth_required
  | auth_expired
  | permission_denied
  | provider_unavailable
  | rate_limited
  | site_blocked
  | navigation_failed
  | verification_failed
  | unknown_automation_error
  deriving DecidableEq

/-- `CircuitBreakerStateSchema`; `opened` is its `open`. -/
inductive BreakerState where
  | closed
  | opened
  | half_open
  | paused
  deriving DecidableEq

/-- `CircuitBreakerRecord`. -/
structure CircuitBreakerRecord where
  key : String
  provider_id : String
  service_key : String
  state : BreakerState
  failure_count : ℕ
  last_failure_code : Option AutomationFailureCode
  last_failure_message : Option String
  last_failure_at : Option ℤ
  opened_at : Option ℤ
  cooldown_until : Option ℤ
  updated_at : ℤ
  deriving DecidableEq

/-- `CircuitBreakerPolicy`. -/
structure CircuitBreakerPolicy where
  failureThreshold : ℤ
  cooldownMs : ℤ

/-- `CircuitBreakerPolicies`. -/
structure CircuitBreakerPolicies where
  default : CircuitBreakerPolicy
  byFailureCode : AutomationFailureCode → Option CircuitBreakerPolicy

/-- `DEFAULT_POLICIES`. -/
def DEFAULT_POLICIES : CircuitBreakerPolicies where
  default := { failureThreshold := 3, cooldownMs := 5 * 60000 }
  byFailureCode
    | .rate_limited => some { failureThreshold := 2, cooldownMs := 15 * 60000 }
    | .site_blocked => some { failureThreshold := 2, cooldownMs := 60 * 60000 }
    | .provider_unavailable => some { failureThreshold := 2, cooldownMs := 5 * 60000 }
    | _ => none

/-- The policy for a failure. -/
def CircuitBreakerPolicies.policy (policies : CircuitBreakerPolicies)
    (failureCode : AutomationFailureCode) : CircuitBreakerPolicy :=
  (policies.byFailureCode failureCode).getD policies.default

/-- The provider and the service of a run. -/
structure Pair where
  providerId : String
  serviceKey : String
  deriving DecidableEq

/-- `breakerKey`. -/
def breakerKey (pair : Pair) : String := pair.providerId ++ "::" ++ pair.serviceKey

/-- The stored breakers, each in the row of its own key. -/
structure Store where
  breakers : String → Option CircuitBreakerRecord
  keyed : ∀ key record, breakers key = some record → record.key = key

/-- The breaker that is stored for a pair. -/
def Store.breaker (s : Store) (pair : Pair) : Option CircuitBreakerRecord :=
  s.breakers (breakerKey pair)

/-- `saveBreaker`. -/
def Store.saveBreaker (s : Store) (record : CircuitBreakerRecord) : Store where
  breakers := Function.update s.breakers record.key (some record)
  keyed := by
    intro key r h
    by_cases hkey : key = record.key
    · subst hkey
      rw [Function.update_self] at h
      rw [← Option.some.inj h]
    · rw [Function.update_of_ne hkey] at h
      exact s.keyed key r h

/-! ## The controller -/

/-- Why a run is refused: `provider is manually paused`, or
`circuit breaker open until ${current.cooldown_until}`. -/
inductive Reason where
  | manually_paused
  | open_until (cooldown_until : Option ℤ)
  deriving DecidableEq

/-- `CircuitBreakerDecision`. -/
structure CircuitBreakerDecision where
  allowed : Bool
  state : BreakerState
  reason : Option Reason := none
  deriving DecidableEq

/-- `beforeRun`; the clock shows `now` when it compares and `updatedAt` when it writes. -/
def beforeRun (s : Store) (pair : Pair) (now updatedAt : ℤ) : Store × CircuitBreakerDecision :=
  match s.breaker pair with
  | none => (s, { allowed := true, state := .closed })
  | some current =>
    match current.state with
    | .closed => (s, { allowed := true, state := .closed })
    | .paused => (s, { allowed := false, state := .paused, reason := some .manually_paused })
    | .opened =>
      if now < current.cooldown_until.getD 0 then
        (s, {
          allowed := false
          state := .opened
          reason := some (.open_until current.cooldown_until) })
      else
        (s.saveBreaker { current with state := .half_open, updated_at := updatedAt },
          { allowed := true, state := .half_open })
    | .half_open => (s, { allowed := true, state := .half_open })

/-- `recordSuccess`. -/
def recordSuccess (s : Store) (pair : Pair) (now : ℤ) : Store :=
  match s.breaker pair with
  | none => s
  | some current => s.saveBreaker { current with
      state := .closed
      failure_count := 0
      last_failure_code := none
      last_failure_message := none
      last_failure_at := none
      opened_at := none
      cooldown_until := none
      updated_at := now }

/-- The input of `recordFailure`. -/
structure Failure where
  pair : Pair
  failureCode : AutomationFailureCode
  failureMessage : Option String := none

/-- What `recordFailure` saves. -/
def failed (policies : CircuitBreakerPolicies) (current : Option CircuitBreakerRecord)
    (input : Failure) (now cooldownFrom : ℤ) : CircuitBreakerRecord :=
  let policy := policies.policy input.failureCode
  let failureCount := (current.elim 0 (·.failure_count)) + 1
  let opened : Bool := policy.failureThreshold ≤ failureCount
  { key := breakerKey input.pair
    provider_id := input.pair.providerId
    service_key := input.pair.serviceKey
    state := if opened then .opened else .closed
    failure_count := failureCount
    last_failure_code := some input.failureCode
    last_failure_message := input.failureMessage
    last_failure_at := some now
    opened_at := if opened then some now else current.bind (·.opened_at)
    cooldown_until := if opened then some (cooldownFrom + policy.cooldownMs) else none
    updated_at := now }

/-- `recordFailure`. The schema rejects a count that is not a safe integer; nothing is saved
then. -/
def recordFailure (policies : CircuitBreakerPolicies) (s : Store) (input : Failure)
    (now cooldownFrom : ℤ) : Store × Option CircuitBreakerRecord :=
  let record := failed policies (s.breaker input.pair) input now cooldownFrom
  if record.failure_count ≤ 9007199254740991 then (s.saveBreaker record, some record)
  else (s, none)

/-! ## Calls -/

inductive Call where
  | beforeRun (pair : Pair) (now updatedAt : ℤ)
  | recordSuccess (pair : Pair) (now : ℤ)
  | recordFailure (input : Failure) (now cooldownFrom : ℤ)

inductive Answer where
  | decision (decision : CircuitBreakerDecision)
  | saved (record : Option CircuitBreakerRecord)
  | done
  deriving DecidableEq

/-- The pair that a call is about. -/
def Call.pair : Call → Pair
  | .beforeRun pair .. => pair
  | .recordSuccess pair _ => pair
  | .recordFailure input .. => input.pair

/-- What the clock shows during a call. -/
def Call.times : Call → List ℤ
  | .beforeRun _ now updatedAt => [now, updatedAt]
  | .recordSuccess _ now => [now]
  | .recordFailure _ now cooldownFrom => [now, cooldownFrom]

/-- A success of the pair. -/
def Call.IsSuccess (pair : Pair) : Call → Prop
  | .recordSuccess p _ => p = pair
  | _ => False

section

variable (policies : CircuitBreakerPolicies)

/-- One call, from its load to its save. -/
def perform (s : Store) : Call → Store × Answer
  | .beforeRun pair now updatedAt =>
    ((beforeRun s pair now updatedAt).1, .decision (beforeRun s pair now updatedAt).2)
  | .recordSuccess pair now => (recordSuccess s pair now, .done)
  | .recordFailure input now cooldownFrom =>
    ((recordFailure policies s input now cooldownFrom).1,
      .saved (recordFailure policies s input now cooldownFrom).2)

/-- The system of the controller. -/
def breakerLTS : LTS Store (Call × Answer) := .ofFn (perform policies)

/-! ## The law -/

/-- The breaker of the pair is paused. -/
def Paused (pair : Pair) (s : Store) : Prop :=
  ∃ record, s.breaker pair = some record ∧ record.state = .paused

/-- The breaker of the pair is open, at least until the given time. -/
def OpenUntil (pair : Pair) (time : ℤ) (s : Store) : Prop :=
  ∃ record cooldown, s.breaker pair = some record ∧ record.state = .opened ∧
    record.cooldown_until = some cooldown ∧ time ≤ cooldown

/-- A run of the pair is refused. -/
def Refuses (s : Store) (pair : Pair) (now updatedAt : ℤ) : Prop :=
  (beforeRun s pair now updatedAt).2.allowed = false

/-- **The law of a run**, from any stored breakers. -/
structure Lawful (s : Store) (calls : List (Call × Answer)) : Prop where
  /-- Once a breaker is paused it refuses every later run. -/
  paused : ∀ before between after m m' pair now updatedAt answer,
    calls = before ++ between ++ (.beforeRun pair now updatedAt, answer) :: after →
    (breakerLTS policies).Run s before m → (breakerLTS policies).Run m between m' →
    Paused pair m → Refuses m' pair now updatedAt
  /-- A call leaves the breakers of the other pairs as they are. -/
  apart : (breakerLTS policies).Always s calls fun m l =>
    ∀ pair, pair ≠ l.1.pair → (perform policies m l.1).1.breaker pair = m.breaker pair
  /-- An open breaker refuses every run until the clock has shown the end of its cooldown or
  a success of the pair was recorded. -/
  cooldown : ∀ before between after m m' pair until_ now updatedAt answer,
    calls = before ++ between ++ (.beforeRun pair now updatedAt, answer) :: after →
    (breakerLTS policies).Run s before m → (breakerLTS policies).Run m between m' →
    OpenUntil pair until_ m →
    (∀ l ∈ between, ¬ l.1.IsSuccess pair ∧ ∀ time ∈ l.1.times, time < until_) → now < until_ →
    Refuses m' pair now updatedAt

/-! ## The steps that respect the breakers -/

/-- No other pair has the key of this one. -/
def Apart (pair : Pair) : Prop := ∀ other, breakerKey other = breakerKey pair → other = pair

/-- The call finds something to write. -/
def Writes (s : Store) : Call → Prop
  | .beforeRun pair now _ => ∃ record, s.breaker pair = some record ∧ record.state = .opened ∧
      record.cooldown_until.getD 0 ≤ now
  | .recordSuccess pair _ => s.breaker pair ≠ none
  | .recordFailure .. => True

/-- A completion does not find its breaker paused; and a failure that finds it open, before
its cooldown has passed, reaches the threshold of its own code and does not shorten the
cooldown. -/
def KeepsBreaker (s : Store) : Call → Prop
  | .beforeRun .. => True
  | .recordSuccess pair _ => ∀ record ∈ s.breaker pair, record.state ≠ .paused
  | .recordFailure input now cooldownFrom => ∀ record ∈ s.breaker input.pair,
      record.state ≠ .paused ∧
        (record.state = .opened → ∀ cooldown ∈ record.cooldown_until, now < cooldown →
          (policies.policy input.failureCode).failureThreshold ≤ (record.failure_count + 1 : ℕ) ∧
            cooldown ≤ cooldownFrom + (policies.policy input.failureCode).cooldownMs)

instance (s : Store) (call : Call) : Decidable (KeepsBreaker policies s call) := by
  cases call <;> unfold KeepsBreaker <;> infer_instance

/-- A call respects the breakers. -/
def Respects (s : Store) (call : Call) : Prop :=
  (Writes s call → Apart call.pair) ∧ KeepsBreaker policies s call

end

/-! ## What a call writes -/

section

variable {policies : CircuitBreakerPolicies} {s : Store} {call : Call} {pair : Pair}

@[simp] theorem breakers_saveBreaker (s : Store) (record : CircuitBreakerRecord) :
    (s.saveBreaker record).breakers = Function.update s.breakers record.key (some record) := rfl

/-- A call writes the breaker of its own key only. -/
theorem perform_other {key : String} (hkey : key ≠ breakerKey call.pair) :
    (perform policies s call).1.breakers key = s.breakers key := by
  have hsave : ∀ record : CircuitBreakerRecord, record.key = breakerKey call.pair →
      (s.saveBreaker record).breakers key = s.breakers key := by
    intro record hrecord
    rw [breakers_saveBreaker, Function.update_of_ne (hrecord ▸ hkey)]
  cases call with
  | beforeRun pair now updatedAt =>
    unfold perform beforeRun
    dsimp only
    split
    · rfl
    · next current hcurrent =>
      split
      · rfl
      · rfl
      · split
        · rfl
        · have hkeyed : current.key = breakerKey pair := s.keyed _ _ hcurrent
          exact hsave _ hkeyed
      · rfl
  | recordSuccess pair now =>
    unfold perform recordSuccess
    dsimp only
    split
    · rfl
    · next current hcurrent =>
      have hkeyed : current.key = breakerKey pair := s.keyed _ _ hcurrent
      exact hsave _ hkeyed
  | recordFailure input now cooldownFrom =>
    unfold perform recordFailure
    dsimp only
    split
    · exact hsave _ rfl
    · rfl

/-- A call that finds nothing to write leaves the store as it is. -/
theorem perform_of_not_writes (h : ¬ Writes s call) : (perform policies s call).1 = s := by
  cases call with
  | beforeRun pair now updatedAt =>
    unfold perform beforeRun
    dsimp only
    split
    · rfl
    · next current hcurrent =>
      split
      · rfl
      · rfl
      · next hopen =>
        split
        · rfl
        · next hpassed => exact absurd ⟨current, hcurrent, hopen, Int.not_lt.mp hpassed⟩ h
      · rfl
  | recordSuccess pair now =>
    unfold perform recordSuccess
    dsimp only
    split
    · rfl
    · next current hcurrent => exact absurd (by rw [Writes, hcurrent]; nofun) h
  | recordFailure input now cooldownFrom => exact absurd trivial h

/-- **A call that respects the breakers leaves those of the other pairs as they are.** -/
theorem perform_apart (h : Writes s call → Apart call.pair) (hpair : pair ≠ call.pair) :
    (perform policies s call).1.breaker pair = s.breaker pair := by
  by_cases hwrites : Writes s call
  · exact perform_other fun hkey => hpair (h hwrites pair hkey)
  · rw [perform_of_not_writes hwrites]

/-- The breaker that a failure saves for its pair. -/
theorem recordFailure_breaker (policies : CircuitBreakerPolicies) (s : Store) (input : Failure)
    (now cooldownFrom : ℤ) :
    (recordFailure policies s input now cooldownFrom).1.breaker input.pair =
        some (failed policies (s.breaker input.pair) input now cooldownFrom) ∨
      (recordFailure policies s input now cooldownFrom).1 = s := by
  unfold recordFailure
  dsimp only
  split
  · refine .inl ?_
    show Function.update s.breakers (breakerKey input.pair) _ (breakerKey input.pair) = _
    rw [Function.update_self]
  · exact .inr rfl

/-! ## Breakers that are paused or open -/

theorem Paused.refuses (h : Paused pair s) (now updatedAt : ℤ) :
    Refuses s pair now updatedAt := by
  obtain ⟨record, hrecord, hpaused⟩ := h
  unfold Refuses beforeRun
  rw [hrecord]
  dsimp only
  rw [hpaused]

theorem OpenUntil.refuses {time now : ℤ} (h : OpenUntil pair time s) (hnow : now < time)
    (updatedAt : ℤ) : Refuses s pair now updatedAt := by
  obtain ⟨record, cooldown, hrecord, hopen, hcooldown, hle⟩ := h
  unfold Refuses beforeRun
  rw [hrecord]
  dsimp only
  rw [hopen, hcooldown]
  dsimp only [Option.getD_some]
  rw [if_pos (by omega)]

/-- A refused run leaves the store as it is. -/
theorem beforeRun_of_refuses {now updatedAt : ℤ} (h : Refuses s pair now updatedAt) :
    (beforeRun s pair now updatedAt).1 = s := by
  unfold Refuses beforeRun at h
  unfold beforeRun
  split
  · rfl
  · next current hcurrent =>
    rw [hcurrent] at h
    dsimp only at h ⊢
    cases hstate : current.state with
    | opened =>
      rw [hstate] at h
      dsimp only at h ⊢
      split
      · rfl
      · next hpassed =>
        rw [if_neg hpassed] at h
        cases h
    | _ => rfl

/-- **A call that respects the breakers keeps a pause.** -/
theorem Paused.perform (h : Paused pair s) (hrespects : Respects policies s call) :
    Paused pair (perform policies s call).1 := by
  by_cases hpair : pair = call.pair
  · subst hpair
    obtain ⟨record, hrecord, hpaused⟩ := h
    cases call with
    | beforeRun pair now updatedAt =>
      have hrefuses := Paused.refuses ⟨record, hrecord, hpaused⟩ now updatedAt
      show Paused pair (beforeRun s pair now updatedAt).1
      rw [beforeRun_of_refuses (show Refuses s pair now updatedAt from hrefuses)]
      exact ⟨record, hrecord, hpaused⟩
    | recordSuccess pair now => exact absurd hpaused (hrespects.2 record hrecord)
    | recordFailure input now cooldownFrom =>
      exact absurd hpaused (hrespects.2 record hrecord).1
  · unfold Paused
    rw [perform_apart hrespects.1 hpair]
    exact h

/-- **It keeps a breaker open** while its cooldown lasts, unless it is a success. -/
theorem OpenUntil.perform {time : ℤ} (h : OpenUntil pair time s)
    (hrespects : Respects policies s call) (hsuccess : ¬ call.IsSuccess pair)
    (htimes : ∀ t ∈ call.times, t < time) :
    OpenUntil pair time (CircuitBreakerController.perform policies s call).1 := by
  by_cases hpair : pair = call.pair
  · subst hpair
    obtain ⟨record, cooldown, hrecord, hopen, hcooldown, hle⟩ := h
    have hnow : ∀ t ∈ call.times, t < cooldown := fun t ht =>
      Int.lt_of_lt_of_le (htimes t ht) hle
    cases call with
    | beforeRun pair now updatedAt =>
      have hrefuses := OpenUntil.refuses ⟨record, cooldown, hrecord, hopen, hcooldown, hle⟩
        (htimes now List.mem_cons_self) updatedAt
      show OpenUntil pair time (beforeRun s pair now updatedAt).1
      rw [beforeRun_of_refuses (show Refuses s pair now updatedAt from hrefuses)]
      exact ⟨record, cooldown, hrecord, hopen, hcooldown, hle⟩
    | recordSuccess pair now => exact absurd rfl hsuccess
    | recordFailure input now cooldownFrom =>
      obtain ⟨hthreshold, hlonger⟩ := (hrespects.2 record hrecord).2 hopen cooldown hcooldown
        (hnow now List.mem_cons_self)
      rcases recordFailure_breaker policies s input now cooldownFrom with hsaved | hsame
      · -- the failure opens it anew, for at least as long
        refine ⟨_, cooldownFrom + (policies.policy input.failureCode).cooldownMs, hsaved, ?_, ?_,
          Int.le_trans hle hlonger⟩
        · have hrecord : s.breaker input.pair = some record := hrecord
          simp only [failed, hrecord, Option.elim_some, hthreshold, decide_true, if_true]
        · have hrecord : s.breaker input.pair = some record := hrecord
          simp only [failed, hrecord, Option.elim_some, hthreshold, decide_true, if_true]
      · show OpenUntil _ _ (recordFailure policies s input now cooldownFrom).1
        rw [hsame]
        exact ⟨record, cooldown, hrecord, hopen, hcooldown, hle⟩
  · unfold OpenUntil
    rw [perform_apart hrespects.1 hpair]
    exact h

/-! ## Whole runs -/

/-- **In a run in which every call respects the breakers, a paused breaker refuses every
run, no call changes the breaker of another pair, and an open breaker refuses every run until
its cooldown has passed, unless a success was recorded.** -/
theorem lawful_of_respectful (policies : CircuitBreakerPolicies) (s : Store)
    (calls : List (Call × Answer))
    (hrespects : (breakerLTS policies).Always s calls fun m l => Respects policies m l.1) :
    Lawful policies s calls := by
  constructor
  · rintro before between after m m' pair now updatedAt answer rfl hbefore hbetween hpaused
    have hlater : Paused pair m' := hbetween.guarded hpaused (hrespects.take.drop hbefore) (by
      intro a l b hstep hl ha
      have hstep : perform policies a l.1 = (b, l.2) := hstep
      have hb := ha.perform hl
      rwa [hstep] at hb)
    exact hlater.refuses now updatedAt
  · intro before l after m hsplit hbefore pair hpair
    exact perform_apart (hrespects before l after m hsplit hbefore).1 hpair
  · rintro before between after m m' pair time now updatedAt answer rfl hbefore hbetween hopen
      hquiet hnow
    -- by induction on the calls in between, of which each is before the end of the cooldown
    have hlater : OpenUntil pair time m' := by
      refine (hbetween.history (P := fun ls s => (∀ l ∈ ls, l ∈ between) →
        (breakerLTS policies).Always m ls (fun m l => Respects policies m l.1) →
          OpenUntil pair time s) ?_ ?_) (fun l hl => hl) (hrespects.take.drop hbefore)
      · exact fun _ _ => hopen
      · intro hist a l b hrun hstep ih hmem halways
        have hstep : perform policies a l.1 = (b, l.2) := hstep
        have ha := ih (fun k hk => hmem k (List.mem_append_left _ hk)) halways.init
        obtain ⟨hsuccess, htimes⟩ := hquiet l (hmem l (List.mem_append_right _
          List.mem_cons_self))
        have hb := ha.perform (halways.last hrun) hsuccess htimes
        rwa [hstep] at hb
    exact hlater.refuses hnow updatedAt

end

/-! ## Pairs without colons -/

/-- **Pairs whose ids have no colon do not share their key.** -/
theorem apart_of_no_colon {pair : Pair} (hprovider : ':' ∉ pair.providerId.toList)
    (hservice : ':' ∉ pair.serviceKey.toList) : Apart pair := by
  intro other hkey
  have hlists : other.providerId.toList ++ ':' :: ':' :: other.serviceKey.toList =
      pair.providerId.toList ++ ':' :: ':' :: pair.serviceKey.toList := by
    have hlists := congrArg String.toList hkey
    simpa [breakerKey] using hlists
  -- the other key has as many colons, and so none in its ids
  have hcount := congrArg (List.count ':') hlists
  simp only [List.count_append, List.count_cons_self, List.count_eq_zero_of_not_mem hprovider,
    List.count_eq_zero_of_not_mem hservice] at hcount
  have hother : ':' ∉ other.providerId.toList := fun hmem => by
    have := List.count_pos_iff.mpr hmem
    omega
  have hfree : ∀ {l : List Char}, ':' ∉ l → ∀ a ∈ l, (a != ':') = true := fun hl a ha =>
    bne_iff_ne.mpr fun heq => hl (heq ▸ ha)
  have hproviders : other.providerId.toList = pair.providerId.toList := by
    have htake := congrArg (List.takeWhile (· != ':')) hlists
    rw [List.takeWhile_append_of_pos (hfree hother),
      List.takeWhile_append_of_pos (hfree hprovider)] at htake
    simpa using htake
  have hservices : other.serviceKey.toList = pair.serviceKey.toList := by
    rw [hproviders] at hlists
    simpa using hlists
  obtain ⟨otherProvider, otherService⟩ := other
  obtain ⟨provider, service⟩ := pair
  rw [Pair.mk.injEq]
  exact ⟨String.toList_inj.mp hproviders, String.toList_inj.mp hservices⟩

/-! ## Sample runs -/

def samplePair : Pair := ⟨"browser", "mail"⟩

/-- Nothing is stored. -/
def emptyStore : Store where
  breakers := fun _ => none
  keyed := by
    intro key record h
    cases h

/-- The breaker of the pair was paused by hand. -/
def pausedStore : Store := emptyStore.saveBreaker {
  key := breakerKey samplePair
  provider_id := samplePair.providerId
  service_key := samplePair.serviceKey
  state := .paused
  failure_count := 0
  last_failure_code := none
  last_failure_message := none
  last_failure_at := none
  opened_at := none
  cooldown_until := none
  updated_at := 0 }

/-- Two failures open a breaker; a third one comes from a run that was admitted before. -/
def sampleCalls : List Call :=
  [.recordFailure { pair := samplePair, failureCode := .rate_limited } 0 0,
    .recordFailure { pair := samplePair, failureCode := .rate_limited } 1 1,
    .recordFailure { pair := samplePair, failureCode := .rate_limited } 2 2,
    .beforeRun samplePair 3 3]

theorem lawful_of_respectful_sample :
    Lawful DEFAULT_POLICIES emptyStore
      (LTS.exec (perform DEFAULT_POLICIES) emptyStore sampleCalls).1 := by
  refine lawful_of_respectful DEFAULT_POLICIES emptyStore _ ?_
  intro before l after m hsplit hbefore
  constructor
  · intro _
    have hmem : l ∈ (LTS.exec (perform DEFAULT_POLICIES) emptyStore sampleCalls).1 := by
      rw [hsplit]
      exact List.mem_append_right _ List.mem_cons_self
    have hpairs : ∀ l ∈ (LTS.exec (perform DEFAULT_POLICIES) emptyStore sampleCalls).1,
        l.1.pair = samplePair := by decide +kernel
    rw [hpairs l hmem]
    exact apart_of_no_colon (by decide) (by decide)
  · exact LTS.ExecAlways.always (P := fun m l => KeepsBreaker DEFAULT_POLICIES m l.1)
      (by decide +kernel) before l after m hsplit hbefore

/-- **A run that was admitted before undoes the pause** when it completes: the next run is
admitted. -/
theorem success_undoes_pause :
    ¬ Lawful DEFAULT_POLICIES pausedStore (LTS.exec (perform DEFAULT_POLICIES) pausedStore
      [.recordSuccess samplePair 1, .beforeRun samplePair 2 2]).1 := by
  intro h
  have hpaused : Paused samplePair pausedStore := ⟨_, rfl, rfl⟩
  have hrefuses := h.paused [] _ [] pausedStore _ samplePair 2 2 _ rfl LTS.Run.nil
    (LTS.run_exec (perform DEFAULT_POLICIES) pausedStore [.recordSuccess samplePair 1]) hpaused
  exact absurd hrefuses (by unfold Refuses; decide +kernel)

end PulSeed.CircuitBreakerController
