import PulSeed.Budget.Usage
import Mathlib.Algebra.BigOperators.Group.List.Basic
import Mathlib.Tactic.Ring
import Mathlib.Tactic.Linarith

/-!
# Exactness of the recorded usage

An update adds its amount to the usage it *loaded*. While every save finds the usage
its call loaded, the stored usage is the initial one plus what the calls have recorded
(`run_accounted`), and once every call has resolved that is the sum of the calls'
amounts (`usage_exact`). A save on top of another caller's save drops that caller's
amount (`usage_lost`).

The accounting is by call: `UsageCall.recordedOf` is what the saves of a call have
added so far, and `CallOk` says what the local data of a call promise.
-/

namespace PulSeed.Budget

/-! ## Amounts -/

/-- The amounts of a dimension in a list of updates. -/
def amountFor (d : RuntimeBudgetDimension) (updates : List (RuntimeBudgetDimension × ℚ)) : ℚ :=
  (updates.map fun u => if u.1 = d then u.2 else 0).sum

/-- What a call asks to record in a dimension. -/
def UsageRequest.amount (d : RuntimeBudgetDimension) : UsageRequest → ℚ
  | .updateUsage input => amountFor d [(input.dimension, input.amount)]
  | .record _ inputs _ _ => amountFor d (inputs.map fun i => (i.1, i.2.getD 0))

/-- What a call has recorded in a dimension. -/
def UsageCall.recordedOf (d : RuntimeBudgetDimension) (c : UsageCall) : ℚ :=
  amountFor d (c.updates.take c.recorded)

theorem amountFor_cons (d : RuntimeBudgetDimension) (u : RuntimeBudgetDimension × ℚ)
    (us : List (RuntimeBudgetDimension × ℚ)) :
    amountFor d (u :: us) = (if u.1 = d then u.2 else 0) + amountFor d us := by
  simp [amountFor]

theorem amountFor_append (d : RuntimeBudgetDimension) (us vs : List (RuntimeBudgetDimension × ℚ)) :
    amountFor d (us ++ vs) = amountFor d us + amountFor d vs := by
  simp [amountFor]

theorem parseBudgetUsageAmount_eq {a x : ℚ} (h : parseBudgetUsageAmount a = some x) :
    x = a ∧ 0 ≤ a := by
  unfold parseBudgetUsageAmount at h
  split at h
  · next hvalid =>
    cases h
    exact ⟨rfl, hvalid.1⟩
  · cases h

theorem addBudgetUsage_eq {c a x : ℚ} (h : addBudgetUsage c a = some x) : x = c + a := by
  obtain ⟨c', hc, hadd⟩ := Option.bind_eq_some_iff.mp h
  obtain ⟨a', ha, hcheck⟩ := Option.bind_eq_some_iff.mp hadd
  rw [(parseBudgetUsageAmount_eq hc).1, (parseBudgetUsageAmount_eq ha).1] at hcheck
  by_cases hrange : 0 < a ∧ (maxSafeInteger : ℚ) - c < a
  · rw [if_pos hrange] at hcheck
    cases hcheck
  · rw [if_neg hrange] at hcheck
    by_cases habsorbed : 0 < a ∧ c + a ≤ c
    · rw [if_pos habsorbed] at hcheck
      cases hcheck
    · rw [if_neg habsorbed] at hcheck
      exact (parseBudgetUsageAmount_eq hcheck).1

/-- **Planning keeps the amounts** of the dimensions that have a limit: what it skips is
zero there. -/
theorem planFrom_amount {budget : RuntimeBudgetRecord} {d : RuntimeBudgetDimension}
    (hlimit : hasLimit budget d = true) (inputs : List (RuntimeBudgetDimension × Option ℚ))
    {planned : RuntimeBudgetDimension → ℚ} {updates : List (RuntimeBudgetDimension × ℚ)}
    (h : planFrom budget planned inputs = some updates) :
    amountFor d updates = amountFor d (inputs.map fun i => (i.1, i.2.getD 0)) := by
  induction inputs generalizing planned updates with
  | nil =>
    cases h
    rfl
  | cons input inputs ih =>
    obtain ⟨dimension, rawAmount⟩ := input
    rw [List.map_cons, amountFor_cons]
    unfold planFrom at h
    split at h
    · cases h
    · next hparse =>
      -- no amount, or the amount zero
      have hzero : rawAmount.getD 0 = 0 := by
        cases rawAmount with
        | none => rfl
        | some a =>
          obtain ⟨x, hx, hpos⟩ := Option.map_eq_some_iff.mp hparse
          obtain ⟨rfl, hnonneg⟩ := parseBudgetUsageAmount_eq hx
          by_cases hx0 : 0 < x
          · rw [if_pos hx0] at hpos
            cases hpos
          · exact le_antisymm (not_lt.mp hx0) hnonneg
      rw [ih h, hzero, ite_self, zero_add]
    · next amount hparse =>
      have hamount : rawAmount.getD 0 = amount := by
        cases rawAmount with
        | none => cases hparse
        | some a =>
          obtain ⟨x, hx, hpos⟩ := Option.map_eq_some_iff.mp hparse
          obtain ⟨rfl, -⟩ := parseBudgetUsageAmount_eq hx
          split at hpos
          · exact Option.some.inj hpos
          · cases hpos
      split at h
      · next hno =>
        have hne : dimension ≠ d := by
          rintro rfl
          rw [hlimit] at hno
          cases hno
        rw [ih h, if_neg hne, zero_add]
      · obtain ⟨used, -, h⟩ := Option.bind_eq_some_iff.mp h
        obtain ⟨rest, hrest, rfl⟩ := Option.map_eq_some_iff.mp h
        rw [amountFor_cons, ih hrest, hamount]

/-! ## The updater -/

theorem usageByDimension_dimension {budget : RuntimeBudgetRecord} {d : RuntimeBudgetDimension}
    {u : RuntimeBudgetUsage} (h : usageByDimension budget d = some u) : u.dimension = d :=
  beq_iff_eq.mp (List.find?_some (p := fun u : RuntimeBudgetUsage => u.dimension == d) h)

theorem usageOrZero_dimension (budget : RuntimeBudgetRecord) (observedAt : String)
    (d : RuntimeBudgetDimension) : (usageOrZero budget observedAt d).dimension = d := by
  unfold usageOrZero
  cases h : usageByDimension budget d with
  | none => rfl
  | some u => exact usageByDimension_dimension h

theorem usageOrZero_used (budget : RuntimeBudgetRecord) (observedAt : String)
    (d : RuntimeBudgetDimension) : (usageOrZero budget observedAt d).used = usedOf budget d := by
  unfold usageOrZero usedOf
  cases usageByDimension budget d <;> rfl

/-- Usage that is listed by limit is found by its dimension. -/
theorem usedOf_listed {budget : RuntimeBudgetRecord} {limits : List RuntimeBudgetLimit}
    {f : RuntimeBudgetLimit → RuntimeBudgetUsage} (husage : budget.usage = limits.map f)
    (hf : ∀ l, (f l).dimension = l.dimension) {d : RuntimeBudgetDimension}
    (hlimit : (limits.any fun l => l.dimension == d) = true) :
    ∃ l, l.dimension = d ∧ usedOf budget d = (f l).used := by
  have hfound : (limits.find? fun l => l.dimension == d).isSome := by
    rw [List.find?_isSome]
    exact List.any_eq_true.mp hlimit
  obtain ⟨l, hl⟩ := Option.isSome_iff_exists.mp hfound
  have hdim : (l.dimension == d) = true :=
    List.find?_some (p := fun l : RuntimeBudgetLimit => l.dimension == d) hl
  refine ⟨l, beq_iff_eq.mp hdim, ?_⟩
  unfold usedOf usageByDimension
  rw [husage, List.find?_map, show ((fun u : RuntimeBudgetUsage => u.dimension == d) ∘ f) =
    fun l => l.dimension == d from funext fun l => by simp [hf], hl]
  rfl

/-- **The updater adds its amount to the usage it is given**, and changes no other
dimension. -/
theorem usageUpdater_usedOf {input : RuntimeBudgetUsageUpdateInput} {nowIso : String}
    {budget next : RuntimeBudgetRecord} (h : usageUpdater input nowIso budget = some next) :
    next.limits = budget.limits ∧ ∀ d, hasLimit budget d = true →
      usedOf next d = usedOf budget d + amountFor d [(input.dimension, input.amount)] := by
  unfold usageUpdater at h
  dsimp only at h
  split at h
  · cases h
  · obtain ⟨used, hused, hnext⟩ := Option.map_eq_some_iff.mp h
    refine ⟨by rw [← hnext], fun d hlimit => ?_⟩
    have hsum := addBudgetUsage_eq hused
    rw [usageOrZero_used] at hsum
    set observedAt := input.observedAt.getD nowIso
    set existing := usageOrZero budget observedAt input.dimension
    have husage : next.usage = budget.limits.map fun l =>
        if l.dimension = input.dimension then nextUsage input observedAt existing used
        else usageOrZero budget observedAt l.dimension := by rw [← hnext]
    obtain ⟨l, rfl, hl⟩ := usedOf_listed husage (fun l => by
      split
      · next hl => exact (usageOrZero_dimension ..).trans hl.symm
      · exact usageOrZero_dimension ..) hlimit
    rw [hl, amountFor_cons]
    by_cases hd : l.dimension = input.dimension
    · rw [if_pos hd, if_pos hd.symm, hd]
      simpa [nextUsage, amountFor] using hsum
    · rw [if_neg hd, if_neg (Ne.symm hd), usageOrZero_used]
      simp [amountFor]

/-! ## The accounting of a call -/

section Runs

variable {isDatetime : String → Bool}

theorem hasLimit_congr {b b' : RuntimeBudgetRecord} (h : b.limits = b'.limits)
    (d : RuntimeBudgetDimension) : hasLimit b d = hasLimit b' d := by
  unfold hasLimit
  rw [h]

theorem parse_eq {r r' : RuntimeBudgetRecord}
    (h : RuntimeBudgetRecord.parse isDatetime r = some r') : r' = r ∧ r'.Valid isDatetime := by
  unfold RuntimeBudgetRecord.parse at h
  split at h
  · next hvalid =>
    cases h
    exact ⟨rfl, hvalid⟩
  · cases h

/-- The planned updates of a call are what it was asked to record. -/
structure Planned (b₀ : RuntimeBudgetRecord) (c : UsageCall) : Prop where
  amount : ∀ d, hasLimit b₀ d = true → amountFor d c.updates = c.request.amount d
  input : ∀ u ∈ c.updates, ((c.request.input u).dimension, (c.request.input u).amount) = u

/-- What the local data of a call promise, for a budget with the limits of `b₀`. -/
def CallOk (isDatetime : String → Bool) (b₀ : RuntimeBudgetRecord) (c : UsageCall) : Prop :=
  match c.phase with
  | .planning => c.updates = [] ∧ c.recorded = 0
  | .loading => Planned b₀ c ∧ c.recorded < c.updates.length
  | .saving loaded next => Planned b₀ c ∧ loaded.limits = b₀.limits ∧
      next.limits = b₀.limits ∧ next.Valid isDatetime ∧
      ∃ update, c.updates[c.recorded]? = some update ∧
        ∀ d, hasLimit b₀ d = true → usedOf next d = usedOf loaded d + amountFor d [update]
  | .resolved => ∀ d, hasLimit b₀ d = true → c.recordedOf d = c.request.amount d
  | .rejected => True

theorem start_ok (b₀ : RuntimeBudgetRecord) (request : UsageRequest) :
    CallOk isDatetime b₀ request.start ∧ ∀ d, request.start.recordedOf d = 0 := by
  cases request with
  | updateUsage input =>
    unfold UsageRequest.start
    dsimp only
    split
    · exact ⟨trivial, fun d => rfl⟩
    · next amount hparse =>
      obtain ⟨rfl, -⟩ := parseBudgetUsageAmount_eq hparse
      refine ⟨⟨⟨fun d _ => rfl, fun u hu => ?_⟩, Nat.zero_lt_one⟩, fun d => rfl⟩
      rw [List.mem_singleton.mp hu]
      rfl
  | record source inputs observedAt reason => exact ⟨⟨rfl, rfl⟩, fun d => rfl⟩

/-- The load of a call keeps its promises and records nothing. -/
theorem loaded_ok {b₀ : RuntimeBudgetRecord} {c : UsageCall} (hc : CallOk isDatetime b₀ c)
    (hphase : c.phase = .planning ∨ c.phase = .loading) {budget : RuntimeBudgetRecord}
    (hlimits : budget.limits = b₀.limits) (nowIso : String) :
    CallOk isDatetime b₀ (c.loaded isDatetime (some budget) nowIso) ∧
      ∀ d, (c.loaded isDatetime (some budget) nowIso).recordedOf d = c.recordedOf d := by
  obtain ⟨request, updates, recorded, phase⟩ := c
  unfold UsageCall.loaded
  dsimp only at hphase ⊢
  rcases hphase with rfl | rfl
  · obtain ⟨rfl, rfl⟩ : updates = [] ∧ recorded = 0 := hc
    cases request with
    | updateUsage input => exact ⟨⟨rfl, rfl⟩, fun d => rfl⟩
    | record source inputs observedAt reason =>
      dsimp only
      split
      · exact ⟨trivial, fun d => rfl⟩
      · next hplan =>
        refine ⟨fun d hlimit => ?_, fun d => rfl⟩
        exact planFrom_amount ((hasLimit_congr hlimits d).trans hlimit) inputs hplan
      · next updates hne hplan =>
        refine ⟨⟨⟨fun d hlimit => ?_, fun u _ => rfl⟩, ?_⟩, fun d => rfl⟩
        · exact planFrom_amount ((hasLimit_congr hlimits d).trans hlimit) inputs hplan
        · exact List.length_pos_iff.mpr fun h => hne h
  · obtain ⟨hplanned, hlt⟩ := hc
    dsimp only
    split
    · next hnone => exact absurd (List.getElem?_eq_none_iff.mp hnone) (not_le.mpr hlt)
    · next update hupdate =>
      split
      · exact ⟨trivial, fun d => rfl⟩
      · next next hnext =>
        obtain ⟨computed, hcomputed, hparse⟩ := Option.bind_eq_some_iff.mp hnext
        obtain ⟨rfl, hvalid⟩ := parse_eq hparse
        obtain ⟨hsame, hused⟩ := usageUpdater_usedOf hcomputed
        have hinput := hplanned.input update (List.mem_of_getElem? hupdate)
        refine ⟨⟨⟨hplanned.amount, hplanned.input⟩, hlimits, hsame.trans hlimits, hvalid,
          update, hupdate, fun d hlimit => ?_⟩, fun d => rfl⟩
        rw [hused d ((hasLimit_congr hlimits d).trans hlimit), hinput]

/-- The save of a call records the update it was at. -/
theorem saved_ok {b₀ : RuntimeBudgetRecord} {c : UsageCall}
    {loaded next : RuntimeBudgetRecord} (hc : CallOk isDatetime b₀ c)
    (hphase : c.phase = .saving loaded next) :
    CallOk isDatetime b₀ c.saved ∧ ∀ d, hasLimit b₀ d = true →
      usedOf next d + c.recordedOf d = usedOf loaded d + c.saved.recordedOf d := by
  obtain ⟨request, updates, recorded, phase⟩ := c
  dsimp only at hphase
  subst hphase
  obtain ⟨hplanned, -, -, -, update, hupdate, hused⟩ := hc
  have hlt : recorded < updates.length := (List.getElem?_eq_some_iff.mp hupdate).1
  have htake : updates.take (recorded + 1) = updates.take recorded ++ [update] := by
    rw [List.take_add_one, hupdate]
    rfl
  constructor
  · unfold UsageCall.saved
    dsimp only
    split
    · next hmore => exact ⟨⟨hplanned.amount, hplanned.input⟩, hmore⟩
    · next hlast =>
      intro d hlimit
      show amountFor d (updates.take (recorded + 1)) = _
      rw [List.take_of_length_le (not_lt.mp hlast)]
      exact hplanned.amount d hlimit
  · intro d hlimit
    show usedOf next d + amountFor d (updates.take recorded) =
      usedOf loaded d + amountFor d (updates.take (recorded + 1))
    rw [hused d hlimit, htake, amountFor_append]
    ring

/-! ## Runs -/

/-- The condition of exactness: a save finds, in every dimension with a limit, the
usage that its call loaded. -/
def SavesFresh (isDatetime : String → Bool) (s : BudgetStore) : BudgetStep → Prop
  | .save k =>
    ∀ loaded ∈ s.calls[k]?.bind UsageCall.snapshot, ∀ stored ∈ s.load isDatetime,
      ∀ l ∈ stored.limits, usedOf loaded l.dimension = usedOf stored l.dimension
  | _ => True

instance (s : BudgetStore) : (step : BudgetStep) → Decidable (SavesFresh isDatetime s step)
  | .save k => inferInstanceAs (Decidable (∀ loaded ∈ s.calls[k]?.bind UsageCall.snapshot,
      ∀ stored ∈ s.load isDatetime, ∀ l ∈ stored.limits,
        usedOf loaded l.dimension = usedOf stored l.dimension))
  | .call _ | .load _ _ => instDecidableTrue

/-- The stored usage is the initial usage and what the calls have recorded. -/
structure Accounted (isDatetime : String → Bool) (b₀ : RuntimeBudgetRecord)
    (s : BudgetStore) : Prop where
  stored : ∃ b, s.load isDatetime = some b ∧ b.limits = b₀.limits ∧
    ∀ d, hasLimit b₀ d = true →
      usedOf b d = usedOf b₀ d + (s.calls.map (UsageCall.recordedOf d)).sum
  calls : ∀ c ∈ s.calls, CallOk isDatetime b₀ c

/-- Replacing a member of a list in a sum over the list. -/
theorem sum_map_set {α : Type} (f : α → ℚ) {l : List α} {k : Nat} {old : α}
    (h : l[k]? = some old) (new : α) :
    ((l.set k new).map f).sum + f old = (l.map f).sum + f new := by
  induction l generalizing k with
  | nil => simp at h
  | cons a l ih =>
    cases k with
    | zero =>
      obtain rfl : a = old := by simpa using h
      simp only [List.set_cons_zero, List.map_cons, List.sum_cons]
      ring
    | succ k =>
      have := ih (k := k) (by simpa using h)
      simp only [List.set_cons_succ, List.map_cons, List.sum_cons]
      linarith

/-- **A step keeps the account**, a save under the condition of freshness. -/
theorem step_accounted {b₀ : RuntimeBudgetRecord} {s s' : BudgetStore} {step : BudgetStep}
    (hstep : (budgetLTS isDatetime).step s step s') (hfresh : SavesFresh isDatetime s step)
    (hacc : Accounted isDatetime b₀ s) : Accounted isDatetime b₀ s' := by
  obtain ⟨⟨b, hload, hlimits, hused⟩, hcalls⟩ := hacc
  have hstep : budgetStep isDatetime s step = some s' := hstep
  cases step with
  | call request =>
    cases hstep
    obtain ⟨hok, hzero⟩ := @start_ok isDatetime b₀ request
    refine ⟨⟨b, hload, hlimits, fun d hlimit => ?_⟩, ?_⟩
    · simp [hused d hlimit, hzero]
    · intro c hc
      rcases List.mem_append.mp hc with hc | hc
      · exact hcalls c hc
      · exact List.mem_singleton.mp hc ▸ hok
  | load k nowIso =>
    obtain ⟨c, hc, hstep⟩ := Option.bind_eq_some_iff.mp hstep
    have hphase : c.phase = .planning ∨ c.phase = .loading := by
      split at hstep
      · next h => exact .inl h
      · next h => exact .inr h
      · cases hstep
    have hs' : s' = { s with
        calls := s.calls.set k (c.loaded isDatetime (s.load isDatetime) nowIso) } := by
      rcases hphase with h | h <;> rw [h] at hstep <;> exact (Option.some.inj hstep).symm
    obtain ⟨hok, hsame⟩ := loaded_ok (hcalls c (List.mem_of_getElem? hc)) hphase hlimits nowIso
    rw [hs', hload]
    refine ⟨⟨b, hload, hlimits, fun d hlimit => ?_⟩, ?_⟩
    · have hsum := sum_map_set (UsageCall.recordedOf d) hc (c.loaded isDatetime (some b) nowIso)
      rw [hsame d] at hsum
      rw [hused d hlimit]
      linarith
    · intro c' hc'
      rcases List.mem_or_eq_of_mem_set hc' with hc' | rfl
      · exact hcalls c' hc'
      · exact hok
  | save k =>
    obtain ⟨c, hc, hstep⟩ := Option.bind_eq_some_iff.mp hstep
    split at hstep
    · next loaded next hphase =>
      cases hstep
      have hok := hcalls c (List.mem_of_getElem? hc)
      obtain ⟨hok', hrecorded⟩ := saved_ok hok hphase
      have hvalid : next.limits = b₀.limits ∧ next.Valid isDatetime := by
        unfold CallOk at hok
        rw [hphase] at hok
        exact ⟨hok.2.2.1, hok.2.2.2.1⟩
      -- freshness: what the call loaded is what is stored
      have hsame : ∀ d, hasLimit b₀ d = true → usedOf loaded d = usedOf b d := by
        intro d hlimit
        have hsnapshot : s.calls[k]?.bind UsageCall.snapshot = some loaded := by
          rw [hc, Option.bind_some, UsageCall.snapshot, hphase]
        rw [← hasLimit_congr hlimits d] at hlimit
        obtain ⟨l, hl, hd⟩ := List.any_eq_true.mp hlimit
        exact beq_iff_eq.mp hd ▸ hfresh loaded hsnapshot b hload l hl
      refine ⟨⟨next, ?_, hvalid.1, fun d hlimit => ?_⟩, ?_⟩
      · show parseBudget isDatetime next = some next
        exact if_pos hvalid.2
      · have hsum := sum_map_set (UsageCall.recordedOf d) hc c.saved
        have h₁ := hrecorded d hlimit
        have h₂ := hused d hlimit
        rw [hsame d hlimit] at h₁
        show usedOf next d = usedOf b₀ d + ((s.calls.set k c.saved).map (UsageCall.recordedOf d)).sum
        linarith
      · intro c' hc'
        rcases List.mem_or_eq_of_mem_set hc' with hc' | rfl
        · exact hcalls c' hc'
        · exact hok'
    · cases hstep

theorem run_accounted {b₀ : RuntimeBudgetRecord} {s s' : BudgetStore} {steps : List BudgetStep}
    (hrun : (budgetLTS isDatetime).Run s steps s')
    (hfresh : (budgetLTS isDatetime).Always s steps (SavesFresh isDatetime))
    (hacc : Accounted isDatetime b₀ s) : Accounted isDatetime b₀ s' :=
  hrun.guarded hacc hfresh fun _ _ _ => step_accounted

end Runs

/-! ## Sample runs -/

/-- The datetimes of the sample runs. -/
def sampleDatetime (s : String) : Bool := s == "2026-01-01T00:00:00.000Z"

/-- A budget of ten iterations and five tasks. -/
def sampleBudget : RuntimeBudgetRecord where
  budgetId := "budget-1"
  scope := { goalId := some "goal-1" }
  createdAt := "2026-01-01T00:00:00.000Z"
  updatedAt := "2026-01-01T00:00:00.000Z"
  limits := [{ dimension := .iterations, limit := 10 }, { dimension := .tasks, limit := 5 }]
  usage := [⟨.iterations, 1, "2026-01-01T00:00:00.000Z", []⟩]

/-- One iteration more. -/
def sampleIteration : UsageRequest :=
  .updateUsage ⟨.iterations, 1, .manual, none, none⟩

/-- Two iterations and a task recorded, and then another iteration. -/
def sampleInTurn : List BudgetStep :=
  [.call (recordTaskExecution (some 2) (some 1) (some 7) none none (some "run")),
    .load 0 "2026-01-01T00:00:00.000Z", .load 0 "2026-01-01T00:00:00.000Z", .save 0,
    .call sampleIteration, .load 0 "2026-01-01T00:00:00.000Z", .save 0,
    .load 1 "2026-01-01T00:00:00.000Z", .save 1]

/-- Two iterations recorded at once: both calls load before either saves. -/
def sampleAtOnce : List BudgetStep :=
  [.call sampleIteration, .call sampleIteration, .load 0 "2026-01-01T00:00:00.000Z",
    .load 1 "2026-01-01T00:00:00.000Z", .save 0, .save 1]

end PulSeed.Budget
