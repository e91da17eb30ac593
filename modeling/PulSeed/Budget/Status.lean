import Mathlib.Data.List.Forall2
import PulSeed.Budget.Usage

/-!
# The status of a budget (`runtime/store/budget-store.ts`)

What `status` reads off a budget: for every limit what remains of it and which actions its
thresholds ask for, and for the whole budget its mode. More usage leaves less of every limit
(`dimensionStatus_mono`), so that nothing that was asked for is withdrawn and the mode does not
go back (`status_mono`).

`localeCompare` is the comparison of strings that orders the recent consumption.
-/

namespace PulSeed.Budget

/-- `RuntimeBudgetModeSchema`. -/
inductive RuntimeBudgetMode
  | exploration | consolidation | finalization | exhausted
  deriving DecidableEq, Repr

def RuntimeBudgetMode.rank : RuntimeBudgetMode → ℕ
  | .exploration => 0
  | .consolidation => 1
  | .finalization => 2
  | .exhausted => 3

/-- `RuntimeBudgetThresholdActionSchema`. -/
inductive RuntimeBudgetThresholdAction
  | approvalRequired | handoffRequired | finalizationRequired
  deriving DecidableEq, Repr

/-- `RuntimeBudgetDimensionStatus`. -/
structure RuntimeBudgetDimensionStatus where
  dimension : RuntimeBudgetDimension
  limit : ℚ
  used : ℚ
  remaining : ℚ
  exhausted : Bool
  exhaustionPolicy : ExhaustionPolicy
  thresholdActions : List RuntimeBudgetThresholdAction

/-- `RuntimeBudgetStatus`. -/
structure RuntimeBudgetStatus where
  budgetId : String
  scope : RuntimeBudgetScope
  mode : RuntimeBudgetMode
  dimensions : List RuntimeBudgetDimensionStatus
  approvalRequired : Bool
  handoffRequired : Bool
  finalizationRequired : Bool
  exhausted : Bool
  recentConsumption : List RecentUsage

/-- A threshold that is set has been reached. -/
def reached (threshold : Option ℚ) (remaining : ℚ) : Bool :=
  threshold.any fun t => remaining ≤ t

/-- The action that a policy asks for when the limit is used up. -/
def ExhaustionPolicy.action : ExhaustionPolicy → Option RuntimeBudgetThresholdAction
  | .stop => none
  | .approvalRequired => some .approvalRequired
  | .handoffRequired => some .handoffRequired
  | .finalize => some .finalizationRequired

/-- The action of a threshold, once it has been reached. -/
def askedAt (threshold : Option ℚ) (remaining : ℚ) (action : RuntimeBudgetThresholdAction) :
    List RuntimeBudgetThresholdAction :=
  if reached threshold remaining then [action] else []

/-- `thresholdActionsFor`. -/
def thresholdActionsFor (limit : RuntimeBudgetLimit) (remaining used : ℚ) :
    List RuntimeBudgetThresholdAction :=
  (askedAt limit.approvalAtRemaining remaining .approvalRequired
    ++ askedAt limit.handoffAtRemaining remaining .handoffRequired
    ++ askedAt limit.finalizationAtRemaining remaining .finalizationRequired
    ++ (if limit.limit ≤ used then limit.exhaustionPolicy.action.toList else [])).eraseDups

/-- The status of one limit. -/
def dimensionStatus (budget : RuntimeBudgetRecord) (limit : RuntimeBudgetLimit) :
    RuntimeBudgetDimensionStatus :=
  let used := usedOf budget limit.dimension
  let remaining := max 0 (limit.limit - used)
  { dimension := limit.dimension
    limit := limit.limit
    used := used
    remaining := remaining
    exhausted := limit.limit ≤ used
    exhaustionPolicy := limit.exhaustionPolicy
    thresholdActions := thresholdActionsFor limit remaining used }

/-- `limit?.mode_transition_at_remaining`, of the first limit for the dimension. -/
def transitionsFor (limits : List RuntimeBudgetLimit) (dimension : RuntimeBudgetDimension) :
    Option ModeTransition :=
  (limits.find? fun candidate => candidate.dimension == dimension).bind
    (·.modeTransitionAtRemaining)

/-- The loop of `budgetMode`. -/
def modeFrom (limits : List RuntimeBudgetLimit) (mode : RuntimeBudgetMode) :
    List RuntimeBudgetDimensionStatus → RuntimeBudgetMode
  | [] => mode
  | status :: rest =>
    let transitions := transitionsFor limits status.dimension
    if reached (transitions.bind (·.finalization)) status.remaining then .finalization
    else
      modeFrom limits
        (if reached (transitions.bind (·.consolidation)) status.remaining then .consolidation
          else mode) rest

/-- `budgetMode`. -/
def budgetMode (limits : List RuntimeBudgetLimit)
    (dimensions : List RuntimeBudgetDimensionStatus) : RuntimeBudgetMode :=
  if dimensions.any (·.exhausted) then .exhausted else modeFrom limits .exploration dimensions

/-- Some limit asks for the action. -/
def asksFor (dimensions : List RuntimeBudgetDimensionStatus)
    (action : RuntimeBudgetThresholdAction) : Bool :=
  dimensions.any fun dimension => dimension.thresholdActions.contains action

/-- `status`. -/
def status (localeCompare : String → String → ℤ) (budget : RuntimeBudgetRecord) :
    RuntimeBudgetStatus :=
  let dimensions := budget.limits.map (dimensionStatus budget)
  let recent := (budget.usage.flatMap (·.recent)).mergeSort fun a b =>
    localeCompare b.observedAt a.observedAt ≤ 0
  { budgetId := budget.budgetId
    scope := budget.scope
    mode := budgetMode budget.limits dimensions
    dimensions := dimensions
    approvalRequired := asksFor dimensions .approvalRequired
    handoffRequired := asksFor dimensions .handoffRequired
    finalizationRequired := asksFor dimensions .finalizationRequired
    exhausted := dimensions.any (·.exhausted)
    recentConsumption := recent.take 10 }

/-! ## More usage -/

theorem reached_mono {threshold : Option ℚ} {remaining remaining' : ℚ}
    (hle : remaining' ≤ remaining) (h : reached threshold remaining = true) :
    reached threshold remaining' = true := by
  cases threshold with
  | none => cases h
  | some t =>
    have ht : remaining ≤ t := of_decide_eq_true h
    exact decide_eq_true (hle.trans ht)

theorem askedAt_mono {threshold : Option ℚ} {remaining remaining' : ℚ}
    {action : RuntimeBudgetThresholdAction} (hle : remaining' ≤ remaining) :
    askedAt threshold remaining action ⊆ askedAt threshold remaining' action := by
  unfold askedAt
  split
  · next hreached =>
    rw [if_pos (reached_mono hle hreached)]
    exact List.Subset.refl _
  · exact List.nil_subset _

theorem thresholdActionsFor_mono {limit : RuntimeBudgetLimit} {remaining remaining' used used' : ℚ}
    (hremaining : remaining' ≤ remaining) (hused : used ≤ used') :
    thresholdActionsFor limit remaining used ⊆ thresholdActionsFor limit remaining' used' := by
  intro action haction
  unfold thresholdActionsFor at haction ⊢
  simp only [List.mem_eraseDups, List.mem_append] at haction ⊢
  -- each action stays asked for by the threshold, or the policy, that asked for it
  rcases haction with ((h | h) | h) | h
  · exact .inl (.inl (.inl (askedAt_mono hremaining h)))
  · exact .inl (.inl (.inr (askedAt_mono hremaining h)))
  · exact .inl (.inr (askedAt_mono hremaining h))
  · split at h
    · next hlimit =>
      rw [if_pos (hlimit.trans hused)]
      exact .inr h
    · cases h

/-- The second status is that of the same limit with at least as much usage. -/
structure Later (d d' : RuntimeBudgetDimensionStatus) : Prop where
  dimension : d'.dimension = d.dimension
  remaining : d'.remaining ≤ d.remaining
  exhausted : d.exhausted = true → d'.exhausted = true
  actions : d.thresholdActions ⊆ d'.thresholdActions

theorem dimensionStatus_mono {budget budget' : RuntimeBudgetRecord} {limit : RuntimeBudgetLimit}
    (h : usedOf budget limit.dimension ≤ usedOf budget' limit.dimension) :
    Later (dimensionStatus budget limit) (dimensionStatus budget' limit) := by
  have hremaining : max 0 (limit.limit - usedOf budget' limit.dimension) ≤
      max 0 (limit.limit - usedOf budget limit.dimension) :=
    max_le_max_left 0 (sub_le_sub_left h _)
  refine ⟨rfl, hremaining, fun hexhausted => ?_, thresholdActionsFor_mono hremaining h⟩
  have hlimit : limit.limit ≤ usedOf budget limit.dimension := of_decide_eq_true hexhausted
  exact decide_eq_true (hlimit.trans h)

section Statuses

variable {limits : List RuntimeBudgetLimit} {ds ds' : List RuntimeBudgetDimensionStatus}

theorem any_exhausted_mono (h : List.Forall₂ Later ds ds')
    (hany : ds.any (·.exhausted) = true) : ds'.any (·.exhausted) = true := by
  induction h with
  | nil => cases hany
  | cons hd _ ih =>
    simp only [List.any_cons, Bool.or_eq_true] at hany ⊢
    exact hany.imp hd.exhausted ih

theorem asksFor_mono {action : RuntimeBudgetThresholdAction} (h : List.Forall₂ Later ds ds')
    (hasks : asksFor ds action = true) : asksFor ds' action = true := by
  unfold asksFor at hasks ⊢
  induction h with
  | nil => cases hasks
  | cons hd _ ih =>
    simp only [List.any_cons, Bool.or_eq_true, List.contains_iff_mem] at hasks ⊢
    exact hasks.imp (fun hmem => hd.actions hmem) ih

theorem rank_modeFrom_le {mode : RuntimeBudgetMode} (h : mode.rank ≤ 2) :
    (modeFrom limits mode ds).rank ≤ 2 := by
  induction ds generalizing mode with
  | nil => exact h
  | cons status rest ih =>
    unfold modeFrom
    dsimp only
    split
    · exact le_refl 2
    · refine ih ?_
      split
      · exact Nat.le_succ 1
      · exact h

/-- The loops over the two lists, from modes that are ordered and not yet final. -/
theorem modeFrom_mono {mode mode' : RuntimeBudgetMode} (h : List.Forall₂ Later ds ds')
    (hmode : mode.rank ≤ mode'.rank) (hmode' : mode'.rank ≤ 1) :
    (modeFrom limits mode ds).rank ≤ (modeFrom limits mode' ds').rank := by
  induction h generalizing mode mode' with
  | nil => exact hmode
  | @cons d d' rest rest' hd _ ih =>
    unfold modeFrom
    dsimp only
    rw [hd.dimension]
    by_cases hfinal' :
        reached ((transitionsFor limits d.dimension).bind (·.finalization)) d'.remaining = true
    · rw [if_pos hfinal']
      split
      · exact le_refl _
      · refine rank_modeFrom_le ?_
        split
        · exact Nat.le_succ 1
        · exact hmode.trans (hmode'.trans (Nat.le_succ 1))
    · have hfinal := mt (reached_mono hd.remaining) hfinal'
      rw [if_neg hfinal', if_neg hfinal]
      by_cases hreached :
          reached ((transitionsFor limits d.dimension).bind (·.consolidation)) d.remaining = true
      · rw [if_pos hreached, if_pos (reached_mono hd.remaining hreached)]
        exact ih (le_refl _) (le_refl _)
      · rw [if_neg hreached]
        split
        · exact ih (hmode.trans hmode') (le_refl _)
        · exact ih hmode hmode'

theorem budgetMode_mono (h : List.Forall₂ Later ds ds') :
    (budgetMode limits ds).rank ≤ (budgetMode limits ds').rank := by
  unfold budgetMode
  by_cases hexhausted' : ds'.any (·.exhausted) = true
  · rw [if_pos hexhausted']
    split
    · exact le_refl _
    · have hfrom : (modeFrom limits .exploration ds).rank ≤ 2 := rank_modeFrom_le (Nat.zero_le 2)
      exact hfrom.trans (Nat.le_succ 2)
  · rw [if_neg hexhausted', if_neg (mt (any_exhausted_mono h) hexhausted')]
    exact modeFrom_mono h (le_refl _) (Nat.zero_le 1)

end Statuses

/-- **More usage of the limits never brings a mode back** or withdraws what was required. -/
theorem status_mono (localeCompare : String → String → ℤ) (budget : RuntimeBudgetRecord)
    (usage usage' : List RuntimeBudgetUsage)
    (h : ∀ limit ∈ budget.limits, usedOf { budget with usage := usage } limit.dimension ≤
      usedOf { budget with usage := usage' } limit.dimension) :
    let before := status localeCompare { budget with usage := usage }
    let after := status localeCompare { budget with usage := usage' }
    before.mode.rank ≤ after.mode.rank ∧
      (before.approvalRequired = true → after.approvalRequired = true) ∧
      (before.handoffRequired = true → after.handoffRequired = true) ∧
      (before.finalizationRequired = true → after.finalizationRequired = true) ∧
      (before.exhausted = true → after.exhausted = true) ∧
      List.Forall₂ (fun d d' => d.thresholdActions ⊆ d'.thresholdActions)
        before.dimensions after.dimensions := by
  have hlater : List.Forall₂ Later
      (budget.limits.map (dimensionStatus { budget with usage := usage }))
      (budget.limits.map (dimensionStatus { budget with usage := usage' })) := by
    rw [List.forall₂_map_left_iff, List.forall₂_map_right_iff, List.forall₂_same]
    exact fun limit hlimit => dimensionStatus_mono (h limit hlimit)
  exact ⟨budgetMode_mono hlater, asksFor_mono hlater, asksFor_mono hlater, asksFor_mono hlater,
    any_exhausted_mono hlater, hlater.imp fun _ _ hd => hd.actions⟩

/-- A budget of iterations that is consolidated at 4 and asks for approval at 2 remaining. -/
def sampleIterations : RuntimeBudgetRecord where
  budgetId := "budget-1"
  scope := { goalId := some "goal-1" }
  createdAt := "2025-01-01T00:00:00.000Z"
  updatedAt := "2025-01-01T00:00:00.000Z"
  limits := [{ dimension := .iterations, limit := 10, approvalAtRemaining := some 2
               modeTransitionAtRemaining := some { consolidation := some 4 } }]
  usage := []

def iterationsUsed (used : ℚ) : List RuntimeBudgetUsage :=
  [{ dimension := .iterations, used, updatedAt := "2025-01-01T00:00:00.000Z" }]

theorem status_mono_sample :
    let before := status (fun _ _ => 0) { sampleIterations with usage := iterationsUsed 5 }
    let after := status (fun _ _ => 0) { sampleIterations with usage := iterationsUsed 8 }
    before.mode.rank ≤ after.mode.rank ∧
      (before.approvalRequired = true → after.approvalRequired = true) ∧
      (before.handoffRequired = true → after.handoffRequired = true) ∧
      (before.finalizationRequired = true → after.finalizationRequired = true) ∧
      (before.exhausted = true → after.exhausted = true) ∧
      List.Forall₂ (fun d d' => d.thresholdActions ⊆ d'.thresholdActions)
        before.dimensions after.dimensions := by
  refine status_mono (fun _ _ => 0) sampleIterations (iterationsUsed 5) (iterationsUsed 8) ?_
  decide +kernel

end PulSeed.Budget
