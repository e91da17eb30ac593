import PulSeed.Lib.Transition
import PulSeed.Runtime.Envelope
import Mathlib.Logic.Function.Basic

/-!
# Budget usage (`runtime/store/budget-store.ts`)

The row of one budget in `runtime_budgets`, and any number of callers that record
usage against it. Recording is a load and, in a later transaction, a save of the whole
record computed from what was loaded; `recordTaskExecution` and its siblings first load
the budget to plan their updates and then make one such load and save for every planned
dimension. `budgetLTS` interleaves these steps freely.

Amounts are the rationals their doubles denote, and their sums are exact. `isDatetime`
stands for the datetime check of the schema library.
-/

namespace PulSeed.Budget

/-- `RuntimeBudgetDimensionSchema`. -/
inductive RuntimeBudgetDimension
  | wallClockMs | iterations | tasks | processMs | diskBytes | artifacts | llmTokens
  | toolCalls | evaluatorAttempts
  deriving DecidableEq, Repr

/-- The policies of `RuntimeBudgetLimitBaseSchema`. -/
inductive ExhaustionPolicy
  | stop | approvalRequired | handoffRequired | finalize
  deriving DecidableEq, Repr

/-- The sources of `RuntimeBudgetUsageSchema`. -/
inductive UsageSource
  | taskExecution | artifactGeneration | toolUsage | evaluatorCall | manual
  deriving DecidableEq, Repr

/-- `RuntimeBudgetScopeSchema`. -/
structure RuntimeBudgetScope where
  goalId : Option String := none
  runId : Option String := none

/-- The member `mode_transition_at_remaining` of a limit. -/
structure ModeTransition where
  consolidation : Option ℚ := none
  finalization : Option ℚ := none

/-- `RuntimeBudgetLimitBaseSchema`. -/
structure RuntimeBudgetLimit where
  dimension : RuntimeBudgetDimension
  limit : ℚ
  warnAtRemaining : Option ℚ := none
  approvalAtRemaining : Option ℚ := none
  handoffAtRemaining : Option ℚ := none
  finalizationAtRemaining : Option ℚ := none
  modeTransitionAtRemaining : Option ModeTransition := none
  exhaustionPolicy : ExhaustionPolicy := .approvalRequired

/-- An item of `recent`. -/
structure RecentUsage where
  amount : ℚ
  source : UsageSource
  reason : Option String
  observedAt : String

/-- `RuntimeBudgetUsageSchema`. -/
structure RuntimeBudgetUsage where
  dimension : RuntimeBudgetDimension
  used : ℚ
  updatedAt : String
  recent : List RecentUsage := []

/-- `RuntimeBudgetRecordSchema`. -/
structure RuntimeBudgetRecord where
  budgetId : String
  scope : RuntimeBudgetScope
  title : Option String := none
  createdAt : String
  updatedAt : String
  limits : List RuntimeBudgetLimit
  usage : List RuntimeBudgetUsage
  notes : Option String := none

/-! ## The schemas -/

/-- `RuntimeBudgetNonNegativeSafeNumberSchema`. -/
def IsBudgetNumber (x : ℚ) : Prop := 0 ≤ x ∧ x ≤ maxSafeInteger

instance (x : ℚ) : Decidable (IsBudgetNumber x) := inferInstanceAs (Decidable (_ ∧ _))

/-- The optional thresholds of a limit, the mode transitions included. -/
def RuntimeBudgetLimit.thresholds (l : RuntimeBudgetLimit) : List (Option ℚ) :=
  [l.warnAtRemaining, l.approvalAtRemaining, l.handoffAtRemaining, l.finalizationAtRemaining,
    l.modeTransitionAtRemaining.bind ModeTransition.consolidation,
    l.modeTransitionAtRemaining.bind ModeTransition.finalization]

/-- `RuntimeBudgetLimitBaseSchema`: no threshold is compared with the limit. -/
def RuntimeBudgetLimit.BaseValid (l : RuntimeBudgetLimit) : Prop :=
  IsBudgetNumber l.limit ∧ ∀ t ∈ l.thresholds, ∀ x ∈ t, IsBudgetNumber x

instance (l : RuntimeBudgetLimit) : Decidable l.BaseValid :=
  inferInstanceAs (Decidable (_ ∧ ∀ t ∈ l.thresholds, ∀ x ∈ t, IsBudgetNumber x))

/-- The refinement of `RuntimeBudgetLimitSchema`. -/
def RuntimeBudgetLimit.Refined (l : RuntimeBudgetLimit) : Prop :=
  ∀ t ∈ l.thresholds, ∀ x ∈ t, x ≤ l.limit

instance (l : RuntimeBudgetLimit) : Decidable l.Refined :=
  inferInstanceAs (Decidable (∀ t ∈ l.thresholds, ∀ x ∈ t, x ≤ l.limit))

section Schema

variable (isDatetime : String → Bool)

def RuntimeBudgetUsage.Valid (u : RuntimeBudgetUsage) : Prop :=
  IsBudgetNumber u.used ∧ isDatetime u.updatedAt = true ∧
    ∀ r ∈ u.recent, IsBudgetNumber r.amount ∧ r.reason ≠ some "" ∧ isDatetime r.observedAt = true

instance (u : RuntimeBudgetUsage) : Decidable (u.Valid isDatetime) :=
  inferInstanceAs (Decidable (_ ∧ _ ∧ ∀ r ∈ u.recent, _ ∧ _ ∧ _))

/-- `RuntimeBudgetRecordReadCompatibilitySchema`. -/
def RuntimeBudgetRecord.Compatible (r : RuntimeBudgetRecord) : Prop :=
  (r.budgetId ≠ "" ∧ r.scope.goalId ≠ some "" ∧ r.scope.runId ≠ some "" ∧
    ((truthy r.scope.goalId).isSome ∨ (truthy r.scope.runId).isSome) ∧
    r.title ≠ some "" ∧ r.notes ≠ some "" ∧
    isDatetime r.createdAt = true ∧ isDatetime r.updatedAt = true ∧ r.limits ≠ []) ∧
  (∀ l ∈ r.limits, l.BaseValid) ∧ (∀ u ∈ r.usage, u.Valid isDatetime) ∧
  (r.limits.map RuntimeBudgetLimit.dimension).Nodup ∧
  (r.usage.map RuntimeBudgetUsage.dimension).Nodup

instance (r : RuntimeBudgetRecord) : Decidable (r.Compatible isDatetime) :=
  inferInstanceAs (Decidable ((_ ∧ _ ∧ _ ∧ _ ∧ _ ∧ _ ∧ _ ∧ _ ∧ _) ∧
    (∀ l ∈ r.limits, l.BaseValid) ∧ (∀ u ∈ r.usage, u.Valid isDatetime) ∧ _ ∧ _))

/-- `RuntimeBudgetRecordSchema`. -/
def RuntimeBudgetRecord.Valid (r : RuntimeBudgetRecord) : Prop :=
  r.Compatible isDatetime ∧ ∀ l ∈ r.limits, l.Refined

instance (r : RuntimeBudgetRecord) : Decidable (r.Valid isDatetime) :=
  inferInstanceAs (Decidable (_ ∧ ∀ l ∈ r.limits, l.Refined))

/-- `RuntimeBudgetRecordSchema.parse`. -/
def RuntimeBudgetRecord.parse (r : RuntimeBudgetRecord) : Option RuntimeBudgetRecord :=
  if r.Valid isDatetime then some r else none

/-- `normalizeLegacyBudgetLimitForRead`: thresholds above the limit are set to it. -/
def normalizeLegacyBudgetLimitForRead (l : RuntimeBudgetLimit) : RuntimeBudgetLimit :=
  let clip (t : Option ℚ) : Option ℚ := t.map fun x => min x l.limit
  { l with
    warnAtRemaining := clip l.warnAtRemaining
    approvalAtRemaining := clip l.approvalAtRemaining
    handoffAtRemaining := clip l.handoffAtRemaining
    finalizationAtRemaining := clip l.finalizationAtRemaining
    modeTransitionAtRemaining := l.modeTransitionAtRemaining.map fun t =>
      { t with consolidation := clip t.consolidation, finalization := clip t.finalization } }

/-- `parseBudgetJson`, on the record of the row. -/
def parseBudget (raw : RuntimeBudgetRecord) : Option RuntimeBudgetRecord :=
  if raw.Valid isDatetime then some raw
  else if raw.Compatible isDatetime then
    RuntimeBudgetRecord.parse isDatetime
      { raw with limits := raw.limits.map normalizeLegacyBudgetLimitForRead }
  else none

end Schema

/-! ## Adding usage -/

/-- `parseBudgetUsageAmount`. -/
def parseBudgetUsageAmount (amount : ℚ) : Option ℚ :=
  if IsBudgetNumber amount then some amount else none

/-- `addBudgetUsage`. -/
def addBudgetUsage (current amount : ℚ) : Option ℚ := do
  let safeCurrent ← parseBudgetUsageAmount current
  let safeAmount ← parseBudgetUsageAmount amount
  if 0 < safeAmount ∧ (maxSafeInteger : ℚ) - safeCurrent < safeAmount then none
  else
    let next := safeCurrent + safeAmount
    if 0 < safeAmount ∧ next ≤ safeCurrent then none
    else parseBudgetUsageAmount next

def hasLimit (budget : RuntimeBudgetRecord) (dimension : RuntimeBudgetDimension) : Bool :=
  budget.limits.any fun l => l.dimension == dimension

/-- The map `usageByDimension`; the schema keeps the dimensions distinct. -/
def usageByDimension (budget : RuntimeBudgetRecord) (dimension : RuntimeBudgetDimension) :
    Option RuntimeBudgetUsage :=
  budget.usage.find? fun u => u.dimension == dimension

/-- The recorded usage of a dimension. -/
def usedOf (budget : RuntimeBudgetRecord) (dimension : RuntimeBudgetDimension) : ℚ :=
  ((usageByDimension budget dimension).map RuntimeBudgetUsage.used).getD 0

/-- `RuntimeBudgetUsageUpdateInput`. -/
structure RuntimeBudgetUsageUpdateInput where
  dimension : RuntimeBudgetDimension
  amount : ℚ
  source : UsageSource
  reason : Option String := none
  observedAt : Option String := none

/-- The usage of a dimension, or the one a dimension without usage starts from. -/
def usageOrZero (budget : RuntimeBudgetRecord) (observedAt : String)
    (dimension : RuntimeBudgetDimension) : RuntimeBudgetUsage :=
  (usageByDimension budget dimension).getD ⟨dimension, 0, observedAt, []⟩

/-- `nextUsage`, with the sum it holds; the last twenty amounts are kept. -/
def nextUsage (input : RuntimeBudgetUsageUpdateInput) (observedAt : String)
    (existing : RuntimeBudgetUsage) (used : ℚ) : RuntimeBudgetUsage :=
  { existing with
    used := used
    updatedAt := observedAt
    recent := (⟨input.amount, input.source, truthy input.reason, observedAt⟩
      :: existing.recent).take 20 }

/-- The updater of `updateUsage`, with the clock it reads. -/
def usageUpdater (input : RuntimeBudgetUsageUpdateInput) (nowIso : String)
    (budget : RuntimeBudgetRecord) : Option RuntimeBudgetRecord :=
  let observedAt := input.observedAt.getD nowIso
  if !hasLimit budget input.dimension then none
  else
    let existing := usageOrZero budget observedAt input.dimension
    (addBudgetUsage existing.used input.amount).map fun used =>
      { budget with
        updatedAt := observedAt
        usage := budget.limits.map fun l =>
          if l.dimension = input.dimension then nextUsage input observedAt existing used
          else usageOrZero budget observedAt l.dimension }

/-- `parseOptionalBudgetUsageAmount`: `none` when it throws, `some none` for `null`. -/
def parseOptionalBudgetUsageAmount (amount : Option ℚ) : Option (Option ℚ) :=
  match amount with
  | none => some none
  | some a => (parseBudgetUsageAmount a).map fun parsed => if 0 < parsed then some parsed else none

/-- The loop of `planUsageUpdates`, with the usage planned so far. -/
def planFrom (budget : RuntimeBudgetRecord) (planned : RuntimeBudgetDimension → ℚ) :
    List (RuntimeBudgetDimension × Option ℚ) → Option (List (RuntimeBudgetDimension × ℚ))
  | [] => some []
  | (dimension, rawAmount) :: inputs =>
    match parseOptionalBudgetUsageAmount rawAmount with
    | none => none
    | some none => planFrom budget planned inputs
    | some (some amount) =>
      if !hasLimit budget dimension then planFrom budget planned inputs
      else
        (addBudgetUsage (planned dimension) amount).bind fun used =>
          (planFrom budget (Function.update planned dimension used) inputs).map
            fun updates => (dimension, amount) :: updates

/-- `planUsageUpdates`. -/
def planUsageUpdates (budget : RuntimeBudgetRecord)
    (inputs : List (RuntimeBudgetDimension × Option ℚ)) :
    Option (List (RuntimeBudgetDimension × ℚ)) :=
  planFrom budget (usedOf budget) inputs

/-! ## The calls -/

/-- A call: one update, or a list of amounts to plan and record. -/
inductive UsageRequest
  | updateUsage (input : RuntimeBudgetUsageUpdateInput)
  | record (source : UsageSource) (inputs : List (RuntimeBudgetDimension × Option ℚ))
      (observedAt reason : Option String)

/-- `recordTaskExecution`. -/
def recordTaskExecution (iterations tasks processMs wallClockMs : Option ℚ)
    (observedAt reason : Option String) : UsageRequest :=
  .record .taskExecution [(.iterations, iterations), (.tasks, tasks), (.processMs, processMs),
    (.wallClockMs, wallClockMs)] observedAt reason

/-- `recordArtifactGeneration`. -/
def recordArtifactGeneration (diskBytes artifacts : Option ℚ)
    (observedAt reason : Option String) : UsageRequest :=
  .record .artifactGeneration [(.diskBytes, diskBytes), (.artifacts, artifacts)] observedAt reason

/-- `recordToolUsage`. -/
def recordToolUsage (llmTokens toolCalls : Option ℚ)
    (observedAt reason : Option String) : UsageRequest :=
  .record .toolUsage [(.llmTokens, llmTokens), (.toolCalls, toolCalls)] observedAt reason

/-- `recordEvaluatorCall`. -/
def recordEvaluatorCall (attempts : Option ℚ) (observedAt reason : Option String) :
    UsageRequest :=
  .updateUsage ⟨.evaluatorAttempts, attempts.getD 1, .evaluatorCall, reason, observedAt⟩

/-- Where a call is. -/
inductive CallPhase
  /-- before the load of the plan -/
  | planning
  /-- before the load of the update at the call's index -/
  | loading
  /-- before the save: the record that was loaded, and the one computed from it -/
  | saving (loaded next : RuntimeBudgetRecord)
  | resolved
  | rejected

/-- A call with its list `updates` and the number of them it has recorded. -/
structure UsageCall where
  request : UsageRequest
  updates : List (RuntimeBudgetDimension × ℚ)
  recorded : Nat
  phase : CallPhase

/-- The record that a call about to save has loaded. -/
def UsageCall.snapshot (c : UsageCall) : Option RuntimeBudgetRecord :=
  match c.phase with
  | .saving loaded _ => some loaded
  | _ => none

def UsageCall.isResolved (c : UsageCall) : Bool :=
  match c.phase with
  | .resolved => true
  | _ => false

/-- The update of a planned pair. -/
def UsageRequest.input : UsageRequest → RuntimeBudgetDimension × ℚ → RuntimeBudgetUsageUpdateInput
  | .updateUsage input, _ => input
  | .record source _ observedAt reason, (dimension, amount) =>
    ⟨dimension, amount, source, reason, observedAt⟩

/-- The synchronous start of a call. -/
def UsageRequest.start : UsageRequest → UsageCall
  | .updateUsage input =>
    match parseBudgetUsageAmount input.amount with
    | none => ⟨.updateUsage input, [], 0, .rejected⟩
    | some amount => ⟨.updateUsage input, [(input.dimension, amount)], 0, .loading⟩
  | request => ⟨request, [], 0, .planning⟩

/-- The row of the budget and the calls, in the order they were made. -/
structure BudgetStore where
  row : Option RuntimeBudgetRecord
  calls : List UsageCall

/-- A step: a new call, the load of a call with the clock read after it, the save. -/
inductive BudgetStep
  | call (request : UsageRequest)
  | load (k : Nat) (nowIso : String)
  | save (k : Nat)

section Calls

variable (isDatetime : String → Bool)

/-- `load`. -/
def BudgetStore.load (s : BudgetStore) : Option RuntimeBudgetRecord :=
  s.row.bind (parseBudget isDatetime)

/-- What a call does when its load returns `budget`. -/
def UsageCall.loaded (c : UsageCall) (budget : Option RuntimeBudgetRecord) (nowIso : String) :
    UsageCall :=
  match budget with
  | none => { c with phase := .rejected }
  | some budget =>
    match c.phase, c.request with
    | .planning, .record _ inputs _ _ =>
      match planUsageUpdates budget inputs with
      | none => { c with phase := .rejected }
      | some [] => { c with phase := .resolved }
      | some updates => { c with updates := updates, phase := .loading }
    | .loading, request =>
      match c.updates[c.recorded]? with
      | none => { c with phase := .resolved }
      | some update =>
        match (usageUpdater (request.input update) nowIso budget).bind
            (RuntimeBudgetRecord.parse isDatetime) with
        | none => { c with phase := .rejected }
        | some next => { c with phase := .saving budget next }
    | _, _ => c

/-- The call after its save: the next update of the loop, or the end. -/
def UsageCall.saved (c : UsageCall) : UsageCall :=
  { c with
    recorded := c.recorded + 1
    phase := if c.recorded + 1 < c.updates.length then .loading else .resolved }

/-- One step; a step that is not due is disabled. -/
def budgetStep (s : BudgetStore) : BudgetStep → Option BudgetStore
  | .call request => some { s with calls := s.calls ++ [request.start] }
  | .load k nowIso =>
    s.calls[k]?.bind fun c =>
      match c.phase with
      | .planning | .loading =>
        some { s with calls := s.calls.set k (c.loaded isDatetime (s.load isDatetime) nowIso) }
      | _ => none
  | .save k =>
    s.calls[k]?.bind fun c =>
      match c.phase with
      | .saving _ next => some { row := some next, calls := s.calls.set k c.saved }
      | _ => none

/-- Any number of callers on one budget. -/
def budgetLTS : LTS BudgetStore BudgetStep := LTS.ofPartial (budgetStep isDatetime)

end Calls

end PulSeed.Budget
