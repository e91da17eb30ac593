import PulSeed.Lib.Number
import PulSeed.Lib.Waterfall
import Mathlib.Data.Rat.Cast.Order

/-!
# The token budget of a context

`trimToBudget` reduces the allocations of the categories from the lowest priority up. The
excess it distributes is one of *usage* (what the categories use, less the budget), and it
takes every token cut from an allocation for a token cut from usage. A category that uses
less than its allocation gives up tokens that nothing used, so the context that is left can
be over the budget: `trimToBudget_trimmed_iff` says exactly when it is not.
-/

namespace PulSeed.Context

/-- `Number.MAX_SAFE_INTEGER`. -/
def MAX_SAFE_BUDGET_COUNT : ℕ := 2 ^ 53 - 1

/-- `Number.isSafeInteger`. -/
def isSafeInteger : Number → Bool
  | .finite q => q.isInt && decide (|q| ≤ MAX_SAFE_BUDGET_COUNT)
  | _ => false

def normalizeBudgetCount (value : Number) : ℕ :=
  match value with
  | .finite q => if isSafeInteger value && decide (0 ≤ q) then q.num.toNat else 0
  | _ => 0

/-- The sum of two counts, at most the largest safe one. -/
def addBudgetCounts (left right : ℕ) : ℕ :=
  if left + right ≤ MAX_SAFE_BUDGET_COUNT then left + right else MAX_SAFE_BUDGET_COUNT

inductive Category where
  | goalDefinition
  | observations
  | knowledge
  | transferKnowledge
  /-- `meta`. -/
  | metadata
  deriving DecidableEq, Repr

/-- A value for each category. -/
structure BudgetAllocation (α : Type) where
  goalDefinition : α
  observations : α
  knowledge : α
  transferKnowledge : α
  /-- `meta`. -/
  metadata : α
  deriving DecidableEq, Repr

namespace BudgetAllocation

variable {α β : Type}

/-- `allocation[category]`. -/
def get (allocation : BudgetAllocation α) : Category → α
  | .goalDefinition => allocation.goalDefinition
  | .observations => allocation.observations
  | .knowledge => allocation.knowledge
  | .transferKnowledge => allocation.transferKnowledge
  | .metadata => allocation.metadata

/-- `allocation[category] = value`. -/
def set (allocation : BudgetAllocation α) (category : Category) (value : α) :
    BudgetAllocation α :=
  match category with
  | .goalDefinition => { allocation with goalDefinition := value }
  | .observations => { allocation with observations := value }
  | .knowledge => { allocation with knowledge := value }
  | .transferKnowledge => { allocation with transferKnowledge := value }
  | .metadata => { allocation with metadata := value }

def map (f : α → β) (allocation : BudgetAllocation α) : BudgetAllocation β where
  goalDefinition := f allocation.goalDefinition
  observations := f allocation.observations
  knowledge := f allocation.knowledge
  transferKnowledge := f allocation.transferKnowledge
  metadata := f allocation.metadata

/-- `Object.values`, in the order of the keys. -/
def values (allocation : BudgetAllocation α) : List α :=
  [allocation.goalDefinition, allocation.observations, allocation.knowledge,
    allocation.transferKnowledge, allocation.metadata]

theorem ext_get {allocation allocation' : BudgetAllocation α}
    (h : ∀ category, allocation.get category = allocation'.get category) :
    allocation = allocation' := by
  obtain ⟨goalDefinition, observations, knowledge, transferKnowledge, metadata⟩ := allocation
  congr
  · exact h .goalDefinition
  · exact h .observations
  · exact h .knowledge
  · exact h .transferKnowledge
  · exact h .metadata

@[simp] theorem get_map (f : α → β) (allocation : BudgetAllocation α) (category : Category) :
    (allocation.map f).get category = f (allocation.get category) := by
  cases category <;> rfl

@[simp] theorem get_set_self (allocation : BudgetAllocation α) (category : Category) (value : α) :
    (allocation.set category value).get category = value := by
  cases category <;> rfl

theorem get_set_of_ne (allocation : BudgetAllocation α) {category other : Category} (value : α)
    (hne : other ≠ category) :
    (allocation.set category value).get other = allocation.get other := by
  cases category <;> cases other <;> first | rfl | exact absurd rfl hne

end BudgetAllocation

def normalizeBudgetAllocation (allocation : BudgetAllocation Number) : BudgetAllocation ℕ :=
  allocation.map normalizeBudgetCount

/-- The categories from the lowest priority up. -/
def trimOrder : List Category :=
  [.metadata, .transferKnowledge, .goalDefinition, .knowledge, .observations]

/-- The loop over `trimOrder`; `totalUsed` is what is taken to be in use still. -/
def trimFrom (totalBudget : ℕ) : List Category → BudgetAllocation ℕ → ℕ → BudgetAllocation ℕ
  | [], result, _ => result
  | category :: rest, result, totalUsed =>
    if totalUsed ≤ totalBudget then result
    else
      let excess := totalUsed - totalBudget
      let reduction := min (result.get category) excess
      trimFrom totalBudget rest (result.set category (result.get category - reduction))
        (totalUsed - reduction)

def trimToBudget (allocation actualUsage : BudgetAllocation Number) (totalBudget : Number) :
    BudgetAllocation ℕ :=
  let normalizedActualUsage := normalizeBudgetAllocation actualUsage
  trimFrom (normalizeBudgetCount totalBudget) trimOrder (normalizeBudgetAllocation allocation)
    (normalizedActualUsage.values.foldl addBudgetCounts 0)

/-! ## What trimming is for -/

/-- The priority of a category: the higher, the later it is trimmed. -/
def Category.priority : Category → ℕ
  | .observations => 4
  | .knowledge => 3
  | .goalDefinition => 2
  | .transferKnowledge => 1
  | .metadata => 0

def categories : List Category :=
  [.goalDefinition, .observations, .knowledge, .transferKnowledge, .metadata]

/-- A sum over all categories. -/
def total (f : Category → ℕ) : ℕ := (categories.map f).sum

/-- What a trimmed allocation is to be: the usage it leaves fits, lower priorities go first,
and the excess is all that goes. -/
structure Trimmed (allocation usage : Category → ℕ) (totalBudget : ℕ)
    (result : Category → ℕ) : Prop where
  fits : total allocation ≤ totalBudget ∨ totalBudget < total usage →
    (total fun category => min (usage category) (result category)) ≤ totalBudget
  shrinks : ∀ category, result category ≤ allocation category
  byPriority : ∀ category lower, lower.priority < category.priority →
    result category < allocation category → result lower = 0
  noMore : (total fun category => allocation category - result category) ≤
    total usage - totalBudget

/-- The usage fits as it is; or the unused tokens among those that the excess covers, laid
over the allocations from the lowest priority up, are no more than the usage above the
allocations. -/
def TrimCovers (allocation usage : Category → ℕ) (totalBudget : ℕ) : Prop :=
  total usage ≤ totalBudget ∨
    (total fun category => min (allocation category - usage category)
      (cutOf allocation trimOrder (total usage - totalBudget) category)) ≤
    total fun category => usage category - allocation category

instance (allocation usage : Category → ℕ) (totalBudget : ℕ) :
    Decidable (TrimCovers allocation usage totalBudget) :=
  inferInstanceAs (Decidable (_ ∨ _))

/-! ## Counts -/

/-- A safe count is kept. -/
@[simp] theorem normalizeBudgetCount_natCast {n : ℕ} (hn : n ≤ MAX_SAFE_BUDGET_COUNT) :
    normalizeBudgetCount (.finite n) = n := by
  have hsafe : isSafeInteger (.finite n) = true := by simp [isSafeInteger, Rat.isInt, hn]
  have hnonneg : (0 : ℚ) ≤ n := Nat.cast_nonneg n
  simp [normalizeBudgetCount, hsafe, hnonneg]

theorem foldl_addBudgetCounts {counts : List ℕ} {start : ℕ}
    (h : start + counts.sum ≤ MAX_SAFE_BUDGET_COUNT) :
    counts.foldl addBudgetCounts start = start + counts.sum := by
  induction counts generalizing start with
  | nil => rfl
  | cons count counts ih =>
    rw [List.sum_cons] at h ⊢
    have hadd : addBudgetCounts start count = start + count := if_pos (by omega)
    rw [List.foldl_cons, hadd, ih (by omega)]
    omega

/-- The sum over all categories does not depend on their order. -/
theorem total_eq (f : Category → ℕ) : total f = (trimOrder.map f).sum := by
  simp only [total, categories, trimOrder, List.map_cons, List.map_nil, List.sum_cons,
    List.sum_nil]
  omega

theorem total_le_total {f g : Category → ℕ} (h : ∀ category, f category ≤ g category) :
    total f ≤ total g :=
  List.sum_le_sum fun category _ => h category

theorem le_total (f : Category → ℕ) (category : Category) : f category ≤ total f :=
  List.single_le_sum (fun _ _ => Nat.zero_le _) _
    (List.mem_map_of_mem (by cases category <;> decide))

theorem sum_values (allocation : BudgetAllocation ℕ) :
    allocation.values.sum = total allocation.get := rfl

theorem nodup_trimOrder : trimOrder.Nodup := by decide

theorem mem_trimOrder (category : Category) : category ∈ trimOrder := by
  cases category <;> decide

theorem trimOrder_pairwise :
    trimOrder.Pairwise fun lower category => lower.priority < category.priority := by decide

/-! ## The loop -/

/-- **The loop takes the excess in order**, from the categories that it still visits. -/
theorem trimFrom_get {order : List Category} (hnodup : order.Nodup) (totalBudget totalUsed : ℕ)
    (result : BudgetAllocation ℕ) (category : Category) :
    (trimFrom totalBudget order result totalUsed).get category =
      result.get category - cutOf result.get order (totalUsed - totalBudget) category := by
  induction order generalizing result totalUsed with
  | nil => rfl
  | cons first rest ih =>
    obtain ⟨hfirst, hnodup⟩ := List.nodup_cons.mp hnodup
    unfold trimFrom
    by_cases hfits : totalUsed ≤ totalBudget
    · rw [if_pos hfits, Nat.sub_eq_zero_of_le hfits, cutOf_zero, Nat.sub_zero]
    · rw [if_neg hfits]
      have hexcess : totalUsed - min (result.get first) (totalUsed - totalBudget) - totalBudget =
          totalUsed - totalBudget - result.get first := by omega
      rw [ih hnodup, hexcess]
      by_cases hcategory : category = first
      · subst hcategory
        rw [BudgetAllocation.get_set_self, cutOf_self, cutOf_of_not_mem hfirst, Nat.sub_zero]
      · rw [BudgetAllocation.get_set_of_ne _ _ hcategory, cutOf_of_ne hcategory]
        -- the rest of the loop does not read the allocation that was cut
        refine congrArg (result.get category - ·) (cutOf_congr (fun other hother => ?_) _ _)
        exact BudgetAllocation.get_set_of_ne _ _ (ne_of_mem_of_not_mem hother hfirst)

section Trim

variable (allocation usage : BudgetAllocation ℕ) {totalBudget : ℕ}

/-- Counts, as the numbers they are given as. -/
def BudgetAllocation.numbers (counts : BudgetAllocation ℕ) : BudgetAllocation Number :=
  counts.map fun count : ℕ => .finite count

theorem normalizeBudgetAllocation_numbers {counts : BudgetAllocation ℕ}
    (h : ∀ category, counts.get category ≤ MAX_SAFE_BUDGET_COUNT) :
    normalizeBudgetAllocation counts.numbers = counts := by
  refine BudgetAllocation.ext_get fun category => ?_
  unfold normalizeBudgetAllocation BudgetAllocation.numbers
  rw [BudgetAllocation.get_map, BudgetAllocation.get_map,
    normalizeBudgetCount_natCast (h category)]

variable {allocation usage}

/-- **Each category loses its share of the excess.** -/
theorem trimToBudget_get
    (hallocation : ∀ category, allocation.get category ≤ MAX_SAFE_BUDGET_COUNT)
    (husage : total usage.get ≤ MAX_SAFE_BUDGET_COUNT)
    (hbudget : totalBudget ≤ MAX_SAFE_BUDGET_COUNT) (category : Category) :
    (trimToBudget allocation.numbers usage.numbers (.finite totalBudget)).get category =
      allocation.get category -
        cutOf allocation.get trimOrder (total usage.get - totalBudget) category := by
  have hused : usage.values.foldl addBudgetCounts 0 = total usage.get := by
    rw [foldl_addBudgetCounts, sum_values, Nat.zero_add]
    rwa [sum_values, Nat.zero_add]
  unfold trimToBudget
  rw [normalizeBudgetAllocation_numbers hallocation,
    normalizeBudgetAllocation_numbers fun c => (le_total usage.get c).trans husage,
    normalizeBudgetCount_natCast hbudget]
  dsimp only
  rw [hused, trimFrom_get nodup_trimOrder]

/-- The allocations that are left, when each category gives its share. -/
def remaining (allocation usage : Category → ℕ) (totalBudget : ℕ) (category : Category) : ℕ :=
  allocation category - cutOf allocation trimOrder (total usage - totalBudget) category

section Remaining

variable (allocation usage : Category → ℕ) (totalBudget : ℕ)

theorem remaining_le (category : Category) :
    remaining allocation usage totalBudget category ≤ allocation category := Nat.sub_le _ _

theorem sub_remaining (category : Category) :
    allocation category - remaining allocation usage totalBudget category =
      cutOf allocation trimOrder (total usage - totalBudget) category :=
  Nat.sub_sub_self (cutOf_le _ _ _)

theorem remaining_byPriority {category lower : Category} (h : lower.priority < category.priority)
    (hcut : remaining allocation usage totalBudget category < allocation category) :
    remaining allocation usage totalBudget lower = 0 := by
  have hpos : 0 < cutOf allocation trimOrder (total usage - totalBudget) category := by
    rw [← sub_remaining]
    exact Nat.sub_pos_of_lt hcut
  unfold remaining
  rw [cutOf_eq_of_rank_lt trimOrder_pairwise (mem_trimOrder lower) h hpos, Nat.sub_self]

theorem total_cut_le :
    (total fun category => allocation category - remaining allocation usage totalBudget category) ≤
      total usage - totalBudget := by
  simp only [sub_remaining]
  rw [total_eq, sum_cutOf allocation nodup_trimOrder]
  exact min_le_right _ _

/-- The usage that is left fits exactly when the excess was one of usage throughout. -/
theorem fits_iff (hover : totalBudget < total usage) :
    (total fun category => min (usage category)
        (remaining allocation usage totalBudget category)) ≤ totalBudget ↔
      (total fun category => min (allocation category - usage category)
        (cutOf allocation trimOrder (total usage - totalBudget) category)) ≤
      total fun category => usage category - allocation category := by
  have hexcess : (trimOrder.map usage).sum = totalBudget + (total usage - totalBudget) := by
    rw [← total_eq]
    omega
  have hiff := sum_limited_le_iff allocation usage nodup_trimOrder hexcess
  rw [← total_eq, ← total_eq, ← total_eq] at hiff
  exact hiff

theorem remaining_trimmed_iff :
    Trimmed allocation usage totalBudget (remaining allocation usage totalBudget) ↔
      TrimCovers allocation usage totalBudget := by
  constructor
  · intro h
    by_cases hfits : total usage ≤ totalBudget
    · exact .inl hfits
    · have hover := not_le.mp hfits
      exact .inr ((fits_iff allocation usage totalBudget hover).mp (h.fits (.inr hover)))
  · intro h
    refine ⟨fun _ => ?_, remaining_le allocation usage totalBudget,
      fun _ _ => remaining_byPriority allocation usage totalBudget,
      total_cut_le allocation usage totalBudget⟩
    by_cases hfits : total usage ≤ totalBudget
    · exact (total_le_total fun _ => min_le_left _ _).trans hfits
    · have hcovers := h.resolve_left hfits
      exact (fits_iff allocation usage totalBudget (not_le.mp hfits)).mpr hcovers

end Remaining

/-- **When trimming makes the context fit.** -/
theorem trimToBudget_trimmed_iff
    (hallocation : ∀ category, allocation.get category ≤ MAX_SAFE_BUDGET_COUNT)
    (husage : total usage.get ≤ MAX_SAFE_BUDGET_COUNT)
    (hbudget : totalBudget ≤ MAX_SAFE_BUDGET_COUNT) :
    Trimmed allocation.get usage.get totalBudget
        (trimToBudget allocation.numbers usage.numbers (.finite totalBudget)).get ↔
      TrimCovers allocation.get usage.get totalBudget := by
  have hresult : (trimToBudget allocation.numbers usage.numbers (.finite totalBudget)).get =
      remaining allocation.get usage.get totalBudget :=
    funext (trimToBudget_get hallocation husage hbudget)
  rw [hresult]
  exact remaining_trimmed_iff allocation.get usage.get totalBudget

/-- A usage that is over in the lowest category. -/
def overInMetadata : BudgetAllocation ℕ :=
  { goalDefinition := 20, observations := 30, knowledge := 30, transferKnowledge := 15,
    metadata := 15 }

def fullAllocation : BudgetAllocation ℕ :=
  { goalDefinition := 20, observations := 30, knowledge := 30, transferKnowledge := 15,
    metadata := 5 }

theorem trimToBudget_trimmed_iff_sample :
    Trimmed fullAllocation.get overInMetadata.get 100
        (trimToBudget fullAllocation.numbers overInMetadata.numbers (.finite (100 : ℕ))).get ↔
      TrimCovers fullAllocation.get overInMetadata.get 100 :=
  trimToBudget_trimmed_iff (by intro category; cases category <;> decide) (by decide) (by decide)

/-- Ten observations and nothing else are in use, and the budget is five: what is cut is an
allocation that nothing used. -/
def unusedMetadata : BudgetAllocation ℕ :=
  { goalDefinition := 0, observations := 10, knowledge := 0, transferKnowledge := 0, metadata := 5 }

def onlyObservations : BudgetAllocation ℕ :=
  { goalDefinition := 0, observations := 10, knowledge := 0, transferKnowledge := 0, metadata := 0 }

theorem unused_allocation_trimmed :
    ¬ Trimmed unusedMetadata.get onlyObservations.get 5
      (trimToBudget unusedMetadata.numbers onlyObservations.numbers (.finite (5 : ℕ))).get := by
  intro h
  have hfits := h.fits (.inr (by decide))
  revert hfits
  decide +kernel

end Trim

end PulSeed.Context
