import PulSeed.Lib.Greedy
import PulSeed.Lib.Text
import Mathlib.Algebra.Order.BigOperators.Group.List
import Mathlib.Algebra.Order.Floor.Ring
import Mathlib.Data.Rat.Floor
import Mathlib.Tactic.Linarith

/-!
# Context slots under a token budget

`filterSlotsByBudget` selects slots in the order of their priorities and keeps them in the
order in which they stand; `compressSlot` cuts the middle out of a slot. Neither keeps all
it promises:

- The selection passes over a slot that does not fit and goes on, so that a later and
  smaller one is kept. It also keeps a slot wherever it stands, once for each time it is
  listed. `filterSlotsByBudget_iff` says when the slots kept are those before the first
  that does not fit.
- The cut inserts a marker for which no room was left, so that a slot which is cut is always
  over the limit (`compressSlot_compressed_iff`).
-/

namespace PulSeed.Context

open Text

structure ContextSlot where
  priority : ℚ
  label : Text
  content : Text
  token_estimate : ℚ
  deriving DecidableEq, Repr

/-- `Math.ceil(text.length / 4)`. -/
def estimateTokens (text : Text) : ℤ := ⌈(text.length : ℚ) / 4⌉

/-! ## Compression -/

/-- `Math.floor`. -/
def floor : Number → Number
  | .finite q => .finite ⌊q⌋
  | n => n

/-- `text.slice(0, end)`. -/
def sliceTo (final : Number) (text : Text) : Text := text.take (sliceIndex text.length final)

def truncationMarker : Text := utf16 "\n...[truncated]...\n"

def maxCharsOf (maxTokens : Number) : Number := maxTokens.mul (.finite 4)

def headCharsOf (maxTokens : Number) : Number := floor ((maxCharsOf maxTokens).mul (.finite (3 / 5)))

def tailCharsOf (maxTokens : Number) : Number := (maxCharsOf maxTokens).sub (headCharsOf maxTokens)

/-- What `compressSlot` keeps of the start of a text. -/
def headOf (text : Text) (maxTokens : Number) : Text := sliceTo (headCharsOf maxTokens) text

/-- What `compressSlot` keeps of the end of a text. -/
def tailOf (text : Text) (maxTokens : Number) : Text :=
  sliceFrom ((Number.finite text.length).sub (tailCharsOf maxTokens)) text

def compressSlot (slot : ContextSlot) (maxTokens : Number) : ContextSlot :=
  if (Number.finite slot.content.length).le (maxCharsOf maxTokens) then
    { slot with token_estimate := estimateTokens slot.content }
  else
    let compressed :=
      headOf slot.content maxTokens ++ truncationMarker ++ tailOf slot.content maxTokens
    { slot with content := compressed, token_estimate := estimateTokens compressed }

/-- What a compressed slot is to be: within the limit by its own estimate, with the head and
the tail of the original. -/
structure Compressed (slot : ContextSlot) (maxTokens : Number) (result : ContextSlot) : Prop where
  fits : (Number.finite result.token_estimate).le maxTokens = true
  estimated : result.token_estimate = estimateTokens result.content
  head : headOf slot.content maxTokens <+: result.content
  tail : tailOf slot.content maxTokens <:+ result.content

/-! ## Selection -/

/-- The estimate of a slot: its own when it has one. -/
def slotEstimate (slot : ContextSlot) : ℚ :=
  if 0 < slot.token_estimate then slot.token_estimate else estimateTokens slot.content

section Filter

variable {α : Type} (slotAt : α → ContextSlot)

/-- The slots in the order of their priorities, the ones of equal priority as they stand. -/
def sortedByPriority (slots : List α) : List α :=
  slots.mergeSort fun a b => (slotAt a).priority ≤ (slotAt b).priority

/-- `accumulated <= budget`. -/
def withinBudget (budget : Number) (accumulated : ℚ) : Bool := (Number.finite accumulated).le budget

def keptSlots (slots : List α) (budget : Number) : List α :=
  takeFitting (fun a => slotEstimate (slotAt a)) (withinBudget budget) 0
    (sortedByPriority slotAt slots)

/-- `filterSlotsByBudget`; the slots are objects, which a list may hold more than once. -/
def filterSlotsByBudget [DecidableEq α] (slots : List α) (budget : Number) : List α :=
  slots.filter fun a => a ∈ keptSlots slotAt slots budget

/-- What the estimates of some slots sum to. -/
def totalEstimate (slots : List α) : ℚ := (slots.map fun a => slotEstimate (slotAt a)).sum

/-- What a filtered list is to be: the slots in their order, within the budget, and nothing
from the first slot on, in the order of the priorities, that exceeds it. -/
structure CutByPriority (slots : List α) (budget : Number) (result : List α) : Prop where
  sublist : result.Sublist slots
  fits : withinBudget budget (totalEstimate slotAt result) = true
  dropped : ∀ before slot rest, sortedByPriority slotAt slots = before ++ slot :: rest →
    withinBudget budget (totalEstimate slotAt before + slotEstimate (slotAt slot)) = false →
    ∀ a ∈ slot :: rest, a ∉ result

/-- The slots before the first one that exceeds the budget. -/
def slotsBefore (slots : List α) (budget : Number) : List α :=
  fittingStart (fun a => slotEstimate (slotAt a)) (withinBudget budget) 0
    (sortedByPriority slotAt slots)

/-- The first slot that exceeds the budget, and those behind it. -/
def slotsBeyond (slots : List α) (budget : Number) : List α :=
  refused (fun a => slotEstimate (slotAt a)) (withinBudget budget) 0
    (sortedByPriority slotAt slots)

/-- The budget is not negative, and none of the slots from the first that exceeds it on fits
in what the slots before it leave, nor is listed among those. -/
def NothingSmallerBehind (slots : List α) (budget : Number) : Prop :=
  (Number.finite 0).le budget = true ∧
    ∀ a ∈ slotsBeyond slotAt slots budget, a ∉ slotsBefore slotAt slots budget ∧
      withinBudget budget
        (totalEstimate slotAt (slotsBefore slotAt slots budget) + slotEstimate (slotAt a)) = false

/-! ### What is kept -/

theorem estimateTokens_nonneg (text : Text) : 0 ≤ estimateTokens text :=
  Int.ceil_nonneg (div_nonneg (Nat.cast_nonneg _) (by norm_num))

theorem slotEstimate_nonneg (slot : ContextSlot) : 0 ≤ slotEstimate slot := by
  unfold slotEstimate
  split
  · next h => exact h.le
  · exact_mod_cast estimateTokens_nonneg slot.content

theorem totalEstimate_nonneg (slots : List α) : 0 ≤ totalEstimate slotAt slots := by
  refine List.sum_nonneg fun x hx => ?_
  obtain ⟨a, -, rfl⟩ := List.mem_map.mp hx
  exact slotEstimate_nonneg _

theorem withinBudget_of_le {budget : Number} {x y : ℚ} (hxy : x ≤ y)
    (h : withinBudget budget y = true) : withinBudget budget x = true := by
  cases budget with
  | finite b =>
    rw [withinBudget, Number.le_finite, decide_eq_true_eq] at h ⊢
    exact hxy.trans h
  | posInf => rfl
  | negInf => exact nomatch h
  | nan => exact nomatch h

variable {slotAt} {slots : List α} {budget : Number}

variable (slotAt) in
theorem mem_sortedByPriority {a : α} : a ∈ sortedByPriority slotAt slots ↔ a ∈ slots :=
  List.mem_mergeSort

variable (slotAt slots budget) in
theorem slotsBefore_append_slotsBeyond :
    slotsBefore slotAt slots budget ++ slotsBeyond slotAt slots budget =
      sortedByPriority slotAt slots := fittingStart_append_refused _ _ _ _

theorem mem_slots_of_mem_beyond {a : α} (h : a ∈ slotsBeyond slotAt slots budget) : a ∈ slots := by
  rw [← mem_sortedByPriority slotAt, ← slotsBefore_append_slotsBeyond slotAt slots budget]
  exact List.mem_append_right _ h

/-- What is kept: the slots before the first that exceeds the budget, and a selection among
the others in what those leave. -/
theorem keptSlots_eq : keptSlots slotAt slots budget = slotsBefore slotAt slots budget ++
    takeFitting (fun a => slotEstimate (slotAt a)) (withinBudget budget)
      (totalEstimate slotAt (slotsBefore slotAt slots budget))
      (slotsBeyond slotAt slots budget) := by
  have h := takeFitting_eq (fun a => slotEstimate (slotAt a)) (withinBudget budget) 0
    (sortedByPriority slotAt slots)
  rw [zero_add] at h
  exact h

variable [DecidableEq α]

theorem mem_filterSlotsByBudget {a : α} :
    a ∈ filterSlotsByBudget slotAt slots budget ↔
      a ∈ slots ∧ a ∈ keptSlots slotAt slots budget := by
  rw [filterSlotsByBudget, List.mem_filter, decide_eq_true_eq]

/-- The filtered list sums to what the kept part of the sorted list does. -/
theorem totalEstimate_filterSlotsByBudget :
    totalEstimate slotAt (filterSlotsByBudget slotAt slots budget) =
      totalEstimate slotAt ((sortedByPriority slotAt slots).filter
        fun a => a ∈ keptSlots slotAt slots budget) :=
  (((List.mergeSort_perm slots _).symm.filter _).map _).sum_eq

section

variable (h : NothingSmallerBehind slotAt slots budget)

include h

omit [DecidableEq α] in
theorem keptSlots_of_nothing : keptSlots slotAt slots budget = slotsBefore slotAt slots budget := by
  have hnone := (takeFitting_eq_nil_iff _ _ _).mpr fun a ha => (h.2 a ha).2
  rw [keptSlots_eq, hnone, List.append_nil]

theorem filter_sorted_of_nothing :
    ((sortedByPriority slotAt slots).filter fun a => a ∈ keptSlots slotAt slots budget) =
      slotsBefore slotAt slots budget := by
  rw [keptSlots_of_nothing h, ← slotsBefore_append_slotsBeyond slotAt slots budget,
    List.filter_append]
  have hbefore : ((slotsBefore slotAt slots budget).filter
      fun a => a ∈ slotsBefore slotAt slots budget) = slotsBefore slotAt slots budget :=
    List.filter_eq_self.mpr fun a ha => decide_eq_true ha
  have hbeyond : ((slotsBeyond slotAt slots budget).filter
      fun a => a ∈ slotsBefore slotAt slots budget) = [] :=
    List.filter_eq_nil_iff.mpr fun a ha hmem => (h.2 a ha).1 (of_decide_eq_true hmem)
  rw [hbefore, hbeyond, List.append_nil]

theorem fits_of_nothing :
    withinBudget budget (totalEstimate slotAt (filterSlotsByBudget slotAt slots budget)) =
      true := by
  rw [totalEstimate_filterSlotsByBudget, filter_sorted_of_nothing h]
  have hfits := fits_fittingStart (fun a => slotEstimate (slotAt a)) (withinBudget budget) h.1
    (sortedByPriority slotAt slots)
  rw [zero_add] at hfits
  exact hfits

theorem dropped_of_nothing {before rest : List α} {slot : α}
    (hsorted : sortedByPriority slotAt slots = before ++ slot :: rest)
    (hexceeds : withinBudget budget
      (totalEstimate slotAt before + slotEstimate (slotAt slot)) = false) {a : α}
    (ha : a ∈ slot :: rest) : a ∉ filterSlotsByBudget slotAt slots budget := by
  have hbehind : a ∈ slotsBeyond slotAt slots budget := by
    rw [← zero_add (totalEstimate slotAt before)] at hexceeds
    obtain ⟨between, hbetween⟩ := refused_eq_append (fun a => slotEstimate (slotAt a))
      (withinBudget budget) 0 rest hexceeds
    rw [slotsBeyond, hsorted, hbetween]
    exact List.mem_append_right _ ha
  rw [mem_filterSlotsByBudget, keptSlots_of_nothing h]
  exact fun hmem => (h.2 a hbehind).1 hmem.2

end

/-- **When the selection is by priority**: nothing smaller stands behind the first slot that
exceeds the budget. -/
theorem filterSlotsByBudget_iff :
    CutByPriority slotAt slots budget (filterSlotsByBudget slotAt slots budget) ↔
      NothingSmallerBehind slotAt slots budget := by
  constructor
  · intro h
    refine ⟨withinBudget_of_le (totalEstimate_nonneg slotAt _) h.fits, fun a ha => ?_⟩
    -- nothing from the first refusal on is kept
    have hdropped : ∀ b ∈ slotsBeyond slotAt slots budget,
        b ∉ keptSlots slotAt slots budget := by
      intro b hb hkept
      obtain ⟨slot, rest, hbeyond⟩ := List.exists_cons_of_ne_nil (List.ne_nil_of_mem hb)
      have hsorted := slotsBefore_append_slotsBeyond slotAt slots budget
      have hexceeds := not_fits_of_refused hbeyond
      rw [zero_add] at hexceeds
      rw [hbeyond] at hsorted
      exact h.dropped _ slot rest hsorted.symm hexceeds b (hbeyond ▸ hb)
        (mem_filterSlotsByBudget.mpr ⟨mem_slots_of_mem_beyond hb, hkept⟩)
    rw [keptSlots_eq] at hdropped
    refine ⟨fun hmem => hdropped a ha (List.mem_append_left _ hmem), ?_⟩
    refine (takeFitting_eq_nil_iff (fun a => slotEstimate (slotAt a)) _ _).mp
      (List.eq_nil_iff_forall_not_mem.mpr fun b hb => ?_) a ha
    exact hdropped b ((takeFitting_sublist _ _ _ _).subset hb) (List.mem_append_right _ hb)
  · intro h
    exact ⟨List.filter_sublist, fits_of_nothing h,
      fun _ _ _ hsorted hexceeds _ => dropped_of_nothing h hsorted hexceeds⟩

end Filter

/-! ## What is cut -/

theorem sliceIndex_finite {length : ℕ} {q : ℚ} (hq : 0 ≤ q) (hle : q ≤ length) :
    (sliceIndex length (.finite q) : ℤ) = ⌊q⌋ := by
  have hfloor : 0 ≤ ⌊q⌋ := Int.floor_nonneg.mpr hq
  have hlength : ⌊q⌋ ≤ length := by exact_mod_cast (Int.floor_le q).trans hle
  have hindex : sliceIndex length (.finite q) = min ⌊q⌋.toNat length := by
    unfold sliceIndex
    dsimp only
    rw [if_pos hq]
    exact if_neg (not_lt.mpr hfloor)
  omega

theorem length_truncationMarker : truncationMarker.length = 19 := by decide +kernel

section Compress

variable {slot : ContextSlot} {maxTokens : Number} {m : ℚ}

theorem maxCharsOf_finite : maxCharsOf (.finite m) = .finite (m * 4) := rfl

theorem headCharsOf_finite : headCharsOf (.finite m) = .finite ⌊m * 4 * (3 / 5)⌋ := rfl

theorem tailCharsOf_finite : tailCharsOf (.finite m) = .finite (m * 4 - ⌊m * 4 * (3 / 5)⌋) := by
  rw [tailCharsOf, maxCharsOf_finite, headCharsOf_finite, Number.sub_finite]

/-- The two parts that are kept are no shorter than the room there was. -/
theorem le_length_kept {text : Text} (hm : 0 ≤ m) (hlong : m * 4 < text.length) :
    m * 4 ≤ ((headOf text (.finite m)).length + (tailOf text (.finite m)).length : ℕ) := by
  set head : ℤ := ⌊m * 4 * (3 / 5)⌋ with hhead
  have hhead0 : (0 : ℚ) ≤ head := by
    exact_mod_cast Int.floor_nonneg.mpr (show (0 : ℚ) ≤ m * 4 * (3 / 5) by positivity)
  have hheadle : (head : ℚ) ≤ m * 4 := (Int.floor_le _).trans (by linarith)
  have hheadlength : ((headOf text (.finite m)).length : ℤ) = head := by
    have hindex := sliceIndex_finite hhead0 (hheadle.trans hlong.le)
    rw [Int.floor_intCast] at hindex
    rw [headOf, sliceTo, headCharsOf_finite, List.length_take, ← hhead]
    have hle : head ≤ text.length := by exact_mod_cast hheadle.trans hlong.le
    omega
  have htaillength : m * 4 - head ≤ ((tailOf text (.finite m)).length : ℚ) := by
    -- the tail starts no later than the room left for it reaches back
    have hstart : (0 : ℚ) ≤ text.length - (m * 4 - head) := by linarith
    have hindex := sliceIndex_finite hstart (by linarith : _ ≤ (text.length : ℚ))
    have hfloor := Int.floor_le ((text.length : ℚ) - (m * 4 - head))
    rw [tailOf, sliceFrom, tailCharsOf_finite, Number.sub_finite, List.length_drop, ← hhead]
    have hcast : (sliceIndex text.length (.finite (text.length - (m * 4 - head))) : ℚ) ≤
        text.length - (m * 4 - head) := by
      rw [← hindex] at hfloor
      exact_mod_cast hfloor
    have hle : sliceIndex text.length (.finite (text.length - (m * 4 - head))) ≤ text.length := by
      have := hcast.trans (by linarith : _ ≤ (text.length : ℚ))
      exact_mod_cast this
    rw [Nat.cast_sub hle]
    linarith
  have hcast : ((headOf text (.finite m)).length : ℚ) = head := by exact_mod_cast hheadlength
  rw [Nat.cast_add, hcast]
  linarith

/-- A text is over every limit that its quarter exceeds. -/
theorem lt_estimateTokens {text : Text} (h : m * 4 < text.length) : m < estimateTokens text := by
  refine lt_of_lt_of_le ?_ (Int.le_ceil _)
  linarith

/-- **A slot that is cut is over the limit**: the marker has no room. -/
theorem lt_estimateTokens_cut {text : Text} (hm : 0 ≤ m) (hlong : m * 4 < text.length) :
    m < estimateTokens (headOf text (.finite m) ++ truncationMarker ++ tailOf text (.finite m)) := by
  have hkept := le_length_kept hm hlong
  refine lt_estimateTokens (lt_of_le_of_lt hkept ?_)
  rw [List.length_append, List.length_append, length_truncationMarker]
  exact_mod_cast (by omega)

theorem compressSlot_of_le (h : (Number.finite slot.content.length).le (maxCharsOf maxTokens) = true) :
    compressSlot slot maxTokens = { slot with token_estimate := estimateTokens slot.content } :=
  if_pos h

theorem compressed_of_le (h : (Number.finite slot.content.length).le (maxCharsOf maxTokens) = true) :
    Compressed slot maxTokens (compressSlot slot maxTokens) ↔
      (Number.finite (estimateTokens slot.content)).le maxTokens = true := by
  rw [compressSlot_of_le h]
  constructor
  · intro hcompressed
    exact hcompressed.fits
  · intro hfits
    exact ⟨hfits, rfl, List.take_prefix _ _, List.drop_suffix _ _⟩

/-- **When compression keeps the limit**: when there is nothing to compress. -/
theorem compressSlot_compressed_iff (hmax : (Number.finite 0).le maxTokens = true) :
    Compressed slot maxTokens (compressSlot slot maxTokens) ↔
      (Number.finite (estimateTokens slot.content)).le maxTokens = true := by
  cases maxTokens with
  | nan => exact nomatch hmax
  | negInf => exact nomatch hmax
  | posInf => exact compressed_of_le rfl
  | finite m =>
    rw [Number.le_finite, decide_eq_true_eq] at hmax
    by_cases hlong : m * 4 < slot.content.length
    · have hcut : (Number.finite slot.content.length).le (maxCharsOf (.finite m)) = false := by
        rw [maxCharsOf_finite, Number.le_finite, decide_eq_false_iff_not, not_le]
        exact hlong
      rw [Number.le_finite, decide_eq_true_eq]
      constructor
      · intro h
        have hfits := h.fits
        rw [compressSlot, if_neg (Bool.eq_false_iff.mp hcut), Number.le_finite,
          decide_eq_true_eq] at hfits
        exact absurd hfits (not_le.mpr (lt_estimateTokens_cut hmax hlong))
      · intro h
        exact absurd h (not_le.mpr (lt_estimateTokens hlong))
    · refine compressed_of_le ?_
      rw [maxCharsOf_finite, Number.le_finite, decide_eq_true_eq]
      exact not_lt.mp hlong

end Compress

/-! ## Both -/

/-- **When slots are cut by priority and to the limit.** -/
theorem slots_fit_iff {α : Type} [DecidableEq α] (slotAt : α → ContextSlot) (slots : List α)
    (budget : Number) (slot : ContextSlot) {maxTokens : Number}
    (hmax : (Number.finite 0).le maxTokens = true) :
    (CutByPriority slotAt slots budget (filterSlotsByBudget slotAt slots budget) ↔
      NothingSmallerBehind slotAt slots budget) ∧
    (Compressed slot maxTokens (compressSlot slot maxTokens) ↔
      (Number.finite (estimateTokens slot.content)).le maxTokens = true) :=
  ⟨filterSlotsByBudget_iff, compressSlot_compressed_iff hmax⟩

/-- A small slot behind one that does not fit, in a budget of a hundred. -/
def smallBehind (i : ℕ) : ContextSlot where
  priority := i + 1
  label := []
  content := []
  token_estimate := if i = 0 then 60 else if i = 1 then 50 else 30

def longSlot : ContextSlot where
  priority := 1
  label := []
  content := List.replicate 48 97
  token_estimate := 12

theorem slots_fit_iff_sample :
    (CutByPriority smallBehind [2, 1, 0] (.finite 110)
        (filterSlotsByBudget smallBehind [2, 1, 0] (.finite 110)) ↔
      NothingSmallerBehind smallBehind [2, 1, 0] (.finite 110)) ∧
    (Compressed longSlot (.finite 12) (compressSlot longSlot (.finite 12)) ↔
      (Number.finite (estimateTokens longSlot.content)).le (.finite 12) = true) :=
  slots_fit_iff smallBehind [2, 1, 0] (.finite 110) longSlot (by decide)

/-- The last slot is kept although the one before it exceeds the budget; and a slot of twelve
tokens is cut to fifteen for a limit of ten. -/
theorem small_slot_kept_behind :
    ¬ CutByPriority smallBehind [0, 1, 2] (.finite 100)
      (filterSlotsByBudget smallBehind [0, 1, 2] (.finite 100)) ∧
    ¬ Compressed longSlot (.finite 10) (compressSlot longSlot (.finite 10)) := by
  constructor
  · intro h
    have hsorted : sortedByPriority smallBehind [0, 1, 2] = [0, 1, 2] :=
      List.mergeSort_of_pairwise (by decide +kernel)
    have hkept : 2 ∈ keptSlots smallBehind [0, 1, 2] (.finite 100) := by
      rw [keptSlots, hsorted]
      decide +kernel
    exact h.dropped [0] 1 [2] hsorted (by decide +kernel) 2 (by decide)
      (mem_filterSlotsByBudget.mpr ⟨by decide, hkept⟩)
  · intro h
    exact absurd h.fits (by decide +kernel)

end PulSeed.Context
