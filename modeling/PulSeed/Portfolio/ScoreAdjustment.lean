import PulSeed.Portfolio.Rebalance
import PulSeed.Portfolio.ResourceBound

/-!
# Allocations by score (`adjustAllocations`)

Each strategy with a record is due its share of the scores, within the bounds of the
configuration; when these shares do not sum to about one, they are scaled, and raised to the
lower bound again. A strategy that is due about what it has keeps it.

`reports_adjustAllocations` says which allocations are reported. **The allocations fit the bounds
and sum to one exactly when the bounds leave room for the scaling**, and what the kept strategies
have makes up for what it leaves (`adjusted_fits_iff`).
-/

namespace PulSeed.PortfolioManager

open StrategyManager

variable (ctx : RebalanceContext)

/-! ## Reports -/

/-- The strategy with an id is the one found under it. -/
theorem find?_id {strategies : List Strategy} (hnodup : (strategies.map (·.id)).Nodup)
    {s : Strategy} (hs : s ∈ strategies) : strategies.find? (·.id == s.id) = some s :=
  ObjectMap.find?_key hnodup hs

/-- An adjustment of a strategy to an allocation is reported. -/
def Reports (adjustments : List AllocationAdjustment) (id : String) (allocation : ℚ) : Prop :=
  ∃ a ∈ adjustments, a.strategy_id = id ∧ a.new_allocation = allocation

theorem reports_append {l l' : List AllocationAdjustment} {id : String} {allocation : ℚ} :
    Reports (l ++ l') id allocation ↔ Reports l id allocation ∨ Reports l' id allocation := by
  unfold Reports
  simp only [List.mem_append, or_and_right, exists_or]

theorem adjustment_iff {s : Strategy} {new : ℚ} {reason id : String} {allocation : ℚ} :
    (∃ a, adjustment s new reason = some a ∧ a.strategy_id = id ∧ a.new_allocation = allocation) ↔
      s.id = id ∧ 1 / 1000 < |allocation - s.allocation| ∧ allocation = new := by
  unfold adjustment
  constructor
  · rintro ⟨a, ha, rfl, rfl⟩
    split at ha
    · next hdiffers =>
      cases ha
      exact ⟨rfl, hdiffers, rfl⟩
    · cases ha
  · rintro ⟨rfl, hdiffers, rfl⟩
    exact ⟨_, if_pos hdiffers, rfl, rfl⟩

/-! ## Shares by score -/

section Shares

variable (strategies : List Strategy) (records : List EffectivenessRecord)

/-- The positive part of the score that the records have for a strategy. -/
def scoreIn (s : Strategy) : ℚ :=
  max (((records.find? (·.strategy_id == s.id)).bind (·.effectiveness_score)).getD 0) 0

def hasRecord (s : Strategy) : Bool := records.any (·.strategy_id == s.id)

/-- The strategies with a record. -/
def recorded : List Strategy := strategies.filter (hasRecord records)

def totalScore : ℚ := ((recorded strategies records).map (scoreIn records)).sum

/-- The share of a strategy by score, within the bounds. -/
def boundedShare (s : Strategy) : ℚ :=
  max ctx.config.min_allocation (min ctx.config.max_allocation
    (scoreIn records s / totalScore strategies records))

def shareSum : ℚ :=
  ((recorded strategies records).map (boundedShare ctx strategies records)).sum

/-- The shares are far enough from the whole. -/
def Scales : Prop :=
  0 < shareSum ctx strategies records ∧ 1 / 1000 < |shareSum ctx strategies records - 1|

instance : Decidable (Scales ctx strategies records) :=
  inferInstanceAs (Decidable (_ ∧ _))

/-- The share of a strategy, scaled to the whole when that is far enough. -/
def fittedShare (s : Strategy) : ℚ :=
  if Scales ctx strategies records then
    max ctx.config.min_allocation
      (boundedShare ctx strategies records s * (1 / shareSum ctx strategies records))
  else boundedShare ctx strategies records s

/-- A strategy is due an allocation that differs enough from what it has. -/
def Moved (s : Strategy) : Prop :=
  hasRecord records s = true ∧
    1 / 1000 < |fittedShare ctx strategies records s - s.allocation|

instance : DecidablePred (Moved ctx strategies records) :=
  fun _ => inferInstanceAs (Decidable (_ ∧ _))

end Shares

/-- Records of strategies, one for each of some of them. -/
structure Records (strategies : List Strategy) (records : List EffectivenessRecord) : Prop where
  ids_nodup : (strategies.map (·.id)).Nodup
  records_nodup : (records.map (·.strategy_id)).Nodup
  found : ∀ r ∈ records, ∃ s ∈ strategies, s.id = r.strategy_id

section Reports

variable {strategies : List Strategy} {records : List EffectivenessRecord}

/-- The record of a strategy is found under its id. -/
theorem scoreIn_eq (hnodup : (records.map (·.strategy_id)).Nodup) {r : EffectivenessRecord}
    (hr : r ∈ records) {s : Strategy} (hid : s.id = r.strategy_id) :
    scoreIn records s = max (r.effectiveness_score.getD 0) 0 := by
  have hfind : records.find? (·.strategy_id == s.id) = some r := by
    rw [hid]
    exact ObjectMap.find?_key hnodup hr
  unfold scoreIn
  rw [hfind]
  rfl

/-- The records are those of the recorded strategies, in some order. -/
theorem Records.perm (h : Records strategies records) :
    (records.map fun r => (r.strategy_id, max (r.effectiveness_score.getD 0) 0)).Perm
      ((recorded strategies records).map fun s => (s.id, scoreIn records s)) := by
  refine (List.perm_ext_iff_of_nodup ?_ ?_).mpr fun e => ?_
  · refine List.Nodup.of_map Prod.fst ?_
    rw [List.map_map]
    exact h.records_nodup
  · refine List.Nodup.of_map Prod.fst ?_
    rw [List.map_map]
    exact h.ids_nodup.sublist (List.filter_sublist.map _)
  · rw [List.mem_map, List.mem_map]
    constructor
    · rintro ⟨r, hr, rfl⟩
      obtain ⟨s, hs, hid⟩ := h.found r hr
      refine ⟨s, List.mem_filter.mpr ⟨hs, ?_⟩, by rw [hid, scoreIn_eq h.records_nodup hr hid]⟩
      exact List.any_eq_true.mpr ⟨r, hr, beq_iff_eq.mpr hid.symm⟩
    · rintro ⟨s, hs, rfl⟩
      obtain ⟨r, hr, hid⟩ := List.any_eq_true.mp (List.mem_filter.mp hs).2
      have hid := (beq_iff_eq.mp hid).symm
      exact ⟨r, hr, by rw [hid, scoreIn_eq h.records_nodup hr hid]⟩

/-- The target of each record whose strategy is found is put in under its id. -/
theorem targetAllocations_entries (hnodup : (records.map (·.strategy_id)).Nodup)
    (hfound : ∀ r ∈ records, ∃ s, strategies.find? (·.id == r.strategy_id) = some s)
    (totalScore : ℚ) :
    (targetAllocations ctx strategies records totalScore).entries = records.map fun r =>
      (r.strategy_id, max ctx.config.min_allocation (min ctx.config.max_allocation
        (max (r.effectiveness_score.getD 0) 0 / totalScore))) := by
  have hfold : targetAllocations ctx strategies records totalScore =
      (records.map fun r => (r.strategy_id, max ctx.config.min_allocation
        (min ctx.config.max_allocation (max (r.effectiveness_score.getD 0) 0 / totalScore)))).foldl
        (fun m e => m.set e.1 e.2) ObjectMap.empty := by
    unfold targetAllocations
    rw [List.foldl_map]
    refine List.foldl_ext _ _ _ fun m r hr => ?_
    obtain ⟨s, hs⟩ := hfound r hr
    rw [hs]
    dsimp only
    rw [found_id hs]
  rw [hfold, ObjectMap.foldl_set_fresh _ _ _ fun _ _ => rfl]
  · rfl
  · rw [List.map_map]
    exact hnodup

theorem sortRecords_perm (records : List EffectivenessRecord) :
    (sortRecords records).Perm records := List.mergeSort_perm ..

theorem sorted_sum (h : Records strategies records) :
    ((sortRecords records).map fun r => max (r.effectiveness_score.getD 0) 0).sum =
      totalScore strategies records := by
  have hscores := (h.perm.map Prod.snd).sum_eq
  rw [List.map_map, List.map_map] at hscores
  rw [((sortRecords_perm records).map _).sum_eq]
  exact hscores

/-- The targets, in the order of the scores. -/
theorem targets_perm (h : Records strategies records) :
    (targetAllocations ctx strategies (sortRecords records)
      (totalScore strategies records)).entries.Perm
        ((recorded strategies records).map fun s =>
          (s.id, boundedShare ctx strategies records s)) := by
  have hsorted := sortRecords_perm records
  rw [targetAllocations_entries ctx ((hsorted.map _).nodup_iff.mpr h.records_nodup)]
  · refine (hsorted.map _).trans ?_
    have hbounded := h.perm.map fun e => (e.1, max ctx.config.min_allocation
      (min ctx.config.max_allocation (e.2 / totalScore strategies records)))
    rw [List.map_map, List.map_map] at hbounded
    exact hbounded
  · intro r hr
    obtain ⟨s, hs, hid⟩ := h.found r (hsorted.mem_iff.mp hr)
    exact ⟨s, hid ▸ find?_id h.ids_nodup hs⟩

/-- The new allocations are the fitted shares. -/
theorem newAllocations_perm (h : Records strategies records) :
    let targets := (targetAllocations ctx strategies (sortRecords records)
      (totalScore strategies records)).entries
    let rawSum := (targets.map Prod.snd).sum
    (if 0 < rawSum ∧ 1 / 1000 < |rawSum - 1| then
        targets.map fun e => (e.1, max ctx.config.min_allocation (e.2 * (1 / rawSum)))
      else targets).Perm
        ((recorded strategies records).map fun s =>
          (s.id, fittedShare ctx strategies records s)) := by
  intro targets rawSum
  have htargets : targets.Perm _ := targets_perm ctx h
  have hsum : rawSum = shareSum ctx strategies records := by
    refine (htargets.map Prod.snd).sum_eq.trans ?_
    rw [List.map_map]
    rfl
  rw [hsum]
  unfold fittedShare
  by_cases hscales : Scales ctx strategies records
  · simp only [if_pos hscales]
    rw [if_pos (show _ ∧ _ from hscales)]
    refine (htargets.map _).trans (List.Perm.of_eq ?_)
    rw [List.map_map]
    rfl
  · simp only [if_neg hscales]
    rw [if_neg (show ¬(_ ∧ _) from hscales)]
    exact htargets

/-- **The reported allocations** are the shares due to the strategies that are moved. -/
theorem reports_adjustAllocations (h : Records strategies records) {id : String} {allocation : ℚ} :
    Reports (adjustAllocations ctx strategies records) id allocation ↔
      0 < totalScore strategies records ∧ ∃ s ∈ strategies, s.id = id ∧
        Moved ctx strategies records s ∧ allocation = fittedShare ctx strategies records s := by
  unfold adjustAllocations
  dsimp only
  rw [sorted_sum h]
  by_cases htotal : totalScore strategies records ≤ 0
  · rw [if_pos htotal]
    exact iff_of_false nofun fun hreport => not_lt.mpr htotal hreport.1
  rw [if_neg htotal, and_iff_right (not_le.mp htotal)]
  have hnew := fun e : String × ℚ => (newAllocations_perm ctx h).mem_iff (a := e)
  constructor
  · rintro ⟨a, ha, hid, hallocation⟩
    obtain ⟨e, he, hadjustment⟩ := List.mem_filterMap.mp ha
    obtain ⟨s, hs, rfl⟩ := List.mem_map.mp ((hnew e).mp he)
    obtain ⟨hmem, hrecord⟩ := List.mem_filter.mp hs
    dsimp only at hadjustment
    rw [find?_id h.ids_nodup hmem, Option.bind_some] at hadjustment
    obtain ⟨hid, hdiffers, rfl⟩ := adjustment_iff.mp ⟨a, hadjustment, hid, hallocation⟩
    exact ⟨s, hmem, hid, ⟨hrecord, hdiffers⟩, rfl⟩
  · rintro ⟨s, hmem, hid, ⟨hrecord, hdiffers⟩, rfl⟩
    obtain ⟨a, hadjustment, ha⟩ := adjustment_iff.mpr ⟨hid, hdiffers, rfl⟩
    refine ⟨a, List.mem_filterMap.mpr ⟨_, (hnew _).mpr (List.mem_map.mpr
      ⟨s, List.mem_filter.mpr ⟨hmem, hrecord⟩, rfl⟩), ?_⟩, ha⟩
    dsimp only
    rw [find?_id h.ids_nodup hmem, Option.bind_some]
    exact hadjustment

/-- The allocation of a strategy when the reported updates have been made. -/
def allocationAfter (adjustments : List AllocationAdjustment) (s : Strategy) : ℚ :=
  ((adjustments.find? (·.strategy_id == s.id)).map (·.new_allocation)).getD s.allocation

theorem allocationAfter_eq (h : Records strategies records) {s : Strategy} (hs : s ∈ strategies) :
    allocationAfter (adjustAllocations ctx strategies records) s =
      if 0 < totalScore strategies records ∧ Moved ctx strategies records s then
        fittedShare ctx strategies records s
      else s.allocation := by
  have hreports (allocation : ℚ) :
      Reports (adjustAllocations ctx strategies records) s.id allocation ↔ _ :=
    reports_adjustAllocations ctx h
  unfold allocationAfter
  cases hfind : (adjustAllocations ctx strategies records).find? (·.strategy_id == s.id) with
  | none =>
    rw [if_neg]
    · rfl
    · rintro ⟨htotal, hmoved⟩
      obtain ⟨a, ha, hid, -⟩ := (hreports _).mpr ⟨htotal, s, hs, rfl, hmoved, rfl⟩
      exact List.find?_eq_none.mp hfind a ha (beq_iff_eq.mpr hid)
  | some a =>
    have hid : a.strategy_id = s.id := by simpa using List.find?_some hfind
    obtain ⟨htotal, t, ht, htid, hmoved, hallocation⟩ :=
      (hreports _).mp ⟨a, List.mem_of_find?_eq_some hfind, hid, rfl⟩
    obtain rfl := eq_of_id_eq h.ids_nodup ht hs htid
    rw [if_pos ⟨htotal, hmoved⟩]
    exact hallocation

end Reports

/-! ## Bounds and total -/

section Fits

variable (strategies : List Strategy) (records : List EffectivenessRecord)

/-- Allocations within the bounds of the configuration, that make up the whole. -/
structure Fits (allocation : Strategy → ℚ) : Prop where
  within : ∀ s ∈ strategies,
    ctx.config.min_allocation ≤ allocation s ∧ allocation s ≤ ctx.config.max_allocation
  whole : (strategies.map allocation).sum = 1

/-- What the shares sum to above one: by the lower bound after scaling, or without scaling. -/
def rest : ℚ :=
  if Scales ctx strategies records then
    ((recorded strategies records).map fun s => max (ctx.config.min_allocation -
      boundedShare ctx strategies records s * (1 / shareSum ctx strategies records)) 0).sum
  else shareSum ctx strategies records - 1

/-- No strategy scores, and the allocations fit as they are; or no share is scaled above the upper
bound, each kept allocation is within the bounds, and those make up for the rest. -/
def Balanced : Prop :=
  if 0 < totalScore strategies records then
    (∀ s ∈ strategies, if Moved ctx strategies records s then
        Scales ctx strategies records → boundedShare ctx strategies records s ≤
          ctx.config.max_allocation * shareSum ctx strategies records
      else ctx.config.min_allocation ≤ s.allocation ∧
        s.allocation ≤ ctx.config.max_allocation) ∧
      ((strategies.filter fun s => ¬Moved ctx strategies records s).map (·.allocation)).sum +
          rest ctx strategies records =
        ((strategies.filter fun s => hasRecord records s ∧ ¬Moved ctx strategies records s).map
          (fittedShare ctx strategies records)).sum
  else Fits ctx strategies (·.allocation)

variable {ctx strategies records}

theorem sum_fittedShare :
    ((recorded strategies records).map (fittedShare ctx strategies records)).sum =
      1 + rest ctx strategies records := by
  unfold fittedShare rest
  by_cases hscales : Scales ctx strategies records
  · simp only [if_pos hscales]
    have hshares : ∀ s ∈ recorded strategies records, max ctx.config.min_allocation
        (boundedShare ctx strategies records s * (1 / shareSum ctx strategies records)) =
          boundedShare ctx strategies records s * (1 / shareSum ctx strategies records) +
            max (ctx.config.min_allocation - boundedShare ctx strategies records s *
              (1 / shareSum ctx strategies records)) 0 := by
      intro s _
      rw [← max_add_add_left, add_sub_cancel, add_zero]
    rw [List.map_congr_left hshares, List.sum_map_add, List.sum_map_mul_right]
    exact congrArg (· + _) (mul_one_div_cancel hscales.1.ne')
  · simp only [if_neg hscales]
    exact (add_sub_cancel _ _).symm

theorem le_fittedShare (s : Strategy) :
    ctx.config.min_allocation ≤ fittedShare ctx strategies records s := by
  unfold fittedShare
  split
  · exact le_max_left _ _
  · exact le_max_left _ _

theorem fittedShare_le_iff (hbounds : ctx.config.min_allocation ≤ ctx.config.max_allocation)
    (s : Strategy) :
    fittedShare ctx strategies records s ≤ ctx.config.max_allocation ↔
      (Scales ctx strategies records → boundedShare ctx strategies records s ≤
        ctx.config.max_allocation * shareSum ctx strategies records) := by
  unfold fittedShare
  by_cases hscales : Scales ctx strategies records
  · rw [if_pos hscales, max_le_iff, and_iff_right hbounds, mul_one_div, div_le_iff₀ hscales.1,
      forall_prop_of_true hscales]
  · rw [if_neg hscales]
    exact iff_of_true (max_le hbounds (min_le_left _ _)) fun h => absurd h hscales

/-- The strategies that are moved have their shares, and the others what they had. -/
theorem sum_after : (strategies.map fun s =>
    if Moved ctx strategies records s then fittedShare ctx strategies records s
      else s.allocation).sum +
      ((strategies.filter fun s => hasRecord records s ∧ ¬Moved ctx strategies records s).map
        (fittedShare ctx strategies records)).sum =
    1 + rest ctx strategies records +
      ((strategies.filter fun s => ¬Moved ctx strategies records s).map (·.allocation)).sum := by
  rw [← sum_fittedShare, recorded, sum_map_filter, sum_map_filter, sum_map_filter,
    ← List.sum_map_add, ← List.sum_map_add]
  refine congrArg List.sum (List.map_congr_left fun s _ => ?_)
  by_cases hmoved : Moved ctx strategies records s
  · simp [hmoved, hmoved.1]
  · simp [hmoved, add_comm]

/-- **The allocations fit exactly when the bounds leave room for the scaling**, and what the kept
strategies have makes up for what it leaves. -/
theorem adjusted_fits_iff (h : Records strategies records)
    (hmin : ctx.config.min_allocation * strategies.length ≤ 1)
    (hmax : 1 ≤ ctx.config.max_allocation * strategies.length) :
    Fits ctx strategies (allocationAfter (adjustAllocations ctx strategies records)) ↔
      Balanced ctx strategies records := by
  have hafter : ∀ s ∈ strategies, allocationAfter (adjustAllocations ctx strategies records) s =
      _ := fun s hs => allocationAfter_eq ctx h hs
  have hbounds : ctx.config.min_allocation ≤ ctx.config.max_allocation := by
    have hpos : (0 : ℚ) < strategies.length := by
      rcases Nat.eq_zero_or_pos strategies.length with hzero | hpos
      · rw [hzero] at hmax
        norm_num at hmax
      · exact_mod_cast hpos
    exact le_of_mul_le_mul_right (hmin.trans hmax) hpos
  unfold Balanced
  by_cases htotal : 0 < totalScore strategies records
  · simp only [htotal, true_and] at hafter
    rw [if_pos htotal]
    refine ⟨fun hfits => ⟨fun s hs => ?_, ?_⟩, fun ⟨hwithin, hrest⟩ => ⟨fun s hs => ?_, ?_⟩⟩
    · have hs' := hfits.within s hs
      rw [hafter s hs] at hs'
      by_cases hmoved : Moved ctx strategies records s
      · rw [if_pos hmoved] at hs' ⊢
        exact (fittedShare_le_iff hbounds s).mp hs'.2
      · rwa [if_neg hmoved] at hs' ⊢
    · have hwhole := hfits.whole
      rw [List.map_congr_left hafter] at hwhole
      have hsum := @sum_after ctx strategies records
      linarith
    · have hs' := hwithin s hs
      rw [hafter s hs]
      by_cases hmoved : Moved ctx strategies records s
      · rw [if_pos hmoved] at hs' ⊢
        exact ⟨le_fittedShare s, (fittedShare_le_iff hbounds s).mpr hs'⟩
      · rwa [if_neg hmoved] at hs' ⊢
    · rw [List.map_congr_left hafter]
      have hsum := @sum_after ctx strategies records
      linarith
  · simp only [htotal, false_and, if_false] at hafter
    rw [if_neg htotal]
    refine ⟨fun hfits => ⟨fun s hs => hafter s hs ▸ hfits.within s hs, ?_⟩,
      fun hfits => ⟨fun s hs => (hafter s hs).symm ▸ hfits.within s hs, ?_⟩⟩
    · exact List.map_congr_left hafter ▸ hfits.whole
    · rw [List.map_congr_left hafter]
      exact hfits.whole

/-- A running strategy that has not been scored. -/
def sampleRunning (id : String) (allocation : ℚ) (h : 0 ≤ allocation ∧ allocation ≤ 1) :
    Strategy where
  id := id
  primary_dimension := "coverage"
  hypothesis := id
  state := .active
  allocation := allocation
  created_at := "1"
  parses := StrategyFields.issues_eq_nil.mpr ⟨h, by simp⟩

/-- A context with the default bounds. -/
def sampleBounds : RebalanceContext where
  config := {}
  measures := fun _ => ⟨[], [], 0, 0⟩
  loadCurrentGapForDimension := fun _ => none
  rebalanceHistory := []
  now := "2"

def sampleScored : List Strategy :=
  [sampleRunning "a" (1 / 2) (by norm_num), sampleRunning "b" (1 / 2) (by norm_num)]

def sampleScores (a b : ℚ) : List EffectivenessRecord :=
  [⟨"a", 0, 3, some a, "1"⟩, ⟨"b", 0, 3, some b, "1"⟩]

/-- Scores of three and two fit the bounds without scaling. -/
theorem adjusted_fits_iff_sample :
    Fits sampleBounds sampleScored
      (allocationAfter (adjustAllocations sampleBounds sampleScored (sampleScores 3 2))) := by
  refine (adjusted_fits_iff ⟨by decide, by decide, by decide⟩ (by decide +kernel)
    (by decide +kernel)).mpr ?_
  unfold Balanced
  rw [if_pos (by decide +kernel)]
  exact ⟨by decide +kernel, by decide +kernel⟩

/-- **The best of two strategies is raised above the upper bound**: both shares are cut to the
bounds, and scaled again. -/
theorem adjusted_above_maximum :
    ¬Fits sampleBounds sampleScored
      (allocationAfter (adjustAllocations sampleBounds sampleScored (sampleScores 1 0))) := by
  intro h
  have hmem : sampleRunning "a" (1 / 2) (by norm_num) ∈ sampleScored := List.mem_cons_self
  have habove := (h.within _ hmem).2
  rw [allocationAfter_eq sampleBounds ⟨by decide, by decide, by decide⟩ hmem] at habove
  exact absurd habove (by decide +kernel)

end Fits

end PulSeed.PortfolioManager
