import PulSeed.Lib.Updates
import PulSeed.Portfolio.ScoreAdjustment

/-!
# What a rebalance leaves in the stored portfolio

A rebalance reports the allocations that it gives anew, and has started one update of the
stored portfolio for each. The updates overlap: each saves the whole portfolio it has
loaded, with its own allocation put in, so any of them may be the only one that is kept.

`Moves` says which strategies are given which allocations, from the portfolio, the scores
and the configuration. The reported adjustments are the moves (`reports_iff`), and they are
stored when all updates have finished, in every order of their loads and saves, exactly
when all moves are one and the same, to an allocation that the schema accepts
(`reported_allocations_persist_iff`).
-/

namespace PulSeed.PortfolioManager

open StrategyManager Updates

variable (ctx : RebalanceContext)

/-! ## The moves -/

/-- The score of a strategy, when it has consumed enough sessions. -/
def score (s : Strategy) : Option ℚ := (effectivenessRecord ctx s).effectiveness_score

/-- The running strategy meets a condition for its termination. -/
def Terminates (p : Portfolio) (s : Strategy) : Prop :=
  checkStrategyTermination ctx s (calculateEffectiveness ctx p.strategies) = true

instance (p : Portfolio) : DecidablePred (Terminates ctx p) := fun s =>
  inferInstanceAs (Decidable (checkStrategyTermination ctx s _ = true))

/-- The running strategies that go on. -/
def remaining (p : Portfolio) : List Strategy :=
  (runningStrategies p.strategies).filter fun s => ¬ Terminates ctx p s

/-- The allocation of those that do not. -/
def freed (p : Portfolio) : ℚ :=
  totalAllocation ((runningStrategies p.strategies).filter fun s => Terminates ctx p s)

/-- The positive part of a score, none counting as zero. -/
def merit (s : Strategy) : ℚ := max ((score ctx s).getD 0) 0

/-- The allocation of a strategy with its share of what was freed. -/
def enlargedAllocation (p : Portfolio) (s : Strategy) : ℚ :=
  let totalScore := ((remaining ctx p).map (merit ctx)).sum
  min ctx.config.max_allocation (s.allocation + freed ctx p *
    if 0 < totalScore then merit ctx s / totalScore else 1 / (remaining ctx p).length)

/-- The running strategies that go on and have a score. -/
def scored (p : Portfolio) : List Strategy :=
  (remaining ctx p).filter fun s => (score ctx s).isSome

/-- Their records. -/
def scoredRecords (p : Portfolio) : List EffectivenessRecord :=
  (scored ctx p).map (effectivenessRecord ctx)

/-- The share of a strategy by score, within the bounds of the configuration. -/
def targetAllocation (p : Portfolio) (s : Strategy) : ℚ :=
  max ctx.config.min_allocation (min ctx.config.max_allocation
    (merit ctx s / ((scored ctx p).map (merit ctx)).sum))

/-- The sum of these shares. -/
def rawSum (p : Portfolio) : ℚ := ((scored ctx p).map (targetAllocation ctx p)).sum

/-- The share, scaled so that all of them fill the whole. -/
def balancedAllocation (p : Portfolio) (s : Strategy) : ℚ :=
  if 0 < rawSum ctx p ∧ 1 / 1000 < |rawSum ctx p - 1| then
    max ctx.config.min_allocation (targetAllocation ctx p s * (1 / rawSum ctx p))
  else targetAllocation ctx p s

/-- **The rebalance gives a strategy an allocation anew**: a strategy that goes on, its
allocation enlarged by what was freed or its share by score, when that differs from what
it has. -/
def Moves (p : Portfolio) (id : String) (allocation : ℚ) : Prop :=
  ∃ s ∈ remaining ctx p, s.id = id ∧ 1 / 1000 < |allocation - s.allocation| ∧
    (0 < freed ctx p ∧ allocation = enlargedAllocation ctx p s ∨
      scoresDiverge ctx (scoredRecords ctx p) = true ∧
        (score ctx s).isSome = true ∧ allocation = balancedAllocation ctx p s)

/-- **All moves are one and the same**, to an allocation that the schema accepts. -/
def AtMostOneMove (p : Portfolio) : Prop :=
  ∀ id allocation, Moves ctx p id allocation →
    (0 ≤ allocation ∧ allocation ≤ 1) ∧
      ∀ id' allocation', Moves ctx p id' allocation' → id' = id ∧ allocation' = allocation

/-! ## Allocations of a portfolio -/

/-- The ids of the strategies, with their allocations. -/
def allocations (strategies : List Strategy) : List (String × ℚ) :=
  strategies.map fun s => (s.id, s.allocation)

theorem allocationOf_eq (p : Portfolio) (id : String) :
    allocationOf p id = ((allocations p.strategies).find? (·.1 == id)).map Prod.snd := by
  unfold allocationOf allocations
  rw [List.find?_map, Option.map_map]
  rfl

theorem allocationOf_mem {p : Portfolio} {s : Strategy} (hs : s ∈ p.strategies) :
    allocationOf p s.id = some s.allocation := by
  unfold allocationOf
  rw [find?_id p.ids_nodup hs]
  rfl

/-- What is stored has passed the schema. -/
theorem allocationOf_unit {p : Portfolio} {id : String} {allocation : ℚ}
    (h : allocationOf p id = some allocation) : 0 ≤ allocation ∧ allocation ≤ 1 := by
  obtain ⟨s, -, rfl⟩ := Option.map_eq_some_iff.mp h
  exact ⟨allocation_nonneg s, allocation_le_one s⟩

theorem withAllocation_allocations {strategies updated : List Strategy} {id : String}
    {allocation : ℚ} (h : withAllocation strategies id allocation = .ok updated) :
    allocations updated =
      (allocations strategies).map fun e => if e.1 = id then (e.1, allocation) else e := by
  unfold allocations
  rw [List.map_map]
  refine map_eq_of_forall₂ (mapM_ok_iff.mp h) fun s _ s' hs => ?_
  dsimp only [Function.comp_apply]
  split at hs
  · next hid =>
    rw [parseStrategy_ok hs, if_pos hid]
  · next hid =>
    cases hs
    rw [if_neg hid]

/-- **An update puts in its allocation** and leaves the others. -/
theorem updateStrategyAllocation_ok {p p' : Portfolio} {id : String} {allocation : ℚ}
    (h : updateStrategyAllocation p id allocation = .ok p') (id' : String) :
    allocationOf p' id' =
      if id' = id then (allocationOf p id).map (fun _ => allocation) else allocationOf p id' := by
  unfold updateStrategyAllocation at h
  split at h
  · next updated hupdated =>
    cases h
    rw [allocationOf_eq, withAllocation_allocations hupdated, allocationOf_eq, List.find?_map,
      Option.map_map]
    have hsame : ((fun e : String × ℚ => e.1 == id') ∘
        fun e => if e.1 = id then (e.1, allocation) else e) = fun e => e.1 == id' := by
      funext e
      dsimp only [Function.comp_apply]
      split <;> rfl
    rw [hsame]
    by_cases hid : id' = id
    · subst hid
      rw [if_pos rfl, Option.map_map]
      refine Option.map_congr fun e he => ?_
      have hkey : e.1 = id' := by simpa using List.find?_some he
      simp [hkey]
    · rw [if_neg hid, allocationOf_eq]
      refine Option.map_congr fun e he => ?_
      have hkey : e.1 = id' := by simpa using List.find?_some he
      simp [hkey, hid]
  · cases h

/-- An update to an allocation that the schema accepts does not throw. -/
theorem updateStrategyAllocation_succeeds (p : Portfolio) (id : String) {allocation : ℚ}
    (hunit : 0 ≤ allocation ∧ allocation ≤ 1) :
    ∃ p', updateStrategyAllocation p id allocation = .ok p' := by
  unfold updateStrategyAllocation
  split
  · exact ⟨_, rfl⟩
  · next e herr =>
    obtain ⟨s, -, herr⟩ := mapM_error herr
    split at herr
    · obtain ⟨s', hs'⟩ := @parseStrategy_succeeds { s.toStrategyFields with allocation } s hunit rfl
      rw [hs'] at herr
      cases herr
    · cases herr

/-! ## Terminations -/

/-- An update to a state that may follow does not throw, and replaces the one strategy. -/
theorem updateState_succeeds {strategies : List Strategy} {id : String} {s : Strategy}
    (hfind : strategies.find? (·.id == id) = some s) {newState : StrategyState}
    (hvalid : newState ∈ VALID_TRANSITIONS s.state) (now : String) :
    ∃ updated, updateState strategies id newState none now =
      .ok (replaceStrategy strategies updated, updated) := by
  obtain ⟨updated, hparse⟩ : ∃ updated, parseStrategy { s.toStrategyFields with
      state := newState
      completed_at := if newState = .completed ∨ newState = .terminated then some now
        else s.completed_at
      effectiveness_score := (none : Option ℚ).or s.effectiveness_score } = .ok updated :=
    parseStrategy_succeeds s ⟨allocation_nonneg s, allocation_le_one s⟩ rfl
  refine ⟨updated, ?_⟩
  unfold updateState
  rw [hfind]
  dsimp only
  rw [if_pos hvalid]
  exact bind_ok_iff.mpr ⟨updated, hparse, rfl⟩

/-- A call that returns, performed. -/
theorem perform_ok {p : Portfolio} {call : Call} {updated answer : List Strategy}
    (h : call.run p.goal_id p.strategies = .ok (updated, answer)) :
    ∃ p', perform p call = (p', .ok answer) ∧ p'.strategies = updated := by
  unfold perform
  split
  · next updated' answer' hrun =>
    rw [h] at hrun
    cases hrun
    exact ⟨_, rfl, rfl⟩
  · next e hrun =>
    rw [h] at hrun
    cases hrun

theorem replaceStrategy_allocations {strategies : List Strategy}
    (hnodup : (strategies.map (·.id)).Nodup) {s updated : Strategy} (hs : s ∈ strategies)
    (hid : updated.id = s.id) (hallocation : updated.allocation = s.allocation) :
    allocations (replaceStrategy strategies updated) = allocations strategies := by
  unfold allocations replaceStrategy
  rw [List.map_map]
  refine List.map_congr_left fun t ht => ?_
  dsimp only [Function.comp_apply]
  split
  · next heq =>
    obtain rfl := eq_of_id_eq hnodup ht hs (heq.trans hid)
    rw [hid, hallocation]
  · rfl

/-- A strategy that is running can be terminated; the others stay as they are. -/
theorem terminate_running {p : Portfolio} {s : Strategy} (hs : s ∈ p.strategies)
    (hrunning : s.state.running = true) (now : String) :
    ∃ p' answer, perform p (.updateState s.id .terminated none now) = (p', .ok answer) ∧
      allocations p'.strategies = allocations p.strategies ∧
      ∀ t ∈ p.strategies, t.id ≠ s.id → t ∈ p'.strategies := by
  have hvalid : StrategyState.terminated ∈ VALID_TRANSITIONS s.state := by
    cases hstate : s.state <;> simp_all [StrategyState.running, VALID_TRANSITIONS]
  have hfind := find?_id p.ids_nodup hs
  obtain ⟨updated, hupdate⟩ := updateState_succeeds hfind hvalid now
  have hrun : Call.run p.goal_id p.strategies (.updateState s.id .terminated none now) =
      .ok (replaceStrategy p.strategies updated, [updated]) := map_ok_iff.mpr ⟨_, hupdate, rfl⟩
  obtain ⟨p', hperform, hp'⟩ := perform_ok hrun
  obtain ⟨s', hfind', -, hid, -, hallocation, -⟩ := updateState_ok hupdate
  rw [hfind] at hfind'
  cases hfind'
  refine ⟨p', _, hperform, ?_, fun t ht hne => ?_⟩
  · rw [hp']
    exact replaceStrategy_allocations p.ids_nodup hs hid hallocation
  · rw [hp']
    exact List.mem_map.mpr ⟨t, ht, if_neg (hid ▸ hne)⟩

/-- **The terminations do not throw**: they terminate the running strategies that meet a
condition for it, and change no allocation. -/
theorem terminateStrategies_ok (records : List EffectivenessRecord) {l : List Strategy}
    (hnodup : (l.map (·.id)).Nodup) (p : Portfolio)
    (hl : ∀ s ∈ l, s ∈ p.strategies ∧ s.state.running = true) :
    ∃ p', terminateStrategies ctx records p l =
        .ok (p', (l.filter fun s => checkStrategyTermination ctx s records).map (·.id)) ∧
      allocations p'.strategies = allocations p.strategies := by
  induction l generalizing p with
  | nil => exact ⟨p, rfl, rfl⟩
  | cons s l ih =>
    rw [List.map_cons, List.nodup_cons] at hnodup
    unfold terminateStrategies
    by_cases hcheck : checkStrategyTermination ctx s records = true
    · obtain ⟨hs, hrunning⟩ := hl s (List.mem_cons_self ..)
      obtain ⟨p₁, answer, hperform, hallocations, hothers⟩ := terminate_running hs hrunning ctx.now
      obtain ⟨p', hrest, hsame⟩ := ih hnodup.2 p₁ fun t ht =>
        ⟨hothers t (hl t (List.mem_cons_of_mem _ ht)).1 fun heq =>
          hnodup.1 (heq ▸ List.mem_map_of_mem ht), (hl t (List.mem_cons_of_mem _ ht)).2⟩
      refine ⟨p', ?_, hsame.trans hallocations⟩
      rw [if_pos hcheck, hperform]
      dsimp only
      rw [hrest, List.filter_cons, if_pos hcheck]
      rfl
    · obtain ⟨p', hrest, hsame⟩ := ih hnodup.2 p fun t ht => hl t (List.mem_cons_of_mem _ ht)
      refine ⟨p', ?_, hsame⟩
      rw [if_neg hcheck, hrest, List.filter_cons, if_neg hcheck]

/-! ## Adjustments -/

theorem running_nodup (p : Portfolio) :
    ((runningStrategies p.strategies).map (·.id)).Nodup :=
  p.ids_nodup.sublist (List.filter_sublist.map _)

theorem remaining_nodup (p : Portfolio) : ((remaining ctx p).map (·.id)).Nodup :=
  (running_nodup p).sublist (List.filter_sublist.map _)

theorem mem_running_of_remaining {p : Portfolio} {s : Strategy} (h : s ∈ remaining ctx p) :
    s ∈ runningStrategies p.strategies := (List.mem_filter.mp h).1

/-- The record of a running strategy is found under its id. -/
theorem find?_record {p : Portfolio} {s : Strategy} (hs : s ∈ runningStrategies p.strategies) :
    (calculateEffectiveness ctx p.strategies).find? (·.strategy_id == s.id) =
      some (effectivenessRecord ctx s) := by
  unfold calculateEffectiveness
  rw [List.find?_map]
  exact congrArg (Option.map _) (find?_id (running_nodup p) hs)

/-- The ids of the terminated strategies. -/
def terminatedIds (p : Portfolio) : List String :=
  ((runningStrategies p.strategies).filter fun s => Terminates ctx p s).map (·.id)

theorem mem_terminatedIds {p : Portfolio} {s : Strategy}
    (hs : s ∈ runningStrategies p.strategies) :
    s.id ∈ terminatedIds ctx p ↔ Terminates ctx p s := by
  unfold terminatedIds
  constructor
  · intro h
    obtain ⟨t, ht, hid⟩ := List.mem_map.mp h
    obtain ⟨htmem, hterminates⟩ := List.mem_filter.mp ht
    obtain rfl := eq_of_id_eq (running_nodup p) htmem hs hid
    exact of_decide_eq_true hterminates
  · exact fun h => List.mem_map_of_mem (List.mem_filter.mpr ⟨hs, decide_eq_true h⟩)

theorem filter_not_terminated (p : Portfolio) :
    (runningStrategies p.strategies).filter (fun s => s.id ∉ terminatedIds ctx p) =
      remaining ctx p :=
  List.filter_congr fun _ hs => decide_eq_decide.mpr (not_congr (mem_terminatedIds ctx hs))

theorem sum_freed (p : Portfolio) :
    ((terminatedIds ctx p).map fun id =>
      (((runningStrategies p.strategies).find? (·.id == id)).map (·.allocation)).getD 0).sum =
      freed ctx p := by
  unfold freed totalAllocation terminatedIds
  rw [List.map_map]
  refine congrArg List.sum (List.map_congr_left fun s hs => ?_)
  dsimp only [Function.comp_apply]
  rw [find?_id (running_nodup p) (List.mem_filter.mp hs).1]
  rfl

/-- **What was freed** enlarges the allocations of the strategies that go on. -/
theorem reports_redistribute {p : Portfolio} {id : String} {allocation : ℚ} :
    Reports (redistributeAllocation ctx (remaining ctx p)
      (calculateEffectiveness ctx p.strategies) (freed ctx p)) id allocation ↔
      ∃ s ∈ remaining ctx p, s.id = id ∧ 1 / 1000 < |allocation - s.allocation| ∧
        0 < freed ctx p ∧ allocation = enlargedAllocation ctx p s := by
  have hscore : ∀ s ∈ remaining ctx p,
      max ((((calculateEffectiveness ctx p.strategies).find? (·.strategy_id == s.id)).bind
        (·.effectiveness_score)).getD 0) 0 = merit ctx s := by
    intro s hs
    rw [find?_record ctx (mem_running_of_remaining ctx hs)]
    rfl
  unfold redistributeAllocation
  split
  · next hnone =>
    refine iff_of_false (fun ⟨a, ha, _⟩ => nomatch ha) ?_
    rintro ⟨s, hs, -, -, hfreed, -⟩
    rcases hnone with hnil | hle
    · rw [hnil] at hs
      cases hs
    · exact absurd hfreed (not_lt.mpr hle)
  · next hsome =>
    have hfreed : 0 < freed ctx p := not_le.mp fun hle => hsome (.inr hle)
    dsimp only
    rw [List.map_congr_left hscore]
    constructor
    · rintro ⟨a, ha, hid, hallocation⟩
      obtain ⟨s, hs, hadjustment⟩ := List.mem_filterMap.mp ha
      rw [hscore s hs] at hadjustment
      obtain ⟨hid, hdiffers, heq⟩ := adjustment_iff.mp ⟨a, hadjustment, hid, hallocation⟩
      exact ⟨s, hs, hid, hdiffers, hfreed, heq⟩
    · rintro ⟨s, hs, hid, hdiffers, -, heq⟩
      obtain ⟨a, hadjustment, ha⟩ := adjustment_iff.mpr ⟨hid, hdiffers, heq⟩
      refine ⟨a, List.mem_filterMap.mpr ⟨s, hs, ?_⟩, ha⟩
      rw [hscore s hs]
      exact hadjustment

/-- The scored records are those of the strategies that go on and have a score. -/
theorem filter_scored (p : Portfolio) :
    (calculateEffectiveness ctx p.strategies).filter (fun r =>
      r.effectiveness_score.isSome && (remaining ctx p).any (·.id == r.strategy_id)) =
      scoredRecords ctx p := by
  unfold calculateEffectiveness scoredRecords scored
  rw [List.filter_map, remaining, List.filter_filter]
  refine congrArg _ (List.filter_congr fun s hs => ?_)
  refine congrArg _ (Bool.eq_iff_iff.mpr ?_)
  rw [List.any_eq_true, decide_eq_true_iff]
  constructor
  · rintro ⟨t, ht, hid⟩
    obtain ⟨htmem, hgoes⟩ := List.mem_filter.mp ht
    obtain rfl := eq_of_id_eq (running_nodup p) htmem hs (beq_iff_eq.mp hid)
    exact of_decide_eq_true hgoes
  · exact fun hgoes => ⟨s, List.mem_filter.mpr ⟨hs, decide_eq_true hgoes⟩, beq_iff_eq.mpr rfl⟩

/-- When the scores diverge, some strategy has merit. -/
theorem totalScore_pos {p : Portfolio}
    (h : scoresDiverge ctx (scoredRecords ctx p) = true) :
    0 < ((scored ctx p).map (merit ctx)).sum := by
  unfold scoresDiverge at h
  dsimp only at h
  split at h
  · next maxScore minScore _ hmin =>
    obtain ⟨-, hpos, -⟩ := of_decide_eq_true h
    obtain ⟨r, hr, hscore⟩ := List.mem_filterMap.mp (List.min?_mem hmin)
    obtain ⟨s, hs, rfl⟩ := List.mem_map.mp hr
    have hmerit : merit ctx s = max minScore 0 := by
      unfold merit
      rw [show score ctx s = some minScore from hscore]
      rfl
    have hle : merit ctx s ≤ ((scored ctx p).map (merit ctx)).sum := by
      refine List.single_le_sum (fun x hx => ?_) _ (List.mem_map_of_mem hs)
      obtain ⟨t, -, rfl⟩ := List.mem_map.mp hx
      exact le_max_right _ _
    rw [hmerit] at hle
    exact lt_of_lt_of_le (lt_max_of_lt_left hpos) hle
  · cases h

/-- The scored records are records of the strategies that go on. -/
theorem scored_records (p : Portfolio) : Records (remaining ctx p) (scoredRecords ctx p) where
  ids_nodup := remaining_nodup ctx p
  records_nodup := by
    unfold scoredRecords
    rw [List.map_map]
    exact (remaining_nodup ctx p).sublist (List.filter_sublist.map _)
  found := List.forall_mem_map.mpr fun s hs => ⟨s, (List.mem_filter.mp hs).1, rfl⟩

theorem hasRecord_scored {p : Portfolio} {s : Strategy} (hs : s ∈ remaining ctx p) :
    hasRecord (scoredRecords ctx p) s = (score ctx s).isSome := by
  rw [Bool.eq_iff_iff]
  unfold hasRecord
  rw [List.any_eq_true]
  constructor
  · rintro ⟨r, hr, hid⟩
    obtain ⟨t, ht, rfl⟩ := List.mem_map.mp hr
    obtain ⟨hgoes, hscore⟩ := List.mem_filter.mp ht
    exact eq_of_id_eq (remaining_nodup ctx p) hgoes hs (beq_iff_eq.mp hid) ▸ hscore
  · exact fun hscore => ⟨_, List.mem_map_of_mem (List.mem_filter.mpr ⟨hs, hscore⟩),
      beq_iff_eq.mpr rfl⟩

theorem recorded_scored (p : Portfolio) :
    recorded (remaining ctx p) (scoredRecords ctx p) = scored ctx p :=
  List.filter_congr fun _ hs => hasRecord_scored ctx hs

theorem scoreIn_scored {p : Portfolio} {s : Strategy} (hs : s ∈ scored ctx p) :
    scoreIn (scoredRecords ctx p) s = merit ctx s :=
  scoreIn_eq (scored_records ctx p).records_nodup (List.mem_map_of_mem hs) rfl

theorem totalScore_scored (p : Portfolio) :
    totalScore (remaining ctx p) (scoredRecords ctx p) = ((scored ctx p).map (merit ctx)).sum := by
  unfold totalScore
  rw [recorded_scored]
  exact congrArg List.sum (List.map_congr_left fun s hs => scoreIn_scored ctx hs)

theorem boundedShare_scored {p : Portfolio} {s : Strategy} (hs : s ∈ scored ctx p) :
    boundedShare ctx (remaining ctx p) (scoredRecords ctx p) s = targetAllocation ctx p s := by
  unfold boundedShare
  rw [scoreIn_scored ctx hs, totalScore_scored]
  rfl

theorem shareSum_scored (p : Portfolio) :
    shareSum ctx (remaining ctx p) (scoredRecords ctx p) = rawSum ctx p := by
  unfold shareSum
  rw [recorded_scored]
  exact congrArg List.sum (List.map_congr_left fun s hs => boundedShare_scored ctx hs)

theorem fittedShare_scored {p : Portfolio} {s : Strategy} (hs : s ∈ scored ctx p) :
    fittedShare ctx (remaining ctx p) (scoredRecords ctx p) s = balancedAllocation ctx p s := by
  simp only [fittedShare, Scales, balancedAllocation, shareSum_scored, boundedShare_scored ctx hs]

/-- **Diverging scores** share the whole anew among the strategies that have one. -/
theorem reports_adjust {p : Portfolio} {id : String} {allocation : ℚ}
    (hdiverge : scoresDiverge ctx (scoredRecords ctx p) = true) :
    Reports (adjustAllocations ctx (remaining ctx p) (scoredRecords ctx p)) id allocation ↔
      ∃ s ∈ remaining ctx p, s.id = id ∧ 1 / 1000 < |allocation - s.allocation| ∧
        (score ctx s).isSome = true ∧ allocation = balancedAllocation ctx p s := by
  have htotal := totalScore_pos ctx hdiverge
  rw [← totalScore_scored] at htotal
  rw [reports_adjustAllocations ctx (scored_records ctx p), and_iff_right htotal]
  refine exists_congr fun s => and_congr_right fun hs => and_congr_right fun _ => ?_
  unfold Moved
  rw [hasRecord_scored ctx hs]
  constructor
  · rintro ⟨⟨hscore, hdiffers⟩, rfl⟩
    exact ⟨hdiffers, hscore, fittedShare_scored ctx (List.mem_filter.mpr ⟨hs, hscore⟩)⟩
  · rintro ⟨hdiffers, hscore, rfl⟩
    rw [fittedShare_scored ctx (List.mem_filter.mpr ⟨hs, hscore⟩)]
    exact ⟨⟨hscore, hdiffers⟩, rfl⟩

/-! ## The rebalance -/

theorem freed_of_none_terminated {p : Portfolio} (h : terminatedIds ctx p = []) :
    freed ctx p = 0 := by
  unfold freed
  rw [List.map_eq_nil_iff.mp h]
  rfl

/-- **A rebalance does not throw**: it changes no allocation by itself, and reports the
moves. -/
theorem rebalancePortfolio_spec (p : Portfolio) (trigger : RebalanceTriggerType) :
    ∃ stored result, rebalancePortfolio ctx p trigger = .ok (stored, result) ∧
      allocations stored.strategies = allocations p.strategies ∧
      ∀ id allocation, Reports result.adjustments id allocation ↔ Moves ctx p id allocation := by
  obtain ⟨stored, hterminate, hsame⟩ := terminateStrategies_ok ctx
    (calculateEffectiveness ctx p.strategies) (running_nodup p) p fun s hs => by
      simpa [runningStrategies] using hs
  have hids : ((runningStrategies p.strategies).filter fun s =>
      checkStrategyTermination ctx s (calculateEffectiveness ctx p.strategies)).map (·.id) =
      terminatedIds ctx p :=
    congrArg (List.map _) (List.filter_congr fun _ _ => Bool.decide_eq_true.symm)
  rw [hids] at hterminate
  refine ⟨stored, _, bind_ok_iff.mpr ⟨(stored, terminatedIds ctx p), hterminate, rfl⟩, hsame,
    fun id allocation => ?_⟩
  dsimp only
  rw [filter_not_terminated, sum_freed, filter_scored, reports_append]
  have hredistributed : Reports (if terminatedIds ctx p ≠ [] ∧ remaining ctx p ≠ [] then
      redistributeAllocation ctx (remaining ctx p) (calculateEffectiveness ctx p.strategies)
        (freed ctx p) else []) id allocation ↔
      ∃ s ∈ remaining ctx p, s.id = id ∧ 1 / 1000 < |allocation - s.allocation| ∧
        0 < freed ctx p ∧ allocation = enlargedAllocation ctx p s := by
    split
    · exact reports_redistribute ctx
    · next hnone =>
      refine iff_of_false (fun ⟨a, ha, _⟩ => nomatch ha) ?_
      rintro ⟨s, hs, -, -, hfreed, -⟩
      refine hnone ⟨fun hnil => ?_, List.ne_nil_of_mem hs⟩
      rw [freed_of_none_terminated ctx hnil] at hfreed
      exact lt_irrefl _ hfreed
  have hadjusted : Reports (if scoresDiverge ctx (scoredRecords ctx p) = true then
      adjustAllocations ctx (remaining ctx p) (scoredRecords ctx p) else []) id allocation ↔
      ∃ s ∈ remaining ctx p, s.id = id ∧ 1 / 1000 < |allocation - s.allocation| ∧
        scoresDiverge ctx (scoredRecords ctx p) = true ∧
          (score ctx s).isSome = true ∧ allocation = balancedAllocation ctx p s := by
    split
    · next hdiverge =>
      rw [reports_adjust ctx hdiverge]
      simp only [hdiverge, true_and]
    · next hdiverge =>
      refine iff_of_false (fun ⟨a, ha, _⟩ => nomatch ha) ?_
      rintro ⟨-, -, -, -, h, -⟩
      exact hdiverge h
  rw [hredistributed, hadjusted]
  unfold Moves
  simp only [and_or_left, exists_or]

/-- When the call has resolved and the updates it started have finished, in any order of
their loads and saves, the stored portfolio holds every reported allocation. -/
def ReportedPersist (portfolio : Option Portfolio) (trigger : RebalanceTriggerType) : Prop :=
  ∀ stored result, rebalance ctx portfolio trigger = .ok (stored, result) →
    ∀ final, Settles startedUpdate stored result.adjustments final →
      ∀ a ∈ result.adjustments, ∃ p, final = some p ∧
        allocationOf p a.strategy_id = some a.new_allocation

theorem startedUpdate_some {a : AllocationAdjustment} {p p' : Portfolio}
    (h : updateStrategyAllocation p a.strategy_id a.new_allocation = .ok p') :
    startedUpdate a (some p) = some (some p') := by
  unfold startedUpdate
  rw [Option.bind_some, h]

variable {ctx}

/-- The stored portfolio that a rebalance leaves to its updates, and what it reports. -/
theorem rebalance_spec (p : Portfolio) (trigger : RebalanceTriggerType) :
    ∃ stored result, rebalance ctx (some p) trigger = .ok (some stored, result) ∧
      (∀ id, allocationOf stored id = allocationOf p id) ∧
      ∀ id allocation, Reports result.adjustments id allocation ↔ Moves ctx p id allocation := by
  obtain ⟨stored, result, hrebalance, hsame, hreports⟩ := rebalancePortfolio_spec ctx p trigger
  refine ⟨stored, result, map_ok_iff.mpr ⟨_, hrebalance, rfl⟩, fun id => ?_, hreports⟩
  rw [allocationOf_eq, hsame, ← allocationOf_eq]

/-- A strategy that is moved is in the portfolio, with another allocation. -/
theorem Moves.old {p : Portfolio} {id : String} {allocation : ℚ} (h : Moves ctx p id allocation) :
    ∃ old, allocationOf p id = some old ∧ old ≠ allocation := by
  obtain ⟨s, hs, rfl, hdiffers, -⟩ := h
  refine ⟨s.allocation,
    allocationOf_mem (List.mem_filter.mp (mem_running_of_remaining ctx hs)).1, ?_⟩
  rintro rfl
  rw [sub_self, abs_zero] at hdiffers
  norm_num at hdiffers

/-- Two different moves may overwrite each other, and one that the schema refuses is never
stored. -/
theorem atMostOneMove_of_persist {p : Portfolio} {trigger : RebalanceTriggerType}
    (h : ReportedPersist ctx (some p) trigger) : AtMostOneMove ctx p := by
  obtain ⟨stored, result, hcall, hstored, hreports⟩ := @rebalance_spec ctx p trigger
  have hpersist := h _ _ hcall
  have hunit : ∀ a ∈ result.adjustments, 0 ≤ a.new_allocation ∧ a.new_allocation ≤ 1 := by
    intro a ha
    obtain ⟨final, hfinal⟩ := Settles.exists startedUpdate (some stored) result.adjustments
    obtain ⟨q, -, hq⟩ := hpersist final hfinal a ha
    exact allocationOf_unit hq
  intro id allocation hmove
  obtain ⟨a, ha, rfl, rfl⟩ := (hreports id allocation).mpr hmove
  refine ⟨hunit a ha, fun id' allocation' hmove' => ?_⟩
  obtain ⟨a', ha', rfl, rfl⟩ := (hreports id' allocation').mpr hmove'
  -- the update of the other adjustment may be kept alone
  obtain ⟨q, hq⟩ := updateStrategyAllocation_succeeds stored a'.strategy_id (hunit a' ha')
  obtain ⟨q', hfinal, hheld⟩ := hpersist _ (Settles.last ha' (startedUpdate_some hq)) a ha
  cases hfinal
  rw [updateStrategyAllocation_ok hq] at hheld
  split at hheld
  · next heq =>
    obtain ⟨_, -, hnew⟩ := Option.map_eq_some_iff.mp hheld
    exact ⟨heq.symm, hnew⟩
  · obtain ⟨old, hold, hne⟩ := hmove.old
    rw [hstored, hold] at hheld
    exact absurd (Option.some.inj hheld) hne

/-- Updates that all put in the same allocation may overlap. -/
theorem persist_of_atMostOneMove {p : Portfolio} (trigger : RebalanceTriggerType)
    (h : AtMostOneMove ctx p) : ReportedPersist ctx (some p) trigger := by
  intro stored' result' hcall' final hfinal a ha
  obtain ⟨stored, result, hcall, hstored, hreports⟩ := @rebalance_spec ctx p trigger
  rw [hcall] at hcall'
  cases hcall'
  have hmove := (hreports _ _).mp ⟨a, ha, rfl, rfl⟩
  obtain ⟨hunit, hall⟩ := h _ _ hmove
  obtain ⟨old, hold, -⟩ := hmove.old
  refine hfinal.establishes
    (P := fun o => ∃ q, o = some q ∧ ∃ held, allocationOf q a.strategy_id = some held)
    (Q := fun o => ∃ q, o = some q ∧ allocationOf q a.strategy_id = some a.new_allocation)
    ⟨stored, rfl, old, (hstored _).trans hold⟩ (List.ne_nil_of_mem ha) ?_
  rintro b hb _ ⟨q, rfl, held, hheld⟩
  obtain ⟨hid, hallocation⟩ := hall _ _ ((hreports _ _).mp ⟨b, hb, rfl, rfl⟩)
  obtain ⟨q', hq'⟩ := updateStrategyAllocation_succeeds q a.strategy_id hunit
  have hafter := updateStrategyAllocation_ok hq' a.strategy_id
  rw [if_pos rfl, hheld, Option.map_some] at hafter
  rw [← hid, ← hallocation] at hq'
  exact ⟨some q', startedUpdate_some hq', ⟨q', rfl, _, hafter⟩, ⟨q', rfl, hafter⟩⟩

/-- **The reported allocations are stored exactly when the rebalance makes at most one
move**, to an allocation that the schema accepts. -/
theorem reported_allocations_persist_iff (ctx : RebalanceContext) (portfolio : Option Portfolio)
    (trigger : RebalanceTriggerType) :
    ReportedPersist ctx portfolio trigger ↔ ∀ p, portfolio = some p → AtMostOneMove ctx p := by
  cases portfolio with
  | none =>
    refine iff_of_true (fun stored result h => ?_) nofun
    cases h
    exact fun _ _ a ha => nomatch ha
  | some p =>
    constructor
    · intro h p' hp'
      cases hp'
      exact atMostOneMove_of_persist h
    · exact fun h => persist_of_atMostOneMove trigger (h p rfl)

/-! ## A sample rebalance -/

/-- Three strategies share the whole. -/
def sampleRunningPortfolio : Portfolio where
  goal_id := "goal"
  strategies :=
    [sampleRunning "a" (2 / 5) (by norm_num), sampleRunning "b" (2 / 5) (by norm_num),
      sampleRunning "c" (1 / 5) (by norm_num)]
  ids_nodup := by decide

/-- The third has stalled three times. -/
def sampleRebalanceContext : RebalanceContext where
  config := {}
  measures := fun id =>
    { target_dimensions := ["coverage"]
      tasks_generated := []
      consecutive_stall_count := if id = "c" then 3 else 0
      estimatedSessions := 0 }
  loadCurrentGapForDimension := fun _ => none
  rebalanceHistory := []
  now := "2"

/-- **The others are given its allocation, and one of them does not get its part.** -/
theorem reported_allocation_lost :
    ¬ ReportedPersist sampleRebalanceContext (some sampleRunningPortfolio) .periodic := by
  intro h
  have ha : Moves sampleRebalanceContext sampleRunningPortfolio "a" (1 / 2) :=
    ⟨sampleRunning "a" (2 / 5) (by norm_num), by decide +kernel, rfl, by decide +kernel,
      .inl ⟨by decide +kernel, by decide +kernel⟩⟩
  have hb : Moves sampleRebalanceContext sampleRunningPortfolio "b" (1 / 2) :=
    ⟨sampleRunning "b" (2 / 5) (by norm_num), by decide +kernel, rfl, by decide +kernel,
      .inl ⟨by decide +kernel, by decide +kernel⟩⟩
  obtain ⟨hsame, -⟩ := (atMostOneMove_of_persist h _ _ ha).2 _ _ hb
  exact absurd hsame (by decide)

end PulSeed.PortfolioManager
