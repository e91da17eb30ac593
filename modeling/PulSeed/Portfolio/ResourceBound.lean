import Mathlib.Tactic.Linarith
import PulSeed.Lib.Proportion
import PulSeed.Portfolio.Strategies

/-!
# The resource bound of a portfolio

The allocations of the running strategies of a portfolio are shares of one whole. The
schema keeps each of them between 0 and 1. Their sum is another matter: an operation that
stops a strategy or resumes one divides the whole anew, but an activation hands out its
allocations without looking at those that are already held, and a termination hands out
whatever allocation is written in the record, also when the strategy was not running.

`handedOut` is what a call hands out anew. From a portfolio within the bound, a call leads
to one within the bound exactly when there is room for that (`perform_bounded_iff`), and so
for whole runs (`bounded_iff_room`).
-/

namespace PulSeed.StrategyManager

/-! ## What is held -/

/-- What a strategy holds: its allocation, while it is running. -/
def held (s : Strategy) : ℚ := if s.state.running = true then s.allocation else 0

/-- What the running strategies hold together. -/
def allocated (strategies : List Strategy) : ℚ := (strategies.map held).sum

theorem allocation_nonneg (s : Strategy) : 0 ≤ s.allocation :=
  (StrategyFields.issues_eq_nil.mp s.parses).1.1

theorem allocation_le_one (s : Strategy) : s.allocation ≤ 1 :=
  (StrategyFields.issues_eq_nil.mp s.parses).1.2

theorem held_of_running {s : Strategy} (h : s.state.running = true) : held s = s.allocation :=
  if_pos h

theorem held_of_not_running {s : Strategy} (h : s.state.running = false) : held s = 0 := by
  unfold held
  rw [h]
  rfl

theorem held_nonneg (s : Strategy) : 0 ≤ held s := by
  unfold held
  split
  · exact allocation_nonneg s
  · exact le_rfl

theorem allocated_eq_total (strategies : List Strategy) :
    allocated strategies = totalAllocation (strategies.filter (·.state.running)) :=
  (sum_map_filter (fun s : Strategy => s.state.running) (fun s => s.allocation) strategies).symm

/-- Two strategies of a portfolio with the same id are the same. -/
theorem eq_of_id_eq {strategies : List Strategy} (hnodup : (strategies.map (·.id)).Nodup)
    {a b : Strategy} (ha : a ∈ strategies) (hb : b ∈ strategies) (hid : a.id = b.id) : a = b :=
  List.inj_on_of_nodup_map hnodup ha hb hid

theorem countP_id {strategies : List Strategy} (hnodup : (strategies.map (·.id)).Nodup)
    {s : Strategy} (hs : s ∈ strategies) : strategies.countP (fun x => x.id == s.id) = 1 := by
  have hcount := List.count_eq_one_of_mem hnodup (List.mem_map_of_mem hs)
  rwa [List.count, List.countP_map] at hcount

theorem allocated_replace {strategies : List Strategy}
    (hnodup : (strategies.map (·.id)).Nodup) {s updated : Strategy} (hs : s ∈ strategies)
    (hid : updated.id = s.id) :
    allocated (replaceStrategy strategies updated) + held s =
      allocated strategies + held updated := by
  have hsingle : ∀ c : ℚ, (strategies.map fun x => if (x.id == s.id) = true then c else 0).sum
      = c := fun c => by
    rw [sum_map_ite_const (fun x : Strategy => x.id == s.id), countP_id hnodup hs, Nat.cast_one,
      one_mul]
  unfold allocated replaceStrategy
  rw [← hsingle (held s), ← hsingle (held updated), List.map_map, ← List.sum_map_add,
    ← List.sum_map_add]
  refine congrArg List.sum (List.map_congr_left fun x hx => ?_)
  show held (if x.id = updated.id then updated else x) + _ = _
  by_cases hxs : x.id = s.id
  · rw [if_pos (hxs.trans hid.symm), if_pos (beq_iff_eq.mpr hxs), if_pos (beq_iff_eq.mpr hxs),
      eq_of_id_eq hnodup hx hs hxs]
    exact add_comm _ _
  · rw [if_neg (fun h => hxs (h.trans hid)), if_neg (by simpa using hxs),
      if_neg (by simpa using hxs)]

/-! ## The others -/

theorem mem_othersRunning {strategies : List Strategy} {id : String} {s : Strategy} :
    s ∈ othersRunning strategies id ↔ s ∈ strategies ∧ s.id ≠ id ∧ s.state.running = true := by
  unfold othersRunning
  rw [List.mem_filter, Bool.and_eq_true, decide_eq_true_eq]

/-- The members of the list that a redistribution touches. -/
theorem any_others_iff {strategies : List Strategy} (hnodup : (strategies.map (·.id)).Nodup)
    {id : String} {s : Strategy} (hs : s ∈ strategies) :
    (othersRunning strategies id).any (·.id == s.id) = true ↔
      s.id ≠ id ∧ s.state.running = true := by
  rw [List.any_eq_true]
  constructor
  · rintro ⟨other, hother, heq⟩
    obtain ⟨hmem, hne, hrunning⟩ := mem_othersRunning.mp hother
    obtain rfl := eq_of_id_eq hnodup hmem hs (beq_iff_eq.mp heq)
    exact ⟨hne, hrunning⟩
  · exact fun h => ⟨s, mem_othersRunning.mpr ⟨hs, h⟩, beq_self_eq_true _⟩

/-- Replacing a strategy does not change the others. -/
theorem othersRunning_replace (strategies : List Strategy) {id : String} {updated : Strategy}
    (hid : updated.id = id) :
    othersRunning (replaceStrategy strategies updated) id = othersRunning strategies id := by
  subst hid
  unfold othersRunning replaceStrategy
  induction strategies with
  | nil => rfl
  | cons s strategies ih =>
    rw [List.map_cons, List.filter_cons, List.filter_cons, ih]
    by_cases heq : s.id = updated.id
    · simp [heq]
    · rw [if_neg heq]

theorem enlarged_nonneg (remaining : List Strategy) {freedAllocation : ℚ}
    (hfreed : 0 ≤ freedAllocation) (s : Strategy) : 0 ≤ enlarged remaining freedAllocation s :=
  add_nonneg (allocation_nonneg s) (mul_nonneg hfreed (portion_nonneg (allocation_nonneg s)))

theorem sum_enlarged {remaining : List Strategy} (hne : remaining ≠ []) (freedAllocation : ℚ) :
    (remaining.map (enlarged remaining freedAllocation)).sum =
      totalAllocation remaining + freedAllocation := by
  have hsum := sum_portion (fun s : Strategy => s.allocation) hne
  calc (remaining.map (enlarged remaining freedAllocation)).sum
      = totalAllocation remaining + freedAllocation * (remaining.map fun s =>
          portion (totalAllocation remaining) remaining.length s.allocation).sum := by
        rw [totalAllocation, ← List.sum_map_mul_left, ← List.sum_map_add]
        rfl
    _ = totalAllocation remaining + freedAllocation := by
        unfold totalAllocation
        rw [hsum, mul_one]

theorem shrunk_eq (others : List Strategy) (remaining : ℚ) (s : Strategy) :
    shrunk others remaining s =
      portion (totalAllocation others) others.length s.allocation * remaining := by
  unfold shrunk portion
  dsimp only
  split
  · rfl
  · rw [one_div_mul_eq_div]

theorem sum_shrunk {others : List Strategy} (hne : others ≠ []) (remaining : ℚ) :
    (others.map (shrunk others remaining)).sum = remaining := by
  have hsum := sum_portion (fun s : Strategy => s.allocation) hne
  calc (others.map (shrunk others remaining)).sum
      = (others.map fun s =>
          portion (totalAllocation others) others.length s.allocation).sum * remaining := by
        rw [← List.sum_map_mul_right]
        exact congrArg List.sum (List.map_congr_left fun s _ => shrunk_eq others remaining s)
    _ = remaining := by
        unfold totalAllocation
        rw [hsum, one_mul]

/-! ## What the operations do to the sum -/

/-- The sum after a traversal, from what each member holds then. -/
theorem allocated_mapM {f : Strategy → Except StrategyError Strategy} {g : Strategy → ℚ}
    {strategies updated : List Strategy} (h : strategies.mapM f = .ok updated)
    (hf : ∀ s ∈ strategies, ∀ s', f s = .ok s' → held s' = g s) :
    allocated updated = (strategies.map g).sum :=
  congrArg List.sum (map_eq_of_forall₂ (mapM_ok_iff.mp h) hf)

/-- **A redistribution adds what was freed**, when there is a strategy to receive it. -/
theorem allocated_redistribute {strategies updated : List Strategy}
    (hnodup : (strategies.map (·.id)).Nodup) {excludeId : String}
    (hstopped : ∀ s ∈ strategies, s.id = excludeId → s.state.running = false)
    {freedAllocation : ℚ} (hfreed : 0 ≤ freedAllocation)
    (h : redistributeAllocation strategies excludeId freedAllocation = .ok updated) :
    allocated updated = allocated strategies +
      if othersRunning strategies excludeId = [] then 0 else freedAllocation := by
  have hrunning : ∀ s ∈ strategies, s.state.running = true → s.id ≠ excludeId :=
    fun s hs hrun hid => Bool.false_ne_true ((hstopped s hs hid).symm.trans hrun)
  have hothers : strategies.filter (·.state.running) = othersRunning strategies excludeId := by
    refine List.filter_congr fun s hs => ?_
    cases hrun : s.state.running with
    | false => rw [Bool.and_false]
    | true => rw [Bool.and_true, decide_eq_true (hrunning s hs hrun)]
  unfold redistributeAllocation at h
  dsimp only at h
  split at h
  · next hnone =>
    cases h
    rcases hnone with hnil | hle
    · rw [if_pos hnil, add_zero]
    · rw [le_antisymm hle hfreed, ite_self, add_zero]
  · next hsome =>
    obtain ⟨hne, -⟩ := not_or.mp hsome
    have hafter := allocated_mapM (g := fun s => if s.state.running = true then
      enlarged (othersRunning strategies excludeId) freedAllocation s else 0) h (by
        intro s hs s' hs'
        by_cases hrun : s.state.running = true
        · rw [if_pos ((any_others_iff hnodup hs).mpr ⟨hrunning s hs hrun, hrun⟩)] at hs'
          unfold held
          rw [parseStrategy_ok hs', if_pos hrun]
        · rw [if_neg fun hany => hrun ((any_others_iff hnodup hs).mp hany).2] at hs'
          cases hs'
          rw [if_neg hrun]
          exact held_of_not_running (by simpa using hrun))
    rw [hafter, if_neg hne, allocated_eq_total, ← sum_map_filter, hothers, sum_enlarged hne]

/-- A stopped strategy gives up what it held, and the others receive what it frees. -/
theorem allocated_stop {strategies updated : List Strategy}
    (hnodup : (strategies.map (·.id)).Nodup) {strategy stopped : Strategy} {id : String}
    (hfind : strategies.find? (·.id == id) = some strategy) (hid : stopped.id = strategy.id)
    (hstopped : stopped.state.running = false)
    (h : redistributeAllocation (replaceStrategy strategies stopped) id strategy.allocation =
      .ok updated) :
    allocated updated + held strategy = allocated strategies +
      if othersRunning strategies id = [] then 0 else strategy.allocation := by
  have hmem := List.mem_of_find?_eq_some hfind
  have hfound := found_id hfind
  have hreplaced := allocated_replace hnodup hmem hid
  have hidle : ∀ s ∈ replaceStrategy strategies stopped, s.id = id → s.state.running = false := by
    intro s hs hsid
    obtain ⟨x, -, rfl⟩ := List.mem_map.mp hs
    split at hsid
    · next heq => rw [if_pos heq, hstopped]
    · next hne => exact absurd (hsid.trans (hfound.symm.trans hid.symm)) hne
  have hredistributed := allocated_redistribute
    (by rw [replaceStrategy_ids]; exact hnodup) hidle (allocation_nonneg strategy) h
  rw [othersRunning_replace _ (hid.trans hfound)] at hredistributed
  rw [held_of_not_running hstopped] at hreplaced
  linarith

/-- **A resumption divides the whole anew.** -/
theorem allocated_resume {goalId : String} {strategies updated : List Strategy}
    (hnodup : (strategies.map (·.id)).Nodup) {id : String} {allocation : ℚ} {resumed : Strategy}
    (h : resumeStrategy goalId strategies id allocation = .ok (updated, resumed)) :
    allocated updated = if othersRunning strategies id = [] then allocation else 1 := by
  obtain ⟨strategy, hfind, -, hid, hstate, hallocation, hmap⟩ := resumeStrategy_ok h
  have hmem := List.mem_of_find?_eq_some hfind
  have hfound := found_id hfind
  have hafter := allocated_mapM (g := fun s => (if (s.id == id) = true then allocation else 0) +
    if (s.id ≠ id && s.state.running) = true then
      shrunk (othersRunning strategies id) (1 - allocation) s else 0) hmap (by
        intro s hs s' hs'
        by_cases hsid : s.id = id
        · rw [if_pos hsid] at hs'
          cases hs'
          have hrun : resumed.state.running = true := by rw [hstate]; rfl
          rw [held_of_running hrun, hallocation]
          simp [hsid]
        · rw [if_neg hsid] at hs'
          by_cases hrun : s.state.running = true
          · rw [if_pos ((any_others_iff hnodup hs).mpr ⟨hsid, hrun⟩)] at hs'
            unfold held
            rw [parseStrategy_ok hs']
            simp [hsid, hrun]
          · rw [if_neg fun hany => hrun ((any_others_iff hnodup hs).mp hany).2] at hs'
            cases hs'
            rw [held_of_not_running (by simpa using hrun)]
            simp [hsid, hrun])
  have hone := countP_id hnodup hmem
  rw [hfound] at hone
  rw [hafter, List.sum_map_add, sum_map_ite_const (fun s : Strategy => s.id == id), hone,
    ← sum_map_filter (fun s : Strategy => s.id ≠ id && s.state.running), Nat.cast_one, one_mul]
  show allocation + ((othersRunning strategies id).map _).sum = _
  split
  · next hnil => rw [hnil, List.map_nil, List.sum_nil, add_zero]
  · next hne => rw [sum_shrunk hne, add_sub_cancel]

theorem equalSplit_mem (count : Nat) : 0 ≤ equalSplit count ∧ equalSplit count ≤ 1 := by
  unfold equalSplit
  split
  · exact ⟨zero_le_one, le_rfl⟩
  · refine ⟨le_min (le_max_of_le_right (by norm_num)) (by norm_num), ?_⟩
    exact (min_le_right _ _).trans (by norm_num)

/-! ## What a call hands out anew -/

/-- The gaps that a wait strategy is given pass the schema. -/
def BaselinesParse (strategies : List Strategy) (ids : List String)
    (waitBaselines : List (String × ℚ)) : Prop :=
  ∀ s ∈ strategies, s.id ∈ ids → ∀ gap ∈ waitBaselines.lookup s.id, 0 ≤ gap

instance (strategies : List Strategy) (ids : List String) (waitBaselines : List (String × ℚ)) :
    Decidable (BaselinesParse strategies ids waitBaselines) :=
  inferInstanceAs (Decidable (∀ s ∈ strategies, _ → _))

/-- The allocations of a validated activation. -/
def activatedAllocation (p : Portfolio) (ids : List String) (ctx : ActivationContext) : ℚ :=
  match checkActivations p.goal_id p.strategies ctx ids with
  | .error _ => 0
  | .ok waitBaselines =>
    if BaselinesParse p.strategies ids waitBaselines then
      p.strategies.countP (fun s => s.id ∈ ids) * equalSplit ids.length
    else 0

/-- The freed allocation leads one of the others beyond the whole, and the schema refuses it. -/
def Overflows (p : Portfolio) (id : String) (freedAllocation : ℚ) : Prop :=
  ∃ s ∈ othersRunning p.strategies id,
    1 < enlarged (othersRunning p.strategies id) freedAllocation s

instance (p : Portfolio) (id : String) (freedAllocation : ℚ) :
    Decidable (Overflows p id freedAllocation) :=
  inferInstanceAs (Decidable (∃ s ∈ _, _))

/-- **What a call hands out** that no running strategy held: the allocations of the
strategies it activates, and the allocation that is freed by terminating a strategy that
was not running. -/
def handedOut (p : Portfolio) : Call → ℚ
  | .activateMultiple ids ctx => activatedAllocation p ids ctx
  | .activateBestCandidate sel ctx =>
    match (rankedCandidates sel p.strategies).head? with
    | none => 0
    | some best => activatedAllocation p [best.id] ctx
  | .terminateStrategy id _ =>
    match p.strategies.find? (·.id == id) with
    | none => 0
    | some s =>
      if s.state.running = true ∨ othersRunning p.strategies id = [] ∨
        Overflows p id s.allocation then 0
      else s.allocation
  | .updateState id newState _ _ =>
    match p.strategies.find? (·.id == id) with
    | none => 0
    | some s =>
      if s.state.running = false ∧ newState.running = true ∧
        newState ∈ VALID_TRANSITIONS s.state then s.allocation
      else 0
  | .suspendStrategy _ | .resumeStrategy _ _ => 0

/-- There is room for what a call hands out. -/
def HasRoom (p : Portfolio) (call : Call) : Prop :=
  allocated p.strategies + handedOut p call ≤ 1

instance (p : Portfolio) (call : Call) : Decidable (HasRoom p call) :=
  inferInstanceAs (Decidable (_ ≤ _))

/-- The bound: every running strategy has its part of the whole, and so have all of them. -/
def Bounded (p : Portfolio) : Prop :=
  (∀ s ∈ p.strategies, s.state.running = true → 0 ≤ s.allocation ∧ s.allocation ≤ 1) ∧
    allocated p.strategies ≤ 1

theorem bounded_iff {p : Portfolio} : Bounded p ↔ allocated p.strategies ≤ 1 :=
  ⟨fun h => h.2, fun h => ⟨fun s _ _ => ⟨allocation_nonneg s, allocation_le_one s⟩, h⟩⟩

/-! ## Calls -/

/-- A validated strategy is a candidate. -/
theorem candidate_of_check {p : Portfolio} {ids : List String} {ctx : ActivationContext}
    {waitBaselines : List (String × ℚ)}
    (h : checkActivations p.goal_id p.strategies ctx ids = .ok waitBaselines) {s : Strategy}
    (hs : s ∈ p.strategies) (hid : s.id ∈ ids) : s.state = .candidate := by
  obtain ⟨checks, hchecks, -⟩ := map_ok_iff.mp h
  obtain ⟨check, -, hcheck⟩ := mapM_ok_mem hchecks hid
  unfold checkActivation at hcheck
  split at hcheck
  · cases hcheck
  · next x hfind =>
    obtain rfl := eq_of_id_eq p.ids_nodup (List.mem_of_find?_eq_some hfind) hs (found_id hfind)
    split at hcheck
    · cases hcheck
    · next hstate => exact not_not.mp hstate

/-- **An activation adds its allocations.** -/
theorem allocated_activate {p : Portfolio} {ids : List String} {ctx : ActivationContext}
    {updated activated : List Strategy}
    (h : activateMultiple p.goal_id p.strategies ids ctx = .ok (updated, activated)) :
    allocated updated = allocated p.strategies + activatedAllocation p ids ctx := by
  unfold activateMultiple at h
  split at h
  · cases h
  · obtain ⟨waitBaselines, hcheck, h⟩ := bind_ok_iff.mp h
    obtain ⟨updated', hmap, heq⟩ := bind_ok_iff.mp h
    cases heq
    have hparse : BaselinesParse p.strategies ids waitBaselines := by
      intro s hs hid gap hgap
      obtain ⟨s', -, hs'⟩ := mapM_ok_mem hmap hs
      rw [if_pos hid] at hs'
      have hissues := StrategyFields.issues_eq_nil.mp s'.parses
      rw [parseStrategy_ok hs'] at hissues
      refine hissues.2 gap ?_
      show gap ∈ (waitBaselines.lookup s.id).or _
      rw [Option.mem_def.mp hgap]
      rfl
    have hafter := allocated_mapM (g := fun s => held s +
      if decide (s.id ∈ ids) = true then equalSplit ids.length else 0) hmap (by
        intro s hs s' hs'
        by_cases hid : s.id ∈ ids
        · rw [if_pos hid] at hs'
          have hcandidate := candidate_of_check hcheck hs hid
          rw [held_of_not_running (s := s) (by rw [hcandidate]; rfl), zero_add,
            if_pos (decide_eq_true hid)]
          unfold held
          rw [parseStrategy_ok hs']
          exact if_pos rfl
        · rw [if_neg hid] at hs'
          cases hs'
          rw [if_neg (by simpa using hid), add_zero])
    rw [hafter, List.sum_map_add, sum_map_ite_const]
    unfold activatedAllocation
    rw [hcheck]
    dsimp only
    rw [if_pos hparse]
    rfl

/-- An activation that throws would have handed out nothing. -/
theorem activatedAllocation_of_error {p : Portfolio} {ids : List String}
    {ctx : ActivationContext} {e : StrategyError}
    (h : activateMultiple p.goal_id p.strategies ids ctx = .error e) :
    activatedAllocation p ids ctx = 0 := by
  unfold activateMultiple at h
  split at h
  · next hnil =>
    subst hnil
    unfold activatedAllocation
    split
    · rfl
    · simp
  · rcases bind_error_iff.mp h with hcheck | ⟨waitBaselines, hcheck, h⟩
    · unfold activatedAllocation
      rw [hcheck]
    · rcases bind_error_iff.mp h with hmap | ⟨updated, -, h⟩
      · obtain ⟨s, hs, herr⟩ := mapM_error hmap
        unfold activatedAllocation
        rw [hcheck]
        refine if_neg fun hparse => ?_
        split at herr
        · next hid =>
          refine parseStrategy_error herr (StrategyFields.issues_eq_nil.mpr ⟨equalSplit_mem _, ?_⟩)
          intro gap hgap
          rcases Option.or_eq_some_iff.mp hgap with hgap | ⟨-, hgap⟩
          · exact hparse s hs hid gap hgap
          · exact (StrategyFields.issues_eq_nil.mp s.parses).2 gap hgap
        · cases herr
      · cases h

/-- **An activation keeps the bound exactly when there is room for it.** -/
theorem activate_le_one_iff {p : Portfolio} (hp : allocated p.strategies ≤ 1)
    (ids : List String) (ctx : ActivationContext) :
    (∀ updated activated,
      activateMultiple p.goal_id p.strategies ids ctx = .ok (updated, activated) →
        allocated updated ≤ 1) ↔
      allocated p.strategies + activatedAllocation p ids ctx ≤ 1 := by
  cases h : activateMultiple p.goal_id p.strategies ids ctx with
  | error e =>
    rw [activatedAllocation_of_error h, add_zero]
    exact iff_of_true (fun _ _ hok => nomatch hok) hp
  | ok result =>
    rw [← allocated_activate h]
    constructor
    · exact fun hall => hall _ _ rfl
    · rintro hle updated activated heq
      cases heq
      exact hle

/-- A redistribution throws exactly when one of the enlarged allocations is more than 1. -/
theorem redistribute_throws_iff {strategies : List Strategy}
    (hnodup : (strategies.map (·.id)).Nodup) {excludeId : String} {freedAllocation : ℚ}
    (hfreed : 0 ≤ freedAllocation) :
    (∃ e, redistributeAllocation strategies excludeId freedAllocation = .error e) ↔
      ∃ s ∈ othersRunning strategies excludeId,
        1 < enlarged (othersRunning strategies excludeId) freedAllocation s := by
  constructor
  · rintro ⟨e, h⟩
    unfold redistributeAllocation at h
    dsimp only at h
    split at h
    · cases h
    · obtain ⟨s, hs, herr⟩ := mapM_error h
      split at herr
      · next hany =>
        refine ⟨s, mem_othersRunning.mpr ⟨hs, (any_others_iff hnodup hs).mp hany⟩, ?_⟩
        by_contra hle
        exact parseStrategy_error herr (StrategyFields.issues_eq_nil.mpr
          ⟨⟨enlarged_nonneg _ hfreed s, not_lt.mp hle⟩,
            (StrategyFields.issues_eq_nil.mp s.parses).2⟩)
      · cases herr
  · rintro ⟨s, hs, hlarge⟩
    cases h : redistributeAllocation strategies excludeId freedAllocation with
    | error e => exact ⟨e, rfl⟩
    | ok updated =>
      exfalso
      unfold redistributeAllocation at h
      dsimp only at h
      split at h
      · next hnone =>
        rcases hnone with hnil | hle
        · rw [hnil] at hs
          cases hs
        · have hsame : enlarged (othersRunning strategies excludeId) freedAllocation s =
              s.allocation := by
            unfold enlarged
            dsimp only
            rw [le_antisymm hle hfreed, zero_mul, add_zero]
          linarith [allocation_le_one s]
      · obtain ⟨hmem, hothers⟩ := mem_othersRunning.mp hs
        obtain ⟨s', -, hs'⟩ := mapM_ok_mem h hmem
        rw [if_pos ((any_others_iff hnodup hmem).mpr hothers)] at hs'
        have hle := allocation_le_one s'
        rw [parseStrategy_ok hs'] at hle
        exact absurd hle (not_le.mpr hlarge)

/-- So does replacing a strategy and redistributing what it had. -/
theorem replaced_throws_iff {p : Portfolio} {id : String} {fields : StrategyFields}
    {s' strategy : Strategy} (hparse : parseStrategy fields = .ok s') (hid : s'.id = id) :
    (∃ e, (do
        let s' ← parseStrategy fields
        let updated ← redistributeAllocation (replaceStrategy p.strategies s') id
          strategy.allocation
        return (updated, s')) = Except.error e) ↔ Overflows p id strategy.allocation := by
  have hnodup : ((replaceStrategy p.strategies s').map (·.id)).Nodup := by
    rw [replaceStrategy_ids]
    exact p.ids_nodup
  have hthrows : (∃ e, redistributeAllocation (replaceStrategy p.strategies s') id
      strategy.allocation = .error e) ↔ _ :=
    redistribute_throws_iff hnodup (allocation_nonneg strategy)
  rw [othersRunning_replace _ hid] at hthrows
  refine Iff.trans ?_ hthrows
  constructor
  · rintro ⟨e, h⟩
    rcases bind_error_iff.mp h with h | ⟨_, hok, h⟩
    · rw [hparse] at h
      cases h
    · rw [hparse] at hok
      cases hok
      rcases bind_error_iff.mp h with h | ⟨_, -, h⟩
      · exact ⟨e, h⟩
      · cases h
  · rintro ⟨e, h⟩
    exact ⟨e, bind_error_iff.mpr (.inr ⟨s', hparse, bind_error_iff.mpr (.inl h)⟩)⟩

/-- So does a termination. -/
theorem terminate_throws_iff {p : Portfolio} {id : String} (now : String) {strategy : Strategy}
    (hfind : p.strategies.find? (·.id == id) = some strategy) :
    (∃ e, terminateStrategy p.goal_id p.strategies id now = .error e) ↔
      Overflows p id strategy.allocation := by
  obtain ⟨terminated, hparse⟩ : ∃ terminated, parseStrategy { strategy.toStrategyFields with
      state := .terminated, completed_at := some now, allocation := 0 } = .ok terminated :=
    parseStrategy_succeeds strategy ⟨le_rfl, zero_le_one⟩ rfl
  have hid : terminated.id = id := by
    rw [parseStrategy_ok hparse]
    exact found_id hfind
  unfold terminateStrategy
  rw [hfind]
  exact replaced_throws_iff hparse hid

/-- And a suspension of a running strategy. -/
theorem suspend_throws_iff {p : Portfolio} {id : String} {strategy : Strategy}
    (hfind : p.strategies.find? (·.id == id) = some strategy)
    (hrunning : strategy.state.running = true) :
    (∃ e, suspendStrategy p.goal_id p.strategies id = .error e) ↔
      Overflows p id strategy.allocation := by
  obtain ⟨suspended, hparse⟩ : ∃ suspended, parseStrategy { strategy.toStrategyFields with
      state := .suspended, allocation := 0 } = .ok suspended :=
    parseStrategy_succeeds strategy ⟨le_rfl, zero_le_one⟩ rfl
  have hid : suspended.id = id := by
    rw [parseStrategy_ok hparse]
    exact found_id hfind
  unfold suspendStrategy
  rw [hfind]
  dsimp only
  rw [if_pos hrunning]
  exact replaced_throws_iff hparse hid

/-- **A termination keeps the bound exactly when there is room for what it frees.** -/
theorem terminate_le_one_iff {p : Portfolio} (hp : allocated p.strategies ≤ 1) (id now : String) :
    (∀ updated terminated,
      terminateStrategy p.goal_id p.strategies id now = .ok (updated, terminated) →
        allocated updated ≤ 1) ↔ HasRoom p (.terminateStrategy id now) := by
  unfold HasRoom handedOut
  dsimp only
  cases hfind : p.strategies.find? (·.id == id) with
  | none =>
    refine iff_of_true (fun updated terminated h => ?_) (by rw [add_zero]; exact hp)
    obtain ⟨strategy, hsome, -⟩ := terminateStrategy_ok h
    rw [hfind] at hsome
    cases hsome
  | some strategy =>
    have hstop : ∀ updated terminated,
        terminateStrategy p.goal_id p.strategies id now = .ok (updated, terminated) →
          allocated updated + held strategy = allocated p.strategies +
            if othersRunning p.strategies id = [] then 0 else strategy.allocation := by
      intro updated terminated h
      obtain ⟨strategy', hfind', hid, hstate, hupdated⟩ := terminateStrategy_ok h
      rw [hfind] at hfind'
      cases hfind'
      exact allocated_stop p.ids_nodup hfind hid (by rw [hstate]; rfl) hupdated
    dsimp only
    split
    · next hnone =>
      refine iff_of_true (fun updated terminated h => ?_) (by rw [add_zero]; exact hp)
      have hsum := hstop updated terminated h
      rcases hnone with hrunning | hnil | hoverflows
      · rw [held_of_running hrunning] at hsum
        split at hsum <;> linarith [allocation_nonneg strategy]
      · rw [if_pos hnil] at hsum
        linarith [held_nonneg strategy]
      · obtain ⟨e, herr⟩ := (terminate_throws_iff now hfind).mpr hoverflows
        rw [h] at herr
        cases herr
    · next hfrees =>
      obtain ⟨hrunning, hothers, hoverflows⟩ := by simpa only [not_or] using hfrees
      have hnot : strategy.state.running = false := by simpa using hrunning
      cases h : terminateStrategy p.goal_id p.strategies id now with
      | error e => exact absurd ((terminate_throws_iff now hfind).mp ⟨e, h⟩) hoverflows
      | ok result =>
        have hsum := hstop result.1 result.2 h
        rw [if_neg hothers, held_of_not_running hnot, add_zero] at hsum
        rw [← hsum]
        constructor
        · exact fun hall => hall _ _ rfl
        · rintro hle updated terminated heq
          cases heq
          exact hle

/-- A suspension keeps the bound. -/
theorem suspend_le_one {p : Portfolio} (hp : allocated p.strategies ≤ 1) {id : String}
    {updated : List Strategy} {suspended : Strategy}
    (h : suspendStrategy p.goal_id p.strategies id = .ok (updated, suspended)) :
    allocated updated ≤ 1 := by
  obtain ⟨strategy, hfind, hrunning, hid, hstate, hupdated⟩ := suspendStrategy_ok h
  have hsum := allocated_stop p.ids_nodup hfind hid (by rw [hstate]; rfl) hupdated
  rw [held_of_running hrunning] at hsum
  split at hsum <;> linarith [allocation_nonneg strategy]

/-- A resumption establishes it. -/
theorem resume_le_one {p : Portfolio} {id : String} {allocation : ℚ} {updated : List Strategy}
    {resumed : Strategy}
    (h : resumeStrategy p.goal_id p.strategies id allocation = .ok (updated, resumed)) :
    allocated updated ≤ 1 := by
  obtain ⟨-, -, -, -, -, hallocation, -⟩ := resumeStrategy_ok h
  rw [allocated_resume p.ids_nodup h]
  split
  · rw [← hallocation]
    exact allocation_le_one resumed
  · exact le_rfl

/-- **An update keeps the bound exactly when there is room for what it activates.** -/
theorem updateState_le_one_iff {p : Portfolio} (hp : allocated p.strategies ≤ 1) (id : String)
    (newState : StrategyState) (effectiveness_score : Option ℚ) (now : String) :
    (∀ l updated, updateState p.strategies id newState effectiveness_score now =
      .ok (l, updated) → allocated l ≤ 1) ↔
      HasRoom p (.updateState id newState effectiveness_score now) := by
  unfold HasRoom handedOut
  dsimp only
  cases hfind : p.strategies.find? (·.id == id) with
  | none =>
    refine iff_of_true (fun l updated h => ?_) (by rw [add_zero]; exact hp)
    obtain ⟨strategy, hsome, -⟩ := updateState_ok h
    rw [hfind] at hsome
    cases hsome
  | some strategy =>
    have hupdate : ∀ l updated, updateState p.strategies id newState effectiveness_score now =
        .ok (l, updated) → newState ∈ VALID_TRANSITIONS strategy.state ∧
          allocated l + held strategy = allocated p.strategies +
            if newState.running = true then strategy.allocation else 0 := by
      intro l updated h
      obtain ⟨strategy', hfind', hvalid, hid, hstate, hallocation, rfl⟩ := updateState_ok h
      rw [hfind] at hfind'
      cases hfind'
      refine ⟨hvalid, ?_⟩
      rw [allocated_replace p.ids_nodup (List.mem_of_find?_eq_some hfind) hid, ← hstate,
        ← hallocation]
      rfl
    dsimp only
    split
    · next hactivates =>
      obtain ⟨hnot, hnew, hvalid⟩ := hactivates
      obtain ⟨l, updated, h⟩ : ∃ l updated, updateState p.strategies id newState
          effectiveness_score now = .ok (l, updated) := by
        unfold updateState
        rw [hfind]
        dsimp only
        rw [if_pos hvalid]
        obtain ⟨updated, hparse⟩ : ∃ updated, parseStrategy { strategy.toStrategyFields with
            state := newState
            completed_at := if newState = .completed ∨ newState = .terminated then some now
              else strategy.completed_at
            effectiveness_score := effectiveness_score.or strategy.effectiveness_score } =
              .ok updated :=
          parseStrategy_succeeds strategy
            ⟨allocation_nonneg strategy, allocation_le_one strategy⟩ rfl
        exact ⟨_, updated, bind_ok_iff.mpr ⟨updated, hparse, rfl⟩⟩
      obtain ⟨-, hsum⟩ := hupdate l updated h
      rw [if_pos hnew, held_of_not_running hnot, add_zero] at hsum
      rw [← hsum]
      constructor
      · exact fun hall => hall l updated h
      · intro hle l' updated' h'
        rw [h] at h'
        cases h'
        exact hle
    · next hidle =>
      refine iff_of_true (fun l updated h => ?_) (by rw [add_zero]; exact hp)
      obtain ⟨hvalid, hsum⟩ := hupdate l updated h
      cases hrunning : strategy.state.running with
      | true =>
        rw [held_of_running hrunning] at hsum
        split at hsum <;> linarith [allocation_nonneg strategy]
      | false =>
        have hnew : newState.running ≠ true := fun hnew => hidle ⟨hrunning, hnew, hvalid⟩
        rw [if_neg hnew] at hsum
        linarith [held_nonneg strategy]

/-- **A call keeps the bound exactly when there is room for what it hands out.** -/
theorem run_le_one_iff {p : Portfolio} (hp : allocated p.strategies ≤ 1) (call : Call) :
    (∀ updated answer, call.run p.goal_id p.strategies = .ok (updated, answer) →
      allocated updated ≤ 1) ↔ HasRoom p call := by
  cases call with
  | activateMultiple ids ctx => exact activate_le_one_iff hp ids ctx
  | activateBestCandidate sel ctx =>
    unfold HasRoom handedOut
    dsimp only
    have hrun : Call.run p.goal_id p.strategies (.activateBestCandidate sel ctx) =
      activateBestCandidate p.goal_id p.strategies sel ctx := rfl
    rw [hrun]
    unfold activateBestCandidate
    cases (rankedCandidates sel p.strategies).head? with
    | none => exact iff_of_true (fun _ _ h => nomatch h) (by rw [add_zero]; exact hp)
    | some best => exact activate_le_one_iff hp [best.id] ctx
  | terminateStrategy id now =>
    rw [← terminate_le_one_iff hp]
    constructor
    · exact fun hall updated terminated h => hall updated [terminated] (map_ok_iff.mpr ⟨_, h, rfl⟩)
    · intro hall updated answer h
      obtain ⟨⟨l, s⟩, hcall, heq⟩ := map_ok_iff.mp h
      cases heq
      exact hall _ _ hcall
  | suspendStrategy id =>
    refine iff_of_true (fun updated answer h => ?_) ?_
    · obtain ⟨⟨l, s⟩, hcall, heq⟩ := map_ok_iff.mp h
      cases heq
      exact suspend_le_one hp hcall
    · show _ + 0 ≤ (1 : ℚ)
      rw [add_zero]
      exact hp
  | resumeStrategy id allocation =>
    refine iff_of_true (fun updated answer h => ?_) ?_
    · obtain ⟨⟨l, s⟩, hcall, heq⟩ := map_ok_iff.mp h
      cases heq
      exact resume_le_one hcall
    · show _ + 0 ≤ (1 : ℚ)
      rw [add_zero]
      exact hp
  | updateState id newState effectiveness_score now =>
    rw [← updateState_le_one_iff hp]
    constructor
    · exact fun hall l updated h => hall l [updated] (map_ok_iff.mpr ⟨_, h, rfl⟩)
    · intro hall l answer h
      obtain ⟨⟨l', s⟩, hcall, heq⟩ := map_ok_iff.mp h
      cases heq
      exact hall _ _ hcall

theorem perform_bounded_iff {p : Portfolio} (hp : Bounded p) (call : Call) :
    Bounded (perform p call).1 ↔ HasRoom p call := by
  rw [bounded_iff, ← run_le_one_iff hp.2]
  unfold perform
  split
  · next updated answer hrun =>
    constructor
    · intro hle updated' answer' h
      rw [hrun] at h
      cases h
      exact hle
    · exact fun hall => hall updated answer hrun
  · next e hrun =>
    refine iff_of_true hp.2 fun updated answer h => ?_
    rw [hrun] at h
    cases h

/-- A candidate. -/
def sampleCandidate (id : String) : Strategy where
  id := id
  primary_dimension := "coverage"
  hypothesis := id
  created_at := "1"
  parses := StrategyFields.issues_eq_nil.mpr ⟨⟨le_rfl, zero_le_one⟩, by simp⟩

/-- Three candidates. -/
def samplePortfolio : Portfolio where
  goal_id := "goal"
  strategies := [sampleCandidate "a", sampleCandidate "b", sampleCandidate "c"]
  ids_nodup := by decide

/-- No gap is known, and waiting costs nothing. -/
def sampleContext : ActivationContext where
  getCurrentGap := fun _ => none
  canAffordWait := none
  loadCurrentGapForDimension := fun _ => none
  getTime := fun _ => none
  now := "2"

def sampleCalls : List Call :=
  [.activateMultiple ["a", "b"] sampleContext,
    .suspendStrategy "a",
    .resumeStrategy "a" (1 / 4),
    .updateState "b" .evaluating none "3",
    .terminateStrategy "b" "4"]

theorem samplePortfolio_bounded : Bounded samplePortfolio :=
  bounded_iff.mpr (by decide +kernel)

end PulSeed.StrategyManager
