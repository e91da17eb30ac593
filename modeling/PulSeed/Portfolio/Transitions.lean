import PulSeed.Portfolio.ResourceBound

/-!
# State changes of strategies

`VALID_TRANSITIONS` lists the state changes of a strategy, and a running strategy may be
suspended besides. `updateState` looks its change up in the table; the other operations have
guards of their own (a candidate is activated, a running strategy suspended, a suspended one
resumed), except `terminateStrategy`, which has none: it also terminates a candidate, and a
strategy that is completed.

- `operate_allowed_iff`: **one operation makes only listed changes exactly when it does not
  terminate a candidate or a completed strategy**.
- `lawful_iff`: so for whole runs, where it follows that a strategy that is completed or
  terminated stays as it is.
-/

namespace PulSeed.StrategyManager

/-! ## Generation of candidates -/

/-- What a generation answers with: strategies that are parsed in the state `candidate`,
whatever the model, the templates and the recovery portfolio propose. -/
structure Candidate extends Strategy where
  is_candidate : state = .candidate

/-- `dedupeCandidatesById`, with the set `seen`. -/
def dedupeCandidatesById (seen : List String) : List Strategy → List Strategy
  | [] => []
  | candidate :: candidates =>
    if candidate.id ∈ seen then dedupeCandidatesById seen candidates
    else candidate :: dedupeCandidatesById (candidate.id :: seen) candidates

/-- `freshCandidates` of `generateCandidates`. -/
def freshCandidates (strategies : List Strategy) (candidates : List Candidate) : List Strategy :=
  (dedupeCandidatesById [] (candidates.map (·.toStrategy))).filter fun candidate =>
    candidate.id ∉ strategies.map (·.id)

theorem dedupeCandidatesById_ids (seen : List String) (candidates : List Strategy) :
    ((dedupeCandidatesById seen candidates).map (·.id)).Nodup ∧
      ∀ s ∈ dedupeCandidatesById seen candidates, s.id ∉ seen := by
  induction candidates generalizing seen with
  | nil =>
    constructor
    · exact List.nodup_nil
    · intro s hs
      cases hs
  | cons candidate candidates ih =>
    unfold dedupeCandidatesById
    split
    · exact ih seen
    · next hnew =>
      obtain ⟨hnodup, hunseen⟩ := ih (candidate.id :: seen)
      constructor
      · refine List.nodup_cons.mpr ⟨fun hmem => ?_, hnodup⟩
        obtain ⟨s, hs, heq⟩ := List.mem_map.mp hmem
        exact hunseen s hs (heq ▸ List.mem_cons_self)
      · intro s hs
        rcases List.mem_cons.mp hs with rfl | hs
        · exact hnew
        · exact fun hmem => hunseen s hs (List.mem_cons_of_mem _ hmem)

theorem freshCandidates_nodup {strategies : List Strategy}
    (hnodup : (strategies.map (·.id)).Nodup) (candidates : List Candidate) :
    ((strategies ++ freshCandidates strategies candidates).map (·.id)).Nodup := by
  rw [List.map_append]
  refine List.Nodup.append hnodup ?_ ?_
  · exact ((List.filter_sublist).map _).nodup (dedupeCandidatesById_ids [] _).1
  · intro id hid hfresh
    obtain ⟨s, hs, rfl⟩ := List.mem_map.mp hfresh
    exact absurd hid (of_decide_eq_true (List.mem_filter.mp hs).2)

/-! ## Operations -/

/-- An operation of the manager: a generation that returns candidates, or a call. -/
inductive Operation where
  | generateCandidates (candidates : List Candidate)
  | call (call : Call)

/-- One operation on the portfolio; one that throws saves nothing. -/
def operate (p : Portfolio) : Operation → Portfolio × Except StrategyError (List Strategy)
  | .generateCandidates candidates =>
    ({ goal_id := p.goal_id
       strategies := p.strategies ++ freshCandidates p.strategies candidates
       ids_nodup := freshCandidates_nodup p.ids_nodup candidates },
      .ok (freshCandidates p.strategies candidates))
  | .call call => perform p call

/-- The system of a goal's portfolio, with its generations. -/
def managerLTS : LTS Portfolio (Operation × Except StrategyError (List Strategy)) :=
  .ofFn operate

/-! ## What a call does to the states -/

/-- The strategies with one of the ids are in the state `new`, all others in their own. -/
def Moves (ids : List String) (new : StrategyState) (strategies updated : List Strategy) : Prop :=
  List.Forall₂ (fun s s' => s'.id = s.id ∧ s'.state = if s.id ∈ ids then new else s.state)
    strategies updated

theorem Moves.mem {ids : List String} {new : StrategyState} {strategies updated : List Strategy}
    (h : Moves ids new strategies updated) {s : Strategy} (hs : s ∈ strategies) :
    ∃ s' ∈ updated, s'.id = s.id ∧ s'.state = if s.id ∈ ids then new else s.state := by
  induction h with
  | nil => cases hs
  | cons hab _ ih =>
    rcases List.mem_cons.mp hs with rfl | hs
    · exact ⟨_, List.mem_cons_self, hab⟩
    · obtain ⟨s', hs', hmoved⟩ := ih hs
      exact ⟨s', List.mem_cons_of_mem _ hs', hmoved⟩

/-- Replacing one strategy moves it; a map that keeps ids and states after it adds nothing. -/
theorem moves_replace {strategies updated : List Strategy} {s' : Strategy} {new : StrategyState}
    (hnew : s'.state = new)
    (h : List.Forall₂ (fun a b => b.id = a.id ∧ b.state = a.state)
      (replaceStrategy strategies s') updated) :
    Moves [s'.id] new strategies updated := by
  unfold replaceStrategy at h
  rw [List.forall₂_map_left_iff] at h
  refine h.imp fun s b hsb => ?_
  obtain ⟨hid, hstate⟩ := hsb
  rw [hid, hstate]
  by_cases heq : s.id = s'.id
  · rw [if_pos heq, if_pos (List.mem_singleton.mpr heq)]
    exact ⟨heq.symm, hnew⟩
  · rw [if_neg heq, if_neg (fun hmem => heq (List.mem_singleton.mp hmem))]
    exact ⟨rfl, rfl⟩

theorem redistributeAllocation_keeps {strategies updated : List Strategy} {excludeId : String}
    {freedAllocation : ℚ}
    (h : redistributeAllocation strategies excludeId freedAllocation = .ok updated) :
    List.Forall₂ (fun a b => b.id = a.id ∧ b.state = a.state) strategies updated := by
  unfold redistributeAllocation at h
  dsimp only at h
  split at h
  · cases h
    exact List.forall₂_same.mpr fun _ _ => ⟨rfl, rfl⟩
  · refine (mapM_ok_iff.mp h).imp fun s s' hs => ?_
    split at hs
    · rw [parseStrategy_ok hs]
      exact ⟨rfl, rfl⟩
    · cases hs
      exact ⟨rfl, rfl⟩

/-- An activation moves candidates. -/
theorem activateMultiple_moves {goalId : String} {strategies updated activated : List Strategy}
    {ids : List String} {ctx : ActivationContext}
    (hnodup : (strategies.map (·.id)).Nodup)
    (h : activateMultiple goalId strategies ids ctx = .ok (updated, activated)) :
    Moves ids .active strategies updated ∧
      ∀ s ∈ strategies, s.id ∈ ids → s.state = .candidate := by
  unfold activateMultiple at h
  split at h
  · cases h
  · obtain ⟨waitBaselines, hchecks, h⟩ := bind_ok_iff.mp h
    obtain ⟨updated', hmap, heq⟩ := bind_ok_iff.mp h
    cases heq
    constructor
    · refine (mapM_ok_iff.mp hmap).imp fun s s' hs => ?_
      split at hs
      · next hmem =>
        rw [parseStrategy_ok hs, if_pos hmem]
        exact ⟨rfl, rfl⟩
      · next hmem =>
        cases hs
        exact ⟨rfl, (if_neg hmem).symm⟩
    · -- the check of its id finds the strategy itself, for no other has the id
      intro s hs hmem
      obtain ⟨baselines, hbaselines, -⟩ := map_ok_iff.mp hchecks
      obtain ⟨baseline, -, hcheck⟩ := mapM_ok_mem hbaselines hmem
      unfold checkActivation at hcheck
      split at hcheck
      · cases hcheck
      · next found hfind =>
        obtain rfl : found = s := eq_of_id_eq hnodup (List.mem_of_find?_eq_some hfind) hs
          (found_id hfind)
        split at hcheck
        · cases hcheck
        · next hstate => exact not_not.mp hstate

section

variable {p : Portfolio} {id : String} {updated : List Strategy} {s' : Strategy}

/-- The strategy that is found under an id is the only one that has it. -/
theorem found_unique {strategy s : Strategy}
    (hfind : p.strategies.find? (·.id == id) = some strategy) (hs : s ∈ p.strategies)
    (hid : s.id ∈ [id]) : s = strategy := by
  refine eq_of_id_eq p.ids_nodup hs (List.mem_of_find?_eq_some hfind) ?_
  rw [List.mem_singleton.mp hid, found_id hfind]

theorem terminateStrategy_moves {now : String}
    (h : terminateStrategy p.goal_id p.strategies id now = .ok (updated, s')) :
    Moves [id] .terminated p.strategies updated := by
  obtain ⟨strategy, hfind, hid, hstate, hl⟩ := terminateStrategy_ok h
  rw [← found_id hfind, ← hid]
  exact moves_replace hstate (redistributeAllocation_keeps hl)

theorem suspendStrategy_moves
    (h : suspendStrategy p.goal_id p.strategies id = .ok (updated, s')) :
    Moves [id] .suspended p.strategies updated := by
  obtain ⟨strategy, hfind, -, hid, hstate, hl⟩ := suspendStrategy_ok h
  rw [← found_id hfind, ← hid]
  exact moves_replace hstate (redistributeAllocation_keeps hl)

theorem resumeStrategy_moves {allocation : ℚ}
    (h : resumeStrategy p.goal_id p.strategies id allocation = .ok (updated, s')) :
    Moves [id] .active p.strategies updated ∧
      ∀ s ∈ p.strategies, s.id ∈ [id] → s.state = .suspended := by
  obtain ⟨strategy, hfind, hsuspended, hid, hstate, -, hl⟩ := resumeStrategy_ok h
  constructor
  · refine (mapM_ok_iff.mp hl).imp fun s b hs => ?_
    split at hs
    · next heq =>
      cases hs
      rw [if_pos (List.mem_singleton.mpr heq), hid, found_id hfind, heq]
      exact ⟨rfl, hstate⟩
    · next hne =>
      rw [if_neg (fun hmem => hne (List.mem_singleton.mp hmem))]
      split at hs
      · rw [parseStrategy_ok hs]
        exact ⟨rfl, rfl⟩
      · cases hs
        exact ⟨rfl, rfl⟩
  · intro s hs hmem
    rw [found_unique hfind hs hmem]
    exact hsuspended

theorem updateState_moves {newState : StrategyState} {effectiveness_score : Option ℚ}
    {now : String}
    (h : updateState p.strategies id newState effectiveness_score now = .ok (updated, s')) :
    Moves [id] newState p.strategies updated ∧
      ∀ s ∈ p.strategies, s.id ∈ [id] → newState ∈ VALID_TRANSITIONS s.state := by
  obtain ⟨strategy, hfind, hvalid, hid, hstate, -, rfl⟩ := updateState_ok h
  constructor
  · rw [← found_id hfind, ← hid]
    exact moves_replace hstate (List.forall₂_same.mpr fun _ _ => ⟨rfl, rfl⟩)
  · intro s hs hmem
    rw [found_unique hfind hs hmem]
    exact hvalid

end

/-! ## Which changes are allowed -/

/-- A change that is listed in the table, or the suspension of an active strategy; `active`
says which states count as active for a suspension. -/
def Allowed (active : StrategyState → Bool) (old new : StrategyState) : Prop :=
  new ∈ VALID_TRANSITIONS old ∨ active old = true ∧ new = .suspended

instance (active : StrategyState → Bool) (old new : StrategyState) :
    Decidable (Allowed active old new) :=
  inferInstanceAs (Decidable (_ ∨ _))

/-- Every strategy is still there, in its state or after an allowed change. -/
def OnlyAllowed (active : StrategyState → Bool) (p p' : Portfolio) : Prop :=
  ∀ s ∈ p.strategies, ∃ s' ∈ p'.strategies, s'.id = s.id ∧
    (s'.state = s.state ∨ Allowed active s.state s'.state)

/-- Every strategy that is completed or terminated is still there, in its state. -/
def FinishedStay (p p' : Portfolio) : Prop :=
  ∀ s ∈ p.strategies, s.state = .completed ∨ s.state = .terminated →
    ∃ s' ∈ p'.strategies, s'.id = s.id ∧ s'.state = s.state

instance (p p' : Portfolio) : Decidable (FinishedStay p p') :=
  inferInstanceAs (Decidable (∀ s ∈ _, _))

/-- **The law of a run**: its operations make only allowed changes, and what is finished at
one point of it is so at every later point. -/
structure Lawful (active : StrategyState → Bool) (p : Portfolio)
    (operations : List (Operation × Except StrategyError (List Strategy))) : Prop where
  allowed : managerLTS.Always p operations fun m l => OnlyAllowed active m (operate m l.1).1
  finished : ∀ before between after m m', operations = before ++ between ++ after →
    managerLTS.Run p before m → managerLTS.Run m between m' → FinishedStay m m'

/-! ## The operations that break the law -/

/-- A termination is of a strategy that was running or suspended (or is terminated already),
unless it throws. -/
def TerminatesStarted (p : Portfolio) : Operation → Prop
  | .call (.terminateStrategy id _) => ∀ s ∈ p.strategies.find? (·.id == id),
      s.state ≠ .candidate ∧ s.state ≠ .completed ∨ Overflows p id s.allocation
  | _ => True

/-- A suspension is of an active strategy, unless it throws. -/
def SuspendsActive (active : StrategyState → Bool) (p : Portfolio) : Operation → Prop
  | .call (.suspendStrategy id) => ∀ s ∈ p.strategies.find? (·.id == id),
      active s.state = true ∨ s.state.running = false ∨ Overflows p id s.allocation
  | _ => True

section

variable {active : StrategyState → Bool} {p p' : Portfolio}

theorem OnlyAllowed.refl (p : Portfolio) : OnlyAllowed active p p :=
  fun s hs => ⟨s, hs, rfl, .inl rfl⟩

/-- Strategies that move to one state make an allowed change each, or stay in it. -/
theorem Moves.allowed_iff {ids : List String} {new : StrategyState}
    (h : Moves ids new p.strategies p'.strategies) :
    OnlyAllowed active p p' ↔
      ∀ s ∈ p.strategies, s.id ∈ ids → new = s.state ∨ Allowed active s.state new := by
  constructor
  · intro hallowed s hs hmem
    obtain ⟨a, ha, haid, hstate⟩ := hallowed s hs
    obtain ⟨b, hb, hbid, hnew⟩ := h.mem hs
    rw [if_pos hmem] at hnew
    obtain rfl := eq_of_id_eq p'.ids_nodup ha hb (haid.trans hbid.symm)
    rwa [hnew] at hstate
  · intro hall s hs
    obtain ⟨s', hs', hid, hstate⟩ := h.mem hs
    refine ⟨s', hs', hid, ?_⟩
    rw [hstate]
    by_cases hmem : s.id ∈ ids
    · rw [if_pos hmem]
      exact hall s hs hmem
    · rw [if_neg hmem]
      exact .inl rfl

/-- The states from which a termination is listed, and the state it leads to. -/
theorem terminated_allowed_iff {old : StrategyState} :
    StrategyState.terminated = old ∨ Allowed active old .terminated ↔
      old ≠ .candidate ∧ old ≠ .completed := by
  cases old <;> simp [Allowed, VALID_TRANSITIONS]

/-- The states from which a suspension is allowed, for a strategy that is running. -/
theorem suspended_allowed_iff {old : StrategyState} (hrunning : old.running = true) :
    StrategyState.suspended = old ∨ Allowed active old .suspended ↔ active old = true := by
  cases old <;> simp_all [Allowed, VALID_TRANSITIONS, StrategyState.running]

theorem perform_ok {call : Call} {updated answer : List Strategy}
    (h : call.run p.goal_id p.strategies = .ok (updated, answer)) :
    (perform p call).1.strategies = updated := by
  unfold perform
  split
  · next updated' answer' h' =>
    rw [h] at h'
    cases h'
    rfl
  · next e h' =>
    rw [h] at h'
    cases h'

theorem perform_error {call : Call} {e : StrategyError}
    (h : call.run p.goal_id p.strategies = .error e) : (perform p call).1 = p := by
  unfold perform
  split
  · next updated' answer' h' =>
    rw [h] at h'
    cases h'
  · rfl

/-- A call whose changes are listed whenever it returns makes only allowed changes. -/
theorem perform_allowed {call : Call} (h : ∀ updated answer,
    call.run p.goal_id p.strategies = .ok (updated, answer) →
      ∃ ids new, Moves ids new p.strategies updated ∧
        ∀ s ∈ p.strategies, s.id ∈ ids → new ∈ VALID_TRANSITIONS s.state) :
    OnlyAllowed active p (perform p call).1 := by
  cases hrun : call.run p.goal_id p.strategies with
  | error e =>
    rw [perform_error hrun]
    exact OnlyAllowed.refl p
  | ok result =>
    obtain ⟨ids, new, hmoves, hlisted⟩ := h result.1 result.2 hrun
    rw [← perform_ok hrun] at hmoves
    exact hmoves.allowed_iff.mpr fun s hs hmem => .inr (.inl (hlisted s hs hmem))

theorem activateMultiple_listed {goalId : String} {strategies updated activated : List Strategy}
    {ids : List String} {ctx : ActivationContext} (hnodup : (strategies.map (·.id)).Nodup)
    (h : activateMultiple goalId strategies ids ctx = .ok (updated, activated)) :
    ∃ ids new, Moves ids new strategies updated ∧
      ∀ s ∈ strategies, s.id ∈ ids → new ∈ VALID_TRANSITIONS s.state := by
  obtain ⟨hmoves, hcandidates⟩ := activateMultiple_moves hnodup h
  refine ⟨ids, .active, hmoves, fun s hs hmem => ?_⟩
  rw [hcandidates s hs hmem]
  decide

/-- **A termination makes an allowed change exactly when it is of a strategy that was started
and is not completed**, or throws. -/
theorem terminate_allowed_iff (id now : String) :
    OnlyAllowed active p (perform p (.terminateStrategy id now)).1 ↔
      TerminatesStarted p (.call (.terminateStrategy id now)) := by
  cases hrun : terminateStrategy p.goal_id p.strategies id now with
  | error e =>
    rw [perform_error (show Call.run _ _ _ = .error e by rw [Call.run, hrun]; rfl)]
    refine iff_of_true (OnlyAllowed.refl p) fun s hs => .inr ?_
    exact (terminate_throws_iff now hs).mp ⟨e, hrun⟩
  | ok result =>
    have hmoves := terminateStrategy_moves hrun
    have hcall : (Call.terminateStrategy id now).run p.goal_id p.strategies =
        .ok (result.1, [result.2]) := map_ok_iff.mpr ⟨result, hrun, rfl⟩
    rw [← perform_ok hcall] at hmoves
    rw [hmoves.allowed_iff]
    constructor
    · intro hall s hs
      have hid : s.id ∈ [id] := List.mem_singleton.mpr (found_id hs)
      exact .inl (terminated_allowed_iff.mp (hall s (List.mem_of_find?_eq_some hs) hid))
    · intro hcond s hs hmem
      obtain ⟨strategy, hfind, -⟩ := terminateStrategy_ok hrun
      obtain rfl := found_unique hfind hs hmem
      rcases hcond s hfind with hstarted | hoverflows
      · exact terminated_allowed_iff.mpr hstarted
      · obtain ⟨e, herror⟩ := (terminate_throws_iff now hfind).mpr hoverflows
        rw [hrun] at herror
        cases herror

/-- **A suspension makes an allowed change exactly when it is of an active strategy**, or
throws. -/
theorem suspend_allowed_iff (id : String) :
    OnlyAllowed active p (perform p (.suspendStrategy id)).1 ↔
      SuspendsActive active p (.call (.suspendStrategy id)) := by
  cases hrun : suspendStrategy p.goal_id p.strategies id with
  | error e =>
    rw [perform_error (show Call.run _ _ _ = .error e by rw [Call.run, hrun]; rfl)]
    refine iff_of_true (OnlyAllowed.refl p) fun s hs => .inr ?_
    cases hrunning : s.state.running with
    | false => exact .inl rfl
    | true => exact .inr ((suspend_throws_iff hs hrunning).mp ⟨e, hrun⟩)
  | ok result =>
    obtain ⟨strategy, hfind, hrunning, -⟩ := suspendStrategy_ok hrun
    have hmoves := suspendStrategy_moves hrun
    have hcall : (Call.suspendStrategy id).run p.goal_id p.strategies =
        .ok (result.1, [result.2]) := map_ok_iff.mpr ⟨result, hrun, rfl⟩
    rw [← perform_ok hcall] at hmoves
    rw [hmoves.allowed_iff]
    constructor
    · intro hall s hs
      obtain rfl : strategy = s := Option.some.inj (hfind.symm.trans hs)
      have hid : strategy.id ∈ [id] := List.mem_singleton.mpr (found_id hfind)
      exact .inl ((suspended_allowed_iff hrunning).mp
        (hall strategy (List.mem_of_find?_eq_some hfind) hid))
    · intro hcond s hs hmem
      obtain rfl := found_unique hfind hs hmem
      rcases hcond s hfind with hactive | hstopped | hoverflows
      · exact (suspended_allowed_iff hrunning).mpr hactive
      · rw [hrunning] at hstopped
        cases hstopped
      · obtain ⟨e, herror⟩ := (suspend_throws_iff hfind hrunning).mpr hoverflows
        rw [hrun] at herror
        cases herror

/-- **One operation makes only allowed changes** exactly when it neither terminates a
candidate or a completed strategy nor suspends one that is not active. -/
theorem operate_allowed_iff (operation : Operation) :
    OnlyAllowed active p (operate p operation).1 ↔
      TerminatesStarted p operation ∧ SuspendsActive active p operation := by
  cases operation with
  | generateCandidates candidates =>
    refine iff_of_true (fun s hs => ⟨s, ?_, rfl, .inl rfl⟩) ⟨trivial, trivial⟩
    exact List.mem_append_left _ hs
  | call call =>
    cases call with
    | activateMultiple ids ctx =>
      refine iff_of_true (perform_allowed fun updated answer h => ?_) ⟨trivial, trivial⟩
      exact activateMultiple_listed p.ids_nodup h
    | activateBestCandidate sel ctx =>
      refine iff_of_true (perform_allowed fun updated answer h => ?_) ⟨trivial, trivial⟩
      have h : activateBestCandidate p.goal_id p.strategies sel ctx = .ok (updated, answer) := h
      unfold activateBestCandidate at h
      split at h
      · cases h
      · exact activateMultiple_listed p.ids_nodup h
    | terminateStrategy id now =>
      exact (terminate_allowed_iff id now).trans (iff_self_and.mpr fun _ => trivial)
    | suspendStrategy id =>
      exact (suspend_allowed_iff id).trans (and_iff_right trivial).symm
    | resumeStrategy id allocation =>
      refine iff_of_true (perform_allowed fun updated answer h => ?_) ⟨trivial, trivial⟩
      obtain ⟨⟨l, resumed⟩, hcall, heq⟩ := map_ok_iff.mp h
      cases heq
      obtain ⟨hmoves, hsuspended⟩ := resumeStrategy_moves hcall
      refine ⟨[id], .active, hmoves, fun s hs hmem => ?_⟩
      rw [hsuspended s hs hmem]
      decide
    | updateState id newState effectiveness_score now =>
      refine iff_of_true (perform_allowed fun updated answer h => ?_) ⟨trivial, trivial⟩
      obtain ⟨⟨l, s'⟩, hcall, heq⟩ := map_ok_iff.mp h
      cases heq
      obtain ⟨hmoves, hvalid⟩ := updateState_moves hcall
      exact ⟨[id], newState, hmoves, hvalid⟩

end

/-! ## Whole runs -/

section

variable {active : StrategyState → Bool}

theorem FinishedStay.refl (p : Portfolio) : FinishedStay p p := fun s hs _ => ⟨s, hs, rfl, rfl⟩

theorem FinishedStay.trans {a b c : Portfolio} (hab : FinishedStay a b)
    (hbc : FinishedStay b c) : FinishedStay a c := by
  intro s hs hfinished
  obtain ⟨s', hs', hid, hstate⟩ := hab s hs hfinished
  obtain ⟨s'', hs'', hid', hstate'⟩ := hbc s' hs' (by rwa [hstate])
  exact ⟨s'', hs'', hid'.trans hid, hstate'.trans hstate⟩

/-- No allowed change is from a state that is finished, when a finished one is not active. -/
theorem OnlyAllowed.finishedStay (hactive : ∀ s, active s = true → s.running = true)
    {p p' : Portfolio} (h : OnlyAllowed active p p') : FinishedStay p p' := by
  intro s hs hfinished
  obtain ⟨s', hs', hid, hstate⟩ := h s hs
  refine ⟨s', hs', hid, hstate.resolve_right ?_⟩
  rintro (hlisted | ⟨hrunning, -⟩)
  · rcases hfinished with hfinished | hfinished <;> rw [hfinished] at hlisted <;> cases hlisted
  · have hrunning := hactive _ hrunning
    rcases hfinished with hfinished | hfinished <;> rw [hfinished] at hrunning <;> cases hrunning

/-- A run whose operations make only allowed changes is lawful. -/
theorem lawful_iff_allowed (hactive : ∀ s, active s = true → s.running = true) {p₀ : Portfolio}
    {operations : List (Operation × Except StrategyError (List Strategy))} :
    Lawful active p₀ operations ↔
      managerLTS.Always p₀ operations fun m l => OnlyAllowed active m (operate m l.1).1 := by
  constructor
  · exact fun h => h.allowed
  · intro hallowed
    refine ⟨hallowed, ?_⟩
    rintro before between after m m' rfl hbefore hbetween
    -- by induction on the steps in between
    refine hbetween.guarded (FinishedStay.refl m) (hallowed.take.drop hbefore) ?_
    intro a l b hab hstep hstay
    have hab : operate a l.1 = (b, l.2) := hab
    rw [hab] at hstep
    exact hstay.trans (hstep.finishedStay hactive)

/-- The steps of a sequence of operations. -/
abbrev history (p₀ : Portfolio) (operations : List Operation) :
    List (Operation × Except StrategyError (List Strategy)) :=
  (LTS.exec operate p₀ operations).1

/-- **The states of a run follow the table exactly when no operation of it terminates a
candidate or a completed strategy**, where the suspension of an active strategy is that of
one that is active or is being evaluated; and, where it is that of one in the state `active`
only, when besides no operation suspends one that is being evaluated. -/
theorem lawful_iff (p₀ : Portfolio) (operations : List Operation) :
    (Lawful (·.running) p₀ (history p₀ operations) ↔
      managerLTS.Always p₀ (history p₀ operations) fun m l => TerminatesStarted m l.1) ∧
    (Lawful (· == .active) p₀ (history p₀ operations) ↔
      managerLTS.Always p₀ (history p₀ operations) fun m l =>
        TerminatesStarted m l.1 ∧ SuspendsActive (· == .active) m l.1) := by
  constructor
  · rw [lawful_iff_allowed fun s h => h]
    have hsuspends : ∀ m operation, SuspendsActive (·.running) m operation := by
      intro m operation
      unfold SuspendsActive
      split
      · intro s _
        cases hrunning : s.state.running with
        | true => exact .inl hrunning
        | false => exact .inr (.inl rfl)
      · trivial
    simp only [LTS.Always, operate_allowed_iff, and_iff_left (hsuspends _ _)]
  · have hactive : ∀ s : StrategyState, (s == .active) = true → s.running = true := by
      intro s hs
      rw [beq_iff_eq.mp hs]
      rfl
    rw [lawful_iff_allowed hactive]
    simp only [LTS.Always, operate_allowed_iff]

end

/-! ## A sample run -/

/-- A candidate is generated, activated and completed. -/
def sampleOperations : List Operation :=
  [.generateCandidates [⟨sampleCandidate "d", rfl⟩],
    .call (.activateMultiple ["d"] sampleContext),
    .call (.updateState "d" .completed none "3")]

/-- **A strategy that is completed changes its state again**: a termination makes it one
that is terminated. -/
theorem completed_terminates :
    ¬ Lawful (·.running) samplePortfolio
      (history samplePortfolio (sampleOperations ++ [.call (.terminateStrategy "d" "4")])) := by
  intro h
  rw [history, LTS.exec_append] at h
  have hstay := h.finished _ _ [] _ _ (List.append_nil _).symm
    (LTS.run_exec operate samplePortfolio sampleOperations) (LTS.run_exec ..)
  exact absurd hstay (by decide +kernel)

end PulSeed.StrategyManager
