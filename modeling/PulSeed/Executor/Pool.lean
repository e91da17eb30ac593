import PulSeed.Executor.System

/-!
# The worker pool of a supervisor

`Wired` says how the members of a supervisor hang together in every reachable
state: which goals are active on which workers, that the workers a poll may still
assign are free, that a goal has one execution. It holds whatever the stores
answer, through crashes, shutdown and replacement of the workers.
-/

namespace PulSeed.Executor

open Queue GoalLease

/-- The workers the poll may still assign. -/
def Poll.candidates : Poll → List WorkerId
  | .none | .stopping _ => []
  | .claimed w _ rest | .acquiring w _ _ rest | .acquired w _ _ rest => w :: rest
  | .coalescing _ rest | .settling rest => rest

/-- The activation for which the poll acquires a lease. -/
def Poll.target : Poll → Option Activation
  | .acquiring _ a _ _ | .acquired _ a _ _ => some a
  | _ => Option.none

/-- The activation a poll deals with. -/
def Poll.dispatch : Poll → Option Activation
  | .claimed _ dispatch _ => dispatch
  | .coalescing a _ | .acquiring _ a _ _ | .acquired _ a _ _ => some a
  | _ => Option.none

/-- A lookup after one entry has been set. -/
theorem update_cases {executions : WorkerId → Option Execution} {w w' : WorkerId}
    {e? : Option Execution} {e : Execution}
    (h : Function.update executions w e? w' = some e) :
    w' = w ∧ e? = some e ∨ w' ≠ w ∧ executions w' = some e := by
  by_cases hww : w' = w
  · subst hww
    rw [Function.update_self] at h
    exact .inl ⟨rfl, h⟩
  · rw [Function.update_of_ne hww] at h
    exact .inr ⟨hww, h⟩

/-- How the members of a supervisor hang together. -/
structure Wired (k : Core) : Prop where
  nodup : k.workers.Nodup
  active : k.running = true → ∀ w e, k.executions w = some e →
    k.activeGoals.get? e.activation.goalId = some w
  owned : ∀ g w, k.activeGoals.get? g = some w →
    ∃ e, k.executions w = some e ∧ e.activation.goalId = g
  goals : ∀ w w' e e', k.executions w = some e → k.executions w' = some e' →
    e.activation.goalId = e'.activation.goalId → w = w'
  candidates_nodup : k.poll.candidates.Nodup
  candidates_free : ∀ w ∈ k.poll.candidates, k.executions w = none
  target_free : ∀ a, k.poll.target = some a → k.activeGoals.get? a.goalId = none
  aborted : k.aborted = true → k.running = false
  /-- The identities still to be given out are new. -/
  made : ∀ w, w ∈ k.workers ∨ w ∈ k.poll.candidates ∨ k.executions w ≠ none → w < k.nextWorker

theorem wired_start (cfg : SupervisorConfig) (crashCounts : ObjectMap String Nat) :
    Wired (Supervisor.start cfg crashCounts).core where
  nodup := List.nodup_range
  active _ _ _ h := by cases h
  owned _ _ h := by cases h
  goals _ _ _ _ h := by cases h
  candidates_nodup := List.nodup_nil
  candidates_free _ h := by cases h
  target_free _ h := by cases h
  aborted h := by cases h
  made w h := by
    rcases h with hw | hw | hw
    · exact List.mem_range.mp hw
    · cases hw
    · exact absurd rfl hw

/-! ## What keeps the wiring -/

section

variable {k : Core} {p : Poll}

/-- The poll goes on with fewer candidates. -/
theorem Wired.setPoll (h : Wired k) (hsub : p.candidates.Sublist k.poll.candidates)
    (htarget : ∀ a, p.target = some a → k.activeGoals.get? a.goalId = none)
    (worker : WorkerId → GoalWorker) : Wired { k with worker := worker, poll := p } where
  nodup := h.nodup
  active := h.active
  owned := h.owned
  goals := h.goals
  candidates_nodup := h.candidates_nodup.sublist hsub
  candidates_free w hw := h.candidates_free w (hsub.subset hw)
  target_free := htarget
  aborted := h.aborted
  made w hw := h.made w (hw.imp_right (Or.imp_left fun hmem => hsub.subset hmem))

/-- An execution goes on with the same activation. -/
theorem Wired.setExecution (h : Wired k) {w : WorkerId} {e e' : Execution}
    (hexec : k.executions w = some e) (hact : e'.activation = e.activation)
    (worker : WorkerId → GoalWorker) :
    Wired { k with
      worker := worker, executions := Function.update k.executions w (some e') } := by
  have hback : ∀ {w' e''}, Function.update k.executions w (some e') w' = some e'' →
      ∃ e₀, k.executions w' = some e₀ ∧ e₀.activation = e''.activation := by
    intro w' e'' hw'
    rcases update_cases hw' with ⟨rfl, he⟩ | ⟨-, he⟩
    · cases he
      exact ⟨e, hexec, hact.symm⟩
    · exact ⟨e'', he, rfl⟩
  refine ⟨h.nodup, ?_, ?_, ?_, h.candidates_nodup, ?_, h.target_free, h.aborted, ?_⟩
  · intro hrun w' e'' hw'
    obtain ⟨e₀, he₀, hact₀⟩ := hback hw'
    exact hact₀ ▸ h.active hrun w' e₀ he₀
  · intro g w' hg
    obtain ⟨e₀, he₀, hgoal⟩ := h.owned g w' hg
    by_cases hww : w' = w
    · subst hww
      obtain rfl : e₀ = e := Option.some.inj (he₀.symm.trans hexec)
      exact ⟨e', Function.update_self .., hact ▸ hgoal⟩
    · exact ⟨e₀, (Function.update_of_ne hww _ _).trans he₀, hgoal⟩
  · intro w₁ w₂ e₁ e₂ h₁ h₂ hgoal
    obtain ⟨f₁, hf₁, ha₁⟩ := hback h₁
    obtain ⟨f₂, hf₂, ha₂⟩ := hback h₂
    exact h.goals w₁ w₂ f₁ f₂ hf₁ hf₂ (by rw [ha₁, ha₂, hgoal])
  · intro w' hw'
    have hfree := h.candidates_free w' hw'
    have hww : w' ≠ w := by
      rintro rfl
      rw [hexec] at hfree
      cases hfree
    exact (Function.update_of_ne hww _ _).trans hfree
  · intro w' hw'
    refine h.made w' (hw'.imp_right (Or.imp_right fun hne hnone => hne ?_))
    have hww : w' ≠ w := by
      rintro rfl
      rw [hexec] at hnone
      cases hnone
    exact (Function.update_of_ne hww _ _).trans hnone

/-- A goal is taken off the active goals, when nothing requires it there. -/
theorem Wired.deactivate (h : Wired k) (hstopped : k.running = false) (g : String) :
    Wired { k with activeGoals := k.activeGoals.delete g } where
  nodup := h.nodup
  active hrun := by
    rw [hstopped] at hrun
    cases hrun
  owned g' w hw := by
    rw [ObjectMap.get?_delete] at hw
    split at hw
    · cases hw
    · exact h.owned g' w hw
  goals := h.goals
  candidates_nodup := h.candidates_nodup
  candidates_free := h.candidates_free
  target_free a ha := by
    rw [ObjectMap.get?_delete, h.target_free a ha, ite_self]
  aborted := h.aborted
  made := h.made

/-- An execution ends, and its goal is no longer active. -/
theorem Wired.finish (h : Wired k) {w : WorkerId} {e : Execution}
    (hexec : k.executions w = some e) :
    Wired { k with
      activeGoals := k.activeGoals.delete e.activation.goalId
      executions := Function.update k.executions w none } := by
  have hback : ∀ {w' e'}, Function.update k.executions w none w' = some e' →
      w' ≠ w ∧ k.executions w' = some e' := by
    intro w' e' hw'
    rcases update_cases hw' with ⟨-, he⟩ | hold
    · cases he
    · exact hold
  refine ⟨h.nodup, ?_, ?_, ?_, h.candidates_nodup, ?_, ?_, h.aborted, ?_⟩
  · intro hrun w' e' hw'
    obtain ⟨hww, he'⟩ := hback hw'
    have hgoal : e'.activation.goalId ≠ e.activation.goalId := fun hgoal =>
      hww (h.goals w' w e' e he' hexec hgoal)
    rw [ObjectMap.get?_delete, if_neg hgoal]
    exact h.active hrun w' e' he'
  · intro g w' hg
    rw [ObjectMap.get?_delete] at hg
    split at hg
    · cases hg
    · next hne =>
      obtain ⟨e', he', hgoal⟩ := h.owned g w' hg
      have hww : w' ≠ w := by
        rintro rfl
        obtain rfl : e' = e := Option.some.inj (he'.symm.trans hexec)
        exact hne hgoal.symm
      exact ⟨e', (Function.update_of_ne hww _ _).trans he', hgoal⟩
  · intro w₁ w₂ e₁ e₂ h₁ h₂ hgoal
    exact h.goals w₁ w₂ e₁ e₂ (hback h₁).2 (hback h₂).2 hgoal
  · intro w' hw'
    by_cases hww : w' = w
    · subst hww
      exact Function.update_self ..
    · exact (Function.update_of_ne hww _ _).trans (h.candidates_free w' hw')
  · intro a ha
    rw [ObjectMap.get?_delete, h.target_free a ha, ite_self]
  · intro w' hw'
    refine h.made w' (hw'.imp_right (Or.imp_right fun hne hnone => hne ?_))
    by_cases hww : w' = w
    · subst hww
      exact Function.update_self ..
    · exact (Function.update_of_ne hww _ _).trans hnone

/-- The goal of a granted lease becomes active on a free worker. -/
theorem Wired.assign (h : Wired k) {w : WorkerId} {a : Activation} {rest : List WorkerId}
    (hpoll : k.poll = .acquired w a true rest) (hrun : k.running = true)
    (hsub : p.candidates.Sublist rest) (htarget : p.target = none) :
    Wired { k with
      activeGoals := k.activeGoals.set a.goalId w
      executions := Function.update k.executions w (some { activation := a })
      poll := p } := by
  have hcandidates : k.poll.candidates = w :: rest := by rw [hpoll]; rfl
  have hfree : k.activeGoals.get? a.goalId = none := h.target_free a (by rw [hpoll]; rfl)
  have hw : k.executions w = none := h.candidates_free w (by rw [hcandidates]; simp)
  obtain ⟨hnot, hnodup⟩ := List.nodup_cons.mp (hcandidates ▸ h.candidates_nodup)
  -- an execution of the goal would make it active
  have hother : ∀ w' e', k.executions w' = some e' → e'.activation.goalId ≠ a.goalId := by
    intro w' e' he' hgoal
    have hactive := h.active hrun w' e' he'
    rw [hgoal, hfree] at hactive
    cases hactive
  have hback : ∀ {w' e'}, Function.update k.executions w (some { activation := a }) w' = some e' →
      w' = w ∧ e'.activation = a ∨ w' ≠ w ∧ k.executions w' = some e' := by
    intro w' e' hw'
    rcases update_cases hw' with ⟨hww, he⟩ | hold
    · cases he
      exact .inl ⟨hww, rfl⟩
    · exact .inr hold
  refine ⟨h.nodup, ?_, ?_, ?_, hnodup.sublist hsub, ?_, ?_, h.aborted, ?_⟩
  · intro _ w' e' hw'
    rcases hback hw' with ⟨rfl, hact⟩ | ⟨-, he'⟩
    · rw [hact]
      exact ObjectMap.get?_set_self ..
    · rw [ObjectMap.get?_set, if_neg (hother w' e' he')]
      exact h.active hrun w' e' he'
  · intro g w' hg
    rw [ObjectMap.get?_set] at hg
    split at hg
    · next hga =>
      obtain rfl := Option.some.inj hg
      exact ⟨{ activation := a }, Function.update_self .., hga.symm⟩
    · obtain ⟨e', he', hgoal⟩ := h.owned g w' hg
      have hww : w' ≠ w := by
        rintro rfl
        rw [hw] at he'
        cases he'
      exact ⟨e', (Function.update_of_ne hww _ _).trans he', hgoal⟩
  · intro w₁ w₂ e₁ e₂ h₁ h₂ hgoal
    rcases hback h₁ with ⟨rfl, ha₁⟩ | ⟨-, he₁⟩
    · rcases hback h₂ with ⟨rfl, -⟩ | ⟨-, he₂⟩
      · rfl
      · exact absurd (hgoal.symm.trans (congrArg Activation.goalId ha₁)) (hother w₂ e₂ he₂)
    · rcases hback h₂ with ⟨rfl, ha₂⟩ | ⟨-, he₂⟩
      · exact absurd (hgoal.trans (congrArg Activation.goalId ha₂)) (hother w₁ e₁ he₁)
      · exact h.goals w₁ w₂ e₁ e₂ he₁ he₂ hgoal
  · intro w' hw'
    have hmem := hsub.subset hw'
    have hww : w' ≠ w := fun heq => hnot (heq ▸ hmem)
    exact (Function.update_of_ne hww _ _).trans
      (h.candidates_free w' (by rw [hcandidates]; exact List.mem_cons_of_mem _ hmem))
  · intro b hb
    rw [htarget] at hb
    cases hb
  · intro w' hw'
    by_cases hww : w' = w
    · subst hww
      exact h.made w' (.inr (.inl (by rw [hcandidates]; exact List.mem_cons_self ..)))
    · refine h.made w' (hw'.imp_right (Or.imp (fun hmem => ?_) fun hne hnone => hne ?_))
      · rw [hcandidates]
        exact List.mem_cons_of_mem _ (hsub.subset hmem)
      · exact (Function.update_of_ne hww _ _).trans hnone

end

/-! ## Every move keeps the wiring -/

theorem PollMove.candidates {p p' : Poll} (h : PollMove p p') :
    p'.candidates.Sublist p.candidates := by
  cases h with
  | ended => exact List.nil_sublist _
  | dropped w a rest => exact List.sublist_cons_self _ _
  | answered w a now granted rest => exact List.Sublist.refl _
  | refused w a rest => exact List.sublist_cons_self _ _
  | stopped w a rest => exact List.nil_sublist _

theorem PollMove.target {p p' : Poll} (h : PollMove p p') {a : Activation}
    (ha : p'.target = some a) : p.target = some a := by
  cases h with
  | answered => exact ha
  | _ => cases ha

theorem PollMove.dispatch {p p' : Poll} (h : PollMove p p') {a : Activation}
    (ha : p'.dispatch = some a) : p.dispatch = some a := by
  cases h with
  | answered => exact ha
  | _ => cases ha

theorem ClaimsNext.candidates {m : Moment} {rest : List WorkerId} {events : List Event} {p : Poll}
    (h : ClaimsNext m rest events p) : p.candidates.Sublist rest ∧ p.target = none := by
  cases h with
  | ended => exact ⟨List.nil_sublist _, rfl⟩
  | claimed hrest => exact ⟨hrest ▸ List.Sublist.refl _, rfl⟩

theorem ClaimsNext.dispatch {m : Moment} {rest : List WorkerId} {events : List Event} {p : Poll}
    (h : ClaimsNext m rest events p) {a : Activation} (ha : p.dispatch = some a) :
    dispatchOf a.claim = some a ∧ ∃ event ∈ events, event.Claims a.claim := by
  cases h with
  | ended => cases ha
  | @claimed w rest' call c hrest hop htoken =>
    obtain ⟨c', rfl, hdispatch⟩ := Option.bind_eq_some_iff.mp ha
    obtain ⟨g, hgoal, rfl⟩ := Option.map_eq_some_iff.mp hdispatch
    exact ⟨hdispatch, _, List.mem_singleton_self _, call, _, rfl, rfl⟩

/-- A worker that a poll finds idle and unassigned has no execution. -/
theorem Wired.idle_free {s : Supervisor} (h : Wired s.core) (hrun : s.running = true)
    {w : WorkerId} (hw : s.hasAssignedGoal w = false) : s.executions w = none := by
  cases hexec : s.executions w with
  | none => rfl
  | some e =>
    exfalso
    have hmem := ObjectMap.mem_entries_iff.mpr (h.active hrun w e hexec)
    have := List.any_eq_false.mp hw _ hmem
    simp at this

theorem settled_candidates {p : Poll} {rest l : List WorkerId}
    (h : p = .none ∨ p = .settling rest) (hsub : rest.Sublist l) :
    p.candidates.Sublist l ∧ p.target = none := by
  rcases h with rfl | rfl
  · exact ⟨List.nil_sublist _, rfl⟩
  · exact ⟨hsub, rfl⟩

/-- **Every segment keeps the wiring.** -/
theorem Move.wired {cfg : Config} {m : Moment} {s : Supervisor} {action : Action} {events : List Event}
    {k : Core} (hmove : Move cfg m s action events k) (h : Wired s.core) : Wired k := by
  have hnone : ∀ {p : Poll}, p.target = none →
      ∀ a, p.target = some a → s.core.activeGoals.get? a.goalId = none := by
    intro p hp a ha
    rw [hp] at ha
    cases ha
  cases hmove with
  | quiet => exact h
  | poll _ hp => exact h.setPoll hp.candidates (fun a ha => h.target_free a (hp.target ha)) _
  | @acquire w a rest hpoll hfree =>
    refine h.setPoll ?_ (fun b hb => ?_) _
    · show (w :: rest).Sublist s.poll.candidates
      rw [hpoll]
      exact List.Sublist.refl _
    · cases hb
      exact hfree
  | next hrest hnext =>
    obtain ⟨hsub, htarget⟩ := hnext.candidates
    rcases hrest with hpoll | ⟨hpoll, hrun, rfl⟩
    · refine h.setPoll ?_ (hnone htarget) _
      rw [show s.core.poll = _ from hpoll]
      exact hsub
    · -- a new poll: the snapshot is a sublist of the workers
      have hidle : s.idleWorkers.Sublist s.workers := List.filter_sublist
      refine ⟨h.nodup, h.active, h.owned, h.goals, h.nodup.sublist (hsub.trans hidle), ?_,
        hnone htarget, h.aborted, fun w hw => h.made w ?_⟩
      · intro w hw
        have hmem := (List.mem_filter.mp (hsub.subset hw)).2
        exact h.idle_free hrun (by simpa using (Bool.and_eq_true_iff.mp hmem).2)
      · rcases hw with hw | hw | hw
        · exact .inl hw
        · exact .inl ((hsub.trans hidle).subset hw)
        · exact .inr (.inr hw)
  | ackStopped hpoll _ _ hp =>
    obtain ⟨hsub, htarget⟩ := settled_candidates hp (List.sublist_cons_self _ _)
    exact h.setPoll (by rw [show s.core.poll = _ from hpoll]; exact hsub) (hnone htarget) _
  | coalesce _ hpoll _ =>
    refine h.setPoll ?_ (hnone rfl) _
    rw [show s.core.poll = _ from hpoll]
    exact List.sublist_cons_self _ _
  | ackCoalesced hpoll _ hp =>
    obtain ⟨hsub, htarget⟩ := settled_candidates hp (List.Sublist.refl _)
    exact h.setPoll (by rw [show s.core.poll = _ from hpoll]; exact hsub) (hnone htarget) _
  | assign hpoll hrun hnext =>
    obtain ⟨hsub, htarget⟩ := hnext.candidates
    exact h.assign hpoll hrun hsub htarget
  | phase hexec hact _ _ => exact h.setExecution hexec hact _
  | reject _ _ hexec _ => exact h.setExecution hexec (Execution.moveTo_activation ..) _
  | execute hexec _ => exact h.setExecution hexec (Execution.moveTo_activation ..) _
  | iterate hexec _ _ => exact h.setExecution hexec (Execution.moveTo_activation ..) _
  | record _ hexec _ => exact h.setExecution hexec (Execution.moveTo_activation ..) _
  | pause hexec _ _ => exact h.setExecution hexec (Execution.moveTo_activation ..) _
  | fail _ _ hexec _ => exact h.setExecution hexec (Execution.moveTo_activation ..) _
  | finish hexec _ _ => exact h.setExecution hexec (Execution.moveTo_activation ..) _
  | ackCompleted hexec _ _ _ => exact h.setExecution hexec (Execution.moveTo_activation ..) _
  | done hexec _ => exact h.finish hexec
  | shutdown =>
    exact ⟨h.nodup, fun hrun => (by cases hrun), h.owned, h.goals, h.candidates_nodup,
      h.candidates_free, h.target_free, fun _ => rfl, h.made⟩
  | abort hstopped =>
    exact ⟨h.nodup, h.active, h.owned, h.goals, h.candidates_nodup, h.candidates_free,
      h.target_free, fun _ => hstopped, h.made⟩
  | relinquish haborted _ _ => exact h.deactivate (h.aborted haborted) _
  | replace _ _ _ =>
    refine ⟨List.nodup_range', h.active, h.owned, h.goals, h.candidates_nodup,
      h.candidates_free, h.target_free, h.aborted, fun w hw => ?_⟩
    rcases hw with hw | hw
    · exact (List.mem_range'_1.mp hw).2
    · exact Nat.lt_add_right _ (h.made w (.inr hw))

section

variable {ι : Type} [DecidableEq ι] {cfg : SystemConfig ι} {now : Millis}
  {crashCounts : ι → ObjectMap String Nat} {history : List (Label ι)} {world : World ι}

/-- **In every reachable state every supervisor is wired.** -/
theorem SystemRun.wired (h : SystemRun cfg now crashCounts history world) (i : ι) :
    Wired (world.sups i).core := by
  refine LTS.Run.invariant (P := fun world => Wired (world.sups i).core) h (wired_start _ _) ?_
  intro a l b hstep ha
  rcases step_sup hstep i with ⟨hsame, -⟩ | ⟨action, -, hmove⟩
  · rw [hsame]
    exact ha
  · exact hmove.wired ha

end

end PulSeed.Executor
