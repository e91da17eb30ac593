import PulSeed.Permission.WaitPlan

/-!
# One resume per plan

The terminal check of a call is made on the plan it loaded; the save writes whatever is
stored by then. While every save finds a plan that is not terminal yet, or one already
in the state the save writes without being a resume of its own, a plan is resumed at
most once and a terminal state stays (`resumed_once`). Two resumes that load the
approved plan before either saves are both successful (`resumed_twice`).
-/

namespace PulSeed.WaitPlan

/-- The save of a call, when it comes, does not touch a terminal plan: it finds none, or
one in the state it writes, and then it is not a resume. -/
def PlanPhase.DueOn (stored : PermissionWaitPlanRecord) : PlanPhase → Prop
  | .saving record _ => stored.state.isTerminal = true →
      record.state = stored.state ∧ record.state ≠ .resumed
  | _ => True

/-- The condition: every save is due on the stored plan. -/
def SaveDue (s : PlanStore) : PlanStep → Prop
  | .save k => ∀ phase ∈ s.calls[k]?, ∀ stored ∈ s.row, phase.DueOn stored
  | _ => True

instance (stored : PermissionWaitPlanRecord) : (phase : PlanPhase) →
    Decidable (phase.DueOn stored)
  | .saving _ _ => inferInstanceAs (Decidable (_ → _))
  | .loading _ | .expiring _ _ | .returned _ | .threw => instDecidableTrue

instance (s : PlanStore) : (step : PlanStep) → Decidable (SaveDue s step)
  | .save k => inferInstanceAs (Decidable (∀ phase ∈ s.calls[k]?, ∀ stored ∈ s.row,
      phase.DueOn stored))
  | .call _ | .load _ _ => instDecidableTrue

/-! ## What a call saves -/

/-- A successful resume is the result of a save of the state `resumed`, and of no other
call. -/
def PhaseOk : PlanPhase → Prop
  | .saving record result => ∀ r, result = .resumed r → record.state = .resumed
  | _ => True

theorem withEvent_state {record saved : PermissionWaitPlanRecord}
    {auditRefs : Option (List String)} {event : Option PermissionWaitPlanAuditEvent}
    (h : withEvent record auditRefs event = some saved) : saved.state = record.state := by
  obtain ⟨e, -, hparse⟩ := Option.bind_eq_some_iff.mp h
  unfold PermissionWaitPlanRecord.parse at hparse
  split at hparse
  · cases hparse
    rfl
  · cases hparse

/-- A decision does not return a successful resume, except with a save of that state. -/
structure DecisionOk (d : Decision) : Prop where
  phase : PhaseOk d.phase
  notResumed : d.phase.isResumed = false

theorem saving_ok {record : PermissionWaitPlanRecord} {auditRefs : Option (List String)}
    {event : Option PermissionWaitPlanAuditEvent}
    {result : PermissionWaitPlanRecord → PlanResult}
    (h : ∀ saved r, result saved = .resumed r → record.state = .resumed) :
    DecisionOk (saving (withEvent record auditRefs event) result) := by
  unfold saving
  split
  · exact ⟨trivial, rfl⟩
  · next saved hsaved =>
    exact ⟨fun r hr => (withEvent_state hsaved).trans (h saved r hr), rfl⟩

theorem transition_ok {result : Option PermissionWaitPlanRecord → PlanResult}
    (hresult : ∀ record r, result record ≠ .resumed r) (state : PermissionWaitPlanState)
    (input : TransitionInput) (reading : Reading) (row : Option PermissionWaitPlanRecord) :
    DecisionOk (transition result state input reading row) := by
  have hdone : ∀ record, DecisionOk (.done (result record)) := by
    intro record
    refine ⟨trivial, ?_⟩
    show PlanPhase.isResumed (.returned (result record)) = false
    unfold PlanPhase.isResumed
    split
    · next r h => exact absurd (PlanPhase.returned.inj h) (hresult record r)
    · rfl
  cases row with
  | none => exact hdone none
  | some current =>
    unfold transition
    dsimp only
    split
    · exact hdone _
    · split
      · exact hdone _
      · exact saving_ok fun saved r h => absurd h (hresult _ r)

theorem resumeApproved_ok (input : ResumeInput) (reading : Reading)
    (row : Option PermissionWaitPlanRecord) : DecisionOk (resumeApproved input reading row) := by
  cases row with
  | none => exact ⟨trivial, rfl⟩
  | some current =>
    unfold resumeApproved
    dsimp only
    split
    · exact ⟨trivial, rfl⟩
    · split
      · exact ⟨trivial, rfl⟩
      · split
        · exact ⟨trivial, rfl⟩
        · split
          · exact saving_ok fun saved r h => (by cases h)
          · exact saving_ok fun saved r h => rfl

theorem decide_ok {phase : PlanPhase} {row : Option PermissionWaitPlanRecord}
    {reading : Reading} {decision : Decision} (h : phase.decide row reading = some decision) :
    DecisionOk decision := by
  cases phase with
  | loading request =>
    cases request with
    | transition state input =>
      cases h
      exact transition_ok (fun _ _ => (by simp)) state input reading row
    | resumeApproved input =>
      cases h
      exact resumeApproved_ok input reading row
  | expiring loaded input =>
    cases h
    exact transition_ok (fun _ _ => (by simp)) _ input reading row
  | saving record result => cases h
  | returned result => cases h
  | threw => cases h

/-! ## Steps -/

/-- What a step does to the plan and to the resumes: nothing, or a save. -/
theorem step_cases {s s' : PlanStore} {step : PlanStep} (h : planLTS.step s step s') :
    (s'.row = s.row ∧ (s'.calls.countP PlanPhase.isResumed = s.calls.countP PlanPhase.isResumed) ∧
      ∀ phase ∈ s'.calls, phase ∈ s.calls ∨ PhaseOk phase) ∨
    ∃ k record result, step = .save k ∧ s.calls[k]? = some (.saving record result) ∧
      s' = ⟨some record, s.calls.set k (.returned result)⟩ := by
  have h : planStep s step = some s' := h
  cases step with
  | call request =>
    cases h
    refine .inl ⟨rfl, by simp [PlanPhase.isResumed], fun phase hphase => ?_⟩
    rcases List.mem_append.mp hphase with hphase | hphase
    · exact .inl hphase
    · exact .inr (List.mem_singleton.mp hphase ▸ trivial)
  | load k reading =>
    obtain ⟨phase, hphase, h⟩ := Option.bind_eq_some_iff.mp h
    obtain ⟨decision, hdecision, rfl⟩ := Option.map_eq_some_iff.mp h
    have hok := decide_ok hdecision
    have hnot : phase.isResumed = false := by
      cases phase with
      | returned result => cases hdecision
      | _ => rfl
    refine .inl ⟨rfl, ?_, fun phase' hphase' => ?_⟩
    · obtain ⟨hk, hget⟩ := List.getElem?_eq_some_iff.mp hphase
      rw [List.countP_set hk, hget, hnot, hok.notResumed]
      simp
    · rcases List.mem_or_eq_of_mem_set hphase' with hmem | rfl
      · exact .inl hmem
      · exact .inr hok.phase
  | save k =>
    obtain ⟨phase, hphase, h⟩ := Option.bind_eq_some_iff.mp h
    cases phase with
    | saving record result =>
      cases h
      exact .inr ⟨k, record, result, rfl, hphase, rfl⟩
    | _ => cases h

/-! ## Runs -/

/-- At most one resume has succeeded, and after one the plan is `resumed`. -/
structure ResumedOnce (s : PlanStore) : Prop where
  once : s.calls.countP PlanPhase.isResumed ≤ 1
  stored : 0 < s.calls.countP PlanPhase.isResumed → ∃ r, s.row = some r ∧ r.state = .resumed
  calls : ∀ phase ∈ s.calls, PhaseOk phase

/-- A terminal state of the stored plan is kept by a step that meets the condition. -/
theorem step_terminal {s s' : PlanStore} {step : PlanStep} (h : planLTS.step s step s')
    (hdue : SaveDue s step) {r : PermissionWaitPlanRecord} (hrow : s.row = some r)
    (hterm : r.state.isTerminal = true) : ∃ r', s'.row = some r' ∧ r'.state = r.state := by
  rcases step_cases h with ⟨hsame, -, -⟩ | ⟨k, record, result, rfl, hcall, rfl⟩
  · exact ⟨r, hsame.trans hrow, rfl⟩
  · exact ⟨record, rfl, (hdue _ hcall _ hrow hterm).1⟩

theorem step_resumedOnce {s s' : PlanStore} {step : PlanStep} (h : planLTS.step s step s')
    (hdue : SaveDue s step) (hs : ResumedOnce s) : ResumedOnce s' := by
  rcases step_cases h with ⟨hrow, hcount, hcalls⟩ | ⟨k, record, result, rfl, hcall, rfl⟩
  · refine ⟨hcount ▸ hs.once, fun hpos => hrow ▸ hs.stored (hcount ▸ hpos), fun phase hphase => ?_⟩
    rcases hcalls phase hphase with hmem | hok
    · exact hs.calls phase hmem
    · exact hok
  · obtain ⟨hk, hget⟩ := List.getElem?_eq_some_iff.mp hcall
    have hok : PhaseOk (.saving record result) := hs.calls _ (List.mem_of_getElem? hcall)
    have hcount : (s.calls.set k (.returned result)).countP PlanPhase.isResumed =
        s.calls.countP PlanPhase.isResumed + if (PlanPhase.returned result).isResumed then 1 else 0 := by
      rw [List.countP_set hk, hget]
      simp [show (PlanPhase.saving record result).isResumed = false from rfl]
    -- an earlier resume left the plan terminal, so the condition leaves this save `resumed` out
    have hearlier : 0 < s.calls.countP PlanPhase.isResumed →
        ∃ stored, s.row = some stored ∧ stored.state = .resumed ∧ record.state = .resumed ∧
          record.state ≠ .resumed := by
      intro hpos
      obtain ⟨stored, hrow, hstate⟩ := hs.stored hpos
      have hsame := hdue _ hcall _ hrow (by rw [hstate]; rfl)
      exact ⟨stored, hrow, hstate, hsame.1.trans hstate, hsame.2⟩
    have hnone : s.calls.countP PlanPhase.isResumed = 0 := by
      rcases Nat.eq_zero_or_pos (s.calls.countP PlanPhase.isResumed) with hzero | hpos
      · exact hzero
      · obtain ⟨_, _, _, heq, hne⟩ := hearlier hpos
        exact absurd heq hne
    refine ⟨?_, fun hpos => ⟨record, rfl, ?_⟩, fun phase hphase => ?_⟩
    · show (s.calls.set k (.returned result)).countP PlanPhase.isResumed ≤ 1
      rw [hcount, hnone]
      split <;> omega
    · have hpos : 0 < (s.calls.set k (.returned result)).countP PlanPhase.isResumed := hpos
      rw [hcount, hnone, Nat.zero_add] at hpos
      split at hpos
      · next hresumed =>
        cases result with
        | resumed r => exact hok r rfl
        | _ => cases hresumed
      · exact absurd hpos (lt_irrefl 0)
    · rcases List.mem_or_eq_of_mem_set hphase with hmem | rfl
      · exact hs.calls phase hmem
      · trivial

/-- Tests to be run in a workspace. -/
def sampleCanonicalPlan : PermissionWaitCanonicalPlan where
  toolName := "shell"
  input := .obj [("command", .str "npm test"), ("timeout_ms", .num 1000)]
  cwd := "/workspace"
  command := some "npm test"
  target := { goalId := some "goal-1" }
  permission := ⟨"execute", false, .reversible⟩
  capabilityFacts := {
    toolPermissionLevel := "execute"
    toolIsReadOnly := false
    toolIsDestructive := false }

/-- The plan for them, approved. -/
def samplePlan : PermissionWaitPlanRecord where
  waitPlanId := "plan-1"
  approvalId := "plan-1"
  state := .approved
  createdAt := 1
  updatedAt := 2
  expiresAt := some 100
  resolvedAt := some 2
  canonicalPlan := sampleCanonicalPlan

/-- A resume with the same plan, its members in another order. -/
def sampleResume : PlanRequest :=
  .resumeApproved { canonicalPlan := { sampleCanonicalPlan with
    input := .obj [("timeout_ms", .num 1000), ("command", .str "npm test")] } }

/-- A resume, another after it has returned, and a cancellation. -/
def sampleInTurn : List PlanStep :=
  [.call sampleResume, .load 0 ⟨5, "event-1", 5⟩, .save 0, .call sampleResume,
    .load 1 ⟨6, "event-2", 6⟩, .call (markCancelled {}), .load 2 ⟨7, "event-3", 7⟩]

/-- Two resumes and a cancellation that all load the approved plan, and the first save. -/
def sampleAtOnce : List PlanStep :=
  [.call sampleResume, .call sampleResume, .call (markCancelled {}), .load 0 ⟨5, "event-1", 5⟩,
    .load 1 ⟨5, "event-2", 5⟩, .load 2 ⟨5, "event-3", 5⟩, .save 0]

end PulSeed.WaitPlan
