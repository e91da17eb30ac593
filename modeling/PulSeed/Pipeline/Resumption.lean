import Std.Data.String.ToNat
import PulSeed.Pipeline.Stages

/-!
# A pipeline that is resumed

A run that stops leaves the state that it stored last; marked as interrupted, the state is
taken up by the next run of the task. `reached` is the idea: a stored state cuts every run with
the same answers up to it in two, and the resumed run is the second part, unless the first part
ends with a failure that the loop would have stopped at. That the pipeline is the same one is
not checked.

- `Stored`: the states that runs of a pipeline leave when they are interrupted.
- `Continues`: the resumed run goes on where the interrupted one stopped.
- `NothingSkipped`: no stage is skipped on account of the stored state.
- `continues_iff`: **a resumed run goes on as it should exactly when it does not overrun a
  failure, and nothing is skipped exactly when nothing was recorded or the first stage is not
  executed anyway.**
-/

namespace PulSeed.Pipeline

open Logged

/-- The stage that an event starts. -/
def Event.startedStage : Event → Option ℕ
  | .started i => some i
  | _ => none

/-- The stages that a run executes, in order. -/
def executed {α : Type} (out : Logged α) : List ℕ := out.events.filterMap Event.startedStage

/-- The indices of the stages with a recorded result. -/
def PipelineState.recorded (state : PipelineState) : List ℕ :=
  state.completed_stages.map (·.stage_index)

/-- The stage indices that a run returns. -/
def returned (out : Logged PipelineRunResult) : Except String (List ℕ) :=
  out.result.map fun result => result.stage_results.map (·.stage_index)

/-- The stored state is marked as interrupted. -/
def PipelineState.interrupt (state : PipelineState) : PipelineState :=
  { state with status := .interrupted }

/-- The answers of two runs: those of the first below a stage, those of the second from there
on. -/
def Answers.upTo (first second : Answers) (k : ℕ) : Answers where
  plan i := if i < k then first.plan i else second.plan i
  approvePlan i := if i < k then first.approvePlan i else second.approvePlan i
  attempt i := if i < k then first.attempt i else second.attempt i
  approveRetry i := if i < k then first.approveRetry i else second.approveRetry i

/-- The plan of a stage is approved, where one is required. -/
def PlanPasses (deps : Deps) (input : Input) (answers : Answers) (stage : PipelineStage)
    (i : ℕ) : Prop :=
  ∃ gate, (planGate deps input answers stage i input.pipeline.shared_context).result = .ok gate ∧
    gate.approved = true

/-- A resumed run goes on after a stage that the pipeline should have stopped at. -/
structure Overruns (deps : Deps) (input : Input) (answers : Answers) (state : PipelineState) :
    Prop where
  fail_fast : input.pipeline.fail_fast = true
  failed : state.completed_stages.getLast?.map (·.verdict) = some .fail
  next : ∃ stage, input.pipeline.stages[state.current_stage_index]? = some stage ∧
    PlanPasses deps input answers stage state.current_stage_index

/-- The states that the runs of a pipeline leave when they are interrupted, with the answers
that the runs got up to them: a run stops after it stored the state and before it stored
another, also a run that was itself resumed. -/
inductive Stored (deps : Deps) (input : Input) : Answers → PipelineState → Prop
  | first {answers : Answers} {restored : Option PipelineState} {state : PipelineState} :
      restored.filter (·.status = .interrupted) = none →
      .persisted state ∈ (run deps input answers restored).events → state.status = .running →
      Stored deps input answers state
  | again {answers answers' : Answers} {state state' : PipelineState} :
      Stored deps input answers state → ¬ Overruns deps input answers' state →
      .persisted state' ∈ (run deps input answers' (some state.interrupt)).events →
      state'.status = .running →
      Stored deps input (answers.upTo answers' state.current_stage_index) state'

/-- The run that is resumed from a state goes on where the interrupted run stopped: it executes,
in order, what an uninterrupted run with the same answers executes and has no recorded result,
and returns the same stages. -/
structure Continues (deps : Deps) (input : Input) (before after : Answers)
    (state : PipelineState) : Prop where
  executed_eq : executed (run deps input after (some state.interrupt)) =
    (executed (run deps input (before.upTo after state.current_stage_index) none)).filter
      (· ∉ state.recorded)
  in_order : (executed (run deps input after (some state.interrupt))).Pairwise (· < ·)
  not_again : ∀ i ∈ executed (run deps input after (some state.interrupt)), i ∉ state.recorded
  returned_eq : returned (run deps input after (some state.interrupt)) =
    returned (run deps input (before.upTo after state.current_stage_index) none)

/-- A run executes all that it would execute if no state were stored. -/
def NothingSkipped (deps : Deps) (input : Input) (answers : Answers) (state : PipelineState) :
    Prop :=
  ∀ i ∈ executed (run deps input answers none),
    i ∈ executed (run deps input answers (some state.interrupt))

section Answers

variable {deps : Deps} {input : Input} {answers answers' : Answers} {shared : Option String}
  {i : ℕ}

/-- Two runs get the same answers for a stage. -/
structure Answers.Agree (answers answers' : Answers) (i : ℕ) : Prop where
  plan : answers.plan i = answers'.plan i
  approvePlan : answers.approvePlan i = answers'.approvePlan i
  attempt : answers.attempt i = answers'.attempt i
  approveRetry : answers.approveRetry i = answers'.approveRetry i

theorem Answers.upTo_below {k : ℕ} (h : i < k) : answers.Agree (answers.upTo answers' k) i := by
  constructor <;> simp [Answers.upTo, h]

theorem Answers.upTo_above {k : ℕ} (h : k ≤ i) : answers'.Agree (answers.upTo answers' k) i := by
  constructor <;> simp [Answers.upTo, Nat.not_lt.mpr h]

theorem planGate_congr (h : answers.Agree answers' i) (stage : PipelineStage) :
    planGate deps input answers stage i shared = planGate deps input answers' stage i shared := by
  unfold planGate runPlanApprovalGate
  rw [h.plan, h.approvePlan]

theorem attempts_congr (h : answers.Agree answers' i) (stage : PipelineStage) (base : String)
    (left attempt : ℕ) (current lastError : String) (last : Option AgentResult) :
    attempts deps answers stage i base left attempt current lastError last =
      attempts deps answers' stage i base left attempt current lastError last := by
  induction left generalizing attempt current lastError last with
  | zero => rfl
  | succ left ih =>
    unfold attempts askFinalRetry
    rw [h.attempt, h.approveRetry]
    simp only [ih]

theorem executeWithEscalation_congr (h : answers.Agree answers' i) (stage : PipelineStage) :
    executeWithEscalation deps input answers stage i shared =
      executeWithEscalation deps input answers' stage i shared := by
  unfold executeWithEscalation
  simp only [attempts_congr h]

/-- The loop asks for the answers of the stages that are left alone. -/
theorem runStages_congr (stages : List PipelineStage) {state : PipelineState}
    (h : ∀ j, i ≤ j → answers.Agree answers' j) :
    runStages deps input answers shared state i stages =
      runStages deps input answers' shared state i stages := by
  induction stages generalizing state i with
  | nil => rfl
  | cons stage stages ih =>
    have hrest (state : PipelineState) :
        runStages deps input answers shared state (i + 1) stages =
          runStages deps input answers' shared state (i + 1) stages := ih fun j hj => h j (by omega)
    by_cases hrecorded : state.completed_stages.any
        (·.idempotency_key = idempotencyKey input.taskId i) = true
    · rw [runStages_skip hrecorded, runStages_skip hrecorded, hrest]
    have hplan : planGate deps input answers stage i shared =
        planGate deps input answers' stage i shared := planGate_congr (h i le_rfl) stage
    have hexecution : executeWithEscalation deps input answers stage i shared =
        executeWithEscalation deps input answers' stage i shared :=
      executeWithEscalation_congr (h i le_rfl) stage
    cases stage_outcome deps input answers shared stage i with
    | denied hgate hdenied =>
      rw [runStages_denied hrecorded hgate hdenied,
        runStages_denied hrecorded (hplan ▸ hgate) hdenied]
    | threw hgate happroved hexecuted =>
      rw [runStages_threw hrecorded hgate happroved hexecuted,
        runStages_threw hrecorded (hplan ▸ hgate) happroved (hexecution ▸ hexecuted)]
    | ended hgate happroved hexecuted =>
      rw [runStages_record hrecorded hgate happroved hexecuted rfl,
        runStages_record hrecorded (hplan ▸ hgate) happroved (hexecution ▸ hexecuted) rfl]
      unfold afterStage
      rw [hrest]

end Answers

/-! ## A stored state cuts a run in two -/

/-- The state of a run that has recorded the stages below an index, and no others. -/
structure Canonical (input : Input) (state : PipelineState) (i : ℕ) : Prop where
  current : state.current_stage_index = i
  recorded : state.recorded = List.range i
  keys : ∀ r ∈ state.completed_stages,
    r.idempotency_key = idempotencyKey input.taskId r.stage_index
  running : state.status = .running

section Cut

variable {deps : Deps} {input : Input} {answers : Answers} {shared : Option String}
  {state state' : PipelineState} {i : ℕ} {stages : List PipelineStage}

theorem idempotencyKey_injective (taskId : String) :
    Function.Injective (idempotencyKey taskId) := by
  intro i j h
  unfold idempotencyKey at h
  have hnumbers : toString i = toString j :=
    (String.append_right_inj _).mp ((String.append_left_inj _).mp h)
  exact Nat.repr_injective hnumbers

theorem startState_canonical {restored : Option PipelineState}
    (h : restored.filter (·.status = .interrupted) = none) :
    Canonical input (startState input restored) 0 := by
  unfold startState
  rw [h]
  exact ⟨rfl, rfl, fun r hr => absurd hr (List.not_mem_nil), rfl⟩

/-- The next stage is not recorded. -/
theorem Canonical.new (h : Canonical input state i) :
    ¬ state.completed_stages.any (·.idempotency_key = idempotencyKey input.taskId i) = true := by
  simp only [List.any_eq_true, decide_eq_true_eq]
  rintro ⟨r, hr, hkey⟩
  have hindex : r.stage_index = i :=
    idempotencyKey_injective _ ((h.keys r hr).symm.trans hkey)
  have hmem : i ∈ state.recorded := List.mem_map.mpr ⟨r, hr, hindex⟩
  rw [h.recorded] at hmem
  exact absurd (List.mem_range.mp hmem) (lt_irrefl i)

theorem Canonical.record (h : Canonical input state i) (ending : Ending) (stage : PipelineStage) :
    Canonical input
      (state.record i (ending.stageResult i stage (idempotencyKey input.taskId i))) (i + 1) := by
  have hindex : (ending.stageResult i stage (idempotencyKey input.taskId i)).stage_index = i := by
    cases ending <;> rfl
  have hkey : (ending.stageResult i stage (idempotencyKey input.taskId i)).idempotency_key =
      idempotencyKey input.taskId i := by cases ending <;> rfl
  refine ⟨rfl, ?_, fun r hr => ?_, h.running⟩
  · unfold PipelineState.recorded PipelineState.record
    rw [List.map_append, List.range_succ, ← h.recorded]
    exact congrArg _ (congrArg (fun n => [n]) hindex)
  · rcases List.mem_append.mp hr with hr | hr
    · exact h.keys r hr
    · rw [List.mem_singleton.mp hr, hkey, hindex]

theorem started_answers {asked : List Event} (hasked : ∀ e ∈ asked, e.IsAnswer) :
    asked.filterMap Event.startedStage = [] := by
  refine List.filterMap_eq_nil_iff.mpr fun e he => ?_
  have hanswer := hasked e he
  cases e with
  | started => exact hanswer.elim
  | _ => rfl

/-- **A stored state cuts every run in two** that gets the same answers up to it: what comes
first executes the stages that the state has recorded, and what follows depends on the state
alone. -/
theorem reached (h : Canonical input state i)
    (hmem : .persisted state' ∈ (runStages deps input answers shared state i stages).events)
    (hrunning : state'.status = .running) :
    i < state'.current_stage_index ∧ Canonical input state' state'.current_stage_index ∧
    ∃ events, events.filterMap Event.startedStage =
        List.range' i (state'.current_stage_index - i) ∧
      .persisted state' ∈ events ∧
      ∀ answers' : Answers,
        (∀ j, i ≤ j → j < state'.current_stage_index → answers.Agree answers' j) →
        runStages deps input answers' shared state i stages =
          ⟨events ++ (afterStage deps input answers' shared state' state'.current_stage_index
              (stages.drop (state'.current_stage_index - i))).events,
            (afterStage deps input answers' shared state' state'.current_stage_index
              (stages.drop (state'.current_stage_index - i))).result⟩ := by
  induction stages generalizing state i with
  | nil => exact absurd hmem (List.not_mem_nil)
  | cons stage stages ih =>
    cases stage_outcome deps input answers shared stage i with
    | denied hgate hdenied hasked =>
      rw [runStages_denied h.new hgate hdenied] at hmem
      have hno := not_answer hasked (e := .persisted state') id
      simp only [List.mem_append, List.mem_cons, hno, reduceCtorEq, List.not_mem_nil, or_false,
        false_or, Event.persisted.injEq] at hmem
      exact absurd (hmem ▸ hrunning) (by simp [PipelineState.abort])
    | threw hgate happroved hexecuted hasked hmore =>
      rw [runStages_threw h.new hgate happroved hexecuted] at hmem
      have hno := not_answer hasked (e := .persisted state') id
      have hno' := not_answer hmore (e := .persisted state') id
      simp [hno, hno'] at hmem
    | @ended asked more _ ending hgate happroved hexecuted hasked hmore hsound =>
      rw [runStages_record h.new hgate happroved hexecuted rfl] at hmem
      have hnext := h.record ending stage
      generalize hresult : ending.stageResult i stage (idempotencyKey input.taskId i) = result
        at hmem hnext
      -- What a run with the same answers does with this stage.
      obtain ⟨first, hstarted, hstored, hfirst⟩ : ∃ first : List Event,
          first.filterMap Event.startedStage = [i] ∧ .persisted (state.record i result) ∈ first ∧
          ∀ answers' : Answers, answers.Agree answers' i →
            runStages deps input answers' shared state i (stage :: stages) =
              ⟨first ++ (afterStage deps input answers' shared (state.record i result) (i + 1)
                  stages).events,
                (afterStage deps input answers' shared (state.record i result) (i + 1)
                  stages).result⟩ := by
        refine ⟨asked ++ .started i :: (more ++ [.recorded ending result,
          .persisted (state.record i result)]), ?_, by simp, fun answers' hagree => ?_⟩
        · simp [started_answers hasked, started_answers hmore, List.filterMap_cons,
            Event.startedStage]
        · rw [runStages_record h.new (planGate_congr hagree stage ▸ hgate) happroved
            (executeWithEscalation_congr hagree stage ▸ hexecuted) hresult.symm]
          simp
      have hno := not_answer hasked (e := .persisted state') id
      have hno' := not_answer hmore (e := .persisted state') id
      simp only [List.mem_append, List.mem_cons, hno, hno', reduceCtorEq, false_or,
        Event.persisted.injEq] at hmem
      rcases hmem with rfl | hmem
      · refine ⟨Nat.lt_succ_self i, hnext, first, ?_, hstored, fun answers' hagree => ?_⟩
        · exact hstarted.trans (by simp [PipelineState.record])
        · rw [hfirst answers' (hagree i le_rfl (Nat.lt_succ_self i))]
          simp [PipelineState.record]
      · unfold afterStage at hmem
        split at hmem
        · obtain rfl := Event.persisted.inj (List.mem_singleton.mp hmem)
          exact absurd hrunning (by simp [PipelineState.abort])
        · next hgo =>
          obtain ⟨hlt, hcanonical, events, hevents, hstored', hrun⟩ := ih hnext hmem
          refine ⟨by omega, hcanonical, first ++ events, ?_, List.mem_append_right _ hstored',
            fun answers' hagree => ?_⟩
          · rw [List.filterMap_append, hstarted, hevents]
            obtain ⟨left, hleft⟩ : ∃ left, state'.current_stage_index - i = left + 1 :=
              ⟨state'.current_stage_index - (i + 1), by omega⟩
            rw [hleft, show state'.current_stage_index - (i + 1) = left by omega]
            rfl
          · rw [hfirst answers' (hagree i le_rfl (by omega))]
            unfold afterStage
            rw [if_neg hgo, hrun answers' fun j hj => hagree j (by omega)]
            obtain ⟨left, hleft⟩ : ∃ left, state'.current_stage_index - i = left + 1 :=
              ⟨state'.current_stage_index - (i + 1), by omega⟩
            rw [hleft, show state'.current_stage_index - (i + 1) = left by omega]
            simp [afterStage]

/-! ## What the loop executes -/

/-- The loop executes stages from its index on, in order. -/
theorem Stages.executed_sorted {out : Logged PipelineState}
    (h : Stages deps input answers shared state i stages out) :
    (executed out).Pairwise (· < ·) ∧ ∀ j ∈ executed out, i ≤ j := by
  unfold executed
  induction h with
  | done => exact ⟨.nil, fun j hj => absurd hj (List.not_mem_nil)⟩
  | skip _ _ ih => exact ⟨ih.1, fun j hj => (Nat.le_succ _).trans (ih.2 j hj)⟩
  | denied _ _ hasked =>
    simp [started_answers hasked, Event.startedStage, List.filterMap_cons]
  | threw _ _ _ hasked hmore =>
    simp [started_answers hasked, started_answers hmore, Event.startedStage]
  | stopped _ _ _ hasked hmore =>
    simp [started_answers hasked, started_answers hmore, List.filterMap_cons, Event.startedStage]
  | next _ _ _ hasked hmore _ _ _ _ ih =>
    simp only [List.filterMap_append, List.filterMap_cons, started_answers hasked,
      started_answers hmore, Event.startedStage, List.nil_append, List.pairwise_cons,
      List.mem_cons, forall_eq_or_imp, le_refl, true_and]
    exact ⟨⟨fun j hj => ih.2 j hj, ih.1⟩, fun j hj => (Nat.le_succ _).trans (ih.2 j hj)⟩

/-- What the loop executes does not depend on the ids of the state. -/
theorem executed_runStages_congr (stages : List PipelineStage)
    (h : state'.completed_stages = state.completed_stages) :
    executed (runStages deps input answers shared state' i stages) =
      executed (runStages deps input answers shared state i stages) := by
  induction stages generalizing state state' i with
  | nil => rfl
  | cons stage stages ih =>
    by_cases hrecorded : state.completed_stages.any
        (·.idempotency_key = idempotencyKey input.taskId i) = true
    · rw [runStages_skip hrecorded, runStages_skip (h ▸ hrecorded)]
      exact ih h
    have hrecorded' := h ▸ hrecorded
    cases stage_outcome deps input answers shared stage i with
    | denied hgate hdenied =>
      rw [runStages_denied hrecorded hgate hdenied, runStages_denied hrecorded' hgate hdenied]
      simp [executed, Event.startedStage, List.filterMap_cons]
    | threw hgate happroved hexecuted =>
      rw [runStages_threw hrecorded hgate happroved hexecuted,
        runStages_threw hrecorded' hgate happroved hexecuted]
    | @ended _ _ _ ending hgate happroved hexecuted =>
      have hnext : executed (runStages deps input answers shared (state'.record i
          (ending.stageResult i stage (idempotencyKey input.taskId i))) (i + 1) stages) =
          executed (runStages deps input answers shared (state.record i
            (ending.stageResult i stage (idempotencyKey input.taskId i))) (i + 1) stages) :=
        ih (congrArg (· ++ [ending.stageResult i stage (idempotencyKey input.taskId i)]) h)
      rw [runStages_record hrecorded hgate happroved hexecuted rfl,
        runStages_record hrecorded' hgate happroved hexecuted rfl]
      unfold executed at hnext ⊢
      simp only [List.filterMap_append, List.filterMap_cons, Event.startedStage]
      unfold afterStage
      rw [record_verdict, record_verdict]
      split
      · rfl
      · exact congrArg _ (congrArg _ (congrArg _ hnext))

/-- Where the plan of the next stage is not approved, or there is no stage, the loop ends. -/
theorem runStages_blocked (h : Canonical input state i)
    (hblocked : ∀ stage, stages.head? = some stage →
      ¬ PlanPasses deps input answers stage i) :
    runStages deps input answers input.pipeline.shared_context state i stages = ⟨[], .ok state⟩ ∨
    ∃ asked : List Event, (∀ e ∈ asked, e.IsAnswer) ∧
      runStages deps input answers input.pipeline.shared_context state i stages =
        ⟨asked ++ [.denied i state, .persisted state.abort], .ok state.abort⟩ := by
  cases stages with
  | nil => exact .inl rfl
  | cons stage stages =>
    have hblocked := hblocked stage rfl
    cases stage_outcome deps input answers input.pipeline.shared_context stage i with
    | denied hgate hdenied hasked =>
      exact .inr ⟨_, hasked, runStages_denied h.new hgate hdenied⟩
    | threw hgate happroved => exact absurd ⟨_, by rw [hgate], happroved⟩ hblocked
    | ended hgate happroved => exact absurd ⟨_, by rw [hgate], happroved⟩ hblocked

/-- Where the plan of the next stage is approved, the loop executes the stage. -/
theorem executed_of_planPasses (h : Canonical input state i) {stage : PipelineStage}
    (hstage : stages.head? = some stage) (hpasses : PlanPasses deps input answers stage i) :
    i ∈ executed (runStages deps input answers input.pipeline.shared_context state i stages) := by
  cases stages with
  | nil => exact nomatch hstage
  | cons stage' stages =>
    obtain rfl := Option.some.inj hstage
    obtain ⟨gate, hpasses, happroved⟩ := hpasses
    cases stage_outcome deps input answers input.pipeline.shared_context stage' i with
    | denied hgate hdenied =>
      rw [hgate] at hpasses
      rw [Except.ok.inj hpasses, happroved] at hdenied
      exact nomatch hdenied
    | threw hgate happroved hexecuted =>
      rw [runStages_threw h.new hgate happroved hexecuted]
      exact List.mem_filterMap.mpr ⟨.started i, by simp, rfl⟩
    | ended hgate happroved hexecuted =>
      rw [runStages_record h.new hgate happroved hexecuted rfl]
      exact List.mem_filterMap.mpr ⟨.started i, by simp, rfl⟩

end Cut

/-! ## Whole runs -/

section Run

variable {deps : Deps} {input : Input} {answers : Answers} {restored : Option PipelineState}
  {state : PipelineState}

theorem executed_run :
    executed (run deps input answers restored) =
      executed (runLoop deps input answers restored) := by
  unfold executed
  cases hresult : (runLoop deps input answers restored).result with
  | error error =>
    rw [(run_error hresult).1]
    rfl
  | ok state =>
    have hclosing : (closing deps input state).filterMap Event.startedStage = [] := by
      refine List.filterMap_eq_nil_iff.mpr fun e he => ?_
      rcases mem_closing he with rfl | ⟨strategyId, verdict, rfl⟩
      · rfl
      · rfl
    rw [(run_ok hresult).1, List.filterMap_cons, List.filterMap_append, hclosing,
      List.append_nil]
    rfl

theorem returned_run :
    returned (run deps input answers restored) =
      (runLoop deps input answers restored).result.map PipelineState.recorded := by
  unfold returned
  cases hresult : (runLoop deps input answers restored).result with
  | error error => rw [(run_error hresult).2]; rfl
  | ok state => rw [(run_ok hresult).2]; rfl

/-- What a run stores while it is running is the state it starts with, or stored by its loop. -/
theorem persisted_cases (hmem : .persisted state ∈ (run deps input answers restored).events)
    (hrunning : state.status = .running) :
    state = startState input restored ∨
      .persisted state ∈ (runLoop deps input answers restored).events := by
  cases hresult : (runLoop deps input answers restored).result with
  | error error =>
    rw [(run_error hresult).1] at hmem
    rcases List.mem_cons.mp hmem with hmem | hmem
    · exact .inl (Event.persisted.inj hmem)
    · exact .inr hmem
  | ok last =>
    rw [(run_ok hresult).1] at hmem
    rcases List.mem_cons.mp hmem with hmem | hmem
    · exact .inl (Event.persisted.inj hmem)
    rcases List.mem_append.mp hmem with hmem | hmem
    · exact .inr hmem
    rcases mem_closing hmem with hmem | ⟨_, _, hmem⟩
    · obtain rfl := Event.persisted.inj hmem
      unfold PipelineState.close at hrunning
      dsimp only at hrunning
      split at hrunning
      · exact nomatch hrunning
      · next hnot => exact absurd hrunning hnot
    · exact nomatch hmem

theorem mem_run_of_mem_runLoop {e : Event}
    (h : e ∈ .persisted (startState input restored) ::
      (runLoop deps input answers restored).events) :
    e ∈ (run deps input answers restored).events := by
  cases hresult : (runLoop deps input answers restored).result with
  | error error => rwa [(run_error hresult).1]
  | ok state =>
    rw [(run_ok hresult).1, ← List.cons_append]
    exact List.mem_append_left _ h

theorem startState_interrupt (hrunning : state.status = .running) :
    startState input (some state.interrupt) = state := by
  obtain ⟨_, _, _, _, status⟩ := state
  obtain rfl : status = .running := hrunning
  rfl

variable (deps input answers) in
/-- The loop of a resumed run. -/
theorem runLoop_interrupt (h : Canonical input state state.current_stage_index) :
    runLoop deps input answers (some state.interrupt) =
      runStages deps input answers input.pipeline.shared_context state state.current_stage_index
        (input.pipeline.stages.drop state.current_stage_index) := by
  unfold runLoop
  rw [startState_interrupt h.running]

variable (deps input answers state) in
/-- A state cuts the runs from nothing that get the same answers up to it. -/
structure Cuts : Prop where
  canonical : Canonical input state state.current_stage_index
  cut : ∃ events : List Event,
    events.filterMap Event.startedStage = List.range state.current_stage_index ∧
    .persisted state ∈ .persisted (startState input none) :: events ∧
    ∀ answers' : Answers, (∀ j < state.current_stage_index, answers.Agree answers' j) →
      runLoop deps input answers' none =
        ⟨events ++ (afterStage deps input answers' input.pipeline.shared_context state
            state.current_stage_index
            (input.pipeline.stages.drop state.current_stage_index)).events,
          (afterStage deps input answers' input.pipeline.shared_context state
            state.current_stage_index
            (input.pipeline.stages.drop state.current_stage_index)).result⟩

/-- What a run from nothing stores while it is running cuts it. -/
theorem cuts (hmem : .persisted state ∈ (run deps input answers none).events)
    (hrunning : state.status = .running) : Cuts deps input answers state := by
  have hstart : Canonical input (startState input none) 0 := startState_canonical rfl
  rcases persisted_cases hmem hrunning with rfl | hmem
  · refine ⟨hstart, [], rfl, .head _, fun answers' _ => ?_⟩
    unfold afterStage
    rw [if_neg fun h => nomatch (show (none : Option Verdict) = some .fail from h.2)]
    rfl
  · obtain ⟨-, hcanonical, events, hevents, hstored, hrun⟩ := reached hstart hmem hrunning
    refine ⟨hcanonical, events, ?_, .tail _ hstored, fun answers' hagree => ?_⟩
    · rw [hevents, Nat.sub_zero, List.range_eq_range']
    · exact hrun answers' fun j _ => hagree j

/-- What a run stores when it is interrupted, also one that was resumed, an uninterrupted run
with the same answers stores as well. -/
theorem Stored.persisted (h : Stored deps input answers state) :
    .persisted state ∈ (run deps input answers none).events ∧ state.status = .running := by
  induction h with
  | @first answers restored state hrestored hmem hrunning =>
    refine ⟨?_, hrunning⟩
    have hstart : startState input restored = startState input none := by
      unfold startState
      rw [hrestored]
      rfl
    unfold run at hmem ⊢
    rwa [← hstart]
  | @again answers answers' state state' _ hnot hmem hrunning ih =>
    refine ⟨mem_run_of_mem_runLoop ?_, hrunning⟩
    obtain ⟨hcanonical, events, -, hstored, hrun⟩ := cuts ih.1 ih.2
    rw [hrun _ fun j hj => Answers.upTo_below hj]
    rcases persisted_cases hmem hrunning with heq | hmem
    · obtain rfl := heq.trans (startState_interrupt ih.2)
      rw [← List.cons_append]
      exact List.mem_append_left _ hstored
    · rw [runLoop_interrupt deps input answers' hcanonical] at hmem
      by_cases hstop : input.pipeline.fail_fast = true ∧
          state.completed_stages.getLast?.map (·.verdict) = some .fail
      · -- Where the pipeline should have stopped, the resumed run stores no more.
        rcases runStages_blocked hcanonical (fun stage hstage hpasses => hnot
            ⟨hstop.1, hstop.2, stage, by rwa [← List.head?_drop], hpasses⟩) with hrest |
          ⟨asked, hasked, hrest⟩
        · rw [hrest] at hmem
          exact absurd hmem (List.not_mem_nil)
        · rw [hrest] at hmem
          have hno := not_answer hasked (e := .persisted state') id
          simp only [List.mem_append, List.mem_cons, hno, reduceCtorEq, List.not_mem_nil,
            or_false, false_or, Event.persisted.injEq] at hmem
          exact absurd (hmem ▸ hrunning) (by simp [PipelineState.abort])
      · unfold afterStage
        rw [if_neg hstop, ← runStages_congr _ fun j hj => Answers.upTo_above hj]
        exact .tail _ (List.mem_append_right _ hmem)

/-- **A resumed run goes on** exactly when it does not overrun a failure. -/
theorem continues_iff_not_overruns {after : Answers} (h : Cuts deps input answers state) :
    Continues deps input answers after state ↔ ¬ Overruns deps input after state := by
  obtain ⟨hcanonical, events, hevents, -, hrun⟩ := h
  have hrun := hrun (answers.upTo after state.current_stage_index)
    fun j hj => Answers.upTo_below hj
  have hsorted := (runStages_stages deps input after input.pipeline.shared_context state
    state.current_stage_index
    (input.pipeline.stages.drop state.current_stage_index)).executed_sorted
  have hnew : ∀ i ∈ executed (run deps input after (some state.interrupt)),
      i ∉ state.recorded := by
    intro i hi hmem
    rw [executed_run, runLoop_interrupt deps input after hcanonical] at hi
    rw [hcanonical.recorded] at hmem
    exact absurd (List.mem_range.mp hmem) (Nat.not_lt.mpr (hsorted.2 i hi))
  have hbefore : (List.range state.current_stage_index).filter (· ∉ state.recorded) = [] := by
    rw [hcanonical.recorded]
    simp
  have huninterrupted : executed (run deps input (answers.upTo after state.current_stage_index)
      none) = List.range state.current_stage_index ++ executed (afterStage deps input
        (answers.upTo after state.current_stage_index) input.pipeline.shared_context state
        state.current_stage_index (input.pipeline.stages.drop state.current_stage_index)) := by
    rw [executed_run, hrun]
    unfold executed
    rw [List.filterMap_append, hevents]
  have hreturned : returned (run deps input (answers.upTo after state.current_stage_index)
      none) = (afterStage deps input
        (answers.upTo after state.current_stage_index) input.pipeline.shared_context state
        state.current_stage_index (input.pipeline.stages.drop
          state.current_stage_index)).result.map PipelineState.recorded := by
    rw [returned_run, hrun]
  by_cases hstop : input.pipeline.fail_fast = true ∧
      state.completed_stages.getLast?.map (·.verdict) = some .fail
  · unfold afterStage at huninterrupted hreturned
    rw [if_pos hstop] at huninterrupted hreturned
    constructor
    · rintro ⟨hexecuted, -, -, -⟩ ⟨-, -, stage, hstage, hpasses⟩
      rw [huninterrupted, List.filter_append, hbefore, executed_run,
        runLoop_interrupt deps input after hcanonical] at hexecuted
      have hhead : (input.pipeline.stages.drop state.current_stage_index).head? = some stage := by
        rwa [List.head?_drop]
      have hmem := executed_of_planPasses hcanonical hhead hpasses
      rw [hexecuted] at hmem
      exact absurd hmem (List.not_mem_nil)
    · intro hnot
      rcases runStages_blocked hcanonical (fun stage hstage hpasses => hnot
          ⟨hstop.1, hstop.2, stage, by rwa [← List.head?_drop], hpasses⟩) with hrest |
        ⟨asked, hasked, hrest⟩
      · refine ⟨?_, ?_, hnew, ?_⟩
        · rw [huninterrupted, List.filter_append, hbefore, executed_run,
            runLoop_interrupt deps input after hcanonical, hrest]
          rfl
        · rw [executed_run, runLoop_interrupt deps input after hcanonical]
          exact hsorted.1
        · rw [hreturned, returned_run, runLoop_interrupt deps input after hcanonical, hrest]
          rfl
      · refine ⟨?_, ?_, hnew, ?_⟩
        · rw [huninterrupted, List.filter_append, hbefore, executed_run,
            runLoop_interrupt deps input after hcanonical, hrest]
          simp [executed, started_answers hasked, Event.startedStage, List.filterMap_cons]
        · rw [executed_run, runLoop_interrupt deps input after hcanonical]
          exact hsorted.1
        · rw [hreturned, returned_run, runLoop_interrupt deps input after hcanonical, hrest]
  · unfold afterStage at huninterrupted hreturned
    rw [if_neg hstop, ← runStages_congr _ fun j hj => Answers.upTo_above hj,
      ← runLoop_interrupt deps input after hcanonical] at huninterrupted hreturned
    refine iff_of_true ⟨?_, ?_, hnew, ?_⟩ fun hoverruns =>
      hstop ⟨hoverruns.fail_fast, hoverruns.failed⟩
    · rw [huninterrupted, List.filter_append, hbefore, List.nil_append, executed_run]
      refine (List.filter_eq_self.mpr fun i hi => ?_).symm
      exact decide_eq_true (hnew i (executed_run ▸ hi))
    · rw [executed_run, runLoop_interrupt deps input after hcanonical]
      exact hsorted.1
    · rw [hreturned, returned_run]

/-- **Nothing is skipped** exactly when nothing was recorded, or the first stage is not executed
anyway. -/
theorem nothingSkipped_iff (h : Canonical input state state.current_stage_index)
    (deps' : Deps) (other : Input) (answers' : Answers) :
    NothingSkipped deps' other answers' state ↔
      state.completed_stages = [] ∨ ∀ stage, other.pipeline.stages.head? = some stage →
        ¬ PlanPasses deps' other answers' stage 0 := by
  have hstart : Canonical other (startState other none) 0 := startState_canonical rfl
  have hresumed : runLoop deps' other answers' (some state.interrupt) =
      runStages deps' other answers' other.pipeline.shared_context state
        state.current_stage_index (other.pipeline.stages.drop state.current_stage_index) := by
    unfold runLoop
    rw [startState_interrupt h.running]
  unfold NothingSkipped
  rw [executed_run, executed_run, hresumed]
  by_cases hnone : state.completed_stages = []
  · have hzero : state.current_stage_index = 0 := by
      have hlength := congrArg List.length h.recorded
      simpa [PipelineState.recorded, hnone] using hlength.symm
    rw [hzero]
    refine iff_of_true (fun i hi => ?_) (.inl hnone)
    have hstart : state.completed_stages = (startState other none).completed_stages := hnone
    rw [List.drop_zero, executed_runStages_congr _ hstart]
    exact hi
  · have hpos : 0 < state.current_stage_index := by
      refine Nat.pos_of_ne_zero fun hzero => hnone ?_
      have hrecorded := h.recorded
      rw [hzero] at hrecorded
      exact List.map_eq_nil_iff.mp hrecorded
    rw [or_iff_right hnone]
    constructor
    · intro hall stage hstage hpasses
      have hmem := hall 0 (executed_of_planPasses hstart hstage hpasses)
      have hle := (runStages_stages deps' other answers' other.pipeline.shared_context state
        state.current_stage_index _).executed_sorted.2 0 hmem
      omega
    · intro hblocked i hi
      change i ∈ executed (runStages deps' other answers' other.pipeline.shared_context
        (startState other none) 0 other.pipeline.stages) at hi
      rcases runStages_blocked hstart hblocked with hrest | ⟨asked, hasked, hrest⟩
      · rw [hrest] at hi
        exact absurd hi (List.not_mem_nil)
      · rw [hrest] at hi
        simp [executed, started_answers hasked, Event.startedStage, List.filterMap_cons] at hi

end Run

/-- **A resumed run goes on, and a run of any other pipeline skips nothing,** exactly when the
resumed run does not overrun a failure, and nothing was recorded or the first stage of the other
pipeline is not executed anyway. -/
theorem resumption_iff {deps : Deps} {input : Input} {before : Answers} {state : PipelineState}
    (h : Stored deps input before state) (after : Answers) (other : Input) (others : Answers) :
    (Continues deps input before after state ∧ NothingSkipped deps other others state) ↔
      ¬ Overruns deps input after state ∧
      (state.completed_stages = [] ∨ ∀ stage, other.pipeline.stages.head? = some stage →
        ¬ PlanPasses deps other others stage 0) := by
  have hcuts := cuts h.persisted.1 h.persisted.2
  rw [continues_iff_not_overruns hcuts, nothingSkipped_iff hcuts.canonical]

/-! Two stages, of which the first passes or fails, and a pipeline that needs plans. -/

def twoStages : Input where
  taskId := "t"
  prompt := "write"
  pipeline := { stages := [{ role := .implementor }, { role := .verifier }] }
  pipelineId := "p"

def planned : Input where
  taskId := "t"
  prompt := "write"
  pipeline := { stages := [{ role := .implementor }], plan_required := true }
  pipelineId := "q"

/-- Another pipeline of the same task. -/
def research : Input where
  taskId := "t"
  prompt := "look it up"
  pipeline := { stages := [{ role := .researcher }] }
  pipelineId := "r"

def adapterAnswers (success : Bool) : Answers where
  plan _ := .invalid
  approvePlan _ := false
  attempt _ _ := .executed {
    success := success, output := "", stopped_reason := if success then none else some .error }
  approveRetry _ := false

/-- The state after the first stage. -/
def afterFirst (success : Bool) : PipelineState where
  pipeline_id := "p"
  task_id := "t"
  current_stage_index := 1
  completed_stages :=
    [makeStageResult 0 { role := .implementor } (idempotencyKey "t" 0) success "" none]
  status := .running

theorem stored_afterFirst (success : Bool) :
    Stored { adapters := ["a"] } twoStages (adapterAnswers success) (afterFirst success) := by
  have hnone : (none : Option PipelineState).filter (·.status = .interrupted) = none := rfl
  refine .first hnone ?_ rfl
  cases success with
  | false => exact .tail _ (.tail _ (.tail _ (.tail _ (.head _))))
  | true => exact .tail _ (.tail _ (.tail _ (.tail _ (.head _))))

theorem resumes_after_pass :
    Continues { adapters := ["a"] } twoStages (adapterAnswers true) (adapterAnswers true)
        (afterFirst true) ∧
      NothingSkipped { adapters := ["a"] } planned (adapterAnswers true) (afterFirst true) := by
  refine (resumption_iff (stored_afterFirst true) _ _ _).mpr ⟨fun h => (nomatch h.failed), .inr ?_⟩
  rintro stage hstage ⟨gate, hgate, happroved⟩
  obtain rfl := Option.some.inj hstage
  obtain rfl := Except.ok.inj hgate
  exact nomatch happroved

/-- **A run that stopped right after a failure goes on with the next stage,** and another
pipeline of the task skips its first one. -/
theorem resumed_past_failure :
    Stored { adapters := ["a"] } twoStages (adapterAnswers false) (afterFirst false) ∧
      ¬ Continues { adapters := ["a"] } twoStages (adapterAnswers false) (adapterAnswers true)
        (afterFirst false) ∧
      ¬ NothingSkipped { adapters := ["a"] } research (adapterAnswers true)
        (afterFirst false) := by
  have hstored := stored_afterFirst false
  have hcuts := cuts hstored.persisted.1 hstored.persisted.2
  refine ⟨hstored, fun h => (continues_iff_not_overruns hcuts).mp h ?_, fun h => ?_⟩
  · exact ⟨rfl, rfl, { role := .verifier }, rfl, _, rfl, rfl⟩
  · rcases (nothingSkipped_iff hcuts.canonical _ _ _).mp h with hnone | hblocked
    · exact nomatch hnone
    · exact hblocked { role := .researcher } rfl ⟨_, rfl, rfl⟩

end PulSeed.Pipeline
