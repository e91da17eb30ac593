import PulSeed.Pipeline.Executor

/-!
# What the loop over the stages does

`Stages` lists what the loop of a run can do with its next stage; `runStages_stages` says that
every run of the loop is one of these. What holds of all runs follows by induction on it.
`run_ok` and `run_error` give a whole run from its loop.
-/

namespace PulSeed.Pipeline

open Logged

/-- What the attempts of a stage end with: a result that is no failure is accepted, and the
last one of attempts that are used up is a failure. -/
def Ending.Sound : Ending → Prop
  | .accepted result => mapResultToVerdict result ≠ .fail
  | .rejected => True
  | .exhausted last => ∀ result, last = some result → mapResultToVerdict result = .fail

/-- An event that is logged while a stage is planned or attempted. -/
def Event.IsAnswer : Event → Prop
  | .planned .. | .planAsked .. | .attempted .. | .retryAsked .. => True
  | _ => False

section Stages

variable {deps : Deps} {input : Input} {answers : Answers}

variable (deps input answers) in
theorem planGate_spec (stage : PipelineStage) (i : ℕ) (shared : Option String) :
    (∃ gate, (planGate deps input answers stage i shared).result = .ok gate ∧
      gate.modified_plan = none) ∧
    ∀ e ∈ (planGate deps input answers stage i shared).events, e.IsAnswer := by
  unfold planGate
  split
  · unfold runPlanApprovalGate
    split
    · exact ⟨⟨_, rfl, rfl⟩, by simp⟩
    · simp only [events_log_bind, result_log_bind]
      split
      · exact ⟨⟨_, rfl, rfl⟩, by simp [Event.IsAnswer]⟩
      split
      · exact ⟨⟨_, rfl, rfl⟩, by simp [Event.IsAnswer]⟩
      split
      · exact ⟨⟨_, rfl, rfl⟩, by simp [Event.IsAnswer]⟩
      · exact ⟨⟨_, rfl, rfl⟩, by simp [Event.IsAnswer]⟩
  · exact ⟨⟨_, rfl, rfl⟩, by simp⟩

variable (deps answers) in
theorem askFinalRetry_spec (i attempt : ℕ) :
    (∃ ok, (askFinalRetry deps answers i attempt).result = .ok ok) ∧
    ∀ e ∈ (askFinalRetry deps answers i attempt).events, e.IsAnswer := by
  unfold askFinalRetry
  split
  · exact ⟨⟨_, rfl⟩, by simp [Event.IsAnswer]⟩
  · exact ⟨⟨_, rfl⟩, by simp⟩

variable (deps answers) in
/-- The attempts of a stage end soundly, and log nothing but what they ask for. -/
theorem attempts_spec (stage : PipelineStage) (i : ℕ) (base : String) (left attempt : ℕ)
    (current lastError : String) (last : Option AgentResult)
    (hlast : ∀ result, last = some result → mapResultToVerdict result = .fail) :
    (∃ ending, (attempts deps answers stage i base left attempt current lastError last).result =
      .ok ending ∧ ending.Sound) ∧
    ∀ e ∈ (attempts deps answers stage i base left attempt current lastError last).events,
      e.IsAnswer := by
  induction left generalizing attempt current lastError last with
  | zero => exact ⟨⟨_, rfl, hlast⟩, by simp [attempts]⟩
  | succ left ih =>
    unfold attempts
    dsimp only
    obtain ⟨⟨ok, hok⟩, hasked⟩ := askFinalRetry_spec deps answers i attempt
    rw [(bind_ok hok _).1, (bind_ok hok _).2]
    split
    · exact ⟨⟨_, rfl, trivial⟩, by simpa using hasked⟩
    · simp only [events_log_bind, result_log_bind]
      split
      · next hfail =>
        obtain ⟨hend, hevents⟩ := ih (attempt + 1) (attemptAdapter deps stage attempt current) _ _
          fun result h => Option.some.inj h ▸ hfail
        refine ⟨hend, fun e he => ?_⟩
        rcases List.mem_append.mp he with he | he
        · exact hasked e he
        rcases List.mem_cons.mp he with rfl | he
        · trivial
        · exact hevents e he
      · next hfail =>
        refine ⟨⟨_, rfl, hfail⟩, fun e he => ?_⟩
        rcases List.mem_append.mp he with he | he
        · exact hasked e he
        · obtain rfl := List.mem_singleton.mp he
          trivial

variable (deps input answers) in
/-- The execution of a stage throws, where there is no adapter, or ends soundly. -/
theorem executeWithEscalation_spec (stage : PipelineStage) (i : ℕ) (shared : Option String) :
    (∀ ending, (executeWithEscalation deps input answers stage i shared).result = .ok ending →
      ending.Sound) ∧
    ∀ e ∈ (executeWithEscalation deps input answers stage i shared).events, e.IsAnswer := by
  unfold executeWithEscalation
  split
  · exact ⟨nofun, by simp⟩
  · next adapter hadapter =>
    obtain ⟨⟨ending, hend, hsound⟩, hevents⟩ := attempts_spec deps answers
      stage i (buildStagePrompt stage input.prompt input.observationContext shared)
      (if deps.approvalFn || deps.findAlternativeAdapter.isSome then deps.maxRetries else 1)
      0 adapter "" none nofun
    refine ⟨fun ending' h => ?_, hevents⟩
    rw [hend] at h
    exact Except.ok.inj h ▸ hsound

/-! ## The stages of a run -/

/-- The state after a stage is recorded. -/
def PipelineState.record (state : PipelineState) (i : ℕ) (result : StageResult) : PipelineState :=
  { state with
    current_stage_index := i + 1
    completed_stages := state.completed_stages ++ [result] }

/-- The state of an aborted run. -/
def PipelineState.abort (state : PipelineState) : PipelineState := { state with status := .failed }

variable (deps input answers) in
/-- **What the loop over the stages can do**, from a state and an index on: skip a stage that
is recorded, abort where the plan is denied, throw while a stage is executed, record a stage
and abort, or record it and go on. -/
inductive Stages (shared : Option String) :
    PipelineState → ℕ → List PipelineStage → Logged PipelineState → Prop
  | done {state : PipelineState} {i : ℕ} : Stages shared state i [] ⟨[], .ok state⟩
  | skip {state : PipelineState} {i : ℕ} {stage : PipelineStage} {stages : List PipelineStage}
      {out : Logged PipelineState} :
      state.completed_stages.any (·.idempotency_key = idempotencyKey input.taskId i) = true →
      Stages shared state (i + 1) stages out → Stages shared state i (stage :: stages) out
  | denied {state : PipelineState} {i : ℕ} {stage : PipelineStage} {stages : List PipelineStage}
      {asked : List Event} {gate : PlanApprovalResult} :
      (planGate deps input answers stage i shared) = ⟨asked, .ok gate⟩ → gate.approved = false →
      (∀ e ∈ asked, e.IsAnswer) →
      Stages shared state i (stage :: stages)
        ⟨asked ++ [.denied i state, .persisted state.abort], .ok state.abort⟩
  | threw {state : PipelineState} {i : ℕ} {stage : PipelineStage} {stages : List PipelineStage}
      {asked more : List Event} {gate : PlanApprovalResult} {error : String} :
      (planGate deps input answers stage i shared) = ⟨asked, .ok gate⟩ → gate.approved = true →
      executeWithEscalation deps input answers stage i shared = ⟨more, .error error⟩ →
      (∀ e ∈ asked, e.IsAnswer) → (∀ e ∈ more, e.IsAnswer) →
      Stages shared state i (stage :: stages) ⟨asked ++ .started i :: more, .error error⟩
  | stopped {state : PipelineState} {i : ℕ} {stage : PipelineStage} {stages : List PipelineStage}
      {asked more : List Event} {gate : PlanApprovalResult} {ending : Ending}
      {result : StageResult} :
      (planGate deps input answers stage i shared) = ⟨asked, .ok gate⟩ → gate.approved = true →
      executeWithEscalation deps input answers stage i shared = ⟨more, .ok ending⟩ →
      (∀ e ∈ asked, e.IsAnswer) → (∀ e ∈ more, e.IsAnswer) → ending.Sound →
      result = ending.stageResult i stage (idempotencyKey input.taskId i) →
      input.pipeline.fail_fast = true → result.verdict = .fail →
      Stages shared state i (stage :: stages)
        ⟨asked ++ .started i :: (more ++ [.recorded ending result,
          .persisted (state.record i result), .persisted (state.record i result).abort]),
          .ok (state.record i result).abort⟩
  | next {state : PipelineState} {i : ℕ} {stage : PipelineStage} {stages : List PipelineStage}
      {asked more : List Event} {gate : PlanApprovalResult} {ending : Ending}
      {result : StageResult} {out : Logged PipelineState} :
      (planGate deps input answers stage i shared) = ⟨asked, .ok gate⟩ → gate.approved = true →
      executeWithEscalation deps input answers stage i shared = ⟨more, .ok ending⟩ →
      (∀ e ∈ asked, e.IsAnswer) → (∀ e ∈ more, e.IsAnswer) → ending.Sound →
      result = ending.stageResult i stage (idempotencyKey input.taskId i) →
      ¬ (input.pipeline.fail_fast = true ∧ result.verdict = .fail) →
      Stages shared (state.record i result) (i + 1) stages out →
      Stages shared state i (stage :: stages)
        ⟨asked ++ .started i :: (more ++ .recorded ending result ::
          .persisted (state.record i result) :: out.events), out.result⟩

/-! ## One stage -/

variable {shared : Option String} {state : PipelineState} {i : ℕ} {stage : PipelineStage}
  {stages : List PipelineStage} {asked more : List Event} {gate : PlanApprovalResult}
  {ending : Ending} {error : String}

variable (deps input answers) in
/-- What comes of a stage: its plan is denied, its execution throws, or it ends soundly. -/
inductive Outcome (shared : Option String) (stage : PipelineStage) (i : ℕ) : Prop
  | denied {asked : List Event} {gate : PlanApprovalResult} :
      planGate deps input answers stage i shared = ⟨asked, .ok gate⟩ → gate.approved = false →
      (∀ e ∈ asked, e.IsAnswer) → Outcome shared stage i
  | threw {asked more : List Event} {gate : PlanApprovalResult} {error : String} :
      planGate deps input answers stage i shared = ⟨asked, .ok gate⟩ → gate.approved = true →
      executeWithEscalation deps input answers stage i shared = ⟨more, .error error⟩ →
      (∀ e ∈ asked, e.IsAnswer) → (∀ e ∈ more, e.IsAnswer) → Outcome shared stage i
  | ended {asked more : List Event} {gate : PlanApprovalResult} {ending : Ending} :
      planGate deps input answers stage i shared = ⟨asked, .ok gate⟩ → gate.approved = true →
      executeWithEscalation deps input answers stage i shared = ⟨more, .ok ending⟩ →
      (∀ e ∈ asked, e.IsAnswer) → (∀ e ∈ more, e.IsAnswer) → ending.Sound →
      Outcome shared stage i

variable (deps input answers) in
theorem stage_outcome (shared : Option String) (stage : PipelineStage) (i : ℕ) :
    Outcome deps input answers shared stage i := by
  obtain ⟨⟨gate, hgate, -⟩, hasked⟩ := planGate_spec deps input answers stage i shared
  obtain ⟨asked, hasks⟩ : ∃ asked, planGate deps input answers stage i shared =
      ⟨asked, .ok gate⟩ := ⟨_, by rw [← hgate]⟩
  rw [hasks] at hasked
  cases happroved : gate.approved with
  | false => exact .denied hasks happroved hasked
  | true =>
    obtain ⟨hsound, hmore⟩ := executeWithEscalation_spec deps input answers stage i shared
    generalize hexecuted : executeWithEscalation deps input answers stage i shared = out
      at hsound hmore
    obtain ⟨more, error | ending⟩ := out
    · exact .threw hasks happroved hexecuted hasked hmore
    · exact .ended hasks happroved hexecuted hasked hmore (hsound _ rfl)

variable (deps input answers) in
/-- What the loop does after it has recorded a stage. -/
def afterStage (shared : Option String) (state : PipelineState) (i : ℕ)
    (stages : List PipelineStage) : Logged PipelineState :=
  if input.pipeline.fail_fast = true ∧
      state.completed_stages.getLast?.map (·.verdict) = some .fail then
    ⟨[.persisted state.abort], .ok state.abort⟩
  else runStages deps input answers shared state i stages

theorem record_verdict (state : PipelineState) (i : ℕ) (result : StageResult) :
    (state.record i result).completed_stages.getLast?.map (·.verdict) = some result.verdict := by
  simp [PipelineState.record]

theorem runStages_skip
    (hrecorded : state.completed_stages.any
      (·.idempotency_key = idempotencyKey input.taskId i) = true) :
    runStages deps input answers shared state i (stage :: stages) =
      runStages deps input answers shared state (i + 1) stages := by
  rw [runStages]
  exact if_pos hrecorded

theorem runStages_denied
    (hnew : ¬ state.completed_stages.any
      (·.idempotency_key = idempotencyKey input.taskId i) = true)
    (hgate : planGate deps input answers stage i shared = ⟨asked, .ok gate⟩)
    (hdenied : gate.approved = false) :
    runStages deps input answers shared state i (stage :: stages) =
      ⟨asked ++ [.denied i state, .persisted state.abort], .ok state.abort⟩ := by
  rw [runStages]
  dsimp only
  rw [if_neg hnew, hgate, ok_bind, hdenied]
  rfl

theorem modified_plan_eq_none
    (hgate : planGate deps input answers stage i shared = ⟨asked, .ok gate⟩) :
    gate.modified_plan = none := by
  obtain ⟨⟨gate', hgate', hmodified⟩, -⟩ := planGate_spec deps input answers stage i shared
  rw [hgate] at hgate'
  exact Except.ok.inj hgate' ▸ hmodified

theorem runStages_threw
    (hnew : ¬ state.completed_stages.any
      (·.idempotency_key = idempotencyKey input.taskId i) = true)
    (hgate : planGate deps input answers stage i shared = ⟨asked, .ok gate⟩)
    (happroved : gate.approved = true)
    (hexecuted : executeWithEscalation deps input answers stage i shared = ⟨more, .error error⟩) :
    runStages deps input answers shared state i (stage :: stages) =
      ⟨asked ++ .started i :: more, .error error⟩ := by
  rw [runStages]
  dsimp only
  rw [if_neg hnew, hgate, ok_bind, happroved, modified_plan_eq_none hgate]
  change Logged.mk
    (asked ++ .started i :: (executeWithEscalation deps input answers stage i shared >>= _).events)
    (executeWithEscalation deps input answers stage i shared >>= _).result = _
  rw [hexecuted]
  rfl

theorem runStages_record
    (hnew : ¬ state.completed_stages.any
      (·.idempotency_key = idempotencyKey input.taskId i) = true)
    (hgate : planGate deps input answers stage i shared = ⟨asked, .ok gate⟩)
    (happroved : gate.approved = true)
    (hexecuted : executeWithEscalation deps input answers stage i shared = ⟨more, .ok ending⟩)
    {result : StageResult}
    (hresult : result = ending.stageResult i stage (idempotencyKey input.taskId i)) :
    runStages deps input answers shared state i (stage :: stages) =
      ⟨asked ++ .started i :: (more ++ .recorded ending result ::
          .persisted (state.record i result) ::
          (afterStage deps input answers shared (state.record i result) (i + 1) stages).events),
        (afterStage deps input answers shared (state.record i result) (i + 1) stages).result⟩ := by
  rw [runStages]
  dsimp only
  rw [if_neg hnew, hgate, ok_bind, happroved, modified_plan_eq_none hgate]
  change Logged.mk
    (asked ++ .started i :: (executeWithEscalation deps input answers stage i shared >>= _).events)
    (executeWithEscalation deps input answers stage i shared >>= _).result = _
  rw [hexecuted, ok_bind, ← hresult]
  unfold afterStage
  rw [record_verdict]
  simp only [events_log_bind, result_log_bind, Bool.and_eq_true, decide_eq_true_eq,
    Option.some.injEq]
  split
  · rfl
  · rfl

variable (deps input answers) in
/-- Every run of the loop is one of these. -/
theorem runStages_stages (shared : Option String) (state : PipelineState) (i : ℕ)
    (stages : List PipelineStage) :
    Stages deps input answers shared state i stages
      (runStages deps input answers shared state i stages) := by
  induction stages generalizing state i with
  | nil => exact .done
  | cons stage stages ih =>
    by_cases hrecorded : state.completed_stages.any
        (·.idempotency_key = idempotencyKey input.taskId i) = true
    · rw [runStages_skip hrecorded]
      exact .skip hrecorded (ih state (i + 1))
    cases stage_outcome deps input answers shared stage i with
    | denied hgate hdenied hasked =>
      rw [runStages_denied hrecorded hgate hdenied]
      exact .denied hgate hdenied hasked
    | threw hgate happroved hexecuted hasked hmore =>
      rw [runStages_threw hrecorded hgate happroved hexecuted]
      exact .threw hgate happroved hexecuted hasked hmore
    | ended hgate happroved hexecuted hasked hmore hsound =>
      rw [runStages_record hrecorded hgate happroved hexecuted rfl]
      unfold afterStage
      rw [record_verdict]
      split
      · next hstop =>
        exact .stopped hgate happroved hexecuted hasked hmore hsound rfl hstop.1
          (Option.some.inj hstop.2)
      · next hgo =>
        exact .next hgate happroved hexecuted hasked hmore hsound rfl
          (fun h => hgo ⟨h.1, congrArg some h.2⟩) (ih _ (i + 1))

theorem not_answer {e : Event} {asked : List Event} (hasked : ∀ e ∈ asked, e.IsAnswer)
    (he : ¬ e.IsAnswer) : e ∉ asked := fun hmem => he (hasked e hmem)

/-! ## A whole run -/

variable {restored : Option PipelineState}

/-- The state in which a run ends. -/
def PipelineState.close (state : PipelineState) : PipelineState :=
  { state with status := if state.status = .running then .completed else state.status }

/-- What a run does after its stages. -/
def closing (deps : Deps) (input : Input) (state : PipelineState) : List Event :=
  (complete state).events ++ (report deps input state.close).events

theorem complete_result (state : PipelineState) : (complete state).result = .ok state.close := by
  unfold complete PipelineState.close
  split
  · rfl
  · rfl

theorem report_result (deps : Deps) (input : Input) (state : PipelineState) :
    (report deps input state).result = .ok {
      pipeline_id := state.pipeline_id
      final_verdict := finalVerdict state
      stage_results := state.completed_stages
      status := state.status } := by
  unfold report
  split <;> rfl

/-- After its stages a run stores the state it ends in and gives feedback. -/
theorem mem_closing {e : Event} (he : e ∈ closing deps input state) :
    e = .persisted state.close ∨ ∃ strategyId verdict, e = .feedback strategyId verdict := by
  rcases List.mem_append.mp he with he | he
  · unfold complete at he
    split at he
    · next hrunning =>
      have he := List.mem_singleton.mp he
      exact .inl (by simp [he, PipelineState.close, hrunning])
    · exact absurd he (List.not_mem_nil)
  · unfold report at he
    split at he
    · exact .inr ⟨_, _, List.mem_singleton.mp he⟩
    · exact absurd he (List.not_mem_nil)

variable (deps input answers restored) in
/-- The loop of a run over its stages. -/
def runLoop : Logged PipelineState :=
  runStages deps input answers input.pipeline.shared_context (startState input restored)
    (startState input restored).current_stage_index
    (input.pipeline.stages.drop (startState input restored).current_stage_index)

theorem run_ok (h : (runLoop deps input answers restored).result = .ok state) :
    (run deps input answers restored).events = .persisted (startState input restored) ::
      ((runLoop deps input answers restored).events ++ closing deps input state) ∧
    (run deps input answers restored).result = .ok {
      pipeline_id := state.pipeline_id
      final_verdict := finalVerdict state
      stage_results := state.completed_stages
      status := state.close.status } := by
  unfold run
  dsimp only
  rw [events_log_bind, result_log_bind]
  change _ :: (runLoop deps input answers restored >>= _).events = _ ∧
    (runLoop deps input answers restored >>= _).result = _
  rw [(bind_ok h _).1, (bind_ok h _).2, (bind_ok (complete_result state) _).1,
    (bind_ok (complete_result state) _).2, report_result]
  exact ⟨rfl, rfl⟩

theorem run_error {error : String} (h : (runLoop deps input answers restored).result = .error error) :
    (run deps input answers restored).events = .persisted (startState input restored) ::
      (runLoop deps input answers restored).events ∧
    (run deps input answers restored).result = .error error := by
  unfold run
  dsimp only
  rw [events_log_bind, result_log_bind]
  change _ :: (runLoop deps input answers restored >>= _).events = _ ∧
    (runLoop deps input answers restored >>= _).result = _
  rw [(bind_error h _).1, (bind_error h _).2]
  exact ⟨rfl, rfl⟩

/-- What marks the way of a stage is logged by the loop. -/
theorem mem_run {e : Event} (hpersisted : ∀ s, e ≠ .persisted s)
    (hfeedback : ∀ strategyId verdict, e ≠ .feedback strategyId verdict) :
    e ∈ (run deps input answers restored).events ↔
      e ∈ (runLoop deps input answers restored).events := by
  cases hresult : (runLoop deps input answers restored).result with
  | error error =>
    rw [(run_error hresult).1, List.mem_cons, or_iff_right (hpersisted _)]
  | ok state =>
    rw [(run_ok hresult).1, List.mem_cons, or_iff_right (hpersisted _), List.mem_append]
    refine or_iff_left fun he => ?_
    rcases mem_closing he with he | ⟨strategyId, verdict, he⟩
    · exact hpersisted _ he
    · exact hfeedback _ _ he

theorem startState_status (input : Input) (restored : Option PipelineState) :
    (startState input restored).status = .running := by
  unfold startState
  split <;> rfl

end Stages

end PulSeed.Pipeline
