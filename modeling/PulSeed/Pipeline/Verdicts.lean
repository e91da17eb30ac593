import PulSeed.Pipeline.Group
import PulSeed.Pipeline.Stages

/-!
# The verdicts of pipelines and groups

The result that a stage leaves is made of its success alone, so that a result that was neither
a success nor an error is recorded as a failure; and the verdict of a run is that of its last
recorded stage, also when the run was aborted after it.

- `Ending.Expects`: the verdict that the end of a stage calls for.
- `Faithful`: the verdicts of a run are faithful.
- `verdicts_faithful_iff`: **the verdicts of a run and of a group are faithful exactly when
  every result that is accepted for a stage of the run is a success, and no plan is denied right
  after a stage that passed.** A group passes only if all its subtasks do.
-/

namespace PulSeed.Pipeline

open Logged

/-- The verdict that the end of a stage calls for: that of the result that ended it. -/
def Ending.Expects (verdict : Verdict) : Ending → Prop
  | .accepted result => verdict = mapResultToVerdict result
  | .rejected => verdict = .fail
  | .exhausted (some result) => verdict = mapResultToVerdict result
  | .exhausted none => True

/-- The verdicts of a run are faithful: each recorded result has the verdict that the end of its
stage calls for, and the run passes only if it is completed. -/
structure Faithful (deps : Deps) (input : Input) (answers : Answers)
    (restored : Option PipelineState) : Prop where
  recorded : ∀ ending result, .recorded ending result ∈ (run deps input answers restored).events →
    ending.Expects result.verdict
  final : ∀ result, (run deps input answers restored).result = .ok result →
    result.final_verdict = .pass → result.status = .completed

/-- The runs with faithful verdicts: what is accepted for a stage is a success, and where a plan
is denied, no stage is recorded or the last one did not pass. -/
structure Plain (deps : Deps) (input : Input) (answers : Answers)
    (restored : Option PipelineState) : Prop where
  successes : ∀ result recorded,
    .recorded (.accepted result) recorded ∈ (run deps input answers restored).events →
    result.success = true
  plans : ∀ i state, .denied i state ∈ (run deps input answers restored).events →
    finalVerdict state ≠ .pass

/-- What is stored for a task: nothing, a state that a run has stored, or one that was marked as
interrupted. -/
inductive Written : Option PipelineState → Prop
  | nothing : Written none
  | persisted {deps : Deps} {input : Input} {answers : Answers} {restored : Option PipelineState}
      {state : PipelineState} : Written restored →
      .persisted state ∈ (run deps input answers restored).events → Written (some state)
  | interrupted {state : PipelineState} : Written (some state) →
      Written (some { state with status := .interrupted })

section Verdicts

variable {deps : Deps} {input : Input} {answers : Answers} {restored : Option PipelineState}
  {shared : Option String} {state state' : PipelineState} {i : ℕ} {stages : List PipelineStage}
  {out : Logged PipelineState}

/-- The verdict of a recorded result follows the success of the accepted result alone. -/
theorem stageResult_verdict (ending : Ending) (i : ℕ) (stage : PipelineStage) (key : String) :
    (ending.stageResult i stage key).verdict =
      match ending with
      | .accepted result => if result.success then .pass else .fail
      | .rejected => .fail
      | .exhausted _ => .fail := by
  cases ending with
  | accepted result => cases hsuccess : result.success <;>
      simp [Ending.stageResult, makeStageResult, mapResultToVerdict, hsuccess]
  | rejected => rfl
  | exhausted last => rfl

/-- A sound end is recorded with its verdict exactly when what is accepted is a success. -/
theorem expects_stageResult_iff {ending : Ending} (h : ending.Sound) (i : ℕ)
    (stage : PipelineStage) (key : String) :
    ending.Expects (ending.stageResult i stage key).verdict ↔
      ∀ result, ending = .accepted result → result.success = true := by
  rw [stageResult_verdict]
  cases ending with
  | accepted result =>
    simp only [Ending.Expects, Ending.accepted.injEq, forall_eq']
    have h : mapResultToVerdict result ≠ .fail := h
    unfold mapResultToVerdict at h ⊢
    split at h
    · exact absurd rfl h
    · next hreason =>
      rw [if_neg hreason]
      cases result.success <;> simp
  | rejected => simp [Ending.Expects]
  | exhausted last =>
    cases last with
    | none => simp [Ending.Expects]
    | some result => simp [Ending.Expects, h result rfl]

/-- What is recorded is the result of a sound end. -/
theorem Stages.recorded (h : Stages deps input answers shared state i stages out)
    {ending : Ending} {result : StageResult} (hmem : .recorded ending result ∈ out.events) :
    ending.Sound ∧ ∃ j stage key, result = ending.stageResult j stage key := by
  induction h with
  | done => exact absurd hmem (List.not_mem_nil)
  | skip _ _ ih => exact ih hmem
  | denied _ _ hasked =>
    have hno := not_answer hasked (e := .recorded ending result) id
    simp [hno] at hmem
  | threw _ _ _ hasked hmore =>
    have hno := not_answer hasked (e := .recorded ending result) id
    have hno' := not_answer hmore (e := .recorded ending result) id
    simp [hno, hno'] at hmem
  | @stopped state i stage _ _ _ _ _ _ _ _ _ hasked hmore hsound hresult =>
    have hno := not_answer hasked (e := .recorded ending result) id
    have hno' := not_answer hmore (e := .recorded ending result) id
    simp only [List.mem_append, List.mem_cons, hno, hno', reduceCtorEq, List.not_mem_nil,
      or_false, false_or, Event.recorded.injEq] at hmem
    obtain ⟨rfl, rfl⟩ := hmem
    exact ⟨hsound, i, stage, _, hresult⟩
  | @next state i stage _ _ _ _ _ _ _ _ _ _ hasked hmore hsound hresult _ _ ih =>
    have hno := not_answer hasked (e := .recorded ending result) id
    have hno' := not_answer hmore (e := .recorded ending result) id
    simp only [List.mem_append, List.mem_cons, hno, hno', reduceCtorEq, false_or,
      Event.recorded.injEq] at hmem
    rcases hmem with ⟨rfl, rfl⟩ | hmem
    · exact ⟨hsound, i, stage, _, hresult⟩
    · exact ih hmem

/-- A run whose plan is denied is aborted in the state before. -/
theorem Stages.denied_result (h : Stages deps input answers shared state i stages out) {j : ℕ}
    (hmem : .denied j state' ∈ out.events) : out.result = .ok state'.abort := by
  induction h with
  | done => exact absurd hmem (List.not_mem_nil)
  | skip _ _ ih => exact ih hmem
  | denied _ _ hasked =>
    have hno := not_answer hasked (e := .denied j state') id
    simp only [List.mem_append, List.mem_cons, hno, reduceCtorEq, List.not_mem_nil, or_false,
      false_or, Event.denied.injEq] at hmem
    rw [hmem.2]
  | threw _ _ _ hasked hmore =>
    have hno := not_answer hasked (e := .denied j state') id
    have hno' := not_answer hmore (e := .denied j state') id
    simp [hno, hno'] at hmem
  | stopped _ _ _ hasked hmore =>
    have hno := not_answer hasked (e := .denied j state') id
    have hno' := not_answer hmore (e := .denied j state') id
    simp [hno, hno'] at hmem
  | next _ _ _ hasked hmore _ _ _ _ ih =>
    have hno := not_answer hasked (e := .denied j state') id
    have hno' := not_answer hmore (e := .denied j state') id
    simp only [List.mem_append, List.mem_cons, hno, hno', reduceCtorEq, false_or] at hmem
    exact ih hmem

theorem finalVerdict_record (state : PipelineState) (i : ℕ) (result : StageResult) :
    finalVerdict (state.record i result).abort = result.verdict := by
  simp [finalVerdict, PipelineState.record, PipelineState.abort]

/-- A run that is not denied a plan goes on to its end, or is aborted with a failure. -/
theorem Stages.not_denied (h : Stages deps input answers shared state i stages out)
    (hrunning : state.status = .running) (hresult : out.result = .ok state') :
    (∃ j s, .denied j s ∈ out.events) ∨ state'.status = .running ∨
      state'.status = .failed ∧ finalVerdict state' = .fail := by
  induction h with
  | done => exact .inr (.inl (Except.ok.inj hresult ▸ hrunning))
  | skip _ _ ih => exact ih hrunning hresult
  | @denied state i => exact .inl ⟨i, state, by simp⟩
  | threw => exact nomatch hresult
  | stopped _ _ _ _ _ _ _ _ hfail =>
    obtain rfl := Except.ok.inj hresult
    exact .inr (.inr ⟨rfl, (finalVerdict_record ..).trans hfail⟩)
  | next _ _ _ _ _ _ _ _ _ ih =>
    rcases ih hrunning hresult with ⟨j, s, hmem⟩ | hend
    · exact .inl ⟨j, s, by simp [hmem]⟩
    · exact .inr hend

/-! ## A whole run -/

/-- The result that an event adds to the completed stages. -/
def Event.addedResult : Event → Option StageResult
  | .recorded _ result => some result
  | _ => none

theorem addedResults_answers {asked : List Event} (hasked : ∀ e ∈ asked, e.IsAnswer) :
    asked.filterMap Event.addedResult = [] := by
  refine List.filterMap_eq_nil_iff.mpr fun e he => ?_
  have hanswer := hasked e he
  cases e with
  | recorded => exact hanswer.elim
  | _ => rfl

theorem Stages.completed_stages (h : Stages deps input answers shared state i stages out)
    (hresult : out.result = .ok state') :
    state'.completed_stages = state.completed_stages ++ out.events.filterMap Event.addedResult := by
  induction h with
  | done => simp [← Except.ok.inj hresult]
  | skip _ _ ih => exact ih hresult
  | denied _ _ hasked =>
    rw [← Except.ok.inj hresult, List.filterMap_append, addedResults_answers hasked]
    simp [PipelineState.abort, Event.addedResult]
  | threw => exact nomatch hresult
  | stopped _ _ _ hasked hmore =>
    rw [← Except.ok.inj hresult]
    simp [PipelineState.abort, PipelineState.record, Event.addedResult, List.filterMap_cons,
      addedResults_answers hasked, addedResults_answers hmore]
  | next _ _ _ hasked hmore _ _ _ _ ih =>
    rw [ih hresult]
    simp [PipelineState.record, Event.addedResult, List.filterMap_cons,
      addedResults_answers hasked, addedResults_answers hmore]

/-- **The verdicts of a run are faithful** exactly when it is plain. -/
theorem faithful_iff :
    Faithful deps input answers restored ↔ Plain deps input answers restored := by
  have hstages := runStages_stages deps input answers input.pipeline.shared_context
    (startState input restored) (startState input restored).current_stage_index
    (input.pipeline.stages.drop (startState input restored).current_stage_index)
  have hstages : Stages deps input answers _ _ _ _ (runLoop deps input answers restored) := hstages
  constructor
  · intro h
    refine ⟨fun result recorded hmem => ?_, fun i state hmem hpass => ?_⟩
    · have hmem' := (mem_run (by simp) (by simp)).mp hmem
      obtain ⟨hsound, j, stage, key, rfl⟩ := hstages.recorded hmem'
      exact (expects_stageResult_iff hsound j stage key).mp (h.recorded _ _ hmem) result rfl
    · have hmem' := (mem_run (by simp) (by simp)).mp hmem
      have hcompleted := h.final _ (run_ok (hstages.denied_result hmem')).2 hpass
      simp [PipelineState.close, PipelineState.abort] at hcompleted
  · intro h
    refine ⟨fun ending result hmem => ?_, fun result hresult hpass => ?_⟩
    · have hmem' := (mem_run (by simp) (by simp)).mp hmem
      obtain ⟨hsound, j, stage, key, rfl⟩ := hstages.recorded hmem'
      refine (expects_stageResult_iff hsound j stage key).mpr fun result heq => ?_
      exact h.successes result _ (heq ▸ hmem)
    · cases hloop : (runLoop deps input answers restored).result with
      | error error =>
        rw [(run_error hloop).2] at hresult
        cases hresult
      | ok state =>
        rw [(run_ok hloop).2] at hresult
        obtain rfl := Except.ok.inj hresult
        rcases hstages.not_denied (startState_status ..) hloop with ⟨j, s, hmem⟩ | hrunning |
          ⟨-, hfail⟩
        · have hdenied := hstages.denied_result hmem
          rw [hloop] at hdenied
          obtain rfl := Except.ok.inj hdenied
          exact absurd hpass (h.plans j s ((mem_run (by simp) (by simp)).mpr hmem))
        · simp [PipelineState.close, hrunning]
        · exact absurd (hfail.symm.trans hpass) (by simp)

/-! ## Groups -/

/-- No stage is recorded as passed in part. -/
def Decided (state : PipelineState) : Prop := ∀ r ∈ state.completed_stages, r.verdict ≠ .partly

theorem Decided.record (h : Decided state) (ending : Ending) (i j : ℕ) (stage : PipelineStage)
    (key : String) : Decided (state.record i (ending.stageResult j stage key)) := by
  intro r hr
  rcases List.mem_append.mp hr with hr | hr
  · exact h r hr
  · rw [List.mem_singleton.mp hr, stageResult_verdict]
    cases ending with
    | accepted result => cases hsuccess : result.success <;> simp [hsuccess]
    | rejected => simp
    | exhausted last => simp

theorem Stages.decided (h : Stages deps input answers shared state i stages out)
    (hstate : Decided state) :
    (∀ s, .persisted s ∈ out.events → Decided s) ∧ ∀ s, out.result = .ok s → Decided s := by
  induction h with
  | done => exact ⟨fun s hs => absurd hs (List.not_mem_nil), fun s hs => Except.ok.inj hs ▸ hstate⟩
  | skip _ _ ih => exact ih hstate
  | denied _ _ hasked =>
    refine ⟨fun s hs => ?_, fun s hs => Except.ok.inj hs ▸ hstate⟩
    have hno := not_answer hasked (e := .persisted s) id
    simp only [List.mem_append, List.mem_cons, hno, reduceCtorEq, List.not_mem_nil, or_false,
      false_or, Event.persisted.injEq] at hs
    exact hs ▸ hstate
  | threw _ _ _ hasked hmore =>
    refine ⟨fun s hs => ?_, nofun⟩
    have hno := not_answer hasked (e := .persisted s) id
    have hno' := not_answer hmore (e := .persisted s) id
    simp [hno, hno'] at hs
  | @stopped state i stage _ _ _ _ ending _ _ _ _ hasked hmore _ hresult =>
    have hrecord := hstate.record ending i i stage (idempotencyKey input.taskId i)
    rw [← hresult] at hrecord
    refine ⟨fun s hs => ?_, fun s hs => Except.ok.inj hs ▸ hrecord⟩
    have hno := not_answer hasked (e := .persisted s) id
    have hno' := not_answer hmore (e := .persisted s) id
    simp only [List.mem_append, List.mem_cons, hno, hno', reduceCtorEq, List.not_mem_nil,
      or_false, false_or, Event.persisted.injEq] at hs
    rcases hs with rfl | rfl
    · exact hrecord
    · exact hrecord
  | @next state i stage _ _ _ _ ending _ _ _ _ _ hasked hmore _ hresult _ _ ih =>
    have hrecord := hstate.record ending i i stage (idempotencyKey input.taskId i)
    rw [← hresult] at hrecord
    refine ⟨fun s hs => ?_, (ih hrecord).2⟩
    have hno := not_answer hasked (e := .persisted s) id
    have hno' := not_answer hmore (e := .persisted s) id
    simp only [List.mem_append, List.mem_cons, hno, hno', reduceCtorEq, false_or,
      Event.persisted.injEq] at hs
    rcases hs with rfl | hs
    · exact hrecord
    · exact (ih hrecord).1 s hs

theorem decided_startState (input : Input) (h : ∀ s, restored = some s → Decided s) :
    Decided (startState input restored) := by
  unfold startState
  split
  · next s hs => exact h s (Option.eq_some_of_filter_eq_some hs)
  · exact fun r hr => absurd hr (List.not_mem_nil)

variable (deps input answers) in
theorem decided_runLoop (h : ∀ s, restored = some s → Decided s) :
    (∀ s, .persisted s ∈ (runLoop deps input answers restored).events → Decided s) ∧
      ∀ s, (runLoop deps input answers restored).result = .ok s → Decided s :=
  (runStages_stages deps input answers _ _ _ _).decided (decided_startState input h)

/-- What runs store is decided. -/
theorem Written.decided (h : Written restored) : ∀ s, restored = some s → Decided s := by
  induction h with
  | nothing => exact nofun
  | @persisted deps input answers restored state _ hmem ih =>
    intro s hs
    obtain rfl := Option.some.inj hs
    have hloop := decided_runLoop deps input answers ih
    cases hresult : (runLoop deps input answers restored).result with
    | error error =>
      rw [(run_error hresult).1] at hmem
      rcases List.mem_cons.mp hmem with hmem | hmem
      · exact Event.persisted.inj hmem ▸ decided_startState input ih
      · exact hloop.1 _ hmem
    | ok last =>
      rw [(run_ok hresult).1] at hmem
      rcases List.mem_cons.mp hmem with hmem | hmem
      · exact Event.persisted.inj hmem ▸ decided_startState input ih
      rcases List.mem_append.mp hmem with hmem | hmem
      · exact hloop.1 _ hmem
      rcases mem_closing hmem with hmem | ⟨_, _, hmem⟩
      · exact Event.persisted.inj hmem ▸ hloop.2 last hresult
      · exact nomatch hmem
  | @interrupted state _ ih =>
    intro s hs
    obtain rfl := Option.some.inj hs
    exact ih state rfl

end Verdicts

end PulSeed.Pipeline

namespace PulSeed.Parallel

open Pipeline

section Verdicts

variable {deps : Deps} {group : TaskGroup} {strategyId : Option String}
  {pipelineId : String → String}

/-- A subtask passes or fails. -/
theorem runSubtask_verdict (answers : Answers) {restored : Option PipelineState}
    (h : Written restored) (taskId : String) :
    (runSubtask deps group strategyId pipelineId answers restored taskId).verdict ≠ .partly := by
  unfold runSubtask
  split
  · simp
  · next subtask hsubtask =>
    dsimp only
    split
    · simp
    · next result hresult =>
      dsimp only
      generalize hinput : Input.mk .. = input at hresult
      cases hloop : (runLoop deps input answers restored).result with
      | error error =>
        rw [(run_error hloop).2] at hresult
        cases hresult
      | ok state =>
        rw [(run_ok hloop).2] at hresult
        obtain rfl := Except.ok.inj hresult
        have hdecided := (decided_runLoop deps input answers h.decided).2 state hloop
        dsimp only
        unfold finalVerdict
        cases hlast : state.completed_stages.getLast? with
        | none => simp
        | some r => simpa using hdecided r (List.mem_of_getLast? hlast)

/-- A group without subtasks that pass in part passes only if all of them pass. -/
theorem pass_of_aggregateVerdict {results : List SubtaskResult}
    (hdecided : ∀ r ∈ results, r.verdict ≠ .partly) (h : aggregateVerdict results = .pass) :
    ∀ r ∈ results, r.verdict = .pass := by
  intro r hr
  unfold aggregateVerdict at h
  split at h
  · cases h
  split at h
  · next hfail =>
    simp only [Bool.not_eq_true', List.any_eq_false, decide_eq_true_eq] at hfail
    cases hverdict : r.verdict with
    | pass => rfl
    | partly => exact absurd hverdict (hdecided r hr)
    | fail => exact absurd hverdict (hfail r hr)
  split at h
  · cases h
  · cases h

end Verdicts

/-- The verdict of a group is faithful: where `execute` is at its end, with the results of its
subtasks, each run from what runs have stored, the group passes only if every subtask does. -/
def GroupFaithful (deps : Deps) (group : TaskGroup) (strategyId : Option String)
    (pipelineId : String → String) (concurrencyLimit : ℕ) : Prop :=
  ∀ initial events s, begin group = .ok initial →
    (executionLTS concurrencyLimit).Run initial events s → Done s →
    (∀ r ∈ s.results, ∃ answers restored, Written restored ∧
      r = runSubtask deps group strategyId pipelineId answers restored r.task_id) →
    s.overallVerdict = .pass → ∀ r ∈ s.results, r.verdict = .pass

/-- **The verdicts of a run and of a group are faithful** exactly when the run accepts only
successes for its stages and no plan is denied right after a stage that passed. -/
theorem verdicts_faithful_iff (deps : Deps) (input : Input) (answers : Answers)
    (restored : Option PipelineState) (groupDeps : Deps) (group : TaskGroup)
    (strategyId : Option String) (pipelineId : String → String) (concurrencyLimit : ℕ) :
    (Faithful deps input answers restored ∧
      GroupFaithful groupDeps group strategyId pipelineId concurrencyLimit) ↔
      Plain deps input answers restored := by
  rw [faithful_iff, and_iff_left]
  intro initial events s _ _ _ hresults hpass
  refine pass_of_aggregateVerdict (fun r hr => ?_) hpass
  obtain ⟨answers, restored, hwritten, heq⟩ := hresults r hr
  rw [heq]
  exact runSubtask_verdict answers hwritten r.task_id

/-! A stage whose adapter is blocked by a policy: not a success, and neither an error. -/

def blockedInput : Input where
  taskId := "t"
  prompt := "write"
  pipeline := { stages := [{ role := .implementor }] }
  pipelineId := "p"

def blockedAnswers : Answers where
  plan _ := .invalid
  approvePlan _ := false
  attempt _ _ := .executed { success := false, output := "", stopped_reason := some .policy_blocked }
  approveRetry _ := false

/-- **A result that is no failure is recorded as one.** -/
theorem blocked_not_faithful :
    ¬ Faithful { adapters := ["a"] } blockedInput blockedAnswers none := by
  intro h
  have hmem : Event.recorded
      (.accepted { success := false, output := "", stopped_reason := some .policy_blocked })
      (makeStageResult 0 { role := .implementor } (idempotencyKey "t" 0) false "" none) ∈
        (run { adapters := ["a"] } blockedInput blockedAnswers none).events :=
    .tail _ (.tail _ (.tail _ (.head _)))
  have hverdict : Verdict.fail = .partly := h.recorded _ _ hmem
  exact nomatch hverdict

end PulSeed.Parallel
