import PulSeed.Pipeline.Waves

/-!
# The execution of a group

Whatever the order in which the subtasks of a wave end, each is taken by one worker and leaves
one result, a wave ends only when all its subtasks have ended, and every execution ends. So a
group respects its dependencies exactly when its waves do.

- `Wave.Sound`: where the workers of a wave are.
- `Progress`: where an execution is: the waves that are done, with their results, and those to
  come.
- `State.cost`: every step lowers it, so that executions end.
- `respects_iff`: **a group respects its dependencies exactly when no file lists several owners
  and every subtask that waits for a missing one is downstream of a cycle**, or no wave is
  changed by the wait.
-/

namespace PulSeed.Parallel

open Layers

/-- The subtask that an event starts. -/
def State.starting (s : State) : Event → Option String
  | .take _ => s.wave.bind fun wave => wave.tasks[wave.nextIndex]?
  | _ => none

/-- The subtasks that have finished. -/
def State.finished (s : State) : List String :=
  ((s.allResults ++ (s.wave.map (·.results)).getD []).filterMap id).map (·.task_id)

def Worker.isBusy : Worker → Bool
  | .busy _ => true
  | _ => false

/-- How many subtasks are running. -/
def State.running (s : State) : ℕ := (s.wave.map (·.workers.countP Worker.isBusy)).getD 0

/-- The dependencies of a group among its subtasks. -/
def TaskGroup.Feeds (group : TaskGroup) : String → String → Prop :=
  Inside (Parallel.Feeds group) group.ids

/-- A group respects its dependencies: every execution ends, with one result for each subtask,
runs at most so many at once and starts a subtask that is not downstream of a cycle only after
the subtasks that it depends on, and a dependency that names no subtask changes no wave. -/
structure Respects (group : TaskGroup) (concurrencyLimit : ℕ) : Prop where
  begins : ∃ s, begin group = .ok s
  ends : ∀ s, begin group = .ok s → ∃ bound, ∀ events s',
    (executionLTS concurrencyLimit).Run s events s' → events.length ≤ bound
  goes_on : ∀ s events s', begin group = .ok s →
    (executionLTS concurrencyLimit).Run s events s' →
    Done s' ∨ ∃ event s'', step concurrencyLimit s' event = some s''
  one_result : ∀ s events s', begin group = .ok s →
    (executionLTS concurrencyLimit).Run s events s' → Done s' →
    (s'.allResults.map (Option.map (·.task_id))).Perm (group.ids.map some)
  limited : ∀ s events s', begin group = .ok s →
    (executionLTS concurrencyLimit).Run s events s' → s'.running ≤ concurrencyLimit
  ordered : ∀ s events s' event s'' source target, begin group = .ok s →
    (executionLTS concurrencyLimit).Run s events s' →
    step concurrencyLimit s' event = some s'' → s'.starting event = some target →
    ¬ AfterCycle group.Feeds target → group.Feeds source target → source ∈ s'.finished
  undelayed : buildExecutionOrder group = buildExecutionOrder group.grounded

/-! ## The workers of a wave -/

/-- Where the workers of a wave are: each subtask that was taken is with one worker or has its
result, and a worker leaves only when none is left. -/
structure Wave.Sound (wave : Wave) (concurrencyLimit : ℕ) : Prop where
  workers : wave.workers.length = min concurrencyLimit wave.tasks.length
  results : wave.results.length = wave.tasks.length
  next : wave.nextIndex ≤ wave.tasks.length
  busy : ∀ (k i : ℕ), wave.workers[k]? = some (.busy i) → i < wave.nextIndex
  taken : ∀ i < wave.nextIndex, (∃ k : ℕ, wave.workers[k]? = some (.busy i)) ∨
    ∃ result, wave.results[i]? = some (some result) ∧ wave.tasks[i]? = some result.task_id
  left : ∀ k : ℕ, wave.workers[k]? = some .finished → wave.nextIndex = wave.tasks.length

section Wave

variable {concurrencyLimit : ℕ} {wave wave' : Wave} {event : Event}

theorem startWave_sound (tasks : List String) :
    (startWave concurrencyLimit tasks).Sound concurrencyLimit where
  workers := by simp [startWave]
  results := by simp [startWave]
  next := Nat.zero_le _
  busy k i hk := by
    have hmem := List.mem_of_getElem? hk
    exact nomatch List.eq_of_mem_replicate hmem
  taken i hi := absurd hi (Nat.not_lt_zero i)
  left k hk := by
    have hmem := List.mem_of_getElem? hk
    exact nomatch List.eq_of_mem_replicate hmem

/-- What a step within a wave does. -/
theorem stepWave_cases (h : stepWave wave event = some wave') :
    (∃ k, event = .take k ∧ wave.workers[k]? = some .free ∧
      wave.nextIndex < wave.tasks.length ∧ wave' = { wave with
        nextIndex := wave.nextIndex + 1
        workers := wave.workers.set k (.busy wave.nextIndex) }) ∨
    (∃ k i result, wave.workers[k]? = some (.busy i) ∧ wave.tasks[i]? = some result.task_id ∧
      wave' = { wave with
        workers := wave.workers.set k .free
        results := wave.results.set i (some result) }) ∨
    ∃ k, wave.workers[k]? = some .free ∧ wave.tasks.length ≤ wave.nextIndex ∧
      wave' = { wave with workers := wave.workers.set k .finished } := by
  cases event with
  | take k =>
    simp only [stepWave] at h
    split at h
    · next hfree => exact .inl ⟨k, rfl, hfree.1, hfree.2, (Option.some.inj h).symm⟩
    · cases h
  | finish k verdict output error =>
    simp only [stepWave] at h
    split at h
    · next i hbusy =>
      obtain ⟨taskId, htask, rfl⟩ := Option.map_eq_some_iff.mp h
      exact .inr (.inl ⟨k, i, ⟨taskId, verdict, output, error⟩, hbusy, htask, rfl⟩)
    · cases h
  | leave k =>
    simp only [stepWave] at h
    split at h
    · next hfree => exact .inr (.inr ⟨k, hfree.1, hfree.2, (Option.some.inj h).symm⟩)
    · cases h
  | openWave => cases h
  | closeWave => cases h

/-- A worker is set to something: what the others do is unchanged. -/
theorem getElem?_set_cases {workers : List Worker} {k j : ℕ} {worker worker' : Worker}
    (h : (workers.set k worker)[j]? = some worker') :
    (j = k ∧ worker' = worker) ∨ (j ≠ k ∧ workers[j]? = some worker') := by
  rw [List.getElem?_set] at h
  split at h
  · next heq =>
    split at h
    · exact .inl ⟨heq.symm, (Option.some.inj h).symm⟩
    · cases h
  · next hne => exact .inr ⟨Ne.symm hne, h⟩

theorem Wave.Sound.step (h : wave.Sound concurrencyLimit) (hstep : stepWave wave event = some wave') :
    wave'.Sound concurrencyLimit := by
  rcases stepWave_cases hstep with ⟨k, -, hfree, hlt, rfl⟩ | ⟨k, i, result, hbusy, htask, rfl⟩ |
    ⟨k, hfree, hle, rfl⟩
  · refine ⟨by simpa using h.workers, h.results, hlt, fun j i hj => ?_, fun i hi => ?_,
      fun j hj => ?_⟩
    · rcases getElem?_set_cases hj with ⟨-, heq⟩ | ⟨-, hj⟩
      · obtain rfl := Worker.busy.inj heq
        exact Nat.lt_succ_self _
      · exact (h.busy j i hj).trans (Nat.lt_succ_self _)
    · rcases Nat.lt_succ_iff_lt_or_eq.mp hi with hi | rfl
      · refine (h.taken i hi).imp_left fun ⟨j, hj⟩ => ⟨j, ?_⟩
        have hne : k ≠ j := by
          rintro rfl
          exact nomatch hfree.symm.trans hj
        exact (List.getElem?_set_ne hne).trans hj
      · exact .inl ⟨k, List.getElem?_set_self (List.getElem?_eq_some_iff.mp hfree).1⟩
    · rcases getElem?_set_cases hj with ⟨-, heq⟩ | ⟨-, hj⟩
      · exact nomatch heq
      · have hdone := h.left j hj
        omega
  · refine ⟨by simpa using h.workers, by simpa using h.results, h.next, fun j i' hj => ?_,
      fun i' hi' => ?_, fun j hj => ?_⟩
    · rcases getElem?_set_cases hj with ⟨-, heq⟩ | ⟨-, hj⟩
      · exact nomatch heq
      · exact h.busy j i' hj
    · by_cases heq : i' = i
      · subst heq
        refine .inr ⟨result, List.getElem?_set_self ?_, htask⟩
        rw [h.results]
        exact (List.getElem?_eq_some_iff.mp htask).1
      · rcases h.taken i' hi' with ⟨j, hj⟩ | ⟨result', hresult, htask'⟩
        · have hne : k ≠ j := by
            rintro rfl
            exact heq (Worker.busy.inj (Option.some.inj (hj.symm.trans hbusy)))
          exact .inl ⟨j, (List.getElem?_set_ne hne).trans hj⟩
        · exact .inr ⟨result', (List.getElem?_set_ne (Ne.symm heq)).trans hresult, htask'⟩
    · rcases getElem?_set_cases hj with ⟨-, heq⟩ | ⟨-, hj⟩
      · exact nomatch heq
      · exact h.left j hj
  · refine ⟨by simpa using h.workers, h.results, h.next, fun j i hj => ?_, fun i hi => ?_,
      fun j _ => le_antisymm h.next hle⟩
    · rcases getElem?_set_cases hj with ⟨-, heq⟩ | ⟨-, hj⟩
      · exact nomatch heq
      · exact h.busy j i hj
    · refine (h.taken i hi).imp_left fun ⟨j, hj⟩ => ⟨j, ?_⟩
      have hne : k ≠ j := by
        rintro rfl
        exact nomatch hfree.symm.trans hj
      exact (List.getElem?_set_ne hne).trans hj

/-- **When all workers have left, each subtask of the wave has its result.** -/
theorem Wave.Sound.results_eq (h : wave.Sound concurrencyLimit) (hlimit : 0 < concurrencyLimit)
    (hleft : wave.workers.all (· = .finished) = true) :
    wave.results.map (Option.map (·.task_id)) = wave.tasks.map some := by
  have hfinished : ∀ (k : ℕ) (worker : Worker), wave.workers[k]? = some worker →
      worker = .finished := fun k worker hk =>
    of_decide_eq_true (List.all_eq_true.mp hleft worker (List.mem_of_getElem? hk))
  refine List.ext_getElem? fun i => ?_
  rw [List.getElem?_map, List.getElem?_map]
  by_cases hi : i < wave.tasks.length
  · have hnext : wave.nextIndex = wave.tasks.length := by
      have hpos : 0 < wave.workers.length := by rw [h.workers]; omega
      have hworker := List.getElem?_eq_getElem hpos
      rw [hfinished 0 _ hworker] at hworker
      exact h.left 0 hworker
    rcases h.taken i (hnext ▸ hi) with ⟨k, hk⟩ | ⟨result, hresult, htask⟩
    · exact nomatch hfinished k _ hk
    · rw [hresult, htask]
      rfl
  · rw [List.getElem?_eq_none (Nat.not_lt.mp hi),
      List.getElem?_eq_none (by rw [h.results]; exact Nat.not_lt.mp hi)]
    rfl

/-- A wave is never stuck: a subtask can end, a free worker can go on, or all have left. -/
theorem Wave.Sound.goes_on (h : wave.Sound concurrencyLimit) :
    wave.workers.all (· = .finished) = true ∨ ∃ event wave', stepWave wave event = some wave' := by
  by_cases hall : wave.workers.all (· = .finished) = true
  · exact .inl hall
  simp only [List.all_eq_true, decide_eq_true_eq, not_forall] at hall
  obtain ⟨worker, hmem, hne⟩ := hall
  obtain ⟨k, hk⟩ := List.mem_iff_getElem?.mp hmem
  refine .inr ?_
  cases worker with
  | free =>
    by_cases hlt : wave.nextIndex < wave.tasks.length
    · exact ⟨.take k, _, if_pos ⟨hk, hlt⟩⟩
    · exact ⟨.leave k, _, if_pos ⟨hk, Nat.not_lt.mp hlt⟩⟩
  | busy i =>
    have hi := (h.busy k i hk).trans_le h.next
    exact ⟨.finish k .pass "" none, by simp [stepWave, hk, hi]⟩
  | finished => exact absurd rfl hne

end Wave

/-! ## Where an execution is -/

/-- What is left to do for a worker. -/
def Worker.cost : Worker → ℕ
  | .free => 1
  | .busy _ => 2
  | .finished => 0

/-- What is left to do in a wave: to take its subtasks, to finish them, and to leave. -/
def Wave.cost (wave : Wave) : ℕ :=
  2 * (wave.tasks.length - wave.nextIndex) + (wave.workers.map Worker.cost).sum + 1

/-- What is left to do in an execution. -/
def State.cost (concurrencyLimit : ℕ) (s : State) : ℕ :=
  (s.waves.map fun tasks => (startWave concurrencyLimit tasks).cost + 1).sum +
    (s.wave.map Wave.cost).getD 0

theorem cost_set {workers : List Worker} {k : ℕ} {worker : Worker} (worker' : Worker)
    (h : workers[k]? = some worker) :
    ((workers.set k worker').map Worker.cost).sum + worker.cost =
      (workers.map Worker.cost).sum + worker'.cost := by
  induction workers generalizing k with
  | nil => exact absurd h (by simp)
  | cons first workers ih =>
    cases k with
    | zero =>
      obtain rfl := Option.some.inj h
      simp only [List.set_cons_zero, List.map_cons, List.sum_cons]
      omega
    | succ k =>
      have hrest := ih (k := k) h
      simp only [List.set_cons_succ, List.map_cons, List.sum_cons]
      omega

theorem stepWave_cost {wave wave' : Wave} {event : Event} (h : stepWave wave event = some wave') :
    wave'.cost < wave.cost := by
  unfold Wave.cost
  rcases stepWave_cases h with ⟨k, -, hfree, hlt, rfl⟩ | ⟨k, i, result, hbusy, -, rfl⟩ |
    ⟨k, hfree, -, rfl⟩
  · have hset := cost_set (.busy wave.nextIndex) hfree
    simp only [Worker.cost] at hset ⊢
    omega
  · have hset := cost_set .free hbusy
    simp only [Worker.cost] at hset ⊢
    omega
  · have hset := cost_set .finished hfree
    simp only [Worker.cost] at hset ⊢
    omega

/-- What a step of an execution does. -/
theorem step_cases {concurrencyLimit : ℕ} {s s' : State} {event : Event}
    (h : step concurrencyLimit s event = some s') :
    (∃ tasks waves, s.wave = none ∧ s.waves = tasks :: waves ∧ event = .openWave ∧
      s' = { s with waves := waves, wave := some (startWave concurrencyLimit tasks) }) ∨
    (∃ wave, s.wave = some wave ∧ wave.workers.all (· = .finished) = true ∧
      event = .closeWave ∧
      s' = { s with wave := none, allResults := s.allResults ++ wave.results }) ∨
    ∃ wave wave', s.wave = some wave ∧ stepWave wave event = some wave' ∧
      s' = { s with wave := some wave' } := by
  unfold step at h
  split at h
  · next hnone =>
    split at h
    · cases h
    · next tasks waves hwaves => exact .inl ⟨tasks, waves, hnone, hwaves, rfl, (Option.some.inj h).symm⟩
  · cases h
  · next wave hwave =>
    split at h
    · next hall => exact .inr (.inl ⟨wave, hwave, hall, rfl, (Option.some.inj h).symm⟩)
    · cases h
  · next wave hwave _ =>
    obtain ⟨wave', hstep, rfl⟩ := Option.map_eq_some_iff.mp h
    exact .inr (.inr ⟨wave, wave', hwave, hstep, rfl⟩)

/-- Every step lowers what is left to do. -/
theorem step_cost {concurrencyLimit : ℕ} {s s' : State} {event : Event}
    (h : step concurrencyLimit s event = some s') :
    s'.cost concurrencyLimit < s.cost concurrencyLimit := by
  unfold State.cost
  rcases step_cases h with ⟨tasks, waves, hnone, hwaves, -, rfl⟩ | ⟨wave, hwave, -, -, rfl⟩ |
    ⟨wave, wave', hwave, hstep, rfl⟩
  · rw [hnone, hwaves]
    simp only [List.map_cons, List.sum_cons, Option.map_some, Option.getD_some, Option.map_none,
      Option.getD_none]
    omega
  · rw [hwave]
    simp [Wave.cost]
  · rw [hwave]
    have hcost := stepWave_cost hstep
    simpa using hcost

/-- An execution has no more steps than there is to do at its start. -/
theorem run_cost {concurrencyLimit : ℕ} {s s' : State} {events : List Event}
    (h : (executionLTS concurrencyLimit).Run s events s') :
    events.length + s'.cost concurrencyLimit ≤ s.cost concurrencyLimit := by
  induction h with
  | nil => simp
  | snoc _ hs ih =>
    have hcost := step_cost hs
    rw [List.length_append, List.length_singleton]
    omega

/-- Where an execution of some waves is: waves that are done, with one result for each of their
subtasks, the wave under way, and those to come. -/
structure Progress (order : List (List String)) (concurrencyLimit : ℕ) (s : State)
    (completed : List (List String)) : Prop where
  results : s.allResults.map (Option.map (·.task_id)) = completed.flatten.map some
  between : s.wave = none → order = completed ++ s.waves
  within : ∀ wave, s.wave = some wave →
    order = completed ++ wave.tasks :: s.waves ∧ wave.Sound concurrencyLimit

section Progress

variable {order : List (List String)} {concurrencyLimit : ℕ} {s s' : State}
  {completed : List (List String)} {event : Event}

theorem Progress.step (h : Progress order concurrencyLimit s completed)
    (hlimit : 0 < concurrencyLimit) (hstep : step concurrencyLimit s event = some s') :
    ∃ completed', Progress order concurrencyLimit s' completed' := by
  rcases step_cases hstep with ⟨tasks, waves, hnone, hwaves, -, rfl⟩ |
    ⟨wave, hwave, hall, -, rfl⟩ | ⟨wave, wave', hwave, hwithin, rfl⟩
  · refine ⟨completed, h.results, nofun, fun wave hwave => ?_⟩
    obtain rfl := Option.some.inj hwave
    exact ⟨(h.between hnone).trans (by rw [hwaves]; rfl), startWave_sound tasks⟩
  · obtain ⟨horder, hsound⟩ := h.within wave hwave
    refine ⟨completed ++ [wave.tasks], ?_, fun _ => by simp [horder], nofun⟩
    simp only [List.map_append, h.results, hsound.results_eq hlimit hall, List.flatten_append,
      List.flatten_singleton]
  · obtain ⟨horder, hsound⟩ := h.within wave hwave
    have htasks : wave'.tasks = wave.tasks := by
      rcases stepWave_cases hwithin with ⟨_, _, _, _, rfl⟩ | ⟨_, _, _, _, _, rfl⟩ | ⟨_, _, _, rfl⟩
      · rfl
      · rfl
      · rfl
    refine ⟨completed, h.results, nofun, fun wave'' hwave'' => ?_⟩
    obtain rfl := Option.some.inj hwave''
    exact ⟨htasks ▸ horder, hsound.step hwithin⟩

/-- What is done has finished. -/
theorem Progress.mem_finished (h : Progress order concurrencyLimit s completed) {id : String}
    (hid : id ∈ completed.flatten) : id ∈ s.finished := by
  have hmem : some id ∈ s.allResults.map (Option.map (·.task_id)) := by
    rw [h.results]
    exact List.mem_map_of_mem hid
  obtain ⟨result, hresult, heq⟩ := List.mem_map.mp hmem
  obtain ⟨result', rfl, hid'⟩ := Option.map_eq_some_iff.mp heq
  refine List.mem_map.mpr ⟨result', List.mem_filterMap.mpr ⟨_, ?_, rfl⟩, hid'⟩
  exact List.mem_append_left _ hresult

theorem Progress.running_le (h : Progress order concurrencyLimit s completed) :
    s.running ≤ concurrencyLimit := by
  unfold State.running
  cases hwave : s.wave with
  | none => exact Nat.zero_le _
  | some wave =>
    have hworkers := (h.within wave hwave).2.workers
    have hcount := List.countP_le_length (p := Worker.isBusy) (l := wave.workers)
    simp only [Option.map_some, Option.getD_some]
    omega

theorem Progress.goes_on (h : Progress order concurrencyLimit s completed) :
    Done s ∨ ∃ event s', Parallel.step concurrencyLimit s event = some s' := by
  cases hwave : s.wave with
  | none =>
    cases hwaves : s.waves with
    | nil => exact .inl ⟨hwaves, hwave⟩
    | cons tasks waves => exact .inr ⟨.openWave, by simp [Parallel.step, hwave, hwaves]⟩
  | some wave =>
    refine .inr ?_
    rcases (h.within wave hwave).2.goes_on with hall | ⟨event, wave', hstep⟩
    · exact ⟨.closeWave, by simp [Parallel.step, hwave, hall]⟩
    · refine ⟨event, { s with wave := some wave' }, ?_⟩
      cases event with
      | closeWave => cases hstep
      | openWave => cases hstep
      | _ => simp only [Parallel.step, hwave, hstep, Option.map_some]

end Progress

/-! ## Groups -/

section Group

variable {group : TaskGroup} {concurrencyLimit : ℕ} {s s' : State} {events : List Event}

theorem begin_eq_ok_iff :
    begin group = .ok s ↔
      validateFileOwnership group = [] ∧ s = { waves := buildExecutionOrder group } := by
  unfold begin
  dsimp only
  split
  · next hnone => simp [hnone, eq_comm]
  · next hsome => simp [hsome]

theorem validateFileOwnership_eq_nil_iff :
    validateFileOwnership group = [] ↔
      ∀ file owners, (file, owners) ∈ group.file_ownership → owners.length ≤ 1 := by
  unfold validateFileOwnership
  rw [List.filterMap_eq_nil_iff]
  constructor
  · intro h file owners hmem
    by_contra hlong
    exact absurd (h _ hmem) (by simp [Nat.not_le.mp hlong])
  · rintro h ⟨file, owners⟩ hmem
    exact if_neg (Nat.not_lt.mpr (h file owners hmem))

/-- Where an execution of a group is. -/
theorem run_progress (hlimit : 0 < concurrencyLimit) (hbegin : begin group = .ok s)
    (hrun : (executionLTS concurrencyLimit).Run s events s') :
    ∃ completed, Progress (buildExecutionOrder group) concurrencyLimit s' completed := by
  obtain rfl := (begin_eq_ok_iff.mp hbegin).2
  refine hrun.invariant (P := fun s =>
    ∃ completed, Progress (buildExecutionOrder group) concurrencyLimit s completed)
    ⟨[], rfl, fun _ => rfl, nofun⟩ ?_
  rintro a event b hstep ⟨completed, hprogress⟩
  exact hprogress.step hlimit hstep

/-- Where the waves are those of the group without its missing subtasks, a subtask starts only
after those that it depends on, unless it is downstream of a cycle. -/
theorem finished_of_starting (hids : group.ids.Nodup)
    (horder : buildExecutionOrder group = buildExecutionOrder group.grounded)
    {completed : List (List String)}
    (h : Progress (buildExecutionOrder group) concurrencyLimit s completed) {event : Event}
    {source target : String} (hstarting : s.starting event = some target)
    (hfree : ¬ AfterCycle group.Feeds target) (hsource : group.Feeds source target) :
    source ∈ s.finished := by
  cases event with
  | take k =>
    obtain ⟨wave, hwave, htarget⟩ := Option.bind_eq_some_iff.mp hstarting
    have hwaves := (h.within wave hwave).1
    rw [horder] at hwaves
    have hfeeds : Feeds group.grounded = group.Feeds :=
      funext fun _ => funext fun _ => propext feeds_grounded
    have hcycle : AfterCycle group.Feeds target ↔ ∀ n, Chain group.Feeds n target :=
      afterCycle_iff (fun y x (hyx : group.Feeds y x) => hyx.1) target
    rw [hcycle] at hfree
    push Not at hfree
    obtain ⟨n, hn⟩ := hfree
    have hsettled : Settled (Feeds group.grounded) group.grounded.ids n target := by
      rw [hfeeds]
      exact settled_inside_iff.mpr hn
    have hids' : group.grounded.ids.Nodup := hids
    refine h.mem_finished (buildExecutionOrder_order hids' hwaves
      (List.mem_of_getElem? htarget) hsettled ?_)
    rw [hfeeds]
    exact hsource
  | _ => exact nomatch hstarting

/-- **A group respects its dependencies** exactly when no file lists several owners, and every
subtask that waits for a missing one is on or downstream of a cycle, or there is no cycle and
the subtasks that wait for a missing one are those with the longest chains of dependencies. -/
theorem respects_iff (hids : group.ids.Nodup) (hlimit : 1 ≤ concurrencyLimit) :
    Respects group concurrencyLimit ↔
      (∀ file owners, (file, owners) ∈ group.file_ownership → owners.length ≤ 1) ∧
      ((∀ id ∈ group.ids, Stranded (Feeds group) group.ids id → AfterCycle group.Feeds id) ∨
        ∃ n, (∀ id ∈ group.ids, ¬ Chain group.Feeds (n + 1) id) ∧
          ∀ id ∈ group.ids, Stranded (Feeds group) group.ids id ↔ Chain group.Feeds n id) := by
  have horder := buildExecutionOrder_grounded_iff hids
  change _ ↔ (∀ id ∈ group.ids, _ → AfterCycle group.Feeds id) ∨
    ∃ n, (∀ id ∈ group.ids, ¬ Chain group.Feeds (n + 1) id) ∧
      ∀ id ∈ group.ids, _ ↔ Chain group.Feeds n id at horder
  rw [← horder, ← validateFileOwnership_eq_nil_iff]
  constructor
  · intro h
    obtain ⟨s, hs⟩ := h.begins
    exact ⟨(begin_eq_ok_iff.mp hs).1, h.undelayed⟩
  · rintro ⟨howners, hundelayed⟩
    refine ⟨⟨_, begin_eq_ok_iff.mpr ⟨howners, rfl⟩⟩, fun s _ => ⟨s.cost concurrencyLimit, ?_⟩, ?_,
      ?_, ?_, ?_, hundelayed⟩
    · exact fun events s' hrun => Nat.le_of_add_right_le (run_cost hrun)
    · intro s events s' hbegin hrun
      obtain ⟨completed, hprogress⟩ := run_progress hlimit hbegin hrun
      exact hprogress.goes_on
    · intro s events s' hbegin hrun hdone
      obtain ⟨completed, hprogress⟩ := run_progress hlimit hbegin hrun
      have hwaves := hprogress.between hdone.2
      rw [hdone.1, List.append_nil] at hwaves
      rw [hprogress.results, ← hwaves]
      exact (buildExecutionOrder_perm hids).map some
    · intro s events s' hbegin hrun
      obtain ⟨completed, hprogress⟩ := run_progress hlimit hbegin hrun
      exact hprogress.running_le
    · intro s events s' event s'' source target hbegin hrun _ hstarting hfree hsource
      obtain ⟨completed, hprogress⟩ := run_progress hlimit hbegin hrun
      exact finished_of_starting hids hundelayed hprogress hstarting hfree hsource

end Group

/-! Two subtasks, the second after the first, which may wait for one that is missing. -/

def orderedGroup : TaskGroup where
  subtasks := [{ id := "a", work_description := "" }, { id := "b", work_description := "" }]
  dependencies := [("a", "b")]

def waitingGroup : TaskGroup :=
  { orderedGroup with dependencies := [("missing", "a"), ("a", "b")] }

theorem respects_ordered : Respects orderedGroup 3 := by
  refine (respects_iff (by decide) (by decide)).mpr ⟨nofun, .inl fun id _ hstranded => ?_⟩
  exfalso
  induction hstranded with
  | @outside source _ hfeeds hout =>
    obtain ⟨rfl, -⟩ := Prod.mk.inj (List.mem_singleton.mp hfeeds)
    exact hout (by decide)
  | after _ hmem _ ih => exact ih hmem

/-- **A subtask is started while the one that it depends on runs,** since that one waits for a
subtask that is missing. -/
theorem waiting_not_respects :
    waitingGroup.ids.Nodup ∧ waitingGroup.file_ownership = [] ∧ ¬ Respects waitingGroup 3 := by
  refine ⟨by decide, rfl, fun h => ?_⟩
  have hbegin : begin waitingGroup = .ok { waves := [["a", "b"]] } := rfl
  have hopen : (executionLTS 3).Run { waves := [["a", "b"]] } [.openWave]
      { waves := [], wave := some (startWave 3 ["a", "b"]) } := .single rfl
  have hrun : (executionLTS 3).Run { waves := [["a", "b"]] } ([.openWave] ++ [.take 0]) {
      waves := []
      wave := some { startWave 3 ["a", "b"] with
        nextIndex := 1
        workers := [.busy 0, .free] } } := .snoc hopen rfl
  have hfree : ¬ AfterCycle waitingGroup.Feeds "b" := by
    have hcycle : AfterCycle waitingGroup.Feeds "b" ↔ ∀ n, Chain waitingGroup.Feeds n "b" :=
      afterCycle_iff (fun y x (hyx : waitingGroup.Feeds y x) => hyx.1) "b"
    rw [hcycle]
    intro hchain
    obtain ⟨y, ⟨-, hyb⟩, z, ⟨hz, hzy⟩, -⟩ := hchain 2
    simp only [Feeds, waitingGroup, List.mem_cons, Prod.mk.injEq, List.not_mem_nil,
      or_false] at hyb hzy
    obtain ⟨-, hb⟩ | ⟨rfl, -⟩ := hyb
    · exact absurd hb (by decide)
    · obtain ⟨rfl, -⟩ | ⟨-, ha⟩ := hzy
      · exact absurd hz (by decide)
      · exact absurd ha (by decide)
  have hmem := h.ordered _ _ _ (.take 1) _ "a" "b" hbegin hrun rfl rfl hfree
    ⟨by decide, .tail _ (.head _)⟩
  exact absurd hmem (List.not_mem_nil)

end PulSeed.Parallel
