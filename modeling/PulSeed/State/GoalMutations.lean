import PulSeed.Lib.Transition

/-!
# Mutations of a goal (`base/state/state-manager.ts`)

The mutations of one goal run through `runGoalStateMutation`, one at a time; within
one, loading the goal and saving it are separate steps. `appendObservationAndSaveGoal`
loads the goal inside its turn. `savePaceSnapshot` loads it before, and in its turn
saves the goal it loaded, with the snapshot put in.

The mutations that completed are *serial* when performing them one after another, in
the order in which they saved, gives the stored goal. Appends and saves of a whole goal
keep it so. A pace snapshot keeps it so exactly when the goal it loaded is still the
stored one, its pace snapshot apart; otherwise it writes over the updates that were
saved in between. A serial history loses nothing (`Serial.nothingLost`): what one
mutation establishes and no later one undoes holds of the stored goal.

Dimensions, pace snapshots, observations and the other fields of a goal are
parameters. A callback that throws, or whose result the schema refuses, is a partial
function.
-/

namespace PulSeed

namespace StateManager

/-- A goal, as far as its mutations look into it. -/
structure Goal (D P F : Type) where
  id : String
  dimensions : List D
  paceSnapshot : Option P := none
  fields : F
  deriving DecidableEq

variable {D P F E : Type}

/-- `{ ...goal, pace_snapshot: snapshot }`. -/
def Goal.withPace (goal : Goal D P F) (snapshot : P) : Goal D P F :=
  { goal with paceSnapshot := some snapshot }

/-- A mutation that waits for its turn. -/
inductive Mutation (D P F E : Type)
  | saveGoal (goal : Goal D P F)
  | appendObservationAndSaveGoal (entry : E) (updateGoal : Goal D P F → Option (Goal D P F))
  | savePaceSnapshot (loaded : Goal D P F) (snapshot : P)

/-- A mutation in its turn. -/
inductive Turn (D P F E : Type)
  | entered (mutation : Mutation D P F E)
  /-- The append has loaded and updated the goal. -/
  | updated (entry : E) (updateGoal : Goal D P F → Option (Goal D P F)) (goal : Goal D P F)
  /-- The append has written its observation. -/
  | observed (entry : E) (updateGoal : Goal D P F → Option (Goal D P F)) (goal : Goal D P F)

/-- The goal and its observation log as stored, the mutations that wait and the one in its
turn, and those that completed, in the order in which they saved. -/
structure State (D P F E : Type) where
  stored : Option (Goal D P F)
  observations : List E := []
  waiting : List (Mutation D P F E) := []
  active : Option (Turn D P F E) := none
  completed : List (Mutation D P F E) := []

inductive Action (D P F E : Type)
  | saveGoal (goal : Goal D P F)
  | appendObservationAndSaveGoal (entry : E) (updateGoal : Goal D P F → Option (Goal D P F))
  /-- `savePaceSnapshot` loads the goal. -/
  | savePaceSnapshot (snapshot : P)
  /-- A waiting mutation gets its turn. -/
  | enter (i : ℕ)
  /-- The mutation in its turn takes its next step. -/
  | proceed
  /-- The write fence, the lock or a store throws in the turn. -/
  | fail

variable (goalId : String) (maxHistoryEntries : ℕ)

/-- The update of an append, with its checks. -/
def updated (updateGoal : Goal D P F → Option (Goal D P F)) (goal : Goal D P F) :
    Option (Goal D P F) :=
  (updateGoal goal).filter fun updatedGoal => updatedGoal.id = goalId

/-- The next step of a turn; the answer is the mutation that completed. -/
def proceed (s : State D P F E) : Turn D P F E → State D P F E × Option (Mutation D P F E)
  | .entered (.saveGoal goal) =>
    ({ s with
      stored := some goal
      active := none
      completed := s.completed ++ [.saveGoal goal] }, some (.saveGoal goal))
  | .entered (.savePaceSnapshot loaded snapshot) =>
    ({ s with
      stored := some (loaded.withPace snapshot)
      active := none
      completed := s.completed ++ [.savePaceSnapshot loaded snapshot] },
      some (.savePaceSnapshot loaded snapshot))
  | .entered (.appendObservationAndSaveGoal entry updateGoal) =>
    match s.stored.bind (updated goalId updateGoal) with
    | none => ({ s with active := none }, none)
    | some goal => ({ s with active := some (.updated entry updateGoal goal) }, none)
  | .updated entry updateGoal goal =>
    let entries := s.observations ++ [entry]
    ({ s with
      observations := entries.drop (entries.length - maxHistoryEntries)
      active := some (.observed entry updateGoal goal) }, none)
  | .observed entry updateGoal goal =>
    ({ s with
      stored := some goal
      active := none
      completed := s.completed ++ [.appendObservationAndSaveGoal entry updateGoal] },
      some (.appendObservationAndSaveGoal entry updateGoal))

/-- One step. A save of another goal is none of this one's mutations, and a pace snapshot
of a goal that is not there throws. -/
def step (s : State D P F E) : Action D P F E → State D P F E × Option (Mutation D P F E)
  | .saveGoal goal =>
    if goal.id = goalId then ({ s with waiting := s.waiting ++ [.saveGoal goal] }, none)
    else (s, none)
  | .appendObservationAndSaveGoal entry updateGoal =>
    ({ s with waiting := s.waiting ++ [.appendObservationAndSaveGoal entry updateGoal] }, none)
  | .savePaceSnapshot snapshot =>
    match s.stored with
    | none => (s, none)
    | some goal => ({ s with waiting := s.waiting ++ [.savePaceSnapshot goal snapshot] }, none)
  | .enter i =>
    match s.active, s.waiting[i]? with
    | none, some mutation =>
      ({ s with
        waiting := s.waiting.eraseIdx i
        active := some (.entered mutation) }, none)
    | _, _ => (s, none)
  | .proceed =>
    match s.active with
    | none => (s, none)
    | some turn => proceed goalId maxHistoryEntries s turn
  | .fail => ({ s with active := none }, none)

/-! ## Serial histories -/

/-- A mutation performed at once on the stored goal; nothing when it throws. -/
def perform (stored : Option (Goal D P F)) : Mutation D P F E → Option (Goal D P F)
  | .saveGoal goal => some goal
  | .appendObservationAndSaveGoal _ updateGoal => stored.bind (updated goalId updateGoal)
  | .savePaceSnapshot _ snapshot => stored.map fun goal => goal.withPace snapshot

/-- The stored goal after mutations performed one after another. -/
def replay (stored : Option (Goal D P F)) :
    List (Mutation D P F E) → Option (Option (Goal D P F))
  | [] => some stored
  | mutation :: mutations =>
    match perform goalId stored mutation with
    | none => none
    | some goal => replay (some goal) mutations

theorem replay_append (stored : Option (Goal D P F)) (ms ms' : List (Mutation D P F E)) :
    replay goalId stored (ms ++ ms') =
      (replay goalId stored ms).bind fun middle => replay goalId middle ms' := by
  induction ms generalizing stored with
  | nil => rfl
  | cons m ms ih =>
    rw [List.cons_append, replay, replay]
    cases perform goalId stored m with
    | none => rfl
    | some goal => exact ih (some goal)

/-- The completed mutations, performed one after another, give the stored goal. -/
def Serial (initial : Option (Goal D P F)) (s : State D P F E) : Prop :=
  replay goalId initial s.completed = some s.stored

/-- What a completed mutation establishes and no later one undoes holds of the stored
goal. -/
def NothingLost (s : State D P F E) : Prop :=
  ∀ before mutation after, s.completed = before ++ mutation :: after →
    ∀ Has : Goal D P F → Prop,
      (∀ stored goal, perform goalId stored mutation = some goal → Has goal) →
      (∀ later ∈ after, ∀ g goal, Has g → perform goalId (some g) later = some goal → Has goal) →
      ∃ goal, s.stored = some goal ∧ Has goal

theorem replay_has {Has : Goal D P F → Prop} {ms : List (Mutation D P F E)} {g : Goal D P F}
    {last : Option (Goal D P F)} (h : replay goalId (some g) ms = some last) (hg : Has g)
    (hkeeps : ∀ m ∈ ms, ∀ g goal, Has g → perform goalId (some g) m = some goal → Has goal) :
    ∃ goal, last = some goal ∧ Has goal := by
  induction ms generalizing g with
  | nil =>
    cases h
    exact ⟨g, rfl, hg⟩
  | cons m ms ih =>
    rw [replay] at h
    cases hperform : perform goalId (some g) m with
    | none => simp [hperform] at h
    | some goal =>
      rw [hperform] at h
      exact ih h (hkeeps m (by simp) g goal hg hperform) fun m' hm' => hkeeps m' (by simp [hm'])

/-- **A serial history loses nothing.** -/
theorem Serial.nothingLost {initial : Option (Goal D P F)} {s : State D P F E}
    (h : Serial goalId initial s) : NothingLost goalId s := by
  intro before mutation after hsplit Has hestablishes hkeeps
  rw [Serial, hsplit, replay_append] at h
  obtain ⟨middle, -, h⟩ := Option.bind_eq_some_iff.mp h
  rw [replay] at h
  cases hperform : perform goalId middle mutation with
  | none => simp [hperform] at h
  | some goal =>
    rw [hperform] at h
    exact replay_has goalId h (hestablishes middle goal hperform) hkeeps

/-! ## Steps -/

variable {goalId maxHistoryEntries}

/-- An append in its turn has updated the goal that is stored. -/
def Current (goalId : String) (s : State D P F E) : Prop :=
  ∀ turn ∈ s.active, match turn with
    | .entered _ => True
    | .updated _ updateGoal goal | .observed _ updateGoal goal =>
      s.stored.bind (updated goalId updateGoal) = some goal

/-- A pace snapshot that is about to save has loaded the goal that is stored, its pace
snapshot apart. -/
def SavesWhatIsStored (s : State D P F E) :
    Action D P F E × Option (Mutation D P F E) → Prop
  | (.proceed, _) =>
    match s.active with
    | some (.entered (.savePaceSnapshot loaded snapshot)) =>
      s.stored.map (·.withPace snapshot) = some (loaded.withPace snapshot)
    | _ => True
  | _ => True

theorem Current.idle {s : State D P F E} (h : s.active = none) : Current goalId s := by
  intro turn hturn
  rw [h] at hturn
  cases hturn

/-- A completed mutation is performed at the end of the history. -/
theorem serial_completed {initial : Option (Goal D P F)} {s s' : State D P F E}
    (h : Serial goalId initial s) (m : Mutation D P F E)
    (hcompleted : s'.completed = s.completed ++ [m]) :
    Serial goalId initial s' ↔ (perform goalId s.stored m).map some = some s'.stored := by
  rw [Serial, hcompleted, replay_append, h, Option.bind_some, replay]
  cases perform goalId s.stored m <;> rfl

theorem Current.step {s : State D P F E} (h : Current goalId s) (action : Action D P F E) :
    Current goalId (step goalId maxHistoryEntries s action).1 := by
  unfold StateManager.step
  cases action with
  | saveGoal goal =>
    dsimp only
    split <;> exact h
  | appendObservationAndSaveGoal entry updateGoal => exact h
  | savePaceSnapshot snapshot =>
    dsimp only
    split <;> exact h
  | enter i =>
    dsimp only
    split
    · rintro turn hturn
      cases hturn
      trivial
    · exact h
  | fail => exact Current.idle rfl
  | proceed =>
    dsimp only
    split
    · exact h
    · next turn hactive =>
      cases turn with
      | entered mutation =>
        cases mutation with
        | saveGoal goal => exact Current.idle rfl
        | savePaceSnapshot loaded snapshot => exact Current.idle rfl
        | appendObservationAndSaveGoal entry updateGoal =>
          simp only [proceed]
          split
          · exact Current.idle rfl
          · next goal hupdated =>
            rintro turn hturn
            cases hturn
            exact hupdated
      | updated entry updateGoal goal =>
        rintro turn hturn
        cases hturn
        exact h _ hactive
      | observed entry updateGoal goal => exact Current.idle rfl

/-- **One step** keeps the history serial exactly when it is no pace snapshot that saves
another goal than the stored one. -/
theorem serial_step_iff {initial : Option (Goal D P F)} {s : State D P F E}
    (hcurrent : Current goalId s) (h : Serial goalId initial s) (action : Action D P F E) :
    Serial goalId initial (step goalId maxHistoryEntries s action).1 ↔
      SavesWhatIsStored s (action, (step goalId maxHistoryEntries s action).2) := by
  unfold StateManager.step
  cases action with
  | saveGoal goal =>
    dsimp only
    split <;> exact iff_of_true h trivial
  | appendObservationAndSaveGoal entry updateGoal => exact iff_of_true h trivial
  | savePaceSnapshot snapshot =>
    dsimp only
    split <;> exact iff_of_true h trivial
  | enter i =>
    dsimp only
    split <;> exact iff_of_true h trivial
  | fail => exact iff_of_true h trivial
  | proceed =>
    simp only [SavesWhatIsStored]
    cases hactive : s.active with
    | none => exact iff_of_true h trivial
    | some turn =>
      cases turn with
      | entered mutation =>
        cases mutation with
        | saveGoal goal => exact iff_of_true ((serial_completed h _ rfl).mpr rfl) trivial
        | appendObservationAndSaveGoal entry updateGoal =>
          simp only [proceed]
          split <;> exact iff_of_true h trivial
        | savePaceSnapshot loaded snapshot =>
          refine (serial_completed h _ rfl).trans ?_
          simp only [perform, proceed]
          cases s.stored <;> simp
      | updated entry updateGoal goal => exact iff_of_true h trivial
      | observed entry updateGoal goal =>
        have hlast : perform goalId s.stored (.appendObservationAndSaveGoal entry updateGoal) =
            some goal := hcurrent _ hactive
        exact iff_of_true ((serial_completed h _ rfl).mpr (congrArg (Option.map some) hlast)) trivial

/-! ## Runs -/

variable (goalId maxHistoryEntries)

/-- A goal as it is stored, with no mutation under way. -/
def State.start (stored : Option (Goal D P F)) : State D P F E := { stored }

/-- **No update is lost exactly when pace snapshots save what is stored**: however the loads,
turns and saves of appends, pace snapshots and whole-goal saves interleave, the stored goal
is throughout what the completed mutations leave one after another exactly when every pace
snapshot finds the goal it loaded still stored, its pace snapshot apart; and then nothing
that a completed mutation established is lost in any state. -/
theorem updates_kept_iff (initial : Option (Goal D P F))
    (ls : List (Action D P F E × Option (Mutation D P F E))) (s : State D P F E)
    (hrun : (LTS.ofFn (step goalId maxHistoryEntries)).Run (.start initial) ls s) :
    ((LTS.ofFn (step goalId maxHistoryEntries)).Throughout (.start initial) ls
        (Serial goalId initial) ↔
      (LTS.ofFn (step goalId maxHistoryEntries)).Always (.start initial) ls SavesWhatIsStored) ∧
    ((LTS.ofFn (step goalId maxHistoryEntries)).Always (.start initial) ls SavesWhatIsStored →
      (LTS.ofFn (step goalId maxHistoryEntries)).Throughout (.start initial) ls
        (NothingLost goalId)) := by
  have hiff : (LTS.ofFn (step goalId maxHistoryEntries)).Throughout (.start initial) ls
      (Serial goalId initial) ↔
        (LTS.ofFn (step goalId maxHistoryEntries)).Always (.start initial) ls
          SavesWhatIsStored :=
    hrun.throughout_iff_of_inv (J := Current goalId) (Current.idle rfl)
      (fun _ action h => h.step action) rfl fun _ action hcurrent hserial =>
        serial_step_iff hcurrent hserial action
  exact ⟨hiff, fun hcond ks rest m hsplit hks =>
    Serial.nothingLost goalId (hiff.mpr hcond ks rest m hsplit hks)⟩

/-! Sample runs over a goal with one number for its dimensions. -/

abbrev SampleAction := Action ℕ ℕ Unit Unit

def sampleGoal : Goal ℕ ℕ Unit where
  id := "g"
  dimensions := [0]
  fields := ()

/-- An observation of the value one. -/
def observeOne : SampleAction :=
  .appendObservationAndSaveGoal () fun goal => some { goal with dimensions := [1] }

instance (s : State ℕ ℕ Unit Unit)
    (l : SampleAction × Option (Mutation ℕ ℕ Unit Unit)) : Decidable (SavesWhatIsStored s l) := by
  unfold SavesWhatIsStored
  split
  · split <;> infer_instance
  · infer_instance

/-- An observation, and then a pace snapshot. -/
def oneAfterTheOther : List SampleAction :=
  [observeOne, .enter 0, .proceed, .proceed, .proceed, .savePaceSnapshot 50, .enter 0, .proceed]

/-- The same, where the pace snapshot has loaded the goal before the observation saves. -/
def overlapping : List SampleAction :=
  [observeOne, .savePaceSnapshot 50, .enter 0, .proceed, .proceed, .proceed, .enter 0, .proceed]

theorem updates_kept_sample :
    (LTS.ofFn (step "g" 500)).Throughout (.start (some sampleGoal))
      (LTS.exec (step "g" 500) (.start (some sampleGoal)) oneAfterTheOther).1 (NothingLost "g") :=
  (updates_kept_iff "g" 500 (some sampleGoal) _ _ (LTS.run_exec _ _ _)).2
    (LTS.ExecAlways.always (by decide +kernel))

/-- The observation and the pace snapshot completed, and the stored goal has the old value. -/
theorem observation_lost :
    ∃ s : State ℕ ℕ Unit Unit,
      s = (LTS.exec (step "g" 500) (.start (some sampleGoal)) overlapping).2 ∧
        s.completed.length = 2 ∧ s.stored = some { sampleGoal with paceSnapshot := some 50 } ∧
        ¬ NothingLost "g" s := by
  refine ⟨_, rfl, by decide +kernel, by decide +kernel, fun h => ?_⟩
  obtain ⟨goal, hgoal, hhas⟩ := h [] _ _ rfl (fun goal => goal.dimensions = [1])
    (by
      intro stored goal hperform
      obtain ⟨g, -, hg⟩ := Option.bind_eq_some_iff.mp hperform
      obtain ⟨hg, -⟩ := Option.filter_eq_some_iff.mp hg
      cases hg
      rfl)
    (by
      intro later hlater g goal hg hperform
      obtain rfl := List.mem_singleton.mp hlater
      cases hperform
      exact hg)
  have hstored : goal.dimensions = [0] := by
    have hlast := hgoal.symm
    cases hlast
    rfl
  rw [hstored] at hhas
  exact absurd hhas (by decide)

end StateManager

end PulSeed
