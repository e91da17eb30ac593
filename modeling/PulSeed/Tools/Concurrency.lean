import PulSeed.Lib.ObjectMap
import PulSeed.Lib.Transition

/-!
# The concurrency limit of tool execution (`tools/concurrency.ts`)

`ConcurrencyController.run` takes a slot, executes a function and gives the slot back. A
caller that finds no slot waits in a queue; whoever gives a slot back resolves the first
waiter, which takes its slot only when its own continuation runs. The steps of the callers
are `enter` (up to the function being called, or the caller being queued), `resume` (a
resolved waiter goes on), `settle` (the function returns or throws) and `release` (its
`finally` block), and they interleave in any order.

- `stranded_never`: **whenever callers wait, all slots are in use or given to waiters that
  were resolved.** This holds in every run.
- `limited_of_respectful`: **no more functions execute than there are slots, in every run in
  which no caller enters on a slot that a resolved waiter has not taken yet.** One that does
  makes the limit fail as soon as the waiters go on (`overtaken_exceeds`).
-/

namespace PulSeed.ConcurrencyController

/-- A call of `run`, numbered in the order of the calls; `shell` is the working directory
when the tool is named `shell`. The number stands for its `AbortController` too. -/
structure Run where
  id : ℕ
  shell : Option String
  deriving DecidableEq

/-- The controller, and the calls of `run` under way by where they are: resolved and not yet
resumed, with their function executing, and with their function settled. -/
structure State where
  activeCount : ℕ := 0
  queue : List Run := []
  activeShells : ObjectMap String ℕ := .empty
  aborted : List ℕ := []
  calls : ℕ := 0
  woken : List Run := []
  executing : List Run := []
  settled : List Run := []

/-- A controller that has not been used. -/
def initial : State := {}

inductive Event where
  | enter (shell : Option String)
  | resume (run : Run)
  | settle (run : Run)
  | release (run : Run)
  deriving DecidableEq

/-- From `this.activeCount++` to the call of `fn`. -/
def begin (s : State) (run : Run) : State :=
  let s := { s with activeCount := s.activeCount + 1, executing := s.executing ++ [run] }
  match run.shell with
  | none => s
  | some cwd => { s with
      aborted := s.aborted ++ (s.activeShells.get? cwd).toList
      activeShells := s.activeShells.set cwd run.id }

/-- The removal of the run's controller from `activeShells`, if it is still there. -/
def dropShell (activeShells : ObjectMap String ℕ) (run : Run) : ObjectMap String ℕ :=
  match run.shell with
  | none => activeShells
  | some cwd =>
    if activeShells.get? cwd = some run.id then activeShells.delete cwd else activeShells

/-- `const next = this.queue.shift(); next?.resolve();`. -/
def wakeNext (s : State) : State :=
  match s.queue with
  | [] => s
  | next :: queue => { s with queue := queue, woken := s.woken ++ [next] }

section

variable (maxConcurrent : ℕ)

/-- The start of `run`, up to its first `await`. -/
def enter (s : State) (shell : Option String) : State :=
  let run : Run := { id := s.calls, shell }
  let s := { s with calls := s.calls + 1 }
  if maxConcurrent ≤ s.activeCount then { s with queue := s.queue ++ [run] } else begin s run

/-- One step of one caller. -/
def step (s : State) : Event → Option State
  | .enter shell => some (enter maxConcurrent s shell)
  | .resume run =>
    if run ∈ s.woken then some (begin { s with woken := s.woken.erase run } run) else none
  | .settle run =>
    if run ∈ s.executing then
      some { s with executing := s.executing.erase run, settled := s.settled ++ [run] }
    else none
  | .release run =>
    if run ∈ s.settled then
      some (wakeNext { s with
        activeCount := s.activeCount - 1
        activeShells := dropShell s.activeShells run
        settled := s.settled.erase run })
    else none

/-- The system of a controller and its callers. -/
def controllerLTS : LTS State Event := .ofPartial (step maxConcurrent)

end

/-! ## What a step changes -/

section

variable {maxConcurrent : ℕ} {s s' : State}

@[simp] theorem begin_activeCount (s : State) (run : Run) :
    (begin s run).activeCount = s.activeCount + 1 := by
  unfold begin
  cases run.shell <;> rfl

@[simp] theorem begin_queue (s : State) (run : Run) : (begin s run).queue = s.queue := by
  unfold begin
  cases run.shell <;> rfl

@[simp] theorem begin_woken (s : State) (run : Run) : (begin s run).woken = s.woken := by
  unfold begin
  cases run.shell <;> rfl

@[simp] theorem begin_settled (s : State) (run : Run) : (begin s run).settled = s.settled := by
  unfold begin
  cases run.shell <;> rfl

@[simp] theorem begin_executing (s : State) (run : Run) :
    (begin s run).executing = s.executing ++ [run] := by
  unfold begin
  cases run.shell <;> rfl

@[simp] theorem wakeNext_activeCount (s : State) : (wakeNext s).activeCount = s.activeCount := by
  unfold wakeNext
  split <;> rfl

@[simp] theorem wakeNext_executing (s : State) : (wakeNext s).executing = s.executing := by
  unfold wakeNext
  split <;> rfl

@[simp] theorem wakeNext_settled (s : State) : (wakeNext s).settled = s.settled := by
  unfold wakeNext
  split <;> rfl

@[simp] theorem wakeNext_activeShells (s : State) :
    (wakeNext s).activeShells = s.activeShells := by
  unfold wakeNext
  split <;> rfl

/-- What is still in the table after a run has dropped its own entry. -/
theorem get?_dropShell {activeShells : ObjectMap String ℕ} {run : Run} {cwd : String} {id : ℕ} :
    (dropShell activeShells run).get? cwd = some id ↔
      activeShells.get? cwd = some id ∧ ¬ (run.shell = some cwd ∧ id = run.id) := by
  unfold dropShell
  cases hshell : run.shell with
  | none => simp
  | some own =>
    dsimp only
    by_cases howned : activeShells.get? own = some run.id
    · rw [if_pos howned, ObjectMap.get?_delete]
      by_cases hcwd : cwd = own
      · subst hcwd
        rw [if_pos rfl]
        constructor
        · intro h
          cases h
        · rintro ⟨hget, hnot⟩
          exact absurd ⟨rfl, Option.some.inj (hget.symm.trans howned)⟩ hnot
      · rw [if_neg hcwd]
        exact ⟨fun h => ⟨h, fun ⟨heq, _⟩ => hcwd (Option.some.inj heq).symm⟩, And.left⟩
    · rw [if_neg howned]
      constructor
      · refine fun h => ⟨h, fun ⟨heq, hid⟩ => howned ?_⟩
        rw [Option.some.inj heq, h, hid]
      · exact And.left

/-- A waiter is resolved when there is one. -/
theorem wakeNext_woken (s : State) :
    s.queue = [] ∧ (wakeNext s).queue = [] ∧ (wakeNext s).woken = s.woken ∨
      s.queue ≠ [] ∧ (wakeNext s).woken.length = s.woken.length + 1 := by
  unfold wakeNext
  split
  · next hqueue => exact .inl ⟨hqueue, hqueue, rfl⟩
  · next next queue hqueue =>
    refine .inr ⟨?_, List.length_append⟩
    rw [hqueue]
    exact List.cons_ne_nil _ _

/-- The slots that are counted are those in use, by functions that execute and by callers
whose function has settled. -/
def Counted (s : State) : Prop := s.activeCount = s.executing.length + s.settled.length

/-- **What a step does to the slots and the queue.** -/
theorem step_counts {e : Event} (hs : Counted s) (h : step maxConcurrent s e = some s') :
    Counted s' ∧ match e with
      | .enter _ =>
        (maxConcurrent ≤ s.activeCount ∧ s'.activeCount = s.activeCount ∧ s'.woken = s.woken) ∨
          (s.activeCount < maxConcurrent ∧ s'.activeCount = s.activeCount + 1 ∧
            s'.queue = s.queue ∧ s'.woken = s.woken)
      | .resume _ => s'.activeCount = s.activeCount + 1 ∧ s'.queue = s.queue ∧
          s'.woken.length + 1 = s.woken.length
      | .settle _ => s'.activeCount = s.activeCount ∧ s'.queue = s.queue ∧ s'.woken = s.woken
      | .release _ => s'.activeCount + 1 = s.activeCount ∧
          (s.queue = [] ∧ s'.queue = [] ∧ s'.woken = s.woken ∨
            s.queue ≠ [] ∧ s'.woken.length = s.woken.length + 1) := by
  unfold Counted at hs ⊢
  cases e with
  | enter shell =>
    obtain rfl := Option.some.inj h
    unfold enter
    dsimp only
    split
    · next hfull => exact ⟨hs, .inl ⟨hfull, rfl, rfl⟩⟩
    · next hfree =>
      refine ⟨?_, .inr ⟨Nat.lt_of_not_le hfree, ?_⟩⟩
      · simp only [begin_activeCount, begin_executing, begin_settled, List.length_append,
          List.length_singleton]
        omega
      · simp
  | resume run =>
    unfold step at h
    dsimp only at h
    split at h
    · next hwoken =>
      obtain rfl := Option.some.inj h
      have hlen := List.length_erase_of_mem hwoken
      have hpos := List.length_pos_of_mem hwoken
      constructor
      · simp only [begin_activeCount, begin_executing, begin_settled, List.length_append,
          List.length_singleton]
        omega
      · simp only [begin_activeCount, begin_queue, begin_woken, true_and]
        omega
    · cases h
  | settle run =>
    unfold step at h
    dsimp only at h
    split at h
    · next hexecuting =>
      obtain rfl := Option.some.inj h
      have hlen := List.length_erase_of_mem hexecuting
      have hpos := List.length_pos_of_mem hexecuting
      refine ⟨?_, rfl, rfl, rfl⟩
      simp only [List.length_append, List.length_singleton]
      omega
    · cases h
  | release run =>
    unfold step at h
    dsimp only at h
    split at h
    · next hsettled =>
      obtain rfl := Option.some.inj h
      have hlen := List.length_erase_of_mem hsettled
      have hpos := List.length_pos_of_mem hsettled
      refine ⟨?_, ?_, wakeNext_woken { s with
        activeCount := s.activeCount - 1
        activeShells := dropShell s.activeShells run
        settled := s.settled.erase run }⟩
      · simp only [wakeNext_activeCount, wakeNext_executing, wakeNext_settled]
        omega
      · simp only [wakeNext_activeCount]
        omega
    · cases h

/-! ## No caller is stranded -/

/-- Whenever callers wait, at least `maxConcurrent` callers have a slot or were resolved. -/
def NotStranded (maxConcurrent : ℕ) (s : State) : Prop :=
  s.queue ≠ [] → maxConcurrent ≤ s.executing.length + s.settled.length + s.woken.length

theorem step_notStranded {e : Event} (hs : Counted s) (h : step maxConcurrent s e = some s')
    (hqueue : NotStranded maxConcurrent s) : NotStranded maxConcurrent s' := by
  obtain ⟨hs', hcounts⟩ := step_counts hs h
  unfold NotStranded at hqueue ⊢
  unfold Counted at hs hs'
  rw [← hs] at hqueue
  rw [← hs']
  intro hwaiting
  cases e with
  | enter shell =>
    rcases hcounts with ⟨hfull, hactive, hwoken⟩ | ⟨-, hactive, hsame, hwoken⟩
    · omega
    · have := hqueue (hsame ▸ hwaiting)
      rw [hwoken]
      omega
  | resume run =>
    obtain ⟨hactive, hsame, hwoken⟩ := hcounts
    have := hqueue (hsame ▸ hwaiting)
    omega
  | settle run =>
    obtain ⟨hactive, hsame, hwoken⟩ := hcounts
    have := hqueue (hsame ▸ hwaiting)
    rw [hwoken]
    omega
  | release run =>
    obtain ⟨hactive, ⟨-, hempty, -⟩ | ⟨hnonempty, hwoken⟩⟩ := hcounts
    · exact absurd hempty hwaiting
    · have := hqueue hnonempty
      omega

/-! ## The shells that may be aborted -/

/-- A controller in the table belongs to a call that has a slot, for its directory. -/
def ShellsHeld (s : State) : Prop :=
  ∀ cwd id, s.activeShells.get? cwd = some id →
    ∃ run ∈ s.executing ++ s.settled, run.id = id ∧ run.shell = some cwd

theorem begin_shellsHeld (hs : ShellsHeld s) (run : Run) : ShellsHeld (begin s run) := by
  have hold : ∀ cwd id, s.activeShells.get? cwd = some id →
      ∃ r ∈ (begin s run).executing ++ (begin s run).settled, r.id = id ∧ r.shell = some cwd := by
    intro cwd id hget
    obtain ⟨r, hr, hid, hcwd⟩ := hs cwd id hget
    refine ⟨r, ?_, hid, hcwd⟩
    rw [begin_executing, begin_settled]
    simp only [List.mem_append] at hr ⊢
    tauto
  intro cwd id hget
  unfold begin at hget
  cases hshell : run.shell with
  | none =>
    rw [hshell] at hget
    exact hold cwd id hget
  | some own =>
    rw [hshell] at hget
    dsimp only at hget
    rw [ObjectMap.get?_set] at hget
    split at hget
    · next heq =>
      -- the run has just registered itself
      obtain rfl := Option.some.inj hget
      exact ⟨run, by simp, rfl, by rw [hshell, heq]⟩
    · exact hold cwd id hget

theorem step_shellsHeld {e : Event} (hs : ShellsHeld s) (h : step maxConcurrent s e = some s') :
    ShellsHeld s' := by
  cases e with
  | enter shell =>
    obtain rfl := Option.some.inj h
    unfold enter
    dsimp only
    split
    · exact hs
    · have hs : ShellsHeld { s with calls := s.calls + 1 } := hs
      exact begin_shellsHeld hs _
  | resume run =>
    unfold step at h
    dsimp only at h
    split at h
    · obtain rfl := Option.some.inj h
      have hs : ShellsHeld { s with woken := s.woken.erase run } := hs
      exact begin_shellsHeld hs run
    · cases h
  | settle run =>
    unfold step at h
    dsimp only at h
    split at h
    · obtain rfl := Option.some.inj h
      intro cwd id hget
      obtain ⟨r, hr, hid, hcwd⟩ := hs cwd id hget
      refine ⟨r, ?_, hid, hcwd⟩
      simp only [List.mem_append, List.mem_singleton] at hr ⊢
      by_cases heq : r = run
      · exact .inr (.inr heq)
      · rw [List.mem_erase_of_ne heq]
        tauto
    · cases h
  | release run =>
    unfold step at h
    dsimp only at h
    split at h
    · obtain rfl := Option.some.inj h
      intro cwd id hget
      rw [wakeNext_activeShells] at hget
      rw [wakeNext_executing, wakeNext_settled]
      obtain ⟨hstill, hkept⟩ := get?_dropShell.mp hget
      obtain ⟨r, hr, hid, hcwd⟩ := hs cwd id hstill
      refine ⟨r, ?_, hid, hcwd⟩
      have hne : r ≠ run := by
        rintro rfl
        exact hkept ⟨hcwd, hid.symm⟩
      simp only [List.mem_append] at hr ⊢
      rwa [List.mem_erase_of_ne hne]
    · cases h

/-! ## The limit -/

/-- The caller does not enter on a slot that a resolved waiter has not taken yet. -/
def Respects (maxConcurrent : ℕ) (s : State) : Event → Prop
  | .enter _ => s.activeCount < maxConcurrent → s.activeCount + s.woken.length < maxConcurrent
  | _ => True

instance (maxConcurrent : ℕ) (s : State) (e : Event) : Decidable (Respects maxConcurrent s e) := by
  cases e <;> unfold Respects <;> infer_instance

/-- The slots in use and those of the resolved waiters are no more than there are. -/
def Reserved (maxConcurrent : ℕ) (s : State) : Prop :=
  s.activeCount + s.woken.length ≤ maxConcurrent

/-- **A step keeps the reservations exactly when it respects them.** -/
theorem step_reserved_iff {e : Event} (hs : Counted s) (h : step maxConcurrent s e = some s')
    (hreserved : Reserved maxConcurrent s) :
    Reserved maxConcurrent s' ↔ Respects maxConcurrent s e := by
  obtain ⟨-, hcounts⟩ := step_counts hs h
  unfold Reserved at hreserved ⊢
  cases e with
  | enter shell =>
    unfold Respects
    dsimp only
    rcases hcounts with ⟨hfull, hactive, hwoken⟩ | ⟨hfree, hactive, -, hwoken⟩
    · rw [hwoken]
      omega
    · rw [hwoken]
      omega
  | resume run =>
    obtain ⟨hactive, -, hwoken⟩ := hcounts
    exact iff_of_true (by omega) trivial
  | settle run =>
    obtain ⟨hactive, -, hwoken⟩ := hcounts
    exact iff_of_true (by rw [hwoken]; omega) trivial
  | release run =>
    obtain ⟨hactive, ⟨-, -, hwoken⟩ | ⟨-, hwoken⟩⟩ := hcounts
    · exact iff_of_true (by rw [hwoken]; omega) trivial
    · exact iff_of_true (by omega) trivial

end

/-! ## Whole runs -/

section

variable {maxConcurrent : ℕ} {s : State} {events : List Event}

theorem counted_of_run (hrun : (controllerLTS maxConcurrent).Run initial events s) : Counted s :=
  hrun.invariant rfl fun _ _ _ hstep hs => (step_counts hs hstep).1

/-- **No caller is stranded**, in any run. -/
theorem stranded_never (hrun : (controllerLTS maxConcurrent).Run initial events s) :
    NotStranded maxConcurrent s := by
  refine (hrun.history (P := fun _ s => NotStranded maxConcurrent s) ?_ ?_)
  · exact fun hwaiting => absurd rfl hwaiting
  · intro hist a e b ha hstep hqueue
    exact step_notStranded (counted_of_run ha) hstep hqueue

/-- No more functions execute than slots are reserved. -/
theorem Reserved.executing_le (hs : Counted s) (h : Reserved maxConcurrent s) :
    s.executing.length ≤ maxConcurrent := by
  unfold Reserved at h
  unfold Counted at hs
  omega

variable (maxConcurrent) in
/-- When the resolved waiters all go on, they all execute. -/
theorem run_resumes (s : State) :
    ∃ events s', (controllerLTS maxConcurrent).Run s events s' ∧
      s'.executing.length = s.executing.length + s.woken.length := by
  generalize hwoken : s.woken = woken
  induction woken generalizing s with
  | nil => exact ⟨[], s, LTS.Run.nil, rfl⟩
  | cons run woken ih =>
    have hmem : run ∈ s.woken := hwoken ▸ List.mem_cons_self
    obtain ⟨events, s', hrun, hlen⟩ := ih (begin { s with woken := s.woken.erase run } run) (by
      rw [begin_woken]
      dsimp only
      rw [hwoken, List.erase_cons_head])
    refine ⟨.resume run :: events, s', LTS.Run.cons ?_ hrun, ?_⟩
    · show step maxConcurrent s (.resume run) = _
      unfold step
      dsimp only
      rw [if_pos hmem]
    · rw [hlen, begin_executing]
      simp only [List.length_append, List.length_cons, List.length_nil]
      omega

/-- **A caller that enters on the slot of a resolved waiter breaks the limit** as soon as the
waiters go on: with all slots reserved before, and no function that has settled but not been
released. -/
theorem overtaken_exceeds {shell : Option String} (hs : Counted s)
    (hreserved : Reserved maxConcurrent s) (hsettled : s.settled = [])
    (hovertakes : ¬ Respects maxConcurrent s (.enter shell)) :
    ∃ events s', (controllerLTS maxConcurrent).Run s (.enter shell :: events) s' ∧
      maxConcurrent < s'.executing.length := by
  have hstep : step maxConcurrent s (.enter shell) = some (enter maxConcurrent s shell) := rfl
  have hexceeds : ¬ Reserved maxConcurrent (enter maxConcurrent s shell) :=
    fun h => hovertakes ((step_reserved_iff hs hstep hreserved).mp h)
  have hcounted : Counted (enter maxConcurrent s shell) := (step_counts hs hstep).1
  have hnone : (enter maxConcurrent s shell).settled = [] := by
    unfold enter
    dsimp only
    split
    · exact hsettled
    · rw [begin_settled]
      exact hsettled
  obtain ⟨events, s', hrun, hlen⟩ := run_resumes maxConcurrent
    (enter maxConcurrent s shell)
  refine ⟨events, s', LTS.Run.cons hstep hrun, ?_⟩
  unfold Reserved at hexceeds
  unfold Counted at hcounted
  rw [hnone, List.length_nil] at hcounted
  omega

/-- Along a run that respects the reservations, the slots of the resolved waiters stay
reserved. -/
theorem reserved_of_respectful (hrun : (controllerLTS maxConcurrent).Run initial events s)
    (hrespects : (controllerLTS maxConcurrent).Always initial events (Respects maxConcurrent)) :
    Counted s ∧ Reserved maxConcurrent s := by
  refine hrun.guarded (P := fun m => Counted m ∧ Reserved maxConcurrent m)
    ⟨rfl, Nat.zero_le _⟩ hrespects ?_
  rintro a e b hstep hrespects ⟨hs, hreserved⟩
  exact ⟨(step_counts hs hstep).1, (step_reserved_iff hs hstep hreserved).mpr hrespects⟩

/-- **The first caller that enters on the slot of a resolved waiter** breaks the limit: the run
goes on to more functions that execute than there are slots. -/
theorem first_overtaking_exceeds {shell : Option String}
    (hrun : (controllerLTS maxConcurrent).Run initial events s)
    (hrespects : (controllerLTS maxConcurrent).Always initial events (Respects maxConcurrent))
    (hsettled : s.settled = []) (hovertakes : ¬ Respects maxConcurrent s (.enter shell)) :
    ∃ more s', (controllerLTS maxConcurrent).Run initial (events ++ .enter shell :: more) s' ∧
      maxConcurrent < s'.executing.length := by
  obtain ⟨hs, hreserved⟩ := reserved_of_respectful hrun hrespects
  obtain ⟨more, s', hmore, hexceeds⟩ := overtaken_exceeds hs hreserved hsettled hovertakes
  exact ⟨more, s', hrun.append hmore, hexceeds⟩

/-- **In every run no caller is stranded, and, when no caller enters on the slot of a resolved
waiter, no more functions execute than there are slots.** -/
theorem limited_of_respectful (maxConcurrent : ℕ) (events : List Event) :
    (controllerLTS maxConcurrent).Throughout initial events (NotStranded maxConcurrent) ∧
      ((controllerLTS maxConcurrent).Always initial events (Respects maxConcurrent) →
        (controllerLTS maxConcurrent).Throughout initial events
          fun m => m.executing.length ≤ maxConcurrent) := by
  constructor
  · exact fun before after m _ hbefore => stranded_never hbefore
  · intro hrespects before after m hsplit hbefore
    -- along the way the slots of the resolved waiters stay reserved
    have hinv : Counted m ∧ Reserved maxConcurrent m := by
      rw [hsplit] at hrespects
      refine hbefore.guarded (P := fun m => Counted m ∧ Reserved maxConcurrent m) ?_
        hrespects.take ?_
      · exact ⟨rfl, Nat.zero_le _⟩
      · rintro a e b hstep hrespects ⟨hs, hreserved⟩
        exact ⟨(step_counts hs hstep).1, (step_reserved_iff hs hstep hreserved).mpr hrespects⟩
    exact hinv.2.executing_le hinv.1

end

/-! ## Sample runs -/

/-- With one slot: a second caller waits, is resolved and goes on before a third one enters. -/
def sampleEvents : List Event :=
  [.enter none, .enter (some "."), .settle ⟨0, none⟩, .release ⟨0, none⟩, .resume ⟨1, some "."⟩,
    .enter none]

theorem limited_of_respectful_sample :
    (∃ s, (controllerLTS 1).Run initial sampleEvents s) ∧
      (controllerLTS 1).Throughout initial sampleEvents (NotStranded 1) ∧
      (controllerLTS 1).Throughout initial sampleEvents fun m => m.executing.length ≤ 1 :=
  ⟨⟨_, LTS.run_execPartial (Option.some_get (by decide)).symm⟩,
    (limited_of_respectful 1 sampleEvents).1, (limited_of_respectful 1 sampleEvents).2
      (LTS.ExecPartialAlways.always (by decide))⟩

/-- With one slot: it has been released to a caller that has not gone on yet. -/
def resolvedEvents : List Event :=
  [.enter none, .enter none, .settle ⟨0, none⟩, .release ⟨0, none⟩]

theorem first_overtaking_exceeds_sample : ∃ more s',
    (controllerLTS 1).Run initial (resolvedEvents ++ .enter none :: more) s' ∧
      1 < s'.executing.length := by
  have hopen : (LTS.execPartial (step 1) initial resolvedEvents).any
      (fun s => s.settled = [] ∧ ¬ Respects 1 s (.enter none)) = true := by decide
  obtain ⟨s, hs, hboth⟩ := (Option.any_eq_true _ _).mp hopen
  obtain ⟨hsettled, hovertakes⟩ := of_decide_eq_true hboth
  exact first_overtaking_exceeds (LTS.run_execPartial hs)
    (LTS.ExecPartialAlways.always (by decide)) hsettled hovertakes

/-- **Two functions execute on one slot**: the third caller enters between the release of the
slot and the continuation of the waiter it was released to. -/
theorem two_on_one_slot :
    ∃ events s, (controllerLTS 1).Run initial events s ∧ s.executing.length = 2 :=
  ⟨[.enter none, .enter none, .settle ⟨0, none⟩, .release ⟨0, none⟩, .enter none,
      .resume ⟨1, none⟩], _, LTS.run_execPartial (Option.some_get (by decide)).symm, by decide⟩

end PulSeed.ConcurrencyController
