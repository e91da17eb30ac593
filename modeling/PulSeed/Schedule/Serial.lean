import Mathlib.Data.List.Permutation
import PulSeed.Lib.Traverse
import PulSeed.Schedule.Engine

/-!
# Sections one at a time

A section works on `this.entries`, which every other section replaces when it reads and
when it saves. So two sections that overlap write each other's entries: a mutation made
while the outcome of an execution waits for its report is in the array that the outcome
saves, and the outcome itself is not (`outcome_lost`).

`mutations_serial` shows that nothing is lost when sections do **not** overlap: in every run
where a section enters only when no other is still at work, and `this.entries` is assigned
outside a section only then, the stored entries are those that the same sections leave
when they are run one after another, in the order of their last writes.
-/

namespace PulSeed

namespace Schedule

variable (nextCron : NextCron)

/-! ## A section alone -/

/-- A section that runs alone: the entries it works on, the entries stored, and where it
goes on. -/
@[ext]
structure Alone where
  entries : List ScheduleEntry
  stored : List ScheduleEntry
  next : Option Local

/-- Its next stretch. -/
def Alone.step (sec : Section) (a : Alone) (input : Reading × Reply) : Alone :=
  match a.next with
  | none => a
  | some l =>
    match work nextCron sec l input.1 input.2 a.entries with
    | .error _ => { a with next := none }
    | .ok (u, .await next) =>
      { a with
        entries := u.entries
        next := some next }
    | .ok (u, .save next) => { entries := u.entries, stored := u.entries, next := some next }
    | .ok (u, .done _) =>
      { entries := u.entries
        stored := if sec.isMutation then u.entries else a.stored
        next := none }

/-- A section run alone on the stored entries. -/
def runAlone (sec : Section) (inputs : List (Reading × Reply)) (stored : List ScheduleEntry) :
    Alone :=
  inputs.foldl (Alone.step nextCron sec) ⟨stored, stored, some .start⟩

@[simp] theorem runAlone_nil (sec : Section) (stored : List ScheduleEntry) :
    runAlone nextCron sec [] stored = ⟨stored, stored, some .start⟩ := rfl

theorem runAlone_append (sec : Section) (inputs : List (Reading × Reply))
    (input : Reading × Reply) (stored : List ScheduleEntry) :
    runAlone nextCron sec (inputs ++ [input]) stored =
      (runAlone nextCron sec inputs stored).step nextCron sec input := by
  simp [runAlone]

/-- The entries an operation leaves when it is run alone. -/
def Operation.apply (stored : List ScheduleEntry) (op : Operation) : List ScheduleEntry :=
  (runAlone nextCron op.sec op.inputs stored).stored

/-- The entries that operations leave when they are run one after another. -/
def serial (stored : List ScheduleEntry) (ops : List Operation) : List ScheduleEntry :=
  ops.foldl (Operation.apply nextCron) stored

theorem serial_append (stored : List ScheduleEntry) (ops : List Operation) (op : Operation) :
    serial nextCron stored (ops ++ [op]) = op.apply nextCron (serial nextCron stored ops) := by
  simp [serial]

/-! ## Sections at work -/

/-- The section is inside and has not done its last write. -/
def Phase.unsettled : Phase → Bool
  | calling => false
  | acquiring _ _ => false
  | acquired _ => false
  | reading _ => true
  | assigning _ _ => true
  | working _ l => ! l.settled
  | mutated _ _ => true
  | acquiringSave _ _ _ _ => true
  | acquiredSave _ _ _ => true
  | writing _ _ => true
  | projecting _ save => ! save.next.all Local.settled
  | leaving _ _ => false

/-- `loadEntries` only reads inside the lock. -/
def Section.works : Section → Bool
  | loadEntries => false
  | _ => true

def Task.unsettled : Task → Bool
  | inSection .loadEntries (.reading _) _ => false
  | inSection _ phase _ => phase.unsettled
  | _ => false

/-- The task enters a section, or assigns `this.entries` outside one. -/
def Task.begins (s : Engine) (reply : Reply) : Task → Bool
  | inSection sec .calling _ => sec.works && decide (0 < s.lockDepth)
  | inSection sec (.acquired _) _ => sec.works
  | assigningLoaded _ => true
  | executing _ => match reply with
    | .baseline _ _ => true
    | _ => false
  | _ => false

/-- Sections do not overlap: a section enters, and entries are assigned outside sections,
only when no section is at work. -/
def OneAtATime (s : Engine) : Event → Prop
  | .call _ => True
  | .resume i _ reply =>
    (s.tasks[i]?).any (fun task => task.begins s reply) = true →
      ∀ task ∈ s.tasks, task.unsettled = false

instance (s : Engine) : (event : Event) → Decidable (OneAtATime s event)
  | .call _ => instDecidableTrue
  | .resume _ _ _ => inferInstanceAs (Decidable (_ → ∀ _ ∈ _, _))

/-! ## What the primitives do to the shared state -/

/-- The entries, shared and stored, and the records of the run are the same. -/
structure Same (s s' : Engine) : Prop where
  stored : s'.stored = s.stored
  heap : s'.heap = s.heap
  entries : s'.entries = s.entries
  log : s'.log = s.log
  recorded : s'.recorded = s.recorded

theorem Same.refl (s : Engine) : Same s s := ⟨rfl, rfl, rfl, rfl, rfl⟩

theorem Same.current {s s' : Engine} (h : Same s s') : s'.current = s.current := by
  rw [Engine.current, Engine.current, h.heap, h.entries]

/-- `this.entries` is an array. -/
def Engine.Valid (s : Engine) : Prop := s.entries < s.heap.length

theorem Same.valid {s s' : Engine} (h : Same s s') : s'.Valid ↔ s.Valid := by
  rw [Engine.Valid, Engine.Valid, h.heap, h.entries]

theorem Engine.assign_valid (s : Engine) (entries : List ScheduleEntry) :
    (s.assign entries).Valid := by
  simp [Engine.Valid, Engine.assign]

@[simp] theorem Engine.assign_current (s : Engine) (entries : List ScheduleEntry) :
    (s.assign entries).current = entries := by
  simp [Engine.current, Engine.assign]

theorem Engine.update_valid {s : Engine} (h : s.Valid) (u : Update) : (s.update u).Valid := by
  unfold Engine.update
  split
  · simpa [Engine.Valid] using h
  · exact Engine.assign_valid _ _

theorem Engine.update_current {s : Engine} (h : s.Valid) (u : Update) :
    (s.update u).current = u.entries := by
  unfold Engine.update Update.entries
  cases u.fresh with
  | none =>
    have hlt : s.entries < (s.heap.set s.entries u.array).length := by
      rw [List.length_set]
      exact h
    simp [Engine.current, List.getElem?_eq_getElem hlt]
  | some entries => exact Engine.assign_current _ _

@[simp] theorem Engine.update_stored (s : Engine) (u : Update) :
    (s.update u).stored = s.stored := by
  unfold Engine.update
  split <;> rfl

@[simp] theorem Engine.update_log (s : Engine) (u : Update) : (s.update u).log = s.log := by
  unfold Engine.update
  split <;> rfl

@[simp] theorem Engine.update_recorded (s : Engine) (u : Update) :
    (s.update u).recorded = s.recorded := by
  unfold Engine.update
  split <;> rfl

/-- An update that keeps the array. -/
theorem Engine.update_self (s : Engine) : s.update { array := s.current } = s := by
  have hset : s.heap.set s.entries s.current = s.heap := by
    by_cases h : s.entries < s.heap.length
    · simp [Engine.current, List.getElem?_eq_getElem h]
    · exact List.set_eq_of_length_le (not_lt.mp h)
  show { s with heap := s.heap.set s.entries s.current } = s
  rw [hset]

theorem Engine.release_same (s : Engine) (held : Option ℕ) : Same s (s.release held) := by
  unfold Engine.release
  split <;> exact ⟨rfl, rfl, rfl, rfl, rfl⟩

theorem Engine.write_log_settled {s : Engine} {frame : Frame} {sec : Section} {save : Save}
    (h : save.next.all Local.settled = true) :
    (s.write frame sec save).log = s.log ++ [⟨sec, frame.inputs ++ [save.input]⟩] := by
  unfold Engine.write
  dsimp only
  rw [if_pos h]
  split <;> rfl

theorem Engine.write_log_unsettled {s : Engine} {frame : Frame} {sec : Section} {save : Save}
    (h : ¬ save.next.all Local.settled = true) : (s.write frame sec save).log = s.log := by
  unfold Engine.write
  dsimp only
  rw [if_neg h]
  split <;> rfl

theorem attempt_same (s : Engine) (now startedAt : Millis) (token : ℕ) :
    Same s (attempt s now startedAt token).1 := by
  unfold attempt
  dsimp only
  split <;> exact ⟨rfl, rfl, rfl, rfl, rfl⟩

theorem enter_same (s : Engine) (held : Option ℕ) : Same s (enter s held).1 :=
  ⟨rfl, rfl, rfl, rfl, rfl⟩

/-- A call of `saveEntries` leaves the entries alone, and waits with the current array. -/
theorem beginSave_spec (s : Engine) (frame : Frame) (input : Reading × Reply)
    (next : Option Local) :
    Same s (beginSave s frame input next).1 ∧
      ((beginSave s frame input next).2 = .writing frame ⟨s.entries, input, next, none⟩ ∨
        ∃ startedAt token, (beginSave s frame input next).2 =
          .acquiringSave frame ⟨s.entries, input, next, none⟩ startedAt token) := by
  unfold beginSave
  dsimp only
  split
  · exact ⟨Same.refl s, .inl rfl⟩
  · exact ⟨⟨rfl, rfl, rfl, rfl, rfl⟩, .inr ⟨_, _, rfl⟩⟩

variable {nextCron}

variable (nextCron) in
/-- What a step of a section can do, phase by phase. -/
inductive SectionStep (s : Engine) (sec : Section) (r : Reading) (reply : Reply) :
    Phase → Engine → Progress → Prop
  | nested (hdepth : 0 < s.lockDepth) :
      SectionStep s sec r reply .calling (enter s none).1 (.phase (enter s none).2)
  | queues (hdepth : ¬ 0 < s.lockDepth) :
      SectionStep s sec r reply .calling { s with nextToken := s.nextToken + 1 }
        (.phase (.acquiring r.now s.nextToken))
  | acquires {s' : Engine} {startedAt : Millis} {token : ℕ} (hsame : Same s s') :
      SectionStep s sec r reply (.acquiring startedAt token) s' (.phase (.acquired token))
  | retries {s' : Engine} {startedAt : Millis} {token : ℕ} (hsame : Same s s') :
      SectionStep s sec r reply (.acquiring startedAt token) s'
        (.phase (.acquiring startedAt token))
  | expires {s' : Engine} {startedAt : Millis} {token : ℕ} (hsame : Same s s') :
      SectionStep s sec r reply (.acquiring startedAt token) s' .failed
  | enters {token : ℕ} :
      SectionStep s sec r reply (.acquired token) (enter s (some token)).1
        (.phase (enter s (some token)).2)
  | loads {frame : Frame} (hsec : sec = .loadEntries) :
      SectionStep s sec r reply (.reading frame) s (.phase (.leaving frame (.loaded s.stored)))
  | reads {frame : Frame} (hsec : sec ≠ .loadEntries) :
      SectionStep s sec r reply (.reading frame) s (.phase (.assigning frame s.stored))
  | assigns {frame : Frame} {loaded : List ScheduleEntry} :
      SectionStep s sec r reply (.assigning frame loaded) (s.assign loaded)
        (.phase (.working frame .start))
  | throws {frame : Frame} {l : Local}
      (hwork : work nextCron sec l r reply s.current = .error .throws) :
      SectionStep s sec r reply (.working frame l) (fail s sec frame).1 .failed
  | awaits {frame : Frame} {l : Local} {u : Update} {next : Local}
      (hwork : work nextCron sec l r reply s.current = .ok (u, .await next)) :
      SectionStep s sec r reply (.working frame l) (s.update u)
        (.phase (.working { frame with inputs := frame.inputs ++ [(r, reply)] } next))
  | saves {frame : Frame} {l : Local} {u : Update} {next : Local}
      (hwork : work nextCron sec l r reply s.current = .ok (u, .save next)) :
      SectionStep s sec r reply (.working frame l)
        (beginSave (s.update u) frame (r, reply) (some next)).1
        (.phase (beginSave (s.update u) frame (r, reply) (some next)).2)
  | mutates {frame : Frame} {l : Local} {u : Update} {answer : Answer}
      (hwork : work nextCron sec l r reply s.current = .ok (u, .done answer))
      (hmutation : sec.isMutation = true) :
      SectionStep s sec r reply (.working frame l) (s.update u) (.phase (.mutated frame (r, reply)))
  | answers {frame : Frame} {l : Local} {u : Update} {answer : Answer}
      (hwork : work nextCron sec l r reply s.current = .ok (u, .done answer))
      (hmutation : ¬ sec.isMutation = true) (hl : l.settled = true) :
      SectionStep s sec r reply (.working frame l) (s.update u) (.phase (.leaving frame answer))
  | finishes {frame : Frame} {l : Local} {u : Update} {answer : Answer}
      (hwork : work nextCron sec l r reply s.current = .ok (u, .done answer))
      (hmutation : ¬ sec.isMutation = true) (hl : ¬ l.settled = true) :
      SectionStep s sec r reply (.working frame l)
        ((s.update u).finishes sec (frame.inputs ++ [(r, reply)])) (.phase (.leaving frame answer))
  | savesMutation {frame : Frame} {input : Reading × Reply} :
      SectionStep s sec r reply (.mutated frame input) (beginSave s frame input none).1
        (.phase (beginSave s frame input none).2)
  | acquiresSave {s' : Engine} {frame : Frame} {save : Save} {startedAt : Millis} {token : ℕ}
      (hsame : Same s s') :
      SectionStep s sec r reply (.acquiringSave frame save startedAt token) s'
        (.phase (.acquiredSave frame save token))
  | retriesSave {s' : Engine} {frame : Frame} {save : Save} {startedAt : Millis} {token : ℕ}
      (hsame : Same s s') :
      SectionStep s sec r reply (.acquiringSave frame save startedAt token) s'
        (.phase (.acquiringSave frame save startedAt token))
  | expiresSave {s' : Engine} {frame : Frame} {save : Save} {startedAt : Millis} {token : ℕ}
      (hsame : Same s s') :
      SectionStep s sec r reply (.acquiringSave frame save startedAt token) (fail s' sec frame).1
        .failed
  | holdsSave {frame : Frame} {save : Save} {token : ℕ} :
      SectionStep s sec r reply (.acquiredSave frame save token)
        { s with lockDepth := s.lockDepth + 1 }
        (.phase (.writing frame { save with held := some token }))
  | writes {frame : Frame} {save : Save} :
      SectionStep s sec r reply (.writing frame save) (s.write frame sec save)
        (.phase (.projecting { frame with inputs := frame.inputs ++ [save.input] } save))
  | goesOn {frame : Frame} {save : Save} {l : Local} (hnext : save.next = some l) :
      SectionStep s sec r reply (.projecting frame save) (s.release save.held)
        (.phase (.working frame l))
  | saved {frame : Frame} {save : Save} (hnext : save.next = none) :
      SectionStep s sec r reply (.projecting frame save) (s.release save.held)
        (.phase (.leaving frame .unit))
  | leaves {frame : Frame} {answer : Answer} :
      SectionStep s sec r reply (.leaving frame answer) (s.release frame.held) (.answer answer)

/-- **The step of a section is one of these**; the attempts at the lock are read as what they
leave alone. -/
theorem stepSection_cases {s s' : Engine} {sec : Section} {phase : Phase} {r : Reading}
    {reply : Reply} {progress : Progress}
    (h : stepSection nextCron s sec phase r reply = some (s', progress)) :
    SectionStep nextCron s sec r reply phase s' progress := by
  cases phase with
  | calling =>
    simp only [stepSection] at h
    split at h
    · next hdepth =>
      cases h
      exact .nested hdepth
    · next hdepth =>
      cases h
      exact .queues hdepth
  | acquiring startedAt token =>
    have hsame := attempt_same s r.now startedAt token
    simp only [stepSection] at h
    split at h
    · next hattempt =>
      cases h
      rw [hattempt] at hsame
      exact .acquires hsame
    · next hattempt =>
      cases h
      rw [hattempt] at hsame
      exact .retries hsame
    · next hattempt =>
      cases h
      rw [hattempt] at hsame
      exact .expires hsame
  | acquired token =>
    cases h
    exact .enters
  | reading frame =>
    by_cases hsec : sec = .loadEntries
    · subst hsec
      cases h
      exact .loads rfl
    · have hread : stepSection nextCron s sec (.reading frame) r reply =
          some (s, .phase (.assigning frame s.stored)) := by
        cases sec with
        | loadEntries => exact absurd rfl hsec
        | _ => rfl
      cases hread.symm.trans h
      exact .reads hsec
  | assigning frame loaded =>
    cases h
    exact .assigns
  | working frame l =>
    simp only [stepSection, stepWork] at h
    split at h
    · cases h
    · next hwork =>
      cases h
      exact .throws hwork
    · next u next hwork =>
      cases h
      exact .awaits hwork
    · next u next hwork =>
      cases h
      exact .saves hwork
    · next u answer hwork =>
      split at h
      · next hmutation =>
        cases h
        exact .mutates hwork hmutation
      · next hmutation =>
        cases h
        by_cases hl : l.settled = true
        · rw [if_pos hl]
          exact .answers hwork hmutation hl
        · rw [if_neg hl]
          exact .finishes hwork hmutation hl
  | mutated frame input =>
    cases h
    exact .savesMutation
  | acquiringSave frame save startedAt token =>
    have hsame := attempt_same s r.now startedAt token
    simp only [stepSection] at h
    split at h
    · next hattempt =>
      cases h
      rw [hattempt] at hsame
      exact .acquiresSave hsame
    · next hattempt =>
      cases h
      rw [hattempt] at hsame
      exact .retriesSave hsame
    · next hattempt =>
      cases h
      rw [hattempt] at hsame
      exact .expiresSave hsame
  | acquiredSave frame save token =>
    cases h
    exact .holdsSave
  | writing frame save =>
    cases h
    exact .writes
  | projecting frame save =>
    simp only [stepSection] at h
    split at h
    · next l hnext =>
      cases h
      exact .goesOn hnext
    · next hnext =>
      cases h
      exact .saved hnext
  | leaving frame answer =>
    cases h
    exact .leaves

/-- A section with nothing left to write reads its answer. -/
theorem work_settled {sec : Section} {l : Local} {r : Reading} {reply : Reply}
    {entries : List ScheduleEntry} (h : l.settled = true) :
    work nextCron sec l r reply entries = .error .impossible ∨
      sec.isMutation = false ∧ ∃ answer,
        work nextCron sec l r reply entries = .ok ({ array := entries }, .done answer) := by
  cases l with
  | start => cases h
  | health sync sourceId rest => cases h
  | fetch sync sourceId rest => cases h
  | syncSaved => cases h
  | reported updated => cases h
  | tickSaved => cases sec with
    | tick => exact .inr ⟨rfl, _, rfl⟩
    | _ => exact .inl rfl
  | outcomeSaved updated => cases sec with
    | applyOutcome execution result sideEffects => exact .inr ⟨rfl, _, rfl⟩
    | _ => exact .inl rfl
  | escalationSaved idx record => cases sec with
    | checkEscalation entryId => exact .inr ⟨rfl, _, rfl⟩
    | _ => exact .inl rfl

/-- Where it goes on, it is not a mutation, and answers what it has. -/
theorem settled_work {sec : Section} {l : Local} {r : Reading} {reply : Reply}
    {entries : List ScheduleEntry} {result : Except Stop (Update × Ending)} (hl : l.settled = true)
    (hwork : work nextCron sec l r reply entries = result) (hresult : result ≠ .error .impossible) :
    sec.isMutation = false ∧ ∃ answer, result = .ok ({ array := entries }, .done answer) := by
  rcases work_settled hl with hstop | ⟨hmutation, answer, hdone⟩
  · exact absurd (hwork.symm.trans hstop) hresult
  · exact ⟨hmutation, answer, hwork.symm.trans hdone⟩

/-! ## A step that is not a section's work -/

theorem works_eq_false {sec : Section} (h : sec.works = false) : sec = .loadEntries := by
  cases sec with
  | loadEntries => rfl
  | _ => cases h

theorem Task.unsettled_inSection {sec : Section} {phase : Phase} {cont : Cont}
    (h : (Task.inSection sec phase cont).unsettled = true) : phase.unsettled = true := by
  unfold Task.unsettled at h
  split at h
  · cases h
  · next heq =>
    cases heq
    exact h
  · cases h

theorem Task.settled_of_phase (sec : Section) {phase : Phase} (cont : Cont)
    (h : phase.unsettled = false) : (Task.inSection sec phase cont).unsettled = false := by
  unfold Task.unsettled
  split
  · rfl
  · next heq =>
    cases heq
    exact h
  · rfl

/-- A section that is not at work is settled, or it is a load that reads. -/
theorem Task.settled_inSection {sec : Section} {phase : Phase} {cont : Cont}
    (h : (Task.inSection sec phase cont).unsettled = false) :
    phase.unsettled = false ∨ sec = .loadEntries ∧ ∃ frame, phase = .reading frame := by
  unfold Task.unsettled at h
  split at h
  · next heq =>
    cases heq
    exact .inr ⟨rfl, _, rfl⟩
  · next heq =>
    cases heq
    exact .inl h
  · next hnot => exact absurd rfl (hnot _ _ _)

theorem of_phase {p : Phase → Prop} {phase : Phase} (h : p phase) :
    ∀ phase', Progress.phase phase = .phase phase' → p phase' := by
  rintro phase' ⟨⟩
  exact h

theorem settled_of_working {frame : Frame} {l : Local}
    (h : (Phase.working frame l).unsettled = false) : l.settled = true := by
  simpa [Phase.unsettled] using h

/-- A step of a section that is not at work, and does not enter, changes no entries. -/
theorem stepSection_quiet {s s' : Engine} {sec : Section} {phase : Phase} {r : Reading}
    {reply : Reply} {progress : Progress} {cont : Cont}
    (h : stepSection nextCron s sec phase r reply = some (s', progress))
    (hquiet : (Task.inSection sec phase cont).unsettled = false)
    (hbegins : (Task.inSection sec phase cont).begins s reply = false) :
    Same s s' ∧ ∀ phase', progress = .phase phase' →
      (Task.inSection sec phase' cont).unsettled = false := by
  rcases Task.settled_inSection hquiet with hsettled | ⟨rfl, frame, rfl⟩
  swap
  · -- `loadEntries` reads the stored entries
    cases h
    exact ⟨Same.refl s, of_phase rfl⟩
  cases stepSection_cases h with
  | nested hdepth =>
    simp only [Task.begins, hdepth, decide_true, Bool.and_true] at hbegins
    obtain rfl := works_eq_false hbegins
    exact ⟨enter_same s none, of_phase rfl⟩
  | queues hdepth =>
    exact ⟨⟨rfl, rfl, rfl, rfl, rfl⟩, of_phase (Task.settled_of_phase sec cont rfl)⟩
  | acquires hsame => exact ⟨hsame, of_phase (Task.settled_of_phase sec cont rfl)⟩
  | retries hsame => exact ⟨hsame, of_phase (Task.settled_of_phase sec cont rfl)⟩
  | expires hsame => exact ⟨hsame, fun _ => nofun⟩
  | enters =>
    obtain rfl := works_eq_false hbegins
    exact ⟨enter_same s _, of_phase rfl⟩
  | loads hsec => cases hsettled
  | reads hsec => cases hsettled
  | assigns => cases hsettled
  | throws hwork =>
    obtain ⟨-, answer, hdone⟩ := settled_work (settled_of_working hsettled) hwork nofun
    cases hdone
  | awaits hwork =>
    obtain ⟨-, answer, hdone⟩ := settled_work (settled_of_working hsettled) hwork nofun
    cases hdone
  | saves hwork =>
    obtain ⟨-, answer, hdone⟩ := settled_work (settled_of_working hsettled) hwork nofun
    cases hdone
  | mutates hwork hmutation =>
    obtain ⟨hnone, -⟩ := settled_work (settled_of_working hsettled) hwork nofun
    rw [hmutation] at hnone
    cases hnone
  | answers hwork hmutation hl =>
    obtain ⟨-, answer, hdone⟩ := settled_work hl hwork nofun
    cases hdone
    rw [Engine.update_self]
    exact ⟨Same.refl s, of_phase (Task.settled_of_phase sec cont rfl)⟩
  | finishes hwork hmutation hl => exact absurd (settled_of_working hsettled) hl
  | savesMutation => cases hsettled
  | acquiresSave hsame => cases hsettled
  | retriesSave hsame => cases hsettled
  | expiresSave hsame => cases hsettled
  | holdsSave => cases hsettled
  | writes => cases hsettled
  | goesOn hnext =>
    refine ⟨Engine.release_same s _, of_phase (Task.settled_of_phase sec cont ?_)⟩
    simpa [Phase.unsettled, hnext] using hsettled
  | saved hnext =>
    exact ⟨Engine.release_same s _, of_phase (Task.settled_of_phase sec cont rfl)⟩
  | leaves => exact ⟨Engine.release_same s _, fun _ => nofun⟩

/-- The task has not called its next section yet, if it has one. -/
def Task.Outside : Task → Prop
  | inSection _ phase _ => phase = .calling
  | _ => True

theorem Task.Outside.settled {task : Task} (h : task.Outside) : task.unsettled = false := by
  cases task with
  | inSection sec phase cont =>
    obtain rfl : phase = .calling := h
    exact Task.settled_of_phase sec cont rfl
  | _ => rfl

theorem nextDue_outside (due : List DueEntryDescriptor) : (nextDue due).Outside := by
  cases due <;> trivial

/-- With the answer of its section a call goes on outside. -/
theorem proceed_outside (cont : Cont) (answer : Answer) (now : Millis) :
    (proceed cont answer now).Outside := by
  cases cont with
  | ret => trivial
  | load => cases answer <;> trivial
  | tick =>
    cases answer with
    | due descriptors => exact nextDue_outside descriptors
    | _ => trivial
  | manual options =>
    cases answer with
    | found entry => cases entry <;> trivial
    | _ => trivial
  | target rest =>
    cases answer with
    | found entry => cases entry <;> trivial
    | _ => trivial
  | outcome execution result =>
    cases answer with
    | applied updated =>
      simp only [proceed]
      split
      · rfl
      · trivial
    | _ => trivial
  | escalation rest =>
    cases answer with
    | escalated entry =>
      cases entry with
      | none => trivial
      | some entry =>
        simp only [proceed]
        split <;> trivial
    | _ => trivial

/-- A task outside a section stays outside, and changes entries only when it begins to. -/
theorem stepTask_outside {s s' : Engine} {task task' : Task} {r : Reading} {reply : Reply}
    (h : stepTask nextCron s task r reply = some (s', task'))
    (hsection : ∀ sec phase cont, task ≠ .inSection sec phase cont) :
    task'.Outside ∧ s'.log = s.log ∧ (task.begins s reply = false → Same s s') := by
  cases task with
  | inSection sec phase cont => exact absurd rfl (hsection sec phase cont)
  | assigningLoaded entries =>
    cases h
    exact ⟨trivial, rfl, nofun⟩
  | executing execution =>
    cases reply with
    | executed result =>
      cases h
      exact ⟨rfl, rfl, fun _ => Same.refl s⟩
    | baseline value windowSize =>
      simp only [stepTask] at h
      split at h
      · cases h
        exact ⟨trivial, Engine.update_log .., nofun⟩
      · cases h
    | rejected message =>
      cases h
      exact ⟨trivial, rfl, fun _ => Same.refl s⟩
    | _ => cases h
  | escalating policy rest =>
    simp only [stepTask] at h
    split at h
    · cases h
      exact ⟨rfl, rfl, fun _ => Same.refl s⟩
    · cases h
      exact ⟨trivial, rfl, fun _ => Same.refl s⟩
  | recordingHistory rest =>
    cases rest with
    | tick due =>
      cases h
      exact ⟨nextDue_outside due, rfl, fun _ => Same.refl s⟩
    | manual =>
      cases h
      exact ⟨trivial, rfl, fun _ => Same.refl s⟩
  | finished => cases h

/-- **A quiet step**: a call that is not at work, and does not begin to be, changes no
entries. -/
theorem stepTask_quiet {s s' : Engine} {task task' : Task} {r : Reading} {reply : Reply}
    (h : stepTask nextCron s task r reply = some (s', task'))
    (hquiet : task.unsettled = false) (hbegins : task.begins s reply = false) :
    Same s s' ∧ task'.unsettled = false := by
  cases task with
  | inSection sec phase cont =>
    simp only [stepTask] at h
    split at h
    · cases h
    · next phase' hstep =>
      cases h
      obtain ⟨hsame, hphase⟩ := stepSection_quiet hstep hquiet hbegins
      exact ⟨hsame, hphase _ rfl⟩
    · next answer hstep =>
      cases h
      exact ⟨(stepSection_quiet hstep hquiet hbegins).1, (proceed_outside ..).settled⟩
    · next hstep =>
      cases h
      exact ⟨(stepSection_quiet hstep hquiet hbegins).1, rfl⟩
  | _ =>
    obtain ⟨houtside, -, hsame⟩ := stepTask_outside h (by rintro sec phase cont ⟨⟩)
    exact ⟨hsame hbegins, houtside.settled⟩

/-! ## A section at work -/

/-- An `await` outside `saveEntries` leaves something to be written. -/
theorem work_await {sec : Section} {l : Local} {r : Reading} {reply : Reply}
    {entries : List ScheduleEntry} {u : Update} {next : Local}
    (h : work nextCron sec l r reply entries = .ok (u, .await next)) : next.settled = false := by
  have hsource : ∀ {sync sourceIds now es}, nextSource sync sourceIds now es = (u, .await next) →
      next.settled = false := by
    intro sync sourceIds now es hnext
    cases sourceIds with
    | nil =>
      simp only [nextSource, endSync] at hnext
      split at hnext <;> cases hnext
    | cons sourceId rest =>
      cases hnext
      rfl
  cases sec with
  | addEntry input =>
    cases l with
    | start =>
      obtain ⟨u', -, hu⟩ := bind_ok_iff.mp h
      cases hu
    | _ => cases h
  | updateEntry id patch =>
    cases l with
    | start =>
      obtain ⟨u', -, hu⟩ := bind_ok_iff.mp h
      cases hu
    | _ => cases h
  | removeEntry id => cases l <;> cases h
  | syncExternalSources sourceIds =>
    cases l with
    | start => exact hsource (Except.ok.inj h)
    | health sync sourceId rest =>
      simp only [work] at h
      split at h
      · cases h
        rfl
      · exact hsource (Except.ok.inj h)
      · exact hsource (Except.ok.inj h)
      · cases h
    | fetch sync sourceId rest =>
      simp only [work] at h
      split at h
      · obtain ⟨es, -, hes⟩ := bind_ok_iff.mp h
        exact hsource (Except.ok.inj hes)
      · exact hsource (Except.ok.inj h)
      · cases h
    | _ => cases h
  | loadEntries => cases l <;> cases h
  | tick =>
    cases l with
    | start =>
      simp only [work] at h
      split at h <;> cases h
    | _ => cases h
  | findEntry id => cases l <;> cases h
  | applyOutcome execution result sideEffects =>
    cases l with
    | start =>
      obtain ⟨applied, -, happlied⟩ := bind_ok_iff.mp h
      split at happlied
      · cases happlied
      · cases happlied
        rfl
    | _ => cases h
  | checkEscalation entryId =>
    cases l with
    | start =>
      simp only [work] at h
      split at h <;> cases h
    | _ => cases h

variable (nextCron)

/-- Where a section at work stands: what it has done is what it does alone from `base`,
the stored entries when it entered, up to its last stretch; what it has not saved yet is
in `this.entries`. -/
def Pending (s : Engine) (base : List ScheduleEntry) (sec : Section) : Phase → Prop
  | .reading frame => frame.inputs = [] ∧ s.stored = base
  | .assigning frame loaded => frame.inputs = [] ∧ loaded = base ∧ s.stored = base
  | .working frame l => s.Valid ∧
      runAlone nextCron sec frame.inputs base = ⟨s.current, s.stored, some l⟩
  | .mutated frame input => s.Valid ∧
      (runAlone nextCron sec frame.inputs base).stored = s.stored ∧
      runAlone nextCron sec (frame.inputs ++ [input]) base = ⟨s.current, s.current, none⟩
  | .acquiringSave frame save _ _ => s.Valid ∧ save.array = s.entries ∧
      (runAlone nextCron sec frame.inputs base).stored = s.stored ∧
      runAlone nextCron sec (frame.inputs ++ [save.input]) base =
        ⟨s.current, s.current, save.next⟩
  | .acquiredSave frame save _ => s.Valid ∧ save.array = s.entries ∧
      (runAlone nextCron sec frame.inputs base).stored = s.stored ∧
      runAlone nextCron sec (frame.inputs ++ [save.input]) base =
        ⟨s.current, s.current, save.next⟩
  | .writing frame save => s.Valid ∧ save.array = s.entries ∧
      (runAlone nextCron sec frame.inputs base).stored = s.stored ∧
      runAlone nextCron sec (frame.inputs ++ [save.input]) base =
        ⟨s.current, s.current, save.next⟩
  | .projecting frame save => s.Valid ∧ ∃ l, save.next = some l ∧
      runAlone nextCron sec frame.inputs base = ⟨s.current, s.stored, some l⟩
  | _ => False

variable {nextCron}

theorem Pending.same {s s' : Engine} {base : List ScheduleEntry} {sec : Section} {phase : Phase}
    (hsame : Same s s') (h : Pending nextCron s base sec phase) :
    Pending nextCron s' base sec phase := by
  cases phase with
  | calling => exact h
  | acquiring startedAt token => exact h
  | acquired token => exact h
  | leaving frame answer => exact h
  | _ =>
    simpa only [Pending, hsame.current, hsame.stored, hsame.entries, hsame.valid] using h

/-- A step of a section leaves it at work, or its operations so far explain what is
stored. -/
def After (nextCron : NextCron) (stored₀ : List ScheduleEntry) (s : Engine) (sec : Section) :
    Progress → Prop
  | .phase phase =>
    if phase.unsettled then Pending nextCron s (serial nextCron stored₀ s.log) sec phase
    else serial nextCron stored₀ s.log = s.stored
  | _ => serial nextCron stored₀ s.log = s.stored

section

variable {stored₀ : List ScheduleEntry} {s s' : Engine} {sec : Section}

theorem after_of_pending {phase : Phase} (hphase : phase.unsettled = true)
    (h : Pending nextCron s (serial nextCron stored₀ s.log) sec phase) :
    After nextCron stored₀ s sec (.phase phase) := by
  show ite _ _ _
  rwa [if_pos hphase]

theorem after_fail {frame : Frame}
    (h : (runAlone nextCron sec frame.inputs (serial nextCron stored₀ s.log)).stored = s.stored) :
    After nextCron stored₀ (fail s sec frame).1 sec (fail s sec frame).2 := by
  have hsame := Engine.release_same
    (if sec.isMutation then { s.finishes sec frame.inputs with entries := frame.previous }
      else s.finishes sec frame.inputs) frame.held
  show serial nextCron stored₀ _ = _
  unfold fail
  dsimp only
  rw [hsame.log, hsame.stored]
  split <;>
  · show serial nextCron stored₀ (s.log ++ [⟨sec, frame.inputs⟩]) = s.stored
    rw [serial_append]
    exact h

/-- A call of `saveEntries` with the entries of the section. -/
theorem after_beginSave {frame : Frame} {input : Reading × Reply} {next : Option Local}
    (hvalid : s.Valid)
    (hstored : (runAlone nextCron sec frame.inputs (serial nextCron stored₀ s.log)).stored =
      s.stored)
    (halone : runAlone nextCron sec (frame.inputs ++ [input]) (serial nextCron stored₀ s.log) =
      ⟨s.current, s.current, next⟩) :
    After nextCron stored₀ (beginSave s frame input next).1 sec
      (.phase (beginSave s frame input next).2) := by
  obtain ⟨hsame, hphase⟩ := beginSave_spec s frame input next
  rcases hphase with hphase | ⟨startedAt, token, hphase⟩
  · rw [hphase]
    refine after_of_pending rfl (Pending.same hsame ?_)
    rw [hsame.log]
    exact ⟨hvalid, rfl, hstored, halone⟩
  · rw [hphase]
    refine after_of_pending rfl (Pending.same hsame ?_)
    rw [hsame.log]
    exact ⟨hvalid, rfl, hstored, halone⟩

/-- The last stretch of a section, on its own. -/
theorem alone_done {inputs : List (Reading × Reply)} {base : List ScheduleEntry} {l : Local}
    {r : Reading} {reply : Reply} {u : Update} {answer : Answer}
    (halone : runAlone nextCron sec inputs base = ⟨s.current, s.stored, some l⟩)
    (hwork : work nextCron sec l r reply s.current = .ok (u, .done answer)) :
    runAlone nextCron sec (inputs ++ [(r, reply)]) base =
      ⟨u.entries, if sec.isMutation then u.entries else s.stored, none⟩ := by
  rw [runAlone_append, halone]
  simp only [Alone.step, hwork]

/-- Writing the entries of the section. -/
theorem after_write {frame : Frame} {save : Save}
    (h : Pending nextCron s (serial nextCron stored₀ s.log) sec (.writing frame save)) :
    After nextCron stored₀ (s.write frame sec save) sec
      (.phase (.projecting { frame with inputs := frame.inputs ++ [save.input] } save)) := by
  obtain ⟨hvalid, harray, -, halone⟩ := h
  have hcurrent : (s.heap[save.array]?).getD [] = s.current := by rw [harray, Engine.current]
  have hstored : (s.write frame sec save).stored = s.current := by
    rw [← hcurrent]
    unfold Engine.write
    dsimp only
    split <;> split <;> rfl
  by_cases hsettled : save.next.all Local.settled = true
  · -- the last write: the section has left what it leaves alone
    show ite _ _ _
    rw [if_neg (by simp [Phase.unsettled, hsettled]), Engine.write_log_settled hsettled,
      serial_append, hstored]
    exact congrArg Alone.stored halone
  · obtain ⟨l, hl⟩ : ∃ l, save.next = some l := by
      cases hnext : save.next with
      | none => simp [hnext] at hsettled
      | some l => exact ⟨l, rfl⟩
    have hshared : (s.write frame sec save).Valid ∧
        (s.write frame sec save).current = s.current := by
      unfold Engine.write
      dsimp only
      rw [if_neg hsettled, harray]
      split <;> exact ⟨hvalid, rfl⟩
    obtain ⟨hvalid', hcurrent'⟩ := hshared
    refine after_of_pending (by simpa [Phase.unsettled] using hsettled) ⟨hvalid', l, hl, ?_⟩
    rw [Engine.write_log_unsettled hsettled, hcurrent', hstored, halone, hl]

/-- **A step of a section at work** keeps it so, or completes it. -/
theorem after_stepSection {phase : Phase} {r : Reading} {reply : Reply} {progress : Progress}
    {cont : Cont} (h : Pending nextCron s (serial nextCron stored₀ s.log) sec phase)
    (hunsettled : (Task.inSection sec phase cont).unsettled = true)
    (hstep : stepSection nextCron s sec phase r reply = some (s', progress)) :
    After nextCron stored₀ s' sec progress := by
  have hphase := Task.unsettled_inSection hunsettled
  cases stepSection_cases hstep with
  | nested hdepth => cases hphase
  | queues hdepth => cases hphase
  | acquires hsame => cases hphase
  | retries hsame => cases hphase
  | expires hsame => cases hphase
  | enters => cases hphase
  | loads hsec =>
    subst hsec
    cases hunsettled
  | reads hsec =>
    obtain ⟨hinputs, hbase⟩ := h
    exact after_of_pending rfl ⟨hinputs, hbase, hbase⟩
  | @assigns frame loaded =>
    obtain ⟨hinputs, hloaded, hbase⟩ := h
    refine after_of_pending rfl ⟨Engine.assign_valid s loaded, ?_⟩
    show runAlone nextCron sec frame.inputs (serial nextCron stored₀ s.log) =
      ⟨(s.assign loaded).current, s.stored, some .start⟩
    rw [hinputs, Engine.assign_current, hloaded, hbase, runAlone_nil]
  | throws hwork =>
    obtain ⟨hvalid, halone⟩ := h
    exact after_fail (by rw [halone])
  | @awaits frame l u next hwork =>
    obtain ⟨hvalid, halone⟩ := h
    refine after_of_pending (by simp [Phase.unsettled, work_await hwork])
      ⟨Engine.update_valid hvalid u, ?_⟩
    rw [runAlone_append, Engine.update_log, halone, Engine.update_current hvalid,
      Engine.update_stored]
    simp only [Alone.step, hwork]
  | @saves frame l u next hwork =>
    obtain ⟨hvalid, halone⟩ := h
    refine after_beginSave (Engine.update_valid hvalid u) ?_ ?_
    · rw [Engine.update_log, Engine.update_stored, halone]
    · rw [runAlone_append, Engine.update_log, halone, Engine.update_current hvalid]
      simp only [Alone.step, hwork]
  | @mutates frame l u answer hwork hmutation =>
    obtain ⟨hvalid, halone⟩ := h
    refine ⟨Engine.update_valid hvalid u, ?_, ?_⟩
    · rw [Engine.update_log, Engine.update_stored, halone]
    · rw [Engine.update_log, Engine.update_current hvalid, alone_done halone hwork,
        if_pos hmutation]
  | answers hwork hmutation hl =>
    simp [Phase.unsettled, hl] at hphase
  | @finishes frame l u answer hwork hmutation hl =>
    obtain ⟨hvalid, halone⟩ := h
    show serial nextCron stored₀ ((s.update u).log ++ [_]) = (s.update u).stored
    rw [serial_append, Engine.update_log, Engine.update_stored, Operation.apply,
      alone_done halone hwork, if_neg hmutation]
  | savesMutation =>
    obtain ⟨hvalid, hstored, halone⟩ := h
    exact after_beginSave hvalid hstored halone
  | acquiresSave hsame => exact after_of_pending rfl (Pending.same hsame (hsame.log ▸ h))
  | retriesSave hsame => exact after_of_pending rfl (Pending.same hsame (hsame.log ▸ h))
  | expiresSave hsame =>
    refine after_fail ?_
    rw [hsame.log, hsame.stored]
    exact h.2.2.1
  | holdsSave => exact after_of_pending rfl h
  | writes => exact after_write h
  | @goesOn frame save l hnext =>
    obtain ⟨hvalid, l, hl, halone⟩ := h
    cases hnext.symm.trans hl
    have hsame := Engine.release_same s save.held
    refine after_of_pending ?_ (Pending.same hsame ?_)
    · simpa [Phase.unsettled, hl] using hphase
    · rw [hsame.log]
      exact ⟨hvalid, halone⟩
  | saved hnext =>
    obtain ⟨hvalid, l, hl, halone⟩ := h
    cases hnext.symm.trans hl
  | leaves => cases hphase

end

/-! ## Runs -/

/-- No section is at work and the operations explain what is stored, or one section is at
work on what they explain. -/
def Explained (nextCron : NextCron) (stored₀ : List ScheduleEntry) (s : Engine) : Prop :=
  ((∀ task ∈ s.tasks, task.unsettled = false) ∧ serial nextCron stored₀ s.log = s.stored) ∨
  ∃ (i : ℕ) (sec : Section) (phase : Phase) (cont : Cont),
    s.tasks[i]? = some (Task.inSection sec phase cont) ∧
    (Task.inSection sec phase cont).unsettled = true ∧
    (∀ j : ℕ, ∀ task ∈ s.tasks[j]?, Task.unsettled task = true → j = i) ∧
    Pending nextCron s (serial nextCron stored₀ s.log) sec phase

/-- Where a task that begins leads. -/
theorem stepTask_begins {s s' : Engine} {task task' : Task} {r : Reading} {reply : Reply}
    (h : stepTask nextCron s task r reply = some (s', task')) (hbegins : task.begins s reply = true) :
    s'.stored = s.stored ∧ s'.log = s.log ∧ (task'.unsettled = false ∨
      ∃ sec cont frame, task' = .inSection sec (.reading frame) cont ∧ sec ≠ .loadEntries ∧
        frame.inputs = []) := by
  cases task with
  | inSection sec phase cont =>
    have hload : sec.works = true → sec ≠ .loadEntries := by
      rintro hworks rfl
      cases hworks
    cases phase with
    | calling =>
      rw [Task.begins, Bool.and_eq_true, decide_eq_true_eq] at hbegins
      simp only [stepTask, stepSection, if_pos hbegins.2] at h
      cases h
      exact ⟨rfl, rfl, .inr ⟨_, _, _, rfl, hload hbegins.1, rfl⟩⟩
    | acquired token =>
      simp only [stepTask, stepSection] at h
      cases h
      exact ⟨rfl, rfl, .inr ⟨_, _, _, rfl, hload hbegins, rfl⟩⟩
    | _ => cases hbegins
  | assigningLoaded entries =>
    cases h
    exact ⟨rfl, rfl, .inl rfl⟩
  | executing execution =>
    cases reply with
    | baseline value windowSize =>
      simp only [stepTask] at h
      split at h
      · cases h
        exact ⟨Engine.update_stored .., Engine.update_log .., .inl rfl⟩
      · cases h
    | _ => cases hbegins
  | _ => cases hbegins

theorem unsettled_reading {sec : Section} {frame : Frame} {cont : Cont}
    (h : sec ≠ .loadEntries) : (Task.inSection sec (.reading frame) cont).unsettled = true := by
  cases sec with
  | loadEntries => exact absurd rfl h
  | _ => rfl

section

variable {stored₀ : List ScheduleEntry} {s s' : Engine} {i : ℕ}

theorem all_settled {s : Engine} (h : ∀ j : ℕ, ∀ task ∈ s.tasks[j]?, Task.unsettled task = false) :
    ∀ task ∈ s.tasks, task.unsettled = false := by
  intro task htask
  obtain ⟨j, hj⟩ := List.mem_iff_getElem?.mp htask
  exact h j task hj

/-- The state after a step of a section, when no other section is at work. -/
theorem explained_of_after {sec : Section} {phase : Phase} {cont : Cont}
    (hi : s.tasks[i]? = some (Task.inSection sec phase cont))
    (honly : ∀ j, ∀ task ∈ s.tasks[j]?, Task.unsettled task = true → j = i)
    (h : After nextCron stored₀ s sec (.phase phase)) : Explained nextCron stored₀ s := by
  have h : ite (phase.unsettled = true) _ _ := h
  cases hunsettled : (Task.inSection sec phase cont).unsettled with
  | true =>
    rw [if_pos (Task.unsettled_inSection hunsettled)] at h
    exact .inr ⟨i, sec, phase, cont, hi, hunsettled, honly, h⟩
  | false =>
    refine .inl ⟨all_settled fun j task hj => ?_, ?_⟩
    · by_contra hne
      obtain rfl := honly j task hj (by simpa using hne)
      rw [hi, Option.mem_some_iff] at hj
      exact hne (hj ▸ hunsettled)
    · rcases Task.settled_inSection hunsettled with hphase | ⟨-, frame, rfl⟩
      · rwa [if_neg (by simp [hphase])] at h
      · rw [if_pos (show (Phase.reading frame).unsettled = true from rfl)] at h
        exact h.2.symm

/-- The state after a step that leaves no section at work. -/
theorem explained_of_settled {task : Task} (hi : s.tasks[i]? = some task)
    (htask : task.unsettled = false)
    (honly : ∀ j, ∀ task ∈ s.tasks[j]?, Task.unsettled task = true → j = i)
    (h : serial nextCron stored₀ s.log = s.stored) : Explained nextCron stored₀ s := by
  refine .inl ⟨all_settled fun j task' hj => ?_, h⟩
  by_contra hne
  obtain rfl := honly j task' hj (by simpa using hne)
  rw [hi, Option.mem_some_iff] at hj
  exact hne (hj ▸ htask)

/-- What a step of a task does to the list of tasks. -/
theorem step_resume {r : Reading} {reply : Reply} (h : step nextCron s (.resume i r reply) = some s') :
    FreshIds s r.uuids ∧ ∃ task task' s₁, s.tasks[i]? = some task ∧
      stepTask nextCron s task r reply = some (s₁, task') ∧
      s' = { s₁ with
        drawn := s.drawn ++ r.uuids
        clock := r.now
        tasks := s.tasks.set i task' } := by
  simp only [step] at h
  split at h
  · next hfresh =>
    split at h
    · cases h
    · next task htask =>
      split at h
      · cases h
      · next s₁ task' hstep =>
        exact ⟨hfresh, task, task', s₁, htask, hstep, (Option.some.inj h).symm⟩
  · cases h

theorem getElem?_set_resumed {tasks : List Task} {task task' : Task} {j : ℕ}
    (hi : tasks[i]? = some task) : (tasks.set i task')[j]? = if j = i then some task' else tasks[j]? := by
  obtain ⟨hlt, -⟩ := List.getElem?_eq_some_iff.mp hi
  rw [List.getElem?_set]
  by_cases hj : i = j
  · rw [if_pos hj, if_pos (hj ▸ hlt), if_pos hj.symm]
  · rw [if_neg hj, if_neg (Ne.symm hj)]

/-- **One step keeps the stored entries explained**, when sections do not overlap. -/
theorem explained_step {event : Event} (h : Explained nextCron stored₀ s)
    (hone : OneAtATime s event) (hstep : step nextCron s event = some s') :
    Explained nextCron stored₀ s' := by
  cases event with
  | call request =>
    cases hstep
    have hrequest : request.task.unsettled = false := by
      cases request <;> rfl
    rcases h with ⟨hsettled, hserial⟩ | ⟨i, sec, phase, cont, hi, hunsettled, honly, hpending⟩
    · refine .inl ⟨fun task htask => ?_, hserial⟩
      rcases List.mem_append.mp htask with htask | htask
      · exact hsettled task htask
      · rwa [List.mem_singleton.mp htask]
    · have hlt : i < s.tasks.length := (List.getElem?_eq_some_iff.mp hi).1
      refine .inr ⟨i, sec, phase, cont, ?_, hunsettled, fun j task hj htask => ?_, hpending⟩
      · rw [List.getElem?_append_left hlt]
        exact hi
      · rcases Nat.lt_or_ge j s.tasks.length with hj' | hj'
        · rw [List.getElem?_append_left hj'] at hj
          exact honly j task hj htask
        · rw [List.getElem?_append_right hj'] at hj
          have hmem := List.mem_of_getElem? (Option.mem_def.mp hj)
          rw [List.mem_singleton.mp hmem, hrequest] at htask
          cases htask
  | resume i r reply =>
    obtain ⟨-, task, task', s₁, hi, htask, rfl⟩ := step_resume hstep
    have htasks : ∀ j : ℕ, (s.tasks.set i task')[j]? = if j = i then some task' else s.tasks[j]? :=
      fun j => getElem?_set_resumed hi
    have hself : (s.tasks.set i task')[i]? = some task' := by rw [htasks, if_pos rfl]
    cases hbegins : task.begins s reply with
    | true =>
      -- no section is at work, and at most this one is afterwards
      have hsettled := hone (by rw [hi]; exact hbegins)
      have honly : ∀ j : ℕ, ∀ t ∈ (s.tasks.set i task')[j]?, Task.unsettled t = true → j = i := by
        intro j t hj ht
        by_contra hne
        rw [htasks, if_neg hne] at hj
        rw [hsettled t (List.mem_of_getElem? hj)] at ht
        cases ht
      have hserial : serial nextCron stored₀ s.log = s.stored := by
        rcases h with ⟨-, hserial⟩ | ⟨k, sec, phase, cont, hk, hunsettled, -, -⟩
        · exact hserial
        · rw [hsettled _ (List.mem_of_getElem? hk)] at hunsettled
          cases hunsettled
      obtain ⟨hstored, hlog, htask' | ⟨sec, cont, frame, rfl, hload, hinputs⟩⟩ :=
        stepTask_begins htask hbegins
      · refine explained_of_settled hself htask' honly ?_
        rw [hlog, hserial, hstored]
      · refine .inr ⟨i, sec, .reading frame, cont, hself, unsettled_reading hload, honly,
          hinputs, ?_⟩
        rw [hlog, hserial, hstored]
    | false =>
      rcases h with ⟨hsettled, hserial⟩ | ⟨k, sec, phase, cont, hk, hunsettled, honly, hpending⟩
      · obtain ⟨hsame, htask'⟩ := stepTask_quiet htask
          (hsettled task (List.mem_of_getElem? hi)) hbegins
        refine explained_of_settled hself htask' (fun j t hj ht => ?_) ?_
        · by_contra hne
          rw [htasks, if_neg hne] at hj
          rw [hsettled t (List.mem_of_getElem? hj)] at ht
          cases ht
        · rw [hsame.log, hsame.stored]
          exact hserial
      · by_cases hik : i = k
        · -- the section at work goes on
          subst hik
          obtain rfl : task = Task.inSection sec phase cont := Option.some.inj (hi.symm.trans hk)
          have honly' : ∀ j : ℕ, ∀ t ∈ (s.tasks.set i task')[j]?, Task.unsettled t = true → j = i := by
            intro j t hj ht
            by_contra hne
            rw [htasks, if_neg hne] at hj
            exact hne (honly j t hj ht)
          simp only [stepTask] at htask
          split at htask
          · cases htask
          · next phase' hsec =>
            cases htask
            have hafter := after_stepSection hpending hunsettled hsec
            exact explained_of_after hself honly' hafter
          · next answer hsec =>
            cases htask
            exact explained_of_settled hself (proceed_outside ..).settled honly'
              (after_stepSection hpending hunsettled hsec)
          · next hsec =>
            cases htask
            exact explained_of_settled hself rfl honly'
              (after_stepSection hpending hunsettled hsec)
        · have hquiet : task.unsettled = false := by
            cases hunsettled' : task.unsettled with
            | false => rfl
            | true => exact absurd (honly i task hi hunsettled') hik
          obtain ⟨hsame, htask'⟩ := stepTask_quiet htask hquiet hbegins
          refine .inr ⟨k, sec, phase, cont, ?_, hunsettled, fun j t hj ht => ?_, ?_⟩
          · rw [htasks, if_neg (Ne.symm hik)]
            exact hk
          · rw [htasks] at hj
            split at hj
            · cases hj
              rw [htask'] at ht
              cases ht
            · exact honly j t hj ht
          · rw [hsame.log]
            have hpending₁ : Pending nextCron s₁ (serial nextCron stored₀ s.log) sec phase :=
              hpending.same hsame
            exact hpending₁

end

theorem explained_start (stored : List ScheduleEntry) (clock : Millis) :
    Explained nextCron stored (.start stored clock) :=
  .inl ⟨fun _ htask => absurd htask List.not_mem_nil, rfl⟩

/-! ## Accepted operations -/

/-- The section has done its last write. -/
def Phase.accepted : Phase → Bool
  | working _ l => l.settled
  | projecting _ save => save.next.all Local.settled
  | leaving _ _ => true
  | _ => false

theorem beginSave_unaccepted (s : Engine) (frame : Frame) (input : Reading × Reply)
    (next : Option Local) :
    (beginSave s frame input next).1.log = s.log ∧
      (beginSave s frame input next).2.accepted = false := by
  obtain ⟨hs, hphase | ⟨startedAt, token, hphase⟩⟩ := beginSave_spec s frame input next
  · exact ⟨hs.log, by rw [hphase]; rfl⟩
  · exact ⟨hs.log, by rw [hphase]; rfl⟩

theorem fail_log (s : Engine) (sec : Section) (frame : Frame) :
    s.log <+: (fail s sec frame).1.log := by
  unfold fail
  dsimp only
  rw [(Engine.release_same _ _).log]
  split
  · exact List.prefix_append _ _
  · exact List.prefix_append _ _

theorem Engine.finishes_log (s : Engine) (sec : Section) (inputs : List (Reading × Reply)) :
    (s.finishes sec inputs).log = s.log ++ [⟨sec, inputs⟩] := rfl

/-- What is recorded stays, and a section that gets to its last write is recorded. -/
def Records (log log' : List Operation) (sec : Section) (phase : Phase)
    (progress : Progress) : Prop :=
  log <+: log' ∧ ∀ phase', progress = .phase phase' → phase'.accepted = true →
    phase.accepted = true ∨ sec = .loadEntries ∨ ∃ op ∈ log', op.sec = sec

section

variable {log log' : List Operation} {sec : Section} {phase phase' : Phase}

/-- The last write is still to come. -/
theorem Records.waits (hlog : log <+: log') (h : phase'.accepted = false) :
    Records log log' sec phase (.phase phase') := by
  refine ⟨hlog, fun _ hphase haccepted => ?_⟩
  cases hphase
  rw [h] at haccepted
  cases haccepted

/-- The section has left. -/
theorem Records.ends {progress : Progress} (hlog : log <+: log')
    (h : ∀ phase', progress ≠ .phase phase') : Records log log' sec phase progress :=
  ⟨hlog, fun phase' hphase => absurd hphase (h phase')⟩

/-- The last write is behind it. -/
theorem Records.after {progress : Progress} (hlog : log <+: log') (h : phase.accepted = true) :
    Records log log' sec phase progress :=
  ⟨hlog, fun _ _ _ => .inl h⟩

/-- This is the step that records it. -/
theorem Records.records {progress : Progress} {inputs : List (Reading × Reply)} :
    Records log (log ++ [⟨sec, inputs⟩]) sec phase progress :=
  ⟨List.prefix_append _ _, fun _ _ _ =>
    .inr <| .inr ⟨_, List.mem_append_right _ (List.mem_singleton_self _), rfl⟩⟩

end

/-- A section that gets to its last write is recorded, and what is recorded stays. -/
theorem stepSection_log {s s' : Engine} {sec : Section} {phase : Phase} {r : Reading}
    {reply : Reply} {progress : Progress}
    (h : stepSection nextCron s sec phase r reply = some (s', progress)) :
    Records s.log s'.log sec phase progress := by
  have hkept : ∀ {log : List Operation}, log = s.log → s.log <+: log := fun hlog =>
    hlog ▸ List.prefix_rfl
  have hsame : ∀ {s₁ : Engine}, Same s s₁ → s.log <+: s₁.log := fun hs => hkept hs.log
  cases stepSection_cases h with
  | nested hdepth => exact .waits List.prefix_rfl rfl
  | queues hdepth => exact .waits List.prefix_rfl rfl
  | acquires hs => exact .waits (hsame hs) rfl
  | retries hs => exact .waits (hsame hs) rfl
  | expires hs => exact .ends (hsame hs) (fun _ => nofun)
  | enters => exact .waits (hsame (enter_same s _)) rfl
  | loads hsec =>
    -- `loadEntries` writes nothing, and nothing records it
    exact ⟨List.prefix_rfl, fun _ _ _ => .inr (.inl hsec)⟩
  | reads hsec => exact .waits List.prefix_rfl rfl
  | assigns => exact .waits List.prefix_rfl rfl
  | throws hwork => exact .ends (fail_log ..) (fun _ => nofun)
  | awaits hwork => exact .waits (hkept (Engine.update_log ..)) (work_await hwork)
  | saves hwork =>
    obtain ⟨hlog, hphase⟩ := beginSave_unaccepted (s.update _) _ (r, reply) (some _)
    exact .waits (hkept (hlog.trans (Engine.update_log ..))) hphase
  | mutates hwork hmutation => exact .waits (hkept (Engine.update_log ..)) rfl
  | answers hwork hmutation hl => exact .after (hkept (Engine.update_log ..)) hl
  | finishes hwork hmutation hl =>
    -- what leaves the lock without a save is recorded here
    rw [Engine.finishes_log, Engine.update_log]
    exact .records
  | savesMutation =>
    obtain ⟨hlog, hphase⟩ := beginSave_unaccepted s _ _ none
    exact .waits (hkept hlog) hphase
  | acquiresSave hs => exact .waits (hsame hs) rfl
  | retriesSave hs => exact .waits (hsame hs) rfl
  | expiresSave hs => exact .ends ((hsame hs).trans (fail_log ..)) (fun _ => nofun)
  | holdsSave => exact .waits List.prefix_rfl rfl
  | @writes frame save =>
    by_cases hsettled : save.next.all Local.settled = true
    · rw [Engine.write_log_settled hsettled]
      exact .records
    · rw [Engine.write_log_unsettled hsettled]
      exact .waits List.prefix_rfl (Bool.eq_false_iff.mpr hsettled)
  | @goesOn frame save l hnext =>
    refine ⟨hsame (Engine.release_same s _), fun phase' hphase haccepted => .inl ?_⟩
    cases hphase
    rw [Phase.accepted, hnext]
    exact haccepted
  | saved hnext =>
    exact .after (hsame (Engine.release_same s _)) (by rw [Phase.accepted, hnext]; rfl)
  | leaves => exact .ends (hsame (Engine.release_same s _)) (fun _ => nofun)

/-- What is recorded stays, and a task gets to the last write of a section only within it,
where the section is recorded. -/
theorem stepTask_log {s s' : Engine} {task task' : Task} {r : Reading} {reply : Reply}
    (h : stepTask nextCron s task r reply = some (s', task')) :
    s.log <+: s'.log ∧ ∀ sec phase cont, task' = .inSection sec phase cont →
      sec ≠ .loadEntries → phase.accepted = true →
      (∃ phase₀, task = .inSection sec phase₀ cont ∧ phase₀.accepted = true) ∨
        ∃ op ∈ s'.log, op.sec = sec := by
  have houtside : task'.Outside → ∀ sec phase cont, task' = .inSection sec phase cont →
      phase.accepted ≠ true := by
    rintro hout sec phase cont rfl haccepted
    obtain rfl : phase = .calling := hout
    cases haccepted
  cases task with
  | inSection sec₀ phase₀ cont₀ =>
    simp only [stepTask] at h
    split at h
    · cases h
    · next phase' hstep =>
      cases h
      obtain ⟨hkept, hlogged⟩ := stepSection_log hstep
      refine ⟨hkept, fun sec phase cont htask hsec haccepted => ?_⟩
      cases htask
      rcases hlogged _ rfl haccepted with hphase | hload | hop
      · exact .inl ⟨phase₀, rfl, hphase⟩
      · exact absurd hload hsec
      · exact .inr hop
    · next answer hstep =>
      cases h
      exact ⟨(stepSection_log hstep).1, fun sec phase cont htask _ haccepted =>
        absurd haccepted (houtside (proceed_outside ..) sec phase cont htask)⟩
    · next hstep =>
      cases h
      exact ⟨(stepSection_log hstep).1, fun sec phase cont htask _ haccepted =>
        absurd haccepted (houtside trivial sec phase cont htask)⟩
  | _ =>
    obtain ⟨hout, hlog, -⟩ := stepTask_outside h (by rintro sec phase cont ⟨⟩)
    exact ⟨hlog ▸ List.prefix_rfl, fun sec phase cont htask _ haccepted =>
      absurd haccepted (houtside hout sec phase cont htask)⟩

/-- Every section that has done its last write is among the operations. -/
def NothingLost (s : Engine) : Prop :=
  ∀ sec phase cont, Task.inSection sec phase cont ∈ s.tasks → sec ≠ .loadEntries →
    phase.accepted = true → ∃ op ∈ s.log, op.sec = sec

theorem nothingLost_step {s s' : Engine} {event : Event} (h : NothingLost s)
    (hstep : step nextCron s event = some s') : NothingLost s' := by
  cases event with
  | call request =>
    cases hstep
    intro sec phase cont hmem hsec haccepted
    rcases List.mem_append.mp hmem with hmem | hmem
    · exact h sec phase cont hmem hsec haccepted
    · have hcalling : phase = .calling := by
        have htask := List.mem_singleton.mp hmem
        cases request <;> cases htask <;> rfl
      rw [hcalling] at haccepted
      cases haccepted
  | resume i r reply =>
    obtain ⟨-, task, task', s₁, hi, htask, rfl⟩ := step_resume hstep
    obtain ⟨hkept, hlogged⟩ := stepTask_log htask
    intro sec phase cont hmem hsec haccepted
    have hbefore : ∀ phase₀, Task.inSection sec phase₀ cont ∈ s.tasks →
        phase₀.accepted = true → ∃ op ∈ s₁.log, op.sec = sec := fun phase₀ hmem₀ hacc =>
      (h sec phase₀ cont hmem₀ hsec hacc).imp fun op hop => ⟨hkept.subset hop.1, hop.2⟩
    rcases List.mem_or_eq_of_mem_set hmem with hmem | heq
    · exact hbefore phase hmem haccepted
    · rcases hlogged sec phase cont heq.symm hsec haccepted with ⟨phase₀, rfl, hacc⟩ | hop
      · exact hbefore phase₀ (List.mem_of_getElem? hi) hacc
      · exact hop

variable (nextCron)

/-- **Sections that do not overlap are serial**: in every run in which sections enter, and
entries are assigned outside them, only when no section is at work, the stored entries are
in every state without a section at work those that the operations so far leave when they
are run one after another; and every section that has done its last write is one of them. -/
theorem mutations_serial {stored : List ScheduleEntry} {clock : Millis} {ls : List Event}
    (hone : (LTS.ofPartial (step nextCron)).Always (.start stored clock) ls OneAtATime) :
    (LTS.ofPartial (step nextCron)).Throughout (.start stored clock) ls fun s =>
      NothingLost s ∧
        ((∀ task ∈ s.tasks, task.unsettled = false) →
          s.stored = serial nextCron stored s.log) := by
  have hall : (LTS.ofPartial (step nextCron)).Throughout (.start stored clock) ls
      (Explained nextCron stored) :=
    LTS.Throughout.guarded (explained_start stored clock) hone
      fun _ _ _ hstep hcond h => explained_step h hcond hstep
  intro ks rest m hsplit hks
  refine ⟨hks.invariant (fun _ _ _ hmem => absurd hmem List.not_mem_nil)
    fun _ _ _ hstep h => nothingLost_step h hstep, fun hsettled => ?_⟩
  rcases hall ks rest m hsplit hks with ⟨-, hserial⟩ | ⟨i, sec, phase, cont, hi, hunsettled, -, -⟩
  · exact hserial.symm
  · rw [hsettled _ (List.mem_of_getElem? hi)] at hunsettled
    cases hunsettled

/-! Sample runs: two entries, one of them a heartbeat that is due. -/

def sampleCron : NextCron := fun _ _ _ => none

def sampleEntry (id : String) (nextFireAt : Millis) : ScheduleEntry where
  id := id
  layer := .heartbeat
  trigger := .interval 60 0
  createdAt := 0
  updatedAt := 0
  nextFireAt := nextFireAt
  budgetResetAt := some 86400000

def sampleStored : List ScheduleEntry := [sampleEntry "a" 1000, sampleEntry "b" 500000]

/-- The next step of the `i`-th call. -/
def go (i : ℕ) : Event := .resume i { now := 2000 } .none

/-- Two mutations, the second of which waits for the lock. -/
def sampleMutations : List Event :=
  [.call (.updateEntry "b" { enabled := some false }), .call (.removeEntry "a"), go 0, go 1, go 0,
    go 1] ++ List.replicate 8 (go 0) ++ List.replicate 9 (go 1)

theorem mutations_serial_sample :
    (LTS.ofPartial (step sampleCron)).Throughout (.start sampleStored 1000) sampleMutations
      fun s => NothingLost s ∧
        ((∀ task ∈ s.tasks, task.unsettled = false) →
          s.stored = serial sampleCron sampleStored s.log) :=
  mutations_serial sampleCron (LTS.ExecPartialAlways.always (by decide +kernel))

/-- A tick whose execution fails, and a mutation while the outcome awaits its report. -/
def overlappingCalls : List Event :=
  [.call .tick] ++ List.replicate 7 (go 0) ++
    [.resume 0 { now := 2000 } (.executed { status := .down, firedAt := 2000 })] ++
    List.replicate 6 (go 0) ++ [.call (.updateEntry "b" { enabled := some false })] ++
    List.replicate 8 (go 1) ++ List.replicate 13 (go 0)

/-- **The outcome is lost**: the mutation enters the lock that the outcome holds, and the
outcome saves the entries that the mutation has read. When all calls have returned, no
order of the operations leaves what is stored. -/
theorem outcome_lost :
    ∃ s : Engine,
      LTS.execPartial (step sampleCron) (.start sampleStored 1000) overlappingCalls = some s ∧
        s.lockDepth = 0 ∧ (∀ task ∈ s.tasks, task.unsettled = false) ∧ s.log.length = 4 ∧
        s.stored.map (·.totalExecutions) = [0, 0] ∧
        ¬ ∃ ops, ops.Perm s.log ∧ serial sampleCron sampleStored ops = s.stored := by
  refine ⟨Option.get _ (by decide +kernel), (Option.some_get _).symm, by decide +kernel,
    by decide +kernel, by decide +kernel, by decide +kernel, ?_⟩
  rintro ⟨ops, hperm, hserial⟩
  have hall : ∀ ops ∈ (Option.get (LTS.execPartial (step sampleCron) (.start sampleStored 1000)
      overlappingCalls) (by decide +kernel)).log.permutations',
      serial sampleCron sampleStored ops ≠ (Option.get (LTS.execPartial (step sampleCron)
        (.start sampleStored 1000) overlappingCalls) (by decide +kernel)).stored := by
    decide +kernel
  exact hall ops (List.mem_permutations'.mpr hperm) hserial

end Schedule

end PulSeed
