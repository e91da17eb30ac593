import PulSeed.Schedule.Changes

/-!
# Writes, and the ids they bring

The stored entries change only when a section writes (`step_stored`). When sections do not
overlap, the section that writes is the only one at work, and it changes the stored entries
as a section alone does (`write_changes`).

An id is **known** when it was drawn and no section at work is about to bring it. It stays
known (`known_step`), since new ids are never drawn twice, so an entry that is removed does
not come back.
-/

namespace PulSeed

namespace Schedule

variable {nextCron : NextCron}

/-! ## A section alone -/

/-- What a section alone has not saved yet, and its next stretch. -/
theorem Alone.step_changes {sec : Section} {inputs : List (Reading × Reply)} {a : Alone}
    (h : SectionChanges sec inputs a.stored a.entries) (input : Reading × Reply) :
    SectionChanges sec (inputs ++ [input]) a.stored (a.step nextCron sec input).stored ∧
      SectionChanges sec (inputs ++ [input]) (a.step nextCron sec input).stored
        (a.step nextCron sec input).entries := by
  have hbefore : SectionChanges sec (inputs ++ [input]) a.stored a.entries :=
    h.mono (List.subset_append_left _ _)
  unfold Alone.step
  split
  · exact ⟨.refl _, hbefore⟩
  · next l hl =>
    have hwork : ∀ {u ending}, work nextCron sec l input.1 input.2 a.entries = .ok (u, ending) →
        SectionChanges sec (inputs ++ [input]) a.stored u.entries := fun hok =>
      hbefore.trans ((work_changes hok).mono (List.subset_append_right _ _))
    split
    · exact ⟨.refl _, hbefore⟩
    · next u next hok => exact ⟨.refl _, hwork hok⟩
    · next u next hok => exact ⟨hwork hok, .refl _⟩
    · next u answer hok =>
      split
      · exact ⟨hwork hok, .refl _⟩
      · exact ⟨.refl _, hwork hok⟩

theorem runAlone_changes (sec : Section) (inputs : List (Reading × Reply))
    (base : List ScheduleEntry) :
    SectionChanges sec inputs (runAlone nextCron sec inputs base).stored
      (runAlone nextCron sec inputs base).entries := by
  induction inputs using List.reverseRecOn with
  | nil => exact .refl base
  | append_singleton inputs input ih =>
    rw [runAlone_append]
    exact (Alone.step_changes ih input).2

/-- What a section alone saves with one more stretch. -/
theorem runAlone_stored (nextCron : NextCron) (sec : Section) (inputs : List (Reading × Reply))
    (input : Reading × Reply) (base : List ScheduleEntry) :
    SectionChanges sec (inputs ++ [input]) (runAlone nextCron sec inputs base).stored
      (runAlone nextCron sec (inputs ++ [input]) base).stored := by
  rw [runAlone_append]
  exact (Alone.step_changes (runAlone_changes sec inputs base) input).1

/-! ## The step that writes -/

/-- A section that writes, and what it saves. -/
structure Write where
  sec : Section
  frame : Frame
  save : Save

/-- What the section was given, up to the stretch that saves. -/
def Write.inputs (w : Write) : List (Reading × Reply) := w.frame.inputs ++ [w.save.input]

def Task.write : Task → Option Write
  | inSection sec (.writing frame save) _ => some ⟨sec, frame, save⟩
  | _ => none

/-- The write of a step. -/
def writes (s : Engine) : Event → Option Write
  | .call _ => none
  | .resume i _ _ => (s.tasks[i]?).bind Task.write

theorem Task.write_eq {task : Task} {w : Write} (h : task.write = some w) :
    ∃ cont, task = .inSection w.sec (.writing w.frame w.save) cont := by
  unfold Task.write at h
  split at h
  · cases h
    exact ⟨_, rfl⟩
  · cases h

theorem Task.unsettled_of_write {task : Task} {w : Write} (h : task.write = some w) :
    task.unsettled = true := by
  obtain ⟨cont, rfl⟩ := Task.write_eq h
  obtain ⟨sec, frame, save⟩ := w
  cases sec <;> rfl

theorem fail_same (s : Engine) (sec : Section) (frame : Frame) :
    (fail s sec frame).1.stored = s.stored ∧ (fail s sec frame).1.recorded = s.recorded := by
  unfold fail
  dsimp only
  rw [(Engine.release_same _ _).stored, (Engine.release_same _ _).recorded]
  split <;> exact ⟨rfl, rfl⟩

/-- A step of a section writes, or leaves what is stored and recorded. -/
theorem stepSection_stored {s s' : Engine} {sec : Section} {phase : Phase} {r : Reading}
    {reply : Reply} {progress : Progress}
    (h : stepSection nextCron s sec phase r reply = some (s', progress)) :
    (∃ frame save, phase = .writing frame save ∧ s' = s.write frame sec save) ∨
      (∀ frame save, phase ≠ .writing frame save) ∧
        s'.stored = s.stored ∧ s'.recorded = s.recorded := by
  cases stepSection_cases h with
  | @writes frame save => exact .inl ⟨frame, save, rfl, rfl⟩
  | nested hdepth => exact .inr ⟨fun _ _ => nofun, rfl, rfl⟩
  | queues hdepth => exact .inr ⟨fun _ _ => nofun, rfl, rfl⟩
  | acquires hsame => exact .inr ⟨fun _ _ => nofun, hsame.stored, hsame.recorded⟩
  | retries hsame => exact .inr ⟨fun _ _ => nofun, hsame.stored, hsame.recorded⟩
  | expires hsame => exact .inr ⟨fun _ _ => nofun, hsame.stored, hsame.recorded⟩
  | enters => exact .inr ⟨fun _ _ => nofun, rfl, rfl⟩
  | loads hsec => exact .inr ⟨fun _ _ => nofun, rfl, rfl⟩
  | reads hsec => exact .inr ⟨fun _ _ => nofun, rfl, rfl⟩
  | assigns => exact .inr ⟨fun _ _ => nofun, rfl, rfl⟩
  | throws hwork => exact .inr ⟨fun _ _ => nofun, fail_same s sec _⟩
  | awaits hwork =>
    exact .inr ⟨fun _ _ => nofun, Engine.update_stored .., Engine.update_recorded ..⟩
  | saves hwork =>
    obtain ⟨hsame, -⟩ := beginSave_spec (s.update _) _ (r, reply) (some _)
    exact .inr ⟨fun _ _ => nofun, hsame.stored.trans (Engine.update_stored ..),
      hsame.recorded.trans (Engine.update_recorded ..)⟩
  | mutates hwork hmutation =>
    exact .inr ⟨fun _ _ => nofun, Engine.update_stored .., Engine.update_recorded ..⟩
  | answers hwork hmutation hl =>
    exact .inr ⟨fun _ _ => nofun, Engine.update_stored .., Engine.update_recorded ..⟩
  | finishes hwork hmutation hl =>
    exact .inr ⟨fun _ _ => nofun, Engine.update_stored .., Engine.update_recorded ..⟩
  | savesMutation =>
    obtain ⟨hsame, -⟩ := beginSave_spec s _ _ none
    exact .inr ⟨fun _ _ => nofun, hsame.stored, hsame.recorded⟩
  | acquiresSave hsame => exact .inr ⟨fun _ _ => nofun, hsame.stored, hsame.recorded⟩
  | retriesSave hsame => exact .inr ⟨fun _ _ => nofun, hsame.stored, hsame.recorded⟩
  | expiresSave hsame =>
    obtain ⟨hstored, hrecorded⟩ := fail_same _ sec _
    exact .inr ⟨fun _ _ => nofun, hstored.trans hsame.stored, hrecorded.trans hsame.recorded⟩
  | holdsSave => exact .inr ⟨fun _ _ => nofun, rfl, rfl⟩
  | @goesOn frame save l hnext =>
    have hsame := Engine.release_same s save.held
    exact .inr ⟨fun _ _ => nofun, hsame.stored, hsame.recorded⟩
  | @saved frame save hnext =>
    have hsame := Engine.release_same s save.held
    exact .inr ⟨fun _ _ => nofun, hsame.stored, hsame.recorded⟩
  | @leaves frame answer =>
    have hsame := Engine.release_same s frame.held
    exact .inr ⟨fun _ _ => nofun, hsame.stored, hsame.recorded⟩

/-- A step of a call writes, or leaves what is stored and recorded. -/
theorem stepTask_stored {s s' : Engine} {task task' : Task} {r : Reading} {reply : Reply}
    (h : stepTask nextCron s task r reply = some (s', task')) :
    (∃ w, task.write = some w ∧ s' = s.write w.frame w.sec w.save) ∨
      task.write = none ∧ s'.stored = s.stored ∧ s'.recorded = s.recorded := by
  cases task with
  | inSection sec phase cont =>
    have hsec : ∀ {progress}, stepSection nextCron s sec phase r reply = some (s', progress) →
        (∃ w, (Task.inSection sec phase cont).write = some w ∧ s' = s.write w.frame w.sec w.save) ∨
          (Task.inSection sec phase cont).write = none ∧
            s'.stored = s.stored ∧ s'.recorded = s.recorded := by
      intro progress hstep
      rcases stepSection_stored hstep with ⟨frame, save, rfl, rfl⟩ | ⟨hphase, hsame⟩
      · exact .inl ⟨⟨sec, frame, save⟩, rfl, rfl⟩
      · refine .inr ⟨?_, hsame⟩
        unfold Task.write
        split
        · next heq =>
          cases heq
          exact absurd rfl (hphase _ _)
        · rfl
    simp only [stepTask] at h
    split at h
    · cases h
    · next hstep =>
      cases h
      exact hsec hstep
    · next hstep =>
      cases h
      exact hsec hstep
    · next hstep =>
      cases h
      exact hsec hstep
  | assigningLoaded entries =>
    cases h
    exact .inr ⟨rfl, rfl, rfl⟩
  | executing execution =>
    cases reply with
    | baseline value windowSize =>
      simp only [stepTask] at h
      split at h
      · cases h
        exact .inr ⟨rfl, Engine.update_stored .., Engine.update_recorded ..⟩
      · cases h
    | executed result =>
      cases h
      exact .inr ⟨rfl, rfl, rfl⟩
    | rejected message =>
      cases h
      exact .inr ⟨rfl, rfl, rfl⟩
    | _ => cases h
  | escalating policy rest =>
    simp only [stepTask] at h
    split at h <;> cases h <;> exact .inr ⟨rfl, rfl, rfl⟩
  | recordingHistory rest =>
    cases rest <;> cases h <;> exact .inr ⟨rfl, rfl, rfl⟩
  | finished => cases h

/-- **What is stored changes only when a section writes.** -/
theorem step_stored {s s' : Engine} {event : Event} (h : step nextCron s event = some s') :
    (∃ w, writes s event = some w ∧ s'.stored = (s.write w.frame w.sec w.save).stored ∧
      s'.recorded = (s.write w.frame w.sec w.save).recorded) ∨
    writes s event = none ∧ s'.stored = s.stored ∧ s'.recorded = s.recorded := by
  cases event with
  | call request =>
    cases h
    exact .inr ⟨rfl, rfl, rfl⟩
  | resume i r reply =>
    obtain ⟨-, task, task', s₁, hi, htask, rfl⟩ := step_resume h
    have hwrites : writes s (.resume i r reply) = task.write := by
      rw [writes, hi]
      rfl
    rw [hwrites]
    rcases stepTask_stored htask with ⟨w, hw, rfl⟩ | ⟨hnone, hstored, hrecorded⟩
    · exact .inl ⟨w, hw, rfl, rfl⟩
    · exact .inr ⟨hnone, hstored, hrecorded⟩

/-! ## The section that writes -/

theorem Engine.write_stored (s : Engine) (frame : Frame) (sec : Section) (save : Save) :
    (s.write frame sec save).stored = (s.heap[save.array]?).getD [] := by
  unfold Engine.write
  dsimp only
  split <;> split <;> rfl

theorem Engine.write_recorded (s : Engine) (frame : Frame) (sec : Section) (save : Save) :
    (∃ idx record, save.next = some (.escalationSaved idx record) ∧
        (s.write frame sec save).recorded = s.recorded ++ [record]) ∨
      (∀ idx record, save.next ≠ some (.escalationSaved idx record)) ∧
        (s.write frame sec save).recorded = s.recorded := by
  by_cases hrecord : ∃ idx record, save.next = some (.escalationSaved idx record)
  · obtain ⟨idx, record, hnext⟩ := hrecord
    refine .inl ⟨idx, record, hnext, ?_⟩
    unfold Engine.write
    simp only [hnext]
    split <;> rfl
  · refine .inr ⟨fun idx record hnext => hrecord ⟨idx, record, hnext⟩, ?_⟩
    unfold Engine.write
    dsimp only
    split
    · split
      · next idx record hnext => exact absurd ⟨idx, record, hnext⟩ hrecord
      · rfl
    · split
      · next idx record hnext => exact absurd ⟨idx, record, hnext⟩ hrecord
      · rfl

section

variable {stored₀ : List ScheduleEntry} {s s' : Engine} {event : Event} {w : Write}

/-- When sections do not overlap, the section that writes is the only one at work, and has
done alone what it saves. -/
theorem writer_pending (h : Explained nextCron stored₀ s) (hw : writes s event = some w) :
    ∃ i r reply cont, event = .resume i r reply ∧
      s.tasks[i]? = some (.inSection w.sec (.writing w.frame w.save) cont) ∧
      Pending nextCron s (serial nextCron stored₀ s.log) w.sec (.writing w.frame w.save) ∧
      ∀ j, ∀ task ∈ s.tasks[j]?, Task.unsettled task = true → j = i := by
  cases event with
  | call request => cases hw
  | resume i r reply =>
    obtain ⟨writer, hi, hwriter⟩ := Option.bind_eq_some_iff.mp hw
    have hunsettled := Task.unsettled_of_write hwriter
    obtain ⟨cont, rfl⟩ := Task.write_eq hwriter
    rcases h with ⟨hsettled, -⟩ | ⟨k, sec, phase, cont', hk, -, honly, hpending⟩
    · exact absurd ((hsettled _ (List.mem_of_getElem? hi)).symm.trans hunsettled) nofun
    · obtain rfl := honly i _ hi hunsettled
      cases hi.symm.trans hk
      exact ⟨i, r, reply, cont, rfl, hi, hpending, honly⟩

/-- The other tasks are not at work. -/
theorem eq_writer (h : Explained nextCron stored₀ s) (hw : writes s event = some w) {task : Task}
    (htask : task ∈ s.tasks) (hunsettled : task.unsettled = true) :
    ∃ cont, task = .inSection w.sec (.writing w.frame w.save) cont := by
  obtain ⟨i, r, reply, cont, -, hi, -, honly⟩ := writer_pending h hw
  obtain ⟨j, hj⟩ := List.mem_iff_getElem?.mp htask
  obtain rfl := honly j task hj hunsettled
  exact ⟨cont, Option.some.inj (hj.symm.trans hi)⟩

/-- After the last write of a section no section is at work. -/
theorem settled_of_write (h : Explained nextCron stored₀ s) (hw : writes s event = some w)
    (hsettled : w.save.next.all Local.settled = true) (hstep : step nextCron s event = some s') :
    ∀ task ∈ s'.tasks, task.unsettled = false := by
  obtain ⟨i, r, reply, cont, rfl, hi, -, honly⟩ := writer_pending h hw
  obtain ⟨-, task, task', s₁, hi', htask, rfl⟩ := step_resume hstep
  obtain rfl := Option.some.inj (hi'.symm.trans hi)
  cases htask
  refine all_settled fun j t hj => ?_
  rw [show ({ s.write w.frame w.sec w.save with
      drawn := s.drawn ++ r.uuids
      clock := r.now
      tasks := s.tasks.set i _ } : Engine).tasks[j]? = _ from getElem?_set_resumed hi] at hj
  split at hj
  · cases hj
    exact Task.settled_of_phase _ _ (by simp [Phase.unsettled, hsettled])
  · next hne =>
    by_contra hunsettled
    exact hne (honly j t hj (by simpa using hunsettled))

/-- **A write changes what is stored as its section may.** -/
theorem write_changes (h : Explained nextCron stored₀ s) (hw : writes s event = some w) :
    SectionChanges w.sec w.inputs s.stored (s.write w.frame w.sec w.save).stored := by
  obtain ⟨i, r, reply, cont, -, -, ⟨-, harray, hstored, halone⟩, -⟩ := writer_pending h hw
  have hchanges := runAlone_stored nextCron w.sec w.frame.inputs w.save.input
    (serial nextCron stored₀ s.log)
  rw [hstored, halone] at hchanges
  rw [Engine.write_stored, harray]
  exact hchanges

end

/-! ## Ids -/

/-- What the section was given, while it is at work. -/
def Phase.inputs : Phase → List (Reading × Reply)
  | calling => []
  | acquiring _ _ => []
  | acquired _ => []
  | reading frame => frame.inputs
  | assigning frame _ => frame.inputs
  | working frame l => if l.settled then [] else frame.inputs
  | mutated frame input => frame.inputs ++ [input]
  | acquiringSave frame save _ _ => frame.inputs ++ [save.input]
  | acquiredSave frame save _ => frame.inputs ++ [save.input]
  | writing frame save => frame.inputs ++ [save.input]
  | projecting frame save => if save.next.all Local.settled then [] else frame.inputs
  | leaving _ _ => []

/-- What the section of a task was given, while it is at work. -/
def Task.inputs : Task → List (Reading × Reply)
  | inSection sec phase _ => if sec.works then phase.inputs else []
  | _ => []

/-- The id is drawn for an entry that the task may add. -/
def Task.NewId (id : String) : Task → Prop
  | inSection sec phase _ => sec.NewId phase.inputs id
  | _ => False

theorem Task.Outside.inputs {task : Task} (h : task.Outside) : task.inputs = [] := by
  cases task with
  | inSection sec phase cont =>
    obtain rfl : phase = .calling := h
    exact ite_self _
  | _ => rfl

theorem beginSave_inputs (s : Engine) (frame : Frame) (input : Reading × Reply)
    (next : Option Local) : (beginSave s frame input next).2.inputs = frame.inputs ++ [input] := by
  obtain ⟨-, hphase | ⟨startedAt, token, hphase⟩⟩ := beginSave_spec s frame input next
  · rw [hphase]
    rfl
  · rw [hphase]
    rfl

theorem Phase.inputs_working {frame : Frame} {l : Local} (hl : l.settled = false) :
    (Phase.working frame l).inputs = frame.inputs := by
  rw [Phase.inputs, hl]
  rfl

/-- A mutation, and a section that goes on from its work, has something left to write. -/
theorem unsettled_of_work {sec : Section} {l : Local} {r : Reading} {reply : Reply}
    {entries : List ScheduleEntry} {u : Update} {ending : Ending}
    (hwork : work nextCron sec l r reply entries = .ok (u, ending))
    (h : sec.isMutation = true ∨ ∀ answer, ending ≠ .done answer) : l.settled = false := by
  cases hl : l.settled with
  | false => rfl
  | true =>
    obtain ⟨hnone, answer, hdone⟩ := settled_work hl hwork nofun
    rcases h with hmutation | hending
    · rw [hmutation] at hnone
      cases hnone
    · cases hdone
      exact absurd rfl (hending answer)

/-- A step of a section gives it one input. -/
theorem stepSection_inputs {s s' : Engine} {sec : Section} {phase phase' : Phase} {r : Reading}
    {reply : Reply} (h : stepSection nextCron s sec phase r reply = some (s', .phase phase')) :
    phase'.inputs ⊆ phase.inputs ++ [(r, reply)] := by
  have hkept : ∀ {inputs : List (Reading × Reply)}, inputs = phase.inputs →
      inputs ⊆ phase.inputs ++ [(r, reply)] := fun heq => heq ▸ List.subset_append_left _ _
  cases stepSection_cases h with
  | nested hdepth => exact List.nil_subset _
  | queues hdepth => exact List.nil_subset _
  | acquires hsame => exact List.nil_subset _
  | retries hsame => exact List.nil_subset _
  | enters => exact List.nil_subset _
  | loads hsec => exact List.nil_subset _
  | reads hsec => exact hkept rfl
  | assigns => exact hkept rfl
  | awaits hwork =>
    rw [Phase.inputs_working (unsettled_of_work hwork (.inr fun _ => nofun)),
      Phase.inputs_working (work_await hwork)]
    exact List.Subset.refl _
  | saves hwork =>
    rw [Phase.inputs_working (unsettled_of_work hwork (.inr fun _ => nofun)), beginSave_inputs]
    exact List.Subset.refl _
  | mutates hwork hmutation =>
    rw [Phase.inputs_working (unsettled_of_work hwork (.inl hmutation))]
    exact List.Subset.refl _
  | answers hwork hmutation hl => exact List.nil_subset _
  | finishes hwork hmutation hl => exact List.nil_subset _
  | savesMutation => exact hkept (beginSave_inputs ..)
  | acquiresSave hsame => exact hkept rfl
  | retriesSave hsame => exact hkept rfl
  | holdsSave => exact hkept rfl
  | @writes frame save =>
    by_cases hsettled : save.next.all Local.settled = true
    · have hnone : ∀ frame, (Phase.projecting frame save).inputs = [] := fun _ => if_pos hsettled
      rw [hnone]
      exact List.nil_subset _
    · have hall : ∀ frame, (Phase.projecting frame save).inputs = frame.inputs := fun _ =>
        if_neg hsettled
      rw [hall]
      exact hkept rfl
  | goesOn hnext =>
    refine hkept ?_
    rw [Phase.inputs, Phase.inputs, hnext]
    rfl
  | saved hnext => exact List.nil_subset _

/-- What a call is given at a step; its section stays the same. -/
theorem stepTask_inputs {s s' : Engine} {task task' : Task} {r : Reading} {reply : Reply}
    (h : stepTask nextCron s task r reply = some (s', task')) :
    task'.inputs = [] ∨ ∃ sec phase phase' cont, task = .inSection sec phase cont ∧
      task' = .inSection sec phase' cont ∧ phase'.inputs ⊆ phase.inputs ++ [(r, reply)] := by
  cases task with
  | inSection sec phase cont =>
    simp only [stepTask] at h
    split at h
    · cases h
    · next phase' hstep =>
      cases h
      exact .inr ⟨sec, phase, phase', cont, rfl, rfl, stepSection_inputs hstep⟩
    · next answer hstep =>
      cases h
      exact .inl (proceed_outside ..).inputs
    · cases h
      exact .inl rfl
  | _ =>
    obtain ⟨houtside, -⟩ := stepTask_outside h (by rintro sec phase cont ⟨⟩)
    exact .inl houtside.inputs

section

variable {s s' : Engine} {event : Event}

theorem Request.task_inputs (request : Request) : request.task.inputs = [] := by
  cases request <;> rfl

/-- What a task of the next state was given: what it was given before, and one input more
when it went on. -/
theorem step_inputs (h : step nextCron s event = some s') {task' : Task} (htask : task' ∈ s'.tasks) :
    task'.inputs = [] ∨ task' ∈ s.tasks ∨
      ∃ i r reply sec phase phase' cont, event = .resume i r reply ∧
        Task.inSection sec phase cont ∈ s.tasks ∧ task' = .inSection sec phase' cont ∧
        phase'.inputs ⊆ phase.inputs ++ [(r, reply)] := by
  cases event with
  | call request =>
    cases h
    rcases List.mem_append.mp htask with htask | htask
    · exact .inr (.inl htask)
    · rw [List.mem_singleton.mp htask]
      exact .inl request.task_inputs
  | resume i r reply =>
    obtain ⟨-, task, task₁, s₁, hi, hstep, rfl⟩ := step_resume h
    rcases List.mem_or_eq_of_mem_set htask with htask | rfl
    · exact .inr (.inl htask)
    · rcases stepTask_inputs hstep with hnone | ⟨sec, phase, phase', cont, rfl, rfl, hinputs⟩
      · exact .inl hnone
      · exact .inr <| .inr ⟨i, r, reply, sec, phase, phase', cont, rfl, List.mem_of_getElem? hi,
          rfl, hinputs⟩

/-- What a step draws, and the clock after it. -/
theorem step_drawn {i : ℕ} {r : Reading} {reply : Reply}
    (h : step nextCron s (.resume i r reply) = some s') :
    FreshIds s r.uuids ∧ s'.drawn = s.drawn ++ r.uuids ∧ s'.clock = r.now := by
  obtain ⟨hfresh, task, task', s₁, -, -, rfl⟩ := step_resume h
  exact ⟨hfresh, rfl, rfl⟩

theorem drawn_subset (h : step nextCron s event = some s') : s.drawn ⊆ s'.drawn := by
  cases event with
  | call request =>
    cases h
    exact List.Subset.refl _
  | resume i r reply =>
    rw [(step_drawn h).2.1]
    exact List.subset_append_left _ _

theorem Task.NewId.inputs {id : String} {task : Task} (h : task.NewId id) : task.inputs ≠ [] := by
  intro hnone
  cases task with
  | inSection sec phase cont =>
    obtain ⟨hadds, input, hinput, -⟩ := h
    have hworks : sec.works = true := by
      cases sec <;> first | rfl | cases hadds
    have hnone : ite _ _ _ = [] := hnone
    rw [if_pos hworks] at hnone
    rw [hnone] at hinput
    cases hinput
  | _ => exact h

/-- An id that a section may bring was drawn for it before, or is drawn at this step. -/
theorem newId_step (h : step nextCron s event = some s') {task' : Task} (htask : task' ∈ s'.tasks)
    {id : String} (hnew : task'.NewId id) :
    (∃ task ∈ s.tasks, task.NewId id) ∨ id ∉ s.drawn ∧ id ∈ s'.drawn := by
  rcases step_inputs h htask with hnone | hsame |
    ⟨i, r, reply, sec, phase, phase', cont, rfl, hmem, rfl, hinputs⟩
  · exact absurd hnone hnew.inputs
  · exact .inl ⟨task', hsame, hnew⟩
  · obtain ⟨hadds, input, hinput, hid⟩ := hnew
    rcases List.mem_append.mp (hinputs hinput) with hbefore | hlast
    · exact .inl ⟨_, hmem, hadds, input, hbefore, hid⟩
    · rw [List.mem_singleton.mp hlast] at hid
      obtain ⟨hfresh, hdrawn, -⟩ := step_drawn h
      exact .inr ⟨hfresh.2 id hid, hdrawn ▸ List.mem_append_right _ hid⟩

/-- The id was drawn, and no section at work is about to bring it. -/
structure Known (s : Engine) (id : String) : Prop where
  drawn : id ∈ s.drawn
  settled : ∀ task ∈ s.tasks, ¬ task.NewId id

/-- **A known id stays known.** -/
theorem known_step {id : String} (h : Known s id) (hstep : step nextCron s event = some s') :
    Known s' id := by
  refine ⟨drawn_subset hstep h.drawn, fun task htask hnew => ?_⟩
  rcases newId_step hstep htask hnew with ⟨task₀, htask₀, hnew₀⟩ | ⟨hfresh, -⟩
  · exact h.settled task₀ htask₀ hnew₀
  · exact hfresh h.drawn

/-- The ids stored, and those that a section at work may bring, were drawn. -/
structure Drawn (s : Engine) : Prop where
  stored : ∀ id e, entryById s.stored id = some e → id ∈ s.drawn
  new : ∀ task ∈ s.tasks, ∀ id, task.NewId id → id ∈ s.drawn

theorem drawn_start (stored : List ScheduleEntry) (clock : Millis) :
    Drawn (.start stored clock) where
  stored id e he := by
    rw [← id_of_entryById he]
    exact List.mem_map_of_mem (List.mem_of_find?_eq_some he)
  new task htask := absurd htask List.not_mem_nil

theorem newId_of_write {w : Write} (hw : writes s event = some w) {id : String}
    (hnew : w.sec.NewId w.inputs id) : ∃ task ∈ s.tasks, task.NewId id := by
  cases event with
  | call request => cases hw
  | resume i r reply =>
    obtain ⟨task, hi, hwrite⟩ := Option.bind_eq_some_iff.mp hw
    obtain ⟨cont, rfl⟩ := Task.write_eq hwrite
    exact ⟨_, List.mem_of_getElem? hi, hnew⟩

theorem drawn_step {stored₀ : List ScheduleEntry} (h : Drawn s)
    (hexplained : Explained nextCron stored₀ s) (hstep : step nextCron s event = some s') :
    Drawn s' where
  stored id e he := by
    rcases step_stored hstep with ⟨w, hw, hstored, -⟩ | ⟨-, hstored, -⟩
    · rw [hstored] at he
      cases hbefore : entryById s.stored id with
      | some e₀ => exact drawn_subset hstep (h.stored id e₀ hbefore)
      | none =>
        obtain ⟨task, htask, hnew⟩ :=
          newId_of_write hw ((write_changes hexplained hw).fresh hbefore he)
        exact drawn_subset hstep (h.new task htask id hnew)
    · rw [hstored] at he
      exact drawn_subset hstep (h.stored id e he)
  new task htask id hnew := by
    rcases newId_step hstep htask hnew with ⟨task₀, htask₀, hnew₀⟩ | ⟨-, hdrawn⟩
    · exact drawn_subset hstep (h.new task₀ htask₀ id hnew₀)
    · exact hdrawn

/-- A task that is not at work was given nothing. -/
theorem inputs_of_settled {task : Task} (h : task.unsettled = false) : task.inputs = [] := by
  cases task with
  | inSection sec phase cont =>
    rcases Task.settled_inSection h with hphase | ⟨rfl, -⟩
    · have hnone : phase.inputs = [] := by
        cases phase with
        | working frame l => exact if_pos (by simpa [Phase.unsettled] using hphase)
        | projecting frame save => exact if_pos (by simpa [Phase.unsettled] using hphase)
        | calling => rfl
        | acquiring startedAt token => rfl
        | acquired token => rfl
        | leaving frame answer => rfl
        | _ => cases hphase
      show ite _ _ _ = _
      rw [hnone]
      exact ite_self _
    · rfl
  | _ => rfl

/-- When the section that writes adds no entries, the ids of the entries stored are known. -/
theorem known_of_stored {stored₀ : List ScheduleEntry} (h : Drawn s)
    (hexplained : Explained nextCron stored₀ s) {w : Write} (hw : writes s event = some w)
    (hadds : w.sec.adds = false) {id : String} {e : ScheduleEntry}
    (he : entryById s.stored id = some e) : Known s id := by
  refine ⟨h.stored id e he, fun task htask hnew => ?_⟩
  cases hunsettled : task.unsettled with
  | false => exact hnew.inputs (inputs_of_settled hunsettled)
  | true =>
    obtain ⟨cont, rfl⟩ := eq_writer hexplained hw htask hunsettled
    exact absurd (hnew.1.symm.trans hadds) nofun

/-- A step when sections do not overlap. -/
theorem explained_drawn_step {stored₀ : List ScheduleEntry}
    (h : Explained nextCron stored₀ s ∧ Drawn s) (hone : OneAtATime s event)
    (hstep : step nextCron s event = some s') : Explained nextCron stored₀ s' ∧ Drawn s' :=
  ⟨explained_step h.1 hone hstep, drawn_step h.2 h.1 hstep⟩

end

end Schedule

end PulSeed
