import PulSeed.Schedule.Writes

/-!
# Disabled entries

A disabled entry is not due, but it can still be executed: an execution that was under way
when it was disabled goes on, it can be run at once, and it can be the target of an
escalation. The outcome of an escalation's target enables it (`target_enabled`), and so does
every outcome that is applied without `preserveEnabled`.

`disabled_stays` shows that nothing else does: when sections do not overlap, a disabled
entry stays disabled until `updateEntry` enables it, a synchronisation fetches it as enabled,
or such an outcome is written.
-/

namespace PulSeed

namespace Schedule

variable (nextCron : NextCron)

/-- The step writes what a section does that may enable the entry with an id. -/
def MayEnable (id : String) (s : Engine) (event : Event) : Prop :=
  ∃ w ∈ writes s event, ∃ e ∈ entryById s.stored id, w.sec.Enables w.inputs e

instance (id : String) (s : Engine) (event : Event) : Decidable (MayEnable id s event) :=
  inferInstanceAs (Decidable (∃ w ∈ writes s event, _))

/-- The entry is stored disabled, or it is gone for good. -/
structure StaysOff (id : String) (s : Engine) : Prop where
  disabled : ∀ e, entryById s.stored id = some e → e.enabled = false
  gone : entryById s.stored id = none → Known s id

variable {nextCron}

theorem staysOff_step {stored₀ : List ScheduleEntry} {s s' : Engine} {event : Event} {id : String}
    (h : StaysOff id s) (hdrawn : Drawn s) (hexplained : Explained nextCron stored₀ s)
    (hnot : ¬ MayEnable id s event) (hstep : step nextCron s event = some s') :
    StaysOff id s' := by
  rcases step_stored hstep with ⟨w, hw, hstored, -⟩ | ⟨-, hstored, -⟩
  · have hchanges := write_changes hexplained hw
    rw [← hstored] at hchanges
    refine ⟨fun e' he' => ?_, fun hnone => ?_⟩
    · cases hbefore : entryById s.stored id with
      | some e =>
        by_contra hon
        exact hnot ⟨w, hw, e, hbefore, (hchanges.kept hbefore he').enabled
          (h.disabled e hbefore) (by simpa using hon)⟩
      | none =>
        -- a section would have to bring an id that is known
        obtain ⟨task, htask, hnew⟩ := newId_of_write hw (hchanges.fresh hbefore he')
        exact absurd hnew ((h.gone hbefore).settled task htask)
    · cases hbefore : entryById s.stored id with
      | none => exact known_step (h.gone hbefore) hstep
      | some e =>
        have hremoves : w.sec = .removeEntry id := hchanges.gone hbefore hnone
        have hadds : w.sec.adds = false := by rw [hremoves]; rfl
        exact known_step (known_of_stored hdrawn hexplained hw hadds hbefore) hstep
  · exact ⟨fun e he => h.disabled e (hstored ▸ he), fun hnone =>
      known_step (h.gone (hstored ▸ hnone)) hstep⟩

variable (nextCron)

/-- **A disabled entry stays disabled**: in a run in which sections do not overlap, an entry
that is stored disabled stays so as long as no section that may enable it writes: an
`updateEntry` with `enabled: true`, a synchronisation that fetched it as enabled, or the
outcome of an execution of it that does not preserve the flag. -/
theorem disabled_stays {stored : List ScheduleEntry} {clock : Millis} {ls ls' : List Event}
    {m : Engine} {id : String}
    (hone : (LTS.ofPartial (step nextCron)).Always (.start stored clock) (ls ++ ls') OneAtATime)
    (hrun : (LTS.ofPartial (step nextCron)).Run (.start stored clock) ls m)
    (hoff : ∃ e ∈ entryById m.stored id, e.enabled = false)
    (hnot : (LTS.ofPartial (step nextCron)).Always m ls' fun s event => ¬ MayEnable id s event) :
    (LTS.ofPartial (step nextCron)).Throughout m ls' fun s =>
      ∀ e ∈ entryById s.stored id, e.enabled = false := by
  have hm : Explained nextCron stored m ∧ Drawn m :=
    hrun.guarded ⟨explained_start stored clock, drawn_start stored clock⟩ hone.take
      fun _ _ _ hstep hcond h => explained_drawn_step h hcond hstep
  obtain ⟨e, he, hdisabled⟩ := hoff
  have hstart : StaysOff id m := by
    refine ⟨fun e' he' => ?_, fun hnone => absurd (hnone.symm.trans he) nofun⟩
    obtain rfl := Option.some.inj (he'.symm.trans he)
    exact hdisabled
  have hcond : (LTS.ofPartial (step nextCron)).Always m ls' fun s event =>
      OneAtATime s event ∧ ¬ MayEnable id s event := fun ks l rest a hsplit hks =>
    ⟨hone.drop hrun ks l rest a hsplit hks, hnot ks l rest a hsplit hks⟩
  have hall : (LTS.ofPartial (step nextCron)).Throughout m ls' fun s =>
      (Explained nextCron stored s ∧ Drawn s) ∧ StaysOff id s :=
    LTS.Throughout.guarded ⟨hm, hstart⟩ hcond fun _ _ _ hstep hcond h =>
      ⟨explained_drawn_step h.1 hcond.1 hstep,
        staysOff_step h.2 h.1.2 h.1.1 hcond.2 hstep⟩
  exact fun ks rest s hsplit hks e he => (hall ks rest s hsplit hks).2.disabled e he

/-- The entry that is not due is paused. -/
def samplePause : List Event :=
  [.call (.updateEntry "b" { enabled := some false })] ++ List.replicate 10 (go 0)

/-- A tick that executes the other entry. -/
def sampleTick : List Event :=
  [.call .tick] ++ List.replicate 7 (go 1) ++
    [.resume 1 { now := 2000 } (.executed { status := .down, firedAt := 2000 })] ++
    List.replicate 19 (go 1)

theorem disabled_stays_sample :
    ∃ m, LTS.execPartial (step sampleCron) (.start sampleStored 1000) samplePause = some m ∧
      (LTS.ofPartial (step sampleCron)).Throughout m sampleTick fun s =>
        ∀ e ∈ entryById s.stored "b", e.enabled = false := by
  have hone : (LTS.ofPartial (step sampleCron)).Always (.start sampleStored 1000)
      (samplePause ++ sampleTick) OneAtATime := LTS.ExecPartialAlways.always (by decide +kernel)
  refine ⟨Option.get _ (by decide +kernel), (Option.some_get _).symm, ?_⟩
  exact disabled_stays sampleCron hone
    (LTS.run_execPartial (Option.some_get (by decide +kernel)).symm) (by decide +kernel)
    (LTS.ExecPartialAlways.always (by decide +kernel))

/-- An entry that is due and escalates to the other one, which is disabled. -/
def sampleEscalating : List ScheduleEntry :=
  [{ sampleEntry "a" 1000 with
      escalation := some { enabled := true, targetEntryId := some "b" } },
    { sampleEntry "b" 500000 with enabled := false }]

/-- A tick: the first entry fails, and its escalation executes the second. -/
def sampleEscalation : List Event :=
  [.call .tick] ++ List.replicate 7 (go 0) ++
    [.resume 0 { now := 2000 } (.executed { status := .down, firedAt := 2000 })] ++
    List.replicate 29 (go 0) ++
    [.resume 0 { now := 2000 } (.executed { status := .ok, firedAt := 2000 })] ++
    List.replicate 12 (go 0)

/-- **An escalation enables its target**: there is a run of one tick alone after which the
target of an escalation, disabled before, is enabled. -/
theorem target_enabled :
    (∀ request, Event.call request ∈ sampleEscalation → request = .tick) ∧
      (∃ e ∈ entryById sampleEscalating "b", e.enabled = false) ∧
      ∃ s, LTS.execPartial (step sampleCron) (.start sampleEscalating 1000) sampleEscalation =
          some s ∧
        ∃ e ∈ entryById s.stored "b", e.enabled = true := by
  refine ⟨fun request hmem => ?_, by decide +kernel, Option.get _ (by decide +kernel),
    (Option.some_get _).symm, by decide +kernel⟩
  simpa [sampleEscalation, go] using hmem

end Schedule

end PulSeed
