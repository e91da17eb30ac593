import PulSeed.Lib.SlidingWindow
import PulSeed.Schedule.Writes

/-!
# The rate limit of escalations

`checkEscalation` records an escalation when the cooldown since the last one is over and
fewer than `maxPerHour` of the times the entry remembers lie in the last hour, and forgets
the older ones. `escalations_limited` shows that this limits the escalations of every run
with a clock that does not go back in which sections do not overlap: what an entry remembers
counts every escalation recorded for it (`Limited`), since no other section touches it and an
entry that is removed does not come back with its id.

When sections overlap, a stale array that is saved over a recorded escalation makes the
entry forget it, and it escalates again at once (`escalation_forgotten`).
-/

namespace PulSeed

namespace Schedule

variable {nextCron : NextCron}

def hourMs : Millis := 60 * 60 * 1000

/-- The escalations recorded for an entry. -/
def escalationsOf (id : String) (records : List EscalationRecord) : List EscalationRecord :=
  records.filter fun record => record.id = id

/-- Those in the hour that ends at `now`. -/
def lastHour (id : String) (now : Millis) (records : List EscalationRecord) :
    List EscalationRecord :=
  (escalationsOf id records).filter fun record =>
    now - hourMs < record.recordedAt ∧ record.recordedAt ≤ now

/-- **The rate limit**: any two escalations of an entry are the cooldown apart, and no hour
holds more of them than `maxPerHour`, each as the policy of the later one says. -/
structure RateLimited (records : List EscalationRecord) : Prop where
  cooldown : records.Pairwise fun a b =>
    a.id = b.id → b.policy.cooldownMinutes * 60 * 1000 ≤ b.recordedAt - a.recordedAt
  maxPerHour : ∀ id now, ∀ record ∈ (lastHour id now records).getLast?,
    (lastHour id now records).length ≤ record.policy.maxPerHour

/-- The times of the escalations recorded for an entry. -/
def escalationTimes (id : String) (records : List EscalationRecord) : List Millis :=
  (escalationsOf id records).map (·.recordedAt)

theorem lastHour_length (id : String) (now : Millis) (records : List EscalationRecord) :
    (lastHour id now records).length = (window hourMs now (escalationTimes id records)).length := by
  unfold lastHour window escalationTimes
  rw [List.filter_map, List.length_map]
  rfl

theorem mem_escalationTimes {id : String} {records : List EscalationRecord} {t : Millis} :
    t ∈ escalationTimes id records ↔ ∃ record ∈ records, record.id = id ∧ record.recordedAt = t := by
  simp [escalationTimes, escalationsOf, and_assoc]

theorem escalationsOf_append_self (records : List EscalationRecord) (record : EscalationRecord) :
    escalationsOf record.id (records ++ [record]) = escalationsOf record.id records ++ [record] := by
  simp [escalationsOf, List.filter_append]

theorem escalationsOf_append_of_ne {id : String} (records : List EscalationRecord)
    {record : EscalationRecord} (h : record.id ≠ id) :
    escalationsOf id (records ++ [record]) = escalationsOf id records := by
  simp [escalationsOf, List.filter_append, h]

/-- One more escalation: the cooldown is over, and the hour that ends with it has room. -/
theorem RateLimited.append {records : List EscalationRecord} (h : RateLimited records)
    {record : EscalationRecord}
    (hcooldown : ∀ a ∈ records, a.id = record.id →
      record.policy.cooldownMinutes * 60 * 1000 ≤ record.recordedAt - a.recordedAt)
    (hroom : ∀ now, record.recordedAt ≤ now →
      (lastHour record.id now records).length < record.policy.maxPerHour) :
    RateLimited (records ++ [record]) := by
  refine ⟨?_, fun id now last hlast => ?_⟩
  · rw [List.pairwise_append]
    refine ⟨h.cooldown, List.pairwise_singleton _ _, fun a ha b hb hid => ?_⟩
    obtain rfl := List.mem_singleton.mp hb
    exact hcooldown a ha hid
  · by_cases hid : record.id = id
    · subst hid
      have hsplit : lastHour record.id now (records ++ [record]) =
          lastHour record.id now records ++ [record].filter fun record =>
            now - hourMs < record.recordedAt ∧ record.recordedAt ≤ now := by
        rw [lastHour, escalationsOf_append_self, List.filter_append]
        rfl
      by_cases hin : now - hourMs < record.recordedAt ∧ record.recordedAt ≤ now
      · -- the new escalation is the last one of the hour
        rw [List.filter_cons_of_pos (by simpa using hin), List.filter_nil] at hsplit
        rw [hsplit, List.getLast?_concat, Option.mem_some_iff] at hlast
        rw [hsplit, List.length_append, ← hlast]
        exact hroom now hin.2
      · rw [List.filter_cons_of_neg (by simpa using hin), List.filter_nil, List.append_nil] at hsplit
        rw [hsplit] at hlast ⊢
        exact h.maxPerHour record.id now last hlast
    · have hsame : lastHour id now (records ++ [record]) = lastHour id now records := by
        rw [lastHour, escalationsOf_append_of_ne records hid, lastHour]
      rw [hsame] at hlast ⊢
      exact h.maxPerHour id now last hlast

/-! ## The section that escalates -/

section

variable (nextCron)

/-- `checkEscalation` alone records an escalation, or changes nothing. -/
theorem checkEscalation_step (entryId : String) {a : Alone} (ha : a.entries = a.stored)
    (input : Reading × Reply) :
    (∃ idx e policy, recordEscalation entryId input.1.now a.stored = some (idx, e, policy) ∧
      a.step nextCron (.checkEscalation entryId) input =
        ⟨a.stored.set idx e, a.stored.set idx e,
          some (.escalationSaved idx ⟨e.id, input.1.now, policy⟩)⟩) ∨
    (a.step nextCron (.checkEscalation entryId) input).entries = a.stored ∧
      (a.step nextCron (.checkEscalation entryId) input).stored = a.stored ∧
      ∀ idx record, (a.step nextCron (.checkEscalation entryId) input).next ≠
        some (.escalationSaved idx record) := by
  obtain ⟨entries, stored, next⟩ := a
  obtain rfl : entries = stored := ha
  cases next with
  | none => exact .inr ⟨rfl, rfl, by simp [Alone.step]⟩
  | some l =>
    cases l with
    | start =>
      cases hrecord : recordEscalation entryId input.1.now entries with
      | none =>
        have hwork : work nextCron (.checkEscalation entryId) .start input.1 input.2 entries =
            .ok ({ array := entries }, .done (.escalated none)) := by
          simp only [work, hrecord]
          rfl
        right
        simp only [Alone.step, hwork]
        exact ⟨rfl, rfl, by simp⟩
      | some found =>
        obtain ⟨idx, e, policy⟩ := found
        have hwork : work nextCron (.checkEscalation entryId) .start input.1 input.2 entries =
            .ok ({ array := entries.set idx e },
              .save (.escalationSaved idx ⟨e.id, input.1.now, policy⟩)) := by
          simp only [work, hrecord]
          rfl
        left
        refine ⟨idx, e, policy, rfl, ?_⟩
        simp only [Alone.step, hwork]
        rfl
    | _ =>
      refine .inr ⟨rfl, rfl, fun idx record hnext => ?_⟩
      cases hnext

theorem checkEscalation_alone (entryId : String) (inputs : List (Reading × Reply))
    (base : List ScheduleEntry) :
    (runAlone nextCron (.checkEscalation entryId) inputs base).entries =
      (runAlone nextCron (.checkEscalation entryId) inputs base).stored := by
  induction inputs using List.reverseRecOn with
  | nil => rfl
  | append_singleton inputs input ih =>
    rw [runAlone_append]
    rcases checkEscalation_step nextCron entryId ih input with
      ⟨idx, e, policy, -, hstep⟩ | ⟨hentries, hstored, -⟩
    · rw [hstep]
    · rw [hentries, hstored]

end

/-- Only `checkEscalation` records escalations. -/
theorem work_escalation {sec : Section} {l : Local} {r : Reading} {reply : Reply}
    {entries : List ScheduleEntry} {u : Update} {idx : ℕ} {record : EscalationRecord}
    (h : work nextCron sec l r reply entries = .ok (u, .save (.escalationSaved idx record))) :
    ∃ entryId, sec = .checkEscalation entryId := by
  have hsource : ∀ {sync sourceIds now es},
      nextSource sync sourceIds now es ≠ (u, .save (.escalationSaved idx record)) := by
    intro sync sourceIds now es hnext
    cases sourceIds with
    | nil =>
      simp only [nextSource, endSync] at hnext
      split at hnext <;> cases hnext
    | cons sourceId rest => cases hnext
  cases sec with
  | checkEscalation entryId => exact ⟨entryId, rfl⟩
  | addEntry input =>
    cases l with
    | start =>
      obtain ⟨u', -, hu⟩ := bind_ok_iff.mp h
      cases hu
    | _ => cases h
  | updateEntry id patch =>
    cases l with
    | start =>
      obtain ⟨u', -, hu⟩ := bind_ok_iff.mp h
      cases hu
    | _ => cases h
  | removeEntry id => cases l <;> cases h
  | syncExternalSources sourceIds =>
    cases l with
    | start => exact absurd (Except.ok.inj h) hsource
    | health sync sourceId rest =>
      simp only [work] at h
      split at h
      · cases h
      · exact absurd (Except.ok.inj h) hsource
      · exact absurd (Except.ok.inj h) hsource
      · cases h
    | fetch sync sourceId rest =>
      simp only [work] at h
      split at h
      · obtain ⟨es, -, hes⟩ := bind_ok_iff.mp h
        exact absurd (Except.ok.inj hes) hsource
      · exact absurd (Except.ok.inj h) hsource
      · cases h
    | _ => cases h
  | loadEntries => cases l <;> cases h
  | tick =>
    cases l with
    | start =>
      simp only [work] at h
      split at h <;> cases h
    | _ => cases h
  | findEntry id => cases l <;> cases h
  | applyOutcome execution result sideEffects =>
    cases l with
    | start =>
      obtain ⟨applied, -, happlied⟩ := bind_ok_iff.mp h
      split at happlied <;> cases happlied
    | _ => cases h

theorem Alone.step_escalation {sec : Section} {a : Alone} {input : Reading × Reply} {idx : ℕ}
    {record : EscalationRecord}
    (h : (a.step nextCron sec input).next = some (.escalationSaved idx record)) :
    ∃ entryId, sec = .checkEscalation entryId := by
  unfold Alone.step at h
  split at h
  · next hnone => exact absurd (hnone.symm.trans h) nofun
  · split at h
    · cases h
    · next hwork =>
      cases h
      exact absurd (work_await hwork) nofun
    · next hwork =>
      cases h
      exact work_escalation hwork
    · cases h

section

variable {s s' : Engine} {base : List ScheduleEntry} {sec : Section} {frame : Frame} {save : Save}

/-- A write that records an escalation: it is of the entry that is stored under its id. -/
theorem pending_escalation (h : Pending nextCron s base sec (.writing frame save)) {idx : ℕ}
    {record : EscalationRecord} (hnext : save.next = some (.escalationSaved idx record)) :
    ∃ entryId e policy, sec = .checkEscalation entryId ∧
      recordEscalation entryId save.input.1.now s.stored = some (idx, e, policy) ∧
      record = ⟨e.id, save.input.1.now, policy⟩ ∧ s.current = s.stored.set idx e := by
  obtain ⟨-, -, hstored, halone⟩ := h
  rw [runAlone_append] at halone
  have hrecorded := congrArg Alone.next halone
  rw [hnext] at hrecorded
  obtain ⟨entryId, rfl⟩ := Alone.step_escalation hrecorded
  rcases checkEscalation_step nextCron entryId
      (checkEscalation_alone nextCron entryId frame.inputs base) save.input
    with ⟨idx', e, policy, hrecord, hstep⟩ | ⟨-, -, hquiet⟩
  · rw [hstep, hnext] at halone
    rw [hstored] at halone hrecord
    obtain ⟨hcurrent, -, hrecorded⟩ := Alone.mk.inj halone
    obtain ⟨rfl, rfl⟩ := Local.escalationSaved.inj (Option.some.inj hrecorded)
    exact ⟨entryId, e, policy, rfl, hrecord, rfl, hcurrent.symm⟩
  · exact absurd (by rw [halone, hnext]) (hquiet idx record)

/-- A write that records no escalation leaves what the entries remember of theirs. -/
theorem pending_quiet (h : Pending nextCron s base sec (.writing frame save))
    (hnext : ∀ idx record, save.next ≠ some (.escalationSaved idx record)) :
    s.current = s.stored ∨ ∀ entryId, sec ≠ .checkEscalation entryId := by
  by_cases hsec : ∃ entryId, sec = .checkEscalation entryId
  · obtain ⟨entryId, rfl⟩ := hsec
    obtain ⟨-, -, hstored, halone⟩ := h
    rw [runAlone_append] at halone
    rcases checkEscalation_step nextCron entryId
        (checkEscalation_alone nextCron entryId frame.inputs base) save.input with ⟨idx, e, policy, -, hstep⟩ | ⟨hentries, -, -⟩
    · rw [hstep] at halone
      exact absurd (Alone.mk.inj halone).2.2.symm (hnext _ _)
    · rw [halone, hstored] at hentries
      exact .inl hentries
  · exact .inr fun entryId heq => hsec ⟨entryId, heq⟩

end

/-! ## Runs -/

/-- The clock does not go back. -/
def ClockForward (s : Engine) : Event → Prop
  | .call _ => True
  | .resume _ r _ => s.clock ≤ r.now

instance (s : Engine) : (event : Event) → Decidable (ClockForward s event)
  | .call _ => instDecidableTrue
  | .resume _ _ _ => inferInstanceAs (Decidable (_ ≤ _))

theorem clock_le {s s' : Engine} {event : Event} (hforward : ClockForward s event)
    (hstep : step nextCron s event = some s') : s.clock ≤ s'.clock := by
  cases event with
  | call request =>
    cases hstep
    exact le_refl _
  | resume i r reply =>
    rw [(step_drawn hstep).2.2]
    exact hforward

/-- Escalations are limited, and what the entries and the sections at work know of the past
keeps them so. -/
structure Limited (s : Engine) : Prop where
  limited : RateLimited s.recorded
  known : ∀ record ∈ s.recorded, Known s record.id
  past : ∀ record ∈ s.recorded, record.recordedAt ≤ s.clock
  inputs : ∀ task ∈ s.tasks, ∀ input ∈ task.inputs,
    input.1.now ≤ s.clock ∧ ∀ record ∈ s.recorded, record.recordedAt ≤ input.1.now
  last : ∀ id e, entryById s.stored id = some e → ∀ t ∈ escalationTimes id s.recorded,
    ∃ last ∈ e.lastEscalationAt, t ≤ last
  remembered : ∀ id e, entryById s.stored id = some e →
    Remembers hourMs (escalationTimes id s.recorded) e.escalationTimestamps

theorem limited_start (stored : List ScheduleEntry) (clock : Millis) :
    Limited (.start stored clock) where
  limited := ⟨List.Pairwise.nil, fun _ _ _ hlast => by cases hlast⟩
  known _ hrecord := absurd hrecord List.not_mem_nil
  past _ hrecord := absurd hrecord List.not_mem_nil
  inputs _ htask := absurd htask List.not_mem_nil
  last _ _ _ _ ht := absurd ht List.not_mem_nil
  remembered _ e _ := Remembers.nil hourMs e.escalationTimestamps

section

variable {s s' : Engine} {event : Event}

/-- What the sections at work were given, after a step that records nothing. -/
theorem inputs_step (h : Limited s) (hforward : ClockForward s event)
    (hstep : step nextCron s event = some s') (hrecorded : s'.recorded = s.recorded) :
    ∀ task ∈ s'.tasks, ∀ input ∈ task.inputs,
      input.1.now ≤ s'.clock ∧ ∀ record ∈ s'.recorded, record.recordedAt ≤ input.1.now := by
  intro task htask input hinput
  have hclock := clock_le hforward hstep
  rw [hrecorded]
  rcases step_inputs hstep htask with hnone | hsame |
    ⟨i, r, reply, sec, phase, phase', cont, rfl, hmem, rfl, hinputs⟩
  · rw [hnone] at hinput
    cases hinput
  · obtain ⟨hnow, hpast⟩ := h.inputs task hsame input hinput
    exact ⟨hnow.trans hclock, hpast⟩
  · have hinput : input ∈ ite _ _ _ := hinput
    split at hinput
    · next hworks =>
      rcases List.mem_append.mp (hinputs hinput) with hbefore | hlast
      · have hin : input ∈ (Task.inSection sec phase cont).inputs := by
          show input ∈ ite _ _ _
          rwa [if_pos hworks]
        obtain ⟨hnow, hpast⟩ := h.inputs _ hmem input hin
        exact ⟨hnow.trans hclock, hpast⟩
      · rw [List.mem_singleton.mp hlast]
        exact ⟨(step_drawn hstep).2.2.ge, fun record hrecord =>
          (h.past record hrecord).trans hforward⟩
    · cases hinput

/-- A step that records nothing, and leaves what the entries remember of their escalations. -/
theorem limited_quiet (h : Limited s) (hforward : ClockForward s event)
    (hstep : step nextCron s event = some s') (hrecorded : s'.recorded = s.recorded)
    (hentries : ∀ id e', entryById s'.stored id = some e' →
      (∃ e, entryById s.stored id = some e ∧ e'.lastEscalationAt = e.lastEscalationAt ∧
        e'.escalationTimestamps = e.escalationTimestamps) ∨ escalationTimes id s.recorded = []) :
    Limited s' where
  limited := hrecorded ▸ h.limited
  known record hrecord := known_step (h.known record (hrecorded ▸ hrecord)) hstep
  past record hrecord :=
    (h.past record (hrecorded ▸ hrecord)).trans (clock_le hforward hstep)
  inputs := inputs_step h hforward hstep hrecorded
  last id e' he' t ht := by
    rw [hrecorded] at ht
    rcases hentries id e' he' with ⟨e, he, hlast, -⟩ | hnone
    · rw [hlast]
      exact h.last id e he t ht
    · rw [hnone] at ht
      cases ht
  remembered id e' he' := by
    rw [hrecorded]
    rcases hentries id e' he' with ⟨e, he, -, htimestamps⟩ | hnone
    · rw [htimestamps]
      exact h.remembered id e he
    · rw [hnone]
      exact Remembers.nil hourMs _

/-- The step that records an escalation. -/
theorem limited_escalation {stored₀ : List ScheduleEntry} (h : Limited s) (hdrawn : Drawn s)
    (hexplained : Explained nextCron stored₀ s) (hforward : ClockForward s event)
    (hstep : step nextCron s event = some s') {w : Write} (hw : writes s event = some w)
    {idx : ℕ} {record : EscalationRecord}
    (hnext : w.save.next = some (.escalationSaved idx record))
    (hstored : s'.stored = (s.write w.frame w.sec w.save).stored)
    (hrecorded : s'.recorded = s.recorded ++ [record]) : Limited s' := by
  obtain ⟨i, r, reply, cont, -, hi, hpending, -⟩ := writer_pending hexplained hw
  obtain ⟨entryId, e, policy, hsec, hrecord, hnew, hcurrent⟩ := pending_escalation hpending hnext
  obtain ⟨current, hidx, hget, hfound, hescalate⟩ := recordEscalation_eq hrecord
  obtain ⟨-, hcooldown, hrecent, he⟩ := escalate_eq hescalate
  have hid : e.id = entryId := by
    rw [he]
    show current.id = entryId
    exact id_of_entryById hfound
  have hrecordId : record.id = entryId := by rw [hnew, hid]
  have hrecordAt : record.recordedAt = w.save.input.1.now := by rw [hnew]
  have hwritten : s'.stored = s.stored.set idx e := by
    obtain ⟨-, harray, -, -⟩ := hpending
    rw [hstored, Engine.write_stored, harray]
    exact hcurrent
  -- the times before this one
  have hinput : w.save.input ∈
      (Task.inSection w.sec (.writing w.frame w.save) cont).inputs := by
    rw [hsec]
    exact List.mem_append_right _ (List.mem_singleton_self _)
  obtain ⟨hnow, hpast⟩ := h.inputs _ (List.mem_of_getElem? hi) _ hinput
  have hclock := clock_le hforward hstep
  have htimes : ∀ t ∈ escalationTimes entryId s.recorded, t ≤ w.save.input.1.now := by
    intro t ht
    obtain ⟨old, hold, -, rfl⟩ := mem_escalationTimes.mp ht
    exact hpast old hold
  have hsettled : ∀ task ∈ s'.tasks, task.inputs = [] := fun task htask =>
    inputs_of_settled (settled_of_write hexplained hw (by rw [hnext]; rfl) hstep task htask)
  have hself : escalationTimes entryId s'.recorded =
      escalationTimes entryId s.recorded ++ [w.save.input.1.now] := by
    rw [hrecorded, escalationTimes, ← hrecordId, escalationsOf_append_self, List.map_append,
      ← hrecordAt]
    rfl
  have hother : ∀ id, id ≠ entryId →
      escalationTimes id s'.recorded = escalationTimes id s.recorded := by
    intro id hne
    rw [hrecorded, escalationTimes, escalationsOf_append_of_ne _ (fun heq => hne (heq.symm.trans hrecordId)),
      escalationTimes]
  have hentry : ∀ id e', entryById s'.stored id = some e' →
      id = entryId ∧ e' = e ∨ id ≠ entryId ∧ entryById s.stored id = some e' := by
    intro id e' he'
    rw [hwritten] at he'
    by_cases heq : id = entryId
    · rw [heq, entryById_set_first hidx hid] at he'
      exact .inl ⟨heq, (Option.some.inj he').symm⟩
    · refine .inr ⟨heq, ?_⟩
      rcases entryById_set hget (hid.trans (id_of_entryById hfound).symm) id with hsame | ⟨hc, -⟩
      · exact hsame.symm.trans he'
      · exact absurd ((id_of_entryById hc).symm.trans (id_of_entryById hfound)) heq
  refine ⟨?_, ?_, ?_, ?_, ?_, ?_⟩
  · have hpolicy : record.policy = policy := by rw [hnew]
    rw [hrecorded]
    refine h.limited.append (fun a ha hsame => ?_) fun now hle => ?_
    · obtain ⟨last, hlast, hle⟩ := h.last entryId current hfound a.recordedAt
        (mem_escalationTimes.mpr ⟨a, ha, hsame.trans hrecordId, rfl⟩)
      rw [hpolicy, hrecordAt]
      exact (hcooldown last hlast).trans (sub_le_sub_left hle _)
    · rw [hrecordId, hpolicy, lastHour_length]
      exact lt_of_le_of_lt
        ((h.remembered entryId current hfound).window_le htimes (hrecordAt ▸ hle)) hrecent
  · intro old hold
    rw [hrecorded] at hold
    rcases List.mem_append.mp hold with hold | hold
    · exact known_step (h.known old hold) hstep
    · rw [List.mem_singleton.mp hold, hrecordId]
      have hadds : w.sec.adds = false := by rw [hsec]; rfl
      exact known_step (known_of_stored hdrawn hexplained hw hadds hfound) hstep
  · intro old hold
    rw [hrecorded] at hold
    rcases List.mem_append.mp hold with hold | hold
    · exact (h.past old hold).trans hclock
    · rw [List.mem_singleton.mp hold, hrecordAt]
      exact hnow.trans hclock
  · intro task htask input hinput
    rw [hsettled task htask] at hinput
    cases hinput
  · intro id e' he' t ht
    rcases hentry id e' he' with ⟨rfl, rfl⟩ | ⟨hne, hbefore⟩
    · rw [he]
      refine ⟨w.save.input.1.now, rfl, ?_⟩
      rw [hself] at ht
      rcases List.mem_append.mp ht with ht | ht
      · exact htimes t ht
      · exact (List.mem_singleton.mp ht).le
    · rw [hother id hne] at ht
      exact h.last id e' hbefore t ht
  · intro id e' he'
    rcases hentry id e' he' with ⟨rfl, rfl⟩ | ⟨hne, hbefore⟩
    · rw [hself, he]
      exact (h.remembered _ current hfound).add
    · rw [hother id hne]
      exact h.remembered id e' hbefore

/-- **One step keeps the escalations limited**, when sections do not overlap. -/
theorem limited_step {stored₀ : List ScheduleEntry} (h : Limited s) (hdrawn : Drawn s)
    (hexplained : Explained nextCron stored₀ s) (hforward : ClockForward s event)
    (hstep : step nextCron s event = some s') : Limited s' := by
  have hsame : s'.stored = s.stored → s'.recorded = s.recorded → Limited s' := by
    intro hstored hrecorded
    refine limited_quiet h hforward hstep hrecorded fun id e' he' => .inl ⟨e', ?_, rfl, rfl⟩
    rwa [hstored] at he'
  rcases step_stored hstep with ⟨w, hw, hstored, hrecorded⟩ | ⟨-, hstored, hrecorded⟩
  · rcases Engine.write_recorded s w.frame w.sec w.save with ⟨idx, record, hnext, hwrite⟩ |
      ⟨hnext, hwrite⟩
    · exact limited_escalation h hdrawn hexplained hforward hstep hw hnext hstored
        (hrecorded.trans hwrite)
    · obtain ⟨i, r, reply, cont, -, -, hpending, -⟩ := writer_pending hexplained hw
      rcases pending_quiet hpending hnext with hcurrent | hsec
      · obtain ⟨-, harray, -, -⟩ := hpending
        refine hsame ?_ (hrecorded.trans hwrite)
        rw [hstored, Engine.write_stored, harray]
        exact hcurrent
      · have hchanges := write_changes hexplained hw
        rw [← hstored] at hchanges
        refine limited_quiet h hforward hstep (hrecorded.trans hwrite) fun id e' he' => ?_
        cases hbefore : entryById s.stored id with
        | some e => exact .inl ⟨e, rfl, (hchanges.kept hbefore he').escalations hsec⟩
        | none =>
          -- a new entry: nothing was recorded under its id
          right
          obtain ⟨task, htask, hnew⟩ := newId_of_write hw (hchanges.fresh hbefore he')
          by_contra hne
          obtain ⟨t, ht⟩ := List.exists_mem_of_ne_nil _ hne
          obtain ⟨record, hrecord, rfl, -⟩ := mem_escalationTimes.mp ht
          exact (h.known record hrecord).settled task htask hnew
  · exact hsame hstored hrecorded

end

variable (nextCron)

/-- **Escalations are rate limited**: in every run with a clock that does not go back in which
sections do not overlap, in every state, any two escalations recorded for an entry are the
cooldown apart, and no hour holds more of them than `maxPerHour`. -/
theorem escalations_limited {stored : List ScheduleEntry} {clock : Millis} {ls : List Event}
    (hclock : (LTS.ofPartial (step nextCron)).Always (.start stored clock) ls ClockForward)
    (hone : (LTS.ofPartial (step nextCron)).Always (.start stored clock) ls OneAtATime) :
    (LTS.ofPartial (step nextCron)).Throughout (.start stored clock) ls fun s =>
      RateLimited s.recorded := by
  have hcond : (LTS.ofPartial (step nextCron)).Always (.start stored clock) ls fun s event =>
      ClockForward s event ∧ OneAtATime s event := fun ks l rest a hsplit hks =>
    ⟨hclock ks l rest a hsplit hks, hone ks l rest a hsplit hks⟩
  have hall : (LTS.ofPartial (step nextCron)).Throughout (.start stored clock) ls fun s =>
      (Explained nextCron stored s ∧ Drawn s) ∧ Limited s :=
    LTS.Throughout.guarded
      ⟨⟨explained_start stored clock, drawn_start stored clock⟩, limited_start stored clock⟩ hcond
      fun _ _ _ hstep hcond h => ⟨explained_drawn_step h.1 hcond.2 hstep,
        limited_step h.2 h.1.2 h.1.1 hcond.1 hstep⟩
  exact fun ks rest s hsplit hks => (hall ks rest s hsplit hks).2.limited

/-- An entry that is due, and escalates at most every fifteen minutes. -/
def sampleWatched : List ScheduleEntry :=
  [{ sampleEntry "a" 1000 with escalation := some { enabled := true } }, sampleEntry "b" 500000]

/-- The execution of the `i`-th call fails. -/
def sampleFailure (i : ℕ) : Event :=
  .resume i { now := 2000 } (.executed { status := .down, firedAt := 2000 })

/-- A tick that executes the entry, and the entry run again: it fails twice. -/
def sampleFailures : List Event :=
  [.call .tick] ++ List.replicate 7 (go 0) ++ [sampleFailure 0] ++ List.replicate 23 (go 0) ++
    [.call (.runEntryNow "a" { allowEscalation := true })] ++ List.replicate 7 (go 1) ++
    [sampleFailure 1] ++ List.replicate 19 (go 1)

theorem escalations_limited_sample :
    (LTS.ofPartial (step sampleCron)).Throughout (.start sampleWatched 1000) sampleFailures
      fun s => RateLimited s.recorded :=
  escalations_limited sampleCron (LTS.ExecPartialAlways.always (by decide +kernel))
    (LTS.ExecPartialAlways.always (by decide +kernel))

/-- While the escalation of the tick is recorded, a mutation has read the entries from before
it, and saves them; then the entry is run again. -/
def overlappingEscalation : List Event :=
  [.call .tick] ++ List.replicate 7 (go 0) ++ [sampleFailure 0] ++ List.replicate 14 (go 0) ++
    [.call (.updateEntry "b" { enabled := some false }), go 1, go 1] ++
    List.replicate 4 (go 0) ++ List.replicate 6 (go 1) ++ List.replicate 5 (go 0) ++
    [.call (.runEntryNow "a" { allowEscalation := true })] ++ List.replicate 7 (go 2) ++
    [sampleFailure 2] ++ List.replicate 18 (go 2)

/-- **An escalation is forgotten**: with a clock that does not go back, the mutation saves the
entries without the escalation, and the entry escalates again within the cooldown. -/
theorem escalation_forgotten :
    (LTS.ExecPartialAlways (step sampleCron) ClockForward (.start sampleWatched 1000)
      overlappingEscalation) ∧
      ∃ s, LTS.execPartial (step sampleCron) (.start sampleWatched 1000) overlappingEscalation =
          some s ∧
        s.recorded.map (fun record => (record.id, record.recordedAt)) = [("a", 2000), ("a", 2000)] ∧
        ¬ RateLimited s.recorded :=
  ⟨by decide +kernel, Option.get _ (by decide +kernel), (Option.some_get _).symm,
    by decide +kernel, fun h => absurd h.cooldown (by decide +kernel)⟩

end Schedule

end PulSeed
