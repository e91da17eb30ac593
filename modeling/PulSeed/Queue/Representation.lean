import PulSeed.Queue.Fate

/-!
# The representation invariant, over whole runs

The records, the pending lists and the inflight table of every reachable state
agree (`Represents`), and the record of an accepted message stays until `accept`
replaces it under the same dedupe key.
-/

namespace PulSeed.Queue

/-- How the three structures of a queue state agree. -/
structure Represents (s : QueueState) : Prop where
  /-- An id stands once in the list of its priority while it is pending, and in
  no list otherwise. -/
  pending_count : ∀ id p, (s.pending p).count id =
    if (s.records.get? id).any (fun r => r.PendingAt p) then 1 else 0
  /-- An entry of the inflight table agrees with a record of status `inflight`. -/
  claim_record : ∀ t c, s.inflight.get? t = some c → ∃ r,
    s.records.get? c.messageId = some r ∧ r.status = .inflight ∧ r.claimToken = some t ∧
      r.workerId = some c.workerId ∧ r.leaseUntil = some c.leaseUntil ∧ r.attempt = c.attempt
  /-- A record of status `inflight` has exactly one entry. -/
  record_claim : ∀ id r, s.records.get? id = some r → r.status = .inflight →
    ∃! t, ∃ c, s.inflight.get? t = some c ∧ c.messageId = id
  /-- A settled record is in no list and has no entry. -/
  settled : ∀ id r, s.records.get? id = some r → r.status = .completed ∨ r.status = .deadletter →
    (∀ p, id ∉ s.pending p) ∧ ∀ t c, s.inflight.get? t = some c → c.messageId ≠ id

theorem Sound.represents {s : QueueState} (hs : Sound s) : Represents s where
  pending_count := by
    intro id p
    have hnodup : (s.pending p).Nodup := hs.ok.pending_nodup p
    by_cases hmem : id ∈ s.pending p
    · obtain ⟨r, hr, hp⟩ := hs.ok.pending_iff.mp hmem
      have hr' : s.records.get? id = some r := hr
      rw [List.count_eq_one_of_mem hnodup hmem, hr']
      simp [hp]
    · rw [List.count_eq_zero_of_not_mem hmem, if_neg]
      intro hany
      obtain ⟨r, hr, hp⟩ := (Option.any_eq_true _ _).mp hany
      exact hmem (hs.ok.pending_iff.mpr ⟨r, hr, of_decide_eq_true hp⟩)
  claim_record := fun _ _ h => hs.agrees.sound h
  record_claim := by
    intro id r hr hst
    obtain ⟨t, -, -, ht, -⟩ := (hs.ok.lease hr).inflight hst
    refine ⟨t, hs.agrees.complete hr hst ht, ?_⟩
    rintro t' ⟨c, hc, rfl⟩
    obtain ⟨r', hr', -, ht', -⟩ := hs.agrees.sound hc
    obtain rfl : r = r' := Option.some.inj (hr.symm.trans hr')
    exact Option.some.inj (ht'.symm.trans ht)
  settled := by
    intro id r hr hst
    constructor
    · intro p hp
      obtain ⟨r', hr', hpend, -⟩ := hs.ok.pending_iff.mp hp
      obtain rfl : r = r' := Option.some.inj (hr.symm.trans hr')
      rw [hpend] at hst
      simp at hst
    · rintro t c hc rfl
      obtain ⟨r', hr', hinfl, -⟩ := hs.agrees.sound hc
      obtain rfl : r = r' := Option.some.inj (hr.symm.trans hr')
      rw [hinfl] at hst
      simp at hst

/-! ## Records of accepted messages -/

section

variable {cfg : QueueConfig} {call : Call} {out : Outcome} {id : String}

/-- No call changes the envelope of a record. -/
theorem Fate.envelope {r r' : QueueRecord} (h : Fate cfg call out id (some r) (some r')) :
    r'.envelope = r.envelope := by
  cases h with
  | nacked => exact givenBack_envelope ..
  | swept => exact givenBack_envelope ..
  | _ => rfl

/-- Only `accept` deletes a record, under the same dedupe key. -/
theorem Fate.deleted {r : QueueRecord} (h : Fate cfg call out id (some r) none) :
    ∃ envelope, Accepts (call, out) envelope ∧ r.envelope.dedupeKey = envelope.dedupeKey ∧
      ∃ key, truthy envelope.dedupeKey = some key := by
  cases h with
  | @replaced _ envelope _ _ _ hkey htruthy =>
    exact ⟨envelope, ⟨rfl, _, rfl, rfl⟩, hkey, htruthy⟩

end

section

variable {cfg : QueueConfig} {table table' : Table}

/-- Tables keep reading well. -/
theorem run_loaded {history : List (Call × Outcome)} (hload : Loaded (readQueueState table))
    (h : (queueLTS cfg).Run table history table') : Loaded (readQueueState table') :=
  LTS.Run.invariant (P := fun table => Loaded (readQueueState table)) h hload
    fun _ _ _ hstep hload => (perform_effect hload hstep).1

/-- **Every reachable table reads well.** -/
theorem QueueRun.loaded {history : List (Call × Outcome)} (h : QueueRun cfg history table) :
    Loaded (readQueueState table) :=
  run_loaded loaded_nil h

/-- An accepted message has a record with its envelope. -/
theorem record_of_accepts {l : Call × Outcome} {envelope : Envelope}
    (hload : Loaded (readQueueState table)) (hstep : (queueLTS cfg).step table l table')
    (hacc : Accepts l envelope) : recordIn table' envelope.id =
      some (acceptedRecord l.1.clock envelope) := by
  obtain ⟨⟨op, clock⟩, out⟩ := l
  obtain ⟨hop, result, hout, htrue⟩ := hacc
  obtain ⟨changes, heff, hnodup, hrec⟩ := step_effect hload hstep
  cases heff with
  | idle hidle =>
    subst hout
    exact absurd htrue (by simpa using (show result.accepted = false from hidle))
  | accept hnew hlive hactive =>
    cases hop
    rw [hrec]
    exact puts_record_of_mem hnodup _ (by simp)
  | _ => cases hout

/-- The record of a message, along a run: it stays under its envelope, unless a
message with the same dedupe key is accepted. -/
theorem record_persists {history : List (Call × Outcome)} (hload : Loaded (readQueueState table))
    (h : (queueLTS cfg).Run table history table') {id : String} {r : QueueRecord}
    (hr : recordIn table id = some r) :
    (∃ r', recordIn table' id = some r' ∧ r'.envelope = r.envelope) ∨
      ∃ l ∈ history, ∃ envelope, Accepts l envelope ∧
        r.envelope.dedupeKey = envelope.dedupeKey ∧
        ∃ key, truthy envelope.dedupeKey = some key := by
  induction h with
  | nil => exact .inl ⟨r, hr, rfl⟩
  | @snoc ls a b l hrun hstep ih =>
    rcases ih with ⟨r', hr', henv⟩ | ⟨l', hl', hreplaced⟩
    · have hfate := step_fate (run_loaded hload hrun) hstep id
      rw [hr'] at hfate
      cases hb : recordIn b id with
      | some r'' =>
        rw [hb] at hfate
        exact .inl ⟨r'', rfl, hfate.envelope.trans henv⟩
      | none =>
        rw [hb] at hfate
        obtain ⟨envelope, hacc, hkey, htruthy⟩ := hfate.deleted
        exact .inr ⟨l, by simp, envelope, hacc, henv ▸ hkey, htruthy⟩
    · exact .inr ⟨l', List.mem_append_left _ hl', hreplaced⟩

end

/-- **The representation invariant of the queue**, in every reachable state; and a
message accepted anywhere in the history still has its record, unless a later
`accept` replaced it under the same dedupe key. -/
theorem queue_represents (cfg : QueueConfig) {history : List (Call × Outcome)} {table : Table}
    (h : QueueRun cfg history table) :
    Represents (readQueueState table) ∧
      ∀ before after l envelope, history = before ++ l :: after → Accepts l envelope →
        (∃ r, recordIn table envelope.id = some r ∧ r.envelope = envelope) ∨
          ∃ l' ∈ after, ∃ envelope', Accepts l' envelope' ∧
            envelope.dedupeKey = envelope'.dedupeKey ∧
            ∃ key, truthy envelope'.dedupeKey = some key := by
  refine ⟨h.loaded.sound.represents, ?_⟩
  rintro before after l envelope rfl hacc
  obtain ⟨a, hbefore, hrest⟩ := LTS.Run.append_iff.mp h
  obtain ⟨b, hstep, hafter⟩ := LTS.Run.cons_iff.mp hrest
  have hload := QueueRun.loaded (show QueueRun cfg before a from hbefore)
  have hr := record_of_accepts hload hstep hacc
  exact record_persists (perform_effect hload hstep).1 hafter hr

/-- Two messages under one dedupe key: the second replaces the first. -/
theorem queue_represents_replaced :
    let run := runCalls {} [⟨.accept (sampleEnvelope "a" (some "k")), steadyClock 1⟩,
      ⟨.accept (sampleEnvelope "b" (some "k")), steadyClock 2⟩, sampleClaim "u" 3]
    Represents (readQueueState run.2) ∧ recordIn run.2 "a" = none ∧
      ∀ before after l envelope, run.1 = before ++ l :: after → Accepts l envelope →
        (∃ r, recordIn run.2 envelope.id = some r ∧ r.envelope = envelope) ∨
          ∃ l' ∈ after, ∃ envelope', Accepts l' envelope' ∧
            envelope.dedupeKey = envelope'.dedupeKey ∧
            ∃ key, truthy envelope'.dedupeKey = some key := by
  have hrun := runCalls_run {} [⟨.accept (sampleEnvelope "a" (some "k")), steadyClock 1⟩,
    ⟨.accept (sampleEnvelope "b" (some "k")), steadyClock 2⟩, sampleClaim "u" 3]
  refine ⟨(queue_represents {} hrun).1, ?_, (queue_represents {} hrun).2⟩
  exact Option.isNone_iff_eq_none.mp (by decide +kernel)

end PulSeed.Queue
