import PulSeed.Queue.Tokens

/-!
# What `requeue` brings back

`requeue` makes a dead-lettered message pending again and looks at nothing but its
status. Three laws of the queue therefore hold under a condition on the `requeue`
steps of a run only: that at most one message is active under a dedupe key
(`active_unique`), that acknowledged work is not handed out again
(`completion_terminal`), and that no message is handed out more often than
`maxAttempts` (`attempts_bounded`). Each of them is proved for every run whose steps
meet its condition, and shown to fail on a run with one step that does not.
-/

namespace PulSeed.Queue

/-! ## Deduplication -/

/-- A pending or inflight record. -/
def QueueRecord.Active (r : QueueRecord) : Prop := r.status = .pending ∨ r.status = .inflight

instance (r : QueueRecord) : Decidable r.Active := inferInstanceAs (Decidable (_ ∨ _))

/-- At most one active record carries each dedupe key. -/
def ActiveUnique (table : Table) : Prop :=
  ∀ k id id' r r', recordIn table id = some r → recordIn table id' = some r' →
    r.Active → r'.Active → r.envelope.dedupeKey = some k → r'.envelope.dedupeKey = some k → id = id'

/-- Another message than `id` is active under the dedupe key `k`. -/
def ActiveElsewhere (table : Table) (id k : String) : Prop :=
  ∃ e ∈ (readQueueState table).records.entries,
    e.1 ≠ id ∧ e.2.Active ∧ e.2.envelope.dedupeKey = some k

instance (table : Table) (id k : String) : Decidable (ActiveElsewhere table id k) :=
  inferInstanceAs (Decidable (∃ e ∈ _, _))

/-- The condition on a step: no `requeue` of a dead-lettered message while another
message is active under its dedupe key, and no `accept` of a new message under the
empty dedupe key, which `accept` takes for none, while another message is active
under it. -/
def DedupeGuard (table : Table) (l : Call × Outcome) : Prop :=
  match l.1.op with
  | .requeue id => ∀ r ∈ recordIn table id, r.status = .deadletter →
      ∀ k ∈ r.envelope.dedupeKey, ¬ ActiveElsewhere table id k
  | .accept envelope => envelope.dedupeKey = some "" → (recordIn table envelope.id).isNone →
      isExpired envelope (l.1.clock (.expiry envelope.id)) = false →
      ¬ ActiveElsewhere table envelope.id ""
  | _ => True

instance (table : Table) (l : Call × Outcome) : Decidable (DedupeGuard table l) := by
  unfold DedupeGuard
  split <;> infer_instance

section

variable {cfg : QueueConfig} {table table' : Table} {l : Call × Outcome}

/-- Where an active record comes from. -/
theorem Fate.active {call : Call} {out : Outcome} {id : String} {old : Option QueueRecord}
    {r' : QueueRecord} (h : Fate cfg call out id old (some r')) (hactive : r'.Active) :
    (∃ r, old = some r ∧ r.Active ∧ r'.envelope = r.envelope) ∨
    (∃ envelope, Accepts (call, out) envelope ∧ id = envelope.id ∧ r'.envelope = envelope) ∨
    ∃ r, call.op = .requeue id ∧ old = some r ∧ r.status = .deadletter ∧
      r'.envelope = r.envelope := by
  cases h with
  | same => exact .inl ⟨r', rfl, hactive, rfl⟩
  | accepted => exact .inr (.inl ⟨_, ⟨rfl, _, rfl, rfl⟩, rfl, rfl⟩)
  | dropped hst => exact .inl ⟨_, rfl, .inl hst, rfl⟩
  | claimed hst => exact .inl ⟨_, rfl, .inl hst, rfl⟩
  | renewed hst => exact .inl ⟨_, rfl, .inr hst, rfl⟩
  | completed => simp [QueueRecord.Active, completedRecord] at hactive
  | nacked hst => exact .inl ⟨_, rfl, .inr hst, givenBack_envelope ..⟩
  | requeued hst =>
    rcases hst with hst | hst
    · exact .inl ⟨_, rfl, .inr hst, rfl⟩
    · exact .inr (.inr ⟨_, rfl, rfl, hst, rfl⟩)
  | deadlettered => simp [QueueRecord.Active, deadletteredRecord] at hactive
  | swept hst => exact .inl ⟨_, rfl, .inr hst, givenBack_envelope ..⟩

/-- `accept` takes a new message that has not expired, and leaves no other message
active under its nonempty dedupe key. -/
theorem accepts_step (hload : Loaded (readQueueState table))
    (hstep : (queueLTS cfg).step table l table') {envelope : Envelope} (hacc : Accepts l envelope) :
    recordIn table envelope.id = none ∧
    isExpired envelope (l.1.clock (.expiry envelope.id)) = false ∧
    ∀ k id r, envelope.dedupeKey = some k → k ≠ "" → recordIn table id = some r → r.Active →
      r.envelope.dedupeKey = some k → recordIn table' id = none := by
  obtain ⟨⟨op, clock⟩, out⟩ := l
  obtain ⟨hop, result, hout, htrue⟩ := hacc
  obtain ⟨changes, heff, hnodup, hrec⟩ := step_effect hload hstep
  cases heff with
  | idle hidle =>
    subst hout
    exact absurd htrue (by simpa using (show result.accepted = false from hidle))
  | accept hnew hlive hpend =>
    cases hop
    refine ⟨hnew, hlive, fun k id r hkey hk hr hactive hrk => ?_⟩
    rw [hrec]
    refine puts_record_of_mem hnodup _ (List.mem_append_left _ (List.mem_map.mpr
      ⟨(id, r), mem_activeDedupeRecords.mpr ⟨hr, hrk.trans hkey.symm,
        ⟨k, truthy_eq_some.mpr ⟨hkey, hk⟩⟩, ?_, ?_⟩, rfl⟩))
    · rcases hactive with h | h <;> simp [h]
    · rcases hactive with h | h <;> simp [h]
  | _ => cases hout

/-- A new active record is alone, when the step meets its condition. -/
theorem new_active_alone (hload : Loaded (readQueueState table))
    (hstep : (queueLTS cfg).step table l table') (hguard : DedupeGuard table l) {k id id' : String}
    {r r' r₀ : QueueRecord} (hr : recordIn table' id = some r) (hrk : r.envelope.dedupeKey = some k)
    (hnew : (∃ envelope, Accepts l envelope ∧ id = envelope.id ∧ r.envelope = envelope) ∨
      ∃ r₀, l.1.op = .requeue id ∧ recordIn table id = some r₀ ∧ r₀.status = .deadletter ∧
        r.envelope = r₀.envelope)
    (hr₀ : recordIn table id' = some r₀) (hactive : r₀.Active)
    (hr₀k : r₀.envelope.dedupeKey = some k) (hr' : recordIn table' id' = some r') : id = id' := by
  by_contra hne
  have helse : ActiveElsewhere table id k :=
    ⟨(id', r₀), ObjectMap.mem_entries_iff.mpr hr₀, fun h => hne h.symm, hactive, hr₀k⟩
  rcases hnew with ⟨envelope, hacc, rfl, rfl⟩ | ⟨r₁, hop, hr₁, hst, henv⟩
  · obtain ⟨hfresh, hlive, hkeep⟩ := accepts_step hload hstep hacc
    by_cases hk : k = ""
    · subst hk
      unfold DedupeGuard at hguard
      rw [hacc.1] at hguard
      exact hguard hrk (by simp [hfresh]) hlive helse
    · rw [hkeep k id' r₀ hrk hk hr₀ hactive hr₀k] at hr'
      cases hr'
  · unfold DedupeGuard at hguard
    rw [hop] at hguard
    exact hguard r₁ hr₁ hst k (henv ▸ hrk) helse

/-- The step lemma. -/
theorem active_unique_step (hload : Loaded (readQueueState table))
    (hstep : (queueLTS cfg).step table l table') (hguard : DedupeGuard table l)
    (h : ActiveUnique table) : ActiveUnique table' := by
  intro k x y rx ry hx hy hax hay hkx hky
  have hfx := step_fate hload hstep x
  have hfy := step_fate hload hstep y
  rw [hx] at hfx
  rw [hy] at hfy
  rcases hfx.active hax with ⟨rx₀, hx₀, hax₀, hex⟩ | hnewx
  · rcases hfy.active hay with ⟨ry₀, hy₀, hay₀, hey⟩ | hnewy
    · exact h k x y rx₀ ry₀ hx₀ hy₀ hax₀ hay₀ (hex ▸ hkx) (hey ▸ hky)
    · exact (new_active_alone hload hstep hguard hy hky hnewy hx₀ hax₀ (hex ▸ hkx) hx).symm
  · rcases hfy.active hay with ⟨ry₀, hy₀, hay₀, hey⟩ | hnewy
    · exact new_active_alone hload hstep hguard hx hkx hnewx hy₀ hay₀ (hey ▸ hky) hy
    · -- both are new: the call names one message
      rcases hnewx with ⟨ex, haccx, rfl, -⟩ | ⟨-, hopx, -⟩ <;>
        rcases hnewy with ⟨ey, haccy, rfl, -⟩ | ⟨-, hopy, -⟩
      · have hop := haccx.1.symm.trans haccy.1
        simp only [QueueOp.accept.injEq] at hop
        rw [hop]
      · exact absurd (haccx.1.symm.trans hopy) (by simp)
      · exact absurd (haccy.1.symm.trans hopx) (by simp)
      · simpa using hopx.symm.trans hopy

end

/-- **Deduplication**: in every run whose steps meet the condition, at most one
active record carries each dedupe key. -/
theorem active_unique (cfg : QueueConfig) {history : List (Call × Outcome)} {table : Table}
    (h : QueueRun cfg history table) (hguard : (queueLTS cfg).Always [] history DedupeGuard) :
    ActiveUnique table := by
  have key : Loaded (readQueueState table) ∧ ActiveUnique table := by
    refine LTS.Run.guarded (P := fun table => Loaded (readQueueState table) ∧ ActiveUnique table) h
      ⟨loaded_nil, ?_⟩ hguard fun a l b hstep hcond ⟨hload, hunique⟩ =>
        ⟨(perform_effect hload hstep).1, active_unique_step hload hstep hcond hunique⟩
    rintro k x y rx ry ⟨⟩
  exact key.2

/-- A message replaced while dead-lettered is not requeued; another one is. -/
theorem active_unique_requeued :
    ActiveUnique (runCalls {} [⟨.accept (sampleEnvelope "a" (some "k")), steadyClock 1⟩,
      ⟨.deadletter "a" "stopped", steadyClock 2⟩, ⟨.requeue "a", steadyClock 3⟩,
      ⟨.accept (sampleEnvelope "b" (some "k")), steadyClock 4⟩]).2 :=
  active_unique {} (runCalls_run {} _) (LTS.ExecAlways.always (by decide +kernel))

/-- **`requeue` breaks deduplication**: two messages are active under one key. -/
theorem active_unique_broken :
    ¬ ∀ history table, QueueRun {} history table → ActiveUnique table := by
  intro h
  have hrun := runCalls_run {} [⟨.accept (sampleEnvelope "a" (some "k")), steadyClock 1⟩,
    ⟨.deadletter "a" "stopped", steadyClock 2⟩,
    ⟨.accept (sampleEnvelope "b" (some "k")), steadyClock 3⟩, ⟨.requeue "a", steadyClock 4⟩]
  have hboth : ∀ id ∈ ["a", "b"], ∃ r, recordIn (runCalls {} [
      ⟨.accept (sampleEnvelope "a" (some "k")), steadyClock 1⟩,
      ⟨.deadletter "a" "stopped", steadyClock 2⟩,
      ⟨.accept (sampleEnvelope "b" (some "k")), steadyClock 3⟩,
      ⟨.requeue "a", steadyClock 4⟩]).2 id = some r ∧ r.Active ∧
        r.envelope.dedupeKey = some "k" := by
    have hdec : ∀ id ∈ ["a", "b"], (recordIn (runCalls {} [
        ⟨.accept (sampleEnvelope "a" (some "k")), steadyClock 1⟩,
        ⟨.deadletter "a" "stopped", steadyClock 2⟩,
        ⟨.accept (sampleEnvelope "b" (some "k")), steadyClock 3⟩,
        ⟨.requeue "a", steadyClock 4⟩]).2 id).any (fun r =>
          decide (r.Active ∧ r.envelope.dedupeKey = some "k")) = true := by decide +kernel
    intro id hid
    obtain ⟨r, hr, h⟩ := (Option.any_eq_true _ _).mp (hdec id hid)
    exact ⟨r, hr, of_decide_eq_true h⟩
  obtain ⟨ra, hra, haa, hka⟩ := hboth "a" (by simp)
  obtain ⟨rb, hrb, hab, hkb⟩ := hboth "b" (by simp)
  exact absurd (h _ _ hrun "k" "a" "b" ra rb hra hrb haa hab hka hkb) (by decide)

/-! ## Completion -/

/-- A message whose claim was acknowledged is not claimed again, unless a message
of that id is accepted in between. -/
def CompletionTerminal (history : List (Call × Outcome)) : Prop :=
  ∀ before l mid l' after t m c, history = before ++ l :: mid ++ l' :: after → Acks l t →
    claimedMessage before t = some m → Claims l' c → c.messageId = m →
    ∃ l'' ∈ mid, ∃ envelope, Accepts l'' envelope ∧ envelope.id = m

/-- The condition on a step: no `requeue` of a dead-lettered message that was
completed before. -/
def CompletionGuard (table : Table) (l : Call × Outcome) : Prop :=
  match l.1.op with
  | .requeue id => ∀ r ∈ recordIn table id, r.status = .deadletter → r.completedAt.isNone
  | _ => True

instance (table : Table) (l : Call × Outcome) : Decidable (CompletionGuard table l) := by
  unfold CompletionGuard
  split <;> infer_instance

/-- A completed message, possibly dead-lettered since. -/
def QueueRecord.Done (r : QueueRecord) : Prop :=
  (r.status = .completed ∨ r.status = .deadletter) ∧ r.completedAt.isSome

section

variable {cfg : QueueConfig} {table table' : Table} {l : Call × Outcome}

/-- A completed message stays so. -/
theorem done_step (hload : Loaded (readQueueState table))
    (hstep : (queueLTS cfg).step table l table') (hguard : CompletionGuard table l) {m : String}
    (h : ∃ r, recordIn table m = some r ∧ r.Done) : ∃ r, recordIn table' m = some r ∧ r.Done := by
  obtain ⟨⟨op, clock⟩, out⟩ := l
  obtain ⟨r, hr, hst, hcompl⟩ := h
  have hfate := step_fate hload hstep m
  rw [hr] at hfate
  generalize recordIn table' m = new at hfate
  cases hfate with
  | same => exact ⟨r, rfl, hst, hcompl⟩
  | deadlettered => exact ⟨_, rfl, .inr rfl, hcompl⟩
  | requeued hst' =>
    rcases hst' with h | h
    · simp [h] at hst
    · have hnone := hguard r hr h
      simp [Option.isNone_iff_eq_none.mp hnone] at hcompl
  | replaced h => simp [h] at hst
  | dropped h => simp [h] at hst
  | claimed h => simp [h] at hst
  | renewed h => simp [h] at hst
  | completed h => simp [h] at hst
  | nacked h => simp [h] at hst
  | swept h => simp [h] at hst

/-- An acknowledged message is completed. -/
theorem acks_step (hload : Loaded (readQueueState table))
    (hstep : (queueLTS cfg).step table l table') {t : String} (h : Acks l t) :
    ∃ m r₀ r, (readQueueState table).view.Held t m r₀ ∧ recordIn table' m = some r ∧ r.Done := by
  obtain ⟨⟨op, clock⟩, out⟩ := l
  obtain ⟨hop, hout⟩ := h
  obtain ⟨changes, heff, -, hrec⟩ := step_effect hload hstep
  cases heff with
  | idle hidle =>
    have hout' : out = .acked true := hout
    subst hout'
    cases hidle
  | ack hheld _ =>
    cases hop
    exact ⟨_, _, _, hheld, (recordIn_single hrec _).trans (if_pos rfl), .inl rfl, rfl⟩
  | _ => cases hout

end

/-- **Completion is terminal** in every run whose steps meet the condition. -/
theorem completion_terminal (cfg : QueueConfig) {history : List (Call × Outcome)} {table : Table}
    (h : QueueRun cfg history table) (hguard : (queueLTS cfg).Always [] history CompletionGuard) :
    CompletionTerminal history := by
  rintro before l mid l' after t m c rfl hacks hm hc rfl
  obtain ⟨a₃, hrun₃, hrest⟩ := LTS.Run.append_iff.mp h
  obtain ⟨a₄, hstep', -⟩ := LTS.Run.cons_iff.mp hrest
  obtain ⟨a, hbefore, hmid⟩ := LTS.Run.append_iff.mp hrun₃
  obtain ⟨b, hstep, hmid⟩ := LTS.Run.cons_iff.mp hmid
  have hload := QueueRun.loaded (show QueueRun cfg before a from hbefore)
  obtain ⟨m, r₀, r, hheld, hr, hdone⟩ := acks_step hload hstep hacks
  obtain ⟨lease, -, hcur⟩ :=
    current_claim (show QueueRun cfg before a from hbefore) hheld.record hheld.token
  obtain rfl : m = c.messageId := Option.some.inj (hcur.claimedMessage.symm.trans hm)
  -- the message stays completed up to the claim, which takes pending messages only
  have hkeep : ∀ {ls : List (Call × Outcome)} {b' : Table}, (queueLTS cfg).Run b ls b' →
      (queueLTS cfg).Always b ls CompletionGuard → ∃ r, recordIn b' c.messageId = some r ∧ r.Done := by
    intro ls b' hls hcond
    have key : Loaded (readQueueState b') ∧ ∃ r, recordIn b' c.messageId = some r ∧ r.Done :=
      LTS.Run.guarded (P := fun table => Loaded (readQueueState table) ∧
        ∃ r, recordIn table c.messageId = some r ∧ r.Done) hls
        ⟨(perform_effect hload hstep).1, r, hr, hdone⟩ hcond fun x l y hxy hx ⟨hx₁, hx₂⟩ =>
          ⟨(perform_effect hx₁ hxy).1, done_step hx₁ hxy hx hx₂⟩
    exact key.2
  have hcond : (queueLTS cfg).Always b mid CompletionGuard := by
    intro ks k rest x hsplit hks
    refine hguard (before ++ l :: ks) k (rest ++ l' :: after) x (by simp [hsplit]) ?_
    exact hbefore.append (hks.cons hstep)
  obtain ⟨r₃, hr₃, hst₃, -⟩ := hkeep hmid hcond
  obtain ⟨⟨r₄, hr₄, hpend, -⟩, -⟩ :=
    claims_step (QueueRun.loaded (show QueueRun cfg _ a₃ from hrun₃)) hstep' hc
  obtain rfl : r₃ = r₄ := Option.some.inj (hr₃.symm.trans hr₄)
  simp [hpend] at hst₃

/-- A message dead-lettered before its completion, requeued, claimed again and
acknowledged. -/
theorem completion_terminal_requeued :
    CompletionTerminal (runCalls {} [⟨.accept (sampleEnvelope "a" none), steadyClock 1⟩,
      sampleClaim "u" 2, ⟨.deadletter "a" "stopped", steadyClock 3⟩, ⟨.requeue "a", steadyClock 4⟩,
      sampleClaim "v" 5, ⟨.ack "v", steadyClock 6⟩, sampleClaim "w" 7]).1 :=
  completion_terminal {} (runCalls_run {} _) (LTS.ExecAlways.always (by decide +kernel))

/-- **`deadletter` and `requeue` bring acknowledged work back**: the message is
claimed again after its `ack`. -/
theorem completion_terminal_broken :
    ¬ ∀ history table, QueueRun {} history table → CompletionTerminal history := by
  intro h
  let calls : List Call := [⟨.accept (sampleEnvelope "a" none), steadyClock 1⟩, sampleClaim "u" 2,
    ⟨.ack "u", steadyClock 3⟩, ⟨.deadletter "a" "stopped", steadyClock 4⟩,
    ⟨.requeue "a", steadyClock 5⟩, sampleClaim "v" 6]
  have hacks : settledToken ((runCalls {} calls).1.get ⟨2, by decide⟩) = some "u" := by decide +kernel
  have hissued : claimedMessage ((runCalls {} calls).1.take 2) "u" = some "a" := by decide +kernel
  have hclaim : (claimOf ((runCalls {} calls).1.get ⟨5, by decide⟩)).map Claim.messageId =
      some "a" := by decide +kernel
  obtain ⟨c, hc, hid⟩ := Option.map_eq_some_iff.mp hclaim
  obtain ⟨l'', hl'', envelope, ⟨hop, -⟩, -⟩ := h _ _ (runCalls_run {} calls) _ _
    [(calls[3], _), (calls[4], _)] _ [] "u" "a" c rfl
    ((settles_iff.mp hacks).resolve_right fun ⟨_, _, hop, _⟩ => by cases hop) hissued
    (claimOf_eq_some.mp hc) hid
  rcases List.mem_cons.mp hl'' with rfl | hl''
  · cases hop
  · rw [List.mem_singleton.mp hl''] at hop
    cases hop

/-! ## Attempts -/

/-- Every claim is one of at most `maxAttempts` of its message, and takes a message
with attempts left. -/
def AttemptsBounded (cfg : QueueConfig) (history : List (Call × Outcome)) : Prop :=
  ∀ before l after table c, history = before ++ l :: after → QueueRun cfg before table →
    Claims l c → (1 ≤ c.attempt ∧ c.attempt ≤ cfg.maxAttempts) ∧
      ∀ r, recordIn table c.messageId = some r → r.attempt < cfg.maxAttempts

/-- The condition on a step: no `requeue` of an inflight or dead-lettered message
that has no attempts left. -/
def AttemptGuard (cfg : QueueConfig) (table : Table) (l : Call × Outcome) : Prop :=
  match l.1.op with
  | .requeue id => ∀ r ∈ recordIn table id, r.status = .inflight ∨ r.status = .deadletter →
      r.attempt < cfg.maxAttempts
  | _ => True

instance (cfg : QueueConfig) (table : Table) (l : Call × Outcome) :
    Decidable (AttemptGuard cfg table l) := by
  unfold AttemptGuard
  split <;> infer_instance

/-- No message exceeds its attempts, and a pending one has some left. -/
def WithinAttempts (cfg : QueueConfig) (table : Table) : Prop :=
  ∀ id r, recordIn table id = some r →
    r.attempt ≤ cfg.maxAttempts ∧ (r.status = .pending → r.attempt < cfg.maxAttempts)

/-- A claim that ended without success gives the message back with attempts left. -/
theorem givenBack_within {cfg : QueueConfig} {r : QueueRecord} (h : r.attempt ≤ cfg.maxAttempts)
    {updatedAt : Millis} {reason? : Option String}
    (hreason : reason? = none → r.attempt < cfg.maxAttempts) :
    (givenBack r updatedAt reason?).attempt ≤ cfg.maxAttempts ∧
      ((givenBack r updatedAt reason?).status = .pending →
        (givenBack r updatedAt reason?).attempt < cfg.maxAttempts) := by
  rw [givenBack_attempt, givenBack_status]
  refine ⟨h, fun hst => hreason ?_⟩
  cases reason? with
  | none => rfl
  | some reason => simp at hst

theorem within_step {cfg : QueueConfig} (hmax : 1 ≤ cfg.maxAttempts) {table table' : Table}
    {l : Call × Outcome} (hload : Loaded (readQueueState table))
    (hstep : (queueLTS cfg).step table l table') (hguard : AttemptGuard cfg table l)
    (h : WithinAttempts cfg table) : WithinAttempts cfg table' := by
  obtain ⟨⟨op, clock⟩, out⟩ := l
  intro id r' hr'
  have hfate := step_fate hload hstep id
  rw [hr'] at hfate
  generalize hold : recordIn table id = old at hfate
  cases hfate with
  | same => exact h id r' hold
  | accepted => exact ⟨Nat.zero_le _, fun _ => hmax⟩
  | dropped => exact ⟨(h id _ hold).1, nofun⟩
  | claimed hst => exact ⟨(h id _ hold).2 hst, nofun⟩
  | renewed hst => exact ⟨(h id _ hold).1, fun hp => absurd (hst.symm.trans hp) (by simp)⟩
  | completed => exact ⟨(h id _ hold).1, nofun⟩
  | @nacked _ _ _ requeue _ r =>
    refine givenBack_within (h id r hold).1 fun hnone => ?_
    by_contra hfull
    simp [not_lt.mp hfull] at hnone
  | @requeued _ _ r hst => exact ⟨(h id r hold).1, fun _ => hguard r hold hst⟩
  | deadlettered => exact ⟨(h id _ hold).1, nofun⟩
  | @swept _ _ _ _ r =>
    refine givenBack_within (h id r hold).1 fun hnone => ?_
    by_contra hfull
    simp [not_lt.mp hfull] at hnone

/-- **The attempt bound** holds in every run whose steps meet the condition. -/
theorem attempts_bounded (cfg : QueueConfig) (hmax : 1 ≤ cfg.maxAttempts)
    {history : List (Call × Outcome)} {table : Table} (h : QueueRun cfg history table)
    (hguard : (queueLTS cfg).Always [] history (AttemptGuard cfg)) :
    AttemptsBounded cfg history := by
  rintro before l after a c rfl hbefore hc
  obtain ⟨a', hbefore', hrest⟩ := LTS.Run.append_iff.mp h
  obtain rfl : a' = a := LTS.Run.unique hbefore' hbefore
  obtain ⟨b, hstep, -⟩ := LTS.Run.cons_iff.mp hrest
  have hcond : (queueLTS cfg).Always [] before (AttemptGuard cfg) := by
    rintro ks k rest x rfl hks
    exact hguard ks k (rest ++ l :: after) x (by simp) hks
  have key : Loaded (readQueueState a') ∧ WithinAttempts cfg a' :=
    LTS.Run.guarded (P := fun table => Loaded (readQueueState table) ∧ WithinAttempts cfg table)
      hbefore ⟨loaded_nil, by rintro id r ⟨⟩⟩ hcond fun x k y hxy hx ⟨hx₁, hx₂⟩ =>
        ⟨(perform_effect hx₁ hxy).1, within_step hmax hx₁ hxy hx hx₂⟩
  obtain ⟨⟨r, hr, hst, hattempt, -⟩, -⟩ := claims_step key.1 hstep hc
  have hlt := (key.2 c.messageId r hr).2 hst
  refine ⟨⟨by omega, by omega⟩, fun r' hr' => ?_⟩
  obtain rfl : r = r' := Option.some.inj (hr.symm.trans hr')
  exact hlt

/-- Two attempts, a message requeued with attempts left, and none after that. -/
theorem attempts_bounded_requeued :
    AttemptsBounded ⟨60000, 2⟩ (runCalls ⟨60000, 2⟩
      [⟨.accept (sampleEnvelope "a" none), steadyClock 1⟩, sampleClaim "u" 2,
        ⟨.requeue "a", steadyClock 3⟩, sampleClaim "v" 4, ⟨.nack "v" "failed" true, steadyClock 5⟩,
        sampleClaim "w" 6]).1 :=
  attempts_bounded ⟨60000, 2⟩ (by decide) (runCalls_run _ _)
    (LTS.ExecAlways.always (by decide +kernel))

/-- **`requeue` exceeds the attempts**: with `maxAttempts` 1 a dead-lettered message
is handed out a second time. -/
theorem attempts_bounded_broken :
    ¬ ∀ history table, QueueRun ⟨60000, 1⟩ history table → AttemptsBounded ⟨60000, 1⟩ history := by
  intro h
  let calls : List Call := [⟨.accept (sampleEnvelope "a" none), steadyClock 1⟩, sampleClaim "u" 2,
    ⟨.nack "u" "failed" true, steadyClock 3⟩, ⟨.requeue "a", steadyClock 4⟩, sampleClaim "v" 5]
  have hclaim : (claimOf ((runCalls ⟨60000, 1⟩ calls).1.get ⟨4, by decide⟩)).map Claim.attempt =
      some 2 := by decide +kernel
  obtain ⟨c, hc, hattempt⟩ := Option.map_eq_some_iff.mp hclaim
  have hbounded := h _ _ (runCalls_run _ calls) _ _ [] _ c rfl
    (runCalls_run ⟨60000, 1⟩ (calls.take 4)) (claimOf_eq_some.mp hc)
  have hle : c.attempt ≤ 1 := hbounded.1.2
  omega

end PulSeed.Queue
