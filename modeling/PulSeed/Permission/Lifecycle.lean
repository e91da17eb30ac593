import PulSeed.Permission.Grant

/-!
# The lifecycle of a permission grant

What any transaction of the store may do to a stored grant is one relation,
`Advances`: the states `expired`, `revoked` and `superseded` are never left for a live
one, the duration is fixed and the use counter does not fall. `perform_advances` proves
it once for every transaction; whatever holds of the lifecycle over a whole run, in any
order of the callers' transactions and with any clock values, follows from it
(`grant_lifecycle`).
-/

namespace PulSeed.Grant

/-- The states a grant does not leave for a live one. -/
def PermissionGrantState.isTerminal : PermissionGrantState → Bool
  | .expired | .revoked | .superseded => true
  | .proposed | .active => false

/-- What a transaction may do to a stored grant. -/
structure Advances (r r' : PermissionGrantRecord) : Prop where
  terminal : r.state.isTerminal = true → r'.state.isTerminal = true
  duration : r'.duration = r.duration
  usageCount : r.usageCount ≤ r'.usageCount

theorem Advances.refl (r : PermissionGrantRecord) : Advances r r := ⟨id, rfl, le_refl _⟩

theorem Advances.trans {r r' r'' : PermissionGrantRecord} (h : Advances r r')
    (h' : Advances r' r'') : Advances r r'' :=
  ⟨fun ht => h'.terminal (h.terminal ht), h'.duration.trans h.duration,
    h.usageCount.trans h'.usageCount⟩

/-! ## The updaters -/

section Updaters

variable (r : PermissionGrantRecord)

theorem activateUpdater_advances (activatedAt : Millis) (auditRefs : Option (List String)) :
    Advances r (activateUpdater activatedAt auditRefs r) := by
  unfold activateUpdater
  split
  · exact .refl r
  · next hlive =>
    -- the guard: a grant in a terminal state is returned as it is
    refine ⟨fun hterm => absurd ?_ hlive, rfl, le_refl _⟩
    cases hstate : r.state <;> simp_all [PermissionGrantState.isTerminal]

theorem expireUpdater_advances (expiredAt : Millis) (auditRefs : List String) :
    Advances r (expireUpdater expiredAt auditRefs r) := ⟨fun _ => rfl, rfl, le_refl _⟩

theorem revokeUpdater_advances (revokedAt : Millis) (input : RevocationInput) :
    Advances r (revokeUpdater revokedAt input r) := ⟨fun _ => rfl, rfl, le_refl _⟩

theorem markStaleUpdater_advances (staleAt : Millis) (reason : String)
    (auditRefs : Option (List String)) :
    Advances r (markStaleUpdater staleAt reason auditRefs r) := ⟨id, rfl, le_refl _⟩

theorem reviewUpdater_advances (reviewedAt nextReviewDueAt : Millis)
    (auditRefs : Option (List String)) :
    Advances r (reviewUpdater reviewedAt nextReviewDueAt auditRefs r) := by
  unfold reviewUpdater
  split
  · exact .refl r
  · exact ⟨id, rfl, le_refl _⟩

theorem recordUseUpdater_usageCount (usedAt : Millis) (auditRef : Option String) :
    (recordUseUpdater usedAt auditRef r).usageCount = r.usageCount + 1 := by
  unfold recordUseUpdater
  split <;> rfl

theorem recordUseUpdater_advances (usedAt : Millis) (auditRef : Option String) :
    Advances r (recordUseUpdater usedAt auditRef r) := by
  have hcount : r.usageCount ≤ (recordUseUpdater usedAt auditRef r).usageCount := by
    rw [recordUseUpdater_usageCount]
    exact le_add_of_nonneg_right zero_le_one
  refine ⟨fun hterm => ?_, ?_, hcount⟩
  · unfold recordUseUpdater
    split
    · exact hterm
    · rfl
  · unfold recordUseUpdater
    split <;> rfl

theorem supersedeUpdater_advances (supersededAt : Millis) (replacementId : String)
    (auditRefs : Option (List String)) :
    Advances r (supersedeUpdater supersededAt replacementId auditRefs r) :=
  ⟨fun _ => rfl, rfl, le_refl _⟩

end Updaters

/-! ## The transactions -/

/-- Every grant of `t` is in `t'`, advanced. -/
def AllAdvance (t t' : GrantTable) : Prop :=
  ∀ grantId g, t.get? grantId = some g →
    ∃ g', t'.get? grantId = some g' ∧ Advances g.record g'.record

theorem AllAdvance.refl (t : GrantTable) : AllAdvance t t := fun _ g h => ⟨g, h, .refl _⟩

/-- Replacing a grant by one that advances it. -/
theorem AllAdvance.set {t : GrantTable} {grantId : String} {g' : ParsedGrant}
    (h : ∀ g, t.get? grantId = some g → Advances g.record g'.record) :
    AllAdvance t (t.set grantId g') := by
  intro id g hg
  rw [ObjectMap.get?_set]
  by_cases hid : id = grantId
  · subst hid
    exact ⟨g', if_pos rfl, h g hg⟩
  · exact ⟨g, (if_neg hid).trans hg, .refl _⟩

theorem update_advances {updater : PermissionGrantRecord → PermissionGrantRecord}
    (hup : ∀ r, Advances r (updater r)) (t : GrantTable) (grantId : String)
    (requireActive : Option Millis) : AllAdvance t (update t grantId updater requireActive).1 := by
  unfold update
  split
  · exact .refl t
  · next current hcurrent =>
    split
    · exact .refl t
    · split
      · exact .refl t
      · next updated hparse =>
        refine .set fun g hg => ?_
        obtain rfl : current = g := Option.some.inj (hcurrent.symm.trans hg)
        rw [PermissionGrantRecord.parse_record hparse]
        exact hup _

/-- When `update` returns a record: the row was there and, where that is required,
active; the record is the updater's, and it is stored. -/
theorem update_returned {t t' : GrantTable} {grantId : String}
    {updater : PermissionGrantRecord → PermissionGrantRecord} {requireActive : Option Millis}
    {record : PermissionGrantRecord}
    (h : update t grantId updater requireActive = (t', .returned record)) :
    ∃ current updated, t.get? grantId = some current ∧
      (∀ now, requireActive = some now →
        isPermissionGrantCurrentlyActive current.record now = true) ∧
      updated.record = updater current.record ∧ record = updated.record ∧
      t'.get? grantId = some updated := by
  unfold update at h
  split at h
  · cases h
  · next current hcurrent =>
    split at h
    · cases h
    · next hactive =>
      split at h
      · cases h
      · next updated hparse =>
        cases h
        refine ⟨current, updated, hcurrent, ?_, PermissionGrantRecord.parse_record hparse, rfl,
          ObjectMap.get?_set_self ..⟩
        rintro now rfl
        simpa using hactive

/-- A grant is only created under an unused id. -/
theorem create_advances (t : GrantTable) (input : PermissionGrantCreateInput)
    (state : PermissionGrantState) (now : Millis) : AllAdvance t (create t input state now).1 := by
  unfold create
  split
  · exact .refl t
  · next hnone =>
    split
    · exact .refl t
    · refine .set fun g hg => ?_
      rw [hnone] at hg
      cases hg

theorem supersedeCreate_advances (s : GrantStore) (k : Nat) (now : Millis) :
    AllAdvance s.grants (supersedeCreate s k now).1.grants := by
  unfold supersedeCreate
  split
  · next grantId supersededAt input auditRefs _ =>
    have h := create_advances s.grants input .proposed now
    split
    · next hcreate => rwa [hcreate] at h
    · next hcreate => rwa [hcreate] at h
  · exact .refl _

theorem supersedeUpdate_advances (s : GrantStore) (k : Nat) :
    AllAdvance s.grants (supersedeUpdate s k).1.grants := by
  unfold supersedeUpdate
  split
  · exact update_advances (fun r => supersedeUpdater_advances r _ _ _) _ _ _
  · exact .refl _

/-- **Every transaction advances every grant.** -/
theorem perform_advances (s : GrantStore) (op : GrantOp) :
    AllAdvance s.grants (perform s op).1.grants := by
  cases op with
  | createProposed input now => exact create_advances _ _ _ _
  | createActive input now => exact create_advances _ _ _ _
  | activate => exact update_advances (fun r => activateUpdater_advances r _ _) _ _ _
  | expire => exact update_advances (fun r => expireUpdater_advances r _ _) _ _ _
  | revoke => exact update_advances (fun r => revokeUpdater_advances r _ _) _ _ _
  | markStale => exact update_advances (fun r => markStaleUpdater_advances r _ _ _) _ _ _
  | review => exact update_advances (fun r => reviewUpdater_advances r _ _ _) _ _ _
  | recordUse => exact update_advances (fun r => recordUseUpdater_advances r _ _) _ _ _
  | supersedeLoad grantId replacement supersededAt auditRefs now =>
    show AllAdvance s.grants (supersedeLoad s _ _ _ _).1.grants
    unfold supersedeLoad
    split
    · exact .refl _
    · split <;> exact .refl _
  | supersedeCreate k now => exact supersedeCreate_advances s k now
  | supersedeUpdate k => exact supersedeUpdate_advances s k

/-- The grants of a store advance along every run. -/
theorem run_advances {s s' : GrantStore} {hist : List (GrantOp × GrantOutcome)}
    (h : grantLTS.Run s hist s') : AllAdvance s.grants s'.grants := by
  intro grantId g hg
  refine h.invariant (P := fun t => ∃ g', t.grants.get? grantId = some g' ∧
    Advances g.record g'.record) ⟨g, hg, .refl _⟩ ?_
  rintro a l b hstep ⟨g₁, hg₁, hadv⟩
  obtain rfl : (perform a l.1).1 = b := congrArg Prod.fst hstep
  obtain ⟨g₂, hg₂, hadv₂⟩ := perform_advances a l.1 grantId g₁ hg₁
  exact ⟨g₂, hg₂, hadv.trans hadv₂⟩

/-! ## Uses of a grant of duration `once` -/

/-- A use of the grant that succeeded, the grant being of duration `once`. -/
def isOnceUse (grantId : String) : GrantOp × GrantOutcome → Bool
  | (.recordUse id _ _ _ _, .returned record) => id == grantId && record.duration == .once
  | _ => false

theorem ParsedGrant.usageCount_nonneg (g : ParsedGrant) : 0 ≤ g.record.usageCount := by
  obtain ⟨n, hn⟩ := Option.isSome_iff_exists.mp
    (g.isValid.1.2.1 g.record.usageCount (by simp))
  rw [← SafeInt.parse_millis hn]
  exact Rat.natCast_nonneg

theorem not_active_of_terminal {r : PermissionGrantRecord} (h : r.state.isTerminal = true)
    (now : Millis) : isPermissionGrantCurrentlyActive r now = false := by
  unfold isPermissionGrantCurrentlyActive
  cases hstate : r.state <;> simp_all [PermissionGrantState.isTerminal]

/-- A grant of duration `once` that has been used is not active. -/
theorem not_active_of_used {r : PermissionGrantRecord} (hdur : r.duration = .once)
    (hused : 0 < r.usageCount) (now : Millis) :
    isPermissionGrantCurrentlyActive r now = false := by
  unfold isPermissionGrantCurrentlyActive
  simp [hdur, hused]

/-- **A successful use found the grant active and unused**, and leaves it used. -/
theorem once_use_step {s s' : GrantStore} {l : GrantOp × GrantOutcome} {grantId : String}
    (hstep : grantLTS.step s l s') (huse : isOnceUse grantId l = true) :
    (∀ g, s.grants.get? grantId = some g → g.record.duration = .once →
      g.record.usageCount = 0) ∧
    ∃ g', s'.grants.get? grantId = some g' ∧ g'.record.duration = .once ∧
      0 < g'.record.usageCount := by
  obtain ⟨op, out⟩ := l
  cases op with
  | recordUse id usedAt auditRef now usedNow =>
    cases out with
    | returned record =>
      rw [isOnceUse, Bool.and_eq_true, beq_iff_eq, beq_iff_eq] at huse
      obtain ⟨rfl, hdur⟩ := huse
      have hgrants := congrArg (fun p => (p.1.grants, p.2)) hstep
      obtain ⟨current, updated, hcurrent, hactive, hupdated, rfl, hget⟩ := update_returned hgrants
      constructor
      · intro g hg hg_once
        obtain rfl : current = g := Option.some.inj (hcurrent.symm.trans hg)
        rcases current.usageCount_nonneg.lt_or_eq with hpos | hzero
        · have := hactive now rfl
          rw [not_active_of_used hg_once hpos] at this
          cases this
        · exact hzero.symm
      · refine ⟨updated, hget, hdur, ?_⟩
        rw [hupdated, recordUseUpdater_usageCount]
        exact lt_of_lt_of_le zero_lt_one (le_add_of_nonneg_left current.usageCount_nonneg)
    | null => cases huse
    | threw => cases huse
  | _ => cases huse

/-- The uses of a `once` grant so far, and what a use leaves behind. -/
def UsedAtMostOnce (grantId : String) (hist : List (GrantOp × GrantOutcome))
    (s : GrantStore) : Prop :=
  hist.countP (isOnceUse grantId) ≤ 1 ∧
    (0 < hist.countP (isOnceUse grantId) → ∃ g, s.grants.get? grantId = some g ∧
      g.record.duration = .once ∧ 0 < g.record.usageCount)

theorem run_usedAtMostOnce {s s' : GrantStore} {hist : List (GrantOp × GrantOutcome)}
    (h : grantLTS.Run s hist s') (grantId : String) : UsedAtMostOnce grantId hist s' := by
  refine h.history (P := UsedAtMostOnce grantId) ⟨Nat.zero_le _, by simp⟩ ?_
  rintro hist a l b - hstep ⟨hle, hused⟩
  have hcount : (hist ++ [l]).countP (isOnceUse grantId) =
      hist.countP (isOnceUse grantId) + if isOnceUse grantId l then 1 else 0 := by
    rw [List.countP_append, List.countP_singleton]
  by_cases huse : isOnceUse grantId l = true
  · obtain ⟨hbefore, hafter⟩ := once_use_step hstep huse
    refine ⟨?_, fun _ => hafter⟩
    -- an earlier use would have left the counter above zero
    have hnone : ¬ 0 < hist.countP (isOnceUse grantId) := by
      intro hpos
      obtain ⟨g, hg, hdur, hcountpos⟩ := hused hpos
      exact absurd (hbefore g hg hdur) hcountpos.ne'
    rw [hcount, if_pos huse]
    omega
  · rw [UsedAtMostOnce, hcount, if_neg huse, Nat.add_zero]
    refine ⟨hle, fun hpos => ?_⟩
    obtain ⟨g, hg, hdur, hcountpos⟩ := hused hpos
    obtain rfl : (perform a l.1).1 = b := congrArg Prod.fst hstep
    obtain ⟨g', hg', hadv⟩ := perform_advances a l.1 grantId g hg
    exact ⟨g', hg', hadv.duration.trans hdur, hcountpos.trans_le hadv.usageCount⟩

/-! ## The lifecycle -/

/-- **Lifecycle of a grant.** In every run, from any store, with any clock values and
any interleaving of the callers' transactions: a grant that was revoked, expired or
superseded is never again reported active; a grant whose time had passed at some clock
value is not active at any later one; and a grant of duration `once` is used
successfully at most once. -/
theorem grant_lifecycle {s s' : GrantStore} {hist : List (GrantOp × GrantOutcome)}
    (hrun : grantLTS.Run s hist s') (grantId : String) :
    (∀ g, s.grants.get? grantId = some g → g.record.state.isTerminal = true →
      ∃ g', s'.grants.get? grantId = some g' ∧
        ∀ now, isPermissionGrantCurrentlyActive g'.record now = false) ∧
    (∀ g now, s.grants.get? grantId = some g → isPermissionGrantExpired g.record now = true →
      ∃ g', s'.grants.get? grantId = some g' ∧
        ∀ later, now ≤ later → isPermissionGrantCurrentlyActive g'.record later = false) ∧
    hist.countP (isOnceUse grantId) ≤ 1 := by
  refine ⟨fun g hg hterm => ?_, fun g now hg hexpired => ?_, (run_usedAtMostOnce hrun grantId).1⟩
  · obtain ⟨g', hg', hadv⟩ := run_advances hrun grantId g hg
    exact ⟨g', hg', not_active_of_terminal (hadv.terminal hterm)⟩
  · obtain ⟨g', hg', hadv⟩ := run_advances hrun grantId g hg
    refine ⟨g', hg', fun later hlater => ?_⟩
    unfold isPermissionGrantExpired at hexpired
    rcases Bool.or_eq_true_iff.mp hexpired with hstate | hdur
    · have hterm : g.record.state.isTerminal = true := by rw [beq_iff_eq.mp hstate]; rfl
      exact not_active_of_terminal (hadv.terminal hterm) later
    · cases hd : g.record.duration with
      | expiresAt t =>
        rw [hd] at hdur
        have hpassed : t ≤ later := (of_decide_eq_true hdur).trans hlater
        have hexpired' : isPermissionGrantExpired g'.record later = true := by
          unfold isPermissionGrantExpired
          rw [hadv.duration, hd]
          simp [hpassed]
        unfold isPermissionGrantCurrentlyActive
        simp [hexpired']
      | _ => rw [hd] at hdur; cases hdur

/-- A grant to read the workspace once. -/
def sampleGrant : PermissionGrantCreateInput where
  grantId := "grant-1"
  subject := { kind := .agent, id := "agent-1" }
  origin := { channel := "cli" }
  source := .sourceRef "message-1" none
  scope := { kind := .run, runId := some "run-1" }
  duration := .once
  capabilities := [.readWorkspace]

/-- The store after the grant was created and used, and a second use was refused. -/
def sampleUsed : GrantStore :=
  (LTS.exec perform ⟨ObjectMap.empty, []⟩ [.createActive sampleGrant 10,
    .recordUse "grant-1" none none 12 12, .recordUse "grant-1" none none 11 11]).2

/-- Attempts to bring the used grant back, with a clock that has gone backwards. -/
def sampleRevival : List GrantOp :=
  [.activate "grant-1" none none 5, .review "grant-1" none 20 none 6,
    .markStale "grant-1" none "moved" none 7, .recordUse "grant-1" none none 8 8]

theorem grant_lifecycle_sample :
    (∃ g, sampleUsed.grants.get? "grant-1" = some g ∧ g.record.state = .expired ∧
      g.record.usageCount = 1) ∧
    (∃ g', (LTS.exec perform sampleUsed sampleRevival).2.grants.get? "grant-1" = some g' ∧
      ∀ now, isPermissionGrantCurrentlyActive g'.record now = false) ∧
    (LTS.exec perform sampleUsed sampleRevival).1.countP (isOnceUse "grant-1") ≤ 1 := by
  have hused : (sampleUsed.grants.get? "grant-1").any (fun g =>
      decide (g.record.state = .expired ∧ g.record.usageCount = 1)) = true := by decide +kernel
  obtain ⟨g, hg, hstate⟩ := (Option.any_eq_true _ _).mp hused
  have hstate := of_decide_eq_true hstate
  have h := grant_lifecycle (LTS.run_exec perform sampleUsed sampleRevival) "grant-1"
  exact ⟨⟨g, hg, hstate⟩, h.1 g hg (by rw [hstate.1]; rfl), h.2.2⟩

end PulSeed.Grant
