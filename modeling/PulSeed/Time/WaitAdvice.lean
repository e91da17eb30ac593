import PulSeed.Time.TimeHorizon

/-!
# Whether a wait can be afforded (`platform/time/time-horizon-engine.ts`)

`canAffordWait` and `evaluatePacing` compute the same ratio, the velocity that the gap requires
over the one that there is. The first admits a wait up to the critical threshold, the second
counts the threshold itself as critical; and no wait can be afforded without progress.

- `affords_iff`: for the hours that remain after a wait, when the ratio is admitted.
- `waiting_advice`: **what `canAffordWait` says of every wait, and how this agrees with the
  pacing status after it.**
-/

namespace PulSeed.Time

variable {config : TimeHorizonConfig}

/-! ## The pacing status -/

theorem classifyStatus_critical {ratio : ℚ} :
    config.classifyStatus (.finite ratio) = .critical ↔
      config.pacing_thresholds.ahead.value ≤ ratio ∧
        config.pacing_thresholds.behind.value ≤ ratio ∧
          config.pacing_thresholds.critical.value ≤ ratio := by
  unfold TimeHorizonConfig.classifyStatus
  simp only [Number.lt_finite, decide_eq_true_eq]
  by_cases hahead : ratio < config.pacing_thresholds.ahead.value
  · rw [if_pos hahead]
    exact iff_of_false nofun fun h => not_le.mpr hahead h.1
  rw [if_neg hahead]
  by_cases hbehind : ratio < config.pacing_thresholds.behind.value
  · rw [if_pos hbehind]
    exact iff_of_false nofun fun h => not_le.mpr hbehind h.2.1
  rw [if_neg hbehind]
  by_cases hcritical : ratio < config.pacing_thresholds.critical.value
  · rw [if_pos hcritical]
    exact iff_of_false nofun fun h => not_le.mpr hcritical h.2.2
  rw [if_neg hcritical]
  exact iff_of_true rfl ⟨not_lt.mp hahead, not_lt.mp hbehind, not_lt.mp hcritical⟩

/-- The largest ratio is critical. -/
theorem classifyStatus_max : config.classifyStatus (.finite MAX_PACING_RATIO) = .critical :=
  classifyStatus_critical.mpr ⟨config.pacing_thresholds.ahead.bounded,
    config.pacing_thresholds.behind.bounded, config.pacing_thresholds.critical.bounded⟩

theorem clampPacingRatio_finite (q : ℚ) :
    clampPacingRatio (.finite q) = .finite (min (max q 0) MAX_PACING_RATIO) := by
  unfold clampPacingRatio
  rw [Number.isFinite_finite, Number.max_finite, Number.min_finite]
  rfl

theorem effectiveVelocity_finite (velocity : ℚ) :
    effectiveVelocity (.finite velocity) = .finite (max velocity EPSILON) :=
  Number.max_finite velocity EPSILON

theorem effectiveVelocity_pos (velocity : ℚ) : 0 < max velocity EPSILON :=
  lt_max_of_lt_right (by decide +kernel)

/-- A threshold is reached by the ratio as soon as by the clamped one. -/
theorem PacingThreshold.le_clamp (threshold : PacingThreshold) (q : ℚ) :
    threshold.value ≤ min (max q 0) MAX_PACING_RATIO ↔ threshold.value ≤ q := by
  rw [le_min_iff, le_max_iff]
  constructor
  · rintro ⟨h | h, -⟩
    · exact h
    · exact absurd threshold.positive (not_lt.mpr h)
  · exact fun h => ⟨.inl h, threshold.bounded⟩

/-- The ratio while there is time. -/
theorem pacingRatio_finite (gap velocity : ℚ) {hours : ℚ} (h : 0 < hours) :
    pacingRatio (.finite gap) (.finite hours) (.finite velocity) =
      .finite (min (max (gap / hours / max velocity EPSILON) 0) MAX_PACING_RATIO) := by
  unfold pacingRatio requiredVelocity
  rw [effectiveVelocity_finite, Number.lt_finite, if_pos (decide_eq_true h),
    Number.div_finite gap h.ne', Number.div_finite _ (effectiveVelocity_pos velocity).ne',
    clampPacingRatio_finite]

/-- The ratio when no time remains. -/
theorem pacingRatio_late (gap velocity : ℚ) {hours : Number}
    (h : (Number.finite 0).lt hours = false) :
    pacingRatio (.finite gap) hours (.finite velocity) = .finite MAX_PACING_RATIO := by
  unfold pacingRatio requiredVelocity
  rw [effectiveVelocity_finite, h, if_neg Bool.false_ne_true,
    Number.div_posInf (effectiveVelocity_pos velocity).le]
  rfl

/-- The status of a pacing result. -/
theorem evaluatePacing_status {sqrt : Number → Number} {now : ℕ} {clock : Clock} {gap : Number}
    {deadline : Option Number} {history : List GapObservation} {result : PacingResult}
    (h : config.evaluatePacing sqrt now clock gap deadline history = some result) :
    (result.timeRemainingHours = none → result.status = .no_deadline) ∧
      ∀ hours, result.timeRemainingHours = some hours →
        result.status = config.classifyStatus (pacingRatio gap hours result.velocityPerHour) := by
  unfold TimeHorizonConfig.evaluatePacing at h
  cases deadline with
  | none =>
    obtain rfl := Option.some.inj h
    exact ⟨fun _ => rfl, nofun⟩
  | some deadline =>
    obtain ⟨projection, -, h⟩ := Option.bind_eq_some_iff.mp h
    obtain rfl := Option.some.inj h
    refine ⟨nofun, fun hours hhours => ?_⟩
    obtain rfl := Option.some.inj hhours
    rfl

/-! ## The advice -/

/-- The ratio that `canAffordWait` compares with the threshold, while there is time. -/
def ratioAfter (gap velocity hours : ℚ) : ℚ := gap / hours / max velocity EPSILON

/-- What `canAffordWait` says when a number of hours remains after the wait. -/
def TimeHorizonConfig.affords (config : TimeHorizonConfig) (gap velocity hours : Number) : Bool :=
  if hours.le (.finite 0) then false
  else ((gap.div hours).div (velocity.max (.finite EPSILON))).le
    (.finite config.pacing_thresholds.critical.value)

theorem affords_finite (gap velocity : ℚ) {hours : ℚ} :
    config.affords (.finite gap) (.finite velocity) (.finite hours) = true ↔
      0 < hours ∧ ratioAfter gap velocity hours ≤ config.pacing_thresholds.critical.value := by
  unfold TimeHorizonConfig.affords
  rw [Number.le_finite, Number.max_finite]
  by_cases h : hours ≤ 0
  · rw [if_pos (decide_eq_true h)]
    exact iff_of_false Bool.false_ne_true fun hcontra => not_lt.mpr h hcontra.1
  · rw [if_neg (by simpa using h), Number.div_finite gap (not_le.mp h).ne',
      Number.div_finite _ (effectiveVelocity_pos velocity).ne', Number.le_finite,
      decide_eq_true_eq, and_iff_right (not_le.mp h)]
    rfl

/-- **The ratio is admitted** unless the status is critical, and exactly at the threshold. -/
theorem affords_iff (hahead : config.pacing_thresholds.ahead.value ≤
      config.pacing_thresholds.critical.value)
    (hbehind : config.pacing_thresholds.behind.value ≤ config.pacing_thresholds.critical.value)
    (gap velocity : ℚ) (hours : Number) :
    config.affords (.finite gap) (.finite velocity) hours = true ↔
      config.classifyStatus (pacingRatio (.finite gap) hours (.finite velocity)) ≠ .critical ∨
        ∃ h, hours = .finite h ∧ 0 < h ∧
          ratioAfter gap velocity h = config.pacing_thresholds.critical.value := by
  have hlate : ∀ hours, (Number.finite 0).lt hours = false →
      (config.classifyStatus (pacingRatio (.finite gap) hours (.finite velocity)) ≠ .critical ↔
        False) := by
    intro hours h
    rw [pacingRatio_late gap velocity h, classifyStatus_max]
    exact iff_of_false (fun hcontra => hcontra rfl) id
  cases hours with
  | nan =>
    rw [hlate .nan rfl]
    exact iff_of_false Bool.false_ne_true (by simp)
  | negInf =>
    rw [hlate .negInf rfl]
    exact iff_of_false Bool.false_ne_true (by simp)
  | posInf =>
    -- the ratio is 0
    have hratio : ((Number.finite gap).div .posInf).div (.finite (max velocity EPSILON)) =
        .finite 0 := by
      rw [show (Number.finite gap).div .posInf = .finite 0 from rfl,
        Number.div_finite 0 (effectiveVelocity_pos velocity).ne', zero_div]
    refine iff_of_true ?_ (.inl ?_)
    · unfold TimeHorizonConfig.affords
      rw [if_neg (by decide), Number.max_finite, hratio, Number.le_finite]
      exact decide_eq_true config.pacing_thresholds.critical.positive.le
    · unfold pacingRatio requiredVelocity
      rw [effectiveVelocity_finite, if_pos (by decide), hratio, clampPacingRatio_finite, Ne,
        classifyStatus_critical, PacingThreshold.le_clamp, PacingThreshold.le_clamp,
        PacingThreshold.le_clamp]
      exact fun hcontra => not_lt.mpr hcontra.1 config.pacing_thresholds.ahead.positive
  | finite h =>
    rw [affords_finite]
    by_cases hpos : 0 < h
    · rw [pacingRatio_finite gap velocity hpos, Ne, classifyStatus_critical,
        PacingThreshold.le_clamp, PacingThreshold.le_clamp, PacingThreshold.le_clamp,
        and_iff_right hpos]
      constructor
      · intro hle
        rcases hle.lt_or_eq with hlt | heq
        · exact .inl fun hcontra => not_lt.mpr hcontra.2.2 hlt
        · exact .inr ⟨h, rfl, hpos, heq⟩
      · rintro (hratio | ⟨h', hh, -, heq⟩)
        · exact le_of_not_ge fun hcontra =>
            hratio ⟨hahead.trans hcontra, hbehind.trans hcontra, hcontra⟩
        · cases hh
          exact heq.le
    · rw [hlate (.finite h) (by simpa using hpos)]
      refine iff_of_false (fun hcontra => hpos hcontra.1) ?_
      rintro (hcontra | ⟨h', hh, hcontra, -⟩)
      · exact hcontra
      · cases hh
        exact hpos hcontra

/-! ## Every wait -/

/-- What the time budget says of waits. -/
structure WaitAdvice (config : TimeHorizonConfig) (gap velocity : ℚ) (budget : TimeBudgetWithWait) :
    Prop where
  /-- Without a deadline every wait can be afforded, as long as there is progress. -/
  no_deadline : budget.remainingHours = none →
    ∀ w, budget.canAffordWait (.finite w) = true ↔ 0 < velocity
  /-- With one, a wait that leaves time in which the gap can be closed with the threshold. -/
  deadline : ∀ h, budget.remainingHours = some (.finite h) →
    ∀ w, budget.canAffordWait (.finite w) = true ↔ 0 < velocity ∧ w < h ∧
      ratioAfter gap velocity (h - w) ≤ config.pacing_thresholds.critical.value
  /-- When no other threshold is above the critical one, these are the waits after which the
  pacing is not critical, or exactly at the threshold. -/
  agrees : config.pacing_thresholds.ahead.value ≤ config.pacing_thresholds.critical.value →
    config.pacing_thresholds.behind.value ≤ config.pacing_thresholds.critical.value →
    ∀ w sqrt now clock deadline history result,
      config.evaluatePacing sqrt now clock (.finite gap) deadline history = some result →
      result.velocityPerHour = .finite velocity →
      result.timeRemainingHours = budget.remainingHours.map (·.sub (.finite w)) →
      (budget.canAffordWait (.finite w) = true ↔ 0 < velocity ∧ (result.status ≠ .critical ∨
        ∃ h, result.timeRemainingHours = some (.finite h) ∧ 0 < h ∧
          ratioAfter gap velocity h = config.pacing_thresholds.critical.value))
  /-- A shorter wait can be afforded, too. -/
  monotone : ∀ w w', 0 ≤ w' → w' ≤ w → budget.canAffordWait (.finite w) = true →
    budget.canAffordWait (.finite w') = true

/-- What `canAffordWait` says. -/
theorem canAffordWait_eq (now : ℕ) (deadline : Option Number) (startTime initialGap : Number)
    (gap velocity w : ℚ) :
    (config.getTimeBudget now deadline startTime (.finite gap) initialGap
      (.finite velocity)).canAffordWait (.finite w) = true ↔ 0 < velocity ∧
        ∀ hours, deadline.map (hoursBetween (.finite now)) = some hours →
          config.affords (.finite gap) (.finite velocity) (hours.sub (.finite w)) = true := by
  unfold TimeHorizonConfig.getTimeBudget
  dsimp only
  rw [Number.le_finite]
  by_cases h : velocity ≤ 0
  · rw [if_pos (decide_eq_true h)]
    exact iff_of_false Bool.false_ne_true fun hcontra => not_lt.mpr h hcontra.1
  rw [if_neg (by simpa using h), and_iff_right (not_le.mp h)]
  cases deadline with
  | none => exact iff_of_true rfl fun hours hcontra => nomatch hcontra
  | some deadline =>
    constructor
    · intro hafford hours hhours
      obtain rfl := Option.some.inj hhours
      exact hafford
    · exact fun hafford => hafford _ rfl

/-- A smaller wait leaves a smaller ratio. -/
theorem affords_mono (gap velocity : ℚ) (hours : Number) {w w' : ℚ} (hw : w' ≤ w)
    (h : config.affords (.finite gap) (.finite velocity) (hours.sub (.finite w)) = true) :
    config.affords (.finite gap) (.finite velocity) (hours.sub (.finite w')) = true := by
  cases hours with
  | nan | negInf | posInf => exact h
  | finite q =>
    rw [Number.sub_finite, affords_finite] at h ⊢
    obtain ⟨hpos, hratio⟩ := h
    have hle : q - w ≤ q - w' := sub_le_sub_left hw q
    refine ⟨hpos.trans_le hle, ?_⟩
    unfold ratioAfter at hratio ⊢
    have hvelocity := (effectiveVelocity_pos velocity).le
    rcases le_or_gt 0 gap with hgap | hgap
    · refine le_trans ?_ hratio
      gcongr
    · -- a gap that is closed requires nothing
      refine le_trans ?_ config.pacing_thresholds.critical.positive.le
      exact div_nonpos_of_nonpos_of_nonneg
        (div_nonpos_of_nonpos_of_nonneg hgap.le (hpos.trans_le hle).le) hvelocity

/-- **Waiting and pacing**: what `canAffordWait` says of every wait. -/
theorem waiting_advice (config : TimeHorizonConfig) (now : ℕ) (deadline : Option Number)
    (startTime initialGap : Number) (gap velocity : ℚ) :
    WaitAdvice config gap velocity (config.getTimeBudget now deadline startTime (.finite gap)
      initialGap (.finite velocity)) := by
  refine ⟨fun hnone w => ?_, fun h hsome w => ?_, ?_, ?_⟩
  · have hnone : deadline.map (hoursBetween (.finite now)) = none := hnone
    rw [canAffordWait_eq, hnone]
    exact and_iff_left nofun
  · have hsome : deadline.map (hoursBetween (.finite now)) = some (.finite h) := hsome
    rw [canAffordWait_eq, hsome]
    simp only [Option.some.injEq, forall_eq']
    rw [Number.sub_finite, affords_finite, sub_pos]
  · intro hahead hbehind w sqrt now' clock deadline' history result heval hvelocity hremaining
    have hremaining : result.timeRemainingHours =
        (deadline.map (hoursBetween (.finite now))).map (·.sub (.finite w)) := hremaining
    obtain ⟨hnone, hstatus⟩ := evaluatePacing_status heval
    rw [canAffordWait_eq]
    refine and_congr_right fun _ => ?_
    cases hhours : deadline.map (hoursBetween (.finite now)) with
    | none =>
      rw [hhours] at hremaining
      rw [hnone hremaining]
      exact iff_of_true nofun (.inl nofun)
    | some hours =>
      rw [hhours] at hremaining
      rw [hstatus _ hremaining, hremaining, hvelocity]
      simp only [Option.some.injEq, forall_eq', Option.map_some]
      exact affords_iff hahead hbehind gap velocity (hours.sub (.finite w))
  · intro w w' _ hw hafford
    rw [canAffordWait_eq] at hafford ⊢
    exact ⟨hafford.1, fun hours hhours => affords_mono gap velocity hours hw (hafford.2 hours hhours)⟩

/-! ## A sample goal -/

/-- A gap that has come down from 3/10 to 1/5 in an hour. -/
def sampleHistory : List GapObservation :=
  [⟨.finite 0, .finite (3 / 10)⟩, ⟨.finite 3600000, .finite (1 / 5)⟩]

/-- What the engine says of the sample, an hour before its deadline. -/
def samplePacing : Option PacingResult :=
  TimeHorizonConfig.evaluatePacing {} id 3600000 ⟨0, 0, 0⟩ (.finite (1 / 5)) (some (.finite 7200000))
    sampleHistory

/-- What the engine says of waits, two hours before its deadline. -/
def sampleBudget : TimeBudgetWithWait :=
  TimeHorizonConfig.getTimeBudget {} 0 (some (.finite 7200000)) (.finite 0) (.finite (1 / 5))
    (.finite (3 / 10)) (.finite (1 / 10))

/-- **The threshold itself is affordable and critical**: after an hour's wait the gap requires
twice the velocity that there is. -/
theorem affordable_and_critical : ¬ ∀ (config : TimeHorizonConfig) (now : ℕ)
    (deadline : Option Number) (startTime initialGap : Number) (gap velocity w : ℚ)
    (sqrt : Number → Number) (now' : ℕ) (clock : Clock) (deadline' : Option Number)
    (history : List GapObservation) (result : PacingResult),
    config.evaluatePacing sqrt now' clock (.finite gap) deadline' history = some result →
    result.velocityPerHour = .finite velocity →
    result.timeRemainingHours = (config.getTimeBudget now deadline startTime (.finite gap)
      initialGap (.finite velocity)).remainingHours.map (·.sub (.finite w)) →
    ((config.getTimeBudget now deadline startTime (.finite gap) initialGap
      (.finite velocity)).canAffordWait (.finite w) = true ↔ result.status ≠ .critical) := by
  intro h
  have hstatus : samplePacing.map (·.status) = some .critical := by decide +kernel
  have hvelocity : samplePacing.map (·.velocityPerHour) = some (.finite (1 / 10)) := by
    decide +kernel
  have hremaining : samplePacing.map (·.timeRemainingHours) =
      some (sampleBudget.remainingHours.map (·.sub (.finite 1))) := by decide +kernel
  have hafford : sampleBudget.canAffordWait (.finite 1) = true := by decide +kernel
  obtain ⟨result, hresult, hcritical⟩ := Option.map_eq_some_iff.mp hstatus
  rw [hresult] at hvelocity hremaining
  exact (h _ _ _ _ _ _ _ _ _ _ _ _ _ result hresult (Option.some.inj hvelocity)
    (Option.some.inj hremaining)).mp hafford hcritical

end PulSeed.Time
