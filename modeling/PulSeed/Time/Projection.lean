import PulSeed.Time.WaitAdvice

/-!
# When a goal will be reached (`platform/time/time-horizon-engine.ts`)

A projection gives three dates: the gap over the velocity from now, and the same with the
velocity raised and lowered by its standard deviation. Only the lowered velocity is kept from
falling below `EPSILON`, each date reads the clock anew, and a date that is too far away throws.

- `projectCompletion_eq_some`: what a projection gives, and when.
- `completion_iff`: **the dates exist and are in order exactly when they are in reach of the
  clock, the clock does not outrun the spread, and the velocity is not below its floor.**
-/

namespace PulSeed.Time

variable {clock : Clock} {gap velocity stddev : ℚ}

/-! ## One date -/

/-- The milliseconds in which a gap is closed at a velocity. -/
def closingTime (gap velocity : ℚ) : ℚ := gap / velocity * HOUR_MS

theorem closingTime_nonneg (hgap : 0 ≤ gap) (hvelocity : 0 < velocity) :
    0 ≤ closingTime gap velocity :=
  mul_nonneg (div_nonneg hgap hvelocity.le) (by decide +kernel)

/-- A gap is closed later at a smaller velocity. -/
theorem closingTime_anti {velocity' : ℚ} (hgap : 0 ≤ gap) (hpos : 0 < velocity')
    (h : velocity' ≤ velocity) : closingTime gap velocity ≤ closingTime gap velocity' :=
  mul_le_mul_of_nonneg_right (div_le_div_of_nonneg_left hgap hpos h) (by decide +kernel)

/-- There is a date for it. -/
def InReach (now : ℕ) (time : ℚ) : Prop := now + time ≤ maxTime

instance (now : ℕ) (time : ℚ) : Decidable (InReach now time) :=
  inferInstanceAs (Decidable (_ ≤ _))

theorem addHoursToNow_eq_some {now : ℕ} {t : TimeValue} (hgap : 0 ≤ gap) (hvelocity : 0 < velocity) :
    addHoursToNow now ((Number.finite gap).div (.finite velocity)) = some t ↔
      InReach now (closingTime gap velocity) ∧ t.ms = now + ⌊closingTime gap velocity⌋ := by
  have hnonneg := closingTime_nonneg hgap hvelocity
  unfold addHoursToNow InReach
  rw [Number.div_finite gap hvelocity.ne', Number.mul_finite, Number.add_finite,
    show gap / velocity * HOUR_MS = closingTime gap velocity from rfl, TimeValue.clip_eq_some,
    abs_of_nonneg (add_nonneg (Nat.cast_nonneg now) hnonneg), truncate_natCast_add now hnonneg]

/-- The date in reach. -/
theorem exists_timeValue {now : ℕ} {time : ℚ} (hnonneg : 0 ≤ time) (h : InReach now time) :
    ∃ t : TimeValue, t.ms = now + ⌊time⌋ := by
  have habs : |(now + time : ℚ)| ≤ maxTime := by
    rwa [abs_of_nonneg (add_nonneg (Nat.cast_nonneg now) hnonneg)]
  exact ⟨⟨truncate (now + time), truncate_bounded habs⟩, truncate_natCast_add now hnonneg⟩

/-! ## The three dates -/

/-- The lowered velocity. -/
def pessimisticVelocity (velocity stddev : ℚ) : ℚ := max (velocity - stddev) EPSILON

theorem pessimisticVelocity_pos : 0 < pessimisticVelocity velocity stddev :=
  effectiveVelocity_pos (velocity - stddev)

/-- The three dates of a projection exist. -/
structure DatesExist (clock : Clock) (gap velocity stddev : ℚ) : Prop where
  estimated : InReach clock.estimated (closingTime gap velocity)
  optimistic : InReach clock.optimistic (closingTime gap (velocity + stddev))
  pessimistic : InReach clock.pessimistic (closingTime gap (pessimisticVelocity velocity stddev))

/-- **What a projection gives.** -/
theorem projectCompletion_eq_some (hgap : 0 ≤ gap) (hvelocity : 0 < velocity) (hstddev : 0 ≤ stddev)
    {p : CompletionProjection} :
    projectCompletion clock (.finite velocity) (.finite stddev) (.finite gap) = some p ↔
      DatesExist clock gap velocity stddev ∧ ∃ estimated optimistic pessimistic : TimeValue,
        estimated.ms = clock.estimated + ⌊closingTime gap velocity⌋ ∧
        optimistic.ms = clock.optimistic + ⌊closingTime gap (velocity + stddev)⌋ ∧
        pessimistic.ms = clock.pessimistic +
          ⌊closingTime gap (pessimisticVelocity velocity stddev)⌋ ∧
        p = ⟨some estimated, some ⟨optimistic, pessimistic⟩, true⟩ := by
  unfold projectCompletion
  rw [Number.le_finite, if_neg (by simpa using hvelocity), Number.add_finite, Number.sub_finite,
    Number.max_finite]
  have hraised : 0 < velocity + stddev := add_pos_of_pos_of_nonneg hvelocity hstddev
  constructor
  · intro h
    obtain ⟨estimated, hestimated, h⟩ := Option.bind_eq_some_iff.mp h
    obtain ⟨optimistic, hoptimistic, h⟩ := Option.bind_eq_some_iff.mp h
    obtain ⟨pessimistic, hpessimistic, h⟩ := Option.bind_eq_some_iff.mp h
    obtain ⟨hreach, hest⟩ := (addHoursToNow_eq_some hgap hvelocity).mp hestimated
    obtain ⟨hreach', hopt⟩ := (addHoursToNow_eq_some hgap hraised).mp hoptimistic
    obtain ⟨hreach'', hpess⟩ :=
      (addHoursToNow_eq_some hgap (pessimisticVelocity_pos)).mp hpessimistic
    exact ⟨⟨hreach, hreach', hreach''⟩, estimated, optimistic, pessimistic, hest, hopt, hpess,
      (Option.some.inj h).symm⟩
  · rintro ⟨hreach, estimated, optimistic, pessimistic, hest, hopt, hpess, rfl⟩
    refine Option.bind_eq_some_iff.mpr ⟨estimated, ?_, ?_⟩
    · exact (addHoursToNow_eq_some hgap hvelocity).mpr ⟨hreach.estimated, hest⟩
    refine Option.bind_eq_some_iff.mpr ⟨optimistic, ?_, ?_⟩
    · exact (addHoursToNow_eq_some hgap hraised).mpr ⟨hreach.optimistic, hopt⟩
    refine Option.bind_eq_some_iff.mpr ⟨pessimistic, ?_, rfl⟩
    exact (addHoursToNow_eq_some hgap pessimisticVelocity_pos).mpr ⟨hreach.pessimistic, hpess⟩

/-- A projection does not throw when its dates exist. -/
theorem projectCompletion_isSome (hgap : 0 ≤ gap) (hvelocity : 0 < velocity)
    (hstddev : 0 ≤ stddev) :
    (projectCompletion clock (.finite velocity) (.finite stddev) (.finite gap)).isSome = true ↔
      DatesExist clock gap velocity stddev := by
  constructor
  · intro h
    obtain ⟨p, hp⟩ := Option.isSome_iff_exists.mp h
    exact ((projectCompletion_eq_some hgap hvelocity hstddev).mp hp).1
  · intro h
    have hraised : 0 < velocity + stddev := add_pos_of_pos_of_nonneg hvelocity hstddev
    obtain ⟨estimated, hest⟩ :=
      exists_timeValue (closingTime_nonneg hgap hvelocity) h.estimated
    obtain ⟨optimistic, hopt⟩ :=
      exists_timeValue (closingTime_nonneg hgap hraised) h.optimistic
    obtain ⟨pessimistic, hpess⟩ :=
      exists_timeValue (closingTime_nonneg hgap pessimisticVelocity_pos) h.pessimistic
    exact Option.isSome_iff_exists.mpr ⟨_, (projectCompletion_eq_some hgap hvelocity hstddev).mpr
      ⟨h, estimated, optimistic, pessimistic, hest, hopt, hpess, rfl⟩⟩

/-- The optimistic date is not after the estimated one, and this not after the pessimistic. -/
def CompletionProjection.IsInterval (p : CompletionProjection) : Prop :=
  ∃ estimated interval, p.estimatedDate = some estimated ∧ p.confidenceInterval = some interval ∧
    interval.optimistic ≤ estimated ∧ estimated ≤ interval.pessimistic

/-- The dates of a projection are in order: between the first and the second of them the clock
comes on no further than the standard deviation brings the second forward, and the velocity is
at least its floor, or the clock makes up for what the floor takes off. -/
structure DatesOrdered (clock : Clock) (gap velocity stddev : ℚ) : Prop where
  spread : (clock.optimistic : ℤ) - clock.estimated ≤
    ⌊closingTime gap velocity⌋ - ⌊closingTime gap (velocity + stddev)⌋
  floor : (EPSILON ≤ velocity ∧ clock.estimated ≤ clock.pessimistic) ∨
    ⌊closingTime gap velocity⌋ - ⌊closingTime gap (pessimisticVelocity velocity stddev)⌋ ≤
      (clock.pessimistic : ℤ) - clock.estimated

/-- Above its floor, a lowered velocity is not higher. -/
theorem floor_pessimistic (hgap : 0 ≤ gap) (hstddev : 0 ≤ stddev) (h : EPSILON ≤ velocity) :
    ⌊closingTime gap velocity⌋ ≤ ⌊closingTime gap (pessimisticVelocity velocity stddev)⌋ :=
  Int.floor_mono (closingTime_anti hgap pessimisticVelocity_pos
    (max_le (sub_le_self velocity hstddev) h))

/-- **A projection is an interval** when its dates exist and are in order. -/
theorem projection_iff (hgap : 0 ≤ gap) (hvelocity : 0 < velocity) (hstddev : 0 ≤ stddev) :
    (∃ p, projectCompletion clock (.finite velocity) (.finite stddev) (.finite gap) = some p ∧
      p.IsInterval) ↔
      DatesExist clock gap velocity stddev ∧ DatesOrdered clock gap velocity stddev := by
  constructor
  · rintro ⟨p, hp, estimated, interval, hestimated, hinterval, hopt, hpess⟩
    obtain ⟨hexist, est, opt, pess, hest, hopt', hpess', rfl⟩ :=
      (projectCompletion_eq_some hgap hvelocity hstddev).mp hp
    obtain rfl := Option.some.inj hestimated
    obtain rfl := Option.some.inj hinterval
    have hopt : opt.ms ≤ est.ms := hopt
    have hpess : est.ms ≤ pess.ms := hpess
    rw [hest] at hopt hpess
    rw [hopt'] at hopt
    rw [hpess'] at hpess
    exact ⟨hexist, by omega, .inr (by omega)⟩
  · rintro ⟨hexist, hordered⟩
    obtain ⟨p, hp⟩ := Option.isSome_iff_exists.mp
      ((projectCompletion_isSome hgap hvelocity hstddev).mpr hexist)
    refine ⟨p, hp, ?_⟩
    obtain ⟨-, est, opt, pess, hest, hopt, hpess, rfl⟩ :=
      (projectCompletion_eq_some hgap hvelocity hstddev).mp hp
    refine ⟨est, _, rfl, rfl, ?_, ?_⟩
    · show opt.ms ≤ est.ms
      have := hordered.spread
      omega
    · show est.ms ≤ pess.ms
      rcases hordered.floor with ⟨hfloor, hclock⟩ | hfloor
      · have := floor_pessimistic hgap hstddev hfloor
        omega
      · omega

/-! ## The pacing -/

/-- `evaluatePacing` asks for a projection. -/
def TimeHorizonConfig.Projects (config : TimeHorizonConfig) (deadline : Option Number)
    (history : List GapObservation) : Prop :=
  deadline.isSome = true ∧ config.min_observations_for_projection ≤ history.length

/-- **`evaluatePacing` throws only with the projection.** -/
theorem evaluatePacing_isSome {config : TimeHorizonConfig} {sqrt : Number → Number} {now : ℕ}
    {deadline : Option Number} {history : List GapObservation}
    (hvelocity : config.velocityPerHour history = .finite velocity)
    (hstddev : config.velocityStddev sqrt history = .finite stddev)
    (hpos : 0 < velocity) (hnonneg : 0 ≤ stddev) (hgap : 0 ≤ gap) :
    (config.evaluatePacing sqrt now clock (.finite gap) deadline history).isSome = true ↔
      (config.Projects deadline history → DatesExist clock gap velocity stddev) := by
  unfold TimeHorizonConfig.evaluatePacing TimeHorizonConfig.Projects
  rw [hvelocity, hstddev, ← projectCompletion_isSome hgap hpos hnonneg]
  cases deadline with
  | none => simp
  | some deadline =>
    by_cases hcount : (config.min_observations_for_projection : ℕ) ≤ history.length
    · cases hproject :
          projectCompletion clock (.finite velocity) (.finite stddev) (.finite gap) with
      | none => simp [hcount, hpos, hproject]
      | some p => simp [hcount, hpos, hproject]
    · simp [hcount]

/-- **When a completion is a valid, ordered interval.** -/
theorem completion_iff (config : TimeHorizonConfig) (sqrt : Number → Number) (now : ℕ)
    (clock clock' : Clock) (gap velocity stddev : ℚ) (deadline : Option Number)
    (history : List GapObservation)
    (hvelocity : config.velocityPerHour history = .finite velocity)
    (hstddev : config.velocityStddev sqrt history = .finite stddev)
    (hpos : 0 < velocity) (hnonneg : 0 ≤ stddev) (hgap : 0 ≤ gap) :
    ((config.evaluatePacing sqrt now clock (.finite gap) deadline history).isSome = true ∧
      ∃ p, projectCompletion clock' (config.velocityPerHour history)
        (config.velocityStddev sqrt history) (.finite gap) = some p ∧ p.IsInterval) ↔
      (config.Projects deadline history → DatesExist clock gap velocity stddev) ∧
        DatesExist clock' gap velocity stddev ∧ DatesOrdered clock' gap velocity stddev := by
  rw [evaluatePacing_isSome hvelocity hstddev hpos hnonneg hgap, hvelocity, hstddev,
    projection_iff hgap hpos hnonneg]

/-! ## Sample goals -/

/-- The sample goal is reached after two hours more. -/
theorem completion_iff_sample :
    (TimeHorizonConfig.evaluatePacing {} id 0 ⟨0, 0, 0⟩ (.finite (1 / 5)) (some (.finite 0))
      sampleHistory).isSome = true ∧
    ∃ p, projectCompletion ⟨0, 0, 0⟩ (TimeHorizonConfig.velocityPerHour {} sampleHistory)
      (TimeHorizonConfig.velocityStddev {} id sampleHistory) (.finite (1 / 5)) = some p ∧
      p.IsInterval := by
  have hexist : DatesExist ⟨0, 0, 0⟩ (1 / 5) (1 / 10) 0 :=
    ⟨by decide +kernel, by decide +kernel, by decide +kernel⟩
  exact (completion_iff {} id 0 ⟨0, 0, 0⟩ ⟨0, 0, 0⟩ (1 / 5) (1 / 10) 0 (some (.finite 0)) sampleHistory
    (by decide +kernel) (by decide +kernel) (by decide +kernel) (by decide +kernel)
    (by decide +kernel)).mpr
    ⟨fun _ => hexist, hexist, by decide +kernel, .inl ⟨by decide +kernel, by decide +kernel⟩⟩

/-- A gap that has come down by almost nothing in an hour. -/
def sampleTiny : List GapObservation :=
  [⟨.finite 0, .finite 1⟩, ⟨.finite 3600000, .finite (1 - 1 / 1000000000000)⟩]

/-- **There is no date so far away**: at this velocity the gap is closed in a trillion hours. -/
theorem completion_out_of_range : ¬ ∀ (config : TimeHorizonConfig) (sqrt : Number → Number)
    (clock : Clock) (gap velocity stddev : ℚ) (history : List GapObservation),
    config.velocityPerHour history = .finite velocity →
    config.velocityStddev sqrt history = .finite stddev →
    0 < velocity → 0 ≤ stddev → 0 ≤ gap ∧ gap ≤ 1 →
    ∃ p, projectCompletion clock (config.velocityPerHour history)
      (config.velocityStddev sqrt history) (.finite gap) = some p ∧ p.IsInterval := by
  intro h
  obtain ⟨p, hp, -⟩ := h {} id ⟨0, 0, 0⟩ (1 - 1 / 1000000000000) (1 / 1000000000000) 0 sampleTiny
    (by decide +kernel) (by decide +kernel) (by decide +kernel) (by decide +kernel)
    (by decide +kernel)
  have hnone : projectCompletion ⟨0, 0, 0⟩ (TimeHorizonConfig.velocityPerHour {} sampleTiny)
      (TimeHorizonConfig.velocityStddev {} id sampleTiny) (.finite (1 - 1 / 1000000000000)) =
        none := by decide +kernel
  rw [hnone] at hp
  cases hp

end PulSeed.Time
