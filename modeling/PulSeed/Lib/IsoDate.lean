import Mathlib.Data.Nat.Find
import Mathlib.Order.Monotone.Basic

/-!
# Dates as texts

A `Datetime` is a text such as `2026-02-03T10:00:00.5Z`, by its fields: a day of the proleptic
Gregorian calendar in a year of four digits, a time of the day in UTC, with seconds or without,
and any number of digits of their fraction. `Datetime.ms` is the instant that a text stands for,
in whole milliseconds since the epoch, and `toISOString` the text of an instant, with three
digits. It is a text of the same instant (`ms_toISOString`), and every instant of a text has one
(`exists_toISOString`).
-/

namespace PulSeed

/-! ## The calendar -/

def isLeap (year : ℕ) : Bool := year % 4 = 0 && (year % 100 ≠ 0 || year % 400 = 0)

/-- The days before a year, since the start of the year 0. -/
def yearStart (year : ℕ) : ℕ := 365 * year + (year + 3) / 4 - (year + 99) / 100 + (year + 399) / 400

theorem le_yearStart (year : ℕ) : 365 * year ≤ yearStart year := by
  unfold yearStart
  omega

theorem yearStart_succ (year : ℕ) :
    yearStart (year + 1) = yearStart year + if isLeap year then 366 else 365 := by
  have hfour : (year + 1 + 3) / 4 = (year + 3) / 4 + if year % 4 = 0 then 1 else 0 := by
    split <;> omega
  have hhundred : (year + 1 + 99) / 100 = (year + 99) / 100 + if year % 100 = 0 then 1 else 0 := by
    split <;> omega
  have hfourhundred : (year + 1 + 399) / 400 = (year + 399) / 400 +
      if year % 400 = 0 then 1 else 0 := by
    split <;> omega
  have hnest : (year + 99) / 100 ≤ 365 * year + (year + 3) / 4 := by omega
  unfold yearStart isLeap
  rw [hfour, hhundred, hfourhundred]
  by_cases h4 : year % 4 = 0
  · by_cases h100 : year % 100 = 0
    · by_cases h400 : year % 400 = 0
      · simp only [h4, h100, h400, decide_true, Bool.or_true, Bool.and_true, if_true]
        omega
      · simp only [h4, h100, h400, decide_true, decide_false, ne_eq, not_true, Bool.or_false,
          Bool.and_false, if_true, if_false, Bool.false_eq_true]
        omega
    · have h400 : ¬ year % 400 = 0 := by omega
      simp only [h4, h100, h400, decide_true, decide_false, ne_eq, not_false_eq_true,
        Bool.true_or, Bool.and_true, if_true, if_false]
      omega
  · have h100 : ¬ year % 100 = 0 := by omega
    have h400 : ¬ year % 400 = 0 := by omega
    simp only [h4, h100, h400, decide_false, Bool.false_and, if_false, Bool.false_eq_true]
    omega

theorem yearStart_mono : Monotone yearStart := by
  refine monotone_nat_of_le_succ fun year => ?_
  rw [yearStart_succ]
  exact Nat.le_add_right _ _

/-- The length of a month; months are counted from 0. -/
def monthLength (leap : Bool) (month : ℕ) : ℕ :=
  if month = 1 then if leap then 29 else 28
  else if month = 3 ∨ month = 5 ∨ month = 8 ∨ month = 10 then 30
  else 31

/-- The days of the year before a month. -/
def monthStart (leap : Bool) : ℕ → ℕ
  | 0 => 0
  | month + 1 => monthStart leap month + monthLength leap month

theorem monthStart_twelve (leap : Bool) : monthStart leap 12 = if leap then 366 else 365 := by
  cases leap <;> rfl

theorem monthStart_mono (leap : Bool) : Monotone (monthStart leap) :=
  monotone_nat_of_le_succ fun _ => Nat.le_add_right _ _

/-- The year of a day. -/
def yearOf (day : ℕ) : ℕ := Nat.findGreatest (fun year => yearStart year ≤ day) (day / 365)

theorem yearStart_yearOf_le (day : ℕ) : yearStart (yearOf day) ≤ day :=
  @Nat.findGreatest_spec 0 (fun year => yearStart year ≤ day) _ _ (Nat.zero_le _) (Nat.zero_le _)

theorem lt_yearStart_yearOf_succ (day : ℕ) : day < yearStart (yearOf day + 1) := by
  by_contra hle
  rw [not_lt] at hle
  have hbound : yearOf day + 1 ≤ day / 365 := by
    have := le_yearStart (yearOf day + 1)
    omega
  have hgreatest := @Nat.le_findGreatest _ (fun year => yearStart year ≤ day) _ _ hbound hle
  exact absurd hgreatest (Nat.not_succ_le_self _)

/-- The month of a day of the year. -/
def monthOf (leap : Bool) (day : ℕ) : ℕ := Nat.findGreatest (fun month => monthStart leap month ≤ day) 11

theorem monthStart_monthOf_le (leap : Bool) (day : ℕ) : monthStart leap (monthOf leap day) ≤ day :=
  @Nat.findGreatest_spec 0 (fun month => monthStart leap month ≤ day) _ _ (Nat.zero_le _)
    (Nat.zero_le _)

theorem monthOf_lt (leap : Bool) (day : ℕ) : monthOf leap day < 12 :=
  Nat.lt_succ_of_le (Nat.findGreatest_le _)

theorem lt_monthStart_monthOf_succ {leap : Bool} {day : ℕ} (h : day < monthStart leap 12) :
    day < monthStart leap (monthOf leap day + 1) := by
  by_contra hle
  rw [not_lt] at hle
  have hbound : monthOf leap day + 1 ≤ 11 := by
    have hlt := monthOf_lt leap day
    by_contra hlast
    have htwelve : monthOf leap day + 1 = 12 := by omega
    rw [htwelve] at hle
    omega
  have hgreatest := @Nat.le_findGreatest _ (fun month => monthStart leap month ≤ day) _ _ hbound hle
  exact absurd hgreatest (Nat.not_succ_le_self _)

/-! ## Texts -/

/-- The seconds of a text with the digits of their fraction. -/
structure Seconds where
  second : Fin 60
  fraction : List (Fin 10) := []
  deriving DecidableEq

/-- A text of a date and a time, by its fields; months and days are counted from 0. -/
structure Datetime where
  year : Fin 10000
  month : Fin 12
  day : ℕ
  hour : Fin 24
  minute : Fin 60
  seconds : Option Seconds
  valid : day < monthLength (isLeap year) month
  deriving DecidableEq

/-- The milliseconds of a fraction: its first three digits. -/
def milliseconds : List (Fin 10) → ℕ
  | [] => 0
  | [a] => 100 * a
  | [a, b] => 100 * a + 10 * b
  | a :: b :: c :: _ => 100 * a + 10 * b + c

theorem milliseconds_lt (fraction : List (Fin 10)) : milliseconds fraction < 1000 := by
  unfold milliseconds
  split <;> omega

/-- The days from the start of the year 0 to the epoch, in milliseconds. -/
def epochMs : ℕ := 719528 * 86400000

namespace Datetime

/-- The days of a date since the start of the year 0. -/
def days (d : Datetime) : ℕ := yearStart d.year + monthStart (isLeap d.year) d.month + d.day

/-- The milliseconds of a time of the day. -/
def timeMs (d : Datetime) : ℕ :=
  (d.hour * 60 + d.minute) * 60000 +
    d.seconds.elim 0 fun s => s.second * 1000 + milliseconds s.fraction

/-- `Date.parse`, of a text of this form. -/
def ms (d : Datetime) : ℤ := (d.days * 86400000 + d.timeMs : ℕ) - (epochMs : ℤ)

theorem timeMs_lt (d : Datetime) : d.timeMs < 86400000 := by
  have hhour := d.hour.isLt
  have hminute := d.minute.isLt
  unfold timeMs
  cases d.seconds with
  | none =>
    rw [Option.elim_none]
    omega
  | some s =>
    have hsecond := s.second.isLt
    have hfraction := milliseconds_lt s.fraction
    rw [Option.elim_some]
    omega

/-- A date is before the end of its year. -/
theorem days_lt (d : Datetime) : d.days < yearStart (d.year + 1) := by
  have hday : monthStart (isLeap d.year) d.month + d.day < monthStart (isLeap d.year) 12 :=
    lt_of_lt_of_le (Nat.add_lt_add_left d.valid _) (monthStart_mono _ d.month.isLt)
  rw [monthStart_twelve] at hday
  rw [yearStart_succ, days]
  omega

end Datetime

/-- The text of a time of a day. -/
def datetimeOf (day time : ℕ) (hyear : yearOf day < 10000) (htime : time < 86400000) : Datetime where
  year := ⟨yearOf day, hyear⟩
  month := ⟨monthOf (isLeap (yearOf day)) (day - yearStart (yearOf day)), monthOf_lt _ _⟩
  day := day - yearStart (yearOf day) -
    monthStart (isLeap (yearOf day))
      (monthOf (isLeap (yearOf day)) (day - yearStart (yearOf day)))
  hour := ⟨time / 3600000, by omega⟩
  minute := ⟨time / 60000 % 60, by omega⟩
  seconds := some {
    second := ⟨time / 1000 % 60, by omega⟩
    fraction := [⟨time % 1000 / 100, by omega⟩, ⟨time / 10 % 10, by omega⟩, ⟨time % 10, by omega⟩] }
  valid := by
    have hlow := yearStart_yearOf_le day
    have hhigh := lt_yearStart_yearOf_succ day
    rw [yearStart_succ, ← monthStart_twelve] at hhigh
    have hmonth := @lt_monthStart_monthOf_succ (isLeap (yearOf day)) (day - yearStart (yearOf day))
      (by omega)
    have hstart := monthStart_monthOf_le (isLeap (yearOf day)) (day - yearStart (yearOf day))
    rw [monthStart] at hmonth
    dsimp only
    omega

/-- `new Date(t).toISOString()`, for a year of four digits. -/
def toISOString (t : ℤ) : Option Datetime :=
  if _ : 0 ≤ t + epochMs then
    let n := (t + epochMs).toNat
    if hyear : yearOf (n / 86400000) < 10000 then
      some (datetimeOf (n / 86400000) (n % 86400000) hyear (Nat.mod_lt _ (by decide)))
    else none
  else none

theorem datetimeOf_days (day time : ℕ) (hyear : yearOf day < 10000) (htime : time < 86400000) :
    (datetimeOf day time hyear htime).days = day := by
  have hlow := yearStart_yearOf_le day
  have hstart := monthStart_monthOf_le (isLeap (yearOf day)) (day - yearStart (yearOf day))
  unfold Datetime.days datetimeOf
  dsimp only
  omega

theorem datetimeOf_timeMs (day time : ℕ) (hyear : yearOf day < 10000) (htime : time < 86400000) :
    (datetimeOf day time hyear htime).timeMs = time := by
  unfold Datetime.timeMs datetimeOf
  dsimp only [Option.elim_some, milliseconds]
  omega

/-- **The text of an instant stands for it.** -/
theorem ms_toISOString {t : ℤ} {d : Datetime} (h : toISOString t = some d) : d.ms = t := by
  unfold toISOString at h
  split at h
  · next hnonneg =>
    dsimp only at h
    split at h
    · cases h
      rw [Datetime.ms, datetimeOf_days, datetimeOf_timeMs, Nat.div_add_mod']
      omega
    · cases h
  · cases h

/-- **Every instant of a text has a text.** -/
theorem exists_toISOString (d : Datetime) : ∃ d', toISOString d.ms = some d' := by
  have hsum : d.ms + epochMs = (d.days * 86400000 + d.timeMs : ℕ) := by
    unfold Datetime.ms
    omega
  have htime := d.timeMs_lt
  have hday : (d.days * 86400000 + d.timeMs) / 86400000 = d.days := by omega
  have hyear : yearOf d.days < 10000 := by
    by_contra hge
    rw [not_lt] at hge
    have hmono : yearStart (d.year + 1) ≤ yearStart (yearOf d.days) :=
      yearStart_mono (le_trans d.year.isLt hge)
    have hlow := yearStart_yearOf_le d.days
    have hhigh := d.days_lt
    omega
  have hn : (d.ms + epochMs).toNat / 86400000 = d.days := by
    rw [hsum, Int.toNat_natCast, hday]
  unfold toISOString
  rw [dif_pos (by rw [hsum]; exact Int.natCast_nonneg _)]
  dsimp only
  rw [dif_pos (by rwa [hn])]
  exact ⟨_, rfl⟩

end PulSeed
