import Mathlib.Algebra.Order.Field.Rat
import Mathlib.Algebra.Order.Ring.Rat
import Mathlib.Tactic.Linarith
import PulSeed.Lib.ObjectMap
import PulSeed.Lib.Traverse

/-!
# The global stall (`platform/drive/stall-detector.ts`, `stall-detector/thresholds.ts`)

`checkGlobalStall` goes over the gap histories of the dimensions of a goal: a dimension that shows
no progress at all is counted, so is one that is achieved, and one that improved ends the check.

`reports_iff` says what is reported. **That is a stall of the whole goal, exactly when no
dimension's kind hides what another one shows** (`global_stall_iff`).

Numbers are exact rationals.
-/

namespace PulSeed.StallDetector

/-! ## Reports -/

/-- `StallTypeEnum`. -/
inductive StallType
  | dimension_stall | time_exceeded | consecutive_failure | global_stall
  | predicted_plateau | predicted_regression
  deriving DecidableEq

/-- `StallCauseEnum`. -/
inductive StallCause
  | information_deficit | approach_failure | capability_limit | external_dependency
  | goal_infeasible
  deriving DecidableEq

/-- `StallReportSchema`. -/
structure StallReport where
  stall_type : StallType
  goal_id : String
  dimension_name : Option String := none
  task_id : Option String := none
  detected_at : String
  escalation_level : ℚ := 0
  suggested_cause : StallCause
  decay_factor : ℚ
  deriving DecidableEq

def MIN_IMPROVEMENT_DELTA : ℚ := 1 / 20

def ACHIEVED_GAP_THRESHOLD : ℚ := 1 / 50

def DECAY_FACTOR_STALLED : ℚ := 3 / 5

def ZERO_PROGRESS_WINDOW : ℕ := 3

def ZERO_PROGRESS_GAP_FLOOR : ℚ := 9 / 10

def ZERO_PROGRESS_MAX_VARIANCE : ℚ := 1 / 100

/-! ## One dimension -/

/-- `gapHistory.slice(-count)`, for a positive count. -/
def lastEntries (count : ℕ) (gapHistory : List ℚ) : List ℚ :=
  gapHistory.drop (gapHistory.length - count)

/-- `isZeroProgress`. -/
def isZeroProgress (gapHistory : List ℚ) : Bool :=
  if gapHistory.length < ZERO_PROGRESS_WINDOW then false
  else
    let gaps := lastEntries ZERO_PROGRESS_WINDOW gapHistory
    if !gaps.all (ZERO_PROGRESS_GAP_FLOOR ≤ ·) then false
    else
      match gaps.max?, gaps.min? with
      | some highest, some lowest => highest - lowest < ZERO_PROGRESS_MAX_VARIANCE
      | _, _ => false

section Window

variable (loopThreshold : ℕ) (gapHistory : List ℚ)

/-- `recent`. -/
def recentGaps : List ℚ := lastEntries (loopThreshold + 1) gapHistory

/-- `isAchieved`. -/
def isAchieved : Bool := (recentGaps loopThreshold gapHistory).all (· ≤ ACHIEVED_GAP_THRESHOLD)

/-- `oldest - latest >= MIN_IMPROVEMENT_DELTA`. -/
def isImproved : Bool :=
  let recent := recentGaps loopThreshold gapHistory
  let oldest := recent.headD 0
  let latest := recent.getLastD 0
  MIN_IMPROVEMENT_DELTA ≤ oldest - latest

/-- The history fills the window. -/
def isFull : Bool := loopThreshold + 1 ≤ gapHistory.length

end Window

/-! ## All dimensions -/

/-- The loop of `checkGlobalStall`: `zeroProgressCount` and `achievedCount`, unless it returns. -/
def countDimensions (loopThreshold : ℕ) : List (List ℚ) → ℕ → ℕ → Option (ℕ × ℕ)
  | [], zeroProgressCount, achievedCount => some (zeroProgressCount, achievedCount)
  | gapHistory :: rest, zeroProgressCount, achievedCount =>
    if !isFull loopThreshold gapHistory then none
    else if isZeroProgress gapHistory then
      countDimensions loopThreshold rest (zeroProgressCount + 1) achievedCount
    else if isAchieved loopThreshold gapHistory then
      countDimensions loopThreshold rest zeroProgressCount (achievedCount + 1)
    else if isImproved loopThreshold gapHistory then none
    else countDimensions loopThreshold rest zeroProgressCount achievedCount

abbrev DimensionGaps := ObjectMap String (List ℚ)

def globalStallReport (now goalId : String) : StallReport where
  stall_type := .global_stall
  goal_id := goalId
  detected_at := now
  suggested_cause := .goal_infeasible
  decay_factor := DECAY_FACTOR_STALLED

/-- `checkGlobalStall`. -/
def checkGlobalStall (now goalId : String) (allDimensionGaps : DimensionGaps)
    (loopThreshold : ℕ) : Option StallReport :=
  let size := allDimensionGaps.entries.length
  if size = 0 then none
  else
    match countDimensions loopThreshold (allDimensionGaps.entries.map Prod.snd) 0 0 with
    | none => none
    | some (zeroProgressCount, achievedCount) =>
      if achievedCount + zeroProgressCount = size ∧ 0 < achievedCount then none
      else if zeroProgressCount = size then some (globalStallReport now goalId)
      else some (globalStallReport now goalId)

/-! ## What is reported -/

/-- The newest entry is among the last ones. -/
theorem getLast_mem_lastEntries {gapHistory : List ℚ} (hne : gapHistory ≠ []) {count : ℕ}
    (hcount : 0 < count) : gapHistory.getLast hne ∈ lastEntries count gapHistory := by
  unfold lastEntries
  have hlength := List.length_pos_iff.mpr hne
  have hdrop : gapHistory.drop (gapHistory.length - count) ≠ [] := by
    rw [← List.length_pos_iff, List.length_drop]
    omega
  rw [← List.getLast_drop hdrop]
  exact List.getLast_mem hdrop

theorem le_of_isZeroProgress {gapHistory : List ℚ} (h : isZeroProgress gapHistory = true) :
    gapHistory ≠ [] ∧
      ∀ gap ∈ lastEntries ZERO_PROGRESS_WINDOW gapHistory, ZERO_PROGRESS_GAP_FLOOR ≤ gap := by
  unfold isZeroProgress at h
  split at h
  · cases h
  · next hlength =>
    refine ⟨fun hnil => hlength (hnil ▸ by decide), ?_⟩
    dsimp only at h
    split at h
    · cases h
    · next hall =>
      rw [Bool.not_eq_true, Bool.not_eq_false', List.all_eq_true] at hall
      exact fun gap hgap => of_decide_eq_true (hall gap hgap)

/-- A dimension without any progress is not achieved. -/
theorem not_achieved_of_isZeroProgress {gapHistory : List ℚ}
    (h : isZeroProgress gapHistory = true) (loopThreshold : ℕ) :
    isAchieved loopThreshold gapHistory = false := by
  obtain ⟨hne, hfloor⟩ := le_of_isZeroProgress h
  refine Bool.eq_false_iff.mpr fun hachieved => ?_
  have hlow := of_decide_eq_true (List.all_eq_true.mp hachieved _
    (getLast_mem_lastEntries hne (Nat.succ_pos loopThreshold)))
  have hhigh := hfloor _ (getLast_mem_lastEntries hne (by decide))
  exact absurd (hhigh.trans hlow) (by decide +kernel)

/-- Two kinds that exclude each other cover a list when their counts do. -/
theorem countP_add_countP_iff {α : Type} {p q : α → Bool} {l : List α}
    (hpq : ∀ a ∈ l, p a = true → q a = false) :
    l.countP q + l.countP p = l.length ↔ ∀ a ∈ l, p a = true ∨ q a = true := by
  have hsum : (l.countP fun a => p a || q a) = l.countP q + l.countP p := by
    induction l with
    | nil => rfl
    | cons a l ih =>
      have hl := ih fun b hb => hpq b (List.mem_cons_of_mem _ hb)
      rw [List.countP_cons, List.countP_cons, List.countP_cons, hl]
      cases hp : p a with
      | true =>
        rw [hpq a List.mem_cons_self hp]
        simp [add_assoc]
      | false => simp [add_right_comm]
  rw [← hsum, List.countP_eq_length]
  simp only [Bool.or_eq_true]

section Reports

variable (loopThreshold : ℕ)

/-- The dimension shows no progress at all, or is achieved. -/
def IsSettled (gapHistory : List ℚ) : Prop :=
  isZeroProgress gapHistory = true ∨ isAchieved loopThreshold gapHistory = true

/-- The check ends at the dimension. -/
def endsCheck (gapHistory : List ℚ) : Bool :=
  !isFull loopThreshold gapHistory ||
    !isZeroProgress gapHistory && !isAchieved loopThreshold gapHistory &&
      isImproved loopThreshold gapHistory

variable {loopThreshold}

theorem endsCheck_eq_false_iff {gapHistory : List ℚ} : endsCheck loopThreshold gapHistory = false ↔
    isFull loopThreshold gapHistory = true ∧
      (isImproved loopThreshold gapHistory = true → IsSettled loopThreshold gapHistory) := by
  unfold endsCheck IsSettled
  cases isFull loopThreshold gapHistory <;> cases isZeroProgress gapHistory <;>
    cases isAchieved loopThreshold gapHistory <;> cases isImproved loopThreshold gapHistory <;> simp

theorem countDimensions_eq (histories : List (List ℚ)) (zeroProgressCount achievedCount : ℕ) :
    countDimensions loopThreshold histories zeroProgressCount achievedCount =
      if histories.any (endsCheck loopThreshold) then none
      else some (zeroProgressCount + histories.countP isZeroProgress,
        achievedCount + histories.countP (isAchieved loopThreshold)) := by
  induction histories generalizing zeroProgressCount achievedCount with
  | nil => rfl
  | cons gapHistory rest ih =>
    rw [countDimensions, List.any_cons, List.countP_cons, List.countP_cons]
    cases hfull : isFull loopThreshold gapHistory with
    | false => simp [endsCheck, hfull]
    | true =>
      cases hzero : isZeroProgress gapHistory with
      | true =>
        have hachieved := not_achieved_of_isZeroProgress hzero loopThreshold
        simp [endsCheck, hfull, hzero, hachieved, ih, add_assoc, add_comm 1]
      | false =>
        cases hachieved : isAchieved loopThreshold gapHistory with
        | true => simp [endsCheck, hfull, hzero, hachieved, ih, add_assoc, add_comm 1]
        | false =>
          cases himproved : isImproved loopThreshold gapHistory <;>
            simp [endsCheck, hfull, hzero, hachieved, himproved, ih]

/-- The gap histories of the dimensions. -/
def histories (allDimensionGaps : DimensionGaps) : List (List ℚ) :=
  allDimensionGaps.entries.map Prod.snd

/-- **What is reported**: all windows are full, each dimension that improved is settled, and
not all of them are settled with an achieved one among them. -/
theorem reports_iff (now goalId : String) (allDimensionGaps : DimensionGaps) :
    (checkGlobalStall now goalId allDimensionGaps loopThreshold).isSome = true ↔
      histories allDimensionGaps ≠ [] ∧
        (∀ h ∈ histories allDimensionGaps, isFull loopThreshold h = true ∧
          (isImproved loopThreshold h = true → IsSettled loopThreshold h)) ∧
        ¬((∀ h ∈ histories allDimensionGaps, IsSettled loopThreshold h) ∧
          ∃ h ∈ histories allDimensionGaps, isAchieved loopThreshold h = true) := by
  have hsize : allDimensionGaps.entries.length = (allDimensionGaps.entries.map Prod.snd).length :=
    (List.length_map ..).symm
  unfold histories checkGlobalStall
  dsimp only
  rw [hsize, countDimensions_eq]
  generalize allDimensionGaps.entries.map Prod.snd = l
  by_cases hnil : l = []
  · rw [hnil]
    simp
  rw [if_neg (mt List.length_eq_zero_iff.mp hnil), and_iff_right hnil]
  simp only [← endsCheck_eq_false_iff]
  by_cases hends : l.any (endsCheck loopThreshold) = true
  · rw [if_pos hends]
    obtain ⟨h, hmem, hend⟩ := List.any_eq_true.mp hends
    exact iff_of_false nofun fun hall => absurd (hall.1 h hmem) (by simp [hend])
  · rw [if_neg hends]
    have hall : ∀ h ∈ l, endsCheck loopThreshold h = false := by
      simpa using hends
    have hcount := countP_add_countP_iff (p := isZeroProgress) (q := isAchieved loopThreshold)
      (l := l) fun h _ hzero => not_achieved_of_isZeroProgress hzero loopThreshold
    rw [and_iff_right hall]
    simp only [zero_add, hcount, List.countP_pos_iff, ite_self]
    unfold IsSettled
    split
    · next hsettled => exact iff_of_false nofun (not_not.mpr hsettled)
    · next hsettled => exact iff_of_true rfl hsettled

end Reports

/-! ## Stalls -/

section Stall

variable (loopThreshold : ℕ) (allDimensionGaps : DimensionGaps)

/-- Every dimension has a full window, none improved within it, and not all are achieved. -/
structure IsGlobalStall : Prop where
  full : ∀ h ∈ histories allDimensionGaps, isFull loopThreshold h = true
  flat : ∀ h ∈ histories allDimensionGaps, isImproved loopThreshold h = false
  unachieved : ¬∀ h ∈ histories allDimensionGaps, isAchieved loopThreshold h = true

/-- The windows are full, and a kind of dimension hides what the others show: nothing improved and
all dimensions are settled, some achieved and some without progress; or some improved, all of
these are settled, and not all dimensions are, or none is achieved. -/
def Hidden : Prop :=
  (∀ h ∈ histories allDimensionGaps, isFull loopThreshold h = true) ∧
    ((∀ h ∈ histories allDimensionGaps, isImproved loopThreshold h = false) ∧
        (∀ h ∈ histories allDimensionGaps, IsSettled loopThreshold h) ∧
        (∃ h ∈ histories allDimensionGaps, isAchieved loopThreshold h = true) ∧
        (∃ h ∈ histories allDimensionGaps, isZeroProgress h = true) ∨
      (∃ h ∈ histories allDimensionGaps, isImproved loopThreshold h = true) ∧
        (∀ h ∈ histories allDimensionGaps,
          isImproved loopThreshold h = true → IsSettled loopThreshold h) ∧
        ¬((∀ h ∈ histories allDimensionGaps, IsSettled loopThreshold h) ∧
          ∃ h ∈ histories allDimensionGaps, isAchieved loopThreshold h = true))

/-- A dimension that was not achieved has got worse, or stands at a higher level. -/
structure Raised (h h' : List ℚ) : Prop where
  unachieved : isAchieved loopThreshold h = false
  length_eq : h'.length = h.length
  raised : List.Forall₂ (· ≤ ·) (recentGaps loopThreshold h) (recentGaps loopThreshold h')
  flat : (recentGaps loopThreshold h').headD 0 ≤ (recentGaps loopThreshold h').getLastD 0

variable {loopThreshold allDimensionGaps}

theorem Raised.full {h h' : List ℚ} (hraised : Raised loopThreshold h h') :
    isFull loopThreshold h' = isFull loopThreshold h := by
  unfold isFull
  rw [hraised.length_eq]

theorem Raised.not_improved {h h' : List ℚ} (hraised : Raised loopThreshold h h') :
    isImproved loopThreshold h' = false := by
  refine decide_eq_false fun himproved => ?_
  have hpos : 0 < MIN_IMPROVEMENT_DELTA := by decide +kernel
  have hflat := hraised.flat
  linarith

theorem Raised.not_achieved {h h' : List ℚ} (hraised : Raised loopThreshold h h') :
    isAchieved loopThreshold h' = false := by
  refine Bool.eq_false_iff.mpr fun hachieved => ?_
  refine absurd ?_ (Bool.eq_false_iff.mp hraised.unachieved)
  unfold isAchieved at hachieved ⊢
  rw [List.all_eq_true] at hachieved ⊢
  intro gap hgap
  obtain ⟨gap', hgap', hle⟩ := exists_of_forall₂ hraised.raised hgap
  exact decide_eq_true (hle.trans (of_decide_eq_true (hachieved gap' hgap')))

end Stall

theorem reports_iff_isGlobalStall (now goalId : String) {loopThreshold : ℕ}
    (allDimensionGaps : DimensionGaps) :
    ((checkGlobalStall now goalId allDimensionGaps loopThreshold).isSome = true ↔
        IsGlobalStall loopThreshold allDimensionGaps) ↔
      ¬Hidden loopThreshold allDimensionGaps := by
  have hstall : IsGlobalStall loopThreshold allDimensionGaps ↔ _ ∧ _ ∧ _ :=
    ⟨fun h => ⟨h.full, h.flat, h.unachieved⟩, fun h => ⟨h.1, h.2.1, h.2.2⟩⟩
  rw [reports_iff, hstall, forall₂_and]
  unfold Hidden
  generalize histories allDimensionGaps = l
  by_cases hfull : ∀ h ∈ l, isFull loopThreshold h = true
  case neg =>
    refine iff_of_true (iff_of_false ?_ ?_) fun hhidden => hfull hhidden.1
    · exact fun hreport => hfull hreport.2.1.1
    · exact fun hstall => hfull hstall.1
  by_cases hflat : ∀ h ∈ l, isImproved loopThreshold h = false
  · -- nothing improved: the kinds of the dimensions decide
    have hsettled : ∀ h ∈ l, isImproved loopThreshold h = true → IsSettled loopThreshold h :=
      fun h hh himproved => absurd himproved (by simp [hflat h hh])
    have hnone : ¬∃ h ∈ l, isImproved loopThreshold h = true :=
      fun ⟨h, hh, himproved⟩ => absurd himproved (by simp [hflat h hh])
    rw [and_iff_right hfull, and_iff_right hsettled, and_iff_right hfull, and_iff_right hflat,
      and_iff_right hfull, and_iff_right hflat, or_iff_left fun h => hnone h.1]
    by_cases hachieved : ∀ h ∈ l, isAchieved loopThreshold h = true
    · refine iff_of_true (iff_of_false ?_ (not_not.mpr hachieved)) ?_
      · rintro ⟨hne, hnot⟩
        obtain ⟨h, hh⟩ := List.exists_mem_of_ne_nil l hne
        exact hnot ⟨fun h hh => .inr (hachieved h hh), h, hh, hachieved h hh⟩
      · rintro ⟨-, -, h, hh, hzero⟩
        exact absurd (hachieved h hh)
          (by simp [not_achieved_of_isZeroProgress hzero loopThreshold])
    · have hne : l ≠ [] := fun hnil => hachieved (hnil ▸ nofun)
      rw [and_iff_right hne, iff_true_right hachieved, not_iff_not]
      refine ⟨fun ⟨hall, hsome⟩ => ⟨hall, hsome, ?_⟩, fun ⟨hall, hsome, _⟩ => ⟨hall, hsome⟩⟩
      by_contra hzero
      exact hachieved fun h hh => (hall h hh).resolve_left fun hz => hzero ⟨h, hh, hz⟩
  · -- something improved: there is no stall of the whole goal
    obtain ⟨h, hh, himproved⟩ : ∃ h ∈ l, isImproved loopThreshold h = true := by
      by_contra hnone
      exact hflat fun h hh => Bool.eq_false_iff.mpr fun himproved => hnone ⟨h, hh, himproved⟩
    have hnone : ¬((∀ h ∈ l, isImproved loopThreshold h = false) ∧
        ¬∀ h ∈ l, isAchieved loopThreshold h = true) := fun hstall => hflat hstall.1
    rw [and_iff_right hfull, and_iff_right hfull, and_iff_right hfull,
      and_iff_right (List.ne_nil_of_mem hh), iff_false_right hnone, not_iff_not]
    refine ⟨fun hreport => .inr ⟨⟨h, hh, himproved⟩, hreport⟩, ?_⟩
    rintro (hhidden | hhidden)
    · exact absurd hhidden.1 hflat
    · exact hhidden.2

/-- Some dimensions have been raised, and the others are as they were. -/
def RaisedGaps (loopThreshold : ℕ) (gaps gaps' : DimensionGaps) : Prop :=
  List.Forall₂ (fun e e' => e'.1 = e.1 ∧ (e'.2 = e.2 ∨ Raised loopThreshold e.2 e'.2))
    gaps.entries gaps'.entries

/-- Raising dimensions does not end a stall of the goal. -/
theorem IsGlobalStall.raised {loopThreshold : ℕ} {gaps gaps' : DimensionGaps}
    (h : IsGlobalStall loopThreshold gaps) (hraised : RaisedGaps loopThreshold gaps gaps') :
    IsGlobalStall loopThreshold gaps' := by
  have hfrom : ∀ g' ∈ histories gaps', ∃ g ∈ histories gaps, g' = g ∨ Raised loopThreshold g g' := by
    refine List.forall_mem_map.mpr fun e' he' => ?_
    obtain ⟨e, he, -, hsame⟩ := exists_of_forall₂ hraised.flip he'
    exact ⟨e.2, List.mem_map_of_mem he, hsame⟩
  have hto : ∀ g ∈ histories gaps, ∃ g' ∈ histories gaps', g' = g ∨ Raised loopThreshold g g' := by
    refine List.forall_mem_map.mpr fun e he => ?_
    obtain ⟨e', he', -, hsame⟩ := exists_of_forall₂ hraised he
    exact ⟨e'.2, List.mem_map_of_mem he', hsame⟩
  refine ⟨fun g' hg' => ?_, fun g' hg' => ?_, fun hachieved => h.unachieved fun g hg => ?_⟩
  · obtain ⟨g, hg, rfl | hraised⟩ := hfrom g' hg'
    · exact h.full _ hg
    · exact hraised.full.trans (h.full g hg)
  · obtain ⟨g, hg, rfl | hraised⟩ := hfrom g' hg'
    · exact h.flat _ hg
    · exact hraised.not_improved
  · obtain ⟨g', hg', rfl | hraised⟩ := hto g hg
    · exact hachieved _ hg'
    · exact absurd (hachieved g' hg') (by simp [hraised.not_achieved])

/-- **A stall of the whole goal is reported exactly when no kind of dimension hides what the others
show**; where that is so before and after dimensions are raised, the report stays. -/
theorem global_stall_iff (now goalId : String) (loopThreshold : ℕ)
    (allDimensionGaps : DimensionGaps) :
    (((checkGlobalStall now goalId allDimensionGaps loopThreshold).isSome = true ↔
        IsGlobalStall loopThreshold allDimensionGaps) ↔
      ¬Hidden loopThreshold allDimensionGaps) ∧
    ∀ raisedGaps, RaisedGaps loopThreshold allDimensionGaps raisedGaps →
      ¬Hidden loopThreshold allDimensionGaps → ¬Hidden loopThreshold raisedGaps →
      (checkGlobalStall now goalId allDimensionGaps loopThreshold).isSome = true →
        (checkGlobalStall now goalId raisedGaps loopThreshold).isSome = true := by
  have hjudged (gaps : DimensionGaps) :
      ((checkGlobalStall now goalId gaps loopThreshold).isSome = true ↔
        IsGlobalStall loopThreshold gaps) ↔ ¬Hidden loopThreshold gaps :=
    reports_iff_isGlobalStall now goalId gaps
  exact ⟨hjudged allDimensionGaps, fun raisedGaps hraised hbefore hafter hreport =>
    ((hjudged raisedGaps).mpr hafter).mpr
      ((((hjudged allDimensionGaps).mpr hbefore).mp hreport).raised hraised)⟩

/-- Two dimensions, each with the same gap over six entries. -/
def flatGaps (a b : ℚ) : DimensionGaps where
  entries := [("a", List.replicate 6 a), ("b", List.replicate 6 b)]
  nodupKeys := show ["a", "b"].Nodup by decide

/-- A dimension is raised while the other one is achieved, and the stall is still reported. -/
theorem global_stall_iff_sample :
    (checkGlobalStall "now" "goal" (flatGaps (1 / 100) (3 / 5)) 5).isSome = true := by
  refine (global_stall_iff "now" "goal" 5 (flatGaps (1 / 100) (1 / 2))).2 _
    (.cons ⟨rfl, .inl rfl⟩ (.cons ⟨rfl, .inr ?_⟩ .nil)) ?_ ?_ (by decide +kernel)
  · exact ⟨by decide +kernel, rfl, by decide +kernel, by decide +kernel⟩
  · unfold Hidden IsSettled
    decide +kernel
  · unfold Hidden IsSettled
    decide +kernel

/-- **At a gap of almost one the stall is not reported**: the other dimension is achieved, and this
one shows no progress. -/
theorem global_stall_hidden :
    ¬((checkGlobalStall "now" "goal" (flatGaps (1 / 100) (19 / 20)) 5).isSome = true ↔
      IsGlobalStall 5 (flatGaps (1 / 100) (19 / 20))) := by
  intro h
  have hstall : IsGlobalStall 5 (flatGaps (1 / 100) (19 / 20)) :=
    ⟨by decide +kernel, by decide +kernel, by decide +kernel⟩
  exact absurd (h.mpr hstall) (by decide +kernel)

end PulSeed.StallDetector
