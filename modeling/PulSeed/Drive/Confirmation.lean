import Mathlib.Algebra.Order.Ring.Nat
import Mathlib.Algebra.Ring.Parity
import Mathlib.Data.List.Induction
import PulSeed.Drive.Satisficing

/-!
# Completion in two judgments (`platform/drive/satisficing-judge.ts`)

The calls of `isGoalComplete` on one judge, for any goals in any order. The streak of a goal counts
the judgments in a row that found all its dimensions met, and begins again after the second
(`streak_eq`): what a call reports depends on the earlier calls for its goal alone
(`completes_twice`).
-/

namespace PulSeed.Drive

/-- A call of `isGoalComplete`. -/
structure GoalCall where
  goal : Goal
  convergenceStatuses : ConvergenceStatuses := none

def GoalCall.met (call : GoalCall) : Bool := allDimensionsMet call.goal call.convergenceStatuses

def GoalCall.judged (call : GoalCall) (satisficingStreak : Streaks) :
    CompletionJudgment × Streaks :=
  isGoalComplete call.goal call.convergenceStatuses satisficingStreak

/-- The streaks of a new judge after the calls. -/
def streaksAfter (calls : List GoalCall) : Streaks :=
  calls.foldl (fun streaks call => (call.judged streaks).2) fun _ => 0

/-- What a call reports after the others. -/
def reportAfter (calls : List GoalCall) (call : GoalCall) : CompletionJudgment :=
  (call.judged (streaksAfter calls)).1

def callsFor (goalId : String) (calls : List GoalCall) : List GoalCall :=
  calls.filter fun call => call.goal.id == goalId

/-- The number of the last calls for the goal, in a row, that found all its dimensions met. -/
def metInARow (goalId : String) (calls : List GoalCall) : ℕ :=
  ((callsFor goalId calls).reverse.takeWhile (·.met)).length

/-! ## The streaks -/

theorem streaksAfter_concat (calls : List GoalCall) (call : GoalCall) :
    streaksAfter (calls ++ [call]) = (call.judged (streaksAfter calls)).2 := by
  unfold streaksAfter
  rw [List.foldl_append]
  rfl

theorem callsFor_concat_self (calls : List GoalCall) (call : GoalCall) :
    callsFor call.goal.id (calls ++ [call]) = callsFor call.goal.id calls ++ [call] := by
  simp [callsFor]

theorem callsFor_concat_of_ne {goalId : String} (calls : List GoalCall) {call : GoalCall}
    (h : call.goal.id ≠ goalId) : callsFor goalId (calls ++ [call]) = callsFor goalId calls := by
  simp [callsFor, h]

theorem metInARow_concat_self (calls : List GoalCall) (call : GoalCall) :
    metInARow call.goal.id (calls ++ [call]) =
      if call.met then metInARow call.goal.id calls + 1 else 0 := by
  unfold metInARow
  rw [callsFor_concat_self, List.reverse_append, List.reverse_singleton, List.singleton_append,
    List.takeWhile_cons]
  split <;> rfl

/-- The step: of the streaks, a call changes that of its goal. -/
theorem judged_of_ne {call : GoalCall} {streaks : Streaks} {goalId : String}
    (h : call.goal.id ≠ goalId) : (call.judged streaks).2 goalId = streaks goalId := by
  unfold GoalCall.judged isGoalComplete
  split
  · rfl
  · exact Function.update_of_ne h.symm _ _

/-- The streak of its goal goes from 0 to 1 and from 1 to 0, as long as the dimensions are met. -/
theorem judged_self {call : GoalCall} {streaks : Streaks} (hdims : call.goal.dimensions ≠ [])
    {n : ℕ} (h : streaks call.goal.id = n % 2) :
    (call.judged streaks).2 call.goal.id = (if call.met then n + 1 else 0) % 2 ∧
      ((call.judged streaks).1.is_complete = true ↔ call.met = true ∧ n % 2 = 1) := by
  unfold GoalCall.judged isGoalComplete GoalCall.met
  rw [if_neg hdims]
  simp only [Function.update_self, h, Bool.and_eq_true, decide_eq_true_eq]
  cases allDimensionsMet call.goal call.convergenceStatuses with
  | false => simp
  | true =>
    rcases Nat.mod_two_eq_zero_or_one n with hn | hn
    · simp [hn, Nat.add_mod]
    · simp [hn, Nat.add_mod]

/-- **The streak of a goal** is 1 exactly after an odd number of judgments in a row. -/
theorem streak_eq {calls : List GoalCall} (hdims : ∀ call ∈ calls, call.goal.dimensions ≠ [])
    (goalId : String) : streaksAfter calls goalId = metInARow goalId calls % 2 := by
  induction calls using List.reverseRecOn with
  | nil => rfl
  | append_singleton calls call ih =>
    have ih := ih fun c hc => hdims c (List.mem_append_left _ hc)
    have hcall := hdims call (List.mem_append_right _ List.mem_cons_self)
    rw [streaksAfter_concat]
    by_cases hid : call.goal.id = goalId
    · subst hid
      rw [(judged_self hcall ih).1, metInARow_concat_self]
    · rw [judged_of_ne hid, ih]
      unfold metInARow
      rw [callsFor_concat_of_ne calls hid]

/-! ## The reports -/

theorem complete_iff {calls : List GoalCall} {call : GoalCall}
    (hdims : ∀ c ∈ calls, c.goal.dimensions ≠ []) (hcall : call.goal.dimensions ≠ []) :
    (reportAfter calls call).is_complete = true ↔
      call.met = true ∧ Odd (metInARow call.goal.id calls) := by
  unfold reportAfter
  rw [(judged_self hcall (streak_eq hdims _)).2, Nat.odd_iff]

theorem metInARow_pos {goalId : String} {calls : List GoalCall}
    (h : 0 < metInARow goalId calls) :
    ∃ previous, (callsFor goalId calls).getLast? = some previous ∧ previous.met = true := by
  unfold metInARow at h
  rw [← List.head?_reverse]
  cases hcalls : (callsFor goalId calls).reverse with
  | nil =>
    rw [hcalls] at h
    cases h
  | cons previous earlier =>
    refine ⟨previous, rfl, ?_⟩
    by_contra hmet
    rw [hcalls, List.takeWhile_cons_of_neg hmet] at h
    cases h

/-- What a call reports depends on the streak of its goal only. -/
theorem report_congr {call : GoalCall} {streaks streaks' : Streaks}
    (h : streaks call.goal.id = streaks' call.goal.id) :
    (call.judged streaks).1 = (call.judged streaks').1 := by
  unfold GoalCall.judged isGoalComplete
  rw [h]
  split <;> rfl

/-- **A goal is reported complete at every second judgment in a row that finds its dimensions
met**: so the call before, for this goal, found them met, and calls for other goals have no
part in it. -/
theorem completes_twice {calls : List GoalCall}
    (hdims : ∀ call ∈ calls, call.goal.dimensions ≠ []) {before after : List GoalCall}
    {call : GoalCall} (hcalls : calls = before ++ call :: after) :
    ((reportAfter before call).is_complete = true ↔
      call.met = true ∧ Odd (metInARow call.goal.id before)) ∧
    ((reportAfter before call).is_complete = true →
      ∃ previous, (callsFor call.goal.id before).getLast? = some previous ∧
        previous.met = true) ∧
    reportAfter before call = reportAfter (callsFor call.goal.id before) call := by
  subst hcalls
  have hbefore : ∀ c ∈ before, c.goal.dimensions ≠ [] :=
    fun c hc => hdims c (List.mem_append_left _ hc)
  have hcall := hdims call (List.mem_append_right _ List.mem_cons_self)
  have hiff := complete_iff hbefore hcall
  refine ⟨hiff, fun hcomplete => metInARow_pos (hiff.mp hcomplete).2.pos, report_congr ?_⟩
  have hown : ∀ c ∈ callsFor call.goal.id before, c.goal.dimensions ≠ [] :=
    fun c hc => hbefore c (List.mem_filter.mp hc).1
  rw [streak_eq hbefore, streak_eq hown]
  unfold metInARow callsFor
  rw [List.filter_filter]
  simp

/-- A goal whose one dimension has the value, with 5 as its minimum. -/
def sampleGoalCall (goalId : String) (value : ℚ) : GoalCall where
  goal :=
    { id := goalId
      dimensions := [{ name := "tests", current_value := some (.number (.finite value))
                       threshold := .min (.finite 5), confidence := .finite 1 }] }

theorem completes_twice_sample :
    ((reportAfter [sampleGoalCall "a" 5, sampleGoalCall "b" 1]
        (sampleGoalCall "a" 5)).is_complete = true ↔
      (sampleGoalCall "a" 5).met = true ∧
        Odd (metInARow "a" [sampleGoalCall "a" 5, sampleGoalCall "b" 1])) ∧
    ((reportAfter [sampleGoalCall "a" 5, sampleGoalCall "b" 1]
        (sampleGoalCall "a" 5)).is_complete = true →
      ∃ previous, (callsFor "a" [sampleGoalCall "a" 5, sampleGoalCall "b" 1]).getLast? =
        some previous ∧ previous.met = true) ∧
    reportAfter [sampleGoalCall "a" 5, sampleGoalCall "b" 1] (sampleGoalCall "a" 5) =
      reportAfter (callsFor "a" [sampleGoalCall "a" 5, sampleGoalCall "b" 1])
        (sampleGoalCall "a" 5) := by
  have hdims : ∀ call ∈ [sampleGoalCall "a" 5, sampleGoalCall "b" 1, sampleGoalCall "a" 5],
      call.goal.dimensions ≠ [] := by
    intro call hcall
    simp only [List.mem_cons, List.not_mem_nil, or_false] at hcall
    rcases hcall with rfl | rfl | rfl <;> exact List.cons_ne_nil _ _
  have hsplit : [sampleGoalCall "a" 5, sampleGoalCall "b" 1, sampleGoalCall "a" 5] =
      [sampleGoalCall "a" 5, sampleGoalCall "b" 1] ++ sampleGoalCall "a" 5 :: [] := rfl
  exact completes_twice hdims hsplit

end PulSeed.Drive
