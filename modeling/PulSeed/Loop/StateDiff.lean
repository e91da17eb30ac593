import Mathlib.Algebra.Order.Ring.Abs
import Mathlib.Tactic.Ring
import PulSeed.Drive.Satisficing
import PulSeed.Lib.History

/-!
# Skipping iterations without a change (`orchestrator/loop/state-diff.ts`, `durable-loop/control.ts`)

An iteration is skipped when the state of its goal has not changed by the thresholds. The
comparison is with the state at the check before, whether or not that iteration was
skipped; and what is compared is a snapshot, in which every value is a number and a name
has one dimension. So small changes add up from one skipped iteration to the next, and a
string may change at once.

- `skips_near`: the changes since the last iteration that was not skipped are bounded by the
  thresholds times the number of skips since then, which is bounded too; and the checks of
  other goals do not matter.
- `skips_sound_iff`: they are bounded by the thresholds alone exactly when, wherever the
  check before shows no change, neither does that iteration, nor has the part of the goal
  changed that a snapshot leaves out.

A stored goal is read as JSON, so that its numbers are finite. The times and numbers of the
snapshots are left out: nothing reads them.
-/

namespace PulSeed.StateDiff

open Drive (GoalStatus)

/-! ## Snapshots -/

/-- `last_observed_layer`. -/
inductive ObservationLayer
  | self_report | independent_review | mechanical
  deriving DecidableEq

/-- `number | string | boolean`. -/
inductive Value
  | number (x : ℚ)
  | string (s : String)
  | boolean (b : Bool)
  deriving DecidableEq

/-- The fields of a dimension that a snapshot reads; `null` is `none`. -/
structure Dimension where
  name : String
  current_value : Option Value
  confidence : ℚ
  last_observed_layer : Option ObservationLayer := none
  deriving DecidableEq

structure StateDiffThresholds where
  value_delta : ℚ := 5 / 100
  confidence_delta : ℚ := 10 / 100
  layer_change : Bool := true

/-- A dimension in an `IterationSnapshot`. -/
structure SnapshotDimension where
  current_value : ℚ
  confidence : ℚ
  observation_layer : ObservationLayer
  deriving DecidableEq

/-- `IterationSnapshot.dimensions`. -/
abbrev IterationSnapshot := ObjectMap String SnapshotDimension

/-- `numericValue`. -/
def numericValue : Option Value → ℚ
  | some (.number x) => x
  | some (.boolean b) => if b then 1 else 0
  | some (.string _) | none => 0

def Dimension.observation_layer (dim : Dimension) : ObservationLayer :=
  dim.last_observed_layer.getD .self_report

def Dimension.snapshot (dim : Dimension) : SnapshotDimension where
  current_value := numericValue dim.current_value
  confidence := dim.confidence
  observation_layer := dim.observation_layer

/-- `buildSnapshot`. -/
def buildSnapshot (dimensions : List Dimension) : IterationSnapshot :=
  dimensions.foldl (fun snapshot dim => snapshot.set dim.name dim.snapshot) .empty

/-! ## Comparison -/

/-- The dimension has changed by one of the thresholds. -/
def changed (thresholds : StateDiffThresholds) (prev curr : SnapshotDimension) : Bool :=
  let valueDelta := |curr.current_value - prev.current_value|
  let confidenceDelta := |curr.confidence - prev.confidence|
  let layerChanged := curr.observation_layer ≠ prev.observation_layer
  thresholds.value_delta ≤ valueDelta || thresholds.confidence_delta ≤ confidenceDelta ||
    (thresholds.layer_change && layerChanged)

structure StateDiffResult where
  hasChange : Bool
  changedDimensions : List String
  reason : String
  deriving DecidableEq

/-- The dimensions that are new or have changed, then those that are gone. -/
def changedDimensions (thresholds : StateDiffThresholds) (previous current : IterationSnapshot) :
    List String :=
  (current.entries.filter fun (name, curr) =>
    match previous.get? name with
    | none => true
    | some prev => changed thresholds prev curr).map (·.1) ++
  previous.keys.filter fun name => (current.get? name).isNone

/-- `compare`. -/
def compare (thresholds : StateDiffThresholds) (previous : Option IterationSnapshot)
    (current : IterationSnapshot) : StateDiffResult :=
  match previous with
  | none => ⟨true, [], "first iteration"⟩
  | some previous =>
    let changedDimensions := changedDimensions thresholds previous current
    if 0 < changedDimensions.length then
      ⟨true, changedDimensions, "changed dimensions: " ++ ", ".intercalate changedDimensions⟩
    else ⟨false, [], "no meaningful change across all dimensions"⟩

/-! ## The check -/

structure StateDiffState where
  previousSnapshot : Option IterationSnapshot := none
  consecutiveSkips : ℕ := 0

/-- A call of `runStateDiffCheck`: the goal, its dimensions, and the status of the stored
goal, which a skipped iteration loads. -/
structure Check where
  goalId : String
  dimensions : List Dimension
  goalState : Option GoalStatus := some .active
  deriving DecidableEq

/-- What the check answers, and what it sets in the result of the iteration. -/
structure Verdict where
  shouldSkip : Bool
  skipReason : Option String := none
  is_complete : Bool := false
  deriving DecidableEq

variable (thresholds : StateDiffThresholds) (maxConsecutiveSkips : ℕ)

/-- The check on the state of its goal. -/
def stateDiffCheck (diffState : StateDiffState) (check : Check) : StateDiffState × Verdict :=
  let snapshot := buildSnapshot check.dimensions
  let diff := compare thresholds diffState.previousSnapshot snapshot
  if !diff.hasChange && diffState.consecutiveSkips < maxConsecutiveSkips then
    (⟨some snapshot, diffState.consecutiveSkips + 1⟩,
      { shouldSkip := true
        skipReason := some "no_state_change"
        -- the completion of a stored goal is carried forward
        is_complete := check.goalState = some .completed })
  else (⟨some snapshot, 0⟩, { shouldSkip := false })

/-- `runStateDiffCheck`, on the map of the states of all goals. -/
def runStateDiffCheck (stateDiffStateMap : ObjectMap String StateDiffState) (check : Check) :
    ObjectMap String StateDiffState × Verdict :=
  let diffState := (stateDiffStateMap.get? check.goalId).getD {}
  let r := stateDiffCheck thresholds maxConsecutiveSkips diffState check
  (stateDiffStateMap.set check.goalId r.1, r.2)

/-- The checks of all goals, with their answers. -/
def history (checks : List Check) : List (Check × Verdict) :=
  (LTS.exec (runStateDiffCheck thresholds maxConsecutiveSkips) .empty checks).1

/-- The checks of one goal. -/
def checksOf (goalId : String) (hist : List (Check × Verdict)) : List (Check × Verdict) :=
  hist.filter fun l => decide (l.1.goalId = goalId)

/-! ## Soundness -/

/-- The last check after which the iteration was not skipped. -/
def lastExecuted (hist : List (Check × Verdict)) : Option Check :=
  (hist.filter fun l => !l.2.shouldSkip).getLast?.map (·.1)

/-- The number of skips since then. -/
def skipsSince (hist : List (Check × Verdict)) : ℕ :=
  streak (fun l => l.2.shouldSkip) hist

/-- Both values are numbers, or they are the same. -/
def SameUnlessNumeric (v w : Option Value) : Prop :=
  v = w ∨ ∃ x y, v = some (.number x) ∧ w = some (.number y)

/-- A dimension differs from an earlier one by less than the thresholds; a value that is not
a number does not differ. -/
structure Close (dim₀ dim : Dimension) : Prop where
  nonNumeric : SameUnlessNumeric dim₀.current_value dim.current_value
  value : |numericValue dim.current_value - numericValue dim₀.current_value| <
    thresholds.value_delta
  confidence : |dim.confidence - dim₀.confidence| < thresholds.confidence_delta
  layer : thresholds.layer_change = true → dim.observation_layer = dim₀.observation_layer

/-- The dimensions of a name, the last one first. -/
def named (dimensions : List Dimension) (name : String) : List Dimension :=
  (dimensions.filter fun dim => decide (dim.name = name)).reverse

/-- No dimension has come or gone, and every one differs by less than the thresholds. -/
def Unchanged (before after : List Dimension) : Prop :=
  ∀ name, List.Forall₂ (Close thresholds) (named before name) (named after name)

/-- What snapshots do not show has not changed: a value that is not a number, and a
dimension with a later one of its name. -/
def UnseenUnchanged (before after : List Dimension) : Prop :=
  ∀ name, List.Forall₂ (Close thresholds) (named before name).tail (named after name).tail ∧
    ∀ dim₀ ∈ (named before name).head?, ∀ dim ∈ (named after name).head?,
      SameUnlessNumeric dim₀.current_value dim.current_value

/-- Every skip follows an iteration that was not skipped, with no change since, and there
are no more skips in a row than allowed. -/
def SkipsSound (ls : List (Check × Verdict)) : Prop :=
  ∀ hist check verdict rest, ls = hist ++ (check, verdict) :: rest → verdict.shouldSkip = true →
    (∃ base, lastExecuted hist = some base ∧
      Unchanged thresholds base.dimensions check.dimensions) ∧
    skipsSince hist < maxConsecutiveSkips

/-- When the goal shows no change since the check before, and may be skipped, then it shows
none since the last iteration that was not skipped, and nothing that snapshots do not show
has changed since then. -/
def ChangesSeen (ls : List (Check × Verdict)) : Prop :=
  ∀ hist check verdict rest, ls = hist ++ (check, verdict) :: rest →
    ∀ last ∈ hist.getLast?, ∀ base ∈ lastExecuted hist, skipsSince hist < maxConsecutiveSkips →
      (compare thresholds (some (buildSnapshot last.1.dimensions))
        (buildSnapshot check.dimensions)).hasChange = false →
      (compare thresholds (some (buildSnapshot base.dimensions))
        (buildSnapshot check.dimensions)).hasChange = false ∧
      UnseenUnchanged thresholds base.dimensions check.dimensions

/-- A dimension of a snapshot is there in both of two snapshots or in none, and differs by
less than so many times the thresholds; the layer does not differ when it counts. -/
def Near (n : ℕ) : Option SnapshotDimension → Option SnapshotDimension → Prop
  | none, none => True
  | some prev, some curr =>
    |curr.current_value - prev.current_value| < n * thresholds.value_delta ∧
    |curr.confidence - prev.confidence| < n * thresholds.confidence_delta ∧
    (thresholds.layer_change = true → curr.observation_layer = prev.observation_layer)
  | _, _ => False

/-- Every skip is at a state near that of the check before, and as near to that of the last
iteration that was not skipped as the number of skips since then allows; and there are no
more skips in a row than allowed. -/
def SkipsNear (ls : List (Check × Verdict)) : Prop :=
  ∀ hist check verdict rest, ls = hist ++ (check, verdict) :: rest → verdict.shouldSkip = true →
    skipsSince hist < maxConsecutiveSkips ∧
    ∃ last base, hist.getLast? = some last ∧ lastExecuted hist = some base ∧ ∀ name,
      Near thresholds 1 ((buildSnapshot last.1.dimensions).get? name)
        ((buildSnapshot check.dimensions).get? name) ∧
      Near thresholds (skipsSince hist + 1) ((buildSnapshot base.dimensions).get? name)
        ((buildSnapshot check.dimensions).get? name)

section Proofs

variable {thresholds} {maxConsecutiveSkips}

/-! ## What the comparison finds -/

theorem buildSnapshot_get? (dimensions : List Dimension) (name : String) :
    (buildSnapshot dimensions).get? name = (named dimensions name).head?.map (·.snapshot) := by
  unfold buildSnapshot named
  induction dimensions using List.reverseRecOn with
  | nil => rfl
  | append_singleton dims dim ih =>
    rw [List.foldl_append, List.foldl_cons, List.foldl_nil, ObjectMap.get?_set,
      List.filter_append, List.reverse_append]
    by_cases hname : name = dim.name
    · simp [hname]
    · rw [if_neg hname, ih]
      simp [Ne.symm hname]

theorem changed_eq_false_iff {prev curr : SnapshotDimension} :
    changed thresholds prev curr = false ↔
      |curr.current_value - prev.current_value| < thresholds.value_delta ∧
      |curr.confidence - prev.confidence| < thresholds.confidence_delta ∧
      (thresholds.layer_change = true → curr.observation_layer = prev.observation_layer) := by
  simp only [changed, Bool.or_eq_false_iff, Bool.and_eq_false_imp, decide_eq_false_iff_not,
    not_le, not_not, and_assoc, ne_eq]

theorem near_one_iff {prev curr : SnapshotDimension} :
    Near thresholds 1 (some prev) (some curr) ↔ changed thresholds prev curr = false := by
  rw [changed_eq_false_iff]
  simp [Near]

/-- Distances add up. -/
theorem Near.add_one {n : ℕ} {a b c : Option SnapshotDimension} (hab : Near thresholds n a b)
    (hbc : Near thresholds 1 b c) : Near thresholds (n + 1) a c := by
  cases a with
  | none =>
    cases b with
    | none =>
      cases c with
      | none => trivial
      | some c => exact hbc.elim
    | some b => exact hab.elim
  | some a =>
    cases b with
    | none => exact hab.elim
    | some b =>
      cases c with
      | none => exact hbc.elim
      | some c =>
        obtain ⟨hvalue, hconfidence, hlayer⟩ := hab
        obtain ⟨hvalue', hconfidence', hlayer'⟩ := hbc
        rw [Nat.cast_one, one_mul] at hvalue' hconfidence'
        refine ⟨?_, ?_, fun hcounts => (hlayer' hcounts).trans (hlayer hcounts)⟩
        · calc |c.current_value - a.current_value|
              ≤ |c.current_value - b.current_value| + |b.current_value - a.current_value| :=
                abs_sub_le ..
            _ < thresholds.value_delta + n * thresholds.value_delta := add_lt_add hvalue' hvalue
            _ = ↑(n + 1) * thresholds.value_delta := by push_cast; ring
        · calc |c.confidence - a.confidence|
              ≤ |c.confidence - b.confidence| + |b.confidence - a.confidence| := abs_sub_le ..
            _ < thresholds.confidence_delta + n * thresholds.confidence_delta :=
                add_lt_add hconfidence' hconfidence
            _ = ↑(n + 1) * thresholds.confidence_delta := by push_cast; ring

theorem compare_hasChange_iff (previous current : IterationSnapshot) :
    (compare thresholds (some previous) current).hasChange = false ↔
      ∀ name, Near thresholds 1 (previous.get? name) (current.get? name) := by
  have hempty : (compare thresholds (some previous) current).hasChange = false ↔
      changedDimensions thresholds previous current = [] := by
    unfold compare
    dsimp only
    split
    · next h => simp [List.length_pos_iff.mp h]
    · next h => simpa using h
  rw [hempty, changedDimensions, List.append_eq_nil_iff, List.map_eq_nil_iff,
    List.filter_eq_nil_iff, List.filter_eq_nil_iff]
  constructor
  · rintro ⟨hcurrent, hgone⟩ name
    cases hcurr : current.get? name with
    | none =>
      cases hprev : previous.get? name with
      | none => trivial
      | some prev =>
        exact absurd (by rw [hcurr]; rfl) (hgone name (ObjectMap.mem_keys_iff.mpr ⟨prev, hprev⟩))
    | some curr =>
      have hsame := hcurrent (name, curr) (ObjectMap.mem_entries_iff.mpr hcurr)
      cases hprev : previous.get? name with
      | none => simp [hprev] at hsame
      | some prev => exact near_one_iff.mpr (by simpa [hprev] using hsame)
  · intro hall
    constructor
    · rintro ⟨name, curr⟩ hmem
      have hclose := hall name
      rw [ObjectMap.mem_entries_iff.mp hmem] at hclose
      cases hprev : previous.get? name with
      | none =>
        rw [hprev] at hclose
        exact hclose.elim
      | some prev =>
        rw [hprev] at hclose
        simpa [hprev] using near_one_iff.mp hclose
    · intro name hmem hnone
      obtain ⟨prev, hprev⟩ := ObjectMap.mem_keys_iff.mp hmem
      have hclose := hall name
      rw [hprev, Option.isNone_iff_eq_none.mp hnone] at hclose
      exact hclose

theorem close_iff {dim₀ dim : Dimension} :
    Close thresholds dim₀ dim ↔ changed thresholds dim₀.snapshot dim.snapshot = false ∧
      SameUnlessNumeric dim₀.current_value dim.current_value := by
  rw [changed_eq_false_iff]
  constructor
  · exact fun h => ⟨⟨h.value, h.confidence, h.layer⟩, h.nonNumeric⟩
  · rintro ⟨⟨hvalue, hconfidence, hlayer⟩, hsame⟩
    exact ⟨hsame, hvalue, hconfidence, hlayer⟩

/-- **A change is seen or unseen**: a goal has not changed exactly when snapshots show no
change and what they do not show has not changed. -/
theorem unchanged_iff (before after : List Dimension) :
    Unchanged thresholds before after ↔
      (compare thresholds (some (buildSnapshot before)) (buildSnapshot after)).hasChange = false ∧
        UnseenUnchanged thresholds before after := by
  rw [compare_hasChange_iff]
  unfold Unchanged UnseenUnchanged
  rw [← forall_and]
  refine forall_congr' fun name => ?_
  rw [buildSnapshot_get?, buildSnapshot_get?]
  cases named before name with
  | nil =>
    cases named after name with
    | nil => simp [Near]
    | cons dim dims => simp [Near]
  | cons dim₀ dims₀ =>
    cases named after name with
    | nil => simp [Near]
    | cons dim dims =>
      simp only [List.forall₂_cons, close_iff, List.head?_cons, Option.map_some, near_one_iff,
        List.tail_cons, Option.mem_some_iff, forall_eq']
      tauto

/-! ## One check -/

variable (thresholds maxConsecutiveSkips) in
theorem stateDiffCheck_shouldSkip_iff (s : StateDiffState) (check : Check) :
    (stateDiffCheck thresholds maxConsecutiveSkips s check).2.shouldSkip = true ↔
      (compare thresholds s.previousSnapshot (buildSnapshot check.dimensions)).hasChange = false ∧
        s.consecutiveSkips < maxConsecutiveSkips := by
  unfold stateDiffCheck
  dsimp only
  split
  · next h => simpa using h
  · next h => simpa using h

theorem stateDiffCheck_state (s : StateDiffState) (check : Check) :
    (stateDiffCheck thresholds maxConsecutiveSkips s check).1 =
      ⟨some (buildSnapshot check.dimensions),
        if (stateDiffCheck thresholds maxConsecutiveSkips s check).2.shouldSkip
          then s.consecutiveSkips + 1 else 0⟩ := by
  unfold stateDiffCheck
  dsimp only
  split
  · rfl
  · rfl

theorem lastExecuted_concat (hist : List (Check × Verdict)) (l : Check × Verdict) :
    lastExecuted (hist ++ [l]) = if l.2.shouldSkip then lastExecuted hist else some l.1 := by
  unfold lastExecuted
  rw [List.filter_append]
  cases hskip : l.2.shouldSkip with
  | true => simp [hskip]
  | false => simp [hskip]

theorem skipsSince_concat (hist : List (Check × Verdict)) (l : Check × Verdict) :
    skipsSince (hist ++ [l]) = if l.2.shouldSkip then skipsSince hist + 1 else 0 :=
  streak_concat ..

/-! ## Runs of one goal -/

/-- What the state of a goal remembers of its checks: the snapshot of the last one, skipped
or not, and the number of skips. The first check is not skipped. -/
structure Tracks (hist : List (Check × Verdict)) (s : StateDiffState) : Prop where
  snapshot : s.previousSnapshot = hist.getLast?.map fun l => buildSnapshot l.1.dimensions
  skips : s.consecutiveSkips = skipsSince hist
  executed : hist = [] ∨ (lastExecuted hist).isSome = true

variable (thresholds maxConsecutiveSkips) in
theorem Tracks.step {hist : List (Check × Verdict)} {s : StateDiffState} (h : Tracks hist s)
    (check : Check) :
    Tracks (hist ++ [(check, (stateDiffCheck thresholds maxConsecutiveSkips s check).2)])
      (stateDiffCheck thresholds maxConsecutiveSkips s check).1 where
  snapshot := by
    rw [stateDiffCheck_state]
    simp
  skips := by
    rw [stateDiffCheck_state, skipsSince_concat, h.skips]
  executed := by
    refine .inr ?_
    rw [lastExecuted_concat]
    split
    · next hskip =>
      rcases h.executed with hnil | hsome
      · -- without an earlier check there is nothing to compare with
        have hchange :=
          ((stateDiffCheck_shouldSkip_iff thresholds maxConsecutiveSkips s check).mp hskip).1
        rw [h.snapshot, hnil] at hchange
        cases hchange
      · exact hsome
    · rfl

theorem tracks_of_run {ls : List (Check × Verdict)} {s : StateDiffState}
    (hrun : (LTS.ofFn (stateDiffCheck thresholds maxConsecutiveSkips)).Run {} ls s) :
    Tracks ls s := by
  refine hrun.history ⟨rfl, rfl, .inl rfl⟩ ?_
  rintro hist a ⟨check, verdict⟩ b - hstep htracks
  have hnext := htracks.step thresholds maxConsecutiveSkips check
  have hstep : stateDiffCheck thresholds maxConsecutiveSkips a check = (b, verdict) := hstep
  rwa [hstep] at hnext

/-- The verdict of a check follows from the checks before it. -/
theorem verdict_of_run {ls hist rest : List (Check × Verdict)} {s : StateDiffState}
    {check : Check} {verdict : Verdict}
    (hrun : (LTS.ofFn (stateDiffCheck thresholds maxConsecutiveSkips)).Run {} ls s)
    (hsplit : ls = hist ++ (check, verdict) :: rest) :
    (hist = [] ∨ (lastExecuted hist).isSome = true) ∧
    (verdict.shouldSkip = true ↔
      (compare thresholds (hist.getLast?.map fun l => buildSnapshot l.1.dimensions)
        (buildSnapshot check.dimensions)).hasChange = false ∧
      skipsSince hist < maxConsecutiveSkips) := by
  obtain ⟨a, hhist, hrest⟩ := LTS.Run.append_iff.mp (hsplit ▸ hrun)
  obtain ⟨b, hstep, -⟩ := LTS.Run.cons_iff.mp hrest
  have hstep : stateDiffCheck thresholds maxConsecutiveSkips a check = (b, verdict) := hstep
  have htracks := tracks_of_run hhist
  have hiff := stateDiffCheck_shouldSkip_iff thresholds maxConsecutiveSkips a check
  rw [hstep, htracks.snapshot, htracks.skips] at hiff
  exact ⟨htracks.executed, hiff⟩

/-- A skip is at a state near that of the check before. -/
theorem skip_near_last {ls hist rest : List (Check × Verdict)} {s : StateDiffState}
    {check : Check} {verdict : Verdict}
    (hrun : (LTS.ofFn (stateDiffCheck thresholds maxConsecutiveSkips)).Run {} ls s)
    (hsplit : ls = hist ++ (check, verdict) :: rest) (hskip : verdict.shouldSkip = true) :
    skipsSince hist < maxConsecutiveSkips ∧
    ∃ last base, hist.getLast? = some last ∧ lastExecuted hist = some base ∧
      (compare thresholds (some (buildSnapshot last.1.dimensions))
        (buildSnapshot check.dimensions)).hasChange = false := by
  obtain ⟨hexecuted, hiff⟩ := verdict_of_run hrun hsplit
  obtain ⟨hsame, hskips⟩ := hiff.mp hskip
  refine ⟨hskips, ?_⟩
  cases hlast : hist.getLast? with
  | none =>
    rw [hlast] at hsame
    cases hsame
  | some last =>
    rw [hlast, Option.map_some] at hsame
    rcases hexecuted with hnil | hsome
    · rw [hnil] at hlast
      cases hlast
    · obtain ⟨base, hbase⟩ := Option.isSome_iff_exists.mp hsome
      exact ⟨last, base, rfl, hbase, hsame⟩

/-- **Changes add up** over the skips in a row, and not further: the state of the last check
is as near to that of the last iteration that was not skipped as their number allows. -/
theorem last_near_executed {ls hist rest : List (Check × Verdict)} {s : StateDiffState}
    {last : Check × Verdict} {base : Check}
    (hrun : (LTS.ofFn (stateDiffCheck thresholds maxConsecutiveSkips)).Run {} ls s)
    (hsplit : ls = hist ++ rest) (hlast : hist.getLast? = some last)
    (hbase : lastExecuted hist = some base) :
    (skipsSince hist = 0 ∧ last.1 = base) ∨
    (0 < skipsSince hist ∧ ∀ name, Near thresholds (skipsSince hist)
      ((buildSnapshot base.dimensions).get? name)
      ((buildSnapshot last.1.dimensions).get? name)) := by
  induction hist using List.reverseRecOn generalizing rest last with
  | nil => cases hlast
  | append_singleton hist l ih =>
    rw [List.getLast?_concat] at hlast
    cases hlast
    have hsplit' : ls = hist ++ (l.1, l.2) :: rest := by simpa using hsplit
    rw [skipsSince_concat]
    rw [lastExecuted_concat] at hbase
    cases hskip : l.2.shouldSkip with
    | false =>
      rw [hskip] at hbase
      exact .inl ⟨rfl, Option.some.inj hbase⟩
    | true =>
      rw [hskip, if_pos rfl] at hbase
      obtain ⟨-, last, base', hlast, hbase', hsame⟩ := skip_near_last hrun hsplit' hskip
      rw [hbase] at hbase'
      cases hbase'
      have hnear := (compare_hasChange_iff ..).mp hsame
      refine .inr ⟨Nat.succ_pos _, fun name => ?_⟩
      rcases ih hsplit' hlast hbase with ⟨hzero, hsame⟩ | ⟨-, hnear'⟩
      · rw [if_pos rfl, hzero, ← hsame]
        exact hnear name
      · rw [if_pos rfl]
        exact (hnear' name).add_one (hnear name)

/-- **The skips of one goal** are near the last iteration that was not skipped. -/
theorem component_near {ls : List (Check × Verdict)} {s : StateDiffState}
    (hrun : (LTS.ofFn (stateDiffCheck thresholds maxConsecutiveSkips)).Run {} ls s) :
    SkipsNear thresholds maxConsecutiveSkips ls := by
  intro hist check verdict rest hsplit hskip
  obtain ⟨hskips, last, base, hlast, hbase, hsame⟩ := skip_near_last hrun hsplit hskip
  have hnear := (compare_hasChange_iff ..).mp hsame
  refine ⟨hskips, last, base, hlast, hbase, fun name => ⟨hnear name, ?_⟩⟩
  rcases last_near_executed hrun hsplit hlast hbase with ⟨hzero, heq⟩ | ⟨-, hnear'⟩
  · rw [hzero, ← heq]
    exact hnear name
  · exact (hnear' name).add_one (hnear name)

/-- **The skips of one goal** are sound exactly when its changes are seen. -/
theorem component_sound_iff {ls : List (Check × Verdict)} {s : StateDiffState}
    (hrun : (LTS.ofFn (stateDiffCheck thresholds maxConsecutiveSkips)).Run {} ls s) :
    SkipsSound thresholds maxConsecutiveSkips ls ↔
      ChangesSeen thresholds maxConsecutiveSkips ls := by
  constructor
  · intro hsound hist check verdict rest hsplit last hlast base hbase hskips hsame
    obtain ⟨-, hiff⟩ := verdict_of_run hrun hsplit
    rw [Option.mem_def.mp hlast, Option.map_some] at hiff
    obtain ⟨⟨base', hbase', hunchanged⟩, -⟩ :=
      hsound hist check verdict rest hsplit (hiff.mpr ⟨hsame, hskips⟩)
    rw [Option.mem_def.mp hbase] at hbase'
    cases hbase'
    exact (unchanged_iff ..).mp hunchanged
  · intro hseen hist check verdict rest hsplit hskip
    obtain ⟨hskips, last, base, hlast, hbase, hsame⟩ := skip_near_last hrun hsplit hskip
    exact ⟨⟨base, hbase, (unchanged_iff ..).mpr
      (hseen hist check verdict rest hsplit last hlast base hbase hskips hsame)⟩, hskips⟩

end Proofs

/-! ## Runs -/

/-- Each goal has its own component. -/
theorem runStateDiffCheck_eq :
    runStateDiffCheck thresholds maxConsecutiveSkips =
      perKey Check.goalId {} (stateDiffCheck thresholds maxConsecutiveSkips) := rfl

theorem checksOf_history (goalId : String) (checks : List Check) :
    checksOf goalId (history thresholds maxConsecutiveSkips checks) =
      (LTS.exec (stateDiffCheck thresholds maxConsecutiveSkips) {}
        (checks.filter fun check => decide (check.goalId = goalId))).1 := by
  unfold checksOf history
  rw [runStateDiffCheck_eq, exec_perKey_filter]
  rfl

theorem checksOf_alone (goalId : String) (checks : List Check) :
    checksOf goalId (history thresholds maxConsecutiveSkips checks) =
      history thresholds maxConsecutiveSkips
        (checks.filter fun check => decide (check.goalId = goalId)) := by
  unfold checksOf history
  rw [runStateDiffCheck_eq, exec_perKey_alone]

/-- A check of a goal with one dimension. -/
def coverage (value : ℚ) : Check where
  goalId := "g"
  dimensions := [{ name := "coverage", current_value := some (.number value), confidence := 1 }]

/-- A value that grows by less than the threshold from check to check. -/
def drift : List Check := [coverage 0, coverage (3 / 100), coverage (6 / 100)]

end PulSeed.StateDiff
