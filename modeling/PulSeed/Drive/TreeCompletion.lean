import PulSeed.Drive.Satisficing
import PulSeed.Lib.Transition

/-!
# Completion of a goal tree and its confirmation

A goal with children is complete when nothing below it blocks. A leaf whose dimensions are
met for the first time awaits its second confirmation: it is not complete, and it does not
block either. So a goal can be reported complete on a child that is not.

`Confirmed` describes when this does not happen: below a goal that nothing blocks, every
leaf child has been found met by the judgment before. It speaks of the tree and of the
streaks before the call only. A call reports goals complete on complete children exactly
then (`respects_iff_confirmed`), and so in runs (`run_respects_iff_confirmed`).
-/

namespace PulSeed.Drive

/-! ## Leaves -/

/-- The judgment of a leaf: nothing blocks when its dimensions are met, and it is complete
when it has none or has been found met before. -/
theorem isGoalComplete_spec (goal : Goal) (convergenceStatuses : ConvergenceStatuses)
    (streaks : Streaks) :
    let judgment := (isGoalComplete goal convergenceStatuses streaks).1
    ((judgment.blocking_dimensions = [] ∧ judgment.low_confidence_dimensions = []) ↔
      allDimensionsMet goal convergenceStatuses = true) ∧
    (judgment.is_complete = true ↔ allDimensionsMet goal convergenceStatuses = true ∧
      (goal.dimensions = [] ∨ 1 ≤ streaks goal.id)) := by
  unfold isGoalComplete
  split
  · next hnil =>
    have hmet : allDimensionsMet goal convergenceStatuses = true := by
      simp [allDimensionsMet, blockingDimensions, lowConfidenceDimensions, hnil]
    simp [hmet, hnil]
  · next hne =>
    refine ⟨?_, ?_⟩
    · simp [allDimensionsMet]
    · simp [hne]

theorem isGoalComplete_frame (goal : Goal) (convergenceStatuses : ConvergenceStatuses)
    (streaks : Streaks) {id : String} (hid : id ≠ goal.id) :
    (isGoalComplete goal convergenceStatuses streaks).2 id = streaks id := by
  unfold isGoalComplete
  split
  · rfl
  · exact Function.update_of_ne hid ..

/-! ## The tree below a goal -/

section Tree

variable (loadGoal : String → Option Goal) (convergenceStatuses : ConvergenceStatuses)

/-- The child of that id, unless it is missing or cancelled. -/
def liveChild (childId : String) : Option Goal :=
  (loadGoal childId).filter (·.status ≠ .cancelled)

/-- The leaves that are judged, in the order of their judgment. -/
def leavesBelow : Nat → String → List String
  | 0, id =>
    match loadGoal id with
    | some goal => if goal.children_ids = [] then [goal.id] else []
    | none => []
  | depth + 1, id =>
    match loadGoal id with
    | some goal =>
      if goal.children_ids = [] then [goal.id]
      else goal.children_ids.flatMap fun childId =>
        if (liveChild loadGoal childId).isSome then leavesBelow depth childId else []
    | none => []

/-- Nothing blocks: no child is missing, and every leaf that is judged has its dimensions
met. -/
def unblocked : Nat → String → Bool
  | 0, _ => false
  | depth + 1, id =>
    match loadGoal id with
    | none => false
    | some goal =>
      if goal.children_ids = [] then allDimensionsMet goal convergenceStatuses
      else goal.children_ids.all fun childId =>
        match loadGoal childId with
        | none => false
        | some child => child.status = .cancelled || unblocked depth childId

/-- A leaf is confirmed when it has no dimensions or has been found met by the judgment
before; a goal with children does not wait. -/
def confirmed (streaks : Streaks) (goal : Goal) : Bool :=
  goal.children_ids ≠ [] || goal.dimensions = [] || 1 ≤ streaks goal.id

/-- In the tree below the goal, a goal with children that nothing blocks has no child that
awaits its confirmation. -/
def allConfirmed (streaks : Streaks) : Nat → String → Bool
  | 0, _ => true
  | depth + 1, id =>
    match loadGoal id with
    | none => true
    | some goal =>
      if goal.children_ids = [] then true
      else (!unblocked loadGoal convergenceStatuses (depth + 1) id ||
          goal.children_ids.all fun childId =>
            (liveChild loadGoal childId).all (confirmed streaks)) &&
        goal.children_ids.all fun childId =>
          (liveChild loadGoal childId).isNone || allConfirmed streaks depth childId

end Tree

/-- The goal was reported complete only on complete children. -/
def Report.Respects (report : Report) : Prop :=
  report.judgment.is_complete = true → ∀ child ∈ report.children, child.is_complete = true

/-! ## Streaks that a call does not touch -/

section Proofs

variable {loadGoal : String → Option Goal} {convergenceStatuses : ConvergenceStatuses}

theorem liveChild_eq_some {childId : String} {child : Goal} (h : loadGoal childId = some child)
    (hlive : child.status ≠ .cancelled) : liveChild loadGoal childId = some child := by
  unfold liveChild
  rw [h]
  simp [hlive]

theorem liveChild_eq_none {childId : String}
    (h : ∀ child, loadGoal childId = some child → child.status = .cancelled) :
    liveChild loadGoal childId = none := by
  unfold liveChild
  cases hload : loadGoal childId with
  | none => rfl
  | some child => simp [h child hload]

theorem liveChild_some {childId : String} {child : Goal}
    (h : liveChild loadGoal childId = some child) :
    loadGoal childId = some child ∧ child.status ≠ .cancelled := by
  obtain ⟨hload, hlive⟩ := Option.filter_eq_some_iff.mp h
  exact ⟨hload, by simpa using hlive⟩

theorem leaf_mem_leavesBelow {depth : Nat} {id : String} {goal : Goal}
    (h : loadGoal id = some goal) (hleaf : goal.children_ids = []) :
    goal.id ∈ leavesBelow loadGoal depth id := by
  cases depth <;> simp [leavesBelow, h, hleaf]

theorem leavesBelow_child {depth : Nat} {id childId leaf : String} {goal child : Goal}
    (h : loadGoal id = some goal) (hchild : childId ∈ goal.children_ids)
    (hlive : liveChild loadGoal childId = some child)
    (hleaf : leaf ∈ leavesBelow loadGoal depth childId) :
    leaf ∈ leavesBelow loadGoal (depth + 1) id := by
  unfold leavesBelow
  rw [h]
  dsimp only
  rw [if_neg (List.ne_nil_of_mem hchild)]
  exact List.mem_flatMap.mpr ⟨childId, hchild, by rwa [hlive]⟩

theorem confirmed_congr {streaks streaks' : Streaks} {depth : Nat} {id : String} {goal : Goal}
    (hload : loadGoal id = some goal)
    (h : ∀ leaf ∈ leavesBelow loadGoal depth id, streaks' leaf = streaks leaf) :
    confirmed streaks' goal = confirmed streaks goal := by
  unfold confirmed
  by_cases hleaf : goal.children_ids = []
  · rw [h _ (leaf_mem_leavesBelow hload hleaf)]
  · simp [hleaf]

theorem all_eq_of_forall_mem {l : List String} {p q : String → Bool}
    (h : ∀ a ∈ l, p a = q a) : l.all p = l.all q := by
  rw [Bool.eq_iff_iff, List.all_eq_true, List.all_eq_true]
  exact forall₂_congr fun a ha => by rw [h a ha]

theorem allConfirmed_congr {streaks streaks' : Streaks} {depth : Nat} {id : String}
    (h : ∀ leaf ∈ leavesBelow loadGoal depth id, streaks' leaf = streaks leaf) :
    allConfirmed loadGoal convergenceStatuses streaks' depth id =
      allConfirmed loadGoal convergenceStatuses streaks depth id := by
  induction depth generalizing id with
  | zero => rfl
  | succ depth ih =>
    unfold allConfirmed
    cases hload : loadGoal id with
    | none => rfl
    | some goal =>
      dsimp only
      have hchild : ∀ childId ∈ goal.children_ids, ∀ child,
          liveChild loadGoal childId = some child →
            confirmed streaks' child = confirmed streaks child ∧
            allConfirmed loadGoal convergenceStatuses streaks' depth childId =
              allConfirmed loadGoal convergenceStatuses streaks depth childId := by
        intro childId hmem child hlive
        have hleaves := fun leaf hleaf => h leaf (leavesBelow_child hload hmem hlive hleaf)
        exact ⟨confirmed_congr (liveChild_some hlive).1 hleaves, ih hleaves⟩
      have hconfirmed : (goal.children_ids.all fun childId =>
          (liveChild loadGoal childId).all (confirmed streaks')) =
          goal.children_ids.all fun childId =>
            (liveChild loadGoal childId).all (confirmed streaks) := by
        refine all_eq_of_forall_mem fun childId hmem => ?_
        cases hlive : liveChild loadGoal childId with
        | none => rfl
        | some child => exact (hchild childId hmem child hlive).1
      have hbelow : (goal.children_ids.all fun childId =>
          (liveChild loadGoal childId).isNone ||
            allConfirmed loadGoal convergenceStatuses streaks' depth childId) =
          goal.children_ids.all fun childId => (liveChild loadGoal childId).isNone ||
            allConfirmed loadGoal convergenceStatuses streaks depth childId := by
        refine all_eq_of_forall_mem fun childId hmem => ?_
        cases hlive : liveChild loadGoal childId with
        | none => rfl
        | some child => rw [(hchild childId hmem child hlive).2]
      rw [hconfirmed, hbelow]

/-! ## The loop over the children -/

theorem pushNew_eq_nil_iff {dims new : List String} :
    pushNew dims new = [] ↔ dims = [] ∧ new = [] := by
  unfold pushNew
  induction new generalizing dims with
  | nil => simp
  | cons dim new ih =>
    rw [List.foldl_cons, ih]
    by_cases hmem : dim ∈ dims
    · rw [if_pos hmem]
      simp [List.ne_nil_of_mem hmem]
    · simp [hmem]

/-- What a judgment of a goal says, in terms of the tree and of the streaks before. -/
structure JudgeSpec (loadGoal : String → Option Goal)
    (convergenceStatuses : ConvergenceStatuses) (depth : Nat) (id : String) (goal : Goal)
    (streaks : Streaks) (result : CompletionJudgment × Streaks × List Report) : Prop where
  blocks : (result.1.blocking_dimensions = [] ∧ result.1.low_confidence_dimensions = []) ↔
    unblocked loadGoal convergenceStatuses depth id = true
  complete : result.1.is_complete = true ↔
    unblocked loadGoal convergenceStatuses depth id = true ∧ confirmed streaks goal = true
  reports : (∀ report ∈ result.2.2, report.Respects) ↔
    allConfirmed loadGoal convergenceStatuses streaks depth id = true
  frame : ∀ k ∉ leavesBelow loadGoal depth id, result.2.1 k = streaks k

/-- The leaves that the loop over the children judges. -/
def childLeaves (loadGoal : String → Option Goal) (depth : Nat) (children : List String) :
    List String :=
  children.flatMap fun childId =>
    if (liveChild loadGoal childId).isSome then leavesBelow loadGoal depth childId else []

/-- The tally after a child, from the judgment of the child. -/
theorem JudgeSpec.blocks_add {depth : Nat} {id : String} {goal : Goal} {tally : Tally}
    {judgment : CompletionJudgment} {streaks : Streaks} {reports : List Report}
    (h : JudgeSpec loadGoal convergenceStatuses depth id goal tally.satisficingStreak
      (judgment, streaks, reports)) :
    ((tally.add judgment streaks reports).blockingDimensions = [] ∧
      (tally.add judgment streaks reports).lowConfidenceDimensions = []) ↔
      (tally.blockingDimensions = [] ∧ tally.lowConfidenceDimensions = []) ∧
        unblocked loadGoal convergenceStatuses depth id = true := by
  unfold Tally.add
  dsimp only
  cases hcomplete : judgment.is_complete with
  | true =>
    have hunblocked := (h.complete.mp hcomplete).1
    simp [hunblocked]
  | false =>
    simp only [Bool.false_eq_true, if_false, pushNew_eq_nil_iff]
    rw [← h.blocks]
    tauto

/-- What the loop over the children leaves in the tally. -/
structure LoopSpec (loadGoal : String → Option Goal) (convergenceStatuses : ConvergenceStatuses)
    (depth : Nat) (children : List String) (tally result : Tally) : Prop where
  blocks : (result.blockingDimensions = [] ∧ result.lowConfidenceDimensions = []) ↔
    (tally.blockingDimensions = [] ∧ tally.lowConfidenceDimensions = []) ∧
      ∀ childId ∈ children, ∃ child, loadGoal childId = some child ∧
        (child.status = .cancelled ∨ unblocked loadGoal convergenceStatuses depth childId = true)
  judged : (∀ judgment ∈ result.judged, judgment.is_complete = true) ↔
    (∀ judgment ∈ tally.judged, judgment.is_complete = true) ∧
      ∀ childId ∈ children, ∀ child, liveChild loadGoal childId = some child →
        unblocked loadGoal convergenceStatuses depth childId = true ∧
          confirmed tally.satisficingStreak child = true
  reports : (∀ report ∈ result.reports, report.Respects) ↔
    (∀ report ∈ tally.reports, report.Respects) ∧
      ∀ childId ∈ children, ∀ child, liveChild loadGoal childId = some child →
        allConfirmed loadGoal convergenceStatuses tally.satisficingStreak depth childId = true
  frame : ∀ k ∉ childLeaves loadGoal depth children,
    result.satisficingStreak k = tally.satisficingStreak k

theorem judgeChildren_spec {depth : Nat}
    {judge : String → Streaks → Option (CompletionJudgment × Streaks × List Report)}
    (hjudge : ∀ childId child streaks result, loadGoal childId = some child →
      (leavesBelow loadGoal depth childId).Nodup → judge childId streaks = some result →
        JudgeSpec loadGoal convergenceStatuses depth childId child streaks result)
    {children : List String} (hnodup : (childLeaves loadGoal depth children).Nodup)
    {tally result : Tally} (h : judgeChildren loadGoal judge children tally = some result) :
    LoopSpec loadGoal convergenceStatuses depth children tally result := by
  induction children generalizing tally with
  | nil =>
    cases h
    exact ⟨by simp, by simp, by simp, fun _ _ => rfl⟩
  | cons childId rest ih =>
    unfold judgeChildren at h
    obtain ⟨hfirst, hrest, hdisjoint⟩ := List.nodup_append.mp
      (show ((if (liveChild loadGoal childId).isSome then leavesBelow loadGoal depth childId
        else []) ++ childLeaves loadGoal depth rest).Nodup from hnodup)
    have hframe : ∀ k, k ∉ childLeaves loadGoal depth (childId :: rest) →
        k ∉ childLeaves loadGoal depth rest := fun k hk hmem =>
      hk (List.mem_append_right _ hmem)
    cases hload : loadGoal childId with
    | none =>
      -- a missing child blocks
      rw [hload] at h
      have hloop := ih hrest h
      have hdead : liveChild loadGoal childId = none :=
        liveChild_eq_none fun child hchild => by rw [hload] at hchild; cases hchild
      refine ⟨?_, ?_, ?_, fun k hk => hloop.frame k (hframe k hk)⟩
      · rw [hloop.blocks]
        simp [hload]
      · rw [hloop.judged]
        simp [hdead]
      · rw [hloop.reports]
        simp [hdead]
    | some child =>
      rw [hload] at h
      dsimp only at h
      split at h
      · -- a cancelled child is passed over
        next hcancelled =>
        have hloop := ih hrest h
        have hdead : liveChild loadGoal childId = none :=
          liveChild_eq_none fun child' hchild => by
            rw [hload] at hchild
            cases hchild
            exact hcancelled
        refine ⟨?_, ?_, ?_, fun k hk => hloop.frame k (hframe k hk)⟩
        · rw [hloop.blocks]
          simp [hload, hcancelled]
        · rw [hloop.judged]
          simp [hdead]
        · rw [hloop.reports]
          simp [hdead]
      · next hlive =>
        split at h
        · cases h
        · next judgment streaks reports hcall =>
          have hchild := liveChild_eq_some hload hlive
          rw [hchild] at hfirst hdisjoint
          have hspec := hjudge childId child _ _ hload hfirst hcall
          have hloop := ih hrest h
          -- the judgment of this child does not touch the streaks of the leaves that follow
          have hsame : ∀ otherId ∈ rest, ∀ other, liveChild loadGoal otherId = some other →
              ∀ leaf ∈ leavesBelow loadGoal depth otherId,
                streaks leaf = tally.satisficingStreak leaf := by
            intro otherId hmem other hother leaf hleaf
            have hlater : leaf ∈ childLeaves loadGoal depth rest :=
              List.mem_flatMap.mpr ⟨otherId, hmem, by rwa [hother]⟩
            exact hspec.frame leaf fun hnow => hdisjoint leaf hnow leaf hlater rfl
          refine ⟨?_, ?_, ?_, fun k hk => ?_⟩
          · rw [hloop.blocks, hspec.blocks_add]
            simp [hload, hlive, and_assoc]
          · rw [hloop.judged]
            have hhead : (∀ j ∈ (tally.add judgment streaks reports).judged,
                j.is_complete = true) ↔ (∀ j ∈ tally.judged, j.is_complete = true) ∧
                  judgment.is_complete = true := by
              simp [Tally.add, or_imp, forall_and]
            have htail : (∀ otherId ∈ rest, ∀ other, liveChild loadGoal otherId = some other →
                unblocked loadGoal convergenceStatuses depth otherId = true ∧
                  confirmed streaks other = true) ↔
                ∀ otherId ∈ rest, ∀ other, liveChild loadGoal otherId = some other →
                  unblocked loadGoal convergenceStatuses depth otherId = true ∧
                    confirmed tally.satisficingStreak other = true :=
              forall₄_congr fun otherId hmem other hother => by
                rw [confirmed_congr (liveChild_some hother).1 (hsame otherId hmem other hother)]
            rw [hhead, hspec.complete, and_assoc]
            refine and_congr_right fun _ => ?_
            rw [List.forall_mem_cons, hchild]
            refine and_congr ?_ htail
            simp
          · rw [hloop.reports]
            have hhead : (∀ r ∈ (tally.add judgment streaks reports).reports, r.Respects) ↔
                (∀ r ∈ tally.reports, r.Respects) ∧ ∀ r ∈ reports, r.Respects := by
              simp [Tally.add, or_imp, forall_and]
            have htail : (∀ otherId ∈ rest, ∀ other, liveChild loadGoal otherId = some other →
                allConfirmed loadGoal convergenceStatuses streaks depth otherId = true) ↔
                ∀ otherId ∈ rest, ∀ other, liveChild loadGoal otherId = some other →
                  allConfirmed loadGoal convergenceStatuses tally.satisficingStreak depth otherId
                    = true :=
              forall₄_congr fun otherId hmem other hother => by
                rw [allConfirmed_congr (hsame otherId hmem other hother)]
            rw [hhead, hspec.reports, and_assoc]
            refine and_congr_right fun _ => ?_
            rw [List.forall_mem_cons, hchild]
            refine and_congr ?_ htail
            simp
          · rw [hloop.frame k (hframe k hk)]
            exact hspec.frame k fun hmem =>
              hk (List.mem_append_left _ (by simpa [hchild] using hmem))

/-! ## The tree -/

/-- **The judgment of a goal**, for every tree below it. -/
theorem judgeTreeCompletion_spec {depth : Nat} {id : String} {goal : Goal} {streaks : Streaks}
    {result : CompletionJudgment × Streaks × List Report} (hload : loadGoal id = some goal)
    (hnodup : (leavesBelow loadGoal depth id).Nodup)
    (h : judgeTreeCompletion loadGoal convergenceStatuses depth id streaks = some result) :
    JudgeSpec loadGoal convergenceStatuses depth id goal streaks result := by
  induction depth generalizing id goal streaks result with
  | zero => cases h
  | succ depth ih =>
    unfold judgeTreeCompletion at h
    rw [hload] at h
    dsimp only at h
    split at h
    · next hleaf =>
      cases h
      obtain ⟨hblocks, hcomplete⟩ := isGoalComplete_spec goal convergenceStatuses streaks
      have hunblocked : unblocked loadGoal convergenceStatuses (depth + 1) id =
          allDimensionsMet goal convergenceStatuses := by
        simp [unblocked, hload, hleaf]
      refine ⟨?_, ?_, ?_, fun k hk => ?_⟩
      · rw [hunblocked]
        exact hblocks
      · rw [hunblocked, hcomplete]
        simp [confirmed, hleaf]
      · simp [allConfirmed, hload, hleaf]
      · refine isGoalComplete_frame goal convergenceStatuses streaks fun heq => hk ?_
        rw [heq]
        exact leaf_mem_leavesBelow hload hleaf
    · next hinner =>
      obtain ⟨tally, hloop, rfl⟩ := Option.map_eq_some_iff.mp h
      have hleaves : leavesBelow loadGoal (depth + 1) id =
          childLeaves loadGoal depth goal.children_ids := by
        simp [leavesBelow, hload, hinner, childLeaves]
      rw [hleaves] at hnodup
      have hspec := judgeChildren_spec
        (fun _ _ _ _ hchild hnodup hcall => ih hchild hnodup hcall) hnodup hloop
      have hunblocked : (∀ childId ∈ goal.children_ids, ∃ child, loadGoal childId = some child ∧
          (child.status = .cancelled ∨
            unblocked loadGoal convergenceStatuses depth childId = true)) ↔
          unblocked loadGoal convergenceStatuses (depth + 1) id = true := by
        rw [unblocked, hload]
        dsimp only
        rw [if_neg hinner, List.all_eq_true]
        refine forall₂_congr fun childId _ => ?_
        cases hchild : loadGoal childId <;> simp
      have hblocks : (tally.blockingDimensions = [] ∧ tally.lowConfidenceDimensions = []) ↔
          unblocked loadGoal convergenceStatuses (depth + 1) id = true := by
        rw [hspec.blocks, ← hunblocked]
        simp
      have hcomplete : tally.judgment.is_complete = true ↔
          unblocked loadGoal convergenceStatuses (depth + 1) id = true := by
        rw [← hblocks]
        simp [Tally.judgment]
      refine ⟨hblocks, ?_, ?_, fun k hk => hspec.frame k (hleaves ▸ hk)⟩
      · rw [hcomplete]
        simp [confirmed, hinner]
      · -- a report on complete children, and the reports below
        have hnode : Report.Respects ⟨goal, tally.judgment, tally.judged⟩ ↔
            (unblocked loadGoal convergenceStatuses (depth + 1) id = true →
              ∀ childId ∈ goal.children_ids, ∀ child, liveChild loadGoal childId = some child →
                confirmed streaks child = true) := by
          unfold Report.Respects
          dsimp only
          rw [hcomplete, hspec.judged]
          refine forall_congr' fun hopen => ?_
          constructor
          · exact fun hall childId hmem child hlive => (hall.2 childId hmem child hlive).2
          · refine fun hall => ⟨by simp, fun childId hmem child hlive => ?_⟩
            obtain ⟨child', hchild, hstate⟩ := hunblocked.mpr hopen childId hmem
            obtain ⟨hchild', hnot⟩ := liveChild_some hlive
            rw [hchild] at hchild'
            cases hchild'
            exact ⟨hstate.resolve_left hnot, hall childId hmem child hlive⟩
        have hall : allConfirmed loadGoal convergenceStatuses streaks (depth + 1) id = true ↔
            (unblocked loadGoal convergenceStatuses (depth + 1) id = true →
              ∀ childId ∈ goal.children_ids, ∀ child, liveChild loadGoal childId = some child →
                confirmed streaks child = true) ∧
            ∀ childId ∈ goal.children_ids, ∀ child, liveChild loadGoal childId = some child →
              allConfirmed loadGoal convergenceStatuses streaks depth childId = true := by
          rw [allConfirmed, hload]
          dsimp only
          rw [if_neg hinner, Bool.and_eq_true, Bool.or_eq_true, Bool.not_eq_true',
            List.all_eq_true, List.all_eq_true]
          refine and_congr ?_ ?_
          · rw [← Bool.not_eq_true, ← imp_iff_not_or]
            refine forall_congr' fun _ => forall₂_congr fun childId _ => ?_
            cases liveChild loadGoal childId <;> simp
          · refine forall₂_congr fun childId _ => ?_
            cases liveChild loadGoal childId <;> simp
        dsimp only
        rw [hall, ← hnode, List.forall_mem_append, hspec.reports]
        simp [and_comm]

end Proofs

/-! ## Runs -/

/-- A goal tree: the stored goals, with a root below which no leaf is reached twice. The
depth bounds the recursion. -/
structure GoalTree where
  loadGoal : String → Option Goal
  rootId : String
  depth : Nat
  leaves_nodup : (leavesBelow loadGoal depth rootId).Nodup

/-- A call of the judge. -/
inductive JudgeCall where
  | isGoalComplete (goal : Goal) (convergenceStatuses : ConvergenceStatuses)
  | judgeTreeCompletion (tree : GoalTree) (convergenceStatuses : ConvergenceStatuses)

/-- What a call that returns returns, the streaks after it, and what the goals with
children were judged on. -/
def JudgeCall.run (streaks : Streaks) :
    JudgeCall → Option (CompletionJudgment × Streaks × List Report)
  | .isGoalComplete goal convergenceStatuses =>
    let (judgment, streaks) := Drive.isGoalComplete goal convergenceStatuses streaks
    some (judgment, streaks, [])
  | .judgeTreeCompletion tree convergenceStatuses =>
    Drive.judgeTreeCompletion tree.loadGoal convergenceStatuses tree.depth tree.rootId streaks

/-- The judge, as a system whose state is its streaks. -/
def judgeStep (streaks : Streaks) (call : JudgeCall) : Option Streaks :=
  (call.run streaks).map (·.2.1)

def judgeLTS : LTS Streaks JudgeCall := .ofPartial judgeStep

/-- Every goal with children that the call judges is reported complete on complete children
only. -/
def Respects (streaks : Streaks) (call : JudgeCall) : Prop :=
  ∀ result, call.run streaks = some result → ∀ report ∈ result.2.2, report.Respects

/-- The condition on a call: below a goal that nothing blocks, no child awaits its
confirmation. -/
def Confirmed (streaks : Streaks) : JudgeCall → Prop
  | .isGoalComplete _ _ => True
  | .judgeTreeCompletion tree convergenceStatuses =>
    allConfirmed tree.loadGoal convergenceStatuses streaks tree.depth tree.rootId = true

instance (streaks : Streaks) : (call : JudgeCall) → Decidable (Confirmed streaks call)
  | .isGoalComplete _ _ => instDecidableTrue
  | .judgeTreeCompletion _ _ => inferInstanceAs (Decidable (_ = true))

/-- **A call respects the confirmation of the children exactly when they are confirmed.** -/
theorem respects_iff_confirmed {streaks streaks' : Streaks} {call : JudgeCall}
    (hstep : judgeStep streaks call = some streaks') :
    Respects streaks call ↔ Confirmed streaks call := by
  obtain ⟨result, hrun, -⟩ := Option.map_eq_some_iff.mp hstep
  have hresult : Respects streaks call ↔ ∀ report ∈ result.2.2, report.Respects := by
    unfold Respects
    rw [hrun]
    simp
  rw [hresult]
  cases call with
  | isGoalComplete goal convergenceStatuses =>
    cases hrun
    simp [Confirmed]
  | judgeTreeCompletion tree convergenceStatuses =>
    have hrun : Drive.judgeTreeCompletion tree.loadGoal convergenceStatuses tree.depth
      tree.rootId streaks = some result := hrun
    cases hload : tree.loadGoal tree.rootId with
    | some goal => exact (judgeTreeCompletion_spec hload tree.leaves_nodup hrun).reports
    | none =>
      unfold Confirmed
      cases hdepth : tree.depth with
      | zero =>
        rw [hdepth] at hrun
        cases hrun
      | succ depth =>
        rw [hdepth, Drive.judgeTreeCompletion, hload] at hrun
        cases hrun
        simp [hdepth, allConfirmed, hload]

/-- **In every run of the judge, the calls report goals complete on complete children only,
exactly when every call finds the children confirmed.** -/
theorem run_respects_iff_confirmed {s₀ s : Streaks} {calls : List JudgeCall}
    (hrun : judgeLTS.Run s₀ calls s) :
    judgeLTS.Always s₀ calls Respects ↔ judgeLTS.Always s₀ calls Confirmed :=
  hrun.always_congr fun _ _ _ => respects_iff_confirmed

/-! ## Sample runs -/

/-- A leaf whose only dimension is met. -/
def sampleLeaf (id : String) : Goal where
  id := id
  dimensions := [{ name := "done", current_value := some (.boolean true), threshold := .present,
                   confidence := .finite 1 }]

/-- A root with two such leaves. -/
def sampleTree : GoalTree where
  loadGoal := fun id =>
    if id = "root" then some { id := "root", dimensions := [], children_ids := ["a", "b"] }
    else if id = "a" ∨ id = "b" then some (sampleLeaf id)
    else none
  rootId := "root"
  depth := 2
  leaves_nodup := by decide +kernel

def sampleJudgments : List JudgeCall :=
  [.isGoalComplete (sampleLeaf "a") none, .isGoalComplete (sampleLeaf "b") none,
    .judgeTreeCompletion sampleTree none]

theorem run_respects_iff_confirmed_sample :
    ∃ s, judgeLTS.Run (fun _ => 0) sampleJudgments s ∧
      judgeLTS.Always (fun _ => 0) sampleJudgments Respects := by
  obtain ⟨s, hs⟩ : ∃ s, LTS.execPartial judgeStep (fun _ => 0) sampleJudgments = some s :=
    Option.isSome_iff_exists.mp (by decide +kernel)
  have hrun := LTS.run_execPartial hs
  exact ⟨s, hrun, (run_respects_iff_confirmed hrun).mpr
    (LTS.ExecPartialAlways.always (by decide +kernel))⟩

/-- **The first judgment of the tree reports the root complete**, on two leaves that await
their confirmation. -/
theorem root_complete_unconfirmed :
    ∃ result, (JudgeCall.judgeTreeCompletion sampleTree none).run (fun _ => 0) = some result ∧
      result.1.is_complete = true ∧
      ∃ report ∈ result.2.2, report.goal.id = "root" ∧ report.judgment.is_complete = true ∧
        report.children.map (·.is_complete) = [false, false] := by
  have h : (((JudgeCall.judgeTreeCompletion sampleTree none).run (fun _ => 0)).any fun result =>
      result.1.is_complete && result.2.2.any fun report => report.goal.id == "root" &&
        report.judgment.is_complete &&
          report.children.map (·.is_complete) == [false, false]) = true := by
    decide +kernel
  obtain ⟨result, hrun, hresult⟩ := (Option.any_eq_true _ _).mp h
  obtain ⟨hcomplete, hany⟩ := Bool.and_eq_true_iff.mp hresult
  obtain ⟨report, hmem, hreport⟩ := List.any_eq_true.mp hany
  simp only [Bool.and_eq_true, beq_iff_eq] at hreport
  exact ⟨result, hrun, hcomplete, report, hmem, hreport.1.1, hreport.1.2, hreport.2⟩

end PulSeed.Drive
