import Mathlib.Data.List.Nodup
import Mathlib.Logic.Function.Basic
import Mathlib.Order.MinMax
import PulSeed.Lib.IsoDate

/-!
# Downward propagation (`propagateStateDown` of `orchestrator/goal/state-aggregator.ts`)

The constraints of a goal are appended to its children where they lack them, and the deadlines
of the children are brought forward to its own. A goal whose deadline has passed leaves the
deadlines of its children as they are.

- `Propagated`: what a call makes of a child.
- `propagateStateDown_settles`: **every stored child is propagated to, nothing else changes,
  and a later call changes nothing at all.**
-/

namespace PulSeed.StateAggregator

/-! ## Goals -/

/-- The fields of a goal that propagation reads or writes, and the others. -/
structure Goal (ρ : Type) where
  id : String
  children_ids : List String := []
  constraints : List String := []
  deadline : Option Datetime := none
  updated_at : Option Datetime := none
  others : ρ

/-- The stored goals; each is found under its id. -/
structure GoalStore (ρ : Type) where
  loadGoal : String → Option (Goal ρ)
  loadGoal_id : ∀ {id goal}, loadGoal id = some goal → goal.id = id

variable {ρ : Type}

/-- `saveGoal`. -/
def GoalStore.saveGoal (store : GoalStore ρ) (goal : Goal ρ) : GoalStore ρ where
  loadGoal := Function.update store.loadGoal goal.id (some goal)
  loadGoal_id := by
    intro id g h
    by_cases hid : id = goal.id
    · subst hid
      rw [Function.update_self] at h
      cases h
      rfl
    · rw [Function.update_of_ne hid] at h
      exact store.loadGoal_id h

theorem GoalStore.loadGoal_saveGoal (store : GoalStore ρ) (goal : Goal ρ) (id : String) :
    (store.saveGoal goal).loadGoal id = if id = goal.id then some goal else store.loadGoal id :=
  Function.update_apply ..

/-! ## Propagation -/

/-- What a call throws. -/
inductive Thrown
  /-- `StateAggregator.propagateStateDown: parent goal "${parentId}" not found`. -/
  | not_found (parentId : String)
  /-- A date that the goal schema refuses. -/
  | invalid_datetime
  deriving DecidableEq

def parseDeadlineMs (deadline : Option Datetime) : Option ℤ := deadline.map Datetime.ms

/-- The constraints of the parent that a child lacks. -/
def newConstraints (parent child : Goal ρ) : List String :=
  parent.constraints.filter fun c => !child.constraints.contains c

/-- The deadline that a child gets. -/
def adjustedDeadline (parentDeadlineMs : Option ℤ) (now : ℤ) (deadline : Option Datetime) :
    Except Thrown (Option Datetime) :=
  match parentDeadlineMs, parseDeadlineMs deadline with
  | some parentDeadlineMs, some childDeadlineMs =>
    let parentRemainingMs := parentDeadlineMs - now
    let childRemainingMs := childDeadlineMs - now
    if 0 < parentRemainingMs ∧ childRemainingMs ≠ parentRemainingMs then
      let newChildRemainingMs := min childRemainingMs parentRemainingMs
      match toISOString (now + newChildRemainingMs) with
      | some text => .ok (some text)
      | none => .error .invalid_datetime
    else .ok deadline
  | _, _ => .ok deadline

/-- What a call saves for a child, if it changes it; `updatedAt` is the time of the save. -/
def updatedChild (parent : Goal ρ) (now : ℤ) (updatedAt : Datetime) (child : Goal ρ) :
    Except Thrown (Option (Goal ρ)) :=
  let added := newConstraints parent child
  match adjustedDeadline (parseDeadlineMs parent.deadline) now child.deadline with
  | .error e => .error e
  | .ok deadline =>
    if added ≠ [] ∨ deadline ≠ child.deadline then
      .ok (some { child with
        constraints := child.constraints ++ added
        deadline
        updated_at := some updatedAt })
    else .ok none

/-- The loop over the children; the clock shows `updatedAt i` when the child of index `i` is
saved. -/
def propagateTo (parent : Goal ρ) (now : ℤ) (updatedAt : ℕ → Datetime) :
    ℕ → List String → GoalStore ρ → Except Thrown (GoalStore ρ)
  | _, [], store => .ok store
  | i, childId :: rest, store =>
    match store.loadGoal childId with
    | none => propagateTo parent now updatedAt (i + 1) rest store
    | some child =>
      match updatedChild parent now (updatedAt i) child with
      | .error e => .error e
      | .ok none => propagateTo parent now updatedAt (i + 1) rest store
      | .ok (some updated) =>
        propagateTo parent now updatedAt (i + 1) rest (store.saveGoal updated)

def propagateStateDown (store : GoalStore ρ) (parentId : String) (now : ℤ)
    (updatedAt : ℕ → Datetime) : Except Thrown (GoalStore ρ) :=
  match store.loadGoal parentId with
  | none => .error (.not_found parentId)
  | some parent => propagateTo parent now updatedAt 0 parent.children_ids store

/-! ## What a call makes of a child -/

/-- The deadline of a child after a call. -/
structure DeadlinePropagated (parentDeadlineMs : Option ℤ) (now : ℤ)
    (deadline deadline' : Option Datetime) : Prop where
  /-- While the deadline of the parent is ahead, no child is later. -/
  within : ∀ parentMs, parentDeadlineMs = some parentMs → now < parentMs →
    ∀ d' ∈ deadline', d'.ms ≤ parentMs
  /-- When the parent has none, or has passed its own, nothing changes. -/
  kept : (∀ parentMs, parentDeadlineMs = some parentMs → parentMs ≤ now) → deadline' = deadline
  absent : deadline' = none ↔ deadline = none
  notLater : ∀ d ∈ deadline, ∀ d' ∈ deadline', d'.ms ≤ d.ms

/-- A child after a call. -/
structure Propagated (parent : Goal ρ) (now : ℤ) (child child' : Goal ρ) : Prop where
  /-- Its own constraints are kept, in order, and those that it lacks are appended. -/
  constraints : ∃ added, child'.constraints = child.constraints ++ added ∧
    (∀ c ∈ added, c ∈ parent.constraints ∧ c ∉ child.constraints) ∧
    (parent.constraints.Nodup → added.Nodup)
  all : ∀ c ∈ parent.constraints, c ∈ child'.constraints
  deadline : DeadlinePropagated (parseDeadlineMs parent.deadline) now child.deadline child'.deadline
  frame : child' = { child with
    constraints := child'.constraints
    deadline := child'.deadline
    updated_at := child'.updated_at }

/-- The stored goals after a call: the children are propagated to, and nothing else changes. -/
structure SettledBy (parent : Goal ρ) (now : ℤ) (store store' : GoalStore ρ) : Prop where
  children : ∀ id ∈ parent.children_ids,
    Option.Rel (Propagated parent now) (store.loadGoal id) (store'.loadGoal id)
  others : ∀ id, id ∉ parent.children_ids → store'.loadGoal id = store.loadGoal id

/-! ## Constraints -/

section Constraints

variable {parent child : Goal ρ}

theorem mem_newConstraints {c : String} :
    c ∈ newConstraints parent child ↔ c ∈ parent.constraints ∧ c ∉ child.constraints := by
  unfold newConstraints
  rw [List.mem_filter, Bool.not_eq_true', List.contains_eq_mem, decide_eq_false_iff_not]

theorem nodup_newConstraints (h : parent.constraints.Nodup) :
    (newConstraints parent child).Nodup := h.filter _

theorem mem_appended (child : Goal ρ) {c : String} (h : c ∈ parent.constraints) :
    c ∈ child.constraints ++ newConstraints parent child := by
  by_cases hc : c ∈ child.constraints
  · exact List.mem_append_left _ hc
  · exact List.mem_append_right _ (mem_newConstraints.mpr ⟨h, hc⟩)

/-- A child that has them all lacks none. -/
theorem newConstraints_eq_nil (h : ∀ c ∈ parent.constraints, c ∈ child.constraints) :
    newConstraints parent child = [] :=
  List.eq_nil_iff_forall_not_mem.mpr fun c hc =>
    (mem_newConstraints.mp hc).2 (h c (mem_newConstraints.mp hc).1)

end Constraints

/-! ## Deadlines -/

section Deadlines

variable {parentDeadlineMs : Option ℤ} {now later : ℤ} {deadline deadline' : Option Datetime}

/-- What the adjustment comes to: the deadline as it is, or the text of the earlier of the two
instants. -/
theorem adjustedDeadline_cases (parentDeadlineMs : Option ℤ) (now : ℤ) (deadline : Option Datetime) :
    ((∀ parentMs d, parentDeadlineMs = some parentMs → deadline = some d →
        parentMs ≤ now ∨ d.ms = parentMs) ∧
      adjustedDeadline parentDeadlineMs now deadline = .ok deadline) ∨
    ∃ parentMs d, parentDeadlineMs = some parentMs ∧ deadline = some d ∧ now < parentMs ∧
      d.ms ≠ parentMs ∧ adjustedDeadline parentDeadlineMs now deadline =
        match toISOString (min d.ms parentMs) with
        | some text => .ok (some text)
        | none => .error .invalid_datetime := by
  cases parentDeadlineMs with
  | none => exact .inl ⟨nofun, rfl⟩
  | some parentMs =>
    cases deadline with
    | none => exact .inl ⟨nofun, rfl⟩
    | some d =>
      have hadjusted : adjustedDeadline (some parentMs) now (some d) =
          if 0 < parentMs - now ∧ d.ms - now ≠ parentMs - now then
            match toISOString (now + min (d.ms - now) (parentMs - now)) with
            | some text => .ok (some text)
            | none => .error .invalid_datetime
          else .ok (some d) := rfl
      by_cases hmove : 0 < parentMs - now ∧ d.ms - now ≠ parentMs - now
      · have hmin : now + min (d.ms - now) (parentMs - now) = min d.ms parentMs := by omega
        rw [if_pos hmove, hmin] at hadjusted
        exact .inr ⟨parentMs, d, rfl, rfl, by omega, by omega, hadjusted⟩
      · rw [if_neg hmove] at hadjusted
        refine .inl ⟨fun _ _ hparent hd => ?_, hadjusted⟩
        cases hparent
        cases hd
        omega

/-- **The adjustment succeeds**: the earlier instant is that of a text. -/
theorem adjustedDeadline_ok (parent : Goal ρ) (now : ℤ) (deadline : Option Datetime) :
    ∃ deadline', adjustedDeadline (parseDeadlineMs parent.deadline) now deadline = .ok deadline' := by
  obtain ⟨-, hkept⟩ | ⟨parentMs, d, hparent, -, -, -, hmoved⟩ :=
    adjustedDeadline_cases (parseDeadlineMs parent.deadline) now deadline
  · exact ⟨deadline, hkept⟩
  · obtain ⟨p, -, rfl⟩ := Option.map_eq_some_iff.mp hparent
    have htext : ∃ text, toISOString (min d.ms p.ms) = some text := by
      rcases min_choice d.ms p.ms with h | h
      · rw [h]
        exact exists_toISOString d
      · rw [h]
        exact exists_toISOString p
    obtain ⟨text, htext⟩ := htext
    rw [htext] at hmoved
    exact ⟨some text, hmoved⟩

/-- **What an adjustment gives.** -/
theorem adjustedDeadline_propagated
    (h : adjustedDeadline parentDeadlineMs now deadline = .ok deadline') :
    DeadlinePropagated parentDeadlineMs now deadline deadline' := by
  obtain ⟨hstay, hkept⟩ | ⟨parentMs, d, rfl, rfl, hahead, -, hmoved⟩ :=
    adjustedDeadline_cases parentDeadlineMs now deadline
  · cases hkept.symm.trans h
    refine ⟨?_, fun _ => rfl, Iff.rfl, ?_⟩
    · rintro parentMs hparent hahead d rfl
      rcases hstay parentMs d hparent rfl with hle | heq
      · omega
      · exact heq.le
    · rintro d rfl d' hd'
      cases hd'
      exact le_rfl
  · rw [hmoved] at h
    cases htext : toISOString (min d.ms parentMs) with
    | none =>
      rw [htext] at h
      cases h
    | some text =>
      rw [htext] at h
      cases h
      have hms := ms_toISOString htext
      refine ⟨?_, fun hpassed => ?_, ⟨nofun, nofun⟩, ?_⟩
      · rintro _ hparent _ d' hd'
        cases hparent
        cases hd'
        omega
      · have hle := hpassed parentMs rfl
        omega
      · rintro d hd d' hd'
        cases hd
        cases hd'
        omega

/-- **An adjustment is not adjusted again**, unless the clock goes back. -/
theorem adjustedDeadline_again (hle : now ≤ later)
    (h : adjustedDeadline parentDeadlineMs now deadline = .ok deadline') :
    adjustedDeadline parentDeadlineMs later deadline' = .ok deadline' := by
  obtain ⟨-, hkept⟩ | ⟨parentMs, d', rfl, rfl, hahead, hne, hmoved⟩ :=
    adjustedDeadline_cases parentDeadlineMs later deadline'
  · exact hkept
  · -- the first call has brought the deadline forward: it is the text of its instant
    rw [hmoved]
    obtain ⟨hstay, hkept⟩ | ⟨_, d, hparent, rfl, -, -, hfirst⟩ :=
      adjustedDeadline_cases (some parentMs) now deadline
    · cases hkept.symm.trans h
      rcases hstay parentMs d' rfl rfl with hpassed | heq
      · omega
      · exact absurd heq hne
    · cases hparent
      rw [hfirst] at h
      cases htext : toISOString (min d.ms parentMs) with
      | none =>
        rw [htext] at h
        cases h
      | some text =>
        rw [htext] at h
        cases h
        have hms := ms_toISOString htext
        have hmin : min d'.ms parentMs = min d.ms parentMs := by omega
        rw [hmin, htext]

end Deadlines

/-! ## Children -/

section Children

variable {parent child : Goal ρ} {now : ℤ}

/-- No later call saves anything for the child. -/
def Quiet (parent : Goal ρ) (now : ℤ) (child : Goal ρ) : Prop :=
  ∀ later, now ≤ later → ∀ updatedAt, updatedChild parent later updatedAt child = .ok none

/-- A child that has the constraints and keeps its deadline is not saved. -/
theorem updatedChild_none {later : ℤ} {updatedAt : Datetime}
    (hall : ∀ c ∈ parent.constraints, c ∈ child.constraints)
    (hdeadline : adjustedDeadline (parseDeadlineMs parent.deadline) later child.deadline =
      .ok child.deadline) :
    updatedChild parent later updatedAt child = .ok none := by
  unfold updatedChild
  rw [hdeadline]
  exact if_neg (by simp [newConstraints_eq_nil hall])

/-- A goal that is its own child is left alone. -/
theorem quiet_self (parent : Goal ρ) (now : ℤ) : Quiet parent now parent := by
  intro later _ updatedAt
  refine updatedChild_none (fun _ hc => hc) ?_
  obtain ⟨-, hkept⟩ | ⟨parentMs, d, hparent, hd, -, hne, -⟩ :=
    adjustedDeadline_cases (parseDeadlineMs parent.deadline) later parent.deadline
  · exact hkept
  · rw [hd] at hparent
    exact absurd (Option.some.inj hparent) hne

/-- **What a call does for a child**, and that it is done with it. -/
theorem updatedChild_spec (parent child : Goal ρ) (now : ℤ) (updatedAt : Datetime) :
    ∃ result, updatedChild parent now updatedAt child = .ok result ∧
      (result.getD child).id = child.id ∧ Propagated parent now child (result.getD child) ∧
      Quiet parent now (result.getD child) := by
  obtain ⟨deadline, hdeadline⟩ := adjustedDeadline_ok parent now child.deadline
  have hpropagated := adjustedDeadline_propagated hdeadline
  by_cases hchanged : newConstraints parent child ≠ [] ∨ deadline ≠ child.deadline
  · refine ⟨some { child with
      constraints := child.constraints ++ newConstraints parent child
      deadline
      updated_at := some updatedAt }, ?_, rfl, ?_, ?_⟩
    · unfold updatedChild
      rw [hdeadline]
      exact if_pos hchanged
    · exact {
        constraints := ⟨_, rfl, fun c hc => mem_newConstraints.mp hc, nodup_newConstraints⟩
        all := fun c hc => mem_appended child hc
        deadline := hpropagated
        frame := rfl }
    · exact fun later hle _ => updatedChild_none (fun c hc => mem_appended child hc)
        (adjustedDeadline_again hle hdeadline)
  · rw [not_or, not_not, not_not] at hchanged
    obtain ⟨hnone, rfl⟩ := hchanged
    have hall : ∀ c ∈ parent.constraints, c ∈ child.constraints := by
      intro c hc
      have hmem := mem_appended child hc
      rwa [hnone, List.append_nil] at hmem
    refine ⟨none, updatedChild_none hall hdeadline, rfl, ?_, ?_⟩
    · exact {
        constraints := ⟨[], (List.append_nil _).symm, nofun, fun _ => List.nodup_nil⟩
        all := hall
        deadline := hpropagated
        frame := rfl }
    · exact fun later hle _ => updatedChild_none hall (adjustedDeadline_again hle hdeadline)

end Children

/-! ## The loop -/

section Loop

variable {parent : Goal ρ} {now : ℤ} {updatedAt : ℕ → Datetime}

/-- A stored child and what the loop leaves of it. -/
def Settles (parent : Goal ρ) (now : ℤ) (stored stored' : Option (Goal ρ)) : Prop :=
  match stored with
  | none => stored' = none
  | some child => ∃ child', stored' = some child' ∧ Propagated parent now child child' ∧
      Quiet parent now child' ∧ (Quiet parent now child → child' = child)

/-- **The loop settles the children and touches no other goal.** -/
theorem propagateTo_spec (parent : Goal ρ) (now : ℤ) (updatedAt : ℕ → Datetime) (i : ℕ)
    (ids : List String) (store : GoalStore ρ) :
    ∃ store', propagateTo parent now updatedAt i ids store = .ok store' ∧
      (∀ id ∈ ids, Settles parent now (store.loadGoal id) (store'.loadGoal id)) ∧
      ∀ id, id ∉ ids → store'.loadGoal id = store.loadGoal id := by
  induction ids generalizing i store with
  | nil => exact ⟨store, rfl, nofun, fun _ _ => rfl⟩
  | cons childId rest ih =>
    unfold propagateTo
    cases hchild : store.loadGoal childId with
    | none =>
      obtain ⟨store', hstore', hsettles, hothers⟩ := ih (i + 1) store
      refine ⟨store', hstore', fun id hid => ?_,
        fun id hid => hothers id fun hmem => hid (List.mem_cons_of_mem _ hmem)⟩
      by_cases hmem : id ∈ rest
      · exact hsettles id hmem
      · obtain rfl := (List.mem_cons.mp hid).resolve_right hmem
        rw [hothers id hmem, hchild]
        rfl
    | some child =>
      obtain ⟨result, hresult, hresultId, hpropagated, hquiet⟩ :=
        updatedChild_spec parent child now (updatedAt i)
      have hchildId : (result.getD child).id = childId :=
        hresultId.trans (store.loadGoal_id hchild)
      -- the store in which the child is as the call leaves it
      have hnext : ∃ store₁, (match updatedChild parent now (updatedAt i) child with
            | .error e => .error e
            | .ok none => propagateTo parent now updatedAt (i + 1) rest store
            | .ok (some updated) =>
              propagateTo parent now updatedAt (i + 1) rest (store.saveGoal updated)) =
            propagateTo parent now updatedAt (i + 1) rest store₁ ∧
          store₁.loadGoal childId = some (result.getD child) ∧
          ∀ id, id ≠ childId → store₁.loadGoal id = store.loadGoal id := by
        rw [hresult]
        cases result with
        | none => exact ⟨store, rfl, hchild, fun _ _ => rfl⟩
        | some updated =>
          have hid : updated.id = childId := hchildId
          refine ⟨store.saveGoal updated, rfl, ?_, fun id hne => ?_⟩
          · rw [GoalStore.loadGoal_saveGoal, if_pos hid.symm]
            rfl
          · rw [GoalStore.loadGoal_saveGoal, if_neg fun heq => hne (heq.trans hid)]
      obtain ⟨store₁, hstore₁, hself, hload⟩ := hnext
      obtain ⟨store', hstore', hsettles, hothers⟩ := ih (i + 1) store₁
      have hdone : store'.loadGoal childId = some (result.getD child) := by
        by_cases hmem : childId ∈ rest
        · -- it is listed again, and found done
          have hagain := hsettles childId hmem
          rw [hself] at hagain
          obtain ⟨child', hchild', -, -, hsame⟩ := hagain
          rw [hchild', hsame hquiet]
        · rw [hothers childId hmem, hself]
      refine ⟨store', hstore₁.trans hstore', fun id hid => ?_, fun id hid => ?_⟩
      · by_cases hne : id = childId
        · subst hne
          rw [hchild]
          refine ⟨result.getD child, hdone, hpropagated, hquiet, fun hquiet' => ?_⟩
          cases (hquiet' now le_rfl (updatedAt i)).symm.trans hresult
          rfl
        · have hsettled := hsettles id ((List.mem_cons.mp hid).resolve_left hne)
          rwa [hload id hne] at hsettled
      · rw [List.mem_cons, not_or] at hid
        rw [hothers id hid.2, hload id hid.1]

/-- The loop over children that are done saves nothing. -/
theorem propagateTo_quiet {ids : List String} {store : GoalStore ρ} {later : ℤ} (hle : now ≤ later)
    (h : ∀ id ∈ ids, ∀ child, store.loadGoal id = some child → Quiet parent now child) (i : ℕ) :
    propagateTo parent later updatedAt i ids store = .ok store := by
  induction ids generalizing i with
  | nil => rfl
  | cons childId rest ih =>
    have hrest := ih (fun id hid => h id (List.mem_cons_of_mem _ hid)) (i + 1)
    unfold propagateTo
    cases hchild : store.loadGoal childId with
    | none => exact hrest
    | some child =>
      have hquiet := h childId List.mem_cons_self child hchild later hle (updatedAt i)
      dsimp only
      rw [hquiet]
      exact hrest

end Loop

/-! ## The call -/

/-- **Downward propagation settles the children**, and a later call changes nothing. -/
theorem propagateStateDown_settles {store : GoalStore ρ} {parentId : String} {parent : Goal ρ}
    (hparent : store.loadGoal parentId = some parent) (now : ℤ) (updatedAt : ℕ → Datetime) :
    ∃ store', propagateStateDown store parentId now updatedAt = .ok store' ∧
      SettledBy parent now store store' ∧
      ∀ later updatedAt', now ≤ later →
        propagateStateDown store' parentId later updatedAt' = .ok store' := by
  obtain ⟨store', hstore', hsettles, hothers⟩ :=
    propagateTo_spec parent now updatedAt 0 parent.children_ids store
  refine ⟨store', ?_, ⟨fun id hmem => ?_, hothers⟩, fun later updatedAt' hle => ?_⟩
  · unfold propagateStateDown
    rw [hparent]
    exact hstore'
  · have hid := hsettles id hmem
    cases hload : store.loadGoal id with
    | none =>
      rw [hload] at hid
      rw [show store'.loadGoal id = none from hid]
      exact .none
    | some child =>
      rw [hload] at hid
      obtain ⟨child', hchild', hpropagated, -⟩ := hid
      rw [hchild']
      exact .some hpropagated
  · -- the parent is as it was, even if it is its own child
    have hparent' : store'.loadGoal parentId = some parent := by
      by_cases hmem : parentId ∈ parent.children_ids
      · have hid := hsettles parentId hmem
        rw [hparent] at hid
        obtain ⟨child', hchild', -, -, hsame⟩ := hid
        rw [hchild', hsame (quiet_self parent now)]
      · rw [hothers parentId hmem, hparent]
    unfold propagateStateDown
    rw [hparent']
    refine propagateTo_quiet hle (fun id hmem child hchild => ?_) 0
    have hid := hsettles id hmem
    rw [hchild] at hid
    cases hload : store.loadGoal id with
    | none =>
      rw [hload] at hid
      cases hid
    | some stored =>
      rw [hload] at hid
      obtain ⟨child', hchild', -, hquiet, -⟩ := hid
      cases hchild'
      exact hquiet

/-! ## A parent whose deadline has passed -/

/-- A child that is never later than its parent, whatever the clock shows, and that is given
no constraint twice. -/
structure WithinParent (parent child child' : Goal ρ) : Prop where
  constraints : ∃ added, child'.constraints = child.constraints ++ added ∧ added.Nodup ∧
    ∀ c ∈ added, c ∈ parent.constraints ∧ c ∉ child.constraints
  all : ∀ c ∈ parent.constraints, c ∈ child'.constraints
  within : ∀ p ∈ parent.deadline, ∀ d' ∈ child'.deadline, d'.ms ≤ p.ms
  notLater : ∀ d ∈ child.deadline, ∀ d' ∈ child'.deadline, d'.ms ≤ d.ms

/-- Noon of a day of February 2026. -/
def february (day : ℕ) (h : day < 28) : Datetime where
  year := 2026
  month := 1
  day := day
  hour := 12
  minute := 0
  seconds := none
  valid := h

def lateParent : Goal Unit :=
  { id := "parent", children_ids := ["child"], deadline := some (february 0 (by decide)), others := () }

def laterChild : Goal Unit :=
  { id := "child", deadline := some (february 4 (by decide)), others := () }

def familyStore : GoalStore Unit where
  loadGoal id := if id = "parent" then some lateParent
    else if id = "child" then some laterChild else none
  loadGoal_id := by
    intro id goal h
    split at h
    · next hid =>
      cases h
      exact hid.symm
    · split at h
      · next hid =>
        cases h
        exact hid.symm
      · cases h

theorem propagateStateDown_settles_sample :
    ∃ store', propagateStateDown familyStore "parent" 0 (fun _ => february 0 (by decide)) =
        .ok store' ∧
      SettledBy lateParent 0 familyStore store' ∧
      ∀ later updatedAt', 0 ≤ later →
        propagateStateDown store' "parent" later updatedAt' = .ok store' := by
  have hparent : familyStore.loadGoal "parent" = some lateParent := rfl
  exact propagateStateDown_settles hparent 0 fun _ => february 0 (by decide)

/-- On the third day the deadline of the parent has passed, and the child stays later. -/
theorem later_than_passed_parent :
    ∃ store', propagateStateDown familyStore "parent" (february 2 (by decide)).ms
        (fun _ => february 2 (by decide)) = .ok store' ∧
      ¬ ∀ id ∈ lateParent.children_ids,
        Option.Rel (WithinParent lateParent) (familyStore.loadGoal id) (store'.loadGoal id) := by
  refine ⟨familyStore, rfl, fun h => ?_⟩
  have hchild := h "child" List.mem_cons_self
  cases hchild with
  | some hwithin =>
    have hle := hwithin.within (february 0 (by decide)) rfl (february 4 (by decide)) rfl
    revert hle
    decide +kernel

end PulSeed.StateAggregator
