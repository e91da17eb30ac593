import PulSeed.Store.MemoryTruth

/-!
# Overlapping conflict sets

An open conflict set makes its claims conflicted, and remembers in each of them the
lifecycle and visibility it found. Resolving the set puts back what it remembers, or makes
the claim active and visible when it remembers nothing.

Sets that share a claim remember different things of it: the first one opened remembers
the claim as it was, the others remember it conflicted. So a shared claim comes out right
as long as the first set is resolved last: `conflicts_order_free` says so for runs whose
upserts are `InOrder`, and `first_set_resolved_first` shows a run that resolves the first
set before the second, where the claim ends conflicted with both sets resolved.
-/

namespace PulSeed

namespace MemoryTruth

open ObjectMap

/-! ## What a set remembers -/

abbrev MemoryClaim.state (claim : MemoryClaim) : Lifecycle × Bool :=
  (claim.lifecycle, claim.visibleToNormalSurface)

/-- The state that resolving a set puts back. -/
def recalled (claim : MemoryClaim) (conflictSetId : String) : Lifecycle × Bool :=
  (preConflictClaimState claim conflictSetId).getD (.active, true)

/-- Something is stored in the claim under the set's id, or every object has such a member. -/
abbrev Occupied (claim : MemoryClaim) (conflictSetId : String) : Prop :=
  occupied (conflictStateMetadata claim) conflictSetId = true

theorem parseRemembered_rememberedState (claim : MemoryClaim) :
    parseRemembered (rememberedState claim) = some claim.state := by
  simp [parseRemembered, rememberedState, lookup_cons]

theorem conflictStateMetadata_conflictedClaim (claim : MemoryClaim) (k : ConflictSet) :
    conflictStateMetadata (conflictedClaim claim k) =
      if Occupied claim k.conflictSetId then conflictStateMetadata claim
      else setEntries (conflictStateMetadata claim) k.conflictSetId (rememberedState claim) := by
  have hmetadata : (conflictedClaim claim k).metadata = rememberPreConflictClaimState claim k := rfl
  rw [conflictStateMetadata, hmetadata, rememberPreConflictClaimState, lookup_setEntries,
    if_pos rfl]

theorem conflictStateMetadata_resolvedConflictClaim (claim : MemoryClaim) (k : ConflictSet) :
    conflictStateMetadata (resolvedConflictClaim claim k) =
      deleteEntries (conflictStateMetadata claim) k.conflictSetId := by
  have hmetadata : (resolvedConflictClaim claim k).metadata =
      forgetPreConflictClaimState claim k.conflictSetId := by
    unfold resolvedConflictClaim
    dsimp only
    split <;> rfl
  rw [conflictStateMetadata, hmetadata, forgetPreConflictClaimState]
  by_cases hempty : deleteEntries (conflictStateMetadata claim) k.conflictSetId = []
  · rw [if_neg (not_not.mpr hempty), lookup_deleteEntries, if_pos rfl, hempty]
  · rw [if_pos hempty, lookup_setEntries, if_pos rfl]

theorem occupied_conflictedClaim (claim : MemoryClaim) (k : ConflictSet) (id : String) :
    Occupied (conflictedClaim claim k) id ↔ id = k.conflictSetId ∨ Occupied claim id := by
  unfold Occupied
  rw [conflictStateMetadata_conflictedClaim]
  by_cases hocc : Occupied claim k.conflictSetId
  · rw [if_pos hocc]
    exact ⟨.inr, fun h => h.elim (fun hid => hid ▸ hocc) fun h => h⟩
  · rw [if_neg hocc]
    unfold occupied
    rw [lookup_setEntries]
    by_cases hid : id = k.conflictSetId
    · simp [hid, rememberedState, jsonTruthy]
    · simp [hid]

/-- An open set remembers the state it finds, unless the place is taken. -/
theorem recalled_conflictedClaim (claim : MemoryClaim) (k : ConflictSet) (id : String) :
    recalled (conflictedClaim claim k) id =
      if id = k.conflictSetId ∧ ¬ Occupied claim k.conflictSetId then claim.state
      else recalled claim id := by
  unfold recalled preConflictClaimState
  rw [conflictStateMetadata_conflictedClaim]
  by_cases hocc : Occupied claim k.conflictSetId
  · rw [if_pos hocc, if_neg fun h => h.2 hocc]
  · rw [if_neg hocc, lookup_setEntries]
    by_cases hid : id = k.conflictSetId
    · rw [if_pos hid, if_pos ⟨hid, hocc⟩, Option.bind_some, parseRemembered_rememberedState]
      rfl
    · rw [if_neg hid, if_neg fun h => hid h.1]

theorem occupied_resolvedConflictClaim {claim : MemoryClaim} {k : ConflictSet} {id : String}
    (hid : id ≠ k.conflictSetId) :
    Occupied (resolvedConflictClaim claim k) id ↔ Occupied claim id := by
  unfold Occupied occupied
  rw [conflictStateMetadata_resolvedConflictClaim, lookup_deleteEntries, if_neg hid]

theorem recalled_resolvedConflictClaim (claim : MemoryClaim) (k : ConflictSet) (id : String) :
    recalled (resolvedConflictClaim claim k) id =
      if id = k.conflictSetId then (.active, true) else recalled claim id := by
  unfold recalled preConflictClaimState
  rw [conflictStateMetadata_resolvedConflictClaim, lookup_deleteEntries]
  by_cases hid : id = k.conflictSetId
  · rw [if_pos hid, if_pos hid]
    rfl
  · rw [if_neg hid, if_neg hid]

theorem state_resolvedConflictClaim {claim : MemoryClaim} {k : ConflictSet}
    (hlost : ¬ k.LostBy claim.claimId) :
    (resolvedConflictClaim claim k).state = recalled claim k.conflictSetId := by
  unfold resolvedConflictClaim
  rw [if_neg hlost]
  unfold recalled MemoryClaim.state
  cases preConflictClaimState claim k.conflictSetId <;> rfl

/-! ## A set and one of its claims

A claim that the set lists `n` times is rewritten `n` times. -/

theorem claimId_iterate (k : ConflictSet) (n : ℕ) (claim : MemoryClaim) :
    ((conflictClaim k)^[n] claim).claimId = claim.claimId := by
  induction n generalizing claim with
  | zero => rfl
  | succ n ih => rw [Function.iterate_succ_apply, ih, claimId_conflictClaim]

/-- What an open set leaves of a claim it lists. -/
theorem opened_iterate {k : ConflictSet} (hopen : k.status ≠ .resolved) (n : ℕ)
    (claim : MemoryClaim) :
    ((conflictClaim k)^[n + 1] claim).lifecycle = .conflicted ∧
      (∀ id, Occupied ((conflictClaim k)^[n + 1] claim) id ↔
        id = k.conflictSetId ∨ Occupied claim id) ∧
      ∀ id, recalled ((conflictClaim k)^[n + 1] claim) id =
        if id = k.conflictSetId ∧ ¬ Occupied claim k.conflictSetId then claim.state
        else recalled claim id := by
  have hstep : ∀ c, conflictClaim k c = conflictedClaim c k := fun c => if_neg hopen
  induction n with
  | zero =>
    rw [Function.iterate_one, hstep]
    exact ⟨rfl, occupied_conflictedClaim claim k, recalled_conflictedClaim claim k⟩
  | succ n ih =>
    obtain ⟨-, hocc, hrecalled⟩ := ih
    rw [Function.iterate_succ_apply' (conflictClaim k) (n + 1), hstep]
    refine ⟨rfl, fun id => ?_, fun id => ?_⟩
    · rw [occupied_conflictedClaim, hocc]
      tauto
    · rw [recalled_conflictedClaim, if_neg fun h => h.2 ((hocc _).mpr (.inl rfl)), hrecalled]

/-- What a set resolved for a claim, or without a winner, leaves of it: the state it
remembers, and after that nothing is remembered. -/
theorem restored_iterate {k : ConflictSet} (hresolved : k.status = .resolved)
    {claim : MemoryClaim} (hlost : ¬ k.LostBy claim.claimId) (n : ℕ) :
    ((conflictClaim k)^[n + 1] claim).state =
      if n = 0 then recalled claim k.conflictSetId else (.active, true) := by
  have hstep : ∀ c, conflictClaim k c = resolvedConflictClaim c k := fun c => if_pos hresolved
  cases n with
  | zero => rw [Function.iterate_one, hstep, state_resolvedConflictClaim hlost, if_pos rfl]
  | succ n =>
    rw [Function.iterate_succ_apply', hstep, state_resolvedConflictClaim
      (by rwa [claimId_iterate]), Function.iterate_succ_apply', hstep,
      recalled_resolvedConflictClaim, if_pos rfl, if_neg n.succ_ne_zero]

/-- A claim that loses a conflict is not conflicted. -/
theorem lost_iterate {k : ConflictSet} (hresolved : k.status = .resolved) {claim : MemoryClaim}
    (hlost : k.LostBy claim.claimId) (n : ℕ) :
    ((conflictClaim k)^[n + 1] claim).lifecycle ≠ .conflicted := by
  have hstep : ∀ c, conflictClaim k c = resolvedConflictClaim c k := fun c => if_pos hresolved
  rw [Function.iterate_succ_apply', hstep]
  unfold resolvedConflictClaim
  rw [if_pos (by rwa [claimId_iterate])]
  dsimp only
  split
  · nofun
  · next h => exact fun hc => h (.inr hc)

/-! ## An upsert -/

theorem performAll_conflictClaims {k : ConflictSet} {ids : List String} {s s' : Store}
    (h : performAll s (ids.map (.conflictClaim k)) = some s') :
    s'.conflictSets = s.conflictSets ∧
      ∀ id, readClaim s' id = (readClaim s id).map (conflictClaim k)^[ids.count id] := by
  induction ids generalizing s with
  | nil =>
    cases h
    exact ⟨rfl, fun id => by simp⟩
  | cons id₀ ids ih =>
    obtain ⟨m, hm, hrest⟩ := Option.bind_eq_some_iff.mp h
    obtain ⟨c, hc, rfl⟩ := Option.map_eq_some_iff.mp hm
    obtain ⟨hsets, hclaims⟩ := ih hrest
    refine ⟨hsets, fun id => ?_⟩
    have hkey : (conflictClaim k c).claimId = id₀ :=
      (claimId_conflictClaim k c).trans (Keyed.key_of_find hc)
    have hread : readClaim (upsertClaim s (conflictClaim k c)) id =
        if id = id₀ then some (conflictClaim k c) else readClaim s id := by
      have hfind := s.claims.find_upsert (conflictClaim k c) id
      rwa [hkey] at hfind
    rw [hclaims, hread, List.count_cons]
    by_cases hid : id = id₀
    · subst hid
      simp [hc]
    · simp [hid, Ne.symm hid]

/-- What an upsert does to the stored sets and to every claim. -/
theorem upsertConflict_some {k : ConflictSet} {s s' : Store} (h : upsertConflict s k = some s') :
    s'.conflictSets = s.conflictSets.upsert k ∧
      ∀ id, readClaim s' id = (readClaim s id).map (conflictClaim k)^[k.claimIds.count id] := by
  have h : ((Write.conflictSet k).perform s).bind
      (fun m => performAll m (k.claimIds.map (.conflictClaim k))) = some s' := h
  obtain ⟨m, hm, hrest⟩ := Option.bind_eq_some_iff.mp h
  cases hm
  exact performAll_conflictClaims hrest

/-- The set is stored, not resolved, and contains the claim. -/
def OpenIn (s : Store) (conflictSetId claimId : String) : Prop :=
  ∃ k ∈ s.conflictSets.find conflictSetId, k.status ≠ .resolved ∧ claimId ∈ k.claimIds

theorem openIn_upsertConflict {k : ConflictSet} {s s' : Store}
    (hsets : s'.conflictSets = s.conflictSets.upsert k) (id claimId : String) :
    OpenIn s' id claimId ↔
      if id = k.conflictSetId then k.status ≠ .resolved ∧ claimId ∈ k.claimIds
      else OpenIn s id claimId := by
  unfold OpenIn
  rw [hsets, Keyed.find_upsert]
  by_cases hid : id = k.conflictSetId
  · rw [if_pos hid, if_pos hid]
    simp
  · rw [if_neg hid, if_neg hid]

/-- No resolved set that contains the claim has another winner. -/
def Undecided (s : Store) (claimId : String) : Prop :=
  ∀ k ∈ s.conflictSets.rows, claimId ∈ k.claimIds → k.status = .resolved → ¬ k.LostBy claimId

/-! ## Orders in which nothing is lost -/

/-- A set moves from unresolved or held to resolved, and is not changed after that. -/
def Moves (s : Store) (k : ConflictSet) : Prop :=
  (∀ stored ∈ s.conflictSets.find k.conflictSetId, stored.status ≠ .resolved) ∧
    (k.status = .resolved → (s.conflictSets.find k.conflictSetId).isSome)

instance (s : Store) (k : ConflictSet) : Decidable (Moves s k) :=
  inferInstanceAs (Decidable ((∀ stored ∈ _, _) ∧ (_ → _)))

/-- Another set that contains the claim is still open. -/
def Contested (s : Store) (k : ConflictSet) (claimId : String) : Prop :=
  ∃ other ∈ s.conflictSets.rows, other.conflictSetId ≠ k.conflictSetId ∧
    other.status ≠ .resolved ∧ claimId ∈ other.claimIds

instance (s : Store) (k : ConflictSet) (claimId : String) : Decidable (Contested s k claimId) :=
  inferInstanceAs (Decidable (∃ other ∈ s.conflictSets.rows, _))

theorem contested_iff {s : Store} {k : ConflictSet} {claimId : String} :
    Contested s k claimId ↔ ∃ id, id ≠ k.conflictSetId ∧ OpenIn s id claimId := by
  constructor
  · rintro ⟨other, hmem, hne, hopen⟩
    exact ⟨_, hne, other, Keyed.mem_rows_iff.mp hmem, hopen⟩
  · rintro ⟨id, hne, other, hfind, hopen⟩
    obtain rfl := Keyed.key_of_find hfind
    exact ⟨other, Keyed.mem_rows_of_find hfind, hne, hopen⟩

/-- A claim that the set is opened for has nothing under its id, or the state it has. -/
def Opens (s : Store) (k : ConflictSet) (claim : MemoryClaim) : Prop :=
  (∀ stored ∈ s.conflictSets.find k.conflictSetId, claim.claimId ∉ stored.claimIds) →
    Occupied claim k.conflictSetId → recalled claim k.conflictSetId = claim.state

instance (s : Store) (k : ConflictSet) (claim : MemoryClaim) : Decidable (Opens s k claim) :=
  inferInstanceAs (Decidable ((∀ stored ∈ _, _) → _ → _))

/-- A claim that stays in conflict loses nothing to the set that is resolved, and is
remembered conflicted by it; one that leaves its last set is listed once by it, unless it
loses the conflict or was active and visible. -/
def Resolves (s : Store) (k : ConflictSet) (claim : MemoryClaim) : Prop :=
  if Contested s k claim.claimId then
    ¬ k.LostBy claim.claimId ∧ (recalled claim k.conflictSetId).1 = .conflicted ∧
      k.claimIds.count claim.claimId = 1
  else k.LostBy claim.claimId ∨ k.claimIds.count claim.claimId = 1 ∨
    recalled claim k.conflictSetId = (.active, true)

instance (s : Store) (k : ConflictSet) (claim : MemoryClaim) : Decidable (Resolves s k claim) := by
  unfold Resolves
  infer_instance

/-- The upsert keeps the claims of its set, and disturbs no other set's. -/
def InOrder (s : Store) (k : ConflictSet) : Prop :=
  (∀ stored ∈ s.conflictSets.find k.conflictSetId, stored.claimIds ⊆ k.claimIds ∧
    (k.status = .resolved → k.claimIds ⊆ stored.claimIds)) ∧
  ∀ claim ∈ s.claims.rows, claim.claimId ∈ k.claimIds →
    if k.status = .resolved then Resolves s k claim else Opens s k claim

instance (s : Store) (k : ConflictSet) : Decidable (InOrder s k) :=
  inferInstanceAs (Decidable ((∀ stored ∈ s.conflictSets.find k.conflictSetId,
    (∀ id ∈ stored.claimIds, id ∈ k.claimIds) ∧
      (k.status = .resolved → ∀ id ∈ k.claimIds, id ∈ stored.claimIds)) ∧
    ∀ claim ∈ s.claims.rows, claim.claimId ∈ k.claimIds →
      if k.status = .resolved then Resolves s k claim else Opens s k claim))

/-- A state of the claim is the one it had at first, as far as no set was decided
against it. -/
def Original (s₀ s : Store) (claimId : String) (state : Lifecycle × Bool) : Prop :=
  Undecided s claimId → ∃ claim ∈ readClaim s₀ claimId, state = claim.state

/-- What the sets that hold a claim remember of it: the one opened first its state before
them all, the others that it was conflicted. -/
structure Tracked (s₀ s : Store) (claim : MemoryClaim) : Prop where
  free : (∀ id, ¬ OpenIn s id claim.claimId) →
    claim.lifecycle ≠ .conflicted ∧ Original s₀ s claim.claimId claim.state
  held : (∃ id, OpenIn s id claim.claimId) → claim.lifecycle = .conflicted ∧
    ∃ first, OpenIn s first claim.claimId ∧ (recalled claim first).1 ≠ .conflicted
  kept : ∀ id, OpenIn s id claim.claimId → Occupied claim id ∧
    ((recalled claim id).1 ≠ .conflicted → Original s₀ s claim.claimId (recalled claim id))

/-- Every stored claim is tracked. -/
def AllTracked (s₀ s : Store) : Prop :=
  ∀ id, ∀ claim ∈ readClaim s id, Tracked s₀ s claim

theorem original_upsertConflict {s₀ s s' : Store} {k : ConflictSet} {claimId : String}
    {state : Lifecycle × Bool} (hsets : s'.conflictSets = s.conflictSets.upsert k)
    (hmoves : Moves s k) (h : Original s₀ s claimId state) : Original s₀ s' claimId state := by
  refine fun hafter => h fun other hother hmem hresolved => ?_
  have hne : other.conflictSetId ≠ k.conflictSetId := fun hid =>
    hmoves.1 other (hid ▸ Keyed.mem_rows_iff.mp hother) hresolved
  exact hafter other (hsets ▸ Keyed.mem_rows_upsert.mpr (.inr ⟨hother, hne⟩)) hmem hresolved

section

variable {s₀ s s' : Store} {k : ConflictSet} {claim : MemoryClaim}

/-- A claim that the set does not list is not affected. -/
theorem Tracked.other (h : Tracked s₀ s claim) (hsets : s'.conflictSets = s.conflictSets.upsert k)
    (hmoves : Moves s k) (horder : InOrder s k) (hnot : claim.claimId ∉ k.claimIds) :
    Tracked s₀ s' claim := by
  have hopen : ∀ id, OpenIn s' id claim.claimId ↔ OpenIn s id claim.claimId := by
    intro id
    rw [openIn_upsertConflict hsets]
    by_cases hid : id = k.conflictSetId
    · subst hid
      rw [if_pos rfl]
      refine iff_of_false (fun h => hnot h.2) ?_
      rintro ⟨stored, hstored, -, hmem⟩
      exact hnot ((horder.1 stored hstored).1 hmem)
    · rw [if_neg hid]
  refine ⟨fun hfree => ?_, fun hheld => ?_, fun id hid => ?_⟩
  · obtain ⟨hlifecycle, horiginal⟩ := h.free fun id hid => hfree id ((hopen id).mpr hid)
    exact ⟨hlifecycle, original_upsertConflict hsets hmoves horiginal⟩
  · obtain ⟨hlifecycle, first, hfirst, hrecalled⟩ :=
      h.held (hheld.imp fun id hid => (hopen id).mp hid)
    exact ⟨hlifecycle, first, (hopen first).mpr hfirst, hrecalled⟩
  · obtain ⟨hocc, horiginal⟩ := h.kept id ((hopen id).mp hid)
    exact ⟨hocc, fun hne => original_upsertConflict hsets hmoves (horiginal hne)⟩

/-- Opening a set, or storing it again while it is open. -/
theorem Tracked.opened (h : Tracked s₀ s claim)
    (hsets : s'.conflictSets = s.conflictSets.upsert k) (hmoves : Moves s k)
    (hopens : Opens s k claim) (hstatus : k.status ≠ .resolved)
    (hmem : claim.claimId ∈ k.claimIds) (n : ℕ) :
    Tracked s₀ s' ((conflictClaim k)^[n + 1] claim) := by
  obtain ⟨hlifecycle, hocc, hrecalled⟩ := opened_iterate hstatus n claim
  have hkey : ((conflictClaim k)^[n + 1] claim).claimId = claim.claimId := claimId_iterate ..
  have hself : OpenIn s' k.conflictSetId claim.claimId :=
    (openIn_upsertConflict hsets ..).mpr (by rw [if_pos rfl]; exact ⟨hstatus, hmem⟩)
  have hother : ∀ id, OpenIn s id claim.claimId → OpenIn s' id claim.claimId := by
    intro id hid
    rw [openIn_upsertConflict hsets]
    split
    · exact ⟨hstatus, hmem⟩
    · exact hid
  -- what was remembered under an open set stays
  have hsame : ∀ id, OpenIn s id claim.claimId →
      recalled ((conflictClaim k)^[n + 1] claim) id = recalled claim id := by
    intro id hid
    rw [hrecalled, if_neg]
    rintro ⟨rfl, hfree⟩
    exact hfree (h.kept _ hid).1
  -- a set that was not open for the claim remembers the state the claim had
  have hnew : ¬ OpenIn s k.conflictSetId claim.claimId →
      recalled ((conflictClaim k)^[n + 1] claim) k.conflictSetId = claim.state := by
    intro hnot
    rw [hrecalled]
    by_cases hfree : Occupied claim k.conflictSetId
    · rw [if_neg fun h => h.2 hfree]
      refine hopens (fun stored hstored hlisted => hnot ?_) hfree
      exact ⟨stored, hstored, hmoves.1 stored hstored, hlisted⟩
    · rw [if_pos ⟨rfl, hfree⟩]
  refine ⟨fun hfree => ?_, fun _ => ⟨hlifecycle, ?_⟩, fun id hid => ?_⟩
  · exact absurd hself (hkey ▸ hfree k.conflictSetId)
  · rw [hkey]
    by_cases hheld : ∃ id, OpenIn s id claim.claimId
    · obtain ⟨-, first, hfirst, hne⟩ := h.held hheld
      exact ⟨first, hother first hfirst, by rwa [hsame first hfirst]⟩
    · have hnone : ∀ id, ¬ OpenIn s id claim.claimId := not_exists.mp hheld
      refine ⟨k.conflictSetId, hself, ?_⟩
      rw [hnew (hnone _)]
      exact (h.free hnone).1
  · rw [hkey] at hid ⊢
    refine ⟨(hocc id).mpr ?_, fun hne => original_upsertConflict hsets hmoves ?_⟩
    · rw [openIn_upsertConflict hsets] at hid
      split at hid
      · next hk => exact .inl hk
      · exact .inr (h.kept id hid).1
    · by_cases hbefore : OpenIn s id claim.claimId
      · rw [hsame id hbefore] at hne ⊢
        exact (h.kept id hbefore).2 hne
      · have hk : id = k.conflictSetId := by
          by_contra hk
          rw [openIn_upsertConflict hsets, if_neg hk] at hid
          exact hbefore hid
        subst hk
        rw [hnew hbefore] at hne ⊢
        refine (h.free fun id hheld => hne ?_).2
        exact (h.held ⟨id, hheld⟩).1

/-- Resolving a set that was open for the claim. -/
theorem Tracked.resolved (h : Tracked s₀ s claim)
    (hsets : s'.conflictSets = s.conflictSets.upsert k) (hmoves : Moves s k)
    (hresolves : Resolves s k claim) (hstatus : k.status = .resolved)
    (hbefore : OpenIn s k.conflictSetId claim.claimId) {n : ℕ}
    (hcount : k.claimIds.count claim.claimId = n + 1) :
    Tracked s₀ s' ((conflictClaim k)^[n + 1] claim) := by
  have hkey : ((conflictClaim k)^[n + 1] claim).claimId = claim.claimId := claimId_iterate ..
  have hopen : ∀ id, OpenIn s' id claim.claimId ↔
      id ≠ k.conflictSetId ∧ OpenIn s id claim.claimId := by
    intro id
    rw [openIn_upsertConflict hsets]
    by_cases hid : id = k.conflictSetId
    · rw [if_pos hid]
      exact iff_of_false (fun h => h.1 hstatus) fun h => h.1 hid
    · rw [if_neg hid]
      exact (and_iff_right hid).symm
  obtain ⟨-, first, hfirst, hne⟩ := h.held ⟨_, hbefore⟩
  unfold Resolves at hresolves
  by_cases hcontested : Contested s k claim.claimId
  · -- another set is open: the claim is conflicted again, and the first set is another one
    rw [if_pos hcontested] at hresolves
    obtain ⟨hlost, hconflicted, hone⟩ := hresolves
    obtain rfl : n = 0 := by omega
    obtain ⟨j, hjk, hj⟩ := contested_iff.mp hcontested
    have hiter : (conflictClaim k)^[0 + 1] claim = resolvedConflictClaim claim k :=
      if_pos hstatus
    have hstate : ((conflictClaim k)^[0 + 1] claim).state = recalled claim k.conflictSetId := by
      rw [restored_iterate hstatus hlost, if_pos rfl]
    have hfk : first ≠ k.conflictSetId := fun hk => hne (hk ▸ hconflicted)
    have hsame : ∀ id, id ≠ k.conflictSetId →
        recalled ((conflictClaim k)^[0 + 1] claim) id = recalled claim id := by
      intro id hid
      rw [hiter, recalled_resolvedConflictClaim, if_neg hid]
    refine ⟨fun hfree => ?_, fun _ => ⟨?_, ?_⟩, fun id hid => ?_⟩
    · exact absurd ((hopen j).mpr ⟨hjk, hj⟩) (hkey ▸ hfree j)
    · exact (congrArg Prod.fst hstate).trans hconflicted
    · rw [hkey]
      exact ⟨first, (hopen first).mpr ⟨hfk, hfirst⟩, by rwa [hsame first hfk]⟩
    · rw [hkey] at hid ⊢
      obtain ⟨hid, hstill⟩ := (hopen id).mp hid
      obtain ⟨hocc, horiginal⟩ := h.kept id hstill
      rw [hsame id hid, hiter]
      refine ⟨(occupied_resolvedConflictClaim hid).mpr hocc, fun hne => ?_⟩
      exact original_upsertConflict hsets hmoves (horiginal hne)
  · -- it was the last set, so what it remembers is the state before all of them
    rw [if_neg hcontested] at hresolves
    have hnone : ∀ id, ¬ OpenIn s' id claim.claimId := fun id hid =>
      hcontested (contested_iff.mpr ⟨id, (hopen id).mp hid⟩)
    obtain rfl : first = k.conflictSetId := by
      by_contra hfk
      exact hnone first ((hopen first).mpr ⟨hfk, hfirst⟩)
    refine ⟨fun _ => ?_, fun hheld => ?_, fun id hid => absurd (hkey ▸ hid) (hnone id)⟩
    · rw [hkey]
      by_cases hlost : k.LostBy claim.claimId
      · refine ⟨lost_iterate hstatus hlost n, fun hundecided => ?_⟩
        have hlisted : claim.claimId ∈ k.claimIds :=
          List.count_pos_iff.mp (hcount ▸ n.succ_pos)
        exact absurd hlost (hundecided k
          (hsets ▸ Keyed.mem_rows_upsert.mpr (.inl rfl)) hlisted hstatus)
      · have hstate : ((conflictClaim k)^[n + 1] claim).state =
            recalled claim k.conflictSetId := by
          rw [restored_iterate hstatus hlost]
          split
          · rfl
          · next hn =>
            rcases hresolves with hl | hc | hr
            · exact absurd hl hlost
            · omega
            · exact hr.symm
        rw [hstate]
        refine ⟨?_, original_upsertConflict hsets hmoves ((h.kept _ hfirst).2 hne)⟩
        rw [show ((conflictClaim k)^[n + 1] claim).lifecycle =
          (recalled claim k.conflictSetId).1 from congrArg Prod.fst hstate]
        exact hne
    · obtain ⟨id, hid⟩ := hheld
      exact absurd (hkey ▸ hid) (hnone id)

end

/-- **A step in order keeps every claim tracked.** -/
theorem tracked_step {s₀ s s' : Store} {k : ConflictSet} (hstep : upsertConflict s k = some s')
    (hmoves : Moves s k) (horder : InOrder s k) (h : AllTracked s₀ s) : AllTracked s₀ s' := by
  obtain ⟨hsets, hclaims⟩ := upsertConflict_some hstep
  intro id c' hc'
  rw [hclaims] at hc'
  obtain ⟨claim, hclaim, rfl⟩ := Option.map_eq_some_iff.mp hc'
  obtain rfl := Keyed.key_of_find hclaim
  have htracked := h _ claim hclaim
  cases hcount : k.claimIds.count claim.claimId with
  | zero => exact htracked.other hsets hmoves horder (List.count_eq_zero.mp hcount)
  | succ n =>
    have hmem : claim.claimId ∈ k.claimIds := List.count_pos_iff.mp (hcount ▸ n.succ_pos)
    have hcond := horder.2 claim (Keyed.mem_rows_of_find hclaim) hmem
    by_cases hstatus : k.status = .resolved
    · rw [if_pos hstatus] at hcond
      obtain ⟨stored, hstored⟩ := Option.isSome_iff_exists.mp (hmoves.2 hstatus)
      refine htracked.resolved hsets hmoves hcond hstatus ⟨stored, hstored, ?_, ?_⟩ hcount
      · exact hmoves.1 stored hstored
      · exact (horder.1 stored hstored).2 hstatus hmem
    · rw [if_neg hstatus] at hcond
      exact htracked.opened hsets hmoves hcond hstatus hmem n

/-! ## Runs -/

/-- A claim is conflicted exactly when an open set contains it; once all sets that contain
it are resolved, none with another winner, it is as it was at first. -/
structure OrderFree (s₀ s : Store) : Prop where
  conflicted_iff : ∀ claim ∈ s.claims.rows, claim.lifecycle = .conflicted ↔
    ∃ k ∈ s.conflictSets.rows, k.status ≠ .resolved ∧ claim.claimId ∈ k.claimIds
  restored : ∀ claim ∈ s.claims.rows,
    (∀ k ∈ s.conflictSets.rows, claim.claimId ∈ k.claimIds →
      k.status = .resolved ∧ ¬ k.LostBy claim.claimId) →
    ∃ before ∈ readClaim s₀ claim.claimId, claim.state = before.state

instance (s₀ s : Store) : Decidable (OrderFree s₀ s) :=
  haveI : ∀ claim : MemoryClaim,
      Decidable (∃ before ∈ readClaim s₀ claim.claimId, claim.state = before.state) := fun claim =>
    decidable_of_iff ((readClaim s₀ claim.claimId).map (·.state) = some claim.state)
      (by simp [eq_comm])
  decidable_of_iff
    ((∀ claim ∈ s.claims.rows, claim.lifecycle = .conflicted ↔
        ∃ k ∈ s.conflictSets.rows, k.status ≠ .resolved ∧ claim.claimId ∈ k.claimIds) ∧
      ∀ claim ∈ s.claims.rows, (∀ k ∈ s.conflictSets.rows, claim.claimId ∈ k.claimIds →
          k.status = .resolved ∧ ¬ k.LostBy claim.claimId) →
        ∃ before ∈ readClaim s₀ claim.claimId, claim.state = before.state)
    ⟨fun h => ⟨h.1, h.2⟩, fun h => ⟨h.1, h.2⟩⟩

theorem exists_openIn_iff {s : Store} {claimId : String} :
    (∃ id, OpenIn s id claimId) ↔
      ∃ k ∈ s.conflictSets.rows, k.status ≠ .resolved ∧ claimId ∈ k.claimIds := by
  constructor
  · rintro ⟨id, k, hfind, hopen⟩
    exact ⟨k, Keyed.mem_rows_of_find hfind, hopen⟩
  · rintro ⟨k, hmem, hopen⟩
    exact ⟨_, k, Keyed.mem_rows_iff.mp hmem, hopen⟩

theorem AllTracked.orderFree {s₀ s : Store} (h : AllTracked s₀ s) : OrderFree s₀ s := by
  have htracked : ∀ claim ∈ s.claims.rows, Tracked s₀ s claim := fun claim hmem =>
    h _ claim (Keyed.mem_rows_iff.mp hmem)
  refine ⟨fun claim hmem => ?_, fun claim hmem hall => ?_⟩
  · rw [← exists_openIn_iff]
    constructor
    · intro hconflicted
      by_contra hnone
      exact ((htracked claim hmem).free (not_exists.mp hnone)).1 hconflicted
    · exact fun hheld => ((htracked claim hmem).held hheld).1
  · have hnone : ∀ id, ¬ OpenIn s id claim.claimId := by
      rintro id ⟨k, hfind, hstatus, hlisted⟩
      exact hstatus (hall k (Keyed.mem_rows_of_find hfind) hlisted).1
    exact ((htracked claim hmem).free hnone).2 fun k hk hlisted _ => (hall k hk hlisted).2

theorem AllTracked.start {s₀ : Store} (hsets : s₀.conflictSets.rows = [])
    (hclaims : ∀ claim ∈ s₀.claims.rows, claim.lifecycle ≠ .conflicted) : AllTracked s₀ s₀ := by
  intro id claim hclaim
  obtain rfl := Keyed.key_of_find hclaim
  have hnone : ∀ id, ¬ OpenIn s₀ id claim.claimId := by
    rintro id ⟨k, hfind, -⟩
    have hmem := Keyed.mem_rows_of_find hfind
    rw [hsets] at hmem
    cases hmem
  refine ⟨fun _ => ⟨hclaims claim (Keyed.mem_rows_of_find hclaim), fun _ => ⟨claim, hclaim, rfl⟩⟩,
    ?_, fun id hid => absurd hid (hnone id)⟩
  rintro ⟨id, hid⟩
  exact absurd hid (hnone id)

/-- **Conflict sets that are resolved in order lose nothing**: in every run of upserts that
starts without conflict sets, in which each set moves from unresolved or held to resolved
and each upsert is in order, every state reached has exactly the claims of open sets
conflicted, and every claim whose sets were all resolved without another winner as it was
at the start. -/
theorem conflicts_order_free {s₀ : Store} (hsets : s₀.conflictSets.rows = [])
    (hclaims : ∀ claim ∈ s₀.claims.rows, claim.lifecycle ≠ .conflicted) {ls : List ConflictSet}
    (hcond : (LTS.ofPartial upsertConflict).Always s₀ ls fun s k => Moves s k ∧ InOrder s k) :
    (LTS.ofPartial upsertConflict).Throughout s₀ ls (OrderFree s₀) := by
  have htracked : (LTS.ofPartial upsertConflict).Throughout s₀ ls (AllTracked s₀) :=
    LTS.Throughout.guarded (AllTracked.start hsets hclaims) hcond
      fun _ _ _ hstep hcond h => tracked_step hstep hcond.1 hcond.2 h
  exact fun ks rest m hsplit hks => (htracked ks rest m hsplit hks).orderFree

/-! Sample runs over three claims, two of them in both sets. -/

def sampleStore : Store :=
  ["a", "b", "c"].foldl (fun s claimId => upsertClaim s { claimId, updatedAt := "2026-01-01" })
    .empty

def sampleSet (conflictSetId : String) (claimIds : List String) (status : ConflictStatus)
    (h : 2 ≤ claimIds.length) : ConflictSet where
  conflictSetId := conflictSetId
  claimIds := claimIds
  status := status
  updatedAt := "2026-01-02"
  twoClaims := h

def firstSet (status : ConflictStatus) : ConflictSet :=
  sampleSet "conflict-1" ["a", "b"] status (by decide)

def secondSet (status : ConflictStatus) : ConflictSet :=
  sampleSet "conflict-2" ["b", "c", "a"] status (by decide)

theorem conflicts_order_free_sample :
    (LTS.ofPartial upsertConflict).Throughout sampleStore
      [firstSet .unresolved, secondSet .held, secondSet .resolved, firstSet .held,
        firstSet .resolved] (OrderFree sampleStore) :=
  conflicts_order_free (by decide +kernel) (by decide +kernel)
    (LTS.ExecPartialAlways.always (by decide +kernel))

/-- Both sets are opened and the first is resolved first: the claim they share is active
while the second is open, and conflicted when both are resolved. -/
theorem first_set_resolved_first :
    ∃ s s' : Store,
      LTS.execPartial upsertConflict sampleStore
        [firstSet .unresolved, secondSet .unresolved, firstSet .resolved] = some s ∧
      LTS.execPartial upsertConflict sampleStore
        [firstSet .unresolved, secondSet .unresolved, firstSet .resolved, secondSet .resolved] =
          some s' ∧
      (readClaim s "a").map (·.state) = some (.active, true) ∧ ¬ OrderFree sampleStore s ∧
      (readClaim s' "a").map (·.state) = some (.conflicted, false) ∧
      ¬ OrderFree sampleStore s' :=
  ⟨Option.get _ (by decide +kernel), Option.get _ (by decide +kernel), (Option.some_get _).symm,
    (Option.some_get _).symm, by decide +kernel, by decide +kernel, by decide +kernel,
    by decide +kernel⟩

end MemoryTruth

end PulSeed
