import PulSeed.Store.MemoryTruth

/-!
# Forgotten memories

A claim with a blocking tombstone should be neither active nor visible. Only the import of
a snapshot looks at the tombstones, at those stored before the call. `safe_write_iff` says
for each write **exactly** when it keeps every tombstoned claim hidden:

- a claim is written hidden, or no tombstone blocks it;
- a blocking tombstone is written for a claim that is hidden already;
- a conflict set that is resolved without another winner brings a tombstoned claim back
  only to a hidden state it remembers.

Nothing in the store makes a write so. A set resolved after its claim was forgotten brings
the claim back (`forgotten_claim_returns`).
-/

namespace PulSeed

namespace MemoryTruth

/-- Not active and not visible to the normal surface. -/
def Hidden (lifecycle : Lifecycle) (visibleToNormalSurface : Bool) : Prop :=
  lifecycle ≠ .active ∧ visibleToNormalSurface = false

instance (lifecycle : Lifecycle) (visible : Bool) : Decidable (Hidden lifecycle visible) :=
  inferInstanceAs (Decidable (_ ∧ _))

abbrev MemoryClaim.Hidden (claim : MemoryClaim) : Prop :=
  MemoryTruth.Hidden claim.lifecycle claim.visibleToNormalSurface

/-- Every stored claim with a blocking tombstone is hidden. -/
def Safe (s : Store) : Prop :=
  ∀ claim ∈ s.claims.rows, hasBlockingTombstone s claim.claimId = true → claim.Hidden

instance (s : Store) : Decidable (Safe s) :=
  inferInstanceAs (Decidable (∀ claim ∈ s.claims.rows, _ → _))

theorem Safe.empty : Safe .empty := nofun

theorem safe_iff {s : Store} :
    Safe s ↔ ∀ id, ∀ claim ∈ readClaim s id, hasBlockingTombstone s id = true → claim.Hidden := by
  constructor
  · intro h id claim hclaim hblocked
    obtain rfl := Keyed.key_of_find hclaim
    exact h claim (Keyed.mem_rows_of_find hclaim) hblocked
  · intro h claim hclaim
    exact h _ claim (Keyed.mem_rows_iff.mp hclaim)

/-! ## Writes -/

/-- What a conflict set does to a claim leaves it hidden, when the claim has a tombstone. -/
def KeepsForgotten (conflict : ConflictSet) (claim : MemoryClaim) : Prop :=
  conflict.status = .resolved → ¬ conflict.LostBy claim.claimId →
    ∃ state ∈ preConflictClaimState claim conflict.conflictSetId, Hidden state.1 state.2

instance (conflict : ConflictSet) (claim : MemoryClaim) :
    Decidable (KeepsForgotten conflict claim) :=
  haveI : Decidable (∃ state ∈ preConflictClaimState claim conflict.conflictSetId,
      Hidden state.1 state.2) :=
    match h : preConflictClaimState claim conflict.conflictSetId with
    | none => .isFalse fun ⟨p, hp, _⟩ => by cases hp
    | some state => decidable_of_iff (Hidden state.1 state.2) (by simp)
  inferInstanceAs (Decidable (_ → _ → _))

/-- The condition under which a write keeps every tombstoned claim hidden. -/
def Write.Guarded (s : Store) : Write → Prop
  | .forget _ => True
  | .claim c => hasBlockingTombstone s c.claimId = true → c.Hidden
  | .correction _ => True
  | .tombstone t => t.Blocks → ∀ c ∈ readClaim s t.claimId, c.Hidden
  | .conflictSet _ => True
  | .conflictClaim k id => hasBlockingTombstone s id = true →
      ∀ c ∈ readClaim s id, KeepsForgotten k c

instance (s : Store) : (w : Write) → Decidable (w.Guarded s)
  | .forget _ => instDecidableTrue
  | .claim _ => inferInstanceAs (Decidable (_ → _))
  | .correction _ => instDecidableTrue
  | .tombstone _ => inferInstanceAs (Decidable (_ → ∀ c ∈ _, _))
  | .conflictSet _ => instDecidableTrue
  | .conflictClaim _ _ => inferInstanceAs (Decidable (_ → ∀ c ∈ _, _))

theorem hasBlockingTombstone_iff {s : Store} {id : String} :
    hasBlockingTombstone s id = true ↔ ∃ t ∈ s.tombstones.rows, t.claimId = id ∧ t.Blocks := by
  simp [hasBlockingTombstone]

@[simp] theorem hasBlockingTombstone_upsertClaim (s : Store) (claim : MemoryClaim) (id : String) :
    hasBlockingTombstone (upsertClaim s claim) id = hasBlockingTombstone s id := rfl

theorem readClaim_upsertClaim (s : Store) (claim : MemoryClaim) (id : String) :
    readClaim (upsertClaim s claim) id =
      if id = claim.claimId then some claim else readClaim s id :=
  s.claims.find_upsert claim id

/-- Writing a claim keeps the store safe exactly when the claim is hidden or free. -/
theorem safe_upsertClaim_iff {s : Store} {claim : MemoryClaim} (h : Safe s) :
    Safe (upsertClaim s claim) ↔
      (hasBlockingTombstone s claim.claimId = true → claim.Hidden) := by
  rw [safe_iff] at h ⊢
  constructor
  · intro hafter
    exact hafter claim.claimId claim (by rw [readClaim_upsertClaim, if_pos rfl]; rfl)
  · intro hclaim id c hc hblocked
    rw [hasBlockingTombstone_upsertClaim] at hblocked
    rw [readClaim_upsertClaim] at hc
    split at hc
    · next hid =>
      cases hc
      exact hclaim (hid ▸ hblocked)
    · exact h id c hc hblocked

/-- A conflict set leaves a tombstoned claim hidden exactly when it keeps it forgotten. -/
theorem hidden_conflictClaim_iff (conflict : ConflictSet) (claim : MemoryClaim) :
    (conflictClaim conflict claim).Hidden ↔ KeepsForgotten conflict claim := by
  unfold conflictClaim KeepsForgotten
  by_cases hresolved : conflict.status = .resolved
  · rw [if_pos hresolved]
    unfold resolvedConflictClaim
    by_cases hlost : conflict.LostBy claim.claimId
    · rw [if_pos hlost]
      refine iff_of_true ⟨?_, rfl⟩ fun _ hkept => absurd hlost hkept
      dsimp only
      split
      · nofun
      · next hlifecycle => exact fun h => hlifecycle (.inl h)
    · rw [if_neg hlost]
      cases hstate : preConflictClaimState claim conflict.conflictSetId with
      | none => simp [MemoryClaim.Hidden, Hidden, hresolved, hlost]
      | some state => simp [MemoryClaim.Hidden, Hidden, hresolved, hlost]
  · rw [if_neg hresolved]
    exact iff_of_true ⟨nofun, rfl⟩ fun h => absurd h hresolved

/-- What a tombstone's write does. -/
theorem upsertTombstone_some {s s' : Store} {t : ForgetTombstone}
    (h : upsertTombstone s t = some s') :
    (∃ c, readClaim s t.claimId = some c) ∧
      s' = { s with tombstones := s.tombstones.upsert t } := by
  unfold upsertTombstone at h
  split at h
  · cases h
  · split at h
    · cases h
    · next hclaim =>
      cases h
      exact ⟨Option.ne_none_iff_exists'.mp (by simpa using hclaim), rfl⟩

/-- What a correction's write does. -/
theorem upsertCorrection_some {s s' : Store} {c : CorrectionRef}
    (h : upsertCorrection s c = some s') :
    s' = { s with corrections := s.corrections.upsert c } := by
  unfold upsertCorrection at h
  split at h
  · cases h
  · split at h
    · cases h
    · split at h
      · cases h
      · cases h
        rfl

/-- A tombstone's write blocks at most its claim. -/
theorem blocked_of_upsertTombstone {s : Store} {t : ForgetTombstone} {id : String}
    (h : hasBlockingTombstone { s with tombstones := s.tombstones.upsert t } id = true) :
    id = t.claimId ∧ t.Blocks ∨ hasBlockingTombstone s id = true := by
  obtain ⟨r, hr, hid, hblocks⟩ := hasBlockingTombstone_iff.mp h
  rcases Keyed.mem_rows_upsert.mp hr with rfl | ⟨hr, -⟩
  · exact .inl ⟨hid.symm, hblocks⟩
  · exact .inr (hasBlockingTombstone_iff.mpr ⟨r, hr, hid, hblocks⟩)

/-- Forgetting a claim keeps the store safe. -/
theorem safe_forget {s s' : Store} {f : Forgetting} (h : Safe s)
    (hf : Write.perform s (.forget f) = some s') : Safe s' := by
  obtain ⟨m, hm, rfl⟩ := Option.map_eq_some_iff.mp hf
  obtain ⟨-, rfl⟩ := upsertTombstone_some hm
  have hhidden : f.claim.Hidden := ⟨by rw [f.isForgotten]; nofun, f.isInvisible⟩
  rw [safe_iff] at h ⊢
  intro id c hc hblocked
  rw [readClaim_upsertClaim] at hc
  split at hc
  · cases hc
    exact hhidden
  · next hne =>
    rw [hasBlockingTombstone_upsertClaim] at hblocked
    rcases blocked_of_upsertTombstone hblocked with ⟨hid, -⟩ | hblocked
    · exact absurd (hid.trans f.ofClaim) hne
    · exact h id c hc hblocked

/-- **A write keeps every tombstoned claim hidden exactly when it is guarded.** -/
theorem safe_write_iff {s s' : Store} {w : Write} (hw : w.perform s = some s') (h : Safe s) :
    Safe s' ↔ w.Guarded s := by
  cases w with
  | forget f => exact iff_of_true (safe_forget h hw) trivial
  | claim c =>
    cases hw
    exact safe_upsertClaim_iff h
  | correction c =>
    have hs' := upsertCorrection_some hw
    subst hs'
    exact iff_of_true h trivial
  | tombstone t =>
    obtain ⟨⟨c, hc⟩, hs'⟩ := upsertTombstone_some hw
    subst hs'
    rw [safe_iff] at h ⊢
    constructor
    · intro hafter hblocks c' hc'
      refine hafter t.claimId c' hc' (hasBlockingTombstone_iff.mpr ⟨t, ?_, rfl, hblocks⟩)
      exact Keyed.mem_rows_upsert.mpr (.inl rfl)
    · intro hguard id c' hc' hblocked
      rcases blocked_of_upsertTombstone hblocked with ⟨rfl, hblocks⟩ | hblocked
      · exact hguard hblocks c' hc'
      · exact h id c' hc' hblocked
  | conflictSet k =>
    cases hw
    exact iff_of_true h trivial
  | conflictClaim k id =>
    obtain ⟨c, hc, rfl⟩ := Option.map_eq_some_iff.mp hw
    obtain rfl := Keyed.key_of_find hc
    rw [safe_upsertClaim_iff h, claimId_conflictClaim, hidden_conflictClaim_iff]
    unfold Write.Guarded
    simp only [hc, Option.mem_def, Option.some.injEq, forall_eq']

/-! ## Calls -/

/-- Every write of a call is guarded in the store it is made to. -/
def GuardedAll (s : Store) : List Write → Prop
  | [] => True
  | w :: ws => w.Guarded s ∧ ∀ s' ∈ w.perform s, GuardedAll s' ws

instance GuardedAll.decidable : ∀ (s : Store) (ws : List Write), Decidable (GuardedAll s ws)
  | _, [] => instDecidableTrue
  | s, w :: ws =>
    haveI : Decidable (∀ s' ∈ w.perform s, GuardedAll s' ws) :=
      match h : w.perform s with
      | none => .isTrue nofun
      | some s' =>
        haveI := GuardedAll.decidable s' ws
        decidable_of_iff (GuardedAll s' ws) (by simp)
    inferInstanceAs (Decidable (_ ∧ _))

theorem safe_performAll {s s' : Store} {ws : List Write} (h : Safe s) (hguard : GuardedAll s ws)
    (hws : performAll s ws = some s') : Safe s' := by
  induction ws generalizing s with
  | nil =>
    cases hws
    exact h
  | cons w ws ih =>
    obtain ⟨m, hm, hrest⟩ := Option.bind_eq_some_iff.mp hws
    exact ih ((safe_write_iff hm h).mpr hguard.1) (hguard.2 m hm) hrest

variable (stableId : String → String)

/-- Every write of the call is guarded. -/
def GuardedCall (s : Store) (l : Call × Bool) : Prop :=
  ∀ ws ∈ l.1.writes stableId s, GuardedAll s ws

instance (s : Store) (l : Call × Bool) : Decidable (GuardedCall stableId s l) :=
  inferInstanceAs (Decidable (∀ ws ∈ _, GuardedAll s ws))

/-- What a call stores: the result of its writes, or nothing new. -/
theorem call_fst (s : Store) (c : Call) :
    (call stableId s c).1 = s ∨
      ∃ ws, c.writes stableId s = some ws ∧ performAll s ws = some (call stableId s c).1 := by
  unfold call
  cases hws : c.writes stableId s with
  | none => exact .inl rfl
  | some ws =>
    cases hall : performAll s ws with
    | none => exact .inl (by simp [hall])
    | some s' => exact .inr ⟨ws, rfl, by simp [hall]⟩

theorem safe_call {s : Store} {c : Call} (h : Safe s)
    (hguard : GuardedCall stableId s (c, (call stableId s c).2)) : Safe (call stableId s c).1 := by
  rcases call_fst stableId s c with hsame | ⟨ws, hws, hall⟩
  · rwa [hsame]
  · exact safe_performAll h (hguard ws hws) hall

/-- **Forgotten memories stay hidden in guarded runs**: in every run of snapshots and
corrections whose writes are guarded, no state reached has a claim with a blocking
tombstone that is active or visible. -/
theorem forgotten_stay_hidden {s : Store} (h : Safe s) {ls : List (Call × Bool)}
    (hguard : (LTS.ofFn (call stableId)).Always s ls (GuardedCall stableId)) :
    (LTS.ofFn (call stableId)).Throughout s ls Safe := by
  refine LTS.Throughout.guarded h hguard fun a l b hstep hcond ha => ?_
  have hb : call stableId a l.1 = (b, l.2) := hstep
  have hafter := safe_call stableId (c := l.1) ha (by rw [hb]; exact hcond)
  rwa [hb] at hafter

/-! Sample runs. -/

def sampleClaim (claimId : String) : MemoryClaim where
  claimId := claimId
  ownerKind := "knowledge"
  ownerScope := "goal-1"
  updatedAt := "2026-01-01"

def sampleSnapshot (claims : List MemoryClaim) (conflictSets : List ConflictSet) : Call :=
  .saveOwnerSnapshot
    { ownerKind := "knowledge", ownerScope := "goal-1", claims, conflictSets,
      now := "2026-01-02" } false

def sampleForget (claimId : String) : Call :=
  .applyCorrectionTransaction
    { correction :=
        { correctionId := "correction-1", targetClaimId := claimId, correctionKind := .forgotten,
          idempotencyKey := "correction-1", createdAt := "2026-01-03" }
      tombstone := some
        { tombstoneId := "tombstone-1", claimId, idempotencyKey := "tombstone-1",
          reason := "asked to forget", createdAt := "2026-01-03" } } false

/-- A claim is forgotten, imported again, and removed from the snapshot. -/
def sampleCalls : List Call :=
  [sampleSnapshot [sampleClaim "a", sampleClaim "b"] [], sampleForget "a",
    sampleSnapshot [sampleClaim "a", sampleClaim "b"] [], sampleSnapshot [sampleClaim "a"] []]

theorem forgotten_stay_hidden_sample :
    (LTS.ofFn (call id)).Throughout .empty (LTS.exec (call id) .empty sampleCalls).1 Safe :=
  forgotten_stay_hidden id Safe.empty (LTS.ExecAlways.always (by decide +kernel))

theorem two_le_pair : 2 ≤ ["a", "b"].length := by decide

theorem minOne?_none : minOne? none := by decide

def sampleConflict (status : ConflictStatus) : ConflictSet where
  conflictSetId := "conflict-1"
  claimIds := ["a", "b"]
  status := status
  updatedAt := "2026-01-02"
  twoClaims := two_le_pair
  resolutionNamed := minOne?_none

/-- A conflict is opened, one of its claims is forgotten, and the conflict is resolved:
all calls are committed, and the forgotten claim is active and visible again. -/
theorem forgotten_claim_returns :
    ∃ s : Store,
      s = (LTS.exec (call id) .empty
        [sampleSnapshot [sampleClaim "a", sampleClaim "b"] [sampleConflict .unresolved],
          sampleForget "a", sampleSnapshot [] [sampleConflict .resolved]]).2 ∧
        hasBlockingTombstone s "a" = true ∧
        (∃ claim ∈ s.claims.rows, claim.claimId = "a" ∧ claim.lifecycle = .active ∧
          claim.visibleToNormalSurface = true) ∧ ¬ Safe s :=
  ⟨_, rfl, by decide +kernel, by decide +kernel, by decide +kernel⟩

end MemoryTruth

end PulSeed
