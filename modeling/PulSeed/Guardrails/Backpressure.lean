import Mathlib.Data.Int.Notation
import Mathlib.Data.List.Basic
import PulSeed.Lib.Transition

/-!
# Backpressure of automation providers (`runtime/guardrails/backpressure-controller.ts`)

A run asks for a permit before it uses a provider and releases it afterwards. The permits
are leases in a stored snapshot; `acquire` counts those that have not expired, and both
operations are one transaction of the store. A release names its run only by its run key,
and removes every lease with that key.

`live` are the leases of the runs that were granted a permit, have not released it and have
not let it expire. They are what the store holds as long as runs do not share their keys:

- `sound_iff_keys_distinct`: **the limits hold, and no release frees the permit of another
  run, exactly in the runs in which no run releases while another one with the same run key
  has a live permit.**

Times are milliseconds. What a clock shows is written to the store as text and read back
as the same time; the `updated_at` of the snapshot is left out, for nothing reads it.
-/

namespace PulSeed.BackpressureController

/-! ## The controller -/

/-- `BackpressureLease`, what a run asks for. -/
structure BackpressureLease where
  providerId : String
  serviceKey : String
  runKey : String
  deriving DecidableEq

/-- `BackpressureLeaseSchema`, a lease that is stored. -/
structure Entry where
  provider_id : String
  service_key : String
  run_key : String
  acquired_at : ℤ
  deriving DecidableEq

/-- A member of `throttled`; `at_time` is its `at`. -/
structure Throttle where
  provider_id : String
  service_key : String
  reason : String
  at_time : ℤ
  deriving DecidableEq

/-- `BackpressureSnapshot`. -/
structure Snapshot where
  active : List Entry := []
  throttled : List Throttle := []
  deriving DecidableEq

/-- The options of the controller. -/
structure Options where
  maxConcurrentPerProvider : ℕ
  maxConcurrentPerService : ℕ
  leaseTtlMs : ℕ

/-- The answer to `acquire`. -/
inductive Permit where
  | ok
  | refused (reason : String)
  deriving DecidableEq

section

variable (options : Options)

/-- The lease has not expired. -/
def fresh (now : ℤ) (entry : Entry) : Bool := now - entry.acquired_at ≤ options.leaseTtlMs

/-- `pruneExpired`. -/
def pruneExpired (now : ℤ) (active : List Entry) : List Entry := active.filter (fresh options now)

/-- The leases with a provider. -/
def ofProvider (providerId : String) (active : List Entry) : List Entry :=
  active.filter (·.provider_id = providerId)

/-- Those of them with a service. -/
def ofService (providerId serviceKey : String) (active : List Entry) : List Entry :=
  (ofProvider providerId active).filter (·.service_key = serviceKey)

/-- `[...].slice(-20)`. -/
def lastTwenty (throttled : List Throttle) : List Throttle :=
  throttled.drop (throttled.length - 20)

/-- `reject`. -/
def reject (snapshot : Snapshot) (lease : BackpressureLease) (reason : String)
    (active : List Entry) (now : ℤ) : Snapshot × Permit :=
  ({ active := active
     throttled := lastTwenty (snapshot.throttled ++ [{
      provider_id := lease.providerId
      service_key := lease.serviceKey
      reason := reason
      at_time := now }]) },
    .refused reason)

/-- What `acquire` stores for a lease. -/
def BackpressureLease.entry (lease : BackpressureLease) (now : ℤ) : Entry where
  provider_id := lease.providerId
  service_key := lease.serviceKey
  run_key := lease.runKey
  acquired_at := now

/-- The updater of `acquire`; the clock shows `checkedAt` when it prunes and `now` when it
writes. -/
def acquire (snapshot : Snapshot) (lease : BackpressureLease) (checkedAt now : ℤ) :
    Snapshot × Permit :=
  let active := pruneExpired options checkedAt snapshot.active
  if options.maxConcurrentPerProvider ≤ (ofProvider lease.providerId active).length then
    reject snapshot lease
      s!"provider concurrency limit reached ({options.maxConcurrentPerProvider})" active now
  else if options.maxConcurrentPerService ≤
      (ofService lease.providerId lease.serviceKey active).length then
    reject snapshot lease
      s!"service concurrency limit reached ({options.maxConcurrentPerService})" active now
  else ({ snapshot with active := active ++ [lease.entry now] }, .ok)

/-- The updater of `release`. -/
def release (snapshot : Snapshot) (runKey : String) (now : ℤ) : Snapshot :=
  { snapshot with
    active := (pruneExpired options now snapshot.active).filter (·.run_key ≠ runKey) }

end

/-! ## Runs -/

/-- A run that was granted a permit, by the number of its call of `acquire`. -/
structure Granted where
  run : ℕ
  entry : Entry
  deriving DecidableEq

/-- The stored snapshot and what the clock has shown, with what every run asked for and the
permits that were granted and have not been released. -/
structure State where
  stored : Option Snapshot := none
  clock : ℤ
  asked : List BackpressureLease := []
  granted : List Granted := []

/-- Nothing is stored. -/
def initial (clock : ℤ) : State := { clock }

/-- `readBackpressureSnapshot`, with its default. -/
def State.snapshot (s : State) : Snapshot := s.stored.getD {}

inductive Event where
  | acquire (lease : BackpressureLease) (checkedAt now : ℤ)
  | release (run : ℕ) (now : ℤ)

section

variable (options : Options)

/-- One transaction, at a time that is not before the last one. A run that releases gives the
run key it asked with; it has no permit afterwards. -/
def step (s : State) : Event → Option State
  | .acquire lease checkedAt now =>
    if s.clock ≤ checkedAt ∧ checkedAt ≤ now then
      let (snapshot, permit) := acquire options s.snapshot lease checkedAt now
      some {
        stored := some snapshot
        clock := now
        asked := s.asked ++ [lease]
        granted := if permit = .ok then s.granted ++ [⟨s.asked.length, lease.entry now⟩]
          else s.granted }
    else none
  | .release run now =>
    match s.asked[run]? with
    | none => none
    | some lease =>
      if s.clock ≤ now then
        some { s with
          stored := some (release options s.snapshot lease.runKey now)
          clock := now
          granted := s.granted.filter (·.run ≠ run) }
      else none

/-- The system of a controller and the runs that use it. -/
def backpressureLTS : LTS State Event := .ofPartial (step options)

/-- The permits that are held at a time: granted, not released and not expired. -/
def State.live (s : State) (now : ℤ) : List Granted :=
  s.granted.filter fun permit => fresh options now permit.entry

/-- The leases of these permits. -/
def State.leases (s : State) (now : ℤ) : List Entry := (s.live options now).map (·.entry)

/-- **The limits**, from what the clock has shown to the next transaction. -/
def Bounded (s : State) : Prop :=
  ∀ now, s.clock ≤ now → ∀ providerId,
    (ofProvider providerId (s.leases options now)).length ≤ options.maxConcurrentPerProvider ∧
      ∀ serviceKey, (ofService providerId serviceKey (s.leases options now)).length ≤
        options.maxConcurrentPerService

/-- **A release leaves the permits of the others**: the leases they hold are still stored. -/
def KeepsOthers (s : State) : Event → Prop
  | .acquire .. => True
  | .release run now => ∀ s', step options s (.release run now) = some s' →
      ∀ permit ∈ s.live options now, permit.run ≠ run → permit.entry ∈ s'.snapshot.active

/-- What the limits and the permits promise to every run. -/
structure Sound (clock : ℤ) (events : List Event) : Prop where
  bounded : (backpressureLTS options).Throughout (initial clock) events (Bounded options)
  keeps : (backpressureLTS options).Always (initial clock) events (KeepsOthers options)

/-- A run that releases shares its run key with no other run that has a live permit. -/
def KeysDistinct (s : State) : Event → Prop
  | .acquire .. => True
  | .release run now => ∀ lease ∈ s.asked[run]?,
      ∀ permit ∈ s.live options now, permit.run ≠ run → permit.entry.run_key ≠ lease.runKey

instance (s : State) (e : Event) : Decidable (KeysDistinct options s e) := by
  cases e with
  | acquire => exact instDecidableTrue
  | release run now =>
    exact inferInstanceAs (Decidable (∀ lease ∈ s.asked[run]?, _))

end

/-! ## What is pruned -/

section

variable {options : Options} {s s' : State} {now now' : ℤ}

/-- What has expired stays expired. -/
theorem fresh_of_later (hle : now ≤ now') {entry : Entry} (h : fresh options now' entry = true) :
    fresh options now entry = true := by
  unfold fresh at h ⊢
  rw [decide_eq_true_eq] at h ⊢
  omega

theorem pruneExpired_pruneExpired (hle : now ≤ now') (active : List Entry) :
    pruneExpired options now' (pruneExpired options now active) =
      pruneExpired options now' active := by
  unfold pruneExpired
  rw [List.filter_filter]
  refine List.filter_congr fun entry _ => ?_
  cases h : fresh options now' entry with
  | false => rfl
  | true => rw [fresh_of_later hle h, Bool.and_self]

theorem leases_eq (s : State) (now : ℤ) :
    s.leases options now = pruneExpired options now (s.granted.map (·.entry)) := by
  unfold State.leases State.live pruneExpired
  rw [List.filter_map]
  rfl

theorem mem_live {permit : Granted} :
    permit ∈ s.live options now ↔ permit ∈ s.granted ∧ fresh options now permit.entry = true :=
  List.mem_filter

/-! ## The store holds the live permits -/

/-- The store holds the leases of the live permits, in the order in which they were granted. -/
def Stored (options : Options) (s : State) : Prop :=
  pruneExpired options s.clock s.snapshot.active = s.leases options s.clock

/-- It does so at every later time. -/
theorem Stored.later (h : Stored options s) (hle : s.clock ≤ now) :
    pruneExpired options now s.snapshot.active = s.leases options now := by
  unfold Stored at h
  rw [leases_eq] at h ⊢
  rw [← pruneExpired_pruneExpired hle, h, pruneExpired_pruneExpired hle]

/-- A permit has the run key that its run asked with. -/
def KeysAsked (s : State) : Prop :=
  ∀ permit ∈ s.granted, ∃ lease, s.asked[permit.run]? = some lease ∧
    permit.entry.run_key = lease.runKey

/-- **What an acquisition does**: it prunes the store, and adds the lease when there is room
for it at the provider and at the service. -/
theorem acquire_cases (options : Options) (snapshot : Snapshot) (lease : BackpressureLease)
    (checkedAt now : ℤ) :
    ((acquire options snapshot lease checkedAt now).1.active =
        pruneExpired options checkedAt snapshot.active ++ [lease.entry now] ∧
      (acquire options snapshot lease checkedAt now).2 = .ok ∧
      (ofProvider lease.providerId (pruneExpired options checkedAt snapshot.active)).length <
        options.maxConcurrentPerProvider ∧
      (ofService lease.providerId lease.serviceKey
        (pruneExpired options checkedAt snapshot.active)).length <
          options.maxConcurrentPerService) ∨
    ((acquire options snapshot lease checkedAt now).1.active =
        pruneExpired options checkedAt snapshot.active ∧
      (acquire options snapshot lease checkedAt now).2 ≠ .ok) := by
  unfold acquire
  dsimp only
  split
  · exact .inr ⟨rfl, nofun⟩
  · next hprovider =>
    split
    · exact .inr ⟨rfl, nofun⟩
    · next hservice =>
      exact .inl ⟨rfl, rfl, Nat.lt_of_not_le hprovider, Nat.lt_of_not_le hservice⟩

theorem step_acquire {lease : BackpressureLease} {checkedAt now : ℤ}
    (h : step options s (.acquire lease checkedAt now) = some s') :
    s.clock ≤ checkedAt ∧ checkedAt ≤ now ∧ s'.clock = now ∧ s'.asked = s.asked ++ [lease] ∧
      ((s'.snapshot.active =
          pruneExpired options checkedAt s.snapshot.active ++ [lease.entry now] ∧
        s'.granted = s.granted ++ [⟨s.asked.length, lease.entry now⟩] ∧
        (ofProvider lease.providerId (pruneExpired options checkedAt s.snapshot.active)).length <
          options.maxConcurrentPerProvider ∧
        (ofService lease.providerId lease.serviceKey
          (pruneExpired options checkedAt s.snapshot.active)).length <
            options.maxConcurrentPerService) ∨
      (s'.snapshot.active = pruneExpired options checkedAt s.snapshot.active ∧
        s'.granted = s.granted)) := by
  unfold step at h
  dsimp only at h
  split at h
  · next hclock =>
    obtain ⟨hchecked, hwritten⟩ := hclock
    obtain rfl := Option.some.inj h
    refine ⟨hchecked, hwritten, rfl, rfl, ?_⟩
    rcases acquire_cases options s.snapshot lease checkedAt now with
      ⟨hactive, hok, hprovider, hservice⟩ | ⟨hactive, hrefused⟩
    · exact .inl ⟨hactive, if_pos hok, hprovider, hservice⟩
    · exact .inr ⟨hactive, if_neg hrefused⟩
  · cases h

/-- **What a release does**: it prunes the store and removes every lease with the run key. -/
theorem step_release {run : ℕ} {now : ℤ} (h : step options s (.release run now) = some s') :
    ∃ lease, s.asked[run]? = some lease ∧ s.clock ≤ now ∧ s'.clock = now ∧
      s'.asked = s.asked ∧ s'.granted = s.granted.filter (·.run ≠ run) ∧
      s'.snapshot.active = (pruneExpired options now s.snapshot.active).filter
        (·.run_key ≠ lease.runKey) := by
  unfold step at h
  dsimp only at h
  split at h
  · cases h
  · next lease hlease =>
    split at h
    · next hclock =>
      obtain rfl := Option.some.inj h
      exact ⟨lease, hlease, hclock, rfl, rfl, rfl, rfl⟩
    · cases h

theorem step_keysAsked {e : Event} (h : step options s e = some s') (hs : KeysAsked s) :
    KeysAsked s' := by
  cases e with
  | acquire lease checkedAt now =>
    obtain ⟨-, -, -, hasked, hcases⟩ := step_acquire h
    -- what was asked before is still found under its number
    have hold : ∀ permit ∈ s.granted, ∃ l, s'.asked[permit.run]? = some l ∧
        permit.entry.run_key = l.runKey := by
      intro permit hpermit
      obtain ⟨l, hl, hkey⟩ := hs permit hpermit
      refine ⟨l, ?_, hkey⟩
      rw [hasked, List.getElem?_append_left (List.getElem?_eq_some_iff.mp hl).1, hl]
    intro permit hpermit
    rcases hcases with ⟨-, hgranted, -⟩ | ⟨-, hgranted⟩
    · rw [hgranted] at hpermit
      rcases List.mem_append.mp hpermit with hpermit | hpermit
      · exact hold permit hpermit
      · obtain rfl := List.mem_singleton.mp hpermit
        exact ⟨lease, by rw [hasked, List.getElem?_concat_length], rfl⟩
    · rw [hgranted] at hpermit
      exact hold permit hpermit
  | release run now =>
    obtain ⟨-, -, -, -, hasked, hgranted, -⟩ := step_release h
    intro permit hpermit
    rw [hgranted] at hpermit
    rw [hasked]
    exact hs permit (List.mem_of_mem_filter hpermit)

/-! ## Acquisitions keep the limits -/

/-- A lease adds one to its own provider and service at most. -/
theorem ofProvider_append_le (providerId : String) (active : List Entry) (entry : Entry) :
    (ofProvider providerId (active ++ [entry])).length ≤ (ofProvider providerId active).length +
      if entry.provider_id = providerId then 1 else 0 := by
  unfold ofProvider
  rw [List.filter_append, List.length_append, List.filter_singleton]
  split <;> simp_all

theorem ofService_append_le (providerId serviceKey : String) (active : List Entry)
    (entry : Entry) :
    (ofService providerId serviceKey (active ++ [entry])).length ≤
      (ofService providerId serviceKey active).length +
        if entry.provider_id = providerId ∧ entry.service_key = serviceKey then 1 else 0 := by
  unfold ofService ofProvider
  rw [List.filter_append, List.filter_append, List.length_append, List.filter_singleton]
  by_cases hprovider : entry.provider_id = providerId
  · simp only [hprovider, decide_true, true_and]
    split <;> simp_all
  · simp [hprovider]

theorem ofProvider_sublist (providerId : String) {l l' : List Entry} (h : l.Sublist l') :
    (ofProvider providerId l).Sublist (ofProvider providerId l') := h.filter _

theorem ofService_sublist (providerId serviceKey : String) {l l' : List Entry}
    (h : l.Sublist l') :
    (ofService providerId serviceKey l).Sublist (ofService providerId serviceKey l') :=
  (ofProvider_sublist providerId h).filter _

theorem acquire_keeps {lease : BackpressureLease} {checkedAt now : ℤ}
    (h : step options s (.acquire lease checkedAt now) = some s') (hstored : Stored options s)
    (hbounded : Bounded options s) : Stored options s' ∧ Bounded options s' := by
  obtain ⟨hchecked, hwritten, hclock, -, hcases⟩ := step_acquire h
  rw [hstored.later hchecked] at hcases
  rcases hcases with ⟨hactive, hgranted, hprovider, hservice⟩ | ⟨hactive, hgranted⟩
  · -- from then on the live leases are those at the check and the new one
    have hleases : ∀ later, now ≤ later → s'.leases options later =
        pruneExpired options later (s.leases options checkedAt ++ [lease.entry now]) := by
      intro later hlater
      have hle : checkedAt ≤ later := Int.le_trans hwritten hlater
      rw [leases_eq, leases_eq, hgranted, List.map_append]
      unfold pruneExpired
      rw [List.filter_append, List.filter_append]
      congr 1
      exact (pruneExpired_pruneExpired hle _).symm
    constructor
    · unfold Stored
      rw [hclock, hactive, hleases now (Int.le_refl now)]
    · intro later hlater providerId
      rw [hclock] at hlater
      rw [hleases later hlater]
      have hsublist : (pruneExpired options later _).Sublist
        (s.leases options checkedAt ++ [lease.entry now]) := List.filter_sublist
      obtain ⟨hproviders, hservices⟩ := hbounded checkedAt hchecked providerId
      constructor
      · refine Nat.le_trans (ofProvider_sublist providerId hsublist).length_le ?_
        refine Nat.le_trans (ofProvider_append_le _ _ _) ?_
        split
        · next heq =>
          obtain rfl : lease.providerId = providerId := heq
          exact hprovider
        · exact hproviders
      · intro serviceKey
        refine Nat.le_trans (ofService_sublist providerId serviceKey hsublist).length_le ?_
        refine Nat.le_trans (ofService_append_le _ _ _ _) ?_
        split
        · next heq =>
          obtain ⟨rfl, rfl⟩ : lease.providerId = providerId ∧ lease.serviceKey = serviceKey := heq
          exact hservice
        · exact hservices serviceKey
  · -- the store is pruned, and nothing is granted
    have hleases : ∀ later, s'.leases options later = s.leases options later := by
      intro later
      rw [leases_eq, leases_eq, hgranted]
    constructor
    · unfold Stored
      rw [hclock, hactive, hleases, leases_eq, leases_eq, pruneExpired_pruneExpired hwritten]
    · intro later hlater providerId
      rw [hclock] at hlater
      rw [hleases]
      exact hbounded later (by omega) providerId

/-! ## Releases -/

/-- The live leases after a release are those of the other runs. -/
theorem leases_release {run : ℕ} {now later : ℤ}
    (h : step options s (.release run now) = some s') :
    s'.leases options later =
      ((s.live options later).filter (·.run ≠ run)).map (·.entry) := by
  obtain ⟨-, -, -, -, -, hgranted, -⟩ := step_release h
  unfold State.leases State.live
  rw [hgranted, List.filter_filter, List.filter_filter]
  congr 2
  funext permit
  exact Bool.and_comm _ _

/-- **A release leaves the permits of the others exactly when no other run with a live permit
has the run key.** -/
theorem keepsOthers_iff {e : Event} (h : step options s e = some s') (hstored : Stored options s) :
    KeepsOthers options s e ↔ KeysDistinct options s e := by
  cases e with
  | acquire lease checkedAt now => exact Iff.rfl
  | release run now =>
    obtain ⟨lease, hlease, hle, -, -, -, hactive⟩ := step_release h
    -- a permit that is live is stored, and is removed just when it has the key
    have hkept : ∀ permit ∈ s.live options now,
        permit.entry ∈ s'.snapshot.active ↔ permit.entry.run_key ≠ lease.runKey := by
      intro permit hpermit
      have hmem : permit.entry ∈ s.leases options now := List.mem_map_of_mem hpermit
      rw [hactive, hstored.later hle, List.mem_filter, decide_eq_true_eq]
      exact and_iff_right hmem
    unfold KeepsOthers KeysDistinct
    dsimp only
    constructor
    · intro hkeeps l hl permit hpermit hother
      rw [hlease] at hl
      obtain rfl := Option.some.inj hl
      exact (hkept permit hpermit).mp (hkeeps s' h permit hpermit hother)
    · intro hdistinct s'' hs'' permit hpermit hother
      rw [h] at hs''
      obtain rfl := Option.some.inj hs''
      exact (hkept permit hpermit).mpr (hdistinct lease hlease permit hpermit hother)

theorem release_keeps {run : ℕ} {now : ℤ}
    (h : step options s (.release run now) = some s') (hkeys : KeysAsked s)
    (hdistinct : KeysDistinct options s (.release run now)) (hstored : Stored options s)
    (hbounded : Bounded options s) : Stored options s' ∧ Bounded options s' := by
  obtain ⟨lease, hlease, hle, hclock, -, -, hactive⟩ := step_release h
  constructor
  · -- among the live permits, those with the key are those of the run
    unfold Stored
    rw [hclock, hactive, leases_release h, hstored.later hle]
    unfold State.leases pruneExpired
    rw [List.filter_filter, List.filter_map]
    congr 1
    refine List.filter_congr fun permit hpermit => ?_
    have hfresh := (mem_live.mp hpermit).2
    obtain ⟨l, hl, hkey⟩ := hkeys permit (mem_live.mp hpermit).1
    show (fresh options now permit.entry && decide (permit.entry.run_key ≠ lease.runKey)) = _
    rw [hfresh, Bool.true_and, decide_eq_decide]
    constructor
    · rintro hother rfl
      rw [hlease] at hl
      obtain rfl := Option.some.inj hl
      exact hother hkey
    · exact fun hother => hdistinct lease hlease permit hpermit hother
  · intro later hlater providerId
    rw [hclock] at hlater
    have hsublist : (s'.leases options later).Sublist (s.leases options later) := by
      rw [leases_release h]
      exact List.filter_sublist.map _
    obtain ⟨hproviders, hservices⟩ := hbounded later (by omega) providerId
    constructor
    · exact Nat.le_trans (ofProvider_sublist providerId hsublist).length_le hproviders
    · intro serviceKey
      exact Nat.le_trans (ofService_sublist providerId serviceKey hsublist).length_le
        (hservices serviceKey)

/-! ## Whole runs -/

/-- What holds as long as the releases leave the permits of the others. -/
structure Inv (options : Options) (s : State) : Prop where
  keys : KeysAsked s
  stored : Stored options s
  bounded : Bounded options s

theorem inv_initial (clock : ℤ) : Inv options (initial clock) := by
  constructor
  · intro permit hpermit
    cases hpermit
  · rfl
  · intro now _ providerId
    exact ⟨Nat.zero_le _, fun _ => Nat.zero_le _⟩

theorem Inv.step {e : Event} (h : step options s e = some s') (hs : Inv options s)
    (hdistinct : KeysDistinct options s e) : Inv options s' := by
  cases e with
  | acquire lease checkedAt now =>
    obtain ⟨hstored, hbounded⟩ := acquire_keeps h hs.stored hs.bounded
    exact ⟨step_keysAsked h hs.keys, hstored, hbounded⟩
  | release run now =>
    obtain ⟨hstored, hbounded⟩ := release_keeps h hs.keys hdistinct hs.stored hs.bounded
    exact ⟨step_keysAsked h hs.keys, hstored, hbounded⟩

/-- **The limits hold and no release frees the permit of another run, exactly in the runs in
which no run releases while another one with the same run key has a live permit.** -/
theorem sound_iff_keys_distinct {clock : ℤ} {events : List Event}
    (hrun : (backpressureLTS options).Run (initial clock) events s) :
    Sound options clock events ↔
      (backpressureLTS options).Always (initial clock) events (KeysDistinct options) := by
  constructor
  · intro hsound before e after m hsplit hbefore
    have hkeeps := hsound.keeps
    rw [hsplit] at hkeeps
    have hinv : Inv options m := hbefore.guarded (inv_initial clock) hkeeps.take
      fun a e b hstep hothers ha =>
        ha.step hstep ((keepsOthers_iff hstep ha.stored).mp hothers)
    obtain ⟨b, hstep⟩ := hrun.enabled hsplit hbefore
    exact (keepsOthers_iff hstep hinv.stored).mp (hsound.keeps before e after m hsplit hbefore)
  · intro hdistinct
    have hinv : (backpressureLTS options).Throughout (initial clock) events (Inv options) :=
      LTS.Throughout.guarded (inv_initial clock) hdistinct fun a e b hstep he ha =>
        ha.step hstep he
    constructor
    · exact fun before after m hsplit hbefore => (hinv before after m hsplit hbefore).bounded
    · intro before e after m hsplit hbefore
      obtain ⟨b, hstep⟩ := hrun.enabled hsplit hbefore
      have hm := hinv before (e :: after) m hsplit hbefore
      exact (keepsOthers_iff hstep hm.stored).mpr (hdistinct before e after m hsplit hbefore)

end

/-! ## Sample runs -/

/-- The default options. -/
def sampleOptions : Options where
  maxConcurrentPerProvider := 2
  maxConcurrentPerService := 1
  leaseTtlMs := 600000

def sampleLease (serviceKey runKey : String) : BackpressureLease where
  providerId := "browser"
  serviceKey := serviceKey
  runKey := runKey

/-- Two runs with keys of their own, and a third that is refused. -/
def sampleEvents : List Event :=
  [.acquire (sampleLease "mail" "a") 0 0, .acquire (sampleLease "news" "b") 1 1,
    .acquire (sampleLease "shop" "c") 2 2, .release 0 3]

theorem sound_iff_keys_distinct_sample : Sound sampleOptions 0 sampleEvents :=
  (sound_iff_keys_distinct (LTS.run_execPartial (Option.some_get
    (by decide : (LTS.execPartial (step sampleOptions) (initial 0) sampleEvents).isSome)).symm)).mpr
    (LTS.ExecPartialAlways.always (by decide))

/-- Two runs are allowed for a service. -/
def pairOptions : Options := { sampleOptions with maxConcurrentPerService := 2 }

/-- **Three runs hold a permit of a provider and a service that allow two**: two runs of one
session share their run key, and the release of one of them frees both. -/
theorem shared_key_exceeds :
    ∃ events s, (backpressureLTS pairOptions).Run (initial 0) events s ∧
      (ofService "browser" "mail" (s.leases pairOptions s.clock)).length = 3 :=
  ⟨[.acquire (sampleLease "mail" "browser:session:mail") 0 0,
      .acquire (sampleLease "mail" "browser:session:mail") 1 1, .release 0 2,
      .acquire (sampleLease "mail" "browser:other:mail") 3 3,
      .acquire (sampleLease "mail" "browser:third:mail") 4 4],
    _, LTS.run_execPartial (Option.some_get (by decide)).symm, by decide⟩

end PulSeed.BackpressureController
