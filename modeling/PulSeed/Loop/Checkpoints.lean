import PulSeed.Lib.History
import PulSeed.Traits.TrustManager

/-!
# Checkpoints of a run (`orchestrator/loop/checkpoint-manager-loop.ts`, `state-manager.ts`)

After a verified task a run saves a checkpoint of its goal: the dimensions that have a number,
and the balance of the adapter. A run that starts restores the checkpoint of its goal, as the
last state that is known to be good: it sets the dimensions and overrides the balance.

**A start restores that much and nothing else, and what was observed and recorded since is
kept at every start exactly when each finds what its checkpoint has recorded**
(`starts_restore`).

A save reads the goal and the balance at one moment. The numbers of dimensions are those that
can be stored.
-/

namespace PulSeed.Checkpoints

open TrustManager (TrustStore inBounds clamp)

/-! ## The state -/

/-- A stored `current_value`. -/
inductive Value
  | number (q : ℚ)
  | string (s : String)
  | boolean (b : Bool)
  | null
  deriving DecidableEq

/-- The fields of a dimension that a checkpoint reads or writes. -/
structure Dimension where
  name : String
  current_value : Value
  deriving DecidableEq

/-- `LoopCheckpoint`; the balance of its `trust_snapshot` is one that was read. -/
structure LoopCheckpoint where
  cycle_number : ℕ
  dimension_snapshot : ObjectMap String ℚ
  trust_snapshot : Option Number
  trust_bounds : ∀ balance ∈ trust_snapshot, inBounds balance = true

/-- The dimensions of the stored goals, their checkpoints, and the trust store. -/
structure State where
  goals : String → Option (List Dimension)
  checkpoints : String → Option LoopCheckpoint
  trust : TrustStore

/-! ## Saving and restoring -/

/-- The assignment of a dimension to the snapshot; one to `__proto__` is lost. -/
def record (snapshot : ObjectMap String ℚ) (dim : Dimension) : ObjectMap String ℚ :=
  match dim.current_value with
  | .number q => if dim.name = "__proto__" then snapshot else snapshot.set dim.name q
  | .string _ | .boolean _ | .null => snapshot

/-- `dimensionSnapshot`. -/
def dimensionSnapshot (dims : List Dimension) : ObjectMap String ℚ := dims.foldl record .empty

/-- A dimension, with the number of the snapshot if there is one. -/
def restoreDimension (snapshot : ObjectMap String ℚ) (dim : Dimension) : Dimension :=
  match snapshot.get? dim.name with
  | some snapshotVal => { dim with current_value := .number snapshotVal }
  | none => dim

section Runs

variable (adapterType : String)

theorem getBalance_inBounds {store : TrustStore} {domain : String} {balance : Number}
    (h : balance ∈ store.getBalance domain) : inBounds balance = true := by
  obtain ⟨current, -, rfl⟩ := Option.map_eq_some_iff.mp h
  exact current.bounds

/-- The checkpoint that `saveLoopCheckpoint` makes. -/
def makeCheckpoint (s : State) (goalId : String) (loopIndex : ℕ) : LoopCheckpoint where
  cycle_number := loopIndex + 1
  dimension_snapshot := dimensionSnapshot ((s.goals goalId).getD [])
  trust_snapshot := s.trust.getBalance adapterType
  trust_bounds _ := getBalance_inBounds

/-- `saveLoopCheckpoint`. -/
def saveLoopCheckpoint (s : State) (goalId : String) (loopIndex : ℕ) : State :=
  { s with
    checkpoints := Function.update s.checkpoints goalId
      (some (makeCheckpoint adapterType s goalId loopIndex)) }

/-- The restored balance; an override that throws is ignored. -/
def restoreTrust (trust : TrustStore) (timestamp : String) : Option Number → TrustStore
  | some balance => (TrustManager.setOverride trust adapterType balance timestamp).getD trust
  | none => trust

/-- `restoreFromCheckpoint`: the state after it, and the cycle number that it returns. -/
def restoreFromCheckpoint (s : State) (goalId timestamp : String) : State × ℕ :=
  match s.checkpoints goalId with
  | none => (s, 0)
  | some cp =>
    ({ s with
        goals := Function.update s.goals goalId
          ((s.goals goalId).map (List.map (restoreDimension cp.dimension_snapshot)))
        trust := restoreTrust adapterType s.trust timestamp cp.trust_snapshot },
      cp.cycle_number)

/-- What happens to goals and trust: a run starts, saves a checkpoint, a dimension is observed,
the trust manager is called. -/
inductive Op
  | start (goalId timestamp : String)
  | save (goalId : String) (loopIndex : ℕ)
  | observe (goalId : String) (index : ℕ) (value : Value)
  | trust (call : TrustManager.Call)

def perform (s : State) : Op → State
  | .start goalId timestamp => (restoreFromCheckpoint adapterType s goalId timestamp).1
  | .save goalId loopIndex => saveLoopCheckpoint adapterType s goalId loopIndex
  | .observe goalId index value =>
    { s with
      goals := Function.update s.goals goalId ((s.goals goalId).map fun dims =>
        dims.modify index fun dim => { dim with current_value := value }) }
  | .trust call => { s with trust := (TrustManager.update call s.trust).getD s.trust }

/-- The state after some operations. -/
def after (s : State) (ops : List Op) : State := ops.foldl (perform adapterType) s

/-- Goals and trust before any checkpoint. -/
def fresh (goals : String → Option (List Dimension)) (trust : TrustStore) : State where
  goals := goals
  checkpoints _ := none
  trust := trust

end Runs

/-! ## What a snapshot records -/

/-- The number of a value. -/
def Value.number? : Value → Option ℚ
  | .number q => some q
  | .string _ | .boolean _ | .null => none

/-- The last number among the dimensions of a name. -/
def lastNumber (dims : List Dimension) (name : String) : Option ℚ :=
  (dims.filterMap fun dim => if dim.name = name then dim.current_value.number? else none).getLast?

/-- What a checkpoint records for a name. -/
def recorded (dims : List Dimension) (name : String) : Option ℚ :=
  if name = "__proto__" then none else lastNumber dims name

theorem lastNumber_concat (dims : List Dimension) (dim : Dimension) (name : String) :
    lastNumber (dims ++ [dim]) name =
      if dim.name = name then dim.current_value.number?.or (lastNumber dims name)
      else lastNumber dims name := by
  unfold lastNumber
  rw [List.filterMap_append, List.filterMap_cons, List.filterMap_nil]
  by_cases hname : dim.name = name
  · simp only [if_pos hname]
    cases dim.current_value.number? with
    | none => simp
    | some q => simp
  · simp [hname]

theorem get?_record (snapshot : ObjectMap String ℚ) (dim : Dimension) (name : String) :
    (record snapshot dim).get? name =
      if dim.name = name ∧ name ≠ "__proto__" then
        dim.current_value.number?.or (snapshot.get? name)
      else snapshot.get? name := by
  unfold record Value.number?
  cases dim.current_value with
  | number q =>
    dsimp only
    by_cases hproto : dim.name = "__proto__"
    · rw [if_pos hproto, if_neg]
      rintro ⟨rfl, hname⟩
      exact hname hproto
    · rw [if_neg hproto, ObjectMap.get?_set]
      by_cases hname : name = dim.name
      · subst hname
        rw [if_pos rfl, if_pos ⟨rfl, hproto⟩]
        rfl
      · rw [if_neg hname, if_neg fun h => hname h.1.symm]
  | string _ => simp
  | boolean _ => simp
  | null => simp

/-- **A snapshot** has the last number of each name. -/
theorem get?_dimensionSnapshot (dims : List Dimension) (name : String) :
    (dimensionSnapshot dims).get? name = recorded dims name := by
  induction dims using List.reverseRecOn with
  | nil =>
    unfold recorded
    split <;> rfl
  | append_singleton dims dim ih =>
    unfold dimensionSnapshot at ih ⊢
    rw [List.foldl_concat, get?_record, ih]
    unfold recorded
    rw [lastNumber_concat]
    by_cases hproto : name = "__proto__"
    · simp [hproto]
    · simp [hproto]

/-- With distinct names, what is recorded for a dimension is its number. -/
theorem recorded_of_distinct {dims : List Dimension} (hdistinct : (dims.map (·.name)).Nodup)
    {dim : Dimension} (hdim : dim ∈ dims) {q : ℚ} (h : recorded dims dim.name = some q) :
    dim.current_value = .number q := by
  unfold recorded at h
  split at h
  · cases h
  · have hmem := List.mem_of_getLast? h
    obtain ⟨other, hother, hnumber⟩ := List.mem_filterMap.mp hmem
    split at hnumber
    · next hname =>
      obtain rfl := List.inj_on_of_nodup_map hdistinct hother hdim hname
      unfold Value.number? at hnumber
      split at hnumber
      · next hvalue =>
        cases hnumber
        exact hvalue
      · cases hnumber
      · cases hnumber
      · cases hnumber
    · cases hnumber

theorem restoreDimension_eq_iff {snapshot : ObjectMap String ℚ} {dim : Dimension} :
    restoreDimension snapshot dim = dim ↔
      ∀ q, snapshot.get? dim.name = some q → dim.current_value = .number q := by
  unfold restoreDimension
  cases hget : snapshot.get? dim.name with
  | none => simp
  | some q =>
    dsimp only
    constructor
    · rintro heq _ ⟨⟩
      exact (congrArg Dimension.current_value heq).symm
    · intro h
      rw [← h q rfl]

/-! ## What the operations do -/

section Proofs

variable {adapterType : String}

theorem after_append (s : State) (ops ops' : List Op) :
    after adapterType s (ops ++ ops') = after adapterType (after adapterType s ops) ops' :=
  List.foldl_append

theorem after_concat (s : State) (ops : List Op) (op : Op) :
    after adapterType s (ops ++ [op]) = perform adapterType (after adapterType s ops) op :=
  List.foldl_concat ..

/-- Only a save changes a checkpoint. -/
theorem checkpoints_perform {s : State} {op : Op} {goalId : String}
    (h : ∀ loopIndex, op ≠ .save goalId loopIndex) :
    (perform adapterType s op).checkpoints goalId = s.checkpoints goalId := by
  cases op with
  | start id timestamp =>
    unfold perform restoreFromCheckpoint
    dsimp only
    split <;> rfl
  | save id loopIndex =>
    refine Function.update_of_ne ?_ ..
    rintro rfl
    exact h loopIndex rfl
  | observe id index value => rfl
  | trust call => rfl

theorem checkpoints_after {s : State} {ops : List Op} {goalId : String}
    (h : ∀ loopIndex, Op.save goalId loopIndex ∉ ops) :
    (after adapterType s ops).checkpoints goalId = s.checkpoints goalId := by
  induction ops using List.reverseRecOn with
  | nil => rfl
  | append_singleton ops op ih =>
    rw [after_concat, checkpoints_perform, ih]
    · exact fun loopIndex hmem => h loopIndex (List.mem_append_left _ hmem)
    · rintro loopIndex rfl
      exact h loopIndex (List.mem_append_right _ List.mem_cons_self)

/-- The balances after a restoration. -/
theorem getBalance_restoreTrust (trust : TrustStore) (timestamp : String)
    {snapshot : Option Number} (hbounds : ∀ balance ∈ snapshot, inBounds balance = true)
    (domain : String) :
    (restoreTrust adapterType trust timestamp snapshot).getBalance domain =
      if adapterType = domain then
        (trust.getBalance domain).map fun balance => snapshot.getD balance
      else trust.getBalance domain := by
  cases snapshot with
  | none =>
    unfold restoreTrust
    simp
  | some recorded =>
    have hrecorded := hbounds recorded rfl
    have hupdate := TrustManager.getBalance_update (.setOverride adapterType recorded timestamp)
      trust domain
    refine hupdate.trans ?_
    have hsettle : (TrustManager.Call.setOverride adapterType recorded timestamp).settle =
        fun _ => recorded := by
      funext balance
      simp [TrustManager.Call.settle, TrustManager.Call.adjust, TrustManager.clamp_eq hrecorded,
        hrecorded]
    rw [hsettle]
    simp [TrustManager.Call.updates]

/-- The rest of the trust store after a restoration. -/
theorem restoreTrust_frame (trust : TrustStore) (timestamp : String) (snapshot : Option Number) :
    (restoreTrust adapterType trust timestamp snapshot).permanent_gates = trust.permanent_gates ∧
      ∃ entries, (restoreTrust adapterType trust timestamp snapshot).override_log =
        trust.override_log ++ entries := by
  cases snapshot with
  | none => exact ⟨rfl, [], (List.append_nil _).symm⟩
  | some recorded =>
    unfold restoreTrust
    dsimp only
    cases hset : TrustManager.setOverride trust adapterType recorded timestamp with
    | none => exact ⟨rfl, [], (List.append_nil _).symm⟩
    | some trust' =>
      unfold TrustManager.setOverride at hset
      obtain ⟨current, -, hset⟩ := Option.bind_eq_some_iff.mp hset
      obtain ⟨updated, -, hset⟩ := Option.bind_eq_some_iff.mp hset
      cases hset
      exact ⟨rfl, _, rfl⟩

/-- Whether a balance can be read does not change. -/
theorem getBalance_isSome_perform (s : State) (op : Op) (domain : String) :
    ((perform adapterType s op).trust.getBalance domain).isSome =
      (s.trust.getBalance domain).isSome := by
  cases op with
  | start goalId timestamp =>
    unfold perform restoreFromCheckpoint
    dsimp only
    split
    · rfl
    · next cp hcp =>
      dsimp only
      rw [getBalance_restoreTrust _ _ cp.trust_bounds]
      split
      · rw [Option.isSome_map]
      · rfl
  | save goalId loopIndex => rfl
  | observe goalId index value => rfl
  | trust call =>
    unfold perform
    dsimp only
    rw [TrustManager.getBalance_update]
    split
    · rw [Option.isSome_map]
    · rfl

variable (adapterType) in
theorem getBalance_isSome_after (s : State) (ops : List Op) (domain : String) :
    ((after adapterType s ops).trust.getBalance domain).isSome =
      (s.trust.getBalance domain).isSome := by
  induction ops using List.reverseRecOn with
  | nil => rfl
  | append_singleton ops op ih => rw [after_concat, getBalance_isSome_perform, ih]

end Proofs

/-! ## Runs -/

section Runs

variable (adapterType : String)

/-- The state `s'` after a start of the goal is the state `s` before it, rolled back to what was
saved in `saved`, and nothing else. -/
structure RollsBack (saved s s' : State) (goalId : String) : Prop where
  dimensions : s'.goals goalId = (s.goals goalId).map (List.map fun dim =>
    match recorded ((saved.goals goalId).getD []) dim.name with
    | some q => { dim with current_value := .number q }
    | none => dim)
  goals : ∀ id, id ≠ goalId → s'.goals id = s.goals id
  balance : s'.trust.getBalance adapterType = saved.trust.getBalance adapterType
  balances : ∀ domain, domain ≠ adapterType →
    s'.trust.getBalance domain = s.trust.getBalance domain
  gates : s'.trust.permanent_gates = s.trust.permanent_gates
  log : ∃ entries, s'.trust.override_log = s.trust.override_log ++ entries

/-- No value of a dimension and no balance differs. -/
structure SameValues (s s' : State) : Prop where
  goals : s'.goals = s.goals
  balances : ∀ domain, s'.trust.getBalance domain = s.trust.getBalance domain

/-- The goal is as it was in `saved`, and so is the balance of the adapter. -/
structure Unchanged (saved s : State) (goalId : String) : Prop where
  goal : s.goals goalId = saved.goals goalId
  balance : s.trust.getBalance adapterType = saved.trust.getBalance adapterType

/-- What a start of the goal restores, after some operations. -/
structure StartRestores (s₀ : State) (before : List Op) (goalId timestamp : String) : Prop where
  unsaved : (∀ loopIndex, .save goalId loopIndex ∉ before) →
    restoreFromCheckpoint adapterType (after adapterType s₀ before) goalId timestamp =
      (after adapterType s₀ before, 0)
  saved : ∀ earlier loopIndex later, before = earlier ++ .save goalId loopIndex :: later →
    (∀ i, .save goalId i ∉ later) →
    let saved := after adapterType s₀ earlier
    let s := after adapterType s₀ before
    let r := restoreFromCheckpoint adapterType s goalId timestamp
    RollsBack adapterType saved s r.1 goalId ∧ r.2 = loopIndex + 1 ∧
      (Unchanged adapterType saved s goalId →
        (∀ dims, s.goals goalId = some dims → (dims.map (·.name)).Nodup) → SameValues s r.1)

/-- The operations that are not starts. -/
def withoutStarts (ops : List Op) : List Op :=
  ops.filter fun
    | .start _ _ => false
    | .save _ _ | .observe _ _ _ | .trust _ => true

/-- What was observed and recorded is kept: the values are those that the observations and the
calls of the trust manager have made alone. -/
def Keeps (s₀ : State) (ops : List Op) : Prop :=
  SameValues (after adapterType s₀ (withoutStarts ops)) (after adapterType s₀ ops)

/-- A start finds what its checkpoint has recorded. -/
def FindsRecorded (s : State) : Op → Prop
  | .start goalId _ => ∀ cp, s.checkpoints goalId = some cp →
    (∀ dims, s.goals goalId = some dims → ∀ dim ∈ dims, ∀ q,
      cp.dimension_snapshot.get? dim.name = some q → dim.current_value = .number q) ∧
    ∀ balance ∈ s.trust.getBalance adapterType, ∀ snapshot ∈ cp.trust_snapshot, balance = snapshot
  | _ => True

variable {adapterType}

theorem restoreFromCheckpoint_some {s : State} {goalId : String} {cp : LoopCheckpoint}
    (h : s.checkpoints goalId = some cp) (timestamp : String) :
    restoreFromCheckpoint adapterType s goalId timestamp =
      ({ s with
          goals := Function.update s.goals goalId
            ((s.goals goalId).map (List.map (restoreDimension cp.dimension_snapshot)))
          trust := restoreTrust adapterType s.trust timestamp cp.trust_snapshot },
        cp.cycle_number) := by
  unfold restoreFromCheckpoint
  rw [h]

/-- A goal with a checkpoint is rolled back to it. -/
theorem restore_saved {saved s : State} {goalId : String} {loopIndex : ℕ} (timestamp : String)
    (hcheckpoint : s.checkpoints goalId = some (makeCheckpoint adapterType saved goalId loopIndex))
    (hread : (s.trust.getBalance adapterType).isSome =
      (saved.trust.getBalance adapterType).isSome) :
    RollsBack adapterType saved s (restoreFromCheckpoint adapterType s goalId timestamp).1 goalId ∧
      (restoreFromCheckpoint adapterType s goalId timestamp).2 = loopIndex + 1 := by
  rw [restoreFromCheckpoint_some hcheckpoint]
  refine ⟨⟨?_, fun id hid => Function.update_of_ne hid .., ?_, ?_, ?_, ?_⟩, rfl⟩
  · dsimp only
    rw [Function.update_self]
    unfold makeCheckpoint restoreDimension
    simp only [get?_dimensionSnapshot]
  · rw [getBalance_restoreTrust _ _ (makeCheckpoint ..).trust_bounds, if_pos rfl]
    unfold makeCheckpoint
    dsimp only
    cases hnow : s.trust.getBalance adapterType with
    | none =>
      rw [hnow] at hread
      exact (Option.isNone_iff_eq_none.mp (Option.isSome_eq_false_iff.mp hread.symm)).symm
    | some balance =>
      rw [hnow] at hread
      obtain ⟨snapshot, hsnapshot⟩ := Option.isSome_iff_exists.mp hread.symm
      rw [hsnapshot]
      rfl
  · intro domain hdomain
    rw [getBalance_restoreTrust _ _ (makeCheckpoint ..).trust_bounds, if_neg (Ne.symm hdomain)]
  · exact (restoreTrust_frame ..).1
  · exact (restoreTrust_frame ..).2

/-- A start changes no value when nothing has changed since the save. -/
theorem RollsBack.same {saved s s' : State} {goalId : String}
    (h : RollsBack adapterType saved s s' goalId) (hsame : Unchanged adapterType saved s goalId)
    (hdistinct : ∀ dims, s.goals goalId = some dims → (dims.map (·.name)).Nodup) :
    SameValues s s' where
  goals := by
    funext id
    by_cases hid : id = goalId
    · subst hid
      rw [h.dimensions, ← hsame.goal]
      cases hdims : s.goals id with
      | none => rfl
      | some dims =>
        rw [Option.map_some, Option.getD_some]
        refine congrArg some ((List.map_congr_left fun dim hdim => ?_).trans (List.map_id _))
        split
        · next q hq =>
          rw [← recorded_of_distinct (hdistinct dims hdims) hdim hq]
          rfl
        · rfl
    · exact h.goals id hid
  balances domain := by
    by_cases hdomain : domain = adapterType
    · rw [hdomain, h.balance, hsame.balance]
    · exact h.balances domain hdomain

/-- **What a start restores**, after any operations. -/
theorem startRestores (goals : String → Option (List Dimension)) (trust : TrustStore)
    (before : List Op) (goalId timestamp : String) :
    StartRestores adapterType (fresh goals trust) before goalId timestamp where
  unsaved hnone := by
    unfold restoreFromCheckpoint
    rw [checkpoints_after hnone]
    rfl
  saved := by
    rintro earlier loopIndex later rfl hlater
    dsimp only
    have hcheckpoint : (after adapterType (fresh goals trust)
        (earlier ++ .save goalId loopIndex :: later)).checkpoints goalId =
          some (makeCheckpoint adapterType (after adapterType (fresh goals trust) earlier) goalId
            loopIndex) := by
      rw [List.append_cons, after_append, checkpoints_after hlater, after_concat]
      exact Function.update_self ..
    have hread := getBalance_isSome_after adapterType
      (after adapterType (fresh goals trust) earlier) (.save goalId loopIndex :: later) adapterType
    rw [← after_append] at hread
    obtain ⟨hrolls, hcycle⟩ := restore_saved timestamp hcheckpoint hread
    exact ⟨hrolls, hcycle, hrolls.same⟩

/-! ## Evidence -/

theorem SameValues.refl (s : State) : SameValues s s := ⟨rfl, fun _ => rfl⟩

theorem withoutStarts_concat (ops : List Op) (op : Op) :
    withoutStarts (ops ++ [op]) = withoutStarts ops ++ withoutStarts [op] := List.filter_append ..

/-- An operation that is not a start does the same to the same values. -/
theorem SameValues.perform {s s' : State} (h : SameValues s s') {op : Op}
    (hop : withoutStarts [op] = [op]) :
    SameValues (perform adapterType s op) (perform adapterType s' op) := by
  cases op with
  | start goalId timestamp => cases hop
  | save goalId loopIndex => exact ⟨h.goals, h.balances⟩
  | observe goalId index value =>
    refine ⟨?_, h.balances⟩
    unfold Checkpoints.perform
    dsimp only
    rw [h.goals]
  | trust call =>
    refine ⟨h.goals, fun domain => ?_⟩
    unfold Checkpoints.perform
    dsimp only
    rw [TrustManager.getBalance_update, TrustManager.getBalance_update, h.balances]

/-- **A start changes no value** exactly when it finds what its checkpoint has recorded. -/
theorem restore_same_iff (s : State) (goalId timestamp : String) :
    SameValues s (restoreFromCheckpoint adapterType s goalId timestamp).1 ↔
      FindsRecorded adapterType s (.start goalId timestamp) := by
  unfold FindsRecorded
  cases hcheckpoint : s.checkpoints goalId with
  | none =>
    unfold restoreFromCheckpoint
    rw [hcheckpoint]
    exact iff_of_true (.refl s) fun cp hcp => nomatch hcheckpoint.symm.trans hcp
  | some cp =>
    rw [restoreFromCheckpoint_some hcheckpoint]
    constructor
    · rintro ⟨hgoals, hbalances⟩ cp' hcp'
      obtain rfl : cp = cp' := Option.some.inj (hcheckpoint.symm.trans hcp')
      refine ⟨fun dims hdims dim hdim => ?_, fun balance hbalance snapshot hsnapshot => ?_⟩
      · have hgoal := congrFun hgoals goalId
        dsimp only at hgoal
        rw [Function.update_self, hdims, Option.map_some, Option.some_inj] at hgoal
        have hall := List.map_inj_left.mp (hgoal.trans (List.map_id _).symm)
        exact restoreDimension_eq_iff.mp (hall dim hdim)
      · have hadapter := hbalances adapterType
        dsimp only at hadapter
        rw [getBalance_restoreTrust _ _ cp.trust_bounds, if_pos rfl, hbalance, hsnapshot,
          Option.map_some, Option.getD_some] at hadapter
        exact (Option.some.inj hadapter).symm
    · intro hfinds
      obtain ⟨hdims, hbalances⟩ := hfinds cp hcheckpoint
      constructor
      · refine Function.update_eq_self_iff.mpr ?_
        cases hgoal : s.goals goalId with
        | none => rfl
        | some dims =>
          refine congrArg some ((List.map_congr_left fun dim hdim => ?_).trans (List.map_id _))
          exact restoreDimension_eq_iff.mpr (hdims dims hgoal dim hdim)
      · intro domain
        dsimp only
        rw [getBalance_restoreTrust _ _ cp.trust_bounds]
        split
        · next hdomain =>
          subst hdomain
          cases hbalance : s.trust.getBalance adapterType with
          | none => rfl
          | some balance =>
            cases hsnapshot : cp.trust_snapshot with
            | none => rfl
            | some snapshot =>
              rw [Option.map_some, Option.getD_some, hbalances balance hbalance snapshot hsnapshot]
        · rfl

theorem SameValues.trans_iff {a b c : State} (h : SameValues a b) :
    SameValues a c ↔ SameValues b c := by
  constructor
  · exact fun hac => ⟨hac.goals.trans h.goals.symm, fun domain =>
      (hac.balances domain).trans (h.balances domain).symm⟩
  · exact fun hbc => ⟨hbc.goals.trans h.goals, fun domain =>
      (hbc.balances domain).trans (h.balances domain)⟩

/-- **One more operation** keeps what was observed and recorded exactly when it is not a start
that finds something else than its checkpoint. -/
theorem keeps_concat_iff {s₀ : State} {before : List Op} {op : Op}
    (h : Keeps adapterType s₀ before) :
    Keeps adapterType s₀ (before ++ [op]) ↔
      FindsRecorded adapterType (after adapterType s₀ before) op := by
  have hother : withoutStarts [op] = [op] → (Keeps adapterType s₀ (before ++ [op])) := by
    intro hop
    unfold Keeps
    rw [withoutStarts_concat, hop, after_concat, after_concat]
    exact h.perform hop
  cases op with
  | start goalId timestamp =>
    unfold Keeps
    rw [withoutStarts_concat, after_concat]
    have hnone : withoutStarts [.start goalId timestamp] = [] := rfl
    rw [hnone, List.append_nil, h.trans_iff]
    exact restore_same_iff ..
  | save goalId loopIndex => exact iff_of_true (hother rfl) trivial
  | observe goalId index value => exact iff_of_true (hother rfl) trivial
  | trust call => exact iff_of_true (hother rfl) trivial

/-- **A start restores the checkpoint and nothing else**, and in every sequence of operations
what was observed and recorded is kept throughout exactly when every start finds what its
checkpoint has recorded. -/
theorem starts_restore (goals : String → Option (List Dimension)) (trust : TrustStore)
    (ops : List Op) :
    (∀ before goalId timestamp rest, ops = before ++ .start goalId timestamp :: rest →
      StartRestores adapterType (fresh goals trust) before goalId timestamp) ∧
    ((∀ before rest, ops = before ++ rest → Keeps adapterType (fresh goals trust) before) ↔
      ∀ before op rest, ops = before ++ op :: rest →
        FindsRecorded adapterType (after adapterType (fresh goals trust) before) op) :=
  ⟨fun before goalId timestamp _ _ => startRestores goals trust before goalId timestamp,
    everywhere_iff (.refl _) (fun _ _ h => keeps_concat_iff h) ops⟩

/-! A checkpoint is saved, a failure is recorded and a dimension is observed, and a run
starts. -/

def sampleGoals (id : String) : Option (List Dimension) :=
  if id = "g" then some [{ name := "tests", current_value := .number 5 }] else none

def penalized : List Op :=
  [.save "g" 0, .trust (.recordFailure "codex"), .observe "g" 0 (.number 7)]

/-- The balance and the number are those of the checkpoint again. -/
theorem start_discards :
    let s := after "codex" (fresh sampleGoals TrustManager.emptyTrustStore) penalized
    let s' := perform "codex" s (.start "g" "t")
    s.trust.getBalance "codex" = some (.finite (-10)) ∧
      s'.trust.getBalance "codex" = some (.finite 0) ∧
      s.goals "g" = some [{ name := "tests", current_value := .number 7 }] ∧
      s'.goals "g" = some [{ name := "tests", current_value := .number 5 }] ∧
      ¬Keeps "codex" (fresh sampleGoals TrustManager.emptyTrustStore)
        (penalized ++ [.start "g" "t"]) := by
  refine ⟨by decide +kernel, by decide +kernel, by decide, by decide, fun h => ?_⟩
  have hgoal := congrFun h.goals "g"
  exact absurd hgoal (by decide)

end Runs

end PulSeed.Checkpoints
