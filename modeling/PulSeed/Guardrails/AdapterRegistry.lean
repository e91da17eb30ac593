import Mathlib
import PulSeed.Lib.Transition

/-!
# Circuit breakers of adapters (`orchestrator/execution/adapter-layer.ts`)

The registry keeps a circuit for each adapter. Five failures open it, an open circuit refuses
its adapter until the cooldown since the last failure has passed, and a success closes it. A
query that finds the cooldown passed marks the circuit half open.

The mark limits nothing: a half-open circuit answers every query, and a failure opens it as
it would have before. What a query answers is a matter of the recorded outcomes alone:

- `available_lawful`: **in every run, an adapter with five failures since its last success is
  available exactly when the cooldown since the last failure has passed**, however often it
  was asked; asking about another adapter leaves its circuit as it is, and a selection
  changes a circuit by the mark only.

Times are milliseconds.
-/

namespace PulSeed.AdapterLayer

/-- `CircuitState`; `opened` is its `open`. -/
inductive CircuitState where
  | closed
  | opened
  | half_open
  deriving DecidableEq, Repr

structure CircuitBreaker where
  state : CircuitState
  failure_count : ℕ
  last_failure_at : ℤ
  cooldown_ms : ℤ
  deriving DecidableEq, Repr

def FAILURE_THRESHOLD : ℕ := 5

def DEFAULT_COOLDOWN_MS : ℤ := 60000

/-- What `getCircuitBreaker` makes for an adapter it has none for. -/
def newCircuitBreaker : CircuitBreaker where
  state := .closed
  failure_count := 0
  last_failure_at := 0
  cooldown_ms := DEFAULT_COOLDOWN_MS

/-- What the registry reads of an adapter. -/
structure Adapter where
  adapterType : String
  capabilities : Option (List String)

/-- The circuits by adapter name, those that were never asked for as they are made. -/
abbrev Circuits := String → CircuitBreaker

/-- `AdapterRegistry`: the adapters in the order of their registration. -/
structure AdapterRegistry where
  adapters : List Adapter
  circuitBreakers : Circuits

/-- A new registry, after the adapters were registered. -/
def newRegistry (adapters : List Adapter) : AdapterRegistry where
  adapters
  circuitBreakers := fun _ => newCircuitBreaker

def recordSuccess (circuits : Circuits) (adapterName : String) : Circuits :=
  Function.update circuits adapterName
    { circuits adapterName with state := .closed, failure_count := 0 }

def recordFailure (circuits : Circuits) (adapterName : String) (now : ℤ) : Circuits :=
  let cb := circuits adapterName
  let failure_count := cb.failure_count + 1
  Function.update circuits adapterName { cb with
    failure_count
    last_failure_at := now
    state := if FAILURE_THRESHOLD ≤ failure_count then .opened else cb.state }

/-- `isAvailable`; `now` is what the clock shows if it is read. -/
def isAvailable (circuits : Circuits) (adapterName : String) (now : ℤ) : Circuits × Bool :=
  let cb := circuits adapterName
  if cb.state ≠ .opened then (circuits, true)
  else if cb.cooldown_ms ≤ now - cb.last_failure_at then
    (Function.update circuits adapterName { cb with state := .half_open }, true)
  else (circuits, false)

/-- The loop of `selectByCapability`; the clock shows `now i` at the adapter of index `i`. -/
def selectFrom (required : List String) (excludeAdapter : Option String) (now : ℕ → ℤ) :
    ℕ → List Adapter → Circuits → Circuits × Option String
  | _, [], circuits => (circuits, none)
  | i, adapter :: rest, circuits =>
    if excludeAdapter = some adapter.adapterType then
      selectFrom required excludeAdapter now (i + 1) rest circuits
    else
      let asked := isAvailable circuits adapter.adapterType (now i)
      if asked.2 = false then selectFrom required excludeAdapter now (i + 1) rest asked.1
      else
        let caps := adapter.capabilities.getD ["general_purpose"]
        if required.all fun r => caps.contains r then (asked.1, some adapter.adapterType)
        else selectFrom required excludeAdapter now (i + 1) rest asked.1

def selectByCapability (registry : AdapterRegistry) (required : List String)
    (excludeAdapter : Option String) (now : ℕ → ℤ) : Circuits × Option String :=
  selectFrom required excludeAdapter now 0 registry.adapters registry.circuitBreakers

/-! ## Runs -/

inductive Call where
  | isAvailable (adapterName : String) (now : ℤ)
  | recordSuccess (adapterName : String)
  | recordFailure (adapterName : String) (now : ℤ)
  | selectByCapability (required : List String) (excludeAdapter : Option String) (now : ℕ → ℤ)

inductive Answer where
  | available (answer : Bool)
  | selected (answer : Option String)
  | done
  deriving DecidableEq

/-- An outcome of an execution by the adapter. -/
def Call.IsOutcome (name : String) : Call → Prop
  | .recordSuccess adapterName | .recordFailure adapterName _ => adapterName = name
  | _ => False

/-- The registry, and what the clock showed when it was last read. -/
structure System where
  registry : AdapterRegistry
  clock : ℤ

def System.circuit (s : System) (name : String) : CircuitBreaker := s.registry.circuitBreakers name

/-- The system with other circuits and a later clock. -/
def System.with (s : System) (circuitBreakers : Circuits) (clock : ℤ) : System where
  registry := { s.registry with circuitBreakers }
  clock := clock

/-- One call. The clock does not go back. -/
inductive Step (s : System) : Call × Answer → System → Prop where
  | isAvailable {adapterName : String} {now : ℤ} : s.clock ≤ now →
    Step s (.isAvailable adapterName now,
        .available (isAvailable s.registry.circuitBreakers adapterName now).2)
      (s.with (isAvailable s.registry.circuitBreakers adapterName now).1 now)
  | recordSuccess {adapterName : String} :
    Step s (.recordSuccess adapterName, .done)
      (s.with (recordSuccess s.registry.circuitBreakers adapterName) s.clock)
  | recordFailure {adapterName : String} {now : ℤ} : s.clock ≤ now →
    Step s (.recordFailure adapterName now, .done)
      (s.with (recordFailure s.registry.circuitBreakers adapterName now) now)
  | selectByCapability {required : List String} {excludeAdapter : Option String} {now : ℕ → ℤ} :
    Monotone now → s.clock ≤ now 0 →
    Step s (.selectByCapability required excludeAdapter now,
        .selected (selectByCapability s.registry required excludeAdapter now).2)
      (s.with (selectByCapability s.registry required excludeAdapter now).1
        (now s.registry.adapters.length))

def registryLTS : LTS System (Call × Answer) where
  step := Step

/-! ## The recorded outcomes -/

/-- The failures of an adapter since its last success. -/
def failuresSince (name : String) (calls : List (Call × Answer)) : ℕ :=
  calls.foldl (fun count l => match l.1 with
    | .recordSuccess adapterName => if adapterName = name then 0 else count
    | .recordFailure adapterName _ => if adapterName = name then count + 1 else count
    | _ => count) 0

/-- The time of the last failure of an adapter. -/
def lastFailure (name : String) (calls : List (Call × Answer)) : Option ℤ :=
  calls.foldl (fun last l => match l.1 with
    | .recordFailure adapterName now => if adapterName = name then some now else last
    | _ => last) none

/-- The circuit of the adapter has opened: five failures since its last success. -/
def HasOpened (name : String) (calls : List (Call × Answer)) : Prop :=
  FAILURE_THRESHOLD ≤ failuresSince name calls

/-- The cooldown since the last failure has passed. -/
def CooledDown (name : String) (calls : List (Call × Answer)) (now : ℤ) : Prop :=
  ∃ last, lastFailure name calls = some last ∧ last + DEFAULT_COOLDOWN_MS ≤ now

/-- **The law of a run** of a new registry. -/
structure Lawful (s : System) (calls : List (Call × Answer)) : Prop where
  /-- The circuit of an adapter is closed until it has opened. -/
  closed : ∀ before after m name, calls = before ++ after → registryLTS.Run s before m →
    ((m.circuit name).state = .closed ↔ ¬ HasOpened name before)
  /-- After it has opened, a query is answered by the time of the last failure. -/
  available : ∀ before after name now answer,
    calls = before ++ (.isAvailable name now, .available answer) :: after →
    HasOpened name before → (answer = true ↔ CooledDown name before now)
  /-- A selection names the adapter only when its cooldown has passed. -/
  selected : ∀ before after name required excludeAdapter now,
    calls = before ++
      (.selectByCapability required excludeAdapter now, .selected (some name)) :: after →
    HasOpened name before → ∃ i, CooledDown name before (now i)
  /-- A query leaves the circuits of other adapters as they are. -/
  others : ∀ before after m m' name other now answer,
    calls = before ++ (.isAvailable other now, answer) :: after → registryLTS.Run s before m →
    registryLTS.step m (.isAvailable other now, answer) m' → other ≠ name →
    m'.circuit name = m.circuit name
  /-- Nothing but an outcome changes a circuit, apart from the mark. -/
  marked : ∀ before after l m m' name, calls = before ++ l :: after →
    registryLTS.Run s before m → registryLTS.step m l m' → ¬ l.1.IsOutcome name →
    m'.circuit name = m.circuit name ∨
      (m.circuit name).state = .opened ∧ CooledDown name before m'.clock ∧
        m'.circuit name = { m.circuit name with state := .half_open }

/-! ## Marks -/

/-- What a query may do to a circuit by a time. -/
def Marks (time : ℤ) (cb cb' : CircuitBreaker) : Prop :=
  cb' = cb ∨ cb.state = .opened ∧ cb.last_failure_at + cb.cooldown_ms ≤ time ∧
    cb' = { cb with state := .half_open }

theorem Marks.refl (time : ℤ) (cb : CircuitBreaker) : Marks time cb cb := .inl rfl

theorem Marks.later {time time' : ℤ} {cb cb' : CircuitBreaker} (h : Marks time cb cb')
    (hle : time ≤ time') : Marks time' cb cb' :=
  h.imp_right fun ⟨hopen, hpassed, heq⟩ => ⟨hopen, hpassed.trans hle, heq⟩

/-- A marked circuit is not marked again. -/
theorem Marks.trans {time : ℤ} {cb cb' cb'' : CircuitBreaker} (h : Marks time cb cb')
    (h' : Marks time cb' cb'') : Marks time cb cb'' := by
  rcases h with rfl | ⟨hopen, hpassed, rfl⟩
  · exact h'
  · rcases h' with rfl | ⟨hopen', -, -⟩
    · exact .inr ⟨hopen, hpassed, rfl⟩
    · cases hopen'

section

variable {circuits : Circuits} {adapterName : String} {now : ℤ}

theorem recordSuccess_self : recordSuccess circuits adapterName adapterName =
    { circuits adapterName with state := .closed, failure_count := 0 } :=
  Function.update_self ..

theorem recordSuccess_other {name : String} (hne : name ≠ adapterName) :
    recordSuccess circuits adapterName name = circuits name := Function.update_of_ne hne _ _

theorem recordFailure_self : recordFailure circuits adapterName now adapterName =
    { circuits adapterName with
      failure_count := (circuits adapterName).failure_count + 1
      last_failure_at := now
      state := if FAILURE_THRESHOLD ≤ (circuits adapterName).failure_count + 1 then .opened
        else (circuits adapterName).state } :=
  Function.update_self ..

theorem recordFailure_other {name : String} (hne : name ≠ adapterName) :
    recordFailure circuits adapterName now name = circuits name := Function.update_of_ne hne _ _

/-- What a query finds. -/
theorem isAvailable_cases (circuits : Circuits) (adapterName : String) (now : ℤ) :
    (circuits adapterName).state ≠ .opened ∧
        isAvailable circuits adapterName now = (circuits, true) ∨
      (circuits adapterName).state = .opened ∧
        (circuits adapterName).last_failure_at + (circuits adapterName).cooldown_ms ≤ now ∧
        isAvailable circuits adapterName now = (Function.update circuits adapterName
          { circuits adapterName with state := .half_open }, true) ∨
      (circuits adapterName).state = .opened ∧
        now < (circuits adapterName).last_failure_at + (circuits adapterName).cooldown_ms ∧
        isAvailable circuits adapterName now = (circuits, false) := by
  by_cases hopen : (circuits adapterName).state = .opened
  · refine .inr ?_
    unfold isAvailable
    rw [if_neg (not_not_intro hopen)]
    by_cases hpassed : (circuits adapterName).cooldown_ms ≤
        now - (circuits adapterName).last_failure_at
    · exact .inl ⟨hopen, by omega, if_pos hpassed⟩
    · exact .inr ⟨hopen, by omega, if_neg hpassed⟩
  · exact .inl ⟨hopen, if_pos hopen⟩

theorem isAvailable_other {name : String} (hne : name ≠ adapterName) :
    (isAvailable circuits adapterName now).1 name = circuits name := by
  obtain ⟨-, heq⟩ | ⟨-, -, heq⟩ | ⟨-, -, heq⟩ := isAvailable_cases circuits adapterName now
  · rw [heq]
  · rw [heq]
    exact Function.update_of_ne hne _ _
  · rw [heq]

theorem isAvailable_marks (name : String) :
    Marks now (circuits name) ((isAvailable circuits adapterName now).1 name) := by
  by_cases hname : name = adapterName
  · subst hname
    obtain ⟨-, heq⟩ | ⟨hopen, hpassed, heq⟩ | ⟨-, -, heq⟩ := isAvailable_cases circuits name now
    · rw [heq]
      exact .refl _ _
    · rw [heq]
      exact .inr ⟨hopen, hpassed, Function.update_self ..⟩
    · rw [heq]
      exact .refl _ _
  · rw [isAvailable_other hname]
    exact .refl _ _

end

section

variable (required : List String) (excludeAdapter : Option String) {now : ℕ → ℤ}

/-- **What a selection does**: it marks circuits, and names an adapter that is available where
it comes to it. -/
theorem selectFrom_spec (hnow : Monotone now) (i : ℕ) (adapters : List Adapter)
    (circuits : Circuits) :
    (∀ name, Marks (now (i + adapters.length)) (circuits name)
      ((selectFrom required excludeAdapter now i adapters circuits).1 name)) ∧
    ∀ name, (selectFrom required excludeAdapter now i adapters circuits).2 = some name →
      ∃ j circuits', i ≤ j ∧ (∀ n, Marks (now j) (circuits n) (circuits' n)) ∧
        (isAvailable circuits' name (now j)).2 = true := by
  induction adapters generalizing i circuits with
  | nil => exact ⟨fun _ => .refl _ _, nofun⟩
  | cons adapter rest ih =>
    have hlength : i + (adapter :: rest).length = i + 1 + rest.length := by
      rw [List.length_cons]
      omega
    -- the rest of the loop, from the circuits that the query at this adapter leaves
    have hrest : ∀ circuits', (∀ n, Marks (now i) (circuits n) (circuits' n)) →
        (∀ name, Marks (now (i + (adapter :: rest).length)) (circuits name)
          ((selectFrom required excludeAdapter now (i + 1) rest circuits').1 name)) ∧
        ∀ name, (selectFrom required excludeAdapter now (i + 1) rest circuits').2 = some name →
          ∃ j circuits'', i ≤ j ∧ (∀ n, Marks (now j) (circuits n) (circuits'' n)) ∧
            (isAvailable circuits'' name (now j)).2 = true := by
      intro circuits' hmarks
      obtain ⟨hkeeps, hnames⟩ := ih (i + 1) circuits'
      rw [hlength]
      refine ⟨fun name => ((hmarks name).later (hnow (by omega))).trans (hkeeps name),
        fun name hname => ?_⟩
      obtain ⟨j, circuits'', hj, hmarks', havailable⟩ := hnames name hname
      exact ⟨j, circuits'', by omega,
        fun n => ((hmarks n).later (hnow (by omega))).trans (hmarks' n), havailable⟩
    unfold selectFrom
    split
    · exact hrest circuits fun _ => .refl _ _
    · dsimp only
      have hasked : ∀ n, Marks (now i) (circuits n)
          ((isAvailable circuits adapter.adapterType (now i)).1 n) := isAvailable_marks
      split
      · exact hrest _ hasked
      · next havailable =>
        split
        · refine ⟨fun name => (hasked name).later (hnow (by omega)), fun name hname => ?_⟩
          cases hname
          exact ⟨i, circuits, le_rfl, fun _ => .refl _ _, Bool.not_eq_false _ ▸ havailable⟩
        · exact hrest _ hasked

end

/-! ## What the circuit of an adapter says of the outcomes -/

structure CircuitOk (name : String) (calls : List (Call × Answer)) (clock : ℤ)
    (cb : CircuitBreaker) : Prop where
  cooldown : cb.cooldown_ms = DEFAULT_COOLDOWN_MS
  count : cb.failure_count = failuresSince name calls
  last : 0 < cb.failure_count → lastFailure name calls = some cb.last_failure_at
  closed : cb.state = .closed ↔ cb.failure_count < FAILURE_THRESHOLD
  half_open : cb.state = .half_open → cb.last_failure_at + DEFAULT_COOLDOWN_MS ≤ clock

section

variable {name : String} {calls : List (Call × Answer)} {clock time : ℤ} {cb cb' : CircuitBreaker}

theorem circuitOk_new (name : String) (clock : ℤ) : CircuitOk name [] clock newCircuitBreaker where
  cooldown := rfl
  count := rfl
  last := nofun
  closed := ⟨fun _ => by decide, fun _ => rfl⟩
  half_open := nofun

theorem CircuitOk.marks (h : CircuitOk name calls clock cb) (hmarks : Marks time cb cb')
    (hle : clock ≤ time) : CircuitOk name calls time cb' := by
  rcases hmarks with rfl | ⟨hopen, hpassed, rfl⟩
  · exact { h with half_open := fun hhalf => (h.half_open hhalf).trans hle }
  · rw [h.cooldown] at hpassed
    have hcount : ¬ cb.failure_count < FAILURE_THRESHOLD := fun hlt => by
      rw [h.closed.mpr hlt] at hopen
      cases hopen
    exact {
      cooldown := h.cooldown
      count := h.count
      last := h.last
      closed := ⟨nofun, fun hlt => absurd hlt hcount⟩
      half_open := fun _ => hpassed }

/-- A mark is made after the cooldown. -/
theorem CircuitOk.cooledDown (h : CircuitOk name calls clock cb) (hopened : HasOpened name calls)
    {now : ℤ} : CooledDown name calls now ↔ cb.last_failure_at + DEFAULT_COOLDOWN_MS ≤ now := by
  have hcount : 0 < cb.failure_count := by
    rw [h.count]
    exact lt_of_lt_of_le (by decide) hopened
  unfold CooledDown
  rw [h.last hcount]
  constructor
  · rintro ⟨last, hlast, hle⟩
    cases hlast
    exact hle
  · exact fun hle => ⟨_, rfl, hle⟩

theorem CircuitOk.closed_iff (h : CircuitOk name calls clock cb) :
    cb.state = .closed ↔ ¬ HasOpened name calls := by
  rw [h.closed, h.count, HasOpened, not_le]

/-- **A query is answered by the outcomes.** -/
theorem CircuitOk.available_iff {circuits : Circuits} {now : ℤ}
    (h : CircuitOk name calls clock (circuits name)) (hle : clock ≤ now)
    (hopened : HasOpened name calls) :
    (isAvailable circuits name now).2 = true ↔ CooledDown name calls now := by
  rw [h.cooledDown hopened]
  obtain ⟨hopen, heq⟩ | ⟨-, hpassed, heq⟩ | ⟨-, hnot, heq⟩ := isAvailable_cases circuits name now
  · -- it is half open: it was marked after the cooldown
    have hhalf : (circuits name).state = .half_open := by
      cases hstate : (circuits name).state with
      | closed => exact absurd hopened (h.closed_iff.mp hstate)
      | opened => exact absurd hstate hopen
      | half_open => rfl
    have hpassed := h.half_open hhalf
    rw [heq]
    exact ⟨fun _ => by omega, fun _ => rfl⟩
  · rw [heq]
    rw [h.cooldown] at hpassed
    exact ⟨fun _ => hpassed, fun _ => rfl⟩
  · rw [heq]
    rw [h.cooldown] at hnot
    exact ⟨nofun, fun hle => absurd hle (not_le.mpr hnot)⟩

end

/-! ## Steps -/

section

variable {name : String} {calls : List (Call × Answer)} {s s' : System} {l : Call × Answer}

theorem failuresSince_snoc (name : String) (calls : List (Call × Answer)) (l : Call × Answer) :
    failuresSince name (calls ++ [l]) = match l.1 with
      | .recordSuccess adapterName => if adapterName = name then 0 else failuresSince name calls
      | .recordFailure adapterName _ =>
        if adapterName = name then failuresSince name calls + 1 else failuresSince name calls
      | _ => failuresSince name calls := by
  unfold failuresSince
  rw [List.foldl_append]
  rfl

theorem lastFailure_snoc (name : String) (calls : List (Call × Answer)) (l : Call × Answer) :
    lastFailure name (calls ++ [l]) = match l.1 with
      | .recordFailure adapterName now =>
        if adapterName = name then some now else lastFailure name calls
      | _ => lastFailure name calls := by
  unfold lastFailure
  rw [List.foldl_append]
  rfl

/-- A call that is no outcome of the adapter leaves its outcomes as they are. -/
theorem outcomes_snoc (calls : List (Call × Answer)) (h : ¬ l.1.IsOutcome name) :
    failuresSince name (calls ++ [l]) = failuresSince name calls ∧
      lastFailure name (calls ++ [l]) = lastFailure name calls := by
  rw [failuresSince_snoc, lastFailure_snoc]
  obtain ⟨call, answer⟩ := l
  cases call with
  | isAvailable => exact ⟨rfl, rfl⟩
  | recordSuccess => exact ⟨if_neg h, rfl⟩
  | recordFailure => exact ⟨if_neg h, if_neg h⟩
  | selectByCapability => exact ⟨rfl, rfl⟩

theorem Step.clock_le (h : Step s l s') : s.clock ≤ s'.clock := by
  cases h with
  | isAvailable hle => exact hle
  | recordSuccess => exact le_rfl
  | recordFailure hle => exact hle
  | selectByCapability hnow hle => exact hle.trans (hnow (Nat.zero_le _))

/-- **A call that is no outcome of the adapter can only mark its circuit.** -/
theorem Step.marks (h : Step s l s') (houtcome : ¬ l.1.IsOutcome name) :
    Marks s'.clock (s.circuit name) (s'.circuit name) := by
  cases h with
  | isAvailable hle => exact isAvailable_marks name
  | recordSuccess => exact .inl (recordSuccess_other (Ne.symm houtcome))
  | recordFailure hle => exact .inl (recordFailure_other (Ne.symm houtcome))
  | @selectByCapability required excludeAdapter now hnow hle =>
    have hmarks := (selectFrom_spec required excludeAdapter hnow 0 s.registry.adapters s.registry.circuitBreakers).1 name
    rw [Nat.zero_add] at hmarks
    exact hmarks

theorem CircuitOk.recordFailure {cb : CircuitBreaker} {clock : ℤ}
    (h : CircuitOk name calls clock cb) (now : ℤ) (answer : Answer) :
    CircuitOk name (calls ++ [(.recordFailure name now, answer)]) now { cb with
      failure_count := cb.failure_count + 1
      last_failure_at := now
      state := if FAILURE_THRESHOLD ≤ cb.failure_count + 1 then .opened else cb.state } := by
  have hcount : failuresSince name (calls ++ [(.recordFailure name now, answer)]) =
      cb.failure_count + 1 := by
    rw [failuresSince_snoc, h.count]
    exact if_pos rfl
  refine ⟨h.cooldown, hcount.symm, fun _ => ?_, ?_, ?_⟩
  · rw [lastFailure_snoc]
    exact if_pos rfl
  · dsimp only
    split
    · next hle => exact ⟨nofun, fun hlt => absurd hle (not_le.mpr hlt)⟩
    · next hlt =>
      rw [h.closed]
      omega
  · dsimp only
    split
    · nofun
    · next hlt =>
      -- below the threshold the circuit is closed
      intro hhalf
      rw [h.closed.mpr (by omega)] at hhalf
      cases hhalf

theorem CircuitOk.recordSuccess {cb : CircuitBreaker} {clock : ℤ}
    (h : CircuitOk name calls clock cb) (answer : Answer) :
    CircuitOk name (calls ++ [(.recordSuccess name, answer)]) clock
      { cb with state := .closed, failure_count := 0 } := by
  refine ⟨h.cooldown, ?_, nofun, ⟨fun _ => Nat.succ_pos 4, fun _ => rfl⟩, nofun⟩
  rw [failuresSince_snoc]
  exact (if_pos rfl).symm

/-- **Every step keeps what the circuit says of the outcomes.** -/
theorem Step.circuitOk (h : Step s l s') (hok : CircuitOk name calls s.clock (s.circuit name)) :
    CircuitOk name (calls ++ [l]) s'.clock (s'.circuit name) := by
  by_cases houtcome : l.1.IsOutcome name
  · cases h with
    | recordSuccess =>
      cases houtcome
      have hnext := hok.recordSuccess .done
      rw [System.circuit, ← recordSuccess_self] at hnext
      exact hnext
    | @recordFailure _ now hle =>
      cases houtcome
      have hnext := hok.recordFailure now .done
      rw [System.circuit, ← recordFailure_self] at hnext
      exact hnext
    | isAvailable => exact houtcome.elim
    | selectByCapability => exact houtcome.elim
  · obtain ⟨hcount, hlast⟩ := outcomes_snoc calls houtcome
    have hmarked := hok.marks (h.marks houtcome) h.clock_le
    exact { hmarked with count := hcount ▸ hmarked.count, last := hlast ▸ hmarked.last }

/-- What holds of every circuit after a run of a new registry. -/
theorem circuitOk_of_run {adapters : List Adapter} {start : ℤ}
    (h : registryLTS.Run ⟨newRegistry adapters, start⟩ calls s) (name : String) :
    CircuitOk name calls s.clock (s.circuit name) :=
  h.history (P := fun calls s => CircuitOk name calls s.clock (s.circuit name))
    (circuitOk_new name start) fun _ _ _ _ _ hstep hok => Step.circuitOk hstep hok

end

/-! ## Whole runs -/

/-- **In every run the answers follow the recorded outcomes**, and queries and selections
change circuits by the mark only. -/
theorem available_lawful {adapters : List Adapter} {start : ℤ} {calls : List (Call × Answer)}
    {s' : System} (h : registryLTS.Run ⟨newRegistry adapters, start⟩ calls s') :
    Lawful ⟨newRegistry adapters, start⟩ calls := by
  -- each call of the run is a step from a state that the outcomes describe
  have hcut : ∀ {before after : List (Call × Answer)} {l : Call × Answer},
      calls = before ++ l :: after → ∃ m m', registryLTS.Run ⟨newRegistry adapters, start⟩ before m ∧
        Step m l m' := by
    rintro before after l rfl
    obtain ⟨m, hbefore, hrest⟩ := LTS.Run.append_iff.mp h
    obtain ⟨m', hstep, -⟩ := LTS.Run.cons_iff.mp hrest
    exact ⟨m, m', hbefore, hstep⟩
  constructor
  · intro before after m name _ hrun
    exact (circuitOk_of_run hrun name).closed_iff
  · intro before after name now answer hsplit hopened
    obtain ⟨m, m', hbefore, hstep⟩ := hcut hsplit
    have hok := circuitOk_of_run hbefore name
    cases hstep with
    | isAvailable hle => exact hok.available_iff hle hopened
  · intro before after name required excludeAdapter now hsplit hopened
    obtain ⟨m, m', hbefore, hstep⟩ := hcut hsplit
    have hok := circuitOk_of_run hbefore name
    generalize hanswer : Answer.selected (some name) = answer at hstep
    cases hstep with
    | selectByCapability hnow hle =>
      have hselected : (selectByCapability m.registry required excludeAdapter now).2 = some name :=
        (Answer.selected.inj hanswer).symm
      obtain ⟨i, circuits', -, hmarks, havailable⟩ :=
        (selectFrom_spec required excludeAdapter hnow 0 m.registry.adapters
          m.registry.circuitBreakers).2 name hselected
      have hle : m.clock ≤ now i := hle.trans (hnow (Nat.zero_le i))
      have hmarked := hok.marks (hmarks name) hle
      exact ⟨i, (hmarked.available_iff le_rfl hopened).mp havailable⟩
  · intro before after m m' name other now answer _ _ hstep hne
    cases hstep with
    | isAvailable hle => exact isAvailable_other (Ne.symm hne)
  · intro before after l m m' name _ hbefore hstep houtcome
    have hok := circuitOk_of_run hbefore name
    refine (Step.marks hstep houtcome).imp_right fun ⟨hopen, hpassed, heq⟩ => ⟨hopen, ?_, heq⟩
    have hopened : HasOpened name before := by
      by_contra hnot
      rw [hok.closed_iff.mpr hnot] at hopen
      cases hopen
    rw [hok.cooledDown hopened, ← hok.cooldown]
    exact hpassed

/-! ## One probe at a time -/

/-- A query that was answered with true; its caller executes. -/
def Admitted (name : String) : Call × Answer → Bool
  | (.isAvailable adapterName _, .available true) => adapterName = name
  | _ => false

/-- One execution at a time is admitted to an adapter that has failed, and the circuits of
other adapters are not touched. -/
structure OneProbe (s : System) (calls : List (Call × Answer)) : Prop where
  cooldown : ∀ before after name now,
    calls = before ++ (.isAvailable name now, .available true) :: after →
    HasOpened name before → CooledDown name before now
  single : ∀ before between after name, calls = before ++ between ++ after →
    HasOpened name before → (∀ l ∈ between, ¬ l.1.IsOutcome name) →
    between.countP (Admitted name) ≤ 1
  apart : ∀ before after l m m' name, calls = before ++ l :: after →
    registryLTS.Run s before m → registryLTS.step m l m' → ¬ l.1.IsOutcome name →
    (∀ now, l.1 ≠ .isAvailable name now) → l.2 ≠ .selected (some name) →
    m'.circuit name = m.circuit name

/-- The registry after some failures of an adapter. -/
def failed : ℕ → System
  | 0 => ⟨newRegistry [], 0⟩
  | n + 1 => (failed n).with (recordFailure (failed n).registry.circuitBreakers "alpha" 0) 0

theorem failed_clock (n : ℕ) : (failed n).clock = 0 := by
  cases n <;> rfl

theorem failed_run (n : ℕ) : registryLTS.Run (failed 0)
    (List.replicate n (.recordFailure "alpha" 0, .done)) (failed n) := by
  induction n with
  | zero => exact LTS.Run.nil
  | succ n ih =>
    rw [List.replicate_succ']
    exact ih.snoc (Step.recordFailure (failed_clock n).le)

/-- A query of the adapter, after its cooldown. -/
def probe : Call × Answer := (.isAvailable "alpha" 60000, .available true)

/-- The registry after the first query. -/
def probed : System :=
  (failed 5).with (isAvailable (failed 5).registry.circuitBreakers "alpha" 60000).1 60000

theorem probes_run : ∃ s', registryLTS.Run (failed 0)
    (List.replicate 5 (.recordFailure "alpha" 0, .done) ++ [probe, probe]) s' := by
  have hone : (isAvailable (failed 5).registry.circuitBreakers "alpha" 60000).2 = true := by
    decide +kernel
  have htwo : (isAvailable probed.registry.circuitBreakers "alpha" 60000).2 = true := by
    decide +kernel
  have hfirst := @Step.isAvailable (failed 5) "alpha" 60000 (by decide)
  have hsecond := @Step.isAvailable probed "alpha" 60000 le_rfl
  rw [hone] at hfirst
  rw [htwo] at hsecond
  exact ⟨_, (failed_run 5).append (LTS.Run.cons hfirst (LTS.Run.single hsecond))⟩

theorem available_lawful_sample : Lawful ⟨newRegistry [], 0⟩
    (List.replicate 5 (.recordFailure "alpha" 0, .done) ++ [probe, probe]) := by
  obtain ⟨s', hrun⟩ := probes_run
  exact available_lawful hrun

/-- **Two executions are admitted** after the cooldown, with no outcome in between. -/
theorem two_probes_admitted :
    (∃ s', registryLTS.Run (failed 0)
      (List.replicate 5 (.recordFailure "alpha" 0, .done) ++ [probe, probe]) s') ∧
    ¬ OneProbe (failed 0)
      (List.replicate 5 (.recordFailure "alpha" 0, .done) ++ [probe, probe]) := by
  refine ⟨probes_run, fun h => ?_⟩
  have hsingle := h.single (List.replicate 5 (.recordFailure "alpha" 0, .done)) [probe, probe] []
    "alpha" (by rw [List.append_nil]) (show 5 ≤ _ by decide) (by
      intro l hl
      rw [List.mem_cons, List.mem_singleton, or_self] at hl
      subst hl
      exact id)
  revert hsingle
  decide

end PulSeed.AdapterLayer
