import Mathlib.Data.List.Perm.Basic
import PulSeed.Lib.Transition

/-!
# A cached value that is written through

A component keeps a stored value in memory, as an object: it is loaded when a call first
needs it, every change makes a new object of it, and this is saved. Calls suspend while they
wait for a load or for a save, and one that has an object keeps it over a suspension. So two
calls may load an object each, and a call may hold an object that is no longer the cached
one. Calls resume in any order.

A run is `Current` when every call that changes the value holds an object with the contents
that were saved last, and the saves arrive in the order in which they were made. Then the
stored value is what the calls make of it one after the other (`step_applied`,
`stored_of_applied`).
-/

namespace PulSeed.WriteThrough

universe u v

variable {ι : Type u} {σ : Type v}

/-- What a call waits for, or holds. -/
inductive Phase (σ : Type v) where
  | reading
  /-- The store has answered, the call has not been resumed. -/
  | answered (value : σ)
  /-- An object, by its position among those that were made. -/
  | holding (object : ℕ)

structure State (ι : Type u) (σ : Type v) where
  stored : σ
  objects : List σ := []
  cache : Option ℕ := none
  /-- The calls that have not come to their change. -/
  calls : List (ι × Phase σ) := []
  /-- The saves under way, in the order in which they were made. -/
  saves : List (ι × σ) := []
  /-- The calls whose save has arrived, in this order. -/
  resolved : List ι := []
  /-- The calls that ended without a save. -/
  unsaved : List ι := []

inductive Event (ι : Type u) where
  | start (call : ι)
  /-- The store answers a call, by its position. -/
  | answer (n : ℕ)
  /-- A call takes the answer as the cached object. -/
  | take (n : ℕ)
  /-- A call changes its object, caches the new one and starts its save. -/
  | change (n : ℕ)
  /-- A save arrives, by its position. -/
  | arrive (n : ℕ)

section

variable (update : ι → σ → Option σ)

/-- One step of a call. -/
def step (s : State ι σ) : Event ι → Option (State ι σ)
  | .start call =>
    match s.cache with
    | some object => some { s with calls := s.calls ++ [(call, .holding object)] }
    | none => some { s with calls := s.calls ++ [(call, .reading)] }
  | .answer n =>
    match s.calls[n]? with
    | some (call, .reading) => some { s with calls := s.calls.set n (call, .answered s.stored) }
    | _ => none
  | .take n =>
    match s.calls[n]? with
    | some (call, .answered value) => some { s with
        objects := s.objects ++ [value]
        cache := some s.objects.length
        calls := s.calls.set n (call, .holding s.objects.length) }
    | _ => none
  | .change n =>
    match s.calls[n]? with
    | some (call, .holding object) =>
      match s.objects[object]? with
      | none => none
      | some value =>
        match update call value with
        | none => some { s with
            calls := s.calls.eraseIdx n
            unsaved := s.unsaved ++ [call] }
        | some value' => some { s with
            objects := s.objects.set object value' ++ [value']
            cache := some s.objects.length
            calls := s.calls.eraseIdx n
            saves := s.saves ++ [(call, value')] }
    | _ => none
  | .arrive n =>
    match s.saves[n]? with
    | none => none
    | some (call, value) => some { s with
        stored := value
        saves := s.saves.eraseIdx n
        resolved := s.resolved ++ [call] }

/-- The system of the calls on one value. -/
def system : LTS (State ι σ) (Event ι) := .ofPartial (step update)

/-- The value that was saved last, whether or not it has arrived. -/
def State.latest (s : State ι σ) : σ := (s.saves.getLast?.map (·.2)).getD s.stored

/-- A call that changes the value holds the one that was saved last, and the oldest save
arrives first. -/
def Current (s : State ι σ) : Event ι → Prop
  | .start _ | .answer _ | .take _ => True
  | .change n => ∀ call object value, s.calls[n]? = some (call, .holding object) →
      s.objects[object]? = some value → update call value ≠ none → value = s.latest
  | .arrive n => n = 0

/-! ## What a step does -/

/-- The calls that an event starts. -/
def Event.started : Event ι → List ι
  | .start call => [call]
  | _ => []

variable {update}

/-- A step lets the calls come on, ends one without a save, lets one change the value, or
lets a save arrive. -/
theorem step_cases {s s' : State ι σ} {e : Event ι} (h : step update s e = some s') :
    (∃ objects cache calls, calls.map Prod.fst = s.calls.map Prod.fst ++ e.started ∧
      s' = { s with objects := objects, cache := cache, calls := calls }) ∨
    (∃ n call object value, e = .change n ∧ s.calls[n]? = some (call, .holding object) ∧
      s.objects[object]? = some value ∧ update call value = none ∧
      s' = { s with calls := s.calls.eraseIdx n, unsaved := s.unsaved ++ [call] }) ∨
    (∃ n call object value value', e = .change n ∧ s.calls[n]? = some (call, .holding object) ∧
      s.objects[object]? = some value ∧ update call value = some value' ∧
      s' = { s with
        objects := s.objects.set object value' ++ [value']
        cache := some s.objects.length
        calls := s.calls.eraseIdx n
        saves := s.saves ++ [(call, value')] }) ∨
    (∃ n call value, e = .arrive n ∧ s.saves[n]? = some (call, value) ∧
      s' = { s with
        stored := value
        saves := s.saves.eraseIdx n
        resolved := s.resolved ++ [call] }) := by
  -- a call that waits for something else stays the call that it is
  have hset : ∀ n call phase phase', s.calls[n]? = some (call, phase) →
      (s.calls.set n (call, phase')).map Prod.fst = s.calls.map Prod.fst ++ [] := by
    intro n call phase phase' hcall
    obtain ⟨hn, heq⟩ := List.getElem?_eq_some_iff.mp hcall
    rw [List.map_set, List.append_nil]
    have hsame : call = (s.calls.map Prod.fst).get ⟨n, by simpa using hn⟩ := by
      rw [List.get_eq_getElem, List.getElem_map, heq]
    rw [hsame, List.get_eq_getElem, List.set_getElem_self]
  cases e with
  | start call =>
    left
    unfold step at h
    dsimp only at h
    split at h
    · next object _ =>
      obtain rfl := Option.some.inj h
      exact ⟨s.objects, s.cache, _, by simp [Event.started], rfl⟩
    · obtain rfl := Option.some.inj h
      exact ⟨s.objects, s.cache, _, by simp [Event.started], rfl⟩
  | answer n =>
    left
    unfold step at h
    dsimp only at h
    split at h
    · next call hcall =>
      obtain rfl := Option.some.inj h
      exact ⟨s.objects, s.cache, _, hset n call _ _ hcall, rfl⟩
    · cases h
  | take n =>
    left
    unfold step at h
    dsimp only at h
    split at h
    · next call value hcall =>
      obtain rfl := Option.some.inj h
      exact ⟨_, _, _, hset n call _ _ hcall, rfl⟩
    · cases h
  | change n =>
    right
    unfold step at h
    dsimp only at h
    split at h
    · next call object hcall =>
      split at h
      · cases h
      · next value hobject =>
        split at h
        · next hupdate =>
          obtain rfl := Option.some.inj h
          exact .inl ⟨n, call, object, value, rfl, hcall, hobject, hupdate, rfl⟩
        · next value' hupdate =>
          obtain rfl := Option.some.inj h
          exact .inr (.inl ⟨n, call, object, value, value', rfl, hcall, hobject, hupdate, rfl⟩)
    · cases h
  | arrive n =>
    right; right; right
    unfold step at h
    dsimp only at h
    split at h
    · cases h
    · next call value hsave =>
      obtain rfl := Option.some.inj h
      exact ⟨n, call, value, rfl, hsave, rfl⟩

/-! ## Every call has an end -/

/-- All calls that were started: the ended ones, and those under way. -/
def State.started (s : State ι σ) : List ι :=
  s.resolved ++ s.saves.map Prod.fst ++ s.unsaved ++ s.calls.map Prod.fst

theorem perm_eraseIdx {α : Type u} {l : List α} {n : ℕ} {a : α} (h : l[n]? = some a) :
    l.Perm (a :: l.eraseIdx n) := by
  obtain ⟨hn, rfl⟩ := List.getElem?_eq_some_iff.mp h
  exact (List.getElem_cons_eraseIdx_perm hn).symm

/-- A step starts the calls of its event, and loses none. -/
theorem step_started {s s' : State ι σ} {e : Event ι} (h : step update s e = some s') :
    s'.started.Perm (s.started ++ e.started) := by
  classical
  rcases step_cases h with ⟨objects, cache, calls, hcalls, rfl⟩ |
    ⟨n, call, object, value, rfl, hcall, -, -, rfl⟩ |
    ⟨n, call, object, value, value', rfl, hcall, -, -, rfl⟩ | ⟨n, call, value, rfl, hsave, rfl⟩
  · unfold State.started
    dsimp only
    rw [hcalls, List.append_assoc _ _ e.started]
  · have hperm := (perm_eraseIdx hcall).map Prod.fst
    rw [List.perm_iff_count] at hperm ⊢
    intro a
    have := hperm a
    simp only [State.started, Event.started, List.count_append, List.map_cons, List.count_cons,
      List.count_nil] at this ⊢
    omega
  · have hperm := (perm_eraseIdx hcall).map Prod.fst
    rw [List.perm_iff_count] at hperm ⊢
    intro a
    have := hperm a
    simp only [State.started, Event.started, List.count_append, List.map_append, List.map_cons,
      List.map_nil, List.count_cons, List.count_nil] at this ⊢
    omega
  · have hperm := (perm_eraseIdx hsave).map Prod.fst
    rw [List.perm_iff_count] at hperm ⊢
    intro a
    have := hperm a
    simp only [State.started, Event.started, List.count_append, List.map_cons, List.count_cons,
      List.count_nil] at this ⊢
    omega

/-- A call that ended without a save had nothing to change in what it held. -/
theorem step_unsaved {P : ι → Prop} (hP : ∀ call value, update call value = none → P call)
    {s s' : State ι σ} {e : Event ι} (h : step update s e = some s')
    (hs : ∀ call ∈ s.unsaved, P call) : ∀ call ∈ s'.unsaved, P call := by
  rcases step_cases h with ⟨objects, cache, calls, -, rfl⟩ |
    ⟨n, call, object, value, -, -, -, hupdate, rfl⟩ |
    ⟨n, call, object, value, value', -, -, -, -, rfl⟩ | ⟨n, call, value, -, -, rfl⟩
  · exact hs
  · intro other hother
    rcases List.mem_append.mp hother with hother | hother
    · exact hs other hother
    · obtain rfl := List.mem_singleton.mp hother
      exact hP other value hupdate
  · exact hs
  · exact hs

/-! ## What is stored -/

variable (update) in
/-- The calls, performed one after the other; each of them changes the value. -/
def perform (first : σ) (calls : List ι) : Option σ :=
  calls.foldlM (fun value call => update call value) first

theorem perform_cons {first last : σ} {call : ι} {calls : List ι}
    (h : perform update first (call :: calls) = some last) :
    ∃ next, update call first = some next ∧ perform update next calls = some last := by
  unfold perform at h
  rw [List.foldlM_cons] at h
  exact Option.bind_eq_some_iff.mp h

variable (update) in
/-- The value that was saved last is what the calls made of the first one. -/
def Applied (first : σ) (s : State ι σ) : Prop :=
  perform update first (s.resolved ++ s.saves.map Prod.fst) = some s.latest

theorem step_applied {first : σ} {s s' : State ι σ} {e : Event ι}
    (h : step update s e = some s') (hcurrent : Current update s e) (hs : Applied update first s) :
    Applied update first s' := by
  rcases step_cases h with ⟨objects, cache, calls, -, rfl⟩ |
    ⟨n, call, object, value, -, -, -, hupdate, rfl⟩ |
    ⟨n, call, object, value, value', rfl, hcall, hobject, hupdate, rfl⟩ |
    ⟨n, call, value, rfl, hsave, rfl⟩
  · exact hs
  · exact hs
  · have hvalue : value = s.latest :=
      hcurrent call object value hcall hobject (by rw [hupdate]; exact Option.some_ne_none _)
    unfold Applied perform at hs ⊢
    dsimp only
    rw [List.map_append, ← List.append_assoc, List.foldlM_append, hs, ← hvalue]
    simp [State.latest, hupdate]
  · obtain rfl : n = 0 := hcurrent
    unfold Applied at hs ⊢
    cases hsaves : s.saves with
    | nil =>
      rw [hsaves] at hsave
      cases hsave
    | cons save rest =>
      rw [hsaves] at hsave
      obtain rfl : save = (call, value) := Option.some.inj hsave
      -- the save that arrives is not the newest one, or nothing is under way after it
      have hlatest : s.latest = (rest.getLast?.map (·.2)).getD value := by
        unfold State.latest
        rw [hsaves]
        cases rest with
        | nil => rfl
        | cons next rest => rw [List.getLast?_cons_cons, List.getLast?_cons]; rfl
      rw [hlatest, hsaves] at hs
      simpa [State.latest] using hs

/-- **In a current run, what is stored in the end is what the calls make of the first value,
one after the other.** -/
theorem stored_of_applied {first : σ} {s : State ι σ} (h : Applied update first s)
    (hsaves : s.saves = []) : perform update first s.resolved = some s.stored := by
  unfold Applied State.latest at h
  rw [hsaves] at h
  simpa using h

end

end PulSeed.WriteThrough
