import PulSeed.Lib.Transition

/-!
# Calls that load a value and save it later

Calls come in at any time; each loads the stored value, computes a new one from it and saves
that in a step of its own. One that cannot compute its value throws and saves nothing. The
loads and saves of different calls interleave in any order.

A save is `Current` when what the call loaded is still what is stored. With current saves the
stored value changes as if the calls were performed one at a time, so what one call keeps is
kept along the whole run (`run_stored`).
-/

namespace PulSeed.LoadSave

universe u v w

variable {ι : Type u} {ε : Type v} {σ : Type w}

/-- The stored value, and the calls under way with what they loaded. -/
structure State (ι : Type u) (σ : Type w) where
  stored : σ
  pending : List (ι × σ) := []

inductive Event (ι : Type u)
  | load (call : ι)
  /-- The save of a call, by its position among those under way. -/
  | save (n : ℕ)

section

variable (update : ι → σ → Except ε σ)

/-- One step of a call. -/
def step (s : State ι σ) : Event ι → Option (State ι σ)
  | .load call => some { s with pending := s.pending ++ [(call, s.stored)] }
  | .save n =>
    match s.pending[n]? with
    | none => none
    | some (call, loaded) => some {
        stored := (update call loaded).toOption.getD s.stored
        pending := s.pending.eraseIdx n }

/-- The system of the calls on one value. -/
def system : LTS (State ι σ) (Event ι) := .ofPartial (step update)

/-- The call at a position saves a value. -/
def Saves (s : State ι σ) (n : ℕ) (call : ι) (loaded saved : σ) : Prop :=
  s.pending[n]? = some (call, loaded) ∧ update call loaded = .ok saved

/-- What a call loaded is still stored when it saves. -/
def Current (s : State ι σ) : Event ι → Prop
  | .load _ => True
  | .save n => ∀ call loaded saved, Saves update s n call loaded saved → s.stored = loaded

variable {update}

theorem step_save {s s' : State ι σ} {n : ℕ} {call : ι} {loaded saved : σ}
    (h : step update s (.save n) = some s') (hsaves : Saves update s n call loaded saved) :
    s'.stored = saved := by
  unfold step at h
  dsimp only at h
  rw [hsaves.1] at h
  obtain rfl := Option.some.inj h
  dsimp only
  rw [hsaves.2]
  rfl

/-- A current step performs a call on the stored value, or leaves it. -/
theorem step_stored {s s' : State ι σ} {e : Event ι} (h : step update s e = some s')
    (hcurrent : Current update s e) :
    s'.stored = s.stored ∨ ∃ call, update call s.stored = .ok s'.stored := by
  cases e with
  | load call =>
    obtain rfl := Option.some.inj h
    exact .inl rfl
  | save n =>
    cases hjob : s.pending[n]? with
    | none =>
      unfold step at h
      dsimp only at h
      rw [hjob] at h
      cases h
    | some job =>
      obtain ⟨call, loaded⟩ := job
      cases hupdate : update call loaded with
      | error e =>
        unfold step at h
        dsimp only at h
        rw [hjob] at h
        obtain rfl := Option.some.inj h
        dsimp only
        rw [hupdate]
        exact .inl rfl
      | ok saved =>
        refine .inr ⟨call, ?_⟩
        rw [hcurrent call loaded saved ⟨hjob, hupdate⟩, hupdate, step_save h ⟨hjob, hupdate⟩]

/-- **With current saves, what every call keeps is kept.** -/
theorem run_stored {P : σ → Prop} (hP : ∀ call a b, P a → update call a = .ok b → P b)
    {s s' : State ι σ} {events : List (Event ι)} (hrun : (system update).Run s events s')
    (hcurrent : (system update).Always s events (Current update)) (hs : P s.stored) :
    P s'.stored := by
  refine hrun.guarded (P := fun s => P s.stored) hs hcurrent ?_
  intro a e b hstep hcurrent ha
  rcases step_stored hstep hcurrent with hsame | ⟨call, hupdate⟩
  · rwa [hsame]
  · exact hP call a.stored b.stored ha hupdate

/-- Calls that are performed one at a time. -/
def inTurn (calls : List ι) : List (Event ι) := calls.flatMap fun call => [.load call, .save 0]

/-- **Their saves are current.** -/
theorem current_inTurn (update : ι → σ → Except ε σ) (calls : List ι) (stored : σ) :
    (system update).Always { stored } (inTurn calls) (Current update) := by
  refine LTS.ExecPartialAlways.always (f := step update) ?_
  induction calls generalizing stored with
  | nil => trivial
  | cons call calls ih =>
    refine ⟨trivial, ?_, ih _⟩
    rintro c loaded saved ⟨hjob, -⟩
    cases hjob
    rfl

end

end PulSeed.LoadSave
