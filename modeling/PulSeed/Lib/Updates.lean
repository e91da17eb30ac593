import PulSeed.Lib.Transition

/-!
# Overlapping read-modify-write updates

Several updates of one stored value are under way at once. Each loads the value, computes
a new one and saves it; one that cannot compute its value throws and saves nothing. The
loads and saves of different updates interleave in any order, and `Settles` relates the
value before all of them to a value that may be stored when all have finished.

An update that loads early and saves late writes over what was saved in between. So every
update may be the one that is kept, alone (`Settles.last`); and what is certain of the
value after all of them is only what each of them establishes from any value it may load
(`Settles.establishes`).
-/

namespace PulSeed.Updates

universe u v

variable {ι : Type u} {σ : Type v}

/-- The stored value and the updates under way, each with the value it has loaded. -/
structure State (ι : Type u) (σ : Type v) where
  stored : σ
  pending : List (ι × Option σ)

inductive Event
  | load (n : ℕ)
  | save (n : ℕ)

/-- One step of an update under way. -/
def step (update : ι → σ → Option σ) (s : State ι σ) : Event → Option (State ι σ)
  | .load n =>
    match s.pending[n]? with
    | some (i, none) => some { s with pending := s.pending.set n (i, some s.stored) }
    | _ => none
  | .save n =>
    match s.pending[n]? with
    | some (i, some loaded) =>
      some { stored := (update i loaded).getD s.stored, pending := s.pending.eraseIdx n }
    | _ => none

/-- No update has loaded yet. -/
def start (stored : σ) (updates : List ι) : State ι σ :=
  { stored, pending := updates.map fun i => (i, none) }

/-- The value `final` may be stored when all the updates have finished. -/
def Settles (update : ι → σ → Option σ) (stored : σ) (updates : List ι) (final : σ) : Prop :=
  ∃ events, (LTS.ofPartial (step update)).Run (start stored updates) events ⟨final, []⟩

variable {update : ι → σ → Option σ}

/-! ## What is certain -/

/-- Every value stored or loaded satisfies `P`; the updates under way are among `updates`,
and the stored value satisfies `Q` as soon as one of them has finished. -/
def Established (P Q : σ → Prop) (updates : List ι) (s : State ι σ) : Prop :=
  P s.stored ∧ (∀ job ∈ s.pending, job.1 ∈ updates ∧ ∀ loaded ∈ job.2, P loaded) ∧
    (Q s.stored ∨ s.pending.length = updates.length)

theorem Established.step {P Q : σ → Prop} {updates : List ι} {s s' : State ι σ} {event : Event}
    (hupdate : ∀ i ∈ updates, ∀ a, P a → ∃ b, update i a = some b ∧ P b ∧ Q b)
    (h : Updates.step update s event = some s') (hs : Established P Q updates s) :
    Established P Q updates s' := by
  obtain ⟨hstored, hpending, hfirst⟩ := hs
  cases event with
  | load n =>
    unfold Updates.step at h
    dsimp only at h
    split at h
    · next i hjob =>
      cases h
      refine ⟨hstored, fun job hmem => ?_, hfirst.imp_right fun hlen => ?_⟩
      · rcases List.mem_or_eq_of_mem_set hmem with hmem | rfl
        · exact hpending job hmem
        · refine ⟨(hpending _ (List.mem_of_getElem? hjob)).1, fun loaded hloaded => ?_⟩
          cases hloaded
          exact hstored
      · rw [List.length_set]
        exact hlen
    · cases h
  | save n =>
    unfold Updates.step at h
    dsimp only at h
    split at h
    · next i loaded hjob =>
      cases h
      obtain ⟨hi, hloaded⟩ := hpending _ (List.mem_of_getElem? hjob)
      obtain ⟨b, hb, hP, hQ⟩ := hupdate i hi loaded (hloaded loaded rfl)
      rw [hb]
      exact ⟨hP, fun job hmem => hpending job (List.mem_of_mem_eraseIdx hmem), .inl hQ⟩
    · cases h

/-- **What every update establishes** from any value it may load holds of the value after
all of them. -/
theorem Settles.establishes {P Q : σ → Prop} {updates : List ι} {stored final : σ}
    (h : Settles update stored updates final) (hstored : P stored) (hsome : updates ≠ [])
    (hupdate : ∀ i ∈ updates, ∀ a, P a → ∃ b, update i a = some b ∧ P b ∧ Q b) : Q final := by
  obtain ⟨events, hrun⟩ := h
  have hstart : Established P Q updates (start stored updates) := by
    refine ⟨hstored, fun job hmem => ?_, .inr (List.length_map ..)⟩
    obtain ⟨i, hi, rfl⟩ := List.mem_map.mp hmem
    exact ⟨hi, nofun⟩
  have hend := hrun.invariant hstart fun _ _ _ hstep hs => hs.step hupdate hstep
  rcases hend.2.2 with hQ | hlen
  · exact hQ
  · exact absurd (List.length_eq_zero_iff.mp hlen.symm) hsome

/-! ## What may happen -/

section

variable (update)

theorem run_load (stored : σ) (loaded rest : List ι) :
    ∃ events, (LTS.ofPartial (step update)).Run
      ⟨stored, loaded.map (fun i => (i, some stored)) ++ rest.map fun i => (i, none)⟩ events
      ⟨stored, (loaded ++ rest).map fun i => (i, some stored)⟩ := by
  induction rest generalizing loaded with
  | nil =>
    refine ⟨[], ?_⟩
    rw [List.map_nil, List.append_nil, List.append_nil]
    exact LTS.Run.nil
  | cons i rest ih =>
    obtain ⟨events, hrun⟩ := ih (loaded ++ [i])
    refine ⟨.load loaded.length :: events, LTS.Run.cons ?_ (by simpa using hrun)⟩
    show step update _ _ = some _
    simp [step, List.set_append_right]

/-- The updates that are first save, one after another. -/
theorem run_save_first (loaded stored : σ) (updates : List ι) (rest : List (ι × Option σ)) :
    ∃ events stored', (LTS.ofPartial (step update)).Run
      ⟨stored, updates.map (fun i => (i, some loaded)) ++ rest⟩ events ⟨stored', rest⟩ := by
  induction updates generalizing stored with
  | nil => exact ⟨[], stored, LTS.Run.nil⟩
  | cons i updates ih =>
    obtain ⟨events, stored', hrun⟩ := ih ((update i loaded).getD stored)
    exact ⟨.save 0 :: events, stored', LTS.Run.cons rfl hrun⟩

/-- So do those after the first. -/
theorem run_save_second (loaded stored : σ) (job : ι × Option σ) (updates : List ι) :
    ∃ events stored', (LTS.ofPartial (step update)).Run
      ⟨stored, job :: updates.map fun i => (i, some loaded)⟩ events ⟨stored', [job]⟩ := by
  induction updates generalizing stored with
  | nil => exact ⟨[], stored, LTS.Run.nil⟩
  | cons i updates ih =>
    obtain ⟨events, stored', hrun⟩ := ih ((update i loaded).getD stored)
    exact ⟨.save 1 :: events, stored', LTS.Run.cons rfl hrun⟩

/-- The updates can finish. -/
theorem Settles.exists (stored : σ) (updates : List ι) :
    ∃ final, Settles update stored updates final := by
  obtain ⟨loads, hloads⟩ := run_load update stored [] updates
  obtain ⟨saves, final, hsaves⟩ := run_save_first update stored stored updates []
  rw [List.append_nil] at hsaves
  exact ⟨final, loads ++ saves, hloads.append hsaves⟩

end

/-- **Any update may be kept alone**: all load, then all save, and that one saves last. -/
theorem Settles.last {updates : List ι} {stored saved : σ} {i : ι} (hi : i ∈ updates)
    (hupdate : update i stored = some saved) : Settles update stored updates saved := by
  obtain ⟨before, after, rfl⟩ := List.append_of_mem hi
  obtain ⟨loads, hloads⟩ := run_load update stored [] (before ++ i :: after)
  obtain ⟨firsts, stored₁, hfirsts⟩ := run_save_first update stored stored before
    ((i :: after).map fun i => (i, some stored))
  obtain ⟨seconds, stored₂, hseconds⟩ := run_save_second update stored stored₁
    (i, some stored) after
  refine ⟨loads ++ (firsts ++ (seconds ++ [.save 0])), hloads.append (LTS.Run.append ?_
    (hseconds.append (LTS.Run.single ?_)))⟩
  · rw [List.nil_append, List.map_append]
    exact hfirsts
  · show step update _ _ = some _
    simp [step, hupdate]

end PulSeed.Updates
