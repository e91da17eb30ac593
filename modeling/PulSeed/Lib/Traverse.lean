import Mathlib.Data.List.Forall2

/-!
# Traversing a list with a fallible function

`List.mapM` in `Except` and in `Option`: a traversal succeeds with the list of the members' results
(`mapM_ok_iff`), and fails with the error of one of them (`mapM_error`). What each member's
result has in common with the member, the two lists have in common
(`map_eq_of_forall₂`).
-/

namespace PulSeed

universe u v w

variable {ε : Type u} {α β : Type v} {γ : Type w}

theorem bind_ok_iff {x : Except ε α} {f : α → Except ε β} {b : β} :
    x >>= f = .ok b ↔ ∃ a, x = .ok a ∧ f a = .ok b := by
  constructor
  · intro h
    cases x with
    | error e => cases h
    | ok a => exact ⟨a, rfl, h⟩
  · rintro ⟨a, rfl, h⟩
    exact h

theorem bind_error_iff {x : Except ε α} {f : α → Except ε β} {e : ε} :
    x >>= f = .error e ↔ x = .error e ∨ ∃ a, x = .ok a ∧ f a = .error e := by
  constructor
  · intro h
    cases x with
    | error e' =>
      cases h
      exact .inl rfl
    | ok a => exact .inr ⟨a, rfl, h⟩
  · rintro (rfl | ⟨a, rfl, h⟩)
    · rfl
    · exact h

theorem map_ok_iff {x : Except ε α} {f : α → β} {b : β} :
    x.map f = .ok b ↔ ∃ a, x = .ok a ∧ f a = b := by
  constructor
  · intro h
    cases x with
    | error e => cases h
    | ok a => exact ⟨a, rfl, Except.ok.inj h⟩
  · rintro ⟨a, rfl, rfl⟩
    rfl

/-- **A traversal succeeds** with the results of the members. -/
theorem mapM_ok_iff {f : α → Except ε β} {l : List α} {l' : List β} :
    l.mapM f = .ok l' ↔ List.Forall₂ (fun a b => f a = .ok b) l l' := by
  induction l generalizing l' with
  | nil =>
    rw [List.mapM_nil, List.forall₂_nil_left_iff]
    exact ⟨fun h => (Except.ok.inj h).symm, fun h => h ▸ rfl⟩
  | cons a l ih =>
    rw [List.mapM_cons, List.forall₂_cons_left_iff, bind_ok_iff]
    constructor
    · rintro ⟨b, hb, hrest⟩
      obtain ⟨bs, hbs, heq⟩ := bind_ok_iff.mp hrest
      exact ⟨b, bs, hb, ih.mp hbs, (Except.ok.inj heq).symm⟩
    · rintro ⟨b, bs, hb, hbs, rfl⟩
      exact ⟨b, hb, bind_ok_iff.mpr ⟨bs, ih.mpr hbs, rfl⟩⟩

/-- Each member of a traversal that succeeds has its result. -/
theorem mapM_ok_mem {f : α → Except ε β} {l : List α} {l' : List β} (h : l.mapM f = .ok l')
    {a : α} (ha : a ∈ l) : ∃ b ∈ l', f a = .ok b := by
  induction mapM_ok_iff.mp h with
  | nil => cases ha
  | cons hb hrest ih =>
    rcases List.mem_cons.mp ha with rfl | ha
    · exact ⟨_, List.mem_cons_self .., hb⟩
    · obtain ⟨b, hmem, hb⟩ := ih (mapM_ok_iff.mpr hrest) ha
      exact ⟨b, List.mem_cons_of_mem _ hmem, hb⟩

/-- **A traversal fails** with the error of a member. -/
theorem mapM_error {f : α → Except ε β} {l : List α} {e : ε} (h : l.mapM f = .error e) :
    ∃ a ∈ l, f a = .error e := by
  induction l with
  | nil => cases h
  | cons a l ih =>
    rw [List.mapM_cons] at h
    cases ha : f a with
    | error e' =>
      rw [ha] at h
      cases h
      exact ⟨a, List.mem_cons_self .., ha⟩
    | ok b =>
      rw [ha] at h
      cases hl : l.mapM f with
      | error e' =>
        obtain ⟨a', ha', herr⟩ := ih (by
          rw [hl] at h ⊢
          cases h
          rfl)
        exact ⟨a', List.mem_cons_of_mem _ ha', herr⟩
      | ok bs =>
        rw [hl] at h
        cases h

/-- What related members have in common, the lists have in common. -/
theorem map_eq_of_forall₂ {R : α → β → Prop} {f : α → γ} {g : β → γ} {l : List α} {l' : List β}
    (h : List.Forall₂ R l l') (hR : ∀ a ∈ l, ∀ b, R a b → g b = f a) : l'.map g = l.map f := by
  induction h with
  | nil => rfl
  | cons hab _ ih =>
    rw [List.map_cons, List.map_cons, hR _ (List.mem_cons_self ..) _ hab,
      ih fun a ha => hR a (List.mem_cons_of_mem _ ha)]

/-! ## Partial functions -/

section Partial

universe x

variable {δ ζ : Type x}

/-- A traversal with a partial function succeeds with the values of the members. -/
theorem mapM_some_iff {f : α → Option δ} {l : List α} {l' : List δ} :
    l.mapM f = some l' ↔ List.Forall₂ (fun a b => f a = some b) l l' := by
  induction l generalizing l' with
  | nil =>
    rw [List.mapM_nil, List.forall₂_nil_left_iff]
    exact ⟨fun h => (Option.some.inj h).symm, fun h => h ▸ rfl⟩
  | cons a l ih =>
    rw [List.mapM_cons, List.forall₂_cons_left_iff]
    constructor
    · intro h
      obtain ⟨b, hb, hrest⟩ := Option.bind_eq_some_iff.mp h
      obtain ⟨bs, hbs, heq⟩ := Option.bind_eq_some_iff.mp hrest
      exact ⟨b, bs, hb, ih.mp hbs, (Option.some.inj heq).symm⟩
    · rintro ⟨b, bs, hb, hbs, rfl⟩
      exact Option.bind_eq_some_iff.mpr ⟨b, hb, Option.bind_eq_some_iff.mpr ⟨bs, ih.mpr hbs, rfl⟩⟩

/-- Each value of a traversal that succeeds is that of a member. -/
theorem mapM_some_mem {f : α → Option δ} {l : List α} {l' : List δ} (h : l.mapM f = some l')
    {b : δ} (hb : b ∈ l') : ∃ a ∈ l, f a = some b := by
  induction mapM_some_iff.mp h with
  | nil => cases hb
  | cons hab hrest ih =>
    rcases List.mem_cons.mp hb with rfl | hb
    · exact ⟨_, List.mem_cons_self .., hab⟩
    · obtain ⟨a, hmem, ha⟩ := ih (mapM_some_iff.mpr hrest) hb
      exact ⟨a, List.mem_cons_of_mem _ hmem, ha⟩

/-- Each member has a value in a traversal that succeeds. -/
theorem mapM_some_value {f : α → Option δ} {l : List α} {l' : List δ} (h : l.mapM f = some l')
    {a : α} (ha : a ∈ l) : ∃ b ∈ l', f a = some b := by
  induction mapM_some_iff.mp h with
  | nil => cases ha
  | cons hab hrest ih =>
    rcases List.mem_cons.mp ha with rfl | ha
    · exact ⟨_, List.mem_cons_self .., hab⟩
    · obtain ⟨b, hmem, hb⟩ := ih (mapM_some_iff.mpr hrest) ha
      exact ⟨b, List.mem_cons_of_mem _ hmem, hb⟩

/-- A traversal succeeds when the function has a value for every member. -/
theorem mapM_isSome {f : α → Option δ} {l : List α} (h : ∀ a ∈ l, (f a).isSome = true) :
    (l.mapM f).isSome = true := by
  induction l with
  | nil => rfl
  | cons a l ih =>
    obtain ⟨b, hb⟩ := Option.isSome_iff_exists.mp (h a (List.mem_cons_self ..))
    obtain ⟨bs, hbs⟩ := Option.isSome_iff_exists.mp (ih fun a' ha' =>
      h a' (List.mem_cons_of_mem _ ha'))
    rw [List.mapM_cons, hb, hbs]
    rfl

/-- What two functions have in common on the members, their traversals have in common. -/
theorem mapM_map_congr {f f' : α → Option δ} {g : δ → ζ} {l : List α}
    (h : ∀ a ∈ l, (f' a).map g = (f a).map g) :
    (l.mapM f').map (List.map g) = (l.mapM f).map (List.map g) := by
  induction l with
  | nil => rfl
  | cons a l ih =>
    have hhead := h a (List.mem_cons_self ..)
    have htail := ih fun a' ha' => h a' (List.mem_cons_of_mem _ ha')
    rw [List.mapM_cons, List.mapM_cons]
    cases hf : f a with
    | none =>
      rw [hf] at hhead
      rw [Option.map_eq_none_iff.mp hhead]
      rfl
    | some b =>
      rw [hf] at hhead
      obtain ⟨b', hb', hgb⟩ := Option.map_eq_some_iff.mp hhead
      rw [hb']
      cases hl : l.mapM f with
      | none =>
        rw [hl] at htail
        have hnone := Option.map_eq_none_iff.mp htail
        rw [Option.bind_eq_bind, Option.bind_some, hnone]
        rfl
      | some bs =>
        rw [hl] at htail
        obtain ⟨bs', hbs', hgbs⟩ := Option.map_eq_some_iff.mp htail
        rw [Option.bind_eq_bind, Option.bind_some, hbs']
        exact congrArg some (congrArg₂ List.cons hgb hgbs)

end Partial

/-- A member of a list is related to one of the other. -/
theorem exists_of_forall₂ {α : Type u} {β : Type v} {R : α → β → Prop} {l : List α} {l' : List β}
    (h : List.Forall₂ R l l') {a : α} (ha : a ∈ l) : ∃ b ∈ l', R a b := by
  induction h with
  | nil => cases ha
  | cons hab _ ih =>
    rcases List.mem_cons.mp ha with rfl | ha
    · exact ⟨_, List.mem_cons_self, hab⟩
    · obtain ⟨b, hb, hR⟩ := ih ha
      exact ⟨b, List.mem_cons_of_mem _ hb, hR⟩

end PulSeed
