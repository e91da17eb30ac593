import Mathlib.Data.List.Basic
import Mathlib.Data.List.Nodup
import Mathlib.Data.List.Perm.Basic

/-!
# Lists without duplicates

`eraseDups` keeps the first occurrence of each element, as a JavaScript `Set` does.

- `eraseDups_append_eq`: what a second list adds.
- `eraseDups_flatMap_perm_iff`: **joined lists do not depend on the order** exactly when each is
  a prefix of another or the other way round.
-/

namespace PulSeed.EraseDups

universe u v

variable {α : Type u} {β : Type v} [DecidableEq β] {as bs : List β}

theorem eraseDups_filter (p : β → Bool) (as : List β) :
    (as.filter p).eraseDups = as.eraseDups.filter p := by
  induction hn : as.length using Nat.strongRecOn generalizing as with
  | ind n ih =>
    cases as with
    | nil => rfl
    | cons a as =>
      have hlt : (as.filter fun b => !b == a).length < n := by
        rw [← hn]
        exact Nat.lt_succ_of_le (List.length_filter_le _ _)
      have hrest := ih _ hlt (as.filter fun b => !b == a) rfl
      rw [List.eraseDups_cons]
      cases hp : p a with
      | true =>
        rw [List.filter_cons_of_pos hp, List.filter_cons_of_pos hp, List.eraseDups_cons, ← hrest,
          List.filter_filter, List.filter_filter]
        congr 2
        exact List.filter_congr fun b _ => Bool.and_comm ..
      | false =>
        rw [List.filter_cons_of_neg (by simp [hp]), List.filter_cons_of_neg (by simp [hp]), ← hrest,
          List.filter_filter]
        congr 1
        refine List.filter_congr fun b _ => ?_
        by_cases hb : b = a
        · simp [hb, hp]
        · simp [hb]

theorem nodup_eraseDups (as : List β) : as.eraseDups.Nodup := by
  induction hn : as.length using Nat.strongRecOn generalizing as with
  | ind n ih =>
    cases as with
    | nil => exact List.nodup_nil
    | cons a as =>
      have hlt : (as.filter fun b => !b == a).length < n := by
        rw [← hn]
        exact Nat.lt_succ_of_le (List.length_filter_le _ _)
      rw [List.eraseDups_cons, List.nodup_cons]
      refine ⟨?_, ih _ hlt _ rfl⟩
      simp

theorem eraseDups_of_nodup (h : as.Nodup) : as.eraseDups = as := by
  induction as with
  | nil => rfl
  | cons a as ih =>
    obtain ⟨hnot, has⟩ := List.nodup_cons.mp h
    rw [List.eraseDups_cons, List.filter_eq_self.mpr, ih has]
    intro b hb
    have hne : b ≠ a := fun heq => hnot (heq ▸ hb)
    simpa using hne

@[simp] theorem eraseDups_eraseDups (as : List β) : as.eraseDups.eraseDups = as.eraseDups :=
  eraseDups_of_nodup (nodup_eraseDups as)

theorem eraseDups_append_eq (as bs : List β) :
    (as ++ bs).eraseDups = as.eraseDups ++ bs.eraseDups.filter (· ∉ as) := by
  rw [List.eraseDups_append]
  congr 1
  rw [← eraseDups_filter]
  congr 1
  exact List.filter_congr fun b _ => by simp

theorem eraseDups_eraseDups_append (as bs : List β) :
    (as.eraseDups ++ bs).eraseDups = (as ++ bs).eraseDups := by
  rw [eraseDups_append_eq, eraseDups_append_eq, eraseDups_eraseDups]
  simp only [List.mem_eraseDups]

theorem eraseDups_append_of_prefix_left (h : as.eraseDups <+: bs.eraseDups) :
    (as ++ bs).eraseDups = bs.eraseDups := by
  obtain ⟨rest, hrest⟩ := h
  have hnodup := nodup_eraseDups bs
  rw [← hrest, List.nodup_append] at hnodup
  rw [eraseDups_append_eq, ← hrest, List.filter_append]
  have hleft : as.eraseDups.filter (· ∉ as) = [] :=
    List.filter_eq_nil_iff.mpr fun b hb => by simpa using List.mem_eraseDups.mp hb
  have hright : rest.filter (· ∉ as) = rest :=
    List.filter_eq_self.mpr fun b hb => by
      simpa using fun hmem => hnodup.2.2 b (List.mem_eraseDups.mpr hmem) b hb rfl
  rw [hleft, hright, List.nil_append]

theorem eraseDups_append_of_prefix_right (h : bs.eraseDups <+: as.eraseDups) :
    (as ++ bs).eraseDups = as.eraseDups := by
  rw [eraseDups_append_eq, List.filter_eq_nil_iff.mpr, List.append_nil]
  intro b hb
  simpa using List.mem_eraseDups.mp (h.subset hb)

/-- Joined lists of which each is a prefix of another or the other way round: the longest one. -/
theorem eraseDups_flatMap {D : α → List β} {xs : List α}
    (h : ∀ x ∈ xs, ∀ y ∈ xs, (D x).eraseDups <+: (D y).eraseDups ∨
      (D y).eraseDups <+: (D x).eraseDups) :
    (∀ x ∈ xs, (D x).eraseDups <+: (xs.flatMap D).eraseDups) ∧
      (xs ≠ [] → ∃ x ∈ xs, (D x).eraseDups = (xs.flatMap D).eraseDups) := by
  induction xs with
  | nil => exact ⟨fun x hx => absurd hx (List.not_mem_nil), fun hne => absurd rfl hne⟩
  | cons x xs ih =>
    obtain ⟨hstart, hlongest⟩ := ih fun y hy z hz =>
      h y (List.mem_cons_of_mem _ hy) z (List.mem_cons_of_mem _ hz)
    rw [List.flatMap_cons]
    by_cases hxs : xs = []
    · subst hxs
      simp
    obtain ⟨y, hy, hlong⟩ := hlongest hxs
    rcases h x List.mem_cons_self y (List.mem_cons_of_mem _ hy) with hle | hle
    · have heq := eraseDups_append_of_prefix_left (hlong ▸ hle)
      rw [heq]
      refine ⟨fun z hz => ?_, fun _ => ⟨y, List.mem_cons_of_mem _ hy, hlong⟩⟩
      rcases List.mem_cons.mp hz with rfl | hz
      · exact hlong ▸ hle
      · exact hstart z hz
    · have heq := eraseDups_append_of_prefix_right (hlong ▸ hle)
      rw [heq]
      refine ⟨fun z hz => ?_, fun _ => ⟨x, List.mem_cons_self, rfl⟩⟩
      rcases List.mem_cons.mp hz with rfl | hz
      · exact List.prefix_refl _
      · exact (hstart z hz).trans (hlong ▸ hle)

/-- Any element can come first. -/
theorem exists_perm_cons (hx : x ∈ xs) : ∃ ys : List α, (x :: ys).Perm xs := by
  obtain ⟨before, after, rfl⟩ := List.append_of_mem hx
  exact ⟨before ++ after, List.perm_middle.symm⟩

/-- **Joined lists do not depend on the order** exactly when each is a prefix of another or the
other way round. -/
theorem eraseDups_flatMap_perm_iff {D : α → List β} {xs : List α} :
    (∀ ys : List α, ys.Perm xs → (ys.flatMap D).eraseDups = (xs.flatMap D).eraseDups) ↔
      ∀ x ∈ xs, ∀ y ∈ xs, (D x).eraseDups <+: (D y).eraseDups ∨
        (D y).eraseDups <+: (D x).eraseDups := by
  constructor
  · intro hall
    have hfirst : ∀ x ∈ xs, (D x).eraseDups <+: (xs.flatMap D).eraseDups := by
      intro x hx
      obtain ⟨ys, hys⟩ := exists_perm_cons hx
      rw [← hall _ hys, List.flatMap_cons, eraseDups_append_eq]
      exact List.prefix_append _ _
    exact fun x hx y hy => List.prefix_or_prefix_of_prefix (hfirst x hx) (hfirst y hy)
  · intro h ys hperm
    have hys : ∀ x ∈ ys, ∀ y ∈ ys, (D x).eraseDups <+: (D y).eraseDups ∨
        (D y).eraseDups <+: (D x).eraseDups := fun x hx y hy =>
      h x (hperm.mem_iff.mp hx) y (hperm.mem_iff.mp hy)
    by_cases hxs : xs = []
    · subst hxs
      rw [hperm.eq_nil]
    obtain ⟨hstart, hlongest⟩ := eraseDups_flatMap h
    obtain ⟨hle'', hlongest'⟩ := eraseDups_flatMap hys
    obtain ⟨x, hx, hlong⟩ := hlongest hxs
    obtain ⟨y, hy, hlong'⟩ := hlongest' fun hnil => hxs (hnil ▸ hperm).symm.eq_nil
    have hle : (ys.flatMap D).eraseDups <+: (xs.flatMap D).eraseDups :=
      hlong' ▸ hstart y (hperm.mem_iff.mp hy)
    have hge : (xs.flatMap D).eraseDups <+: (ys.flatMap D).eraseDups :=
      hlong ▸ hle'' x (hperm.mem_iff.mpr hx)
    exact hle.eq_of_length (Nat.le_antisymm hle.length_le hge.length_le)

end PulSeed.EraseDups
