import PulSeed.Lib.Text
import Mathlib.Data.List.Basic

/-!
# Occurrences of a pattern

- `OccursAt o c i`: the pattern `o` occurs in `c` at the position `i`.
- `Pieces o c ps`: cutting `c` at the occurrences of `o`, from left to right, each cut after
  the one before it, leaves the pieces `ps`.

Occurrences may overlap; the cuts do not. There is one way to cut (`Pieces.unique`), and the
number of its pieces says whether two occurrences are disjoint (`Pieces.disjoint_iff`).

The searches of a string are stated by these: `splitFirst` finds the first occurrence,
`indexOf` the first from a position on, and `split` cuts.
-/

namespace PulSeed

universe u

section

variable {α : Type u}

/-- The pattern `o` occurs in `c` at the position `i`. -/
def OccursAt (o c : List α) (i : ℕ) : Prop :=
  ∃ before after, c = before ++ o ++ after ∧ before.length = i

/-- The pieces that remain of `c` when it is cut at the occurrences of `o`, from left to
right. -/
inductive Pieces (o : List α) : List α → List (List α) → Prop
  | last {c : List α} : (∀ i, ¬ OccursAt o c i) → Pieces o c [c]
  | cut {before after : List α} {ps : List (List α)} :
      (∀ i, OccursAt o (before ++ o ++ after) i → before.length ≤ i) → Pieces o after ps →
      Pieces o (before ++ o ++ after) (before :: ps)

variable {o c b a : List α}

theorem OccursAt.here (b o a : List α) : OccursAt o (b ++ o ++ a) b.length := ⟨b, a, rfl, rfl⟩

theorem OccursAt.le {i : ℕ} (h : OccursAt o c i) : i + o.length ≤ c.length := by
  obtain ⟨b, a, rfl, rfl⟩ := h
  simp

theorem occursAt_append_left {i : ℕ} : OccursAt o (b ++ c) (b.length + i) ↔ OccursAt o c i := by
  constructor
  · rintro ⟨before, after, heq, hlen⟩
    have hstart : b <+: before := by
      refine List.prefix_of_prefix_length_le (List.prefix_append b c) ?_ (by omega)
      rw [heq, List.append_assoc]
      exact List.prefix_append ..
    obtain ⟨rest, rfl⟩ := hstart
    refine ⟨rest, after, ?_, by simpa using hlen⟩
    simpa [List.append_assoc] using heq
  · rintro ⟨before, after, rfl, rfl⟩
    exact ⟨b ++ before, after, by simp, by simp⟩

/-- An occurrence that starts past the one in front lies in what follows it. -/
theorem occursAt_after {i : ℕ} (hle : b.length + o.length ≤ i) :
    OccursAt o (b ++ o ++ a) i ↔ OccursAt o a (i - (b.length + o.length)) := by
  have hi : i = (b ++ o).length + (i - (b.length + o.length)) := by
    rw [List.length_append]
    omega
  rw [hi, occursAt_append_left]
  simp

theorem exists_occursAt : (∃ i, OccursAt o c i) ↔ o <:+: c := by
  constructor
  · rintro ⟨i, before, after, rfl, -⟩
    exact ⟨before, after, rfl⟩
  · rintro ⟨before, after, rfl⟩
    exact ⟨_, OccursAt.here before o after⟩

/-- A text that lacks the first element of the pattern has no occurrence that begins in it. -/
theorem OccursAt.le_of_notMem {x : α} {i : ℕ} (hx : x ∉ b) (h : OccursAt (x :: o) (b ++ c) i) :
    b.length ≤ i := by
  obtain ⟨before, after, heq, rfl⟩ := h
  by_contra hlt
  have hwhole : before ++ [x] <+: b ++ c := ⟨o ++ after, by simp [heq]⟩
  have hstart : before ++ [x] <+: b := by
    refine List.prefix_of_prefix_length_le hwhole (List.prefix_append b c) ?_
    simp only [List.length_append, List.length_singleton]
    omega
  exact hx (hstart.subset (by simp))

/-- No occurrence goes across an element that the pattern lacks. -/
theorem OccursAt.of_notMem {x : α} {i : ℕ} (hx : x ∉ o) (h : OccursAt o (b ++ x :: a) i)
    (hle : i ≤ b.length) : OccursAt o b i := by
  obtain ⟨before, after, heq, rfl⟩ := h
  rw [List.append_assoc, List.append_eq_append_iff] at heq
  rcases heq with ⟨rest, rfl, hrest⟩ | ⟨rest, rfl, hrest⟩
  · have hnil : rest = [] := by
      rw [List.length_append] at hle
      exact List.length_eq_zero_iff.mp (by omega)
    subst hnil
    cases o with
    | nil => exact ⟨b, [], by simp, by simp⟩
    | cons y o => exact absurd (List.cons.inj hrest).1 fun heq => hx (heq ▸ List.mem_cons_self)
  · rcases List.append_eq_append_iff.mp hrest with ⟨tail, rfl, htail⟩ | ⟨tail, rfl, htail⟩
    · exact ⟨before, tail, by simp, rfl⟩
    · cases tail with
      | nil => exact ⟨before, [], by simp, rfl⟩
      | cons y tail =>
        exact absurd (by simp [(List.cons.inj htail).1]) hx

/-- The part of a text in front of an occurrence is determined by its position. -/
theorem OccursAt.split_unique {b' a' : List α} (h : b ++ o ++ a = b' ++ o ++ a')
    (hlen : b.length = b'.length) : b = b' ∧ a = a' := by
  rw [List.append_assoc, List.append_assoc] at h
  obtain ⟨rfl, hrest⟩ := List.append_inj h hlen
  exact ⟨rfl, List.append_cancel_left hrest⟩

namespace Pieces

variable {ps : List (List α)}

theorem ne_nil (h : Pieces o c ps) : ps ≠ [] := by
  cases h <;> simp

/-- **There is one way to cut** a text. -/
theorem unique {ps' : List (List α)} (h : Pieces o c ps) (h' : Pieces o c ps') : ps = ps' := by
  induction h generalizing ps' with
  | last hnone =>
    cases h' with
    | last => rfl
    | cut => exact absurd (OccursAt.here ..) (hnone _)
  | @cut b a ps hfirst hrest ih =>
    generalize hc : b ++ o ++ a = c at h'
    cases h' with
    | last hnone => exact absurd (hc ▸ OccursAt.here b o a) (hnone _)
    | @cut b' a' ps' hfirst' hrest' =>
      have hle : b.length ≤ b'.length := hfirst _ (hc ▸ OccursAt.here b' o a')
      have hle' : b'.length ≤ b.length := hfirst' _ (hc ▸ OccursAt.here b o a)
      obtain ⟨rfl, rfl⟩ := OccursAt.split_unique hc (le_antisymm hle hle')
      rw [ih hrest']

/-- Joining the pieces with the pattern gives the text back. -/
theorem intercalate (h : Pieces o c ps) : o.intercalate ps = c := by
  induction h with
  | last => simp
  | @cut b a ps hfirst hrest ih =>
    rw [List.intercalate_cons_of_ne_nil hrest.ne_nil, ih]

theorem length_one (h : Pieces o c ps) : ps.length = 1 ↔ ∀ i, ¬ OccursAt o c i := by
  cases h with
  | last hnone => simpa using hnone
  | @cut b a ps hfirst hrest =>
    have hpos : 0 < ps.length := List.length_pos_iff.mpr hrest.ne_nil
    constructor
    · intro hone
      simp only [List.length_cons] at hone
      omega
    · exact fun hnone => absurd (OccursAt.here ..) (hnone _)

/-- More than two pieces are left exactly when two occurrences are disjoint. -/
theorem disjoint_iff (h : Pieces o c ps) :
    2 < ps.length ↔ ∃ i j, OccursAt o c i ∧ OccursAt o c j ∧ i + o.length ≤ j := by
  cases h with
  | last hnone => simp [hnone]
  | @cut b a ps hfirst hrest =>
    have hrest' : 2 < (b :: ps).length ↔ ∃ j, OccursAt o a j := by
      have hpos : 0 < ps.length := List.length_pos_iff.mpr hrest.ne_nil
      have hone := hrest.length_one
      rw [List.length_cons, ← not_iff_not, not_exists, ← hone]
      omega
    rw [hrest']
    constructor
    · rintro ⟨j, hj⟩
      refine ⟨b.length, b.length + o.length + j, OccursAt.here .., ?_, by omega⟩
      rw [occursAt_after (by omega)]
      simpa using hj
    · rintro ⟨i, j, hi, hj, hle⟩
      have hbi := hfirst i hi
      exact ⟨_, (occursAt_after (by omega)).mp hj⟩

/-- With no two disjoint occurrences there is at most one cut. -/
theorem two_pieces (h : Pieces o c ps) (hsome : ∃ i, OccursAt o c i)
    (hoverlap : ∀ i j, OccursAt o c i → OccursAt o c j → j < i + o.length) :
    ∃ before after, ps = [before, after] ∧ c = before ++ o ++ after := by
  cases h with
  | last hnone => exact absurd hsome.choose_spec (hnone _)
  | @cut b a ps hfirst hrest =>
    cases hrest with
    | last => exact ⟨b, a, rfl, rfl⟩
    | @cut b' a' ps' =>
      have hj : OccursAt o (b ++ o ++ (b' ++ o ++ a')) (b.length + o.length + b'.length) := by
        rw [occursAt_after (by omega)]
        simpa using OccursAt.here b' o a'
      have hlt := hoverlap _ _ (OccursAt.here ..) hj
      omega

end Pieces

end

namespace Text

variable {pattern text before after : Text}

/-- `splitFirst` finds the first occurrence. -/
theorem splitFirst_eq_some (h : splitFirst pattern text = some (before, after)) :
    text = before ++ pattern ++ after ∧ ∀ i, OccursAt pattern text i → before.length ≤ i := by
  induction text generalizing before with
  | nil =>
    unfold splitFirst at h
    split at h
    · next hnil =>
      cases h
      simp [hnil]
    · cases h
  | cons u rest ih =>
    unfold splitFirst at h
    split at h
    · next hstart =>
      obtain ⟨tail, htail⟩ := List.isPrefixOf_iff_prefix.mp hstart
      cases h
      exact ⟨by simp [← htail], fun _ _ => Nat.zero_le _⟩
    · next hstart =>
      obtain ⟨⟨b, a⟩, hparts, heq⟩ := Option.map_eq_some_iff.mp h
      cases heq
      obtain ⟨rfl, hfirst⟩ := ih hparts
      refine ⟨rfl, fun i hi => ?_⟩
      cases i with
      | zero =>
        obtain ⟨b', a', heq, hlen⟩ := hi
        rw [List.length_eq_zero_iff.mp hlen] at heq
        exact absurd (List.isPrefixOf_iff_prefix.mpr (heq ▸ List.prefix_append pattern a')) hstart
      | succ i =>
        have hi' : OccursAt pattern ([u] ++ (b ++ pattern ++ a)) ([u].length + i) := by
          simpa [Nat.add_comm] using hi
        simpa using hfirst i (occursAt_append_left.mp hi')

theorem splitFirst_eq_none : splitFirst pattern text = none ↔ ∀ i, ¬ OccursAt pattern text i := by
  constructor
  · rintro h i ⟨before, after, rfl, rfl⟩
    induction before with
    | nil =>
      cases pattern with
      | nil => cases after <;> simp [splitFirst] at h
      | cons u pattern => simp [splitFirst, List.isPrefixOf_iff_prefix] at h
    | cons u before ih =>
      simp only [List.cons_append, splitFirst] at h
      split at h
      · cases h
      · exact ih (Option.map_eq_none_iff.mp h)
  · intro hnone
    cases h : splitFirst pattern text with
    | none => rfl
    | some parts =>
      obtain ⟨rfl, -⟩ := splitFirst_eq_some h
      exact absurd (OccursAt.here ..) (hnone _)

/-- The first occurrence is what `splitFirst` finds. -/
theorem splitFirst_of_first
    (hfirst : ∀ i, OccursAt pattern (before ++ pattern ++ after) i → before.length ≤ i) :
    splitFirst pattern (before ++ pattern ++ after) = some (before, after) := by
  cases h : splitFirst pattern (before ++ pattern ++ after) with
  | none => exact absurd (OccursAt.here ..) (splitFirst_eq_none.mp h _)
  | some parts =>
    obtain ⟨heq, hfirst'⟩ := splitFirst_eq_some h
    have hle : before.length ≤ parts.1.length := hfirst _ (heq ▸ OccursAt.here ..)
    have hle' : parts.1.length ≤ before.length := hfirst' _ (OccursAt.here ..)
    obtain ⟨rfl, rfl⟩ := OccursAt.split_unique heq (le_antisymm hle hle')
    rfl

/-- What comes in front of it holds no other. -/
theorem not_infix_of_splitFirst (hne : pattern ≠ [])
    (h : splitFirst pattern text = some (before, after)) : ¬ pattern <:+: before := by
  intro hwithin
  obtain ⟨rfl, hfirst⟩ := splitFirst_eq_some h
  obtain ⟨i, hi⟩ := exists_occursAt.mpr hwithin
  have hle := hi.le
  obtain ⟨b, a, rfl, rfl⟩ := hi
  have hpos := List.length_pos_iff.mpr hne
  have hlate := hfirst b.length ⟨b, a ++ pattern ++ after, by simp, rfl⟩
  simp only [List.length_append] at hle hlate
  omega

/-- `text.indexOf(search, position)`. -/
def indexOf (text search : Text) (position : ℕ) : Option ℕ :=
  (splitFirst search (text.drop position)).map fun parts => position + parts.1.length

theorem length_after_lt (hne : pattern ≠ []) (h : splitFirst pattern text = some (before, after)) :
    after.length < text.length := by
  have hpos : 0 < pattern.length := List.length_pos_iff.mpr hne
  rw [(splitFirst_eq_some h).1]
  simp only [List.length_append]
  omega

/-- `text.split(separator)`. -/
def split (separator text : Text) : List Text :=
  if hempty : separator = [] then text.map ([·])
  else
    match hfirst : splitFirst separator text with
    | none => [text]
    | some (before, after) =>
      have _ : after.length < text.length := length_after_lt hempty hfirst
      before :: split separator after
termination_by text.length

/-- `split` cuts at the occurrences of the separator. -/
theorem pieces_split (hne : pattern ≠ []) (text : Text) : Pieces pattern text (split pattern text) := by
  induction text using split.induct pattern with
  | case1 text hempty => exact absurd hempty hne
  | case2 text hempty hnone =>
    rw [split, dif_neg hempty]
    split
    · exact .last (splitFirst_eq_none.mp hnone)
    · next hsome => simp [hnone] at hsome
  | case3 text hempty before after hsome _ ih =>
    rw [split, dif_neg hempty]
    split
    · next hnone => simp [hnone] at hsome
    · next before' after' hsome' =>
      obtain ⟨rfl, rfl⟩ := Prod.mk.inj (Option.some.inj (hsome.symm.trans hsome'))
      obtain ⟨rfl, hfirst⟩ := splitFirst_eq_some hsome
      exact .cut hfirst ih

end Text

end PulSeed
