import Mathlib.Algebra.Order.Group.Defs
import Mathlib.Algebra.Order.Sub.Basic
import Mathlib.Data.List.Basic
import Mathlib.Order.Basic

/-!
# Sliding windows

A limiter that counts events over a window of a fixed width keeps their times and forgets
those that are older than the window. `Remembers` says that what is kept is enough to count
the events in every window that ends after the last of them: it is so at the start
(`Remembers.nil`) and stays so when an event is admitted and the old times are forgotten
(`Remembers.add`). The count in any window that the next event would be in is then bounded
by what is kept (`Remembers.window_le`).

The last section is about windows with both ends: `KeepsAll` says that what is kept has all
admitted times that a later window reaches (`KeepsAll.forget`, `KeepsAll.add`), and `Bounded.add` that a limiter which admits an
event only when fewer than so many are kept bounds every window.
-/

namespace PulSeed

universe u

variable {T : Type u} [AddCommGroup T] [LinearOrder T]

/-- The times after `now - width`. -/
def recent (width now : T) (times : List T) : List T := times.filter fun t => now - width < t

/-- The times in the window of a width that ends at `now`. -/
def window (width now : T) (times : List T) : List T :=
  times.filter fun t => now - width < t ∧ t ≤ now

theorem recent_append (width now : T) (times times' : List T) :
    recent width now (times ++ times') = recent width now times ++ recent width now times' :=
  List.filter_append ..

/-- What is kept of events counts those in every window that ends after them. -/
def Remembers (width : T) (events kept : List T) : Prop :=
  ∀ now, (∀ t ∈ events, t ≤ now) →
    (recent width now events).length ≤ (recent width now kept).length

theorem Remembers.nil (width : T) (kept : List T) : Remembers width [] kept :=
  fun _ _ => Nat.zero_le _

variable [IsOrderedAddMonoid T]

/-- What a later window forgets of the recent times is what it forgets of all. -/
theorem recent_recent (width : T) {now now' : T} (h : now ≤ now') (times : List T) :
    recent width now' (recent width now times) = recent width now' times := by
  unfold recent
  rw [List.filter_filter]
  refine List.filter_congr fun t _ => ?_
  rw [← Bool.decide_and]
  refine decide_eq_decide.mpr ⟨fun ht => ht.1, fun ht => ⟨ht, ?_⟩⟩
  exact lt_of_le_of_lt (sub_le_sub_right h width) ht

/-- The window of a time in it reaches as far back as that of a later one. -/
theorem window_sublist_recent (width : T) {now now' : T} (h : now ≤ now') (times : List T) :
    (window width now' times).Sublist (recent width now times) := by
  refine List.monotone_filter_right times fun t ht => ?_
  have ht : now' - width < t ∧ t ≤ now' := by simpa using ht
  exact decide_eq_true (lt_of_le_of_lt (sub_le_sub_right h width) ht.1)

/-- **Admitting an event**: its time is kept, and the times before its window forgotten. -/
theorem Remembers.add {width : T} {events kept : List T} (h : Remembers width events kept)
    {now : T} : Remembers width (events ++ [now]) (recent width now kept ++ [now]) := by
  intro now' hlast
  have hnow : now ≤ now' := hlast now (List.mem_append_right _ (List.mem_singleton_self _))
  rw [recent_append, recent_append, recent_recent width hnow, List.length_append,
    List.length_append]
  exact Nat.add_le_add_right
    (h now' fun t ht => hlast t (List.mem_append_left _ ht)) _

/-- **The bound**: in a window that ends at `now` or later lie at most as many events as are
kept of those that were recent at `now`. -/
theorem Remembers.window_le {width : T} {events kept : List T} (h : Remembers width events kept)
    {now now' : T} (hlast : ∀ t ∈ events, t ≤ now) (hnow : now ≤ now') :
    (window width now' events).length ≤ (recent width now kept).length :=
  (window_sublist_recent width hnow events).length_le.trans (h now hlast)

/-! ## Windows with both ends -/

section Closed

variable {width now : T} {seen admitted kept : List T} {n : ℕ}

/-- The times from `now - width` on. -/
def since (width now : T) (times : List T) : List T := times.filter fun t => now - width ≤ t

/-- The times between two times. -/
def between (first last : T) (times : List T) : List T :=
  times.filter fun t => first ≤ t ∧ t ≤ last

/-- What is kept of the admitted times has all those that a window reaches which ends no
earlier than the seen times. -/
def KeepsAll (width : T) (seen admitted kept : List T) : Prop :=
  ∀ now, (∀ t ∈ seen, t ≤ now) → since width now kept = since width now admitted

/-- In no window of the width lie more than so many times. -/
def Bounded (width : T) (n : ℕ) (times : List T) : Prop :=
  ∀ first last, last - first ≤ width → (between first last times).length ≤ n

omit [IsOrderedAddMonoid T] in
theorem since_append (times times' : List T) :
    since width now (times ++ times') = since width now times ++ since width now times' :=
  List.filter_append ..

/-- What a later window reaches lies in the earlier one. -/
theorem since_since {now' : T} (h : now ≤ now') (times : List T) :
    since width now' (since width now times) = since width now' times := by
  unfold since
  rw [List.filter_filter]
  refine List.filter_congr fun t _ => ?_
  rw [← Bool.decide_and]
  refine decide_eq_decide.mpr ⟨fun ht => ht.1, fun ht => ⟨ht, ?_⟩⟩
  exact (sub_le_sub_right h width).trans ht

omit [IsOrderedAddMonoid T] in
/-- A window that begins later lies in what is kept for an earlier one. -/
theorem between_sublist_since {first : T} (h : now - width ≤ first) (last : T) (times : List T) :
    (between first last times).Sublist (since width now times) := by
  refine List.monotone_filter_right times fun t ht => ?_
  have ht : first ≤ t ∧ t ≤ last := by simpa using ht
  exact decide_eq_true (h.trans ht.1)

/-- Forgetting the times before a window loses nothing for later ones. -/
theorem KeepsAll.forget (h : KeepsAll width seen admitted kept) (hnow : ∀ t ∈ seen, t ≤ now) :
    KeepsAll width (seen ++ [now]) admitted (since width now kept) := by
  intro now' hlast
  have hle : now ≤ now' := hlast now (List.mem_append_right _ (List.mem_singleton_self _))
  rw [since_since hle, h now' fun t ht => (hnow t ht).trans hle]

/-- **Admitting an event** keeps its time, too. -/
theorem KeepsAll.add (h : KeepsAll width seen admitted kept) (hnow : ∀ t ∈ seen, t ≤ now) :
    KeepsAll width (seen ++ [now]) (admitted ++ [now]) (since width now kept ++ [now]) := by
  intro now' hlast
  rw [since_append, since_append, h.forget hnow now' hlast]

/-- **The bound**: an event that is admitted when fewer than `n` are kept leaves no window with
more than `n`. -/
theorem Bounded.add (h : Bounded width n admitted) (hkept : KeepsAll width seen admitted kept)
    (hnow : ∀ t ∈ seen, t ≤ now) (hless : (since width now kept).length < n) :
    Bounded width n (admitted ++ [now]) := by
  intro first last hwidth
  unfold between
  rw [List.filter_append, List.length_append]
  by_cases hin : first ≤ now ∧ now ≤ last
  · -- the window reaches no further back than the one that ends at the event
    have hfirst : now - width ≤ first :=
      sub_le_comm.mp ((sub_le_sub_right hin.2 first).trans hwidth)
    have hle := (between_sublist_since hfirst last admitted).length_le
    rw [← hkept now hnow] at hle
    have hone : ([now].filter fun t => first ≤ t ∧ t ≤ last).length ≤ 1 := List.length_filter_le ..
    unfold between at hle
    omega
  · have hnone : ([now].filter fun t => first ≤ t ∧ t ≤ last) = [] := by simp [hin]
    rw [hnone]
    exact h first last hwidth

end Closed

end PulSeed
