import Mathlib.Data.List.Dedup
import Mathlib.Data.List.Nodup

/-!
# First-in first-out queues, read off a log of arrivals

A log lists the arrivals at a queue, oldest first; an item that arrives again
appears again. The queue at any time is `waiting log live`: the items that are
still there, each at the place of its last arrival. `waiting_append` says what one
batch of arrivals and departures does to it: those that left are gone, those that
arrived stand at the end, and the others keep their order.
-/

namespace PulSeed

universe u

variable {α : Type u} [DecidableEq α]

/-- The items of the log that are `live`, in the order of their last arrival. -/
def waiting (log : List α) (live : α → Bool) : List α := log.dedup.filter live

/-- The last arrivals of a log followed by another one. -/
theorem dedup_append_eq (log new : List α) :
    (log ++ new).dedup = log.dedup.filter (fun x => x ∉ new) ++ new.dedup := by
  induction log with
  | nil => simp
  | cons a log ih =>
    by_cases hlog : a ∈ log
    · rw [List.cons_append, List.dedup_cons_of_mem (List.mem_append_left _ hlog), ih,
        List.dedup_cons_of_mem hlog]
    · by_cases hnew : a ∈ new
      · rw [List.cons_append, List.dedup_cons_of_mem (List.mem_append_right _ hnew), ih,
          List.dedup_cons_of_notMem hlog, List.filter_cons_of_neg (by simpa using hnew)]
      · have hboth : a ∉ log ++ new := by simp [hlog, hnew]
        rw [List.cons_append, List.dedup_cons_of_notMem hboth, ih,
          List.dedup_cons_of_notMem hlog, List.filter_cons_of_pos (by simpa using hnew),
          List.cons_append]

/-- **One batch of arrivals**: `new` arrives, and of the items that waited those that
are not live any more leave. -/
theorem waiting_append {log new : List α} {live live' : α → Bool} (hnew : new.Nodup)
    (hold : ∀ x ∈ log, x ∉ new → live' x = true → live x = true) :
    waiting (log ++ new) live' =
      (waiting log live).filter (fun x => x ∉ new ∧ live' x = true) ++ new.filter live' := by
  unfold waiting
  rw [dedup_append_eq, List.filter_append, hnew.dedup, List.filter_filter, List.filter_filter]
  congr 1
  refine List.filter_congr fun x hx => ?_
  have hx' : x ∈ log := List.mem_dedup.mp hx
  by_cases hxn : x ∈ new
  · simp [hxn]
  · cases hlive : live' x with
    | false => simp
    | true => simp [hxn, hold x hx' hxn hlive]

/-- The queue is sorted by last arrival. -/
theorem waiting_sorted (log : List α) (live : α → Bool) :
    (waiting log live).Pairwise fun x y => log.dedup.idxOf x < log.dedup.idxOf y := by
  have hnodup : log.dedup.Nodup := List.nodup_dedup log
  refine List.Pairwise.filter _ (List.pairwise_iff_getElem.mpr fun i j hi hj hij => ?_)
  rwa [hnodup.idxOf_getElem i hi, hnodup.idxOf_getElem j hj]

omit [DecidableEq α] in
/-- The first item with a property, in a sorted list, comes before all others with
it. -/
theorem find?_before {l : List α} {R : α → α → Prop} (hl : l.Pairwise R) {P : α → Bool} {x : α}
    (h : l.find? P = some x) {y : α} (hy : y ∈ l) (hPy : P y = true) : y = x ∨ R x y := by
  obtain ⟨-, pre, post, rfl, hpre⟩ := List.find?_eq_some_iff_append.mp h
  rcases List.mem_append.mp hy with hmem | hmem
  · have := hpre y hmem
    simp [hPy] at this
  · rcases List.mem_cons.mp hmem with heq | hmem
    · exact .inl heq
    · exact .inr ((List.pairwise_cons.mp (List.pairwise_append.mp hl).2.1).1 y hmem)

end PulSeed
