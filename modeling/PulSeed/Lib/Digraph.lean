import Mathlib.Logic.Relation
import Mathlib.Order.WellFoundedSet
import Mathlib.Algebra.Order.BigOperators.Group.List
import Mathlib.Algebra.Order.Ring.Nat

/-!
# Cycles and searches in directed graphs

A directed graph is a relation; `Acyclic r` says that no nonempty path of `r` returns
to its start. A new edge keeps a relation acyclic exactly when its end does not reach
its start (`Acyclic.insert_iff`), and a smaller relation is acyclic with a larger one.

`search` is the worklist search for a target: a queue of nodes to expand and the nodes
expanded so far, along an adjacency function. Every node is expanded at most once, so a
number of rounds that covers the queue and the adjacency of the nodes left is enough,
and with that many the search decides reachability (`search_iff`).
-/

namespace PulSeed

open Relation

universe u

variable {α : Type u}

/-- No nonempty path returns to its start. -/
def Acyclic (r : α → α → Prop) : Prop := ∀ x, ¬ TransGen r x x

theorem Acyclic.mono {r s : α → α → Prop} (h : Acyclic s) (hle : ∀ x y, r x y → s x y) :
    Acyclic r := fun x hx => h x (TransGen.mono hle _ _ hx)

/-- A path of a relation with one more edge is a path of the relation, or passes the
edge. -/
theorem transGen_insert {r : α → α → Prop} {a b x y : α}
    (h : TransGen (fun u v => r u v ∨ (u = a ∧ v = b)) x y) :
    TransGen r x y ∨ (ReflTransGen r x a ∧ ReflTransGen r b y) ∨ ReflTransGen r b a := by
  induction h with
  | single hxy =>
    rcases hxy with hxy | ⟨rfl, rfl⟩
    · exact .inl (.single hxy)
    · exact .inr (.inl ⟨.refl, .refl⟩)
  | tail _ hyz ih =>
    rcases ih with ih | ⟨hxa, hby⟩ | hba
    · rcases hyz with hyz | ⟨rfl, rfl⟩
      · exact .inl (ih.tail hyz)
      · exact .inr (.inl ⟨ih.to_reflTransGen, .refl⟩)
    · rcases hyz with hyz | ⟨rfl, -⟩
      · exact .inr (.inl ⟨hxa, hby.tail hyz⟩)
      · exact .inr (.inr hby)
    · exact .inr (.inr hba)

/-- **A new edge closes a cycle exactly when its end reaches its start.** -/
theorem Acyclic.insert_iff {r : α → α → Prop} {a b : α} (h : Acyclic r) :
    Acyclic (fun u v => r u v ∨ (u = a ∧ v = b)) ↔ ¬ ReflTransGen r b a := by
  constructor
  · intro hnew hba
    have hback : ReflTransGen (fun u v => r u v ∨ (u = a ∧ v = b)) b a :=
      ReflTransGen.mono (fun _ _ => Or.inl) _ _ hba
    exact hnew a (TransGen.head' (.inr ⟨rfl, rfl⟩) hback)
  · intro hno x hx
    rcases transGen_insert hx with hx | ⟨hxa, hbx⟩ | hba
    · exact h x hx
    · exact hno (hbx.trans hxa)
    · exact hno hba

/-- **An acyclic relation within a finite set is well founded.** -/
theorem Acyclic.wellFounded {r : α → α → Prop} (h : Acyclic r) {s : Set α} (hs : s.Finite)
    (hmem : ∀ x y, r x y → x ∈ s ∧ y ∈ s) : WellFounded r := by
  have : IsStrictOrder α (TransGen r) :=
    { irrefl := h, trans := fun _ _ _ => TransGen.trans }
  have hwf : s.WellFoundedOn (TransGen r) := hs.wellFoundedOn
  rw [Set.wellFoundedOn_iff] at hwf
  exact Subrelation.wf (fun {x y} hxy => ⟨TransGen.single hxy, hmem x y hxy⟩) hwf

/-- A node on a cycle is not accessible. -/
theorem not_acc_of_cycle {r : α → α → Prop} {x : α} (hx : TransGen r x x) : ¬ Acc r x := by
  intro hacc
  have htrans : Acc (TransGen r) x := acc_transGen_iff.mpr hacc
  clear hacc
  induction htrans with
  | intro x _ ih => exact ih x hx hx

/-! ## Searching -/

section Search

variable [DecidableEq α] (adj : α → List α)

/-- The worklist search for `target`, with the nodes expanded so far and the queue;
`none` when the rounds are used up. -/
def search (target : α) : Nat → List α → List α → Option Bool
  | _, _, [] => some false
  | 0, _, _ :: _ => none
  | n + 1, visited, x :: queue =>
    if x = target then some true
    else if x ∈ visited then search target n visited queue
    else search target n (x :: visited) (queue ++ (adj x).filter (· ∉ x :: visited))

variable {adj} {target : α}

/-- What the search finds is reachable from its queue. -/
theorem search_sound {n : Nat} {visited queue : List α}
    (h : search adj target n visited queue = some true) :
    ∃ x ∈ queue, ReflTransGen (fun u v => v ∈ adj u) x target := by
  induction n generalizing visited queue with
  | zero =>
    cases queue with
    | nil => cases h
    | cons x queue => cases h
  | succ n ih =>
    cases queue with
    | nil => cases h
    | cons x queue =>
      unfold search at h
      by_cases hx : x = target
      · exact ⟨x, List.mem_cons_self .., hx ▸ .refl⟩
      · rw [if_neg hx] at h
        split at h
        · obtain ⟨y, hy, hreach⟩ := ih h
          exact ⟨y, List.mem_cons_of_mem _ hy, hreach⟩
        · obtain ⟨y, hy, hreach⟩ := ih h
          rcases List.mem_append.mp hy with hy | hy
          · exact ⟨y, List.mem_cons_of_mem _ hy, hreach⟩
          · exact ⟨x, List.mem_cons_self .., .head (List.mem_filter.mp hy).1 hreach⟩

/-- The search has not missed anything: the target is not expanded, and what an expanded
node leads to is expanded or in the queue. -/
structure Explored (adj : α → List α) (target : α) (visited queue : List α) : Prop where
  target : target ∉ visited
  next : ∀ u ∈ visited, ∀ v ∈ adj u, v ∈ visited ∨ v ∈ queue

/-- A search that finds nothing ends with a closed set of expanded nodes. -/
theorem search_closed {n : Nat} {visited queue : List α}
    (h : search adj target n visited queue = some false)
    (hexplored : Explored adj target visited queue) :
    ∃ closed, (∀ x, x ∈ visited ∨ x ∈ queue → x ∈ closed) ∧ Explored adj target closed [] := by
  induction n generalizing visited queue with
  | zero =>
    cases queue with
    | nil => exact ⟨visited, by simp, hexplored⟩
    | cons y queue => cases h
  | succ n ih =>
    cases queue with
    | nil => exact ⟨visited, by simp, hexplored⟩
    | cons y queue =>
      unfold search at h
      by_cases hy : y = target
      · rw [if_pos hy] at h
        cases h
      · rw [if_neg hy] at h
        split at h
        · next hvisited =>
          -- `y` was expanded before: dropping it loses nothing
          have hmem : ∀ v, v ∈ visited ∨ v ∈ y :: queue → v ∈ visited ∨ v ∈ queue := by
            rintro v (hv | hv)
            · exact .inl hv
            · rcases List.mem_cons.mp hv with rfl | hv
              · exact .inl hvisited
              · exact .inr hv
          obtain ⟨closed, hsub, hclosed⟩ := ih h
            ⟨hexplored.target, fun u hu v hv => hmem v (hexplored.next u hu v hv)⟩
          exact ⟨closed, fun x hx => hsub x (hmem x hx), hclosed⟩
        · have hmem : ∀ v, v ∈ visited ∨ v ∈ y :: queue ∨ v ∈ adj y →
              v ∈ y :: visited ∨ v ∈ queue ++ (adj y).filter (· ∉ y :: visited) := by
            intro v hv
            by_cases hv' : v ∈ y :: visited
            · exact .inl hv'
            · refine .inr (List.mem_append.mpr ?_)
              rcases hv with hv | hv | hv
              · exact absurd (List.mem_cons_of_mem _ hv) hv'
              · rcases List.mem_cons.mp hv with rfl | hv
                · exact absurd (List.mem_cons_self ..) hv'
                · exact .inl hv
              · exact .inr (List.mem_filter.mpr ⟨hv, by simpa using hv'⟩)
          obtain ⟨closed, hsub, hclosed⟩ := ih h ⟨by
              rw [List.mem_cons, not_or]
              exact ⟨fun h => hy h.symm, hexplored.target⟩, fun u hu v hv => by
              rcases List.mem_cons.mp hu with rfl | hu
              · exact hmem v (.inr (.inr hv))
              · rcases hexplored.next u hu v hv with hv | hv
                · exact hmem v (.inl hv)
                · exact hmem v (.inr (.inl hv))⟩
          refine ⟨closed, fun x hx => hsub x (hmem x ?_), hclosed⟩
          rcases hx with hx | hx
          · exact .inl hx
          · exact .inr (.inl hx)

/-- What the search does not find is not reachable from its queue. -/
theorem search_complete {n : Nat} {queue : List α}
    (h : search adj target n [] queue = some false) {x : α} (hx : x ∈ queue) :
    ¬ ReflTransGen (fun u v => v ∈ adj u) x target := by
  obtain ⟨closed, hsub, hclosed⟩ := search_closed h ⟨by simp, by simp⟩
  intro hreach
  have hall : ∀ y, ReflTransGen (fun u v => v ∈ adj u) x y → y ∈ closed := by
    intro y hy
    induction hy with
    | refl => exact hsub x (.inr hx)
    | tail _ hstep ih => simpa using hclosed.next _ ih _ hstep
  exact hclosed.target (hall target hreach)

/-- The adjacency of the nodes of `sources` that are not expanded yet. -/
def unexpanded (adj : α → List α) (sources visited : List α) : Nat :=
  (sources.map fun x => if x ∈ visited then 0 else (adj x).length).sum

theorem unexpanded_le (sources visited : List α) (y : α) :
    unexpanded adj sources (y :: visited) ≤ unexpanded adj sources visited := by
  refine List.sum_le_sum fun x _ => ?_
  by_cases hx : x ∈ visited
  · simp [hx]
  · by_cases hxy : x = y
    · simp [hxy]
    · simp [hx, hxy]

theorem unexpanded_cons {sources visited : List α} {y : α} (hy : y ∉ visited)
    (hsources : adj y ≠ [] → y ∈ sources) :
    unexpanded adj sources (y :: visited) + (adj y).length ≤ unexpanded adj sources visited := by
  induction sources with
  | nil =>
    have hnil : adj y = [] := by
      by_contra hne
      exact absurd (hsources hne) (by simp)
    simp [unexpanded, hnil]
  | cons z sources ih =>
    have hsplit : ∀ visited, unexpanded adj (z :: sources) visited =
        (if z ∈ visited then 0 else (adj z).length) + unexpanded adj sources visited :=
      fun _ => List.sum_cons
    rw [hsplit, hsplit]
    by_cases hz : z = y
    · have hle := (unexpanded_le sources visited y : unexpanded adj _ _ ≤ _)
      rw [hz, if_pos (List.mem_cons_self ..), if_neg hy]
      omega
    · have hrec := ih fun hne => (List.mem_cons.mp (hsources hne)).resolve_left (Ne.symm hz)
      by_cases hzv : z ∈ visited
      · rw [if_pos (List.mem_cons_of_mem _ hzv), if_pos hzv]
        omega
      · rw [if_neg (by simp [hz, hzv]), if_neg hzv]
        omega

/-- **Enough rounds**: the queue and the adjacency of the nodes that are left. -/
theorem search_isSome {sources : List α} (hsources : ∀ y, adj y ≠ [] → y ∈ sources) {n : Nat}
    {visited queue : List α} (hn : queue.length + unexpanded adj sources visited ≤ n) :
    (search adj target n visited queue).isSome = true := by
  induction n generalizing visited queue with
  | zero =>
    cases queue with
    | nil => rfl
    | cons y queue => simp at hn
  | succ n ih =>
    cases queue with
    | nil => rfl
    | cons y queue =>
      unfold search
      split
      · rfl
      · split
        · refine ih ?_
          simp only [List.length_cons] at hn
          omega
        · next hy =>
          refine ih ?_
          have hless := unexpanded_cons hy (hsources y)
          have hfilter : ((adj y).filter (· ∉ y :: visited)).length ≤ (adj y).length :=
            List.length_filter_le ..
          rw [List.length_append]
          simp only [List.length_cons] at hn
          omega

/-- **The search decides reachability**, given the rounds for it. -/
theorem search_iff {sources : List α} (hsources : ∀ y, adj y ≠ [] → y ∈ sources) {n : Nat}
    {x : α} (hn : 1 + unexpanded adj sources [] ≤ n) :
    search adj target n [] [x] = some true ↔ ReflTransGen (fun u v => v ∈ adj u) x target := by
  constructor
  · intro h
    obtain ⟨y, hy, hreach⟩ := search_sound h
    exact List.mem_singleton.mp hy ▸ hreach
  · intro hreach
    have hsome : (search adj target n [] [x]).isSome = true := search_isSome hsources hn
    obtain ⟨b, hb⟩ := Option.isSome_iff_exists.mp hsome
    cases b with
    | true => exact hb
    | false => exact absurd hreach (search_complete hb (List.mem_singleton_self x))

end Search

end PulSeed
