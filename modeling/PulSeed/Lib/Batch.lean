import Mathlib.Data.List.Nodup

/-!
# Batches that are run out of order

The jobs of a batch read and change a shared state, and each has an outcome. They can be run
one after another (`runAll`), or in passes over the batch (`batch`): the jobs whose outcome
is known beforehand, then those that may run in parallel, then the others; the outcomes are
put in the slots of their jobs.

When only the jobs of the last pass change the state, the passes give the same outcomes as
the run in order **exactly when every job that may run in parallel has the same outcome in the
state before the batch and in the state that the jobs before it leave** (`batch_eq_iff`).
-/

namespace PulSeed.Batch

universe u v w

variable {J : Type u} {O : Type v} {W : Type w}

/-- The outcomes of jobs that are run one after another, and the state they leave. -/
def runAll (exec : J → W → O × W) : List J → W → List O × W
  | [], s => ([], s)
  | j :: jobs, s =>
    ((exec j s).1 :: (runAll exec jobs (exec j s).2).1, (runAll exec jobs (exec j s).2).2)

/-- Put outcomes in the slots with their numbers. -/
def scatter (slots : List (Option O)) (outcomes : List (ℕ × O)) : List (Option O) :=
  outcomes.foldl (fun slots outcome => slots.set outcome.1 (some outcome.2)) slots

/-- The jobs with `p`, with their numbers, of which the first is `first`. -/
def selected (p : J → Bool) (jobs : List J) (first : ℕ) : List (J × ℕ) :=
  (jobs.zipIdx first).filter fun job => p job.1

/-- One pass: the jobs with `p` run one after another. -/
def pass (exec : J → W → O × W) (p : J → Bool) (jobs : List J) (first : ℕ) (s : W) :
    List (ℕ × O) × W :=
  let outcome := runAll exec ((selected p jobs first).map (·.1)) s
  (((selected p jobs first).map (·.2)).zip outcome.1, outcome.2)

/-- The passes of a batch. -/
def batch (exec : J → W → O × W) (settled parallel : J → Bool) (jobs : List J) (s : W) :
    List (Option O) × W :=
  let known := pass exec settled jobs 0 s
  let early := pass exec (fun j => !settled j && parallel j) jobs 0 known.2
  let late := pass exec (fun j => !settled j && !parallel j) jobs 0 early.2
  (scatter (scatter (scatter (List.replicate jobs.length none) known.1) early.1) late.1, late.2)

variable {exec : J → W → O × W} {p settled parallel : J → Bool}

/-! ## Runs in order -/

theorem runAll_length (exec : J → W → O × W) (jobs : List J) (s : W) :
    (runAll exec jobs s).1.length = jobs.length := by
  induction jobs generalizing s with
  | nil => rfl
  | cons j jobs ih =>
    unfold runAll
    rw [List.length_cons, List.length_cons, ih]

/-- The outcome of a job in the state that the jobs before it leave. -/
theorem runAll_getElem? (before : List J) (j : J) (after : List J) (s : W) :
    (runAll exec (before ++ j :: after) s).1[before.length]? =
      some (exec j (runAll exec before s).2).1 := by
  induction before generalizing s with
  | nil => rfl
  | cons k before ih => exact ih (exec k s).2

/-- Jobs that do not change the state may be left out. -/
theorem runAll_filter_state (hrest : ∀ j s, p j = false → (exec j s).2 = s) (jobs : List J)
    (s : W) : (runAll exec (jobs.filter p) s).2 = (runAll exec jobs s).2 := by
  induction jobs generalizing s with
  | nil => rfl
  | cons j jobs ih =>
    rw [List.filter_cons]
    cases hp : p j with
    | true => exact ih (exec j s).2
    | false =>
      rw [if_neg Bool.false_ne_true, ih]
      show _ = (runAll exec jobs (exec j s).2).2
      rw [hrest j s hp]

theorem runAll_state_of_forall {jobs : List J} (h : ∀ j ∈ jobs, ∀ s, (exec j s).2 = s) (s : W) :
    (runAll exec jobs s).2 = s := by
  induction jobs generalizing s with
  | nil => rfl
  | cons j jobs ih =>
    show (runAll exec jobs (exec j s).2).2 = s
    rw [h j List.mem_cons_self, ih fun k hk => h k (List.mem_cons_of_mem _ hk)]

/-! ## One pass -/

theorem pass_cons (exec : J → W → O × W) (p : J → Bool) (j : J) (jobs : List J) (first : ℕ)
    (s : W) :
    pass exec p (j :: jobs) first s =
      if p j = true then
        ((first, (exec j s).1) :: (pass exec p jobs (first + 1) (exec j s).2).1,
          (pass exec p jobs (first + 1) (exec j s).2).2)
      else pass exec p jobs (first + 1) s := by
  unfold pass selected
  rw [List.zipIdx_cons, List.filter_cons]
  split <;> rfl

/-- The state after a pass. -/
theorem pass_state (exec : J → W → O × W) (p : J → Bool) (jobs : List J) (first : ℕ) (s : W) :
    (pass exec p jobs first s).2 = (runAll exec (jobs.filter p) s).2 := by
  induction jobs generalizing first s with
  | nil => rfl
  | cons j jobs ih =>
    rw [pass_cons, List.filter_cons]
    split
    · exact ih (first + 1) (exec j s).2
    · exact ih (first + 1) s

/-- A pass has outcomes for its own numbers only. -/
theorem pass_lookup_lt (exec : J → W → O × W) (p : J → Bool) (jobs : List J) {first i : ℕ}
    (hi : i < first) (s : W) : (pass exec p jobs first s).1.lookup i = none := by
  induction jobs generalizing first s with
  | nil => rfl
  | cons j jobs ih =>
    rw [pass_cons]
    split
    · rw [List.lookup_cons, beq_eq_false_iff_ne.mpr (Nat.ne_of_lt hi)]
      exact ih (Nat.lt_succ_of_lt hi) _
    · exact ih (Nat.lt_succ_of_lt hi) s

/-- **The outcome of a job in a pass** is that in the state which the jobs of the pass before
it leave. -/
theorem pass_lookup (exec : J → W → O × W) (p : J → Bool) (before : List J) (j : J)
    (after : List J) (first : ℕ) (s : W) :
    (pass exec p (before ++ j :: after) first s).1.lookup (first + before.length) =
      if p j = true then some (exec j (runAll exec (before.filter p) s).2).1 else none := by
  induction before generalizing first s with
  | nil =>
    rw [List.nil_append, pass_cons]
    split
    · exact List.lookup_cons_self
    · exact pass_lookup_lt exec p after (Nat.lt_succ_self first) s
  | cons k before ih =>
    have hne : (first + (k :: before).length == first) = false := by
      rw [beq_eq_false_iff_ne, List.length_cons]
      omega
    rw [List.cons_append, pass_cons, List.filter_cons]
    split
    · rw [List.lookup_cons, hne, List.length_cons, Nat.add_comm before.length, ← Nat.add_assoc]
      exact ih (first + 1) (exec k s).2
    · rw [List.length_cons, Nat.add_comm before.length, ← Nat.add_assoc]
      exact ih (first + 1) s

theorem pass_keys_nodup (exec : J → W → O × W) (p : J → Bool) (jobs : List J) (first : ℕ)
    (s : W) : ((pass exec p jobs first s).1.map Prod.fst).Nodup := by
  unfold pass
  have hlen : ((selected p jobs first).map (·.2)).length ≤
      (runAll exec ((selected p jobs first).map (·.1)) s).1.length := by
    simp only [runAll_length, List.length_map, Nat.le_refl]
  rw [List.map_fst_zip hlen]
  refine ((List.filter_sublist (l := jobs.zipIdx first)).map Prod.snd).nodup ?_
  rw [List.zipIdx_map_snd]
  exact List.nodup_range'

/-! ## Slots -/

theorem scatter_length (slots : List (Option O)) (outcomes : List (ℕ × O)) :
    (scatter slots outcomes).length = slots.length := by
  unfold scatter
  induction outcomes generalizing slots with
  | nil => rfl
  | cons outcome outcomes ih => rw [List.foldl_cons, ih, List.length_set]

/-- **What is in a slot**: the outcome with its number, and otherwise what was in it. -/
theorem scatter_getElem? {slots : List (Option O)} {outcomes : List (ℕ × O)}
    (hnodup : (outcomes.map Prod.fst).Nodup) (i : ℕ) :
    (scatter slots outcomes)[i]? = slots[i]?.map fun slot => (outcomes.lookup i).or slot := by
  unfold scatter
  induction outcomes generalizing slots with
  | nil => simp
  | cons outcome outcomes ih =>
    obtain ⟨k, o⟩ := outcome
    obtain ⟨hk, hnodup⟩ := List.nodup_cons.mp hnodup
    rw [List.foldl_cons, ih hnodup, List.lookup_cons, List.getElem?_set]
    by_cases hki : k = i
    · subst hki
      have hnone : outcomes.lookup k = none := by
        rw [List.lookup_eq_none_iff]
        intro entry hentry
        rw [bne_iff_ne]
        rintro rfl
        exact hk (List.mem_map.mpr ⟨entry, hentry, rfl⟩)
      rw [if_pos rfl, hnone]
      cases hslot : slots[k]? with
      | none =>
        rw [if_neg (by rwa [List.getElem?_eq_none_iff, Nat.not_lt.symm] at hslot)]
        rfl
      | some slot =>
        rw [if_pos (List.getElem?_eq_some_iff.mp hslot).1]
        simp
    · rw [if_neg hki, beq_eq_false_iff_ne.mpr (Ne.symm hki)]

/-! ## Batches -/

/-- The last pass changes the state, and no other job does. -/
structure ReadsOnly (exec : J → W → O × W) (settled parallel : J → Bool) : Prop where
  known : ∀ j, settled j = true → ∃ o, ∀ s, exec j s = (o, s)
  reads : ∀ j s, settled j = false → parallel j = true → (exec j s).2 = s

theorem ReadsOnly.state (h : ReadsOnly exec settled parallel) (j : J) (s : W)
    (hj : (!settled j && !parallel j) = false) : (exec j s).2 = s := by
  cases hsettled : settled j with
  | true =>
    obtain ⟨o, ho⟩ := h.known j hsettled
    rw [ho]
  | false =>
    rw [hsettled] at hj
    exact h.reads j s hsettled (by simpa using hj)

theorem ReadsOnly.pass_state (h : ReadsOnly exec settled parallel) {p : J → Bool}
    (hp : ∀ j, p j = true → (!settled j && !parallel j) = false) (jobs : List J) (s : W) :
    (runAll exec (jobs.filter p) s).2 = s :=
  runAll_state_of_forall (fun j hj s => h.state j s (hp j (List.mem_filter.mp hj).2)) s

theorem settled_reads (j : J) (hj : settled j = true) : (!settled j && !parallel j) = false := by
  rw [hj]
  rfl

theorem early_reads (j : J) (hj : (!settled j && parallel j) = true) :
    (!settled j && !parallel j) = false := by
  rw [Bool.and_eq_true] at hj
  rw [hj.2, Bool.not_true, Bool.and_false]

theorem batch_length (exec : J → W → O × W) (settled parallel : J → Bool) (jobs : List J)
    (s : W) : (batch exec settled parallel jobs s).1.length = jobs.length := by
  unfold batch
  dsimp only
  rw [scatter_length, scatter_length, scatter_length, List.length_replicate]

/-- **The slot of a job** holds its outcome, in the state before the batch if it may run in
parallel, and in the state that the jobs before it leave otherwise. -/
theorem batch_getElem? (h : ReadsOnly exec settled parallel) (before : List J) (j : J)
    (after : List J) (s : W) :
    (batch exec settled parallel (before ++ j :: after) s).1[before.length]? =
      some (some (exec j (if settled j = false ∧ parallel j = true then s
        else (runAll exec before s).2)).1) := by
  have hslot : (List.replicate (before ++ j :: after).length (none : Option O))[before.length]? =
      some none := by
    rw [List.getElem?_replicate, if_pos (by rw [List.length_append, List.length_cons]; omega)]
  -- a pass is looked up at the number of the job
  have hlookup : ∀ (p : J → Bool) (t : W),
      (pass exec p (before ++ j :: after) 0 t).1.lookup before.length =
        if p j = true then some (exec j (runAll exec (before.filter p) t).2).1 else none := by
    intro p t
    have hpass := pass_lookup exec p before j after 0 t
    rwa [Nat.zero_add] at hpass
  unfold batch
  dsimp only
  rw [scatter_getElem? (pass_keys_nodup ..), scatter_getElem? (pass_keys_nodup ..),
    scatter_getElem? (pass_keys_nodup ..), hslot, hlookup, hlookup, hlookup, Batch.pass_state,
    Batch.pass_state, h.pass_state settled_reads, h.pass_state early_reads,
    h.pass_state settled_reads, h.pass_state early_reads, runAll_filter_state h.state]
  cases hsettled : settled j with
  | true =>
    obtain ⟨o, ho⟩ := h.known j hsettled
    simp [ho]
  | false => cases hparallel : parallel j <;> simp

/-- **The passes give the outcomes of the run in order exactly when every job that may run in
parallel has the same outcome in the state before the batch and in its turn.** -/
theorem batch_eq_iff (h : ReadsOnly exec settled parallel) (jobs : List J) (s : W) :
    (batch exec settled parallel jobs s).1 = (runAll exec jobs s).1.map some ↔
      ∀ before j after, jobs = before ++ j :: after → settled j = false → parallel j = true →
        (exec j s).1 = (exec j (runAll exec before s).2).1 := by
  constructor
  · rintro heq before j after rfl hsettled hparallel
    have hget := congrArg (·[before.length]?) heq
    rw [batch_getElem? h, List.getElem?_map, runAll_getElem?, if_pos ⟨hsettled, hparallel⟩] at hget
    simpa using hget
  · intro hsame
    apply List.ext_getElem?
    intro i
    by_cases hi : i < jobs.length
    · obtain ⟨before, after, hjobs, rfl⟩ : ∃ before after, jobs = before ++ jobs[i] :: after ∧
          before.length = i := by
        refine ⟨jobs.take i, jobs.drop (i + 1), ?_, List.length_take_of_le (Nat.le_of_lt hi)⟩
        rw [List.getElem_cons_drop, List.take_append_drop]
      generalize jobs[before.length] = j at hjobs
      subst hjobs
      rw [batch_getElem? h, List.getElem?_map, runAll_getElem?]
      split
      · next hearly => rw [hsame before j after rfl hearly.1 hearly.2, Option.map_some]
      · rw [Option.map_some]
    · have hi : jobs.length ≤ i := Nat.not_lt.mp hi
      rw [List.getElem?_eq_none (by rwa [batch_length]),
        List.getElem?_eq_none (by rwa [List.length_map, runAll_length])]

end PulSeed.Batch
