import Mathlib.Data.List.Induction

/-!
# Labelled transition systems and their runs

Every component of the development is a labelled transition system: states, and
steps that carry a label saying what was requested and what was answered. A
`Run` is a finite sequence of steps with the list of its labels, the *history*.

The two proof rules used throughout are `Run.invariant` (a predicate kept by
every step holds at the end of every run) and `Run.history` (the same for a
relation between the history and the state, which is what statements about
"ever before" and "since" need). `Run.append_iff` cuts a run in two. A component
given by a total function is a system by `LTS.ofFn`, a partial one by
`LTS.ofPartial`.
-/

namespace PulSeed

universe u v w

/-- A labelled transition system over states `S` with labels `L`. -/
structure LTS (S : Type u) (L : Type v) where
  step : S → L → S → Prop

namespace LTS

variable {S : Type u} {L : Type v} {T : LTS S L}

/-- `T.Run s ls s'`: performing the labels `ls` in order leads from `s` to `s'`. -/
inductive Run (T : LTS S L) (s : S) : List L → S → Prop
  | nil : Run T s [] s
  | snoc {ls : List L} {s' s'' : S} {l : L} :
      Run T s ls s' → T.step s' l s'' → Run T s (ls ++ [l]) s''

theorem Run.single {s s' : S} {l : L} (h : T.step s l s') : T.Run s [l] s' :=
  Run.snoc Run.nil h

theorem Run.append {s s' s'' : S} {ls ls' : List L} (h : T.Run s ls s')
    (h' : T.Run s' ls' s'') : T.Run s (ls ++ ls') s'' := by
  induction h' with
  | nil => simpa using h
  | snoc _ hstep ih => simpa [List.append_assoc] using Run.snoc ih hstep

theorem Run.cons {s s' s'' : S} {l : L} {ls : List L} (h : T.step s l s')
    (h' : T.Run s' ls s'') : T.Run s (l :: ls) s'' :=
  Run.append (Run.single h) h'

/-- A nonempty run ends with a step. -/
theorem Run.snoc_inv {s s'' : S} {ls : List L} {l : L} (h : T.Run s (ls ++ [l]) s'') :
    ∃ s', T.Run s ls s' ∧ T.step s' l s'' := by
  generalize heq : ls ++ [l] = ks at h
  cases h with
  | nil => simp at heq
  | snoc hrun hstep =>
    obtain ⟨rfl, hl⟩ := List.append_inj' heq rfl
    cases hl
    exact ⟨_, hrun, hstep⟩

theorem Run.nil_inv {s s' : S} (h : T.Run s [] s') : s' = s := by
  generalize heq : ([] : List L) = ks at h
  cases h with
  | nil => rfl
  | snoc _ _ => simp at heq

/-- **A run over a concatenation passes through a middle state.** -/
theorem Run.append_iff {s s'' : S} {ls ls' : List L} :
    T.Run s (ls ++ ls') s'' ↔ ∃ s', T.Run s ls s' ∧ T.Run s' ls' s'' := by
  constructor
  · intro h
    induction ls' using List.reverseRecOn generalizing s'' with
    | nil => exact ⟨s'', by simpa using h, Run.nil⟩
    | append_singleton ls' l ih =>
      rw [← List.append_assoc] at h
      obtain ⟨m, hrun, hstep⟩ := h.snoc_inv
      obtain ⟨s', h₁, h₂⟩ := ih hrun
      exact ⟨s', h₁, h₂.snoc hstep⟩
  · rintro ⟨s', h₁, h₂⟩
    exact h₁.append h₂

theorem Run.cons_iff {s s'' : S} {l : L} {ls : List L} :
    T.Run s (l :: ls) s'' ↔ ∃ s', T.step s l s' ∧ T.Run s' ls s'' := by
  constructor
  · intro h
    obtain ⟨s', h₁, h₂⟩ := Run.append_iff.mp (show T.Run s ([l] ++ ls) s'' from h)
    obtain ⟨m, hm, hstep⟩ := Run.snoc_inv (show T.Run s ([] ++ [l]) s' from h₁)
    obtain rfl := hm.nil_inv
    exact ⟨s', hstep, h₂⟩
  · rintro ⟨s', h₁, h₂⟩
    exact h₂.cons h₁

/-- **Invariant rule**: what holds at the start and is kept by every step holds
at the end. -/
theorem Run.invariant {P : S → Prop} {s s' : S} {ls : List L} (h : T.Run s ls s')
    (h₀ : P s) (hstep : ∀ a l b, T.step a l b → P a → P b) : P s' := by
  induction h with
  | nil => exact h₀
  | snoc _ hs ih => exact hstep _ _ _ hs ih

/-- **History rule**: a relation between history and state that holds at the
start and is kept when a step extends the history holds at the end. -/
theorem Run.history {P : List L → S → Prop} {s s' : S} {ls : List L} (h : T.Run s ls s')
    (h₀ : P [] s)
    (hstep : ∀ hist a l b, T.Run s hist a → T.step a l b → P hist a → P (hist ++ [l]) b) :
    P ls s' := by
  induction h with
  | nil => exact h₀
  | snoc hrun hs ih => exact hstep _ _ _ _ hrun hs ih

/-- `T.Always s ls P`: along the run of `ls` from `s`, every step satisfies the
condition `P` on the state before it and its label. -/
def Always (T : LTS S L) (s : S) (ls : List L) (P : S → L → Prop) : Prop :=
  ∀ ks l rest a, ls = ks ++ l :: rest → T.Run s ks a → P a l

theorem Always.init {s : S} {ls : List L} {l : L} {P : S → L → Prop}
    (h : T.Always s (ls ++ [l]) P) : T.Always s ls P := fun ks l' rest a hsplit hks =>
  h ks l' (rest ++ [l]) a (by simp [hsplit]) hks

theorem Always.take {s : S} {ls ls' : List L} {P : S → L → Prop}
    (h : T.Always s (ls ++ ls') P) : T.Always s ls P := fun ks l rest a hsplit hks =>
  h ks l (rest ++ ls') a (by simp [hsplit]) hks

theorem Always.last {s s' : S} {ls : List L} {l : L} {P : S → L → Prop}
    (h : T.Always s (ls ++ [l]) P) (hrun : T.Run s ls s') : P s' l :=
  h ls l [] s' rfl hrun

/-- A condition on every step of a run is one on every step of a later part of it. -/
theorem Always.drop {s m : S} {ls ls' : List L} {P : S → L → Prop}
    (h : T.Always s (ls ++ ls') P) (hrun : T.Run s ls m) : T.Always m ls' P :=
  fun ks l rest a hsplit hks => h (ls ++ ks) l rest a (by simp [hsplit]) (hrun.append hks)

/-- **Guarded invariant rule**: as `Run.invariant`, where each step of the run
may rely on a condition on the state before it and its label. -/
theorem Run.guarded {P : S → Prop} {C : S → L → Prop} {s s' : S} {ls : List L}
    (h : T.Run s ls s') (h₀ : P s) (hcond : T.Always s ls C)
    (hstep : ∀ a l b, T.step a l b → C a l → P a → P b) : P s' := by
  induction h with
  | nil => exact h₀
  | snoc hrun hs ih => exact hstep _ _ _ hs (hcond.last hrun) (ih hcond.init)

/-- `T.Throughout s ls P`: along the run of `ls` from `s`, every state reached, the first
and the last included, satisfies `P`. -/
def Throughout (T : LTS S L) (s : S) (ls : List L) (P : S → Prop) : Prop :=
  ∀ ks rest m, ls = ks ++ rest → T.Run s ks m → P m

/-- The guarded invariant rule, for every state on the way. -/
theorem Throughout.guarded {P : S → Prop} {C : S → L → Prop} {s : S} {ls : List L}
    (h₀ : P s) (hcond : T.Always s ls C)
    (hstep : ∀ a l b, T.step a l b → C a l → P a → P b) : T.Throughout s ls P := by
  rintro ks rest m rfl hks
  exact hks.guarded h₀ hcond.take hstep

/-! ## Systems given by functions -/

section Functional

variable {I : Type v} {O : Type w}

/-- The system of a total step function: labels pair a request with its answer. -/
def ofFn (f : S → I → S × O) : LTS S (I × O) where
  step s l s' := f s l.1 = (s', l.2)

/-- The system of a partial step function: a label without a result is disabled. -/
def ofPartial (f : S → L → Option S) : LTS S L where
  step s l s' := f s l = some s'

/-- The history and the final state of a list of requests. -/
def exec (f : S → I → S × O) (s : S) : List I → List (I × O) × S
  | [] => ([], s)
  | i :: is => ((i, (f s i).2) :: (exec f (f s i).1 is).1, (exec f (f s i).1 is).2)

theorem run_exec (f : S → I → S × O) (s : S) (is : List I) :
    (ofFn f).Run s (exec f s is).1 (exec f s is).2 := by
  induction is generalizing s with
  | nil => exact Run.nil
  | cons i is ih => exact Run.cons (l := (i, (f s i).2)) rfl (ih (f s i).1)

theorem exec_append (f : S → I → S × O) (s : S) (is js : List I) :
    exec f s (is ++ js) =
      ((exec f s is).1 ++ (exec f (exec f s is).2 js).1, (exec f (exec f s is).2 js).2) := by
  induction is generalizing s with
  | nil => rfl
  | cons i is ih => simp only [List.cons_append, exec, ih]

/-- A total step function determines the end of its runs. -/
theorem Run.unique {f : S → I → S × O} {s a b : S} {ls : List (I × O)}
    (ha : (ofFn f).Run s ls a) (hb : (ofFn f).Run s ls b) : a = b := by
  induction ls generalizing s with
  | nil => rw [ha.nil_inv, hb.nil_inv]
  | cons l ls ih =>
    obtain ⟨m, hm, ha'⟩ := Run.cons_iff.mp ha
    obtain ⟨m', hm', hb'⟩ := Run.cons_iff.mp hb
    have hmm : m = m' := congrArg Prod.fst (Eq.trans (Eq.symm hm) hm')
    exact ih ha' (hmm ▸ hb')

/-- **Exact invariant rule**: when a step from a state with `P` keeps `P` exactly under
the condition `C`, a run that starts with `P` has it throughout exactly when all its
steps meet `C`. -/
theorem Run.throughout_iff {f : S → I → S × O} {P : S → Prop} {C : S → I × O → Prop}
    {s s' : S} {ls : List (I × O)} (h : (ofFn f).Run s ls s') (h₀ : P s)
    (hstep : ∀ a i, P a → (P (f a i).1 ↔ C a (i, (f a i).2))) :
    (ofFn f).Throughout s ls P ↔ (ofFn f).Always s ls C := by
  constructor
  · intro hall ks l rest a hsplit hks
    have hlast : P a := hall ks (l :: rest) a hsplit hks
    obtain ⟨m, hm, hrest⟩ := Run.append_iff.mp (hsplit ▸ h)
    obtain ⟨b, hb, -⟩ := Run.cons_iff.mp hrest
    obtain rfl := Run.unique hm hks
    have hb : f m l.1 = (b, l.2) := hb
    have hnext : P (f m l.1).1 := by
      rw [hb]
      exact hall (ks ++ [l]) rest b (by simp [hsplit]) (hks.snoc (show (ofFn f).step m l b from hb))
    have hcond := (hstep m l.1 hlast).mp hnext
    rwa [show (f m l.1).2 = l.2 by rw [hb]] at hcond
  · refine fun hall => Throughout.guarded h₀ hall ?_
    rintro a l b hab hcond hP
    have hab : f a l.1 = (b, l.2) := hab
    have hnext := (hstep a l.1 hP).mpr (by rwa [show (f a l.1).2 = l.2 by rw [hab]])
    rwa [hab] at hnext

/-- The exact invariant rule, where each step may rely on what every step keeps. -/
theorem Run.throughout_iff_of_inv {f : S → I → S × O} {J P : S → Prop} {C : S → I × O → Prop}
    {s s' : S} {ls : List (I × O)} (h : (ofFn f).Run s ls s') (hinv₀ : J s)
    (hinv : ∀ a i, J a → J (f a i).1) (h₀ : P s)
    (hstep : ∀ a i, J a → P a → (P (f a i).1 ↔ C a (i, (f a i).2))) :
    (ofFn f).Throughout s ls P ↔ (ofFn f).Always s ls C := by
  have hall : (ofFn f).Throughout s ls J := by
    rintro ks rest m - hks
    refine hks.invariant hinv₀ fun a l b hab ha => ?_
    have hb : (f a l.1).1 = b := congrArg Prod.fst hab
    exact hb ▸ hinv a l.1 ha
  rw [← h.throughout_iff (P := fun s => J s ∧ P s) ⟨hinv₀, h₀⟩
    fun a i ha => (and_iff_right (hinv a i ha.1)).trans (hstep a i ha.1 ha.2)]
  exact ⟨fun hP ks rest m hsplit hks => ⟨hall ks rest m hsplit hks, hP ks rest m hsplit hks⟩,
    fun hboth ks rest m hsplit hks => (hboth ks rest m hsplit hks).2⟩

/-- A condition on every step of the execution of a list of requests. -/
def ExecAlways (f : S → I → S × O) (P : S → I × O → Prop) (s : S) : List I → Prop
  | [] => True
  | i :: is => P s (i, (f s i).2) ∧ ExecAlways f P (f s i).1 is

instance ExecAlways.decidable (f : S → I → S × O) (P : S → I × O → Prop)
    [∀ s l, Decidable (P s l)] : ∀ (s : S) (is : List I), Decidable (ExecAlways f P s is)
  | _, [] => instDecidableTrue
  | s, i :: is =>
    haveI := ExecAlways.decidable f P (f s i).1 is
    inferInstanceAs (Decidable (P s (i, (f s i).2) ∧ ExecAlways f P (f s i).1 is))

theorem ExecAlways.always {f : S → I → S × O} {P : S → I × O → Prop} {s : S} {is : List I}
    (h : ExecAlways f P s is) : (ofFn f).Always s (exec f s is).1 P := by
  induction is generalizing s with
  | nil =>
    intro ks l rest a hsplit _
    simp [exec] at hsplit
  | cons i is ih =>
    intro ks l rest a hsplit hrun
    cases ks with
    | nil =>
      obtain ⟨rfl, -⟩ := List.cons.inj hsplit
      obtain rfl := hrun.nil_inv
      exact h.1
    | cons k ks =>
      obtain ⟨rfl, hrest⟩ := List.cons.inj hsplit
      obtain ⟨m, hstep, hks⟩ := Run.cons_iff.mp hrun
      obtain rfl : (f s i).1 = m := congrArg Prod.fst hstep
      exact ih h.2 ks l rest a hrest hks

/-- The final state of a list of labels of a partial step function. -/
def execPartial (f : S → L → Option S) (s : S) : List L → Option S
  | [] => some s
  | l :: ls => (f s l).bind fun s' => execPartial f s' ls

theorem run_execPartial {f : S → L → Option S} {s s' : S} {ls : List L}
    (h : execPartial f s ls = some s') : (ofPartial f).Run s ls s' := by
  induction ls generalizing s with
  | nil => cases h; exact Run.nil
  | cons l ls ih =>
    obtain ⟨m, hm, hrest⟩ := Option.bind_eq_some_iff.mp h
    exact Run.cons hm (ih hrest)

/-- A partial step function determines the end of its runs. -/
theorem execPartial_of_run {f : S → L → Option S} {s s' : S} {ls : List L}
    (h : (ofPartial f).Run s ls s') : execPartial f s ls = some s' := by
  induction ls generalizing s with
  | nil => rw [h.nil_inv]; rfl
  | cons l ls ih =>
    obtain ⟨m, hstep, hrest⟩ := Run.cons_iff.mp h
    have hstep : f s l = some m := hstep
    simp [execPartial, hstep, ih hrest]

theorem Run.unique_partial {f : S → L → Option S} {s a b : S} {ls : List L}
    (ha : (ofPartial f).Run s ls a) (hb : (ofPartial f).Run s ls b) : a = b :=
  Option.some.inj ((execPartial_of_run ha).symm.trans (execPartial_of_run hb))

/-- Every label of a run of a partial step function is enabled where the run reaches it. -/
theorem Run.enabled {f : S → L → Option S} {s s' a : S} {ls ks rest : List L} {l : L}
    (h : (ofPartial f).Run s ls s') (hsplit : ls = ks ++ l :: rest)
    (hks : (ofPartial f).Run s ks a) : ∃ b, f a l = some b := by
  obtain ⟨m, hm, hrest⟩ := Run.append_iff.mp (hsplit ▸ h)
  obtain rfl := hks.unique_partial hm
  obtain ⟨b, hb, -⟩ := Run.cons_iff.mp hrest
  exact ⟨b, hb⟩

/-- The exact invariant rule, for a partial step function. -/
theorem Run.throughout_iff_partial {f : S → L → Option S} {P : S → Prop} {C : S → L → Prop}
    {s s' : S} {ls : List L} (h : (ofPartial f).Run s ls s') (h₀ : P s)
    (hstep : ∀ a l b, f a l = some b → P a → (P b ↔ C a l)) :
    (ofPartial f).Throughout s ls P ↔ (ofPartial f).Always s ls C := by
  constructor
  · intro hall ks l rest a hsplit hks
    have hlast : P a := hall ks (l :: rest) a hsplit hks
    obtain ⟨b, hb⟩ := h.enabled hsplit hks
    exact (hstep a l b hb hlast).mp (hall (ks ++ [l]) rest b (by simp [hsplit]) (hks.snoc hb))
  · exact fun hall => Throughout.guarded h₀ hall fun a l b hab hcond hP =>
      (hstep a l b hab hP).mpr hcond

/-- The exact invariant rule for a partial step function, where each step may rely on what
every step keeps. -/
theorem Run.throughout_iff_partial_of_inv {f : S → L → Option S} {J P : S → Prop}
    {C : S → L → Prop} {s s' : S} {ls : List L} (h : (ofPartial f).Run s ls s') (hinv₀ : J s)
    (hinv : ∀ a l b, f a l = some b → J a → J b) (h₀ : P s)
    (hstep : ∀ a l b, f a l = some b → J a → P a → (P b ↔ C a l)) :
    (ofPartial f).Throughout s ls P ↔ (ofPartial f).Always s ls C := by
  have hall : (ofPartial f).Throughout s ls J := by
    rintro ks rest m - hks
    exact hks.invariant hinv₀ fun a l b hab ha => hinv a l b hab ha
  rw [← h.throughout_iff_partial (P := fun s => J s ∧ P s) ⟨hinv₀, h₀⟩
    fun a l b hab ha => (and_iff_right (hinv a l b hab ha.1)).trans (hstep a l b hab ha.1 ha.2)]
  exact ⟨fun hP ks rest m hsplit hks => ⟨hall ks rest m hsplit hks, hP ks rest m hsplit hks⟩,
    fun hboth ks rest m hsplit hks => (hboth ks rest m hsplit hks).2⟩

/-- The exact rule for a predicate on the states and one on the steps of a run, where each
step may rely on an invariant that is kept from states with the first. -/
theorem Run.throughout_and_always_iff {f : S → L → Option S} {J P : S → Prop}
    {Q C : S → L → Prop} {s s' : S} {ls : List L} (h : (ofPartial f).Run s ls s') (hinv₀ : J s)
    (h₀ : P s) (hinv : ∀ a l b, f a l = some b → J a → P a → J b)
    (hstep : ∀ a l b, f a l = some b → J a → P a → (P b ∧ Q a l ↔ C a l)) :
    ((ofPartial f).Throughout s ls P ∧ (ofPartial f).Always s ls Q) ↔
      (ofPartial f).Always s ls C := by
  constructor
  · rintro ⟨hP, hQ⟩ ks l rest a hsplit hks
    have hkeeps : (ofPartial f).Always s ks fun a _ => P a := fun ks' l' rest' a hsplit' hks' =>
      hP ks' (l' :: rest' ++ l :: rest) a (by simp [hsplit, hsplit']) hks'
    have hJ : J a := hks.guarded hinv₀ hkeeps fun a l b hab hPa hJa => hinv a l b hab hJa hPa
    have hPa : P a := hP ks (l :: rest) a hsplit hks
    obtain ⟨b, hb⟩ := h.enabled hsplit hks
    have hPb : P b := hP (ks ++ [l]) rest b (by simp [hsplit]) (hks.snoc hb)
    exact (hstep a l b hb hJ hPa).mp ⟨hPb, hQ ks l rest a hsplit hks⟩
  · intro hC
    have hall : (ofPartial f).Throughout s ls fun a => J a ∧ P a :=
      Throughout.guarded ⟨hinv₀, h₀⟩ hC fun a l b hab hcond ha =>
        ⟨hinv a l b hab ha.1 ha.2, ((hstep a l b hab ha.1 ha.2).mpr hcond).1⟩
    refine ⟨fun ks rest m hsplit hks => (hall ks rest m hsplit hks).2, ?_⟩
    intro ks l rest a hsplit hks
    obtain ⟨b, hb⟩ := h.enabled hsplit hks
    obtain ⟨hJ, hPa⟩ := hall ks (l :: rest) a hsplit hks
    exact ((hstep a l b hb hJ hPa).mpr (hC ks l rest a hsplit hks)).2

/-- Conditions that agree on the steps that are taken agree along a run. -/
theorem Run.always_congr {f : S → L → Option S} {P Q : S → L → Prop} {s s' : S} {ls : List L}
    (h : (ofPartial f).Run s ls s') (hPQ : ∀ a l b, f a l = some b → (P a l ↔ Q a l)) :
    (ofPartial f).Always s ls P ↔ (ofPartial f).Always s ls Q := by
  have hstep : ∀ ks l rest a, ls = ks ++ l :: rest → (ofPartial f).Run s ks a →
      (P a l ↔ Q a l) := by
    intro ks l rest a hsplit hks
    obtain ⟨b, hb⟩ := h.enabled hsplit hks
    exact hPQ a l b hb
  constructor
  · exact fun hP ks l rest a hsplit hks => (hstep ks l rest a hsplit hks).mp
      (hP ks l rest a hsplit hks)
  · exact fun hQ ks l rest a hsplit hks => (hstep ks l rest a hsplit hks).mpr
      (hQ ks l rest a hsplit hks)

/-- A condition on every step of a list of labels of a partial step function, as far as
they are enabled. -/
def ExecPartialAlways (f : S → L → Option S) (P : S → L → Prop) (s : S) : List L → Prop
  | [] => True
  | l :: ls => P s l ∧ match f s l with
    | none => True
    | some s' => ExecPartialAlways f P s' ls

instance ExecPartialAlways.decidable (f : S → L → Option S) (P : S → L → Prop)
    [∀ s l, Decidable (P s l)] : ∀ (s : S) (ls : List L), Decidable (ExecPartialAlways f P s ls)
  | _, [] => instDecidableTrue
  | s, l :: ls =>
    haveI : Decidable (match f s l with
        | none => True
        | some s' => ExecPartialAlways f P s' ls) :=
      match f s l with
      | none => instDecidableTrue
      | some s' => ExecPartialAlways.decidable f P s' ls
    inferInstanceAs (Decidable (P s l ∧ _))

theorem ExecPartialAlways.always {f : S → L → Option S} {P : S → L → Prop} {s : S} {ls : List L}
    (h : ExecPartialAlways f P s ls) : (ofPartial f).Always s ls P := by
  induction ls generalizing s with
  | nil =>
    intro ks l rest a hsplit _
    simp at hsplit
  | cons l₀ ls ih =>
    intro ks l rest a hsplit hrun
    cases ks with
    | nil =>
      obtain ⟨rfl, -⟩ := List.cons.inj hsplit
      obtain rfl := hrun.nil_inv
      exact h.1
    | cons k ks =>
      obtain ⟨rfl, hrest⟩ := List.cons.inj hsplit
      obtain ⟨m, hstep, hks⟩ := Run.cons_iff.mp hrun
      have hrest' := h.2
      rw [show f s l₀ = some m from hstep] at hrest'
      exact ih hrest' ks l rest a hrest hks

end Functional

end LTS

end PulSeed
