import PulSeed.Goals.DependencySchedule
import PulSeed.Lib.EraseDups
import PulSeed.Lib.Layers

/-!
# Phases and critical paths by longest chains

On acyclic prerequisites the phase of a goal is the length of the longest chain that ends at it,
and so is what the recursion of the critical path memoises.

- `buildPhases_eq`: the phases are the layers of the prerequisites.
- `Memo.Right`: the memo holds the longest chains, `longestFrom_right`, `followParents_right`.
- `schedule_right`: **what a schedule of acyclic prerequisites is.**
-/

namespace PulSeed.Goals

open Relation Layers EraseDups

/-! ## Phases -/

section Phases

variable {prereqs : String → List String} {r : String → String → Prop} {nodes : List String}
  {completed remaining : List String} {n i turns : ℕ}

open Classical in
theorem readyGoals_eq (hprereqs : ∀ p id, p ∈ prereqs id ↔ r p id)
    (hcompleted : ∀ id, id ∈ completed ↔ id ∈ nodes ∧ Settled r nodes n id)
    (hremaining : remaining = leftAt (Settled r nodes) nodes n) :
    readyGoals prereqs completed remaining = layerAt (Settled r nodes) nodes n := by
  unfold readyGoals layerAt
  rw [hremaining]
  refine List.filter_congr fun id hid => ?_
  rw [Bool.eq_iff_iff, List.all_eq_true, decide_eq_true_eq]
  constructor
  · intro h p hp
    exact (hcompleted p).mp (by simpa using h p ((hprereqs p id).mpr hp))
  · intro h p hp
    simpa using (hcompleted p).mpr (h p ((hprereqs p id).mp hp))

/-- **The phases are the layers** of the prerequisites. -/
theorem buildPhases_eq (hprereqs : ∀ p id, p ∈ prereqs id ↔ r p id)
    (hcompleted : ∀ id, id ∈ completed ↔ id ∈ nodes ∧ Settled r nodes n id)
    (hremaining : remaining = leftAt (Settled r nodes) nodes n) (hturns : remaining.length ≤ turns) :
    (buildPhases prereqs i completed remaining).map (·.goalIds) =
      layersFrom (Settled r nodes) nodes turns n := by
  induction turns generalizing n i completed remaining with
  | zero =>
    have hnil : remaining = [] := List.length_eq_zero_iff.mp (Nat.le_zero.mp hturns)
    rw [buildPhases, if_pos hnil]
    rfl
  | succ turns ih =>
    have hready := readyGoals_eq hprereqs hcompleted hremaining
    rw [buildPhases]
    unfold layersFrom
    rw [← hremaining, ← hready]
    by_cases hnil : remaining = []
    · rw [if_pos hnil, if_pos hnil]
      rfl
    rw [if_neg hnil, if_neg hnil]
    dsimp only
    by_cases hnone : readyGoals prereqs completed remaining = []
    · rw [if_pos hnone, if_pos hnone]
      rfl
    rw [if_neg hnone, if_neg hnone, List.map_cons, ih]
    · intro id
      rw [List.mem_append, hcompleted, hready, settled_or_mem_layerAt]
    · unfold withoutGoals
      rw [hready, hremaining, ← filter_not_mem_layerAt]
      exact List.filter_congr fun id _ => by simp
    · have hless := withoutGoals_length_lt prereqs hnone
      omega

/-- The phases are numbered in order. -/
theorem buildPhases_phase {phase : DependencyPhase} {j : ℕ}
    (h : (buildPhases prereqs i completed remaining)[j]? = some phase) : phase.phase = i + j := by
  fun_induction buildPhases prereqs i completed remaining generalizing j with
  | case1 i completed => cases h
  | case2 i completed remaining hne ready =>
    cases j with
    | zero =>
      cases h
      rfl
    | succ j => cases h
  | case3 i completed remaining hne ready hsome =>
    rename_i ih
    cases j with
    | zero =>
      cases h
      rfl
    | succ j =>
      rw [List.getElem?_cons_succ] at h
      rw [ih h]
      omega

section Acyclic

variable (hprereqs : ∀ p id, p ∈ prereqs id ↔ r p id) (hr : ∀ x y, r x y → x ∈ nodes)
  (hacyclic : Acyclic r)

include hprereqs

theorem goals_buildPhases : (buildPhases prereqs 0 [] nodes).map (·.goalIds) =
    layersFrom (Settled r nodes) nodes nodes.length 0 :=
  buildPhases_eq hprereqs (fun id => by simp [Settled]) leftAt_zero.symm (le_refl nodes.length)

/-- The phases have all goals. -/
theorem buildPhases_perm : ((buildPhases prereqs 0 [] nodes).flatMap (·.goalIds)).Perm nodes := by
  have hperm : (layersFrom (Settled r nodes) nodes nodes.length 0).flatten.Perm
      (leftAt (Settled r nodes) nodes 0) := layersFrom_perm (List.length_filter_le _ _)
  rwa [← goals_buildPhases hprereqs, leftAt_zero, ← List.flatMap_def] at hperm

include hr hacyclic

theorem goals_of_phase {k : ℕ} {phase : DependencyPhase}
    (hphase : (buildPhases prereqs 0 [] nodes)[k]? = some phase) :
    leftAt (Settled r nodes) nodes k ≠ [] ∧
      phase.goalIds = layerAt (Settled r nodes) nodes k := by
  have hget : ((buildPhases prereqs 0 [] nodes).map (·.goalIds))[k]? =
      if leftAt (Settled r nodes) nodes (0 + k) = [] then none
      else some (layerAt (Settled r nodes) nodes (0 + k)) := by
    rw [goals_buildPhases hprereqs, layersFrom_getElem? hr hacyclic (List.length_filter_le _ _)]
  rw [List.getElem?_map, hphase, Nat.zero_add] at hget
  split at hget
  · cases hget
  · next hleft => exact ⟨hleft, Option.some.inj hget⟩

theorem phase_ne_nil {phase : DependencyPhase} (hphase : phase ∈ buildPhases prereqs 0 [] nodes) :
    phase.goalIds ≠ [] := by
  obtain ⟨k, hk⟩ := List.getElem?_of_mem hphase
  obtain ⟨hleft, hgoals⟩ := goals_of_phase hprereqs hr hacyclic hk
  exact hgoals ▸ layerAt_ne_nil hr hacyclic hleft

/-- **The phase of a goal** is the length of the longest chain that ends at it. -/
theorem mem_phase_iff {id : String} {k : ℕ} :
    (∃ phase, (buildPhases prereqs 0 [] nodes)[k]? = some phase ∧ id ∈ phase.goalIds) ↔
      id ∈ nodes ∧ Height r id k := by
  have hmem : ∀ k, id ∈ layerAt (Settled r nodes) nodes k ↔ id ∈ nodes ∧ Height r id k := by
    intro k
    rw [mem_layerAt, settled_iff_chain hr, settled_iff_chain hr, not_not]
    exact and_congr_right fun _ => ⟨fun h => ⟨h.1, h.2⟩, fun h => ⟨h.1, h.2⟩⟩
  have hphase : ∀ k phase, (buildPhases prereqs 0 [] nodes)[k]? = some phase →
      id ∈ phase.goalIds → id ∈ nodes ∧ Height r id k := by
    intro k phase hk hid
    rw [(goals_of_phase hprereqs hr hacyclic hk).2] at hid
    exact (hmem k).mp hid
  constructor
  · rintro ⟨phase, hk, hid⟩
    exact hphase k phase hk hid
  · rintro ⟨hid, hheight⟩
    -- the goal is in one of the phases, which has the number of its height
    obtain ⟨phase, hphases, hgoal⟩ :=
      List.mem_flatMap.mp ((buildPhases_perm hprereqs).mem_iff.mpr hid)
    obtain ⟨j, hj⟩ := List.getElem?_of_mem hphases
    obtain rfl := hheight.unique (hphase j phase hj hgoal).2
    exact ⟨phase, hj, hgoal⟩

end Acyclic

end Phases

/-! ## The memo -/

section Memo

variable {prereqs : String → List String} {r : String → String → Prop} {memo memo' : Memo}
  {id p : String} {len h : ℕ}

/-- What the memo says of a goal: one more than the length of its longest chain, and a
prerequisite with the longest chain among them, itself in the memo. -/
structure Memo.Says (memo : Memo) (r : String → String → Prop) (id : String) (len h : ℕ) :
    Prop where
  length : len = h + 1
  height : Height r id h
  first : h = 0 → memo.parent id = some none
  next : ∀ h', h = h' + 1 → ∃ p, memo.parent id = some (some p) ∧ r p id ∧ Height r p h' ∧
    memo.dp p ≠ none

/-- All that the memo says is right. -/
def Memo.Right (r : String → String → Prop) (memo : Memo) : Prop :=
  ∀ id len, memo.dp id = some len → ∃ h, memo.Says r id len h

/-- A memo that knows at least the same goals. -/
def Memo.Grows (memo memo' : Memo) : Prop := ∀ id, memo.dp id ≠ none → memo'.dp id ≠ none

theorem Memo.Grows.trans {memo'' : Memo} (h : memo.Grows memo') (h' : memo'.Grows memo'') :
    memo.Grows memo'' := fun id hid => h' id (h id hid)

theorem Memo.grows_set (parent : Option String) : memo.Grows (memo.set id len parent) := by
  intro x hx
  by_cases hxid : x = id
  · subst hxid
    simp [Memo.set]
  · exact fun hnone => hx ((Function.update_of_ne hxid ..).symm.trans hnone)

/-- A goal may be added with its longest chain. -/
theorem Memo.Right.set (hmemo : memo.Right r) {parent : Option String} (height : Height r id h)
    (hfirst : h = 0 → parent = none)
    (hnext : ∀ h', h = h' + 1 → ∃ p, parent = some p ∧ r p id ∧ Height r p h' ∧ memo.dp p ≠ none) :
    (memo.set id (h + 1) parent).Right r := by
  intro x len hx
  by_cases hxid : x = id
  · subst hxid
    have hself : (memo.set x (h + 1) parent).dp x = some (h + 1) := Function.update_self ..
    rw [hself] at hx
    have hparent : (memo.set x (h + 1) parent).parent x = some parent := Function.update_self ..
    refine ⟨h, (Option.some.inj hx).symm, height, fun h0 => ?_, fun h' hh' => ?_⟩
    · rw [hparent, hfirst h0]
    · obtain ⟨p, hp, hrp, hheight, hdp⟩ := hnext h' hh'
      exact ⟨p, by rw [hparent, hp], hrp, hheight, Memo.grows_set parent p hdp⟩
  · have hdp : (memo.set id (h + 1) parent).dp x = memo.dp x := Function.update_of_ne hxid ..
    have hparent : (memo.set id (h + 1) parent).parent x = memo.parent x :=
      Function.update_of_ne hxid ..
    rw [hdp] at hx
    obtain ⟨k, hlength, height, hfirst, hnext⟩ := hmemo x len hx
    refine ⟨k, hlength, height, fun h0 => hparent.trans (hfirst h0), fun h' hh' => ?_⟩
    obtain ⟨p, hp, hrp, hheight, hdp⟩ := hnext h' hh'
    exact ⟨p, hparent.trans hp, hrp, hheight, Memo.grows_set parent p hdp⟩

/-- What a call of `longestFrom` does to the memo. -/
structure Computes (r : String → String → Prop) (id : String) (memo : Memo) (len : ℕ)
    (memo' : Memo) : Prop where
  right : memo'.Right r
  grows : memo.Grows memo'
  known : memo'.dp id = some len

/-- What the loop over the prerequisites knows: they have no longer chains than the best one,
which is that of the best parent. -/
structure Among (r : String → String → Prop) (ps : List String) (best : ℕ)
    (bestParent : Option String) (memo memo' : Memo) (best' : ℕ) (bestParent' : Option String) :
    Prop where
  right : memo'.Right r
  grows : memo.Grows memo'
  le : best ≤ best'
  bound : ∀ p ∈ ps, ∃ h, Height r p h ∧ h + 1 ≤ best'
  best : (best' = best ∧ bestParent' = bestParent) ∨
    ∃ p ∈ ps, ∃ h, Height r p h ∧ best' = h + 1 ∧ bestParent' = some p ∧ memo'.dp p ≠ none

theorem longestAmong_right {f : String → Memo → Option (ℕ × Memo)} {ps : List String}
    (hf : ∀ p ∈ ps, ∀ memo len memo', f p memo = some (len, memo') → memo.Right r →
      Computes r p memo len memo')
    {best best' : ℕ} {bestParent bestParent' : Option String}
    (hloop : longestAmong f ps best bestParent memo = some (best', bestParent', memo'))
    (hmemo : memo.Right r) : Among r ps best bestParent memo memo' best' bestParent' := by
  induction ps generalizing best bestParent memo with
  | nil =>
    cases hloop
    exact ⟨hmemo, fun _ => id, le_refl _, by simp, .inl ⟨rfl, rfl⟩⟩
  | cons p ps ih =>
    unfold longestAmong at hloop
    split at hloop
    · cases hloop
    · next len memo₁ hcall =>
      obtain ⟨hright, hgrows, hknown⟩ := hf p List.mem_cons_self memo len memo₁ hcall hmemo
      obtain ⟨h, hsays⟩ := hright p len hknown
      have hrest := fun q hq => hf q (List.mem_cons_of_mem _ hq)
      split at hloop
      · have hmore := ih hrest hloop hright
        refine ⟨hmore.right, hgrows.trans hmore.grows, (by have := hmore.le; omega), ?_, .inr ?_⟩
        · intro q hq
          rcases List.mem_cons.mp hq with rfl | hq
          · exact ⟨h, hsays.height, hsays.length ▸ hmore.le⟩
          · exact hmore.bound q hq
        · rcases hmore.best with ⟨hbest, hparent⟩ | ⟨q, hq, hbest⟩
          · exact ⟨p, List.mem_cons_self, h, hsays.height, hbest.trans hsays.length, hparent,
              hmore.grows p (by rw [hknown]; exact Option.some_ne_none _)⟩
          · exact ⟨q, List.mem_cons_of_mem _ hq, hbest⟩
      · next hle =>
        have hmore := ih hrest hloop hright
        refine ⟨hmore.right, hgrows.trans hmore.grows, hmore.le, ?_, ?_⟩
        · intro q hq
          rcases List.mem_cons.mp hq with rfl | hq
          · exact ⟨h, hsays.height, by have := hmore.le; have := hsays.length; omega⟩
          · exact hmore.bound q hq
        · rcases hmore.best with hsame | ⟨q, hq, hbest⟩
          · exact .inl hsame
          · exact .inr ⟨q, List.mem_cons_of_mem _ hq, hbest⟩

/-- **The recursion computes the longest chain** of a goal. -/
theorem longestFrom_right (hprereqs : ∀ p id, p ∈ prereqs id ↔ r p id) {depth : ℕ}
    (hcall : longestFrom prereqs depth id memo = some (len, memo')) (hmemo : memo.Right r) :
    Computes r id memo len memo' := by
  induction depth generalizing id memo memo' len with
  | zero => cases hcall
  | succ depth ih =>
    unfold longestFrom at hcall
    split at hcall
    · next cached hcached =>
      cases hcall
      exact ⟨hmemo, fun _ hx => hx, hcached⟩
    · split at hcall
      · next hnil =>
        cases hcall
        have height : Height r id 0 :=
          ⟨trivial, fun hchain => absurd ((hprereqs _ id).mpr hchain.choose_spec.1) (by simp [hnil])⟩
        exact ⟨hmemo.set height (fun _ => rfl) (fun h' hh' => absurd hh'.symm h'.succ_ne_zero),
          Memo.grows_set none, Function.update_self ..⟩
      · next hne =>
        obtain ⟨⟨best, bestParent, memo₁⟩, hloop, heq⟩ := Option.map_eq_some_iff.mp hcall
        cases heq
        have hamong := longestAmong_right (fun _ _ _ _ _ hcall => ih hcall) hloop hmemo
        obtain ⟨q, hq⟩ := List.exists_mem_of_ne_nil _ hne
        obtain ⟨hq₀, _, hpos⟩ := hamong.bound q hq
        rcases hamong.best with ⟨hzero, -⟩ | ⟨p, hp, h, hheight, hbest, hparent, hdp⟩
        · omega
        have height : Height r id (h + 1) := by
          refine ⟨⟨p, (hprereqs p id).mp hp, hheight.chain⟩, ?_⟩
          rintro ⟨y, hy, hchain⟩
          obtain ⟨k, hk, hle⟩ := hamong.bound y ((hprereqs y id).mpr hy)
          have := hk.le hchain
          omega
        rw [hbest]
        refine ⟨hamong.right.set height (fun h0 => absurd h0 h.succ_ne_zero) (fun h' hh' => ?_),
          hamong.grows.trans (Memo.grows_set _), Function.update_self ..⟩
        obtain rfl : h = h' := by omega
        exact ⟨p, hparent, (hprereqs p id).mp hp, hheight, hdp⟩

theorem longestFromAll_right (hprereqs : ∀ p id, p ∈ prereqs id ↔ r p id) {depth : ℕ}
    {ids : List String} (hcalls : longestFromAll prereqs depth ids memo = some memo')
    (hmemo : memo.Right r) :
    memo'.Right r ∧ memo.Grows memo' ∧ ∀ id ∈ ids, memo'.dp id ≠ none := by
  induction ids generalizing memo with
  | nil =>
    cases hcalls
    exact ⟨hmemo, fun _ => id, by simp⟩
  | cons id ids ih =>
    obtain ⟨⟨len, memo₁⟩, hcall, hrest⟩ := Option.bind_eq_some_iff.mp hcalls
    have hcomputes := longestFrom_right hprereqs hcall hmemo
    obtain ⟨hright, hgrows, hknown⟩ := ih hrest hcomputes.right
    refine ⟨hright, hcomputes.grows.trans hgrows, fun x hx => ?_⟩
    rcases List.mem_cons.mp hx with rfl | hx
    · exact hgrows x (by rw [hcomputes.known]; exact Option.some_ne_none _)
    · exact hknown x hx

/-! ## The critical path -/

/-- The highest length is that of a goal, and no goal has a higher one. -/
theorem maxGoal_spec (memo : Memo) (goalIds : List String) :
    ((maxGoal memo goalIds).1 = 0 ∨
      memo.dp (maxGoal memo goalIds).2 = some (maxGoal memo goalIds).1) ∧
      ∀ id ∈ goalIds, (memo.dp id).getD 0 ≤ (maxGoal memo goalIds).1 := by
  have hfold : ∀ (ids : List String) (acc result : ℕ × String),
      ids.foldl (fun best id =>
        let len := (memo.dp id).getD 0
        if best.1 < len then (len, id) else best) acc = result →
      (acc.1 = 0 ∨ memo.dp acc.2 = some acc.1) →
      (result.1 = 0 ∨ memo.dp result.2 = some result.1) ∧ acc.1 ≤ result.1 ∧
        ∀ id ∈ ids, (memo.dp id).getD 0 ≤ result.1 := by
    intro ids
    induction ids with
    | nil =>
      rintro acc _ rfl hacc
      exact ⟨hacc, le_refl _, by simp⟩
    | cons id ids ih =>
      intro acc result hresult hacc
      rw [List.foldl_cons] at hresult
      dsimp only at hresult
      split at hresult
      · next hlt =>
        have hid : memo.dp id = some ((memo.dp id).getD 0) := by
          cases hdp : memo.dp id with
          | none => simp [hdp] at hlt
          | some len => rfl
        obtain ⟨hkept, hle, hall⟩ := ih _ _ hresult (.inr hid)
        refine ⟨hkept, by omega, fun x hx => ?_⟩
        rcases List.mem_cons.mp hx with rfl | hx
        · exact hle
        · exact hall x hx
      · next hge =>
        obtain ⟨hkept, hle, hall⟩ := ih _ _ hresult hacc
        refine ⟨hkept, hle, fun x hx => ?_⟩
        rcases List.mem_cons.mp hx with rfl | hx
        · omega
        · exact hall x hx
  obtain ⟨hkept, -, hall⟩ := hfold goalIds (0, goalIds.headD "") _ rfl (.inl rfl)
  exact ⟨hkept, hall⟩

/-- **Following the parents** of a goal gives its longest chain. -/
theorem followParents_right {rounds : ℕ} {path result : List String} (hmemo : memo.Right r)
    (hknown : memo.dp id = some (h + 1))
    (hfollow : followParents memo rounds (some id) path = some result) :
    ∃ chain : List String, result = chain ++ path ∧ chain.IsChain r ∧ chain.getLast? = some id ∧
      chain.length = h + 1 := by
  induction h generalizing id rounds path with
  | zero =>
    obtain ⟨h, hlength, -, hfirst, -⟩ := hmemo id _ hknown
    obtain rfl : h = 0 := by omega
    cases rounds with
    | zero => cases hfollow
    | succ rounds =>
      unfold followParents at hfollow
      rw [hfirst rfl] at hfollow
      have hend : followParents memo rounds none (id :: path) = some (id :: path) := by
        cases rounds <;> rfl
      rw [Option.join_some, hend] at hfollow
      cases hfollow
      exact ⟨[id], rfl, List.isChain_singleton id, rfl, rfl⟩
  | succ h ih =>
    obtain ⟨k, hlength, -, -, hnext⟩ := hmemo id _ hknown
    obtain rfl : k = h + 1 := by omega
    obtain ⟨p, hparent, hrp, hheight, hdp⟩ := hnext h rfl
    cases rounds with
    | zero => cases hfollow
    | succ rounds =>
      unfold followParents at hfollow
      rw [hparent, Option.join_some] at hfollow
      obtain ⟨len, hlen⟩ := Option.ne_none_iff_exists'.mp hdp
      obtain ⟨k, hk⟩ := hmemo p len hlen
      obtain rfl := hheight.unique hk.height
      rw [hk.length] at hlen
      obtain ⟨chain, rfl, hchain, hlast, hcount⟩ := ih hlen hfollow
      refine ⟨chain ++ [id], by simp, List.isChain_append.mpr ⟨hchain,
        List.isChain_singleton id, ?_⟩, by simp, by simp [hcount]⟩
      intro a ha b hb
      rw [hlast, Option.mem_some_iff] at ha
      rw [List.head?_singleton, Option.mem_some_iff] at hb
      exact ha ▸ hb ▸ hrp

/-- **The critical path** is a longest chain among all goals. -/
theorem computeCriticalPath_right (hprereqs : ∀ p id, p ∈ prereqs id ↔ r p id) {depth : ℕ}
    {goalIds path : List String} (hne : goalIds ≠ [])
    (hpath : computeCriticalPath prereqs depth goalIds = some path) :
    path.IsChain r ∧ ∃ id ∈ goalIds, path.getLast? = some id ∧ ∃ h, path.length = h + 1 ∧
      Height r id h ∧ ∀ x ∈ goalIds, ¬ Chain r (h + 1) x := by
  obtain ⟨memo, hcalls, hfollow⟩ := Option.bind_eq_some_iff.mp hpath
  obtain ⟨hright, -, hknown⟩ := longestFromAll_right hprereqs hcalls fun _ _ hnone => nomatch hnone
  have hmem := maxGoal_mem memo hne
  obtain ⟨hmax, hall⟩ := maxGoal_spec memo goalIds
  dsimp only at hfollow
  generalize maxGoal memo goalIds = best at hfollow hmem hmax hall
  obtain ⟨maxLen, goal⟩ := best
  dsimp only at hfollow hmem hmax hall
  obtain ⟨len, hlen⟩ := Option.ne_none_iff_exists'.mp (hknown goal hmem)
  obtain ⟨h, hsays⟩ := hright goal len hlen
  have hlength := hsays.length
  have hpos : len ≤ maxLen := by simpa [hlen] using hall goal hmem
  have hne0 : maxLen ≠ 0 := by omega
  rw [if_neg hne0] at hfollow
  obtain rfl : maxLen = len := by
    have hsome := hmax.resolve_left hne0
    rw [hlen] at hsome
    exact (Option.some.inj hsome).symm
  rw [hlength] at hlen
  obtain ⟨chain, hresult, hchain, hlast, hcount⟩ := followParents_right hright hlen hfollow
  rw [List.append_nil] at hresult
  subst hresult
  refine ⟨hchain, goal, hmem, hlast, h, hcount, hsays.height, fun x hx hlonger => ?_⟩
  obtain ⟨lenx, hlenx⟩ := Option.ne_none_iff_exists'.mp (hknown x hx)
  obtain ⟨hx', hsaysx⟩ := hright x lenx hlenx
  have hle := hsaysx.height.le hlonger
  have hbound : lenx ≤ maxLen := by simpa [hlenx] using hall x hx
  have := hsaysx.length
  omega

end Memo

/-! ## Schedules -/

/-- The longest chain of prerequisites among the goals that ends at a goal has so many nodes. -/
structure LongestChain (g : DependencyGraph) (goalIds : List String) (id : String) (n : ℕ) :
    Prop where
  chain : ∃ nodes : List String, nodes.IsChain (g.Blocks goalIds) ∧ nodes.getLast? = some id ∧
    nodes.length = n
  longest : ∀ nodes : List String, nodes.IsChain (g.Blocks goalIds) →
    nodes.getLast? = some id → nodes.length ≤ n

/-- What the schedule of some goals is expected to be. -/
structure DependencySchedule.Right (schedule : DependencySchedule) (goalIds : List String)
    (g : DependencyGraph) : Prop where
  numbered : ∀ (k : ℕ) (phase : DependencyPhase), schedule.phases[k]? = some phase → phase.phase = k
  partition : (schedule.phases.flatMap (·.goalIds)).Perm goalIds
  nonempty : ∀ phase ∈ schedule.phases, phase.goalIds ≠ []
  earlier : ∀ (k : ℕ) (phase : DependencyPhase), schedule.phases[k]? = some phase → ∀ id ∈ phase.goalIds, ∀ p,
    g.Blocks goalIds p id → ∃ j < k, ∃ before : DependencyPhase, schedule.phases[j]? = some before ∧
      p ∈ before.goalIds
  longest : ∀ (k : ℕ) (id : String), (∃ phase : DependencyPhase, schedule.phases[k]? = some phase ∧ id ∈ phase.goalIds) ↔
    id ∈ goalIds ∧ LongestChain g goalIds id (k + 1)
  critical : schedule.criticalPath.IsChain (g.Blocks goalIds) ∧
    schedule.criticalPath ⊆ goalIds ∧ schedule.criticalPath.length = schedule.phases.length

theorem longestChain_iff {g : DependencyGraph} {goalIds : List String} {id : String} {n : ℕ} :
    LongestChain g goalIds id (n + 1) ↔ Height (g.Blocks goalIds) id n := by
  constructor
  · rintro ⟨hchain, hlongest⟩
    refine ⟨chain_iff_list.mpr hchain, fun hlonger => ?_⟩
    obtain ⟨nodes, hnodes, hlast, hlength⟩ := chain_iff_list.mp hlonger
    have := hlongest nodes hnodes hlast
    omega
  · rintro ⟨hchain, hlongest⟩
    refine ⟨chain_iff_list.mp hchain, fun nodes hnodes hlast => ?_⟩
    by_contra hlt
    have hlonger : Chain (g.Blocks goalIds) (nodes.length - 1) id :=
      chain_iff_list.mpr ⟨nodes, hnodes, hlast, by omega⟩
    exact hlongest (hlonger.mono (by omega))

/-- The nodes of a chain are scheduled if the last one is. -/
theorem chain_subset {g : DependencyGraph} {goalIds nodes : List String} {id : String}
    (hchain : nodes.IsChain (g.Blocks goalIds)) (hlast : nodes.getLast? = some id)
    (hid : id ∈ goalIds) : nodes ⊆ goalIds := by
  induction nodes with
  | nil => exact List.nil_subset _
  | cons x nodes ih =>
    cases nodes with
    | nil =>
      cases hlast
      exact fun x hx => List.mem_singleton.mp hx ▸ hid
    | cons y nodes =>
      obtain ⟨hxy, hrest⟩ := List.isChain_cons_cons.mp hchain
      rw [List.getLast?_cons_cons] at hlast
      exact List.cons_subset.mpr ⟨hxy.1, ih hrest hlast⟩

theorem right_of_schedule {goalIds : List String} {g : DependencyGraph} (hids : goalIds.Nodup)
    (hacyclic : Acyclic (g.Blocks goalIds)) {depth : ℕ} {schedule : DependencySchedule}
    (h : buildDependencySchedule depth goalIds g = some schedule) : schedule.Right goalIds g := by
  have hprereqs : ∀ p id, p ∈ prereqMap goalIds g id ↔ g.Blocks goalIds p id :=
    fun _ _ => mem_prereqMap_iff
  have hr : ∀ x y, g.Blocks goalIds x y → x ∈ goalIds := fun _ _ h => h.1
  unfold buildDependencySchedule at h
  by_cases hne : goalIds = []
  · rw [if_pos hne] at h
    cases h
    subst hne
    refine ⟨by simp, by simp, by simp, by simp, by simp, List.isChain_nil, by simp, rfl⟩
  rw [if_neg hne] at h
  obtain ⟨path, hpath, rfl⟩ := Option.map_eq_some_iff.mp h
  obtain ⟨hchain, goal, hgoal, hlast, n, hlength, hheight, hall⟩ :=
    computeCriticalPath_right hprereqs hne hpath
  have hset : asSet goalIds = goalIds := eraseDups_of_nodup hids
  rw [hset]
  have hmem (k : ℕ) (id : String) :
      (∃ phase, (buildPhases (prereqMap goalIds g) 0 [] goalIds)[k]? = some phase ∧
        id ∈ phase.goalIds) ↔ id ∈ goalIds ∧ Height (g.Blocks goalIds) id k :=
    mem_phase_iff hprereqs hr hacyclic
  refine {
    numbered := fun k phase hk => by simpa using buildPhases_phase hk
    partition := buildPhases_perm hprereqs
    nonempty := fun phase hphase => phase_ne_nil hprereqs hr hacyclic hphase
    earlier := fun k phase hk id hid p hp => ?_
    longest := fun k id => ?_
    critical := ⟨hchain, chain_subset hchain hlast hgoal, ?_⟩ }
  · obtain ⟨before, hbefore, hpmem⟩ :=
      List.mem_flatMap.mp ((buildPhases_perm hprereqs).mem_iff.mpr hp.1)
    obtain ⟨j, hj⟩ := List.getElem?_of_mem hbefore
    have hpheight := ((hmem j p).mp ⟨before, hj, hpmem⟩).2
    have hidheight := ((hmem k id).mp ⟨phase, hk, hid⟩).2
    exact ⟨j, hidheight.le ⟨p, hp, hpheight.chain⟩, before, hj, hpmem⟩
  · rw [hmem, longestChain_iff]
  · rw [hlength]
    obtain ⟨phase, hphase, -⟩ := (hmem n goal).mpr ⟨hgoal, hheight⟩
    obtain ⟨hlt, -⟩ := List.getElem?_eq_some_iff.mp hphase
    by_contra hmore
    have hlong : n + 1 < (buildPhases (prereqMap goalIds g) 0 [] goalIds).length := by
      dsimp only at hmore
      omega
    have hnext := List.getElem?_eq_getElem hlong
    obtain ⟨id, hid⟩ := List.exists_mem_of_ne_nil _
      (phase_ne_nil hprereqs hr hacyclic (List.mem_of_getElem? hnext))
    obtain ⟨hmemId, hhigher⟩ := (hmem (n + 1) id).mp ⟨_, hnext, hid⟩
    exact hall id hmemId hhigher.chain

/-- **A schedule of acyclic prerequisites** is returned, its phases partition the goals in the
order of their longest chains, and its critical path is a chain through all phases. -/
theorem schedule_right (goalIds : List String) (g : DependencyGraph) (hids : goalIds.Nodup)
    (hacyclic : Acyclic (g.Blocks goalIds)) :
    (∃ depth, (buildDependencySchedule depth goalIds g).isSome = true) ∧
      ∀ depth schedule, buildDependencySchedule depth goalIds g = some schedule →
        schedule.Right goalIds g :=
  ⟨schedule_of_acyclic hacyclic, fun _ _ => right_of_schedule hids hacyclic⟩

/-- Two goals, of which the first is a prerequisite of the second. -/
def sampleOrder : DependencyGraph where
  nodes := ["a", "b"]
  edges := [{ fromGoalId := "a", toGoalId := "b", type := .prerequisite, createdAt := "1" }]
  updatedAt := "1"

theorem schedule_right_sample :
    (∃ depth, (buildDependencySchedule depth ["a", "b"] sampleOrder).isSome = true) ∧
      ∀ depth schedule, buildDependencySchedule depth ["a", "b"] sampleOrder = some schedule →
        schedule.Right ["a", "b"] sampleOrder := by
  refine schedule_right ["a", "b"] sampleOrder (by decide) fun id hcycle => ?_
  have hedge : ∀ p x, sampleOrder.Blocks ["a", "b"] p x → p = "a" ∧ x = "b" := by
    rintro p x ⟨-, -, e, he, -, hfrom, hto⟩
    obtain rfl := List.mem_singleton.mp he
    exact ⟨hfrom.symm, hto.symm⟩
  obtain ⟨x, hfirst, -⟩ := TransGen.head'_iff.mp hcycle
  obtain ⟨y, -, hlast⟩ := TransGen.tail'_iff.mp hcycle
  exact absurd ((hedge _ _ hfirst).1.symm.trans (hedge _ _ hlast).2) (by decide)

end PulSeed.Goals
