import PulSeed.Permission.WaitPlan

/-!
# The comparison of plans (`diffPermissionWaitCanonicalPlans`)

A resume runs when its plan has no difference from the approved one. The inputs are any JSON
values; they are compared after their members have been sorted.

`Json.Same` is equality up to the order of members, at every depth. **The comparison finds no
difference exactly between the same plans**, unless inputs differ in nothing but the members
named `__proto__`, which the sorting drops (`diff_eq_nil_iff_same_iff`).
-/

namespace PulSeed

/-! ## JSON values -/

namespace Json

/-- The induction over the items and the members of a value. -/
theorem induction {P : Json → Prop} (null : P .null) (bool : ∀ b, P (.bool b))
    (num : ∀ n, P (.num n)) (str : ∀ s, P (.str s))
    (arr : ∀ items, (∀ x ∈ items, P x) → P (.arr items))
    (obj : ∀ members, (∀ m ∈ members, P m.2) → P (.obj members)) : ∀ value, P value
  | .null => null
  | .bool b => bool b
  | .num n => num n
  | .str s => str s
  | .arr items => arr items fun x hx => by
    have := List.sizeOf_lt_of_mem hx
    exact induction null bool num str arr obj x
  | .obj members => obj members fun m hm => by
    have := List.sizeOf_lt_of_mem hm
    have : sizeOf m.2 < sizeOf m := by
      cases m
      simp
    exact induction null bool num str arr obj m.2
  termination_by value => sizeOf value

/-- The keys of each object in the value are distinct. -/
inductive KeysDistinct : Json → Prop
  | null : KeysDistinct .null
  | bool (b : Bool) : KeysDistinct (.bool b)
  | num (n : ℚ) : KeysDistinct (.num n)
  | str (s : String) : KeysDistinct (.str s)
  | arr {items : List Json} (h : ∀ x ∈ items, KeysDistinct x) : KeysDistinct (.arr items)
  | obj {members : List (String × Json)} (hnodup : (members.map Prod.fst).Nodup)
      (h : ∀ m ∈ members, KeysDistinct m.2) : KeysDistinct (.obj members)

/-- The values are equal up to the order of members. -/
inductive Same : Json → Json → Prop
  | null : Same .null .null
  | bool (b : Bool) : Same (.bool b) (.bool b)
  | num (n : ℚ) : Same (.num n) (.num n)
  | str (s : String) : Same (.str s) (.str s)
  | arr {xs ys : List Json} (hlength : xs.length = ys.length)
      (h : ∀ (i : ℕ) x y, xs[i]? = some x → ys[i]? = some y → Same x y) : Same (.arr xs) (.arr ys)
  | obj {ms ns : List (String × Json)} (hkeys : ∀ k, k ∈ ms.map Prod.fst ↔ k ∈ ns.map Prod.fst)
      (h : ∀ k v w, (k, v) ∈ ms → (k, w) ∈ ns → Same v w) : Same (.obj ms) (.obj ns)

theorem same_arr_iff {xs ys : List Json} : Same (.arr xs) (.arr ys) ↔
    xs.length = ys.length ∧
      ∀ (i : ℕ) x y, xs[i]? = some x → ys[i]? = some y → Same x y := by
  constructor
  · rintro ⟨⟩
    exact ⟨‹_›, ‹_›⟩
  · exact fun h => .arr h.1 h.2

theorem same_obj_iff {ms ns : List (String × Json)} : Same (.obj ms) (.obj ns) ↔
    (∀ k, k ∈ ms.map Prod.fst ↔ k ∈ ns.map Prod.fst) ∧
      ∀ k v w, (k, v) ∈ ms → (k, w) ∈ ns → Same v w := by
  constructor
  · rintro ⟨⟩
    exact ⟨‹_›, ‹_›⟩
  · exact fun h => .obj h.1 h.2

end Json

/-- Two lists have the same images when they do at each place. -/
theorem map_eq_map_iff_getElem? {α β : Type} {f : α → β} {xs ys : List α} :
    xs.map f = ys.map f ↔ xs.length = ys.length ∧
      ∀ (i : ℕ) x y, xs[i]? = some x → ys[i]? = some y → f x = f y := by
  induction xs generalizing ys with
  | nil => cases ys <;> simp
  | cons x xs ih =>
    cases ys with
    | nil => simp
    | cons y ys =>
      rw [List.map_cons, List.map_cons, List.cons.injEq, ih, List.length_cons, List.length_cons,
        Nat.add_right_cancel_iff]
      constructor
      · rintro ⟨hhead, hlength, htail⟩
        refine ⟨hlength, fun i => ?_⟩
        cases i with
        | zero => simpa using hhead
        | succ i => simpa using htail i
      · rintro ⟨hlength, hall⟩
        exact ⟨hall 0 x y rfl rfl, hlength, fun i => hall (i + 1)⟩

namespace WaitPlan

mutual

/-- The value without any member named `__proto__`. -/
def withoutProto : Json → Json
  | .null => .null
  | .bool b => .bool b
  | .num n => .num n
  | .str s => .str s
  | .arr items => .arr (itemsWithoutProto items)
  | .obj members => .obj (assignMembers (membersWithoutProto members))

def itemsWithoutProto : List Json → List Json
  | [] => []
  | item :: items => withoutProto item :: itemsWithoutProto items

def membersWithoutProto : List (String × Json) → List (String × Json)
  | [] => []
  | (key, value) :: members => (key, withoutProto value) :: membersWithoutProto members

end

theorem sortItems_eq (items : List Json) : sortItems items = items.map sortJson := by
  induction items with
  | nil => rfl
  | cons item items ih => rw [sortItems, ih, List.map_cons]

theorem sortMembers_eq (members : List (String × Json)) :
    sortMembers members = members.map fun m => (m.1, sortJson m.2) := by
  induction members with
  | nil => rfl
  | cons m members ih => rw [sortMembers, ih, List.map_cons]

theorem itemsWithoutProto_eq (items : List Json) :
    itemsWithoutProto items = items.map withoutProto := by
  induction items with
  | nil => rfl
  | cons item items ih => rw [itemsWithoutProto, ih, List.map_cons]

theorem membersWithoutProto_eq (members : List (String × Json)) :
    membersWithoutProto members = members.map fun m => (m.1, withoutProto m.2) := by
  induction members with
  | nil => rfl
  | cons m members ih => rw [membersWithoutProto, ih, List.map_cons]

/-! ## Equality -/

theorem sameItems_iff {xs : List Json} (ih : ∀ x ∈ xs, ∀ y, sameJson x y = true ↔ x = y)
    (ys : List Json) : sameItems xs ys = true ↔ xs = ys := by
  induction xs generalizing ys with
  | nil => cases ys <;> simp [sameItems]
  | cons x xs ihxs =>
    cases ys with
    | nil => simp [sameItems]
    | cons y ys =>
      rw [sameItems, Bool.and_eq_true, ih x List.mem_cons_self,
        ihxs fun x hx => ih x (List.mem_cons_of_mem _ hx), List.cons.injEq]

theorem sameMembers_iff {ms : List (String × Json)}
    (ih : ∀ m ∈ ms, ∀ w, sameJson m.2 w = true ↔ m.2 = w) (ns : List (String × Json)) :
    sameMembers ms ns = true ↔ ms = ns := by
  induction ms generalizing ns with
  | nil => cases ns <;> simp [sameMembers]
  | cons m ms ihms =>
    cases ns with
    | nil => simp [sameMembers]
    | cons n ns =>
      rw [sameMembers, Bool.and_eq_true, Bool.and_eq_true, beq_iff_eq,
        ih m List.mem_cons_self, ihms fun m hm => ih m (List.mem_cons_of_mem _ hm),
        List.cons.injEq, Prod.ext_iff]

theorem sameJson_iff (a b : Json) : sameJson a b = true ↔ a = b := by
  induction a using Json.induction generalizing b with
  | null => cases b <;> simp [sameJson]
  | bool x => cases b <;> simp [sameJson]
  | num x => cases b <;> simp [sameJson]
  | str x => cases b <;> simp [sameJson]
  | arr xs ih =>
    cases b with
    | arr ys => rw [sameJson, sameItems_iff ih, Json.arr.injEq]
    | _ => simp [sameJson]
  | obj ms ih =>
    cases b with
    | obj ns => rw [sameJson, sameMembers_iff ih, Json.obj.injEq]
    | _ => simp [sameJson]

/-! ## Sorted values -/

/-- The members of a sorted object. -/
def sortedMembers (members : List (String × Json)) : List (String × Json) :=
  assignMembers ((sortMembers members).insertionSort keyLE)

theorem mem_sortedMembers {members : List (String × Json)} {k : String} {u : Json} :
    (k, u) ∈ sortedMembers members ↔
      k ≠ "__proto__" ∧ ∃ v, (k, v) ∈ members ∧ sortJson v = u := by
  unfold sortedMembers assignMembers
  rw [List.mem_filter, decide_eq_true_iff, List.mem_insertionSort, sortMembers_eq, List.mem_map,
    and_comm]
  refine and_congr_right fun _ => ⟨?_, ?_⟩
  · rintro ⟨⟨k, v⟩, hm, hpair⟩
    cases hpair
    exact ⟨v, hm, rfl⟩
  · rintro ⟨v, hm, rfl⟩
    exact ⟨(k, v), hm, rfl⟩

theorem mem_withoutProto {members : List (String × Json)} {k : String} {u : Json} :
    (k, u) ∈ assignMembers (membersWithoutProto members) ↔
      k ≠ "__proto__" ∧ ∃ v, (k, v) ∈ members ∧ withoutProto v = u := by
  unfold assignMembers
  rw [List.mem_filter, decide_eq_true_iff, membersWithoutProto_eq, List.mem_map, and_comm]
  refine and_congr_right fun _ => ⟨?_, ?_⟩
  · rintro ⟨⟨k, v⟩, hm, hpair⟩
    cases hpair
    exact ⟨v, hm, rfl⟩
  · rintro ⟨v, hm, rfl⟩
    exact ⟨(k, v), hm, rfl⟩

theorem keyLE_antisymm {a b : String × Json} (hab : keyLE a b) (hba : keyLE b a) : a.1 = b.1 := by
  have hunits := le_antisymm hab hba
  exact utf16_injective (List.map_injective_iff.mpr (fun _ _ => UInt16.toNat_inj.mp) hunits)

instance : Std.Total keyLE := ⟨fun _ _ => le_total _ _⟩

instance : IsTrans (String × Json) keyLE := ⟨fun _ _ _ => le_trans⟩

/-- The keys are distinct after the sorting, too. -/
theorem sortedMembers_nodup {members : List (String × Json)}
    (h : (members.map Prod.fst).Nodup) : ((sortedMembers members).map Prod.fst).Nodup := by
  unfold sortedMembers assignMembers
  refine List.Nodup.sublist (List.filter_sublist.map _) ?_
  rw [((List.perm_insertionSort keyLE _).map Prod.fst).nodup_iff, sortMembers_eq, List.map_map]
  exact h

/-- Sorted members are determined by what they are. -/
theorem sortedMembers_eq_iff {ms ns : List (String × Json)} (hms : (ms.map Prod.fst).Nodup)
    (hns : (ns.map Prod.fst).Nodup) :
    sortedMembers ms = sortedMembers ns ↔
      ∀ k u, (k, u) ∈ sortedMembers ms ↔ (k, u) ∈ sortedMembers ns := by
  refine ⟨fun h _ _ => h ▸ Iff.rfl, fun h => ?_⟩
  have hmem : ∀ e, e ∈ sortedMembers ms ↔ e ∈ sortedMembers ns := fun e => h e.1 e.2
  have hms' := sortedMembers_nodup hms
  have hns' := sortedMembers_nodup hns
  have hsorted (members : List (String × Json)) : (sortedMembers members).Pairwise keyLE :=
    (List.pairwise_insertionSort keyLE _).filter _
  refine List.Perm.eq_of_pairwise (fun a b ha hb hab hba => ?_) (hsorted ms) (hsorted ns)
    ((List.perm_ext_iff_of_nodup hms'.of_map hns'.of_map).mpr hmem)
  exact List.inj_on_of_nodup_map hms' ha ((hmem b).mpr hb) (keyLE_antisymm hab hba)

section Objects

variable {ms ns : List (String × Json)}

theorem mem_keys_withoutProto {k : String} :
    k ∈ (assignMembers (membersWithoutProto ms)).map Prod.fst ↔
      k ≠ "__proto__" ∧ ∃ v, (k, v) ∈ ms := by
  simp only [List.mem_map, Prod.exists, exists_and_right, exists_eq_right, mem_withoutProto]
  constructor
  · rintro ⟨_, hk, v, hv, -⟩
    exact ⟨hk, v, hv⟩
  · rintro ⟨hk, v, hv⟩
    exact ⟨_, hk, v, hv, rfl⟩

/-- Values of one object are values of the other, under the same keys. -/
theorem sortedMembers_subset
    (hkeys : ∀ k, k ≠ "__proto__" → ∀ v, (k, v) ∈ ms → ∃ w, (k, w) ∈ ns)
    (hvalues : ∀ k, k ≠ "__proto__" → ∀ v w, (k, v) ∈ ms → (k, w) ∈ ns → sortJson v = sortJson w)
    {k : String} {u : Json} (h : (k, u) ∈ sortedMembers ms) : (k, u) ∈ sortedMembers ns := by
  obtain ⟨hk, v, hv, rfl⟩ := mem_sortedMembers.mp h
  obtain ⟨w, hw⟩ := hkeys k hk v hv
  exact mem_sortedMembers.mpr ⟨hk, w, hw, (hvalues k hk v w hv hw).symm⟩

/-- Objects are sorted to the same one when they have the same keys and values, `__proto__`
apart. -/
theorem sortedMembers_eq_iff_values (hms : (ms.map Prod.fst).Nodup)
    (hns : (ns.map Prod.fst).Nodup) :
    sortedMembers ms = sortedMembers ns ↔
      (∀ k, k ≠ "__proto__" → ((∃ v, (k, v) ∈ ms) ↔ ∃ w, (k, w) ∈ ns)) ∧
        ∀ k, k ≠ "__proto__" → ∀ v w, (k, v) ∈ ms → (k, w) ∈ ns → sortJson v = sortJson w := by
  rw [sortedMembers_eq_iff hms hns]
  constructor
  · intro h
    refine ⟨fun k hk => ⟨?_, ?_⟩, fun k hk v w hv hw => ?_⟩
    · rintro ⟨v, hv⟩
      obtain ⟨-, w, hw, -⟩ := mem_sortedMembers.mp
        ((h k _).mp (mem_sortedMembers.mpr ⟨hk, v, hv, rfl⟩))
      exact ⟨w, hw⟩
    · rintro ⟨w, hw⟩
      obtain ⟨-, v, hv, -⟩ := mem_sortedMembers.mp
        ((h k _).mpr (mem_sortedMembers.mpr ⟨hk, w, hw, rfl⟩))
      exact ⟨v, hv⟩
    · obtain ⟨-, w', hw', heq⟩ := mem_sortedMembers.mp
        ((h k _).mp (mem_sortedMembers.mpr ⟨hk, v, hv, rfl⟩))
      have hsame := List.inj_on_of_nodup_map hns hw' hw rfl
      rw [← heq, (Prod.mk.inj hsame).2]
  · rintro ⟨hkeys, hvalues⟩ k u
    refine ⟨sortedMembers_subset (fun k hk v hv => (hkeys k hk).mp ⟨v, hv⟩) hvalues,
      sortedMembers_subset (fun k hk w hw => (hkeys k hk).mpr ⟨w, hw⟩) ?_⟩
    exact fun k hk w v hw hv => (hvalues k hk v w hv hw).symm

/-- The values without `__proto__` are the same when the objects have the same keys and values,
`__proto__` apart. -/
theorem same_withoutProto_iff_values :
    Json.Same (withoutProto (.obj ms)) (withoutProto (.obj ns)) ↔
      (∀ k, k ≠ "__proto__" → ((∃ v, (k, v) ∈ ms) ↔ ∃ w, (k, w) ∈ ns)) ∧
        ∀ k, k ≠ "__proto__" → ∀ v w, (k, v) ∈ ms → (k, w) ∈ ns →
          Json.Same (withoutProto v) (withoutProto w) := by
  rw [withoutProto, withoutProto, Json.same_obj_iff]
  refine and_congr (forall_congr' fun k => ?_) ⟨fun h k hk v w hv hw => ?_, fun h k v w hv hw => ?_⟩
  · rw [mem_keys_withoutProto, mem_keys_withoutProto]
    exact and_congr_right_iff
  · exact h k _ _ (mem_withoutProto.mpr ⟨hk, v, hv, rfl⟩) (mem_withoutProto.mpr ⟨hk, w, hw, rfl⟩)
  · obtain ⟨hk, v', hv', rfl⟩ := mem_withoutProto.mp hv
    obtain ⟨-, w', hw', rfl⟩ := mem_withoutProto.mp hw
    exact h k hk v' w' hv' hw'

end Objects

/-- **Sorted values are equal exactly when the values without `__proto__` are the same.** -/
theorem sortJson_eq_iff {a b : Json} (ha : a.KeysDistinct) (hb : b.KeysDistinct) :
    sortJson a = sortJson b ↔ Json.Same (withoutProto a) (withoutProto b) := by
  induction a using Json.induction generalizing b with
  | null =>
    cases b with
    | null => exact iff_of_true rfl .null
    | _ => exact iff_of_false nofun nofun
  | bool x =>
    cases b with
    | bool y =>
      rw [sortJson, sortJson, Json.bool.injEq]
      exact ⟨fun h => h ▸ .bool x, fun h => by cases h; rfl⟩
    | _ => exact iff_of_false nofun nofun
  | num x =>
    cases b with
    | num y =>
      rw [sortJson, sortJson, Json.num.injEq]
      exact ⟨fun h => h ▸ .num x, fun h => by cases h; rfl⟩
    | _ => exact iff_of_false nofun nofun
  | str x =>
    cases b with
    | str y =>
      rw [sortJson, sortJson, Json.str.injEq]
      exact ⟨fun h => h ▸ .str x, fun h => by cases h; rfl⟩
    | _ => exact iff_of_false nofun nofun
  | arr xs ih =>
    cases b with
    | arr ys =>
      cases ha with
      | arr hxs =>
      cases hb with
      | arr hys =>
      have hitems (i : ℕ) (x y : Json) (hx : xs[i]? = some x) (hy : ys[i]? = some y) :
          sortJson x = sortJson y ↔ Json.Same (withoutProto x) (withoutProto y) := by
        have hx := List.mem_of_getElem? hx
        exact ih x hx (hxs x hx) (hys y (List.mem_of_getElem? hy))
      rw [sortJson, sortJson, Json.arr.injEq, sortItems_eq, sortItems_eq, map_eq_map_iff_getElem?,
        withoutProto, withoutProto, itemsWithoutProto_eq, itemsWithoutProto_eq, Json.same_arr_iff,
        List.length_map, List.length_map]
      refine and_congr_right fun _ => ⟨fun h i u t hu ht => ?_, fun h i x y hx hy => ?_⟩
      · rw [List.getElem?_map, Option.map_eq_some_iff] at hu ht
        obtain ⟨x, hx, rfl⟩ := hu
        obtain ⟨y, hy, rfl⟩ := ht
        exact (hitems i x y hx hy).mp (h i x y hx hy)
      · refine (hitems i x y hx hy).mpr (h i _ _ ?_ ?_)
        · rw [List.getElem?_map, hx, Option.map_some]
        · rw [List.getElem?_map, hy, Option.map_some]
    | _ => exact iff_of_false nofun nofun
  | obj ms ih =>
    cases b with
    | obj ns =>
      cases ha with
      | obj hms hvs =>
      cases hb with
      | obj hns hws =>
      have hsorted : sortJson (.obj ms) = sortJson (.obj ns) ↔
          sortedMembers ms = sortedMembers ns := by
        rw [sortJson, sortJson, Json.obj.injEq]
        rfl
      rw [hsorted, sortedMembers_eq_iff_values hms hns, same_withoutProto_iff_values]
      refine and_congr_right fun _ => forall₂_congr fun k _ => forall₂_congr fun v w =>
        forall₂_congr fun hv hw => ?_
      exact ih (k, v) hv (hvs (k, v) hv) (hws (k, w) hw)
    | _ => exact iff_of_false nofun nofun

/-- The same values are the same without `__proto__`. -/
theorem same_withoutProto {a b : Json} (h : a.Same b) :
    (withoutProto a).Same (withoutProto b) := by
  induction h with
  | null => exact .null
  | bool b => exact .bool b
  | num n => exact .num n
  | str s => exact .str s
  | arr hlength _ ih =>
    rw [withoutProto, withoutProto, itemsWithoutProto_eq, itemsWithoutProto_eq]
    refine .arr (by rw [List.length_map, List.length_map, hlength]) fun i u t hu ht => ?_
    rw [List.getElem?_map, Option.map_eq_some_iff] at hu ht
    obtain ⟨x, hx, rfl⟩ := hu
    obtain ⟨y, hy, rfl⟩ := ht
    exact ih i x y hx hy
  | obj hkeys _ ih =>
    refine same_withoutProto_iff_values.mpr ⟨fun k _ => ?_, fun k _ => ih k⟩
    simpa using hkeys k

/-! ## Plans -/

/-- The compared fields besides the input are equal. -/
structure SameFields (expected actual : PermissionWaitCanonicalPlan) : Prop where
  toolName : expected.toolName = actual.toolName
  cwd : expected.cwd = actual.cwd
  command : expected.command = actual.command
  stateEpoch : expected.stateEpoch = actual.stateEpoch
  target : expected.target = actual.target
  permission : expected.permission = actual.permission
  capabilityFacts : expected.capabilityFacts = actual.capabilityFacts

/-- The compared fields are equal as JSON values, up to the order of members. -/
def SamePlan (expected actual : PermissionWaitCanonicalPlan) : Prop :=
  SameFields expected actual ∧ expected.input.Same actual.input

theorem diff_eq_nil_iff (expected actual : PermissionWaitCanonicalPlan) :
    diffPermissionWaitCanonicalPlans expected actual = [] ↔
      SameFields expected actual ∧ sameStableJson expected.input actual.input = true := by
  unfold diffPermissionWaitCanonicalPlans
  simp only [List.append_eq_nil_iff, ite_eq_right_iff, ite_eq_left_iff, List.cons_ne_nil, imp_false,
    not_not]
  constructor
  · rintro ⟨⟨⟨⟨⟨⟨⟨h₁, h₂⟩, h₃⟩, h₄⟩, h₅⟩, h₆⟩, h₇⟩, h₈⟩
    exact ⟨⟨h₁, h₂, h₃, h₄, h₅, h₆, h₇⟩, h₈⟩
  · rintro ⟨⟨h₁, h₂, h₃, h₄, h₅, h₆, h₇⟩, h₈⟩
    exact ⟨⟨⟨⟨⟨⟨⟨h₁, h₂⟩, h₃⟩, h₄⟩, h₅⟩, h₆⟩, h₇⟩, h₈⟩

/-- **There is no difference exactly between the same plans, unless** the inputs differ in nothing
but the members named `__proto__`. -/
theorem diff_eq_nil_iff_same_iff (expected actual : PermissionWaitCanonicalPlan)
    (hexpected : expected.input.KeysDistinct) (hactual : actual.input.KeysDistinct) :
    (diffPermissionWaitCanonicalPlans expected actual = [] ↔ SamePlan expected actual) ↔
      ¬(SameFields expected actual ∧ ¬expected.input.Same actual.input ∧
        (withoutProto expected.input).Same (withoutProto actual.input)) := by
  rw [diff_eq_nil_iff, sameStableJson, sameJson_iff, sortJson_eq_iff hexpected hactual]
  unfold SamePlan
  by_cases hsame : expected.input.Same actual.input
  · have hdropped := same_withoutProto hsame
    simp only [hsame, hdropped, and_true, not_true_eq_false, and_false, not_false_eq_true]
  · simp only [hsame, and_false, iff_false, not_false_eq_true, true_and]

/-- A plan with one member in its input. -/
def samplePlanWith (key : String) (value : Json) : PermissionWaitCanonicalPlan where
  toolName := "shell"
  input := .obj [("command", .str "npm test"), (key, value)]
  cwd := "/workspace"
  target := {}
  permission := ⟨"execute", false, .reversible⟩
  capabilityFacts :=
    { toolPermissionLevel := "execute"
      toolIsReadOnly := false
      toolIsDestructive := false }

theorem samplePlanWith_distinct {key : String} (hkey : key ≠ "command") {value : Json}
    (hvalue : value.KeysDistinct) : (samplePlanWith key value).input.KeysDistinct := by
  refine .obj (by simpa using hkey.symm) fun m hm => ?_
  rcases List.mem_cons.mp hm with rfl | hm
  · exact .str _
  · rw [List.mem_singleton.mp hm]
    exact hvalue

/-- Another time limit is a difference. -/
theorem diff_eq_nil_iff_same_iff_sample :
    diffPermissionWaitCanonicalPlans (samplePlanWith "timeout" (.num 1))
        (samplePlanWith "timeout" (.num 2)) = [] ↔
      SamePlan (samplePlanWith "timeout" (.num 1)) (samplePlanWith "timeout" (.num 2)) := by
  refine (diff_eq_nil_iff_same_iff _ _ (samplePlanWith_distinct (by decide) (.num 1))
    (samplePlanWith_distinct (by decide) (.num 2))).mpr fun ⟨_, _, hdropped⟩ => ?_
  have hvalues := (same_withoutProto_iff_values.mp hdropped).2 "timeout" (by decide) (.num 1)
    (.num 2) (by simp) (by simp)
  rw [withoutProto, withoutProto] at hvalues
  cases hvalues

/-- **Two inputs that differ in their members named `__proto__` are compared as equal.** -/
theorem diff_of_proto :
    ¬(diffPermissionWaitCanonicalPlans (samplePlanWith "__proto__" (.num 1))
        (samplePlanWith "__proto__" (.num 2)) = [] ↔
      SamePlan (samplePlanWith "__proto__" (.num 1)) (samplePlanWith "__proto__" (.num 2))) := by
  intro h
  obtain ⟨-, hsame⟩ := h.mp (by decide +kernel)
  have hvalues := (Json.same_obj_iff.mp hsame).2 "__proto__" (.num 1) (.num 2) (by simp) (by simp)
  cases hvalues

end WaitPlan

end PulSeed
