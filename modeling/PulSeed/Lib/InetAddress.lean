import Mathlib.Data.List.Basic
import Mathlib.Data.Nat.Digits.Defs

/-!
# Internet addresses as texts

An IPv4 address is written as four octets, an IPv6 address as eight hextets of up to four
hexadecimal digits in either case. One run of hextets that are zero may be left out, the last
two hextets may be written as an IPv4 address, and a zone may follow. `Spells` says which texts
are written forms of an IPv6 address, whatever the way in which they are read.

`isIP` is the test of the platform for such texts: `isIP_six_iff` says that it accepts
exactly the written forms, `isIP_dotted` that it tells IPv4 addresses from them.
-/

namespace PulSeed.InetAddress

/-! ## IPv4 addresses -/

/-- An octet as a text: a decimal number without leading zeros. -/
def decimal (n : ℕ) : List Char := Nat.toDigits 10 n

/-- An address in dotted decimals. -/
def dotted (octets : List ℕ) : List Char := ['.'].intercalate (octets.map decimal)

/-- The text is that of an octet. -/
def isOctet (text : List Char) : Bool := (List.range 256).any fun n => decimal n = text

/-- `isIPv4(text)`. -/
def isIPv4 (text : List Char) : Bool :=
  (text.splitOn '.').length = 4 && (text.splitOn '.').all isOctet

/-! ## Written forms of IPv6 addresses -/

def lowerHexDigits : List Char := "0123456789abcdef".toList
def hexDigits : List Char := "0123456789abcdefABCDEF".toList

def isHexDigit (c : Char) : Bool := hexDigits.contains c

/-- The number that a text of hexadecimal digits stands for. -/
def ofHex (text : List Char) : ℕ :=
  text.foldl (fun n c => 16 * n + lowerHexDigits.idxOf c.toLower) 0

/-- A text is a written form of a hextet. -/
structure Hextet (text : List Char) (value : ℕ) : Prop where
  nonempty : text ≠ []
  short : text.length ≤ 4
  digits : ∀ c ∈ text, isHexDigit c = true
  value : value = ofHex text

/-- Hextets between colons; where `quad` allows it, the last two may be an IPv4 address. -/
inductive Part (quad : Bool) : List Char → List ℕ → Prop where
  | hextet {text : List Char} {value : ℕ} : Hextet text value → Part quad text [value]
  | ipv4 {a b c d : ℕ} : quad = true → a < 256 → b < 256 → c < 256 → d < 256 →
      Part quad (dotted [a, b, c, d]) [a * 256 + b, c * 256 + d]
  | cons {text rest : List Char} {value : ℕ} {values : List ℕ} : Hextet text value →
      Part quad rest values → Part quad (text ++ ':' :: rest) (value :: values)

/-- Hextets between colons, or none. -/
def Side (quad : Bool) (text : List Char) (values : List ℕ) : Prop :=
  (text = [] ∧ values = []) ∨ Part quad text values

/-- A text is a written form of eight hextets. -/
inductive Form : List Char → List ℕ → Prop where
  | full {text : List Char} {values : List ℕ} : Part true text values → values.length = 8 →
      Form text values
  | compressed {head tail : List Char} {before after : List ℕ} : Side false head before →
      Side true tail after → before.length + after.length ≤ 7 →
      Form (head ++ ':' :: ':' :: tail)
        (before ++ List.replicate (8 - (before.length + after.length)) 0 ++ after)

def isZoneChar (c : Char) : Bool := c.isAlphanum || c = '-' || c = '.' || c = ':'

/-- A text is a written form of an IPv6 address, which may have a zone. -/
inductive Spells : List Char → List ℕ → Prop where
  | plain {text : List Char} {values : List ℕ} : Form text values → Spells text values
  | zoned {text zone : List Char} {values : List ℕ} : Form text values → zone ≠ [] →
      (∀ c ∈ zone, isZoneChar c = true) → Spells (text ++ '%' :: zone) values

/-- The 128 bits of eight hextets, as a number. -/
def address (hextets : List ℕ) : ℕ := Nat.ofDigits 65536 hextets.reverse

/-! ## The test of the platform -/

/-- `text.split("::")`. -/
def splitPair : List Char → List (List Char)
  | [] => [[]]
  | ':' :: ':' :: rest => [] :: splitPair rest
  | c :: rest => (splitPair rest).modifyHead (c :: ·)

def isHextet (text : List Char) : Bool := text ≠ [] && text.length ≤ 4 && text.all isHexDigit

/-- The number of hextets that segments stand for, when they are well formed. -/
def hextetCount (quad : Bool) : List (List Char) → Option ℕ
  | [] => none
  | [segment] =>
    if isHextet segment then some 1 else if quad && isIPv4 segment then some 2 else none
  | segment :: segments =>
    if isHextet segment then (hextetCount quad segments).map (· + 1) else none

def sideCount (quad : Bool) (text : List Char) : Option ℕ :=
  if text = [] then some 0 else hextetCount quad (text.splitOn ':')

/-- The text without a zone is that of an IPv6 address. -/
def isForm (text : List Char) : Bool :=
  match splitPair text with
  | [whole] => hextetCount true (whole.splitOn ':') = some 8
  | [head, tail] =>
    match sideCount false head, sideCount true tail with
    | some before, some after => before + after ≤ 7
    | _, _ => false
  | _ => false

/-- `isIPv6(text)`. -/
def isIPv6 (text : List Char) : Bool :=
  match text.splitOn '%' with
  | [form] => isForm form
  | [form, zone] => isForm form && zone ≠ [] && zone.all isZoneChar
  | _ => false

/-- `isIP(text)`. -/
def isIP (text : List Char) : ℕ := if isIPv4 text then 4 else if isIPv6 text then 6 else 0

/-! ## IPv4 addresses are told apart -/

theorem decimal_isDigit (n : ℕ) : ∀ c ∈ decimal n, c.isDigit = true :=
  fun _ hc => Nat.isDigit_of_mem_toDigits (by decide) (by decide) hc

theorem isOctet_decimal {n : ℕ} (h : n < 256) : isOctet (decimal n) = true :=
  List.any_eq_true.mpr ⟨n, List.mem_range.mpr h, decide_eq_true rfl⟩

theorem isOctet_iff {text : List Char} : isOctet text = true ↔ ∃ n < 256, text = decimal n := by
  constructor
  · intro h
    obtain ⟨n, hn, heq⟩ := List.any_eq_true.mp h
    exact ⟨n, List.mem_range.mp hn, (of_decide_eq_true heq).symm⟩
  · rintro ⟨n, hn, rfl⟩
    exact isOctet_decimal hn

/-- No octet has a dot. -/
theorem dot_notMem_decimal (octets : List ℕ) : ∀ text ∈ octets.map decimal, '.' ∉ text := by
  intro text htext hdot
  obtain ⟨n, -, rfl⟩ := List.mem_map.mp htext
  exact absurd (decimal_isDigit n '.' hdot) (by decide)

theorem splitOn_dotted {octets : List ℕ} (hne : octets ≠ []) :
    (dotted octets).splitOn '.' = octets.map decimal :=
  List.splitOn_intercalate '.' (dot_notMem_decimal octets) (by simpa using hne)

theorem isIPv4_dotted {a b c d : ℕ} (ha : a < 256) (hb : b < 256) (hc : c < 256) (hd : d < 256) :
    isIPv4 (dotted [a, b, c, d]) = true := by
  unfold isIPv4
  rw [splitOn_dotted (List.cons_ne_nil _ _)]
  simp [isOctet_decimal, ha, hb, hc, hd]

theorem isIPv4_iff {text : List Char} : isIPv4 text = true ↔
    ∃ a b c d, a < 256 ∧ b < 256 ∧ c < 256 ∧ d < 256 ∧ text = dotted [a, b, c, d] := by
  constructor
  · intro h
    unfold isIPv4 at h
    obtain ⟨hlength, hall⟩ := Bool.and_eq_true_iff.mp h
    have hjoin : ['.'].intercalate (text.splitOn '.') = text := List.intercalate_splitOn '.'
    obtain ⟨a, b, c, d, hparts⟩ := List.length_eq_four.mp (of_decide_eq_true hlength)
    rw [hparts] at hall hjoin
    simp only [List.all_cons, List.all_nil, Bool.and_true, Bool.and_eq_true] at hall
    obtain ⟨ha, hb, hc, hd⟩ := hall
    obtain ⟨i, hi, rfl⟩ := isOctet_iff.mp ha
    obtain ⟨j, hj, rfl⟩ := isOctet_iff.mp hb
    obtain ⟨k, hk, rfl⟩ := isOctet_iff.mp hc
    obtain ⟨l, hl, rfl⟩ := isOctet_iff.mp hd
    exact ⟨i, j, k, l, hi, hj, hk, hl, hjoin.symm⟩
  · rintro ⟨a, b, c, d, ha, hb, hc, hd, rfl⟩
    exact isIPv4_dotted ha hb hc hd

theorem isIP_dotted {a b c d : ℕ} (ha : a < 256) (hb : b < 256) (hc : c < 256) (hd : d < 256) :
    isIP (dotted [a, b, c, d]) = 4 := by
  unfold isIP
  rw [if_pos (isIPv4_dotted ha hb hc hd)]

/-- The characters of an address in dotted decimals. -/
theorem dotted_chars {octets : List ℕ} :
    ∀ c ∈ dotted octets, c.isDigit = true ∨ c = '.' := by
  intro c hc
  unfold dotted at hc
  induction octets with
  | nil => cases hc
  | cons n octets ih =>
    cases octets with
    | nil =>
      rw [List.map_singleton, List.intercalate_singleton] at hc
      exact .inl (decimal_isDigit _ c hc)
    | cons m octets =>
      rw [List.map_cons, List.map_cons, List.intercalate_cons_cons, List.append_assoc] at hc
      rcases List.mem_append.mp hc with hc | hc
      · exact .inl (decimal_isDigit _ c hc)
      · rcases List.mem_append.mp hc with hc | hc
        · exact .inr (List.mem_singleton.mp hc)
        · exact ih hc

/-! ## The characters of a written form -/

theorem Hextet.ne_colon {text : List Char} {value : ℕ} (h : Hextet text value) : ':' ∉ text :=
  fun hc => absurd (h.digits ':' hc) (by decide)

theorem Hextet.ne_dot {text : List Char} {value : ℕ} (h : Hextet text value) : '.' ∉ text :=
  fun hc => absurd (h.digits '.' hc) (by decide)

/-- A character of a part is a hexadecimal digit, a dot or a colon. -/
def isPartChar (c : Char) : Bool := isHexDigit c || c = '.' || c = ':'

theorem digit_facts {c : Char} (h : c.isDigit = true) :
    isPartChar c = true ∧ c ≠ ':' ∧ c.toLower = c := by
  have hall : ∀ n < 128, (Char.ofNat n).isDigit = true → isPartChar (Char.ofNat n) = true ∧
      Char.ofNat n ≠ ':' ∧ (Char.ofNat n).toLower = Char.ofNat n := by decide
  have hnine : '9'.toNat = 57 := rfl
  have hle := (Char.isDigit_iff_toNat.mp h).2
  have hthis := hall c.toNat (by omega)
  rw [Char.ofNat_toNat] at hthis
  exact hthis h

theorem isPartChar_dotted {octets : List ℕ} :
    ∀ c ∈ dotted octets, isPartChar c = true ∧ c ≠ ':' := by
  intro c hc
  rcases dotted_chars c hc with hc | rfl
  · exact ⟨(digit_facts hc).1, (digit_facts hc).2.1⟩
  · decide

theorem Part.chars {quad : Bool} {text : List Char} {values : List ℕ} (h : Part quad text values) :
    ∀ c ∈ text, isPartChar c = true := by
  induction h with
  | hextet h =>
    intro c hc
    unfold isPartChar
    rw [h.digits c hc]
    rfl
  | ipv4 _ ha hb hc hd => exact fun c hmem => (isPartChar_dotted c hmem).1
  | cons h _ ih =>
    intro c hc
    rcases List.mem_append.mp hc with hc | hc
    · unfold isPartChar
      rw [h.digits c hc]
      rfl
    · rcases List.mem_cons.mp hc with rfl | hc
      · rfl
      · exact ih c hc

theorem Side.chars {quad : Bool} {text : List Char} {values : List ℕ} (h : Side quad text values) :
    ∀ c ∈ text, isPartChar c = true := by
  rcases h with ⟨rfl, -⟩ | h
  · intro c hc
    cases hc
  · exact h.chars

theorem Form.chars {text : List Char} {values : List ℕ} (h : Form text values) :
    ∀ c ∈ text, isPartChar c = true := by
  cases h with
  | full hpart _ => exact hpart.chars
  | compressed hhead htail _ =>
    intro c hc
    rcases List.mem_append.mp hc with hc | hc
    · exact hhead.chars c hc
    · rcases List.mem_cons.mp hc with rfl | hc
      · rfl
      · rcases List.mem_cons.mp hc with rfl | hc
        · rfl
        · exact htail.chars c hc

/-- A written form has no brackets. -/
theorem Spells.ne_bracket {text : List Char} {values : List ℕ} (h : Spells text values) :
    ∀ c ∈ text, c ≠ '[' ∧ c ≠ ']' := by
  have hpart : ∀ c, isPartChar c = true → c ≠ '[' ∧ c ≠ ']' := by
    intro c hc
    constructor
    · rintro rfl
      exact absurd hc (by decide)
    · rintro rfl
      exact absurd hc (by decide)
  cases h with
  | plain h => exact fun c hc => hpart c (h.chars c hc)
  | zoned h _ hzone =>
    intro c hc
    rcases List.mem_append.mp hc with hc | hc
    · exact hpart c (h.chars c hc)
    · rcases List.mem_cons.mp hc with rfl | hc
      · decide
      · have hzone := hzone c hc
        constructor
        · rintro rfl
          exact absurd hzone (by decide)
        · rintro rfl
          exact absurd hzone (by decide)

/-! ## Splitting at two colons -/

theorem splitPair_nil : splitPair [] = [[]] := rfl

theorem splitPair_pair (rest : List Char) :
    splitPair (':' :: ':' :: rest) = [] :: splitPair rest := rfl

/-- A character that does not start a pair of colons stays in its part. -/
theorem splitPair_cons {c : Char} {rest : List Char} (hc : ∀ tail, c = ':' → rest ≠ ':' :: tail) :
    splitPair (c :: rest) = (splitPair rest).modifyHead (c :: ·) :=
  splitPair.eq_3 c rest fun tail heq hrest => hc tail heq hrest

theorem splitPair_ne_nil (text : List Char) : splitPair text ≠ [] := by
  induction text using splitPair.induct with
  | case1 => exact List.cons_ne_nil _ _
  | case2 rest _ => exact List.cons_ne_nil _ _
  | case3 c rest hc ih =>
    rw [splitPair_cons hc]
    cases hparts : splitPair rest with
    | nil => exact absurd hparts ih
    | cons part parts => exact List.cons_ne_nil _ _

/-- The parts join to the text again. -/
theorem intercalate_splitPair (text : List Char) :
    [':', ':'].intercalate (splitPair text) = text := by
  induction text using splitPair.induct with
  | case1 => rfl
  | case2 rest ih =>
    rw [splitPair_pair, List.intercalate_cons_of_ne_nil (splitPair_ne_nil rest), ih]
    rfl
  | case3 c rest hc ih =>
    rw [splitPair_cons hc]
    cases hparts : splitPair rest with
    | nil => exact absurd hparts (splitPair_ne_nil rest)
    | cons part parts =>
      rw [hparts] at ih
      rw [List.modifyHead_cons]
      cases parts with
      | nil =>
        rw [List.intercalate_singleton] at ih ⊢
        rw [ih]
      | cons next parts =>
        rw [List.intercalate_cons_cons] at ih ⊢
        rw [List.cons_append, List.cons_append, ih]

theorem modifyHead_append (first second : List Char) (parts : List (List Char)) :
    (parts.modifyHead (second ++ ·)).modifyHead (first ++ ·) =
      parts.modifyHead ((first ++ second) ++ ·) := by
  cases parts with
  | nil => rfl
  | cons part parts => simp

/-- A text without colons stays in one part. -/
theorem splitPair_append {text : List Char} (h : ':' ∉ text) (rest : List Char) :
    splitPair (text ++ rest) = (splitPair rest).modifyHead (text ++ ·) := by
  induction text with
  | nil => cases hparts : splitPair rest <;> simp [hparts]
  | cons c text ih =>
    have hc : c ≠ ':' := fun heq => h (heq ▸ List.mem_cons_self)
    rw [List.cons_append, splitPair_cons fun _ heq _ => hc heq,
      ih fun hmem => h (List.mem_cons_of_mem _ hmem)]
    exact modifyHead_append [c] text (splitPair rest)

/-- A colon that no colon follows stays in its part. -/
theorem splitPair_colon {c : Char} (hc : c ≠ ':') (rest : List Char) :
    splitPair (':' :: c :: rest) = (splitPair (c :: rest)).modifyHead (':' :: ·) :=
  splitPair_cons fun _ _ heq => hc (List.cons.inj heq).1

theorem Part.head {quad : Bool} {text : List Char} {values : List ℕ} (h : Part quad text values) :
    ∃ c rest, text = c :: rest ∧ c ≠ ':' := by
  cases h with
  | hextet h =>
    obtain ⟨c, rest, rfl⟩ := List.exists_cons_of_ne_nil h.nonempty
    exact ⟨c, rest, rfl, fun heq => h.ne_colon (heq ▸ List.mem_cons_self)⟩
  | @ipv4 a b c d _ ha hb hc hd =>
    have hne : dotted [a, b, c, d] ≠ [] := by
      unfold dotted
      rw [List.map_cons, List.map_cons, List.intercalate_cons_cons, List.append_assoc]
      exact List.append_ne_nil_of_left_ne_nil Nat.toDigits_ne_nil _
    obtain ⟨first, rest, heq⟩ := List.exists_cons_of_ne_nil hne
    refine ⟨first, rest, heq, ?_⟩
    exact (isPartChar_dotted first (heq ▸ List.mem_cons_self)).2
  | @cons text rest _ _ h _ =>
    obtain ⟨c, text', rfl⟩ := List.exists_cons_of_ne_nil h.nonempty
    exact ⟨c, text' ++ ':' :: rest, rfl, fun heq => h.ne_colon (heq ▸ List.mem_cons_self)⟩

theorem dotted_ne_colon {octets : List ℕ} : ':' ∉ dotted octets :=
  fun hmem => (isPartChar_dotted ':' hmem).2 rfl

/-- **A part is not split.** -/
theorem Part.not_split {quad : Bool} {text : List Char} {values : List ℕ}
    (h : Part quad text values) (rest : List Char) :
    splitPair (text ++ rest) = (splitPair rest).modifyHead (text ++ ·) := by
  induction h with
  | hextet h => exact splitPair_append h.ne_colon rest
  | ipv4 _ ha hb hc hd => exact splitPair_append dotted_ne_colon rest
  | @cons text after value values h hrest ih =>
    obtain ⟨c, after', rfl, hc⟩ := hrest.head
    rw [List.append_assoc, splitPair_append h.ne_colon, List.cons_append, List.cons_append,
      splitPair_colon hc, ← List.cons_append, ih, ← List.singleton_append]
    rw [show (':' :: ·) = ([':'] ++ · : List Char → List Char) from rfl, modifyHead_append,
      modifyHead_append]
    simp

theorem Side.not_split {quad : Bool} {text : List Char} {values : List ℕ}
    (h : Side quad text values) (rest : List Char) :
    splitPair (text ++ rest) = (splitPair rest).modifyHead (text ++ ·) := by
  rcases h with ⟨rfl, -⟩ | h
  · cases hparts : splitPair rest <;> simp [hparts]
  · exact h.not_split rest

/-! ## The test accepts the written forms -/

theorem Hextet.isHextet {text : List Char} {value : ℕ} (h : Hextet text value) :
    isHextet text = true := by
  unfold InetAddress.isHextet
  rw [Bool.and_eq_true, Bool.and_eq_true]
  exact ⟨⟨decide_eq_true h.nonempty, decide_eq_true h.short⟩, List.all_eq_true.mpr h.digits⟩

theorem hextet_of_isHextet {text : List Char} (h : isHextet text = true) :
    Hextet text (ofHex text) := by
  unfold InetAddress.isHextet at h
  rw [Bool.and_eq_true, Bool.and_eq_true] at h
  obtain ⟨⟨hne, hshort⟩, hdigits⟩ := h
  exact ⟨of_decide_eq_true hne, of_decide_eq_true hshort, List.all_eq_true.mp hdigits, rfl⟩

/-- An address in dotted decimals has a dot, so it is no hextet. -/
theorem isHextet_dotted (a b c d : ℕ) : isHextet (dotted [a, b, c, d]) = false := by
  refine Bool.eq_false_iff.mpr fun h => ?_
  refine (hextet_of_isHextet h).ne_dot ?_
  unfold dotted
  rw [List.map_cons, List.map_cons, List.intercalate_cons_cons]
  simp

/-- The splits of a part are counted as its hextets. -/
theorem Part.count {quad : Bool} {text : List Char} {values : List ℕ} (h : Part quad text values) :
    hextetCount quad (text.splitOn ':') = some values.length := by
  induction h with
  | hextet h =>
    rw [List.splitOn_eq_singleton h.ne_colon, hextetCount, if_pos h.isHextet]
    rfl
  | @ipv4 a b c d hquad ha hb hc hd =>
    rw [List.splitOn_eq_singleton dotted_ne_colon, hextetCount, isHextet_dotted,
      if_neg Bool.false_ne_true, hquad, isIPv4_dotted ha hb hc hd]
    rfl
  | @cons text rest value values h _ ih =>
    rw [List.splitOn_append_cons_self_of_not_mem h.ne_colon]
    obtain ⟨segment, segments, hsegments⟩ :=
      List.exists_cons_of_ne_nil (List.splitOn_ne_nil ':' rest)
    rw [hsegments] at ih ⊢
    rw [hextetCount, if_pos h.isHextet, ih]
    · rfl
    · exact List.cons_ne_nil _ _

/-- Segments that are counted make a part. -/
theorem part_of_count {quad : Bool} {segments : List (List Char)} {n : ℕ}
    (h : hextetCount quad segments = some n) :
    ∃ values, Part quad ([':'].intercalate segments) values ∧ values.length = n := by
  induction segments generalizing n with
  | nil => cases h
  | cons segment segments ih =>
    cases segments with
    | nil =>
      rw [List.intercalate_singleton]
      rw [hextetCount] at h
      split at h
      · next hhextet =>
        cases h
        exact ⟨_, .hextet (hextet_of_isHextet hhextet), rfl⟩
      · split at h
        · next hquad =>
          cases h
          obtain ⟨hallowed, hipv4⟩ := Bool.and_eq_true_iff.mp hquad
          obtain ⟨a, b, c, d, ha, hb, hc, hd, rfl⟩ := isIPv4_iff.mp hipv4
          exact ⟨_, .ipv4 hallowed ha hb hc hd, rfl⟩
        · cases h
    | cons next segments =>
      rw [hextetCount] at h
      · split at h
        · next hhextet =>
          obtain ⟨m, hm, rfl⟩ := Option.map_eq_some_iff.mp h
          obtain ⟨values, hpart, hlength⟩ := ih hm
          rw [List.intercalate_cons_cons, List.append_assoc, List.singleton_append]
          refine ⟨_, .cons (hextet_of_isHextet hhextet) hpart, ?_⟩
          rw [List.length_cons, hlength]
        · cases h
      · exact List.cons_ne_nil _ _

theorem Side.count {quad : Bool} {text : List Char} {values : List ℕ} (h : Side quad text values) :
    sideCount quad text = some values.length := by
  unfold sideCount
  rcases h with ⟨rfl, rfl⟩ | h
  · rfl
  · obtain ⟨c, rest, rfl, -⟩ := h.head
    rw [if_neg (List.cons_ne_nil _ _)]
    exact h.count

theorem side_of_count {quad : Bool} {text : List Char} {n : ℕ}
    (h : sideCount quad text = some n) : ∃ values, Side quad text values ∧ values.length = n := by
  unfold sideCount at h
  split at h
  · next hempty =>
    cases h
    exact ⟨[], .inl ⟨hempty, rfl⟩, rfl⟩
  · obtain ⟨values, hpart, hlength⟩ := part_of_count h
    rw [List.intercalate_splitOn] at hpart
    exact ⟨values, .inr hpart, hlength⟩

/-- A part as a whole is one part. -/
theorem Part.splitPair_self {quad : Bool} {text : List Char} {values : List ℕ}
    (h : Part quad text values) : splitPair text = [text] := by
  have hsplit := h.not_split []
  rw [List.append_nil] at hsplit
  rw [hsplit]
  simp [splitPair_nil]

/-- Two sides are two parts. -/
theorem splitPair_compressed {head tail : List Char} {before after : List ℕ}
    (hhead : Side false head before) (htail : Side true tail after) :
    splitPair (head ++ ':' :: ':' :: tail) = [head, tail] := by
  have hsplit := htail.not_split []
  rw [List.append_nil] at hsplit
  rw [hhead.not_split, splitPair_pair, hsplit]
  simp [splitPair_nil]

theorem isForm_iff {text : List Char} : isForm text = true ↔ ∃ values, Form text values := by
  constructor
  · intro h
    have hjoin := intercalate_splitPair text
    unfold isForm at h
    split at h
    · next whole hparts =>
      rw [hparts, List.intercalate_singleton] at hjoin
      obtain ⟨values, hpart, hlength⟩ := part_of_count (of_decide_eq_true h)
      rw [List.intercalate_splitOn, hjoin] at hpart
      exact ⟨values, .full hpart hlength⟩
    · next head tail hparts =>
      rw [hparts, List.intercalate_cons_cons, List.intercalate_singleton] at hjoin
      split at h
      · next m n hm hn =>
        obtain ⟨before, hbefore, rfl⟩ := side_of_count hm
        obtain ⟨after, hafter, rfl⟩ := side_of_count hn
        have hform := Form.compressed hbefore hafter (of_decide_eq_true h)
        rw [List.append_assoc, List.cons_append, List.cons_append, List.nil_append] at hjoin
        rw [hjoin] at hform
        exact ⟨_, hform⟩
      · cases h
    · cases h
  · rintro ⟨values, h⟩
    unfold isForm
    cases h with
    | full hpart hlength =>
      rw [hpart.splitPair_self]
      dsimp only
      rw [hpart.count, hlength]
      rfl
    | compressed hhead htail hshort =>
      rw [splitPair_compressed hhead htail]
      dsimp only
      rw [hhead.count, htail.count]
      exact decide_eq_true hshort

theorem Form.ne_percent {text : List Char} {values : List ℕ} (h : Form text values) :
    '%' ∉ text :=
  fun hmem => absurd (h.chars '%' hmem) (by decide)

theorem isIPv6_iff {text : List Char} : isIPv6 text = true ↔ ∃ values, Spells text values := by
  constructor
  · intro h
    have hjoin : ['%'].intercalate (text.splitOn '%') = text := List.intercalate_splitOn '%'
    unfold isIPv6 at h
    split at h
    · next form hparts =>
      rw [hparts, List.intercalate_singleton] at hjoin
      obtain ⟨values, hform⟩ := isForm_iff.mp h
      exact ⟨values, hjoin ▸ .plain hform⟩
    · next form zone hparts =>
      rw [hparts, List.intercalate_cons_cons, List.intercalate_singleton, List.append_assoc,
        List.singleton_append] at hjoin
      rw [Bool.and_eq_true, Bool.and_eq_true] at h
      obtain ⟨⟨hform, hne⟩, hzone⟩ := h
      obtain ⟨values, hform⟩ := isForm_iff.mp hform
      exact ⟨values, hjoin ▸ .zoned hform (of_decide_eq_true hne) (List.all_eq_true.mp hzone)⟩
    · cases h
  · rintro ⟨values, h⟩
    unfold isIPv6
    cases h with
    | plain hform =>
      rw [List.splitOn_eq_singleton hform.ne_percent]
      exact isForm_iff.mpr ⟨values, hform⟩
    | zoned hform hne hzone =>
      have hpercent : '%' ∉ _ := fun hmem => absurd (hzone '%' hmem) (by decide)
      rw [List.splitOn_append_cons_self_of_not_mem hform.ne_percent,
        List.splitOn_eq_singleton hpercent]
      dsimp only
      rw [isForm_iff.mpr ⟨values, hform⟩, decide_eq_true hne, List.all_eq_true.mpr hzone]
      rfl

/-- Every written form of an IPv6 address has a colon. -/
theorem Form.colon {text : List Char} {values : List ℕ} (h : Form text values) : ':' ∈ text := by
  cases h with
  | full hpart hlength =>
    cases hpart with
    | hextet _ => cases hlength
    | ipv4 _ _ _ _ _ => cases hlength
    | cons _ _ => simp
  | compressed _ _ _ => simp

theorem Spells.not_isIPv4 {text : List Char} {values : List ℕ} (h : Spells text values) :
    isIPv4 text = false := by
  have hcolon : ':' ∈ text := by
    cases h with
    | plain hform => exact hform.colon
    | zoned hform _ _ => exact List.mem_append_left _ hform.colon
  refine Bool.eq_false_iff.mpr fun hipv4 => ?_
  obtain ⟨a, b, c, d, ha, hb, hc, hd, rfl⟩ := isIPv4_iff.mp hipv4
  exact dotted_ne_colon hcolon

/-- **The platform accepts exactly the written forms.** -/
theorem isIP_six_iff {text : List Char} : isIP text = 6 ↔ ∃ values, Spells text values := by
  unfold isIP
  constructor
  · intro h
    split at h
    · cases h
    split at h
    · next hipv6 => exact isIPv6_iff.mp hipv6
    · cases h
  · rintro ⟨values, h⟩
    rw [h.not_isIPv4, if_neg Bool.false_ne_true, if_pos (isIPv6_iff.mpr ⟨values, h⟩)]

/-! ## Lower case -/

/-- `text.toLowerCase()`. -/
def toLowerCase (text : List Char) : List Char := text.map Char.toLower

theorem hexDigit_facts {c : Char} (h : isHexDigit c = true) :
    isHexDigit c.toLower = true ∧ c.toLower.toLower = c.toLower ∧
      lowerHexDigits.contains c.toLower = true ∧ lowerHexDigits.idxOf c.toLower < 16 := by
  have hall : hexDigits.all (fun c => isHexDigit c.toLower = true ∧
      c.toLower.toLower = c.toLower ∧ lowerHexDigits.contains c.toLower = true ∧
      lowerHexDigits.idxOf c.toLower < 16) = true := by decide
  exact of_decide_eq_true (List.all_eq_true.mp hall c (List.contains_iff_mem.mp h))

theorem ofHex_toLowerCase {text : List Char} (h : ∀ c ∈ text, isHexDigit c = true) :
    ofHex (toLowerCase text) = ofHex text := by
  unfold ofHex toLowerCase
  rw [List.foldl_map]
  refine List.foldl_ext _ _ _ fun n c hc => ?_
  rw [(hexDigit_facts (h c hc)).2.1]

theorem Hextet.lower {text : List Char} {value : ℕ} (h : Hextet text value) :
    Hextet (toLowerCase text) value where
  nonempty := by
    unfold toLowerCase
    simpa using h.nonempty
  short := by
    unfold toLowerCase
    rw [List.length_map]
    exact h.short
  digits := by
    intro c hc
    obtain ⟨d, hd, rfl⟩ := List.mem_map.mp hc
    exact (hexDigit_facts (h.digits d hd)).1
  value := by rw [ofHex_toLowerCase h.digits, h.value]

theorem toLowerCase_dotted (octets : List ℕ) :
    toLowerCase (dotted octets) = dotted octets := by
  unfold toLowerCase
  refine (List.map_congr_left fun c hc => ?_).trans (List.map_id _)
  rcases dotted_chars c hc with hc | rfl
  · exact (digit_facts hc).2.2
  · rfl

theorem toLowerCase_cons_append (text rest : List Char) (c : Char) (hc : c.toLower = c) :
    toLowerCase (text ++ c :: rest) = toLowerCase text ++ c :: toLowerCase rest := by
  unfold toLowerCase
  rw [List.map_append, List.map_cons, hc]

theorem Part.lower {quad : Bool} {text : List Char} {values : List ℕ} (h : Part quad text values) :
    Part quad (toLowerCase text) values := by
  induction h with
  | hextet h => exact .hextet h.lower
  | ipv4 hquad ha hb hc hd =>
    rw [toLowerCase_dotted]
    exact .ipv4 hquad ha hb hc hd
  | @cons text rest _ _ h _ ih =>
    rw [toLowerCase_cons_append text rest ':' rfl]
    exact .cons h.lower ih

theorem Side.lower {quad : Bool} {text : List Char} {values : List ℕ} (h : Side quad text values) :
    Side quad (toLowerCase text) values := by
  rcases h with ⟨rfl, rfl⟩ | h
  · exact .inl ⟨rfl, rfl⟩
  · exact .inr h.lower

theorem Form.lower {text : List Char} {values : List ℕ} (h : Form text values) :
    Form (toLowerCase text) values := by
  cases h with
  | full hpart hlength => exact .full hpart.lower hlength
  | @compressed head tail _ _ hhead htail hshort =>
    rw [toLowerCase_cons_append head (':' :: tail) ':' rfl]
    exact .compressed hhead.lower htail.lower hshort

theorem isZoneChar_toLower {c : Char} (h : isZoneChar c = true) : isZoneChar c.toLower = true := by
  have hall : ∀ n < 128, isZoneChar (Char.ofNat n) = true →
      isZoneChar (Char.ofNat n).toLower = true := by decide
  by_cases hsmall : c.toNat < 128
  · have hthis := hall c.toNat hsmall
    rw [Char.ofNat_toNat] at hthis
    exact hthis h
  · -- only capital letters change
    have hsame : c.toLower = c := by
      unfold Char.toLower
      rw [dif_neg]
      rintro ⟨-, hle⟩
      have hle : c.toNat ≤ 90 := hle
      omega
    rwa [hsame]

/-- **A written form may be written in lower case.** -/
theorem Spells.lower {text : List Char} {values : List ℕ} (h : Spells text values) :
    Spells (toLowerCase text) values := by
  cases h with
  | plain hform => exact .plain hform.lower
  | @zoned text zone _ hform hne hzone =>
    rw [toLowerCase_cons_append text zone '%' rfl]
    refine .zoned hform.lower ?_ ?_
    · unfold toLowerCase
      simpa using hne
    · intro c hc
      obtain ⟨d, hd, rfl⟩ := List.mem_map.mp hc
      exact isZoneChar_toLower (hzone d hd)

/-! ## The address -/

theorem ofHex_lt {text : List Char} (h : ∀ c ∈ text, isHexDigit c = true) :
    ofHex text < 16 ^ text.length := by
  have hfold : ∀ n, text.foldl (fun n c => 16 * n + lowerHexDigits.idxOf c.toLower) n <
      (n + 1) * 16 ^ text.length := by
    induction text with
    | nil =>
      intro n
      simp
    | cons c text ih =>
      intro n
      have hc := (hexDigit_facts (h c List.mem_cons_self)).2.2.2
      have hrest := ih (fun d hd => h d (List.mem_cons_of_mem _ hd))
        (16 * n + lowerHexDigits.idxOf c.toLower)
      rw [List.foldl_cons, List.length_cons, pow_succ]
      calc
        _ < (16 * n + lowerHexDigits.idxOf c.toLower + 1) * 16 ^ text.length := hrest
        _ ≤ (16 * n + 16) * 16 ^ text.length := Nat.mul_le_mul_right _ (by omega)
        _ = (n + 1) * (16 ^ text.length * 16) := by ring
  simpa [ofHex] using hfold 0

theorem Hextet.lt {text : List Char} {value : ℕ} (h : Hextet text value) : value < 65536 := by
  rw [h.value]
  calc
    _ < 16 ^ text.length := ofHex_lt h.digits
    _ ≤ 16 ^ 4 := Nat.pow_le_pow_right (by decide) h.short

theorem Part.lt {quad : Bool} {text : List Char} {values : List ℕ} (h : Part quad text values) :
    ∀ v ∈ values, v < 65536 := by
  induction h with
  | hextet h =>
    intro v hv
    rw [List.mem_singleton.mp hv]
    exact h.lt
  | ipv4 _ ha hb hc hd =>
    intro v hv
    rcases List.mem_cons.mp hv with rfl | hv
    · omega
    · rw [List.mem_singleton.mp hv]
      omega
  | cons h _ ih =>
    intro v hv
    rcases List.mem_cons.mp hv with rfl | hv
    · exact h.lt
    · exact ih v hv

theorem Side.lt {quad : Bool} {text : List Char} {values : List ℕ} (h : Side quad text values) :
    ∀ v ∈ values, v < 65536 := by
  rcases h with ⟨-, rfl⟩ | h
  · intro v hv
    cases hv
  · exact h.lt

/-- A written form stands for eight hextets. -/
theorem Form.hextets {text : List Char} {values : List ℕ} (h : Form text values) :
    values.length = 8 ∧ ∀ v ∈ values, v < 65536 := by
  cases h with
  | full hpart hlength => exact ⟨hlength, hpart.lt⟩
  | compressed hhead htail hshort =>
    constructor
    · rw [List.length_append, List.length_append, List.length_replicate]
      omega
    · intro v hv
      rcases List.mem_append.mp hv with hv | hv
      · rcases List.mem_append.mp hv with hv | hv
        · exact hhead.lt v hv
        · rw [List.eq_of_mem_replicate hv]
          decide
      · exact htail.lt v hv

theorem Spells.hextets {text : List Char} {values : List ℕ} (h : Spells text values) :
    values.length = 8 ∧ ∀ v ∈ values, v < 65536 := by
  cases h with
  | plain hform => exact hform.hextets
  | zoned hform _ _ => exact hform.hextets

/-- **The 128 bits determine the hextets.** -/
theorem Spells.address_inj {text text' : List Char} {values values' : List ℕ}
    (h : Spells text values) (h' : Spells text' values') (heq : address values = address values') :
    values = values' := by
  obtain ⟨hlength, hlt⟩ := h.hextets
  obtain ⟨hlength', hlt'⟩ := h'.hextets
  refine List.reverse_injective (Nat.ofDigits_inj_of_len_eq (by decide) ?_ ?_ ?_ heq)
  · rw [List.length_reverse, List.length_reverse, hlength, hlength']
  · exact fun v hv => hlt v (List.mem_reverse.mp hv)
  · exact fun v hv => hlt' v (List.mem_reverse.mp hv)

end PulSeed.InetAddress
