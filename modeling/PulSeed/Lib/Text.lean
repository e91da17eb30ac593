import PulSeed.Lib.Number

/-!
# Strings of UTF-16 code units

A string of the source is the list of its UTF-16 code units: its length, its slices and
its comparisons count them. The operations are the ones that the modelled code uses,
under their own names.
-/

namespace PulSeed

/-- A string: its UTF-16 code units. -/
abbrev Text := List UInt16

/-- The code units of a string literal. -/
def utf16 (s : String) : Text :=
  s.toList.flatMap fun c =>
    if c.toNat < 0x10000 then [.ofNat c.toNat]
    else [.ofNat (0xD800 + (c.toNat - 0x10000) / 0x400), .ofNat (0xDC00 + (c.toNat - 0x10000) % 0x400)]

/-- The code units of a character. -/
def charUnits (c : Char) : Text :=
  if c.toNat < 0x10000 then [.ofNat c.toNat]
  else [.ofNat (0xD800 + (c.toNat - 0x10000) / 0x400), .ofNat (0xDC00 + (c.toNat - 0x10000) % 0x400)]

theorem charUnits_append {c d : Char} {s t : Text} (h : charUnits c ++ s = charUnits d ++ t) :
    c = d ∧ s = t := by
  -- a character is no surrogate, so that a pair of units is not two characters
  have hc : c.toNat < 0xD800 ∨ 0xDFFF < c.toNat ∧ c.toNat < 0x110000 := c.valid
  have hd : d.toNat < 0xD800 ∨ 0xDFFF < d.toNat ∧ d.toNat < 0x110000 := d.valid
  rw [← Char.toNat_inj]
  unfold charUnits at h
  split at h <;> split at h <;>
    simp only [List.cons_append, List.nil_append, List.cons.injEq, ← UInt16.toNat_inj,
      UInt16.toNat_ofNat'] at h
  · exact ⟨by omega, h.2⟩
  · omega
  · omega
  · exact ⟨by omega, h.2.2⟩

theorem charUnits_ne_nil (c : Char) : charUnits c ≠ [] := by
  unfold charUnits
  split <;> nofun

/-- The code units of a string determine it. -/
theorem utf16_injective : Function.Injective utf16 := by
  have hunits : ∀ l l' : List Char, l.flatMap charUnits = l'.flatMap charUnits → l = l' := by
    intro l
    induction l with
    | nil =>
      rintro (_ | ⟨d, l'⟩) h
      · rfl
      · exact absurd (List.append_eq_nil_iff.mp h.symm).1 (charUnits_ne_nil d)
    | cons c l ih =>
      rintro (_ | ⟨d, l'⟩) h
      · exact absurd (List.append_eq_nil_iff.mp h).1 (charUnits_ne_nil c)
      · obtain ⟨rfl, hrest⟩ := charUnits_append h
        rw [ih l' hrest]
  exact fun s s' h => String.toList_injective (hunits _ _ h)

namespace Text

/-- `text ? text : undefined`. -/
def nonEmpty : Option Text → Option Text
  | some [] => none
  | t => t

/-- `text.startsWith(prefix)`. -/
def startsWith (text start : Text) : Bool := start.isPrefixOf text

/-- `text.endsWith(suffix)`. -/
def endsWith (text final : Text) : Bool := final.isSuffixOf text

/-- `lines.join(separator)`. -/
def join (separator : Text) (lines : List Text) : Text := separator.intercalate lines

def newline : Text := utf16 "\n"

/-- `text.split("\n")`. -/
def lines (text : Text) : List Text := text.splitOn 10

/-- The white space and line ends that `trim` removes. -/
def isWhiteSpace (u : UInt16) : Bool :=
  u ∈ ([9, 10, 11, 12, 13, 32, 0xA0, 0x1680, 0x2028, 0x2029, 0x202F, 0x205F, 0x3000, 0xFEFF] :
    List UInt16) || (0x2000 ≤ u && u ≤ 0x200A)

/-- `text.trimStart()`. -/
def trimStart (text : Text) : Text := text.dropWhile isWhiteSpace

/-- `text.trimEnd()`. -/
def trimEnd (text : Text) : Text := (text.reverse.dropWhile isWhiteSpace).reverse

/-- `text.trim()`. -/
def trim (text : Text) : Text := trimEnd (trimStart text)

/-- The part of a text before the first occurrence of a pattern, and the part after it. -/
def splitFirst (pattern : Text) : Text → Option (Text × Text)
  | [] => if pattern = [] then some ([], []) else none
  | u :: rest =>
    if pattern.isPrefixOf (u :: rest) then some ([], (u :: rest).drop pattern.length)
    else (splitFirst pattern rest).map fun parts => (u :: parts.1, parts.2)

/-- `text.includes(pattern)`. -/
def includes (text pattern : Text) : Bool := (splitFirst pattern text).isSome

/-- The replacement text with its `$$`, `$&`, dollar-backquote and dollar-apostrophe
patterns filled in, for a match without captures. -/
def substitution (matched before after : Text) : Text → Text
  | 36 :: 36 :: rest => 36 :: substitution matched before after rest
  | 36 :: 38 :: rest => matched ++ substitution matched before after rest
  | 36 :: 96 :: rest => before ++ substitution matched before after rest
  | 36 :: 39 :: rest => after ++ substitution matched before after rest
  | u :: rest => u :: substitution matched before after rest
  | [] => []

/-- `text.replace(pattern, replacement)` with a string for a pattern: the first occurrence
only. -/
def replace (text pattern replacement : Text) : Text :=
  match splitFirst pattern text with
  | none => text
  | some (before, after) => before ++ substitution pattern before after replacement ++ after

/-! ## Slices -/

/-- The position that an argument of `slice` stands for in a sequence of `length`
elements: truncated towards zero, counted from the end when negative, and kept
within the sequence. -/
def sliceIndex (length : ℕ) : Number → ℕ
  | .nan | .negInf => 0
  | .posInf => length
  | .finite q =>
    let k : ℤ := if 0 ≤ q then q.floor else q.ceil
    if k < 0 then (length + k).toNat else min k.toNat length

/-- `values.slice(start)`. -/
def sliceFrom {α : Type} (start : Number) (values : List α) : List α :=
  values.drop (sliceIndex values.length start)

end Text

end PulSeed
