import Mathlib.Algebra.Order.Field.Rat
import Mathlib.Data.Rat.Defs
import PulSeed.Lib.Number

/-!
# Values and thresholds of a dimension (`base/types/core.ts`, `orchestrator/goal/types/goal.ts`)

The value of a dimension is a number, a string, a boolean or missing; its threshold is one
of five types. Where a threshold is a number, a value counts as one when it is a finite
number, a boolean (1 or 0) or a string that is a decimal token; `gap-calculator.ts` and
`satisficing-helpers.ts` have this conversion each.
-/

namespace PulSeed.Drive

/-- `number | string | boolean`, the values of a match threshold. -/
inductive Primitive where
  | number (x : Number)
  | string (s : String)
  | boolean (b : Bool)
  deriving DecidableEq, Repr

/-- `a === b`. -/
def Primitive.strictEq : Primitive → Primitive → Bool
  | .number a, .number b => a.strictEq b
  | .string a, .string b => a == b
  | .boolean a, .boolean b => a == b
  | _, _ => false

/-- `number | string | boolean | null`. -/
abbrev DimensionValue := Option Primitive

/-- `ThresholdSchema`. -/
inductive Threshold where
  | min (value : Number)
  | max (value : Number)
  | range (low high : Number)
  | present
  | match (value : Primitive)
  deriving DecidableEq, Repr

/-- The schema refuses what is not a number. -/
def Threshold.Admitted : Threshold → Prop
  | .min value | .max value => value ≠ .nan
  | .range low high => low ≠ .nan ∧ high ≠ .nan
  | .present => True
  | .match value => value ≠ .number .nan

instance : (t : Threshold) → Decidable t.Admitted
  | .min _ | .max _ | .match _ => inferInstanceAs (Decidable (_ ≠ _))
  | .range _ _ => inferInstanceAs (Decidable (_ ∧ _))
  | .present => inferInstanceAs (Decidable True)

/-- `isNumericThreshold`. -/
def Threshold.isNumeric : Threshold → Bool
  | .min _ | .max _ | .range _ _ => true
  | .present | .match _ => false

/-- The fields of `DimensionSchema` that the judgments read. -/
structure Dimension where
  name : String
  current_value : DimensionValue
  threshold : Threshold
  confidence : Number
  uncertainty_weight : Option Number := none
  deriving DecidableEq, Repr

/-! ## Decimal tokens -/

/-- The characters that `trim` removes. -/
def isWhiteSpace (c : Char) : Bool :=
  let n := c.toNat
  (0x09 ≤ n && n ≤ 0x0D) || n == 0x20 || n == 0xA0 || n == 0x1680 ||
    (0x2000 ≤ n && n ≤ 0x200A) || n == 0x2028 || n == 0x2029 || n == 0x202F || n == 0x205F ||
    n == 0x3000 || n == 0xFEFF

/-- `value.trim()`. -/
def trim (s : List Char) : List Char :=
  ((s.dropWhile isWhiteSpace).reverse.dropWhile isWhiteSpace).reverse

/-- An optional sign: whether it is negative, and what follows. -/
def takeSign : List Char → Bool × List Char
  | c :: rest => if c = '-' then (true, rest) else if c = '+' then (false, rest) else (false, c :: rest)
  | [] => (false, [])

def digitsValue (digits : List Char) : Nat :=
  digits.foldl (fun n d => 10 * n + (d.toNat - 48)) 0

/-- `(?:e[+-]?\d+)?$`, the end of a token. -/
def exponentToken : List Char → Option Int
  | [] => some 0
  | c :: rest =>
    let (negative, digits) := takeSign rest
    if c ∈ ['e', 'E'] ∧ digits ≠ [] ∧ digits.all Char.isDigit = true then
      some (if negative then -(digitsValue digits : Int) else digitsValue digits)
    else none

/-- The number that a token denotes, if it matches `EXACT_FINITE_NUMBER_TOKEN`. -/
def tokenValue (token : List Char) : Option ℚ :=
  let (negative, unsigned) := takeSign token
  let (whole, rest) := unsigned.span Char.isDigit
  let (frac, rest) := match rest with
    | '.' :: rest => rest.span Char.isDigit
    | rest => ([], rest)
  if whole = [] ∧ frac = [] then none
  else (exponentToken rest).map fun exponent : Int =>
    (if negative then -1 else 1) * (digitsValue (whole ++ frac) : ℚ) *
      (10 : ℚ) ^ (exponent - (frac.length : Int))

/-- From here on the conversion of a decimal to a number gives an infinity. -/
def overflowBound : ℚ := 2 ^ 1024 - 2 ^ 970

/-- `toFiniteNumberOrNull` of the gap calculator and `toNumberOrNull` of the judge. -/
def numericValue : DimensionValue → Option ℚ
  | some (.number (.finite q)) => some q
  | some (.number _) => none
  | some (.boolean b) => some (if b then 1 else 0)
  | some (.string s) => (tokenValue (trim s.toList)).filter fun q => |q| < overflowBound
  | none => none

def toFiniteNumberOrNull (value : DimensionValue) : Option ℚ := numericValue value

def toNumberOrNull (value : DimensionValue) : Option ℚ := numericValue value

/-- `isTruthy`, which both have as well. -/
def isTruthy : DimensionValue → Bool
  | none => false
  | some (.boolean b) => b
  | some (.number x) => !(x.strictEq (.finite 0))
  | some (.string s) => s ≠ ""

example : numericValue (some (.string " -1.25e1 ")) = some (-25 / 2) := by decide +kernel

end PulSeed.Drive
