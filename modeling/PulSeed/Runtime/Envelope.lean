import Mathlib.Data.Rat.Init
import Mathlib.Algebra.Order.Ring.Rat

/-!
# Envelopes (`runtime/types/envelope.ts`)

The messages of the runtime: what `EnvelopeSchema` accepts. Optional members are
`Option`s, the integer members carry the proof that they are safe integers, so an
`Envelope` is exactly a parsed envelope. Clock values and durations are rationals:
the queue stores finite numbers, fractions included (a retry backoff is not an
integer).
-/

namespace PulSeed

/-- `Number.MAX_SAFE_INTEGER`. -/
def maxSafeInteger : Nat := 9007199254740991

/-- Milliseconds: a clock value or a duration. -/
abbrev Millis := ℚ

/-- `z.number().int().nonnegative().safe()`. -/
structure SafeInt where
  val : Nat
  isSafe : val ≤ maxSafeInteger
  deriving DecidableEq

/-- `z.number().int().positive().safe()`. -/
structure SafePositiveInt where
  val : Nat
  isPositive : 0 < val
  isSafe : val ≤ maxSafeInteger
  deriving DecidableEq

/-- A safe integer, as a number of milliseconds. -/
def SafeInt.millis (n : SafeInt) : Millis := n.val

/-- `z.number().int().nonnegative().safe()` on a number. -/
def SafeInt.parse (x : Millis) : Option SafeInt :=
  if h : x.num.toNat ≤ maxSafeInteger then
    if x.den = 1 ∧ 0 ≤ x.num then some ⟨x.num.toNat, h⟩ else none
  else none

theorem SafeInt.parse_millis {x : Millis} {n : SafeInt} (h : SafeInt.parse x = some n) :
    n.millis = x := by
  unfold SafeInt.parse at h
  split at h
  · split at h
    · next hint =>
      obtain ⟨hden, hnum⟩ := hint
      cases h
      have hcast : ((x.num.toNat : ℤ) : ℚ) = x.num := by rw [Int.toNat_of_nonneg hnum]
      calc ((x.num.toNat : ℕ) : ℚ) = x.num := by rw [← hcast]; norm_cast
        _ = x := Rat.coe_int_num_of_den_eq_one hden
    · cases h
  · cases h

/-- `z.string().min(1).optional()`. -/
def minOne? (s : Option String) : Prop := s ≠ some ""

instance (s : Option String) : Decidable (minOne? s) := inferInstanceAs (Decidable (s ≠ some ""))

/-- `z.number().int().nonnegative().safe()`. -/
def IsSafeNonnegativeInt (x : Millis) : Prop := (SafeInt.parse x).isSome

instance (x : Millis) : Decidable (IsSafeNonnegativeInt x) :=
  inferInstanceAs (Decidable ((SafeInt.parse x).isSome = true))

/-- `z.number().int().nonnegative().safe().optional()`. -/
def IsSafeNonnegativeInt? (x : Option Millis) : Prop := ∀ y ∈ x, IsSafeNonnegativeInt y

instance (x : Option Millis) : Decidable (IsSafeNonnegativeInt? x) :=
  inferInstanceAs (Decidable (∀ y ∈ x, IsSafeNonnegativeInt y))

/-- A JSON value. -/
inductive Json
  | null
  | bool (b : Bool)
  | num (n : ℚ)
  | str (s : String)
  | arr (items : List Json)
  | obj (members : List (String × Json))

/-- `EnvelopePrioritySchema`. -/
inductive EnvelopePriority
  | critical | high | normal | low
  deriving DecidableEq, Repr

/-- `EnvelopeTypeSchema`. -/
inductive EnvelopeType
  | command | event
  deriving DecidableEq, Repr

/-- `AuthContextSchema`. -/
structure AuthContext where
  principal : String
  roles : Option (List String)

/-- `EnvelopeSchema`. -/
structure Envelope where
  id : String
  type : EnvelopeType
  name : String
  source : String
  goalId : Option String := none
  correlationId : Option String := none
  dedupeKey : Option String := none
  priority : EnvelopePriority
  payload : Json := .null
  replyChannelId : Option String := none
  createdAt : SafeInt
  ttlMs : Option SafePositiveInt := none
  auth : Option AuthContext := none

/-- The string test of the source's conditionals: `if (s)` holds of a present,
nonempty string. -/
def truthy : Option String → Option String
  | some s => if s = "" then none else some s
  | none => none

@[simp] theorem truthy_eq_some {o : Option String} {s : String} :
    truthy o = some s ↔ o = some s ∧ s ≠ "" := by
  cases o with
  | none => simp [truthy]
  | some t =>
    by_cases h : t = ""
    · subst h
      simp only [truthy, if_true, Option.some.injEq]
      exact ⟨nofun, fun ⟨h₁, h₂⟩ => absurd h₁.symm h₂⟩
    · simp only [truthy, if_neg h, Option.some.injEq]
      exact ⟨fun e => ⟨e, e ▸ h⟩, And.left⟩

/-- `ApprovalOriginSchema` of `runtime/store/runtime-schemas.ts`. -/
structure ApprovalOrigin where
  channel : String
  conversationId : String
  userId : Option String := none
  sessionId : Option String := none
  turnId : Option String := none
  replyTarget : Option Json := none

def ApprovalOrigin.Valid (o : ApprovalOrigin) : Prop :=
  o.channel ≠ "" ∧ o.conversationId ≠ "" ∧ ∀ s ∈ [o.userId, o.sessionId, o.turnId], minOne? s

instance (o : ApprovalOrigin) : Decidable o.Valid :=
  inferInstanceAs (Decidable (_ ∧ _ ∧ ∀ s ∈ [_, _, _], minOne? s))

end PulSeed
