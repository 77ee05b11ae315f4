/-!
# Double precision numbers, exactly

A finite double is a sign, a significand and a power of two, and its value is the rational number
that they denote: `Binary64` keeps these three, normalised, so that every nonzero value has one
representation. Reading a decimal takes the nearest double, with a tie going to the even
significand; everything is natural number arithmetic, with no rounding but that one.
-/

namespace PluginRegistry

/-- The quotient rounded to the nearest integer, halves to the even neighbour. -/
def roundDiv (num den : Nat) : Nat :=
  let q := num / den
  let twice := 2 * (num % den)
  if twice < den then q
  else if den < twice then q + 1
  else if q % 2 = 0 then q else q + 1

/-- A finite double: the number `± mantissa * 2 ^ exponent`. -/
structure Binary64 where
  negative : Bool
  mantissa : Nat
  exponent : Int
  normal : mantissa < Nat.pow 2 53 ∧ (Nat.pow 2 52 ≤ mantissa ∨ exponent = -1074) ∧
    -1074 ≤ exponent ∧ exponent ≤ 971
  deriving DecidableEq

/-- A double, with the values that stand for no number. -/
inductive Double where
  | finite (value : Binary64)
  | infinite (negative : Bool)
  | notANumber
  deriving DecidableEq

namespace Binary64

/-- Zero with a sign. -/
def zero (negative : Bool) : Binary64 := ⟨negative, 0, -1074, by decide⟩

instance : Inhabited Binary64 := ⟨zero false⟩

/-- The double with these parts, if they are normalised. -/
def ofParts? (negative : Bool) (mantissa : Nat) (exponent : Int) : Option Binary64 :=
  if h : mantissa < Nat.pow 2 53 ∧ (Nat.pow 2 52 ≤ mantissa ∨ exponent = -1074) ∧
      -1074 ≤ exponent ∧ exponent ≤ 971 then
    some ⟨negative, mantissa, exponent, h⟩
  else none

/-- The ratio `num / den` divided by `2 ^ power`. -/
def overPowerOfTwo (num den : Nat) (power : Int) : Nat × Nat :=
  if power < 0 then (num * Nat.pow 2 power.natAbs, den) else (num, den * Nat.pow 2 power.natAbs)

/-- The double nearest to `num / den`, or nothing when it is beyond the largest one. -/
def nearest? (negative : Bool) (num den : Nat) : Option Binary64 :=
  if num = 0 then some (zero negative)
  else
    let guess : Int := (num.log2 : Int) - den.log2 - 52
    let scaled := overPowerOfTwo num den guess
    let normalised := if scaled.1 < Nat.pow 2 52 * scaled.2 then guess - 1 else guess
    let power := max normalised (-1074)
    let ratio := overPowerOfTwo num den power
    let m := roundDiv ratio.1 ratio.2
    if m = Nat.pow 2 53 then ofParts? negative (Nat.pow 2 52) (power + 1)
    else ofParts? negative m power

/-- Numerator, signed, and denominator of the value. -/
def ratio (x : Binary64) : Int × Nat :=
  let size := if x.exponent < 0 then x.mantissa else x.mantissa * Nat.pow 2 x.exponent.natAbs
  (if x.negative then -(size : Int) else size,
    if x.exponent < 0 then Nat.pow 2 x.exponent.natAbs else 1)

/-- `x` is smaller than `y`. -/
def lessThan (x y : Binary64) : Bool :=
  x.ratio.1 * (y.ratio.2 : Int) < y.ratio.1 * (x.ratio.2 : Int)

/-- The largest integer that is at most `x`. -/
def floor (x : Binary64) : Int := x.ratio.1.fdiv x.ratio.2

/-- The integer that `x` is, if it is one. -/
def toInt? (x : Binary64) : Option Int :=
  if x.ratio.1.fmod x.ratio.2 = 0 then some x.floor else none

/-- The double nearest to an integer. -/
def ofInt? (n : Int) : Option Binary64 := nearest? (n < 0) n.natAbs 1

end Binary64

namespace Double

/-- The double nearest to `± coefficient * 10 ^ power`. A coefficient so large or so small that no
finite double comes near is settled by its number of digits. -/
def ofDecimal (negative : Bool) (coefficient : Nat) (power : Int) : Double :=
  let magnitude := ((Nat.toDigits 10 coefficient).length : Int) + power
  if coefficient = 0 ∨ magnitude < -330 then .finite (.zero negative)
  else if 310 < magnitude then .infinite negative
  else
    let parts :=
      if power < 0 then (coefficient, Nat.pow 10 power.natAbs)
      else (coefficient * Nat.pow 10 power.natAbs, 1)
    match Binary64.nearest? negative parts.1 parts.2 with
    | some x => .finite x
    | none => .infinite negative

end Double

end PluginRegistry
