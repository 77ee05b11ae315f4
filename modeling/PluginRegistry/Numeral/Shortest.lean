import PluginRegistry.Numeral.Binary64

/-!
# The shortest decimal of a double

A double is written with the fewest significant digits that read back as the same double. The reals
that round to it form an interval around it, closed when its significand is even. For one digit, two
digits, and so on up to seventeen, the two multiples of the last place next to the value are tried;
the first count with a multiple inside the interval is the answer, and of two the nearer is taken.

Values from `0.0001` up to below ten to the sixteenth are written with a point; smaller and larger
ones with an exponent of at least two digits.
-/

namespace PluginRegistry.Binary64

/-- How many decimal digits the number has. -/
def digitCount (n : Nat) : Nat := (Nat.toDigits 10 n).length

/-- The number `p` with `10 ^ (p - 1) ≤ num / den < 10 ^ p`. -/
def decimalPoint (num den : Nat) : Int :=
  if den ≤ num then digitCount (num / den)
  else
    let below := (den + num - 1) / num - 1
    1 - (if below = 0 then 0 else digitCount below : Nat)

/-- The nearest multiple of `10 ^ power` that reads back as `x`, if one does: how often it holds
that power. The interval is measured in quarters of the last place of `x`. -/
def onGrid? (x : Binary64) (power : Int) : Option Nat :=
  let unit := x.exponent - 2
  let upTwo := if unit < 0 then 1 else Nat.pow 2 unit.natAbs
  let downTwo := if unit < 0 then Nat.pow 2 unit.natAbs else 1
  let upTen := if power < 0 then 1 else Nat.pow 10 power.natAbs
  let downTen := if power < 0 then Nat.pow 10 power.natAbs else 1
  let quarter := upTwo * downTen
  let grid := downTwo * upTen
  let value := 4 * x.mantissa * quarter
  let below := if x.mantissa = Nat.pow 2 52 ∧ -1074 < x.exponent then 1 else 2
  let low := (4 * x.mantissa - below) * quarter
  let high := (4 * x.mantissa + 2) * quarter
  let inside := fun c : Nat =>
    if x.mantissa % 2 = 0 then low ≤ c * grid ∧ c * grid ≤ high
    else low < c * grid ∧ c * grid < high
  let f := value / grid
  let upper :=
    decide ((2 * f + 1) * grid < 2 * value) || (2 * value == (2 * f + 1) * grid && f % 2 == 1)
  match decide (inside f), decide (inside (f + 1)) with
  | true, true => some (if upper then f + 1 else f)
  | true, false => some f
  | false, true => some (f + 1)
  | false, false => none

/-- Coefficient and power of ten of the shortest decimal that reads back as the nonzero `x`. -/
def shortestDecimal (x : Binary64) : Nat × Int :=
  let point := decimalPoint x.ratio.1.natAbs x.ratio.2
  let tries := (List.range 17).map fun (i : Nat) => point - ((i : Int) + 1)
  (tries.findSome? fun power => (x.onGrid? power).map (·, power)).getD (0, 0)

/-- The digits without the zeros at their end. -/
def significant (digits : List Char) : List Char :=
  (digits.reverse.dropWhile (· == '0')).reverse

/-- The digits with a point after the first `point` of them, and a zero where a side is empty. -/
def positional (digits : List Char) (point : Int) : List Char :=
  let n := digits.length
  if point ≤ 0 then '0' :: '.' :: (List.replicate point.natAbs '0' ++ digits)
  else if n ≤ point.natAbs then digits ++ List.replicate (point.natAbs - n) '0' ++ ['.', '0']
  else digits.take point.natAbs ++ '.' :: digits.drop point.natAbs

/-- The digits with a point after the first of them and the exponent that puts it right. -/
def scientific (digits : List Char) (exponent : Int) : List Char :=
  let fraction := digits.drop 1
  let size := Nat.toDigits 10 exponent.natAbs
  digits.take 1 ++ (if fraction.isEmpty then [] else '.' :: fraction) ++
    'e' :: (if exponent < 0 then '-' else '+') ::
      (List.replicate (2 - size.length) '0' ++ size)

/-- The shortest text that reads back as `x`. -/
def text (x : Binary64) : String :=
  let sign := if x.negative then ['-'] else []
  if x.mantissa = 0 then String.ofList (sign ++ ['0', '.', '0'])
  else
    let decimal := x.shortestDecimal
    let all := Nat.toDigits 10 decimal.1
    let point := (all.length : Int) + decimal.2
    let digits := significant all
    let body :=
      if -4 < point ∧ point ≤ 16 then positional digits point else scientific digits (point - 1)
    String.ofList (sign ++ body)

end PluginRegistry.Binary64

namespace PluginRegistry.Double

/-- The shortest text of a number, and the words for what is none. -/
def text : Double → String
  | .finite x => x.text
  | .infinite negative => if negative then "-inf" else "inf"
  | .notANumber => "nan"

end PluginRegistry.Double
