import PluginRegistry.Numeral.Binary64

/-!
# A fixed number of decimal places

A duration is shown with three places: the exact value is rounded to the nearest thousandth, a half
to the even neighbour.
-/

namespace PluginRegistry

/-- The ratio `num / den` with `places` digits after the point. -/
def fixedPlaces (places : Nat) (negative : Bool) (num den : Nat) : String :=
  let units := roundDiv (num * Nat.pow 10 places) den
  let digits := Nat.toDigits 10 units
  let padded := List.replicate (places + 1 - digits.length) '0' ++ digits
  let whole := padded.length - places
  String.ofList ((if negative then ['-'] else []) ++ padded.take whole ++
    '.' :: padded.drop whole)

/-- The double with `places` digits after the point. -/
def Double.fixed (places : Nat) : Double → String
  | .finite x => fixedPlaces places x.negative x.ratio.1.natAbs x.ratio.2
  | .infinite negative => if negative then "-inf" else "inf"
  | .notANumber => "nan"

end PluginRegistry
