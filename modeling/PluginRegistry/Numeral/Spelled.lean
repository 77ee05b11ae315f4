import PluginRegistry.Numeral.Binary64
import PluginRegistry.Text.Blank
import PluginRegistry.Text.Digit

/-!
# Numbers as they are spelled

A spelled number may have blanks around it, a sign, and single underscores between its digits, which
may be those of any script. A double may also be the name of an infinity or of what is no number.
-/

namespace PluginRegistry.Spelled

/-- A sign at the start of a text: whether it is a minus, and the text after it. -/
def splitSign (cs : List Char) : Bool × List Char :=
  match cs with
  | '-' :: rest => (true, rest)
  | '+' :: rest => (false, rest)
  | _ => (false, cs)

/-- The value of a digit to a base up to sixteen; the decimal digits of every script count. -/
def digit? (base : Nat) (c : Char) : Option Nat :=
  let value :=
    match Text.digitValue? c with
    | some n => n
    | none =>
      if 'a' ≤ c.toLower ∧ c.toLower ≤ 'f' then c.toLower.toNat - 'a'.toNat + 10 else base
  if value < base then some value else none

/-- The number that digits spell, if there are some. -/
def natural? (base : Nat) (digits : List Char) : Option Nat :=
  if digits.isEmpty then none
  else digits.foldl (fun total c => do return base * (← total) + (← digit? base c)) (some 0)

/-- The text without its underscores, each of which has to stand between two digits; `inside` tells
whether a digit stands just before. -/
def dropGaps? (inside : Bool) : List Char → Option (List Char)
  | [] => some []
  | '_' :: rest =>
    if inside && rest.head?.any Text.isDigit then dropGaps? false rest else none
  | c :: rest => do return c :: (← dropGaps? (Text.isDigit c) rest)

/-- The whole number that a text spells to the base ten. -/
def integer? (text : List Char) : Option Int := do
  let (negative, body) := splitSign (← dropGaps? false (Text.trim text))
  let n : Int := ← natural? 10 body
  return if negative then -n else n

/-- The exponent of a decimal, which may be left out. -/
def exponent? : List Char → Option Int
  | [] => some 0
  | e :: rest =>
    if e = 'e' ∨ e = 'E' then do
      let (negative, digits) := splitSign rest
      let n : Int := ← natural? 10 digits
      return if negative then -n else n
    else none

/-- A double with its sign turned. -/
def negated : Double → Double
  | .finite x => .finite { x with negative := !x.negative }
  | .infinite negative => .infinite !negative
  | .notANumber => .notANumber

/-- The double that a text spells. -/
def double? (text : List Char) : Option Double := do
  let (negative, body) := splitSign (← dropGaps? false (Text.trim text))
  let word := String.ofList (body.map Char.toLower)
  let size ←
    if word = "inf" ∨ word = "infinity" then some (Double.infinite false)
    else if word = "nan" then some .notANumber
    else do
      let whole := body.takeWhile Text.isDigit
      let rest := body.dropWhile Text.isDigit
      let places := if rest.head? = some '.' then (rest.drop 1).takeWhile Text.isDigit else []
      let rest := if rest.head? = some '.' then (rest.drop 1).dropWhile Text.isDigit else rest
      let coefficient ← natural? 10 (whole ++ places)
      return .ofDecimal false coefficient ((← exponent? rest) - places.length)
  return if negative then negated size else size

end PluginRegistry.Spelled
