import PluginRegistry.Log.Entry
import PluginRegistry.Numeral.Binary64
import PluginRegistry.Text.Quoted
import PluginRegistry.Time.Moment

/-!
# Formats of lines

A format is a text with directives. A directive is a percent sign, the name of an attribute in
parentheses, flags, a least width, a precision after a point, and a letter that tells how the
attribute is shown. Two percent signs stand for one.

An attribute is a number, a text, or something that only has words. The letters for numbers show
numbers alone, and the letter for characters shows a number by the character of that code; where a
directive does not fit its attribute, or is none, the format shows nothing at all.
-/

namespace PluginRegistry.Log

/-! ## Reading -/

/-- How an attribute is to be shown. -/
structure Directive where
  name : String
  flags : List Char
  width : Nat
  precision : Option Nat
  letter : Char
  deriving DecidableEq, Repr

/-- A part of a format. -/
inductive Piece where
  | char (c : Char)
  | directive (d : Directive)
  deriving DecidableEq, Repr

/-- The text up to the parenthesis that closes one opened before it, and the text after that, with
the number of parentheses opened since. -/
def closing? (depth : Nat) : List Char → Option (List Char × List Char)
  | [] => none
  | ')' :: rest =>
    match depth with
    | 0 => some ([], rest)
    | depth + 1 => (closing? depth rest).map fun (name, rest) => (')' :: name, rest)
  | c :: rest =>
    (closing? (if c = '(' then depth + 1 else depth) rest).map fun (name, rest) =>
      (c :: name, rest)

/-- The number at the start of a text, zero if there is none, and the text after it. -/
def leadingNumber (cs : List Char) : Nat × List Char :=
  let digits := cs.takeWhile Char.isDigit
  (digits.foldl (fun total c => 10 * total + (c.toNat - '0'.toNat)) 0, cs.drop digits.length)

/-- The largest width and precision. -/
def sizeLimit : Nat := 0x7fffffff

/-- A directive after its percent sign, and the text after it. One letter for the size of a number
may stand before the last letter; it says nothing. -/
def directive? (cs : List Char) : Option (Directive × List Char) := do
  let (name, rest) ←
    match cs with
    | '(' :: rest => closing? 0 rest
    | _ => none
  let flags := rest.takeWhile fun c => "-+ #0".toList.contains c
  let (width, rest) := leadingNumber (rest.drop flags.length)
  let (precision, rest) :=
    match rest with
    | '.' :: rest => (some (leadingNumber rest).1, (leadingNumber rest).2)
    | rest => (none, rest)
  if sizeLimit < width ∨ sizeLimit < precision.getD 0 then none
  let rest := if rest.head?.any ("hlL".toList.contains ·) then rest.drop 1 else rest
  match rest with
  | letter :: rest => some (⟨String.ofList name, flags, width, precision, letter⟩, rest)
  | [] => none

/-- The parts of a format, with a bound on the characters left. -/
def piecesWithin : Nat → List Char → Option (List Piece)
  | _, [] => some []
  | 0, _ => none
  | bound + 1, '%' :: '%' :: rest => do return .char '%' :: (← piecesWithin bound rest)
  | bound + 1, '%' :: rest => do
    let (directive, rest) ← directive? rest
    return .directive directive :: (← piecesWithin bound rest)
  | bound + 1, c :: rest => do return .char c :: (← piecesWithin bound rest)

/-- The parts of a format, if it is one. -/
def pieces? (format : String) : Option (List Piece) := piecesWithin format.length format.toList

/-! ## Numbers -/

/-- A number with places after its point. A point without places is shown on demand. -/
def fixedText (bare : Bool) (places n : Nat) : List Char :=
  Nat.toDigits 10 n ++
    if places = 0 ∧ !bare then [] else '.' :: List.replicate places '0'

/-- The digits of a number rounded to so many of them, a half to the even neighbour, and the power
of ten of the first one. -/
def roundedDigits (count n : Nat) : List Char × Nat :=
  let digits := Nat.toDigits 10 n
  let surplus := digits.length - count
  let rounded := Nat.toDigits 10 (roundDiv n (Nat.pow 10 surplus))
  ((rounded ++ List.replicate (count - rounded.length) '0').take count,
    rounded.length + surplus - 1)

/-- Digits with a point after the first of them and a power of ten. -/
def exponentText (bare : Bool) (digits : List Char) (power : Nat) : List Char :=
  let size := Nat.toDigits 10 power
  digits.take 1 ++ (if digits.length = 1 ∧ !bare then [] else '.' :: digits.drop 1) ++
    'e' :: '+' :: (List.replicate (2 - size.length) '0' ++ size)

/-- A number with so many digits at most, and with a power of ten where it has more places before
its point. The zeros at the end are shown on demand. -/
def generalText (full : Bool) (count n : Nat) : List Char :=
  let (digits, power) := roundedDigits count n
  if power < count then fixedText full (if full then count - 1 - power else 0) n
  else
    let kept := (digits.drop 1).reverse.dropWhile (· = '0')
    exponentText full (if full then digits else digits.take 1 ++ kept.reverse) power

/-- The number as a letter shows it: what stands before its digits, and the digits. -/
def Directive.number? (d : Directive) (n : Nat) : Option (List Char × List Char) :=
  let full := d.flags.contains '#'
  let led := fun (mark : String) => if full then mark.toList else []
  let whole := fun (base : Nat) =>
    let digits := Nat.toDigits base n
    List.replicate (d.precision.getD 0 - digits.length) '0' ++ digits
  let places := d.precision.getD 6
  let raised := fun (cs : List Char) => if d.letter.isUpper then cs.map Char.toUpper else cs
  match d.letter with
  | 'd' | 'i' | 'u' => some ([], whole 10)
  | 'o' => some (led "0o", whole 8)
  | 'x' => some (led "0x", whole 16)
  | 'X' => some (led "0X", raised (whole 16))
  | 'f' | 'F' => some ([], fixedText full places n)
  | 'e' | 'E' =>
    let (digits, power) := roundedDigits (places + 1) n
    some ([], raised (exponentText full digits power))
  | 'g' | 'G' => some ([], raised (generalText full (max 1 places) n))
  | _ => none

/-- A number with its sign, filled up to the width: on the right, or with zeros behind the sign, or
on the left. -/
def Directive.layOutNumber (d : Directive) (mark digits : List Char) : List Char :=
  let sign :=
    if d.flags.contains '+' then ['+'] else if d.flags.contains ' ' then [' '] else []
  let lead := sign ++ mark
  let missing := d.width - (lead ++ digits).length
  if d.flags.contains '-' then lead ++ digits ++ List.replicate missing ' '
  else if d.flags.contains '0' then lead ++ List.replicate missing '0' ++ digits
  else List.replicate missing ' ' ++ lead ++ digits

/-! ## Attributes -/

/-- What an entry has under a name. -/
inductive Attribute where
  | number (n : Nat)
  | text (t : String)
  | words (w : String)
  deriving DecidableEq, Repr

namespace Attribute

/-- The attribute as a text. -/
def plain : Attribute → String
  | .number n => toString n
  | .text t => t
  | .words w => w

/-- The attribute as a text, where a text stands between quotes. -/
def quoted : Attribute → String
  | .text t => Text.quoted t
  | other => other.plain

/-- The quoted form in ASCII. -/
def ascii (a : Attribute) : String :=
  String.ofList (a.quoted.toList.flatMap fun c => if c.toNat < 128 then [c] else Text.escapeCode c)

/-- The attribute as a single character. -/
def char? : Attribute → Option Char
  | .number n => some (Char.ofNat n)
  | .text t =>
    match t.toList with
    | [c] => some c
    | _ => none
  | .words _ => none

end Attribute

/-- A text, cut after the precision and filled up to the width. -/
def Directive.layOutText (d : Directive) (text : String) : List Char :=
  let shown := text.toList.take (d.precision.getD text.length)
  let padding := List.replicate (d.width - shown.length) ' '
  if d.flags.contains '-' then shown ++ padding else padding ++ shown

/-- An attribute as a directive shows it. -/
def Directive.show? (d : Directive) (a : Attribute) : Option (List Char) :=
  match d.letter with
  | 's' => some (d.layOutText a.plain)
  | 'r' => some (d.layOutText a.quoted)
  | 'a' => some (d.layOutText a.ascii)
  | 'c' => a.char?.map fun c => { d with precision := none }.layOutText (String.singleton c)
  | _ =>
    match a with
    | .number n => (d.number? n).map fun (mark, digits) => d.layOutNumber mark digits
    | _ => none

/-! ## Entries -/

/-- A time as the log shows it: date and time of day, and milliseconds after a comma. -/
def timeText (time : CivilTime) : String :=
  let day := { time.time with microsecond := 0, inDay := by have := time.time.inDay; omega }
  String.ofList (time.date.chars ++ ' ' :: day.chars ++
    ',' :: padded 3 (time.time.microsecond / 1000))

/-- What an entry made at a time has under a name. -/
def Entry.attribute? (time : CivilTime) (e : Entry) : String → Option Attribute
  | "asctime" => some (.text (timeText time))
  | "levelname" => some (.text e.level.name)
  | "levelno" => some (.number e.level.rank)
  | "name" => some (.text e.source.name)
  | "message" | "msg" => some (.text e.message)
  | "module" => some (.text e.source.module)
  | "filename" => some (.text (e.source.module ++ ".py"))
  | "funcName" => some (.text e.topic.origin.2.1)
  | "lineno" => some (.number e.topic.origin.2.2)
  | "processName" => some (.text "MainProcess")
  | "threadName" => some (.text "MainThread")
  | "args" => some (.words "()")
  | "exc_info" | "exc_text" | "stack_info" => some (.words "None")
  | _ => none

/-- An entry made at a time, as the parts of a format show it. -/
def Entry.show? (time : CivilTime) (e : Entry) (pieces : List Piece) : Option String := do
  let parts ← pieces.mapM fun piece =>
    match piece with
    | .char c => some [c]
    | .directive d => do d.show? (← e.attribute? time d.name)
  return String.ofList parts.flatten

end PluginRegistry.Log
