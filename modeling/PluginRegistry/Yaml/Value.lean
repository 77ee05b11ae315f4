import PluginRegistry.Document.Basic
import PluginRegistry.Numeral.Limit
import PluginRegistry.Numeral.Spelled
import PluginRegistry.Text.Base64
import PluginRegistry.Text.Blank
import PluginRegistry.Text.Case
import PluginRegistry.Text.Quoted
import PluginRegistry.Text.Split
import PluginRegistry.Yaml.Tag

/-!
# Values of scalars

What the text of a scalar means under its tag. A text that carries its tag by looks has a value, but
for a date that does not exist and a number without digits; one that was given its tag may have
none.
-/

namespace PluginRegistry.Yaml

/-- Why a node has no value. -/
inductive ValueFault where
  | unknownTag (name : String)
  | wrongNode (wanted found : String)
  | mapping
  | orderedMap
  | pairs
  | notAscii (first last : Nat) (c : Char)
  | base64 (fault : Text.Base64Fault)
  | flag (word : String)
  | noDigits
  | whole (base : Nat) (text : String)
  | digits (count : Nat)
  | place
  | decimal (text : String)
  | timestamp
  | year (number : Nat)
  | month
  | day
  | hour
  | minute
  | second
  | zone (minutes : Int)

/-- An interval of minutes as messages name it. -/
def intervalText (minutes : Int) : String :=
  let days := minutes.fdiv 1440
  let seconds := minutes.fmod 1440 * 60
  let parts := (if days = 0 then [] else [s!"days={days}"]) ++
    (if seconds = 0 then [] else [s!"seconds={seconds}"])
  "datetime.timedelta(" ++ (if parts.isEmpty then "0" else ", ".intercalate parts) ++ ")"

/-- The first line of what is said about the fault. -/
def ValueFault.message : ValueFault → String
  | .unknownTag name => "could not determine a constructor for the tag " ++ Text.quoted name
  | .wrongNode wanted found => s!"expected a {wanted} node, but found {found}"
  | .mapping => "while constructing a mapping"
  | .orderedMap => "while constructing an ordered map"
  | .pairs => "while constructing pairs"
  | .notAscii first last c =>
    "failed to convert base64 data into ascii: 'ascii' codec can't encode " ++
      (if first = last then
        "character '" ++ String.ofList (Text.escapeCode c) ++ s!"' in position {first}"
      else s!"characters in position {first}-{last}") ++ ": ordinal not in range(128)"
  | .base64 (.leftOver count) =>
    "failed to decode base64 data: Invalid base64-encoded string: number of data characters " ++
      s!"({count}) cannot be 1 more than a multiple of 4"
  | .base64 .padding => "failed to decode base64 data: Incorrect padding"
  | .flag word => Text.quoted word
  | .noDigits => "string index out of range"
  | .whole base text => s!"invalid literal for int() with base {base}: " ++ Text.quoted text
  | .digits count => digitComplaint count
  | .place => "int too large to convert to float"
  | .decimal text => "could not convert string to float: " ++ Text.quoted text
  | .timestamp => "'NoneType' object has no attribute 'groupdict'"
  | .year number => s!"year {number} is out of range"
  | .month => "month must be in 1..12"
  | .day => "day is out of range for month"
  | .hour => "hour must be in 0..23"
  | .minute => "minute must be in 0..59"
  | .second => "second must be in 0..59"
  | .zone minutes =>
    "offset must be a timedelta strictly between -timedelta(hours=24) and timedelta(hours=24), " ++
      "not " ++ intervalText minutes ++ "."

namespace Value

open Spelled

/-! ## Numbers -/

/-- The letter that may follow a zero before digits to the base. -/
def baseLetter? (base : Nat) : Option Char :=
  if base = 2 then some 'b' else if base = 8 then some 'o' else if base = 16 then some 'x' else none

/-- The sign and the digits of a text to a base, with blanks around it and the base's mark before
its digits allowed. -/
def signAndDigits (base : Nat) (text : List Char) : Bool × List Char :=
  let (negative, body) := splitSign (Text.trim text)
  match body with
  | '0' :: letter :: rest =>
    (negative, if baseLetter? base = some letter.toLower then rest else body)
  | _ => (negative, body)

/-- The whole number that a text spells to a base. To the base ten there may not be too many
digits. -/
def integer (base : Nat) (text : List Char) : Except ValueFault Int :=
  let (negative, digits) := signAndDigits base text
  match natural? base digits with
  | none => .error (.whole base (String.ofList text))
  | some n =>
    if base = 10 ∧ digitLimit < digits.length then .error (.digits digits.length)
    else .ok (if negative then -(n : Int) else n)

/-- A whole number: binary, octal, decimal, hexadecimal, or to the base sixty with colons. -/
def ofInt (text : String) : Except ValueFault Int := do
  let cs := text.toList.filter (· ≠ '_')
  if cs.isEmpty then throw .noDigits
  let (negative, body) := splitSign cs
  if body.isEmpty then throw .noDigits
  let size ←
    if body = ['0'] then pure 0
    else
      match body with
      | '0' :: 'b' :: digits => integer 2 digits
      | '0' :: 'x' :: digits => integer 16 digits
      | '0' :: _ => integer 8 body
      | _ =>
        if body.contains ':' then do
          let places ← (Text.splitAt ':' body).mapM (integer 10)
          pure (places.foldl (fun n place => n * 60 + place) 0)
        else integer 10 body
  return if negative then -size else size

/-- The double that a text spells. -/
def double (text : List Char) : Except ValueFault Double :=
  match double? text with
  | some x => .ok x
  | none => .error (.decimal (String.ofList text))

/-- The nearest double to a ratio, infinite when it is beyond the largest one. -/
def nearest (num : Int) (den : Nat) : Double :=
  match Binary64.nearest? (num < 0) num.natAbs den with
  | some x => .finite x
  | none => .infinite (num < 0)

/-- The product of a double and a positive number, rounded. -/
def scaled (x : Double) (weight : Binary64) : Double :=
  match x with
  | .finite x => nearest (x.ratio.1 * weight.ratio.1) (x.ratio.2 * weight.ratio.2)
  | other => other

/-- The sum of two doubles, rounded. There is none of two infinities that differ. -/
def sum : Double → Double → Double
  | .finite x, .finite y =>
    nearest (x.ratio.1 * y.ratio.2 + y.ratio.1 * x.ratio.2) (x.ratio.2 * y.ratio.2)
  | .infinite x, .infinite y => if x = y then .infinite x else .notANumber
  | .infinite x, .finite _ | .finite _, .infinite x => .infinite x
  | _, _ => .notANumber

/-- The number with the places, lowest first, to the base sixty. -/
def ofPlaces (total : Double) (weight : Nat) : List Double → Except ValueFault Double
  | [] => .ok total
  | place :: places =>
    match Binary64.nearest? false weight 1 with
    | some w => ofPlaces (sum total (scaled place w)) (60 * weight) places
    | none => .error .place

/-- A number with a point, or one of the words for what is none. -/
def ofFloat (text : String) : Except ValueFault Double := do
  let cs := (Text.lower text).toList.filter (· ≠ '_')
  if cs.isEmpty then throw .noDigits
  let (negative, body) := splitSign cs
  let word := String.ofList body
  if word = ".nan" then return .notANumber
  let size ←
    if word = ".inf" then pure (Double.infinite false)
    else if body.contains ':' then do
      let places ← (Text.splitAt ':' body).mapM double
      ofPlaces (.finite (.zero false)) 1 places.reverse
    else double body
  return if negative then negated size else size

/-! ## Times -/

/-- The number that digits spell. -/
def number (digits : List Char) : Nat := (natural? 10 digits).getD 0

/-- The date with these numbers. -/
def date (year month day : Nat) : Except ValueFault Date :=
  match Date.ofParts? year month day with
  | some date => .ok date
  | none =>
    if year < 1 ∨ 9999 < year then .error (.year year)
    else if month < 1 ∨ 12 < month then .error .month
    else .error .day

/-- The time of day with these numbers. -/
def timeOfDay (hour minute second microsecond : Nat) : Except ValueFault TimeOfDay :=
  match TimeOfDay.ofParts? hour minute second microsecond with
  | some time => .ok time
  | none =>
    if 24 ≤ hour then .error .hour
    else if 60 ≤ minute then .error .minute
    else .error .second

/-- The zone of a timestamp. -/
def zone : Option (Option (Bool × List Char × List Char)) → Except ValueFault (Option Offset)
  | none => .ok none
  | some none => .ok (some .zero)
  | some (some (negative, hours, minutes)) =>
    let size : Int := (60 * number hours + number minutes : Nat)
    let total := if negative then -size else size
    match Offset.ofMinutes? total with
    | some offset => .ok (some offset)
    | none => .error (.zone total)

/-- A date, or a moment with microseconds. -/
def ofTimestamp (text : String) : Except ValueFault Scalar := do
  let some stamp := Tag.stamp? text.toList | throw .timestamp
  let (year, month, day) := stamp.date
  match stamp.time with
  | none => return .date (← date (number year) (number month) (number day))
  | some ((hour, minute, second), fraction) =>
    let offset ← zone stamp.zone
    let date ← date (number year) (number month) (number day)
    let micros := number ((fraction ++ List.replicate 6 '0').take 6)
    let time ← timeOfDay (number hour) (number minute) (number second) micros
    return .moment ⟨⟨date, time⟩, offset⟩

/-! ## Other scalars -/

/-- One of the words for a flag, in any case. -/
def ofFlag (text : String) : Except ValueFault Bool :=
  let word := Text.lower text
  if ["yes", "true", "on"].contains word then .ok true
  else if ["no", "false", "off"].contains word then .ok false
  else .error (.flag word)

/-- Octets in base 64. -/
def ofBinary (text : String) : Except ValueFault (List UInt8) :=
  let cs := text.toList
  let ascii := cs.takeWhile (·.toNat < 128)
  match cs.drop ascii.length with
  | c :: rest =>
    let more := rest.takeWhile (128 ≤ ·.toNat)
    .error (.notAscii ascii.length (ascii.length + more.length) c)
  | [] =>
    match Text.decodeBase64 cs with
    | .ok octets => .ok octets
    | .error fault => .error (.base64 fault)

end Value

/-- The value of a text under a tag of scalars. -/
def Tag.scalar (tag : Tag) (text : String) : Except ValueFault Scalar :=
  match tag with
  | .null => .ok .null
  | .bool => return .bool (← Value.ofFlag text)
  | .int => return .int (← Value.ofInt text)
  | .float => return .float (← Value.ofFloat text)
  | .timestamp => Value.ofTimestamp text
  | .binary => return .bytes (← Value.ofBinary text)
  | .str => .ok (.text text)
  | _ => .error (.unknownTag tag.name)

end PluginRegistry.Yaml
