import PluginRegistry.Document.Basic
import PluginRegistry.Numeral.Limit
import PluginRegistry.Text.Units

/-!
# Reading JSON documents

The reader accepts the JSON grammar, and the names `NaN`, `Infinity` and `-Infinity` where a number
may stand. It stops at the first character that fits nothing, and says what it expected there, with
the line, the column and the position of that character. A text must be closed and may not hold raw
control characters. Of two members with one key the later wins. Nesting and the digits of whole
numbers have a limit.
-/

namespace PluginRegistry

/-- What the reader of JSON missed or refused. -/
inductive JsonCause where
  | byteOrderMark
  | value
  | propertyName
  | colon
  | comma
  | extraData
  | unterminated
  | controlCharacter
  | escape
  | unicodeEscape
  | nesting (kind : String)
  | digits (count : Nat)
  deriving DecidableEq

/-- The cause in words. -/
def JsonCause.message : JsonCause → String
  | .byteOrderMark => "Unexpected UTF-8 BOM (decode using utf-8-sig)"
  | .value => "Expecting value"
  | .propertyName => "Expecting property name enclosed in double quotes"
  | .colon => "Expecting ':' delimiter"
  | .comma => "Expecting ',' delimiter"
  | .extraData => "Extra data"
  | .unterminated => "Unterminated string starting at"
  | .controlCharacter => "Invalid control character at"
  | .escape => "Invalid \\escape"
  | .unicodeEscape => "Invalid \\uXXXX escape"
  | .nesting kind =>
    s!"maximum recursion depth exceeded while decoding a JSON {kind} from a unicode string"
  | .digits count => digitComplaint count

/-- The cause is a limit of the reader, and no fault of the text at one place. -/
def JsonCause.isLimit : JsonCause → Bool
  | .nesting _ | .digits _ => true
  | _ => false

/-- A cause and the place it was found at; lines and columns count from 1, positions from 0. -/
structure JsonFault where
  cause : JsonCause
  line : Nat
  column : Nat
  position : Nat
  deriving DecidableEq

/-- The fault in words. -/
def JsonFault.message (f : JsonFault) : String :=
  if f.cause.isLimit then f.cause.message
  else s!"{f.cause.message}: line {f.line} column {f.column} (char {f.position})"

/-- The fault with its place, when the first `position` characters of the text came before it. -/
def JsonFault.locate (text : List Char) (cause : JsonCause) (position : Nat) : JsonFault :=
  let before := text.take position
  let line := before.count '\n' + 1
  let column := (before.reverse.takeWhile (· ≠ '\n')).length + 1
  ⟨cause, line, column, position⟩

namespace JsonText

/-- A cause with the number of characters from its place to the end of the text. -/
abbrev Stop := JsonCause × Nat

/-- The text after the blanks at its start. -/
def skipBlank (cs : List Char) : List Char :=
  cs.dropWhile fun c => c = ' ' ∨ c = '\t' ∨ c = '\n' ∨ c = '\r'

/-! ## Texts -/

/-- The character that a letter stands for after a backslash. -/
def escaped? (c : Char) : Option Nat :=
  match c with
  | '\x22' => some 0x22
  | '\x5c' => some 0x5c
  | '/' => some 0x2f
  | 'b' => some 8
  | 'f' => some 12
  | 'n' => some 10
  | 'r' => some 13
  | 't' => some 9
  | _ => none

/-- The code points and escaped UTF-16 units of a text, up to its closing quote; `start` is how far
the opening quote is from the end. -/
def units (start : Nat) : List Char → Except Stop (List Nat × List Char)
  | [] => .error (.unterminated, start)
  | '\x22' :: rest => .ok ([], rest)
  | ['\x5c'] => .error (.unterminated, start)
  | '\x5c' :: 'u' :: a :: b :: c :: d :: next :: rest =>
    match Text.hexValue? [a, b, c, d] with
    | some n => do
      let (more, rest) ← units start (next :: rest)
      return (n :: more, rest)
    | none => .error (.unicodeEscape, rest.length + 6)
  | '\x5c' :: 'u' :: rest => .error (.unicodeEscape, rest.length + 1)
  | '\x5c' :: c :: rest =>
    match escaped? c with
    | some n => do
      let (more, rest) ← units start rest
      return (n :: more, rest)
    | none => .error (.escape, rest.length + 2)
  | c :: rest =>
    if c.toNat < 32 then .error (.controlCharacter, rest.length + 1)
    else do
      let (more, rest) ← units start rest
      return (c.toNat :: more, rest)

/-- The text after an opening quote. -/
def readText (cs : List Char) : Except Stop (String × List Char) := do
  let (codes, rest) ← units (cs.length + 1) cs
  return (String.ofList (Text.joinUnits codes), rest)

/-! ## Numbers -/

/-- The number that decimal digits spell. -/
def digitsValue (cs : List Char) : Nat :=
  cs.foldl (fun n c => 10 * n + (c.toNat - '0'.toNat)) 0

/-- The digits after a point, if a digit follows the point. -/
def fraction : List Char → List Char × List Char
  | '.' :: d :: rest =>
    if d.isDigit then
      (d :: rest.takeWhile Char.isDigit, rest.dropWhile Char.isDigit)
    else ([], '.' :: d :: rest)
  | cs => ([], cs)

/-- The exponent, if its digits are there. -/
def exponent? (cs : List Char) : Option (Int × List Char) :=
  match cs with
  | e :: rest =>
    if e = 'e' ∨ e = 'E' then
      let negative := rest.head? = some '-'
      let body := if negative ∨ rest.head? = some '+' then rest.drop 1 else rest
      let digits := body.takeWhile Char.isDigit
      if digits.isEmpty then none
      else
        let n : Int := digitsValue digits
        some (if negative then -n else n, body.dropWhile Char.isDigit)
    else none
  | [] => none

/-- The whole part of a number: a zero alone, or digits that start with another one. -/
def wholePart? : List Char → Option (List Char × List Char)
  | '0' :: rest => some (['0'], rest)
  | c :: rest =>
    if c.isDigit then some (c :: rest.takeWhile Char.isDigit, rest.dropWhile Char.isDigit)
    else none
  | [] => none

/-- The number at the start of a text. It is whole when it has neither point nor exponent. -/
def number? (cs : List Char) : Option (Scalar × List Char) := do
  let negative := cs.head? = some '-'
  let (whole, rest) ← wholePart? (if negative then cs.drop 1 else cs)
  let (places, rest) := fraction rest
  let power := exponent? rest
  if places.isEmpty ∧ power.isNone then
    let n : Int := digitsValue whole
    return (.int (if negative then -n else n), rest)
  else
    let shift : Int := (power.map (·.1)).getD 0
    let rest := (power.map (·.2)).getD rest
    return (.float (.ofDecimal negative (digitsValue (whole ++ places)) (shift - places.length)),
      rest)

/-- The names that stand for a value. -/
def names : List (String × Scalar) :=
  [("null", .null), ("true", .bool true), ("false", .bool false),
    ("NaN", .float .notANumber), ("Infinity", .float (.infinite false)),
    ("-Infinity", .float (.infinite true))]

/-- The text after the characters `name`, if it starts with them. -/
def after? : List Char → List Char → Option (List Char)
  | [], cs => some cs
  | n :: name, c :: cs => if n = c then after? name cs else none
  | _ :: _, [] => none

/-- The digits of the whole number at the start of a text, if they are too many. -/
def excess? (cs : List Char) (value : Scalar) : Option Nat :=
  match value with
  | .int _ =>
    let digits := (cs.dropWhile (· = '-')).takeWhile Char.isDigit
    if digitLimit < digits.length then some digits.length else none
  | _ => none

/-- The name or number at the start of a text. -/
def readScalar (cs : List Char) : Except Stop (Document × List Char) :=
  match names.findSome? fun (name, value) => (after? name.toList cs).map (value, ·) with
  | some (value, rest) => .ok (.scalar value, rest)
  | none =>
    match number? cs with
    | some (value, rest) =>
      match excess? cs value with
      | some count => .error (.digits count, cs.length)
      | none => .ok (.scalar value, rest)
    | none => .error (.value, cs.length)

/-! ## Values -/

/-- How many lists and objects may stand inside each other. -/
def nestingLimit : Nat := 985

mutual

/-- The value at the start of a text, where there is room for so many lists and objects. -/
def readValue (room : Nat) : Nat → List Char → Except Stop (Document × List Char)
  | 0, cs => .error (.value, cs.length)
  | fuel + 1, cs =>
    match cs with
    | '\x22' :: rest => do
      let (s, rest) ← readText rest
      return (.text s, rest)
    | '[' :: rest =>
      if room = 0 then .error (.nesting "array", cs.length)
      else
        match skipBlank rest with
        | ']' :: rest => .ok (.list [], rest)
        | rest => do
          let (items, rest) ← readItems (room - 1) fuel rest
          return (.list items, rest)
    | '\x7b' :: rest =>
      if room = 0 then .error (.nesting "object", cs.length)
      else
        match skipBlank rest with
        | '\x7d' :: rest => .ok (.map [], rest)
        | rest => do
          let (entries, rest) ← readMembers (room - 1) fuel rest
          return (.ofEntries entries, rest)
    | _ => readScalar cs

/-- The items up to the closing bracket; there is at least one. -/
def readItems (room : Nat) : Nat → List Char → Except Stop (List Document × List Char)
  | 0, cs => .error (.value, cs.length)
  | fuel + 1, cs => do
    let (item, rest) ← readValue room fuel cs
    match skipBlank rest with
    | ']' :: rest => return ([item], rest)
    | ',' :: rest =>
      let (items, rest) ← readItems room fuel (skipBlank rest)
      return (item :: items, rest)
    | rest => throw (.comma, rest.length)

/-- The members up to the closing brace; there is at least one. -/
def readMembers (room : Nat) :
    Nat → List Char → Except Stop (List (Scalar × Document) × List Char)
  | 0, cs => .error (.value, cs.length)
  | fuel + 1, cs => do
    let '\x22' :: rest := cs | throw (.propertyName, cs.length)
    let (key, rest) ← readText rest
    let ':' :: rest := skipBlank rest | throw (.colon, (skipBlank rest).length)
    let (value, rest) ← readValue room fuel (skipBlank rest)
    match skipBlank rest with
    | '\x7d' :: rest => return ([(.text key, value)], rest)
    | ',' :: rest =>
      let (entries, rest) ← readMembers room fuel (skipBlank rest)
      return ((.text key, value) :: entries, rest)
    | rest => throw (.comma, rest.length)

end

/-- Reads a whole text. Every value takes a character and every nesting another, so twice the length
bounds the calls. -/
def read (cs : List Char) : Except Stop Document := do
  if cs.head? = some '\ufeff' then throw (.byteOrderMark, cs.length)
  let (value, rest) ← readValue nestingLimit (2 * cs.length + 2) (skipBlank cs)
  let rest := skipBlank rest
  if rest.isEmpty then return value else throw (.extraData, rest.length)

end JsonText

/-- Reads a JSON text as a document. -/
def Document.ofJsonText (text : String) : Except JsonFault Document :=
  let cs := text.toList
  match JsonText.read cs with
  | .ok value => .ok value
  | .error (cause, remaining) => .error (.locate cs cause (cs.length - remaining))

end PluginRegistry
