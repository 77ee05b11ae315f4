/-!
# Tags

A tag says what a node stands for. A plain scalar that carries none is given one by its looks: a
flag, a number, a time, or a text when it looks like none of these.
-/

namespace PluginRegistry.Yaml

/-- What a node is marked to be. -/
inductive Tag where
  | null
  | bool
  | int
  | float
  | timestamp
  | binary
  | str
  | seq
  | map
  | set
  | orderedMap
  | pairs
  | merge
  | value
  | other (name : String)
  deriving DecidableEq

namespace Tag

/-- What the names of all known tags start with. -/
def lead : String := "tag:yaml.org,2002:"

/-- The known tags with the ends of their names. -/
def known : List (String × Tag) :=
  [("null", .null), ("bool", .bool), ("int", .int), ("float", .float), ("timestamp", .timestamp),
    ("binary", .binary), ("str", .str), ("seq", .seq), ("map", .map), ("set", .set),
    ("omap", .orderedMap), ("pairs", .pairs), ("merge", .merge), ("value", .value)]

/-- The tag of that name. -/
def ofName (name : String) : Tag :=
  match known.find? fun entry => lead ++ entry.1 = name with
  | some (_, tag) => tag
  | none => .other name

/-- The name of a tag. -/
def name : Tag → String
  | .other name => name
  | tag => lead ++ ((known.find? fun entry => entry.2 = tag).map (·.1)).getD ""

/-! ## Looks of plain scalars -/

/-- A decimal digit or the underscore that may stand between digits. -/
def isDigitOrGap (c : Char) : Bool := c.isDigit || c = '_'

/-- The text without a sign at its start. -/
def unsigned (cs : List Char) : List Char :=
  match cs with
  | c :: rest => if c = '+' ∨ c = '-' then rest else cs
  | [] => []

/-- Further places of a number to the base sixty, up to the end or to a point: each a colon and one
digit, or two of which the first is at most 5. -/
def sixties : List Char → Option (List Char)
  | ':' :: a :: rest =>
    if !a.isDigit then none
    else
      match rest with
      | [] => some []
      | b :: rest' =>
        if b.isDigit then
          if a ≤ '5' then
            match rest' with
            | ':' :: _ => sixties rest'
            | _ => some rest'
          else none
        else if b = ':' then sixties (b :: rest')
        else some (b :: rest')
  | _ => none

/-- The text is a whole number. -/
def isWhole (text : List Char) : Bool :=
  match unsigned text with
  | '0' :: 'b' :: digits => !digits.isEmpty && digits.all fun c => c = '0' || c = '1' || c = '_'
  | '0' :: 'x' :: digits =>
    !digits.isEmpty && digits.all fun c =>
      isDigitOrGap c || ('a' ≤ c && c ≤ 'f') || ('A' ≤ c && c ≤ 'F')
  | '0' :: digits => digits.all fun c => ('0' ≤ c && c ≤ '7') || c = '_'
  | c :: rest =>
    c.isDigit &&
      (let rest := rest.dropWhile isDigitOrGap
       rest.isEmpty || sixties rest = some [])
  | [] => false

/-- The end of a number with a point: nothing, or an exponent that has a sign. -/
def isExponent : List Char → Bool
  | [] => true
  | e :: s :: digits =>
    (e = 'e' || e = 'E') && (s = '+' || s = '-') && !digits.isEmpty && digits.all Char.isDigit
  | _ => false

/-- The text is a number with a point. -/
def isPointed (text : List Char) : Bool :=
  let body := unsigned text
  match body with
  | '.' :: rest =>
    (rest.head?.any Char.isDigit && text = body && isExponent (rest.dropWhile isDigitOrGap)) ||
      [".inf", ".Inf", ".INF"].contains (String.ofList body) ||
      [".nan", ".NaN", ".NAN"].contains (String.ofList text)
  | c :: rest =>
    c.isDigit &&
      (match rest.dropWhile isDigitOrGap with
        | '.' :: rest => isExponent (rest.dropWhile isDigitOrGap)
        | rest =>
          match sixties rest with
          | some ('.' :: rest) => rest.all isDigitOrGap
          | _ => false)
  | [] => false

/-- The text is one of the words for a flag. -/
def isFlag (text : String) : Bool :=
  ["yes", "Yes", "YES", "no", "No", "NO", "true", "True", "TRUE", "false", "False", "FALSE",
    "on", "On", "ON", "off", "Off", "OFF"].contains text

/-- The parts of a timestamp: the numbers of its date and, if it tells one, its time. The zone is
UTC or a sign with hours and minutes. -/
structure Stamp where
  date : List Char × List Char × List Char
  time : Option ((List Char × List Char × List Char) × List Char)
  zone : Option (Option (Bool × List Char × List Char))

/-- One or two digits at the start of a text. -/
def shortNumber? (cs : List Char) : Option (List Char × List Char) :=
  match cs with
  | a :: b :: rest =>
    if a.isDigit then if b.isDigit then some ([a, b], rest) else some ([a], b :: rest) else none
  | [a] => if a.isDigit then some ([a], []) else none
  | [] => none

/-- Two digits at the start of a text. -/
def twoDigits? (cs : List Char) : Option (List Char × List Char) :=
  match cs with
  | a :: b :: rest => if a.isDigit ∧ b.isDigit then some ([a, b], rest) else none
  | _ => none

/-- The text after the character, if it starts with it. -/
def after? (c : Char) (cs : List Char) : Option (List Char) :=
  if cs.head? = some c then some (cs.drop 1) else none

/-- The zone that ends a timestamp. -/
def zone? (cs : List Char) : Option (Option (Option (Bool × List Char × List Char))) :=
  if cs.isEmpty then some none
  else
    match cs.dropWhile fun c => c = ' ' || c = '\t' with
    | ['Z'] => some (some none)
    | sign :: rest =>
      if sign = '+' ∨ sign = '-' then do
        let (hours, rest) ← shortNumber? rest
        if rest.isEmpty then return some (some (sign = '-', hours, []))
        let (minutes, rest) ← twoDigits? (← after? ':' rest)
        if rest.isEmpty then return some (some (sign = '-', hours, minutes)) else none
      else none
    | [] => none

/-- The text without one line feed at its end. -/
def withoutLineFeed (text : List Char) : List Char :=
  if text.getLast? = some '\n' then text.dropLast else text

/-- The parts of a text that is a timestamp. A line feed at the end is overlooked. -/
def stamp? (text : List Char) : Option Stamp := do
  let text := withoutLineFeed text
  let year := text.take 4
  if year.length < 4 ∨ !year.all Char.isDigit then none
  let (month, rest) ← shortNumber? (← after? '-' (text.drop 4))
  let (day, rest) ← shortNumber? (← after? '-' rest)
  let date := (year, month, day)
  if rest.isEmpty then return ⟨date, none, none⟩
  let blanks := rest.takeWhile fun c => c = ' ' || c = '\t'
  let rest ←
    if rest.head? = some 'T' ∨ rest.head? = some 't' then some (rest.drop 1)
    else if blanks.isEmpty then none
    else some (rest.drop blanks.length)
  let (hour, rest) ← shortNumber? rest
  let (minute, rest) ← twoDigits? (← after? ':' rest)
  let (second, rest) ← twoDigits? (← after? ':' rest)
  let fraction :=
    if rest.head? = some '.' then (rest.drop 1).takeWhile Char.isDigit else []
  let rest :=
    if rest.head? = some '.' then (rest.drop 1).dropWhile Char.isDigit else rest
  return ⟨date, some ((hour, minute, second), fraction), ← zone? rest⟩

/-- A plain text is a timestamp; a date alone is one when its month and day have two digits. -/
def isStamp (text : List Char) : Bool :=
  match stamp? text with
  | some s => s.time.isSome || (s.date.2.1.length = 2 && s.date.2.2.length = 2)
  | none => false

/-- What a plain scalar without a tag stands for. A line feed at its end is overlooked, unless there
is nothing else. -/
def ofPlain (text : String) : Tag :=
  let cs := withoutLineFeed text.toList
  let short := String.ofList cs
  if text = "" then .null
  else if isFlag short then .bool
  else if isPointed cs then .float
  else if isWhole cs then .int
  else if short = "<<" then .merge
  else if ["~", "null", "Null", "NULL"].contains short then .null
  else if isStamp cs then .timestamp
  else if short = "=" then .value
  else .str

end Tag

end PluginRegistry.Yaml
