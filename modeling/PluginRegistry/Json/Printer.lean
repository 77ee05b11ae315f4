import PluginRegistry.Json.Basic
import PluginRegistry.Numeral.Shortest
import PluginRegistry.Text.Quoted

/-!
# Writing JSON

Texts are written in ASCII: quote, backslash and the usual controls have their letters, every other
control and every character beyond ASCII is written by its UTF-16 units. A double that is no number
is written as a name. `compact` puts a value on one line; `indented` gives every item and member a
line of its own, two spaces further in than the bracket it belongs to, and leaves an empty list or
object on one line.
-/

namespace PluginRegistry.Json

/-- A UTF-16 unit as an escape. -/
def unitEscape (unit : Nat) : List Char := '\x5c' :: 'u' :: Text.hex 4 unit

/-- The written form of one character in a text. -/
def escapeChar (c : Char) : List Char :=
  let n := c.toNat
  if c = '\x22' then ['\x5c', '\x22']
  else if c = '\x5c' then ['\x5c', '\x5c']
  else if c = '\n' then ['\x5c', 'n']
  else if c = '\r' then ['\x5c', 'r']
  else if c = '\t' then ['\x5c', 't']
  else if n = 8 then ['\x5c', 'b']
  else if n = 12 then ['\x5c', 'f']
  else if 32 ≤ n ∧ n < 127 then [c]
  else if n < 0x10000 then unitEscape n
  else if Text.isHalf c then unitEscape (n - Text.halfShift)
  else
    unitEscape (0xD800 + (n - 0x10000) / 0x400) ++ unitEscape (0xDC00 + (n - 0x10000) % 0x400)

/-- A text between its quotes. -/
def quote (text : String) : String :=
  String.ofList ('\x22' :: text.toList.flatMap escapeChar ++ ['\x22'])

/-- A double, or the name of what is no number. -/
def numberText : Double → String
  | .finite x => x.text
  | .infinite negative => if negative then "-Infinity" else "Infinity"
  | .notANumber => "NaN"

/-- A line break and the indentation of the depth. -/
def newline (depth : Nat) : String := "\n" ++ String.ofList (List.replicate (2 * depth) ' ')

mutual

/-- The value with its items on lines of their own, `depth` levels in. -/
def render (depth : Nat) : Json → String
  | .null => "null"
  | .bool b => if b then "true" else "false"
  | .int n => toString n
  | .float x => numberText x
  | .str s => quote s
  | .arr [] => "[]"
  | .arr (x :: xs) =>
    "[" ++ newline (depth + 1) ++ render (depth + 1) x ++ renderItems (depth + 1) xs ++
      newline depth ++ "]"
  | .obj [] => "\x7b\x7d"
  | .obj ((k, v) :: rest) =>
    "\x7b" ++ newline (depth + 1) ++ quote k ++ ": " ++ render (depth + 1) v ++
      renderMembers (depth + 1) rest ++ newline depth ++ "\x7d"

/-- The items after the first one. -/
def renderItems (depth : Nat) : List Json → String
  | [] => ""
  | x :: xs => "," ++ newline depth ++ render depth x ++ renderItems depth xs

/-- The members after the first one. -/
def renderMembers (depth : Nat) : List (String × Json) → String
  | [] => ""
  | (k, v) :: rest =>
    "," ++ newline depth ++ quote k ++ ": " ++ render depth v ++ renderMembers depth rest

end

/-- The value over several lines, two spaces to a level. -/
def indented (value : Json) : String := render 0 value

mutual

/-- The value on one line. -/
def compact : Json → String
  | .null => "null"
  | .bool b => if b then "true" else "false"
  | .int n => toString n
  | .float x => numberText x
  | .str s => quote s
  | .arr [] => "[]"
  | .arr (x :: xs) => "[" ++ compact x ++ compactItems xs ++ "]"
  | .obj [] => "\x7b\x7d"
  | .obj ((k, v) :: rest) =>
    "\x7b" ++ quote k ++ ": " ++ compact v ++ compactMembers rest ++ "\x7d"

/-- The items after the first one, each behind a comma. -/
def compactItems : List Json → String
  | [] => ""
  | x :: xs => ", " ++ compact x ++ compactItems xs

/-- The members after the first one, each behind a comma. -/
def compactMembers : List (String × Json) → String
  | [] => ""
  | (k, v) :: rest => ", " ++ quote k ++ ": " ++ compact v ++ compactMembers rest

end

end PluginRegistry.Json
