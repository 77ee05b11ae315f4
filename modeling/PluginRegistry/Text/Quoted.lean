import PluginRegistry.Text.Half
import PluginRegistry.Text.Printable

/-!
# Quoted text

A text shown inside a message stands between apostrophes, or between double quotes when it holds an
apostrophe and no double quote. The quote in use and the backslash are preceded by a backslash, line
feed, carriage return and tab have their letters, and every other character that is not printable is
written by its code in hexadecimal, with two, four or eight digits.
-/

namespace PluginRegistry.Text

/-- The number in hexadecimal with at least `width` digits. -/
def hex (width n : Nat) : List Char :=
  let digits := Nat.toDigits 16 n
  List.replicate (width - digits.length) '0' ++ digits

/-- The quote that a text is put between. -/
def quoteMark (cs : List Char) : Char :=
  if cs.contains '\x27' && !cs.contains '\x22' then '\x22' else '\x27'

/-- A character by its code. -/
def escapeCode (c : Char) : List Char :=
  let code := if isHalf c then c.toNat - halfShift else c.toNat
  if code < 0x100 then '\x5c' :: 'x' :: hex 2 code
  else if code < 0x10000 then '\x5c' :: 'u' :: hex 4 code
  else '\x5c' :: 'U' :: hex 8 code

/-- The written form of one character between the quotes `mark`. -/
def escapeChar (mark c : Char) : List Char :=
  if c = mark ∨ c = '\x5c' then ['\x5c', c]
  else if c = '\n' then ['\x5c', 'n']
  else if c = '\r' then ['\x5c', 'r']
  else if c = '\t' then ['\x5c', 't']
  else if isPrintable c then [c]
  else escapeCode c

/-- What is said of halves, where a text is to have octets. -/
def HalfRun.message (halves : HalfRun) : String :=
  "'utf-8' codec can't encode " ++
    (if halves.count = 1 then
      "character '" ++ String.ofList (escapeCode halves.half) ++ s!"' in position {halves.position}"
    else
      s!"characters in position {halves.position}-{halves.position + halves.count - 1}") ++
    ": surrogates not allowed"

/-- The text between its quotes. -/
def quoted (text : String) : String :=
  let mark := quoteMark text.toList
  String.ofList (mark :: text.toList.flatMap (escapeChar mark) ++ [mark])

end PluginRegistry.Text
