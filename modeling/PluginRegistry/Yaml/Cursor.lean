/-!
# A place in a YAML text

The characters still to be read, with the number of those before them, and line and column of the
next one. The end of the text is shown as the character of code 0, which no YAML text may hold.
-/

namespace PluginRegistry.Yaml

/-- A character that ends a line. -/
def isBreak (c : Char) : Bool :=
  c = '\n' || c = '\r' || c = '\u0085' || c = '\u2028' || c = '\u2029'

/-- The end of the text or of a line. -/
def endsLine (c : Char) : Bool := c = '\x00' || isBreak c

/-- The end of the text or of a line, or a space. -/
def endsItem (c : Char) : Bool := c = ' ' || endsLine c

/-- The end of the text or of a line, a space, or a tab. -/
def endsWord (c : Char) : Bool := c = '\t' || endsItem c

/-- A bracket, brace or comma of a flow collection. -/
def isFlowMark (c : Char) : Bool :=
  c = ',' || c = '[' || c = ']' || c = '\x7b' || c = '\x7d'

/-- A character of an anchor's or a handle's name. -/
def isNameChar (c : Char) : Bool := c.isAlphanum || c = '-' || c = '_'

/-- A place in a text. -/
structure Cursor where
  rest : List Char
  index : Nat
  line : Nat
  column : Nat

namespace Cursor

/-- The start of a text. -/
def start (text : List Char) : Cursor := ⟨text, 0, 0, 0⟩

/-- The character that is `n` places ahead. -/
def peek (c : Cursor) (n : Nat) : Char := (c.rest[n]?).getD '\x00'

/-- The place after the next character. A byte order mark takes no column. -/
def advance (c : Cursor) : Cursor :=
  match c.rest with
  | [] => c
  | next :: rest =>
    if isBreak next && !(next = '\r' && rest.head? = some '\n') then
      ⟨rest, c.index + 1, c.line + 1, 0⟩
    else ⟨rest, c.index + 1, c.line, if next = '\ufeff' then c.column else c.column + 1⟩

/-- The place `n` characters further on. -/
def advanceBy : Nat → Cursor → Cursor
  | 0, c => c
  | n + 1, c => advanceBy n c.advance

/-- A line of three hyphens or three points starts here and ends a document or starts one. -/
def atMark (c : Cursor) (mark : Char) : Bool :=
  c.peek 0 = mark && c.peek 1 = mark && c.peek 2 = mark && endsWord (c.peek 3)

/-- One of the two document marks starts here. -/
def atDocumentMark (c : Cursor) : Bool := c.atMark '-' || c.atMark '.'

end Cursor

end PluginRegistry.Yaml
