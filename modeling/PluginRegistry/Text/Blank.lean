/-!
# Blank characters and trimming

The characters that count as white space: the ASCII blanks with the four separator controls, the
next-line control, and the space and line separators of Unicode. The zero-width space and the byte
order mark are not blank. Trimming drops the blanks at both ends of a text and nothing else.
-/

namespace PluginRegistry.Text

/-- A white space character. -/
def isBlank (c : Char) : Bool :=
  let n := c.toNat
  (9 ≤ n && n ≤ 13) || (28 ≤ n && n ≤ 32) || n == 133 || n == 160 || n == 5760 ||
    (8192 ≤ n && n ≤ 8202) || n == 8232 || n == 8233 || n == 8239 || n == 8287 || n == 12288

/-- The text without the blanks at its end. -/
def trimEnd (cs : List Char) : List Char := (cs.reverse.dropWhile isBlank).reverse

/-- The text without the blanks at either end. -/
def trim (cs : List Char) : List Char := trimEnd (cs.dropWhile isBlank)

/-- `trim` on strings. -/
def trimmed (text : String) : String := String.ofList (trim text.toList)

/-- The text is empty or blank throughout. -/
def isAllBlank (text : String) : Bool := text.toList.all isBlank

end PluginRegistry.Text
