/-!
# Halves of surrogate pairs

An escape in a document may name one half of a surrogate pair and lack the other. A half alone is no
character, so a text holds the private character that lies a fixed distance further on in its place:
`'\u{10D800}'` to `'\u{10DFFF}'` stand for halves. A text with a half is shown and written by the
escape of the half, but it has no octets.

These 2048 private characters always stand for halves, so a text that has one of them on its own
account cannot be told from one with the half, and what is said of halves is said of it too: that it
is no id, no tag and no key. Whatever is said of texts is meant of those without these characters.

The names of files are the one place where some halves have octets: each of the last 128 low halves
up to `0xDCFF` is the octet of a name that is no UTF-8. Such a half counts for the length of a name
like the character in its place, and several of them are not joined to the character that their
octets might spell.
-/

namespace PluginRegistry.Text

/-- How far the character that stands for a half lies behind the half. -/
def halfShift : Nat := 0x100000

/-- The number is a half of a surrogate pair. -/
def isHalfUnit (n : Nat) : Bool := 0xD800 ≤ n && n < 0xE000

/-- The character that stands for a half. -/
def ofHalf (unit : Nat) : Char := Char.ofNat (halfShift + unit)

/-- The character stands for a half. -/
def isHalf (c : Char) : Bool := isHalfUnit (c.toNat - halfShift)

/-- The half stands for an octet of the name of a file. -/
def isOctetHalf (c : Char) : Bool :=
  halfShift + 0xDC80 ≤ c.toNat && c.toNat < halfShift + 0xDD00

/-- Halves that stand in a row and have no octets: the first one, its position, and how many there
are. -/
structure HalfRun where
  half : Char
  position : Nat
  count : Nat
  deriving DecidableEq

/-- The first character that is refused, with the halves after it that are next to it. -/
def firstRefused? (refused : Char → Bool) (position : Nat) : List Char → Option HalfRun
  | [] => none
  | c :: rest =>
    if refused c then some ⟨c, position, 1 + (rest.takeWhile isHalf).length⟩
    else firstRefused? refused (position + 1) rest

/-- The first halves in a text. -/
def half? (text : String) : Option HalfRun := firstRefused? isHalf 0 text.toList

/-- The first halves in a text that the name of a file cannot have. -/
def nameless? (text : String) : Option HalfRun :=
  firstRefused? (fun c => isHalf c && !isOctetHalf c) 0 text.toList

end PluginRegistry.Text
