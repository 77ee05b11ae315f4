import PluginRegistry.Json.Display
import PluginRegistry.Text.Blank

/-!
# Values on log lines

Ids, versions and user names come from callers, so they are cleaned before they reach a line of the
log. A value is cut to a length, loses its line breaks, plain or percent-encoded, and its control
characters, then everything outside a small alphabet, and at last the blanks around it. A value of
which nothing is left is replaced by a placeholder.
-/

namespace PluginRegistry.Log

/-- The first `limit` characters; a negative limit counts from the end. -/
def cut (limit : Int) (cs : List Char) : List Char :=
  if limit < 0 then cs.take (cs.length - limit.natAbs) else cs.take limit.toNat

/-- The text, cut to a length and marked when it was longer. -/
def shorten (limit : Int) (cs : List Char) : List Char :=
  if limit < cs.length then cut limit cs ++ ['.', '.', '.'] else cs

/-- The text without the codes of line breaks in percent encoding. The pieces that are brought
together are not looked at again. -/
def dropEncodedBreaks : List Char → List Char
  | '%' :: '0' :: c :: rest =>
    if c = 'a' ∨ c = 'd' then dropEncodedBreaks rest
    else '%' :: dropEncodedBreaks ('0' :: c :: rest)
  | c :: rest => c :: dropEncodedBreaks rest
  | [] => []

/-- A line feed or carriage return. -/
def isLineBreak (c : Char) : Bool := c = '\n' || c = '\r'

/-- A control character of ASCII other than tab, line feed and carriage return. -/
def isControl (c : Char) : Bool :=
  let n := c.toNat
  n < 9 || n = 11 || n = 12 || (14 ≤ n && n < 32) || n = 127

/-- A character of ids, versions, keys of artifacts and user names. -/
def isSafe (c : Char) : Bool :=
  c.isAlphanum || "._@/+-".toList.contains c || Text.isBlank c

/-- What is shown in place of a value of which nothing is left. -/
def placeholder : String := "[sanitized]"

/-- The text is made of safe characters, and of at least one. -/
def isSafeText (cs : List Char) : Bool := !cs.isEmpty && cs.all isSafe

/-- The text without line breaks, their codes and control characters, and without all other
characters that are not safe if it has any. -/
def clean (cs : List Char) : List Char :=
  let unbroken := dropEncodedBreaks (cs.filter (!isLineBreak ·))
  let plain := unbroken.filter (!isControl ·)
  if isSafeText plain then plain else plain.filter isSafe

/-- The characters of a value that may stand on a line, before blanks are trimmed. -/
def safeChars (limit : Int) (cs : List Char) : List Char := clean (shorten limit cs)

/-- A text made safe for a line of the log. -/
def sanitizeText (limit : Int) (text : String) : String :=
  let kept := Text.trim (safeChars limit text.toList)
  if kept.isEmpty then placeholder else String.ofList kept

/-- Any value made safe for a line of the log. -/
def sanitize (limit : Int) : Json → String
  | .null => "null"
  | value => sanitizeText limit value.display

/-- How much of an id or a user name is shown. -/
def usualLimit : Int := 100

/-- How much of a version is shown. -/
def versionLimit : Int := 50

/-- A value made safe, or other words for one that does not count as true. -/
def sanitizeOr (words : String) (limit : Int) (value : Json) : String :=
  if value.truthy then sanitize limit value else words

/-- A release of a plugin as `id@version`. -/
def releaseName (plugin version : Json) : String :=
  sanitizeOr "[no_id]" usualLimit plugin ++ "@" ++
    sanitizeOr "[no_version]" versionLimit version

end PluginRegistry.Log
