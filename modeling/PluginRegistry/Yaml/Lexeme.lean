import PluginRegistry.Text.Units
import PluginRegistry.Text.Utf8
import PluginRegistry.Yaml.Cursor
import PluginRegistry.Yaml.Token

/-!
# Anchors, tags and directives

The tokens that are words: each is read from its first character on, and the character after it must
be one that may end it.
-/

namespace PluginRegistry.Yaml

/-- Reading on from a place, which may fail. -/
abbrev Scan := StateT Cursor (Except TokenFault)

namespace Scan

/-- The character `n` places ahead. -/
def peek (n : Nat) : Scan Char := return (← get).peek n

/-- Passes over `n` characters. -/
def skip (n : Nat) : Scan Unit := modify (·.advanceBy n)

/-- Reads the characters ahead for which `p` holds. -/
def takeWhile (p : Char → Bool) : Scan (List Char) := do
  let run := (← get).rest.takeWhile p
  skip run.length
  return run

/-- Passes over the characters ahead for which `p` holds. -/
def skipWhile (p : Char → Bool) : Scan Unit := do let _ ← takeWhile p

/-- Fails unless the next character is one of those. -/
def require (fault : TokenFault) (p : Char → Bool) : Scan Unit := do
  unless p (← peek 0) do throw fault

/-- Passes over a line break, if one is next, and gives it in its normal form. -/
def lineBreak : Scan (List Char) := do
  let c ← peek 0
  if c = '\u2028' ∨ c = '\u2029' then
    skip 1
    return [c]
  else if isBreak c then
    skip (if c = '\r' ∧ (← peek 1) = '\n' then 2 else 1)
    return ['\n']
  else return []

/-- Passes over the rest of a line on which only a comment may stand. -/
def restOfLine (fault : TokenFault) : Scan Unit := do
  skipWhile (· = ' ')
  if (← peek 0) = '#' then skipWhile (!endsLine ·)
  require fault endsLine
  let _ ← lineBreak

/-! ## Anchors -/

/-- The name of an anchor or of an alias, after its mark. -/
def anchorName (fault : TokenFault) : Scan String := do
  skip 1
  let name ← takeWhile isNameChar
  if name.isEmpty then throw fault
  require fault fun c => endsWord c || "?:,]\x7d%@\x60".toList.contains c
  return String.ofList name

/-! ## Tags -/

/-- A character that a URI may hold as it is. -/
def isUriChar (c : Char) : Bool :=
  c.isAlphanum || "-;/?:@&=+$,_.!~*'()[]".toList.contains c

/-- The octets that percent signs with two hexadecimal digits spell. -/
def uriOctets (fault : TokenFault) : Nat → Scan (List UInt8)
  | 0 => return []
  | fuel + 1 => do
    if (← peek 0) = '%' then
      let some octet := Text.hexValue? [← peek 1, ← peek 2] | throw fault
      skip 3
      return octet.toUInt8 :: (← uriOctets fault fuel)
    else return []

/-- The pieces of a URI. -/
def uriPieces (fault : TokenFault) : Nat → Scan (List Char)
  | 0 => return []
  | fuel + 1 => do
    let c ← peek 0
    if c = '%' then
      match Text.decodeUtf8 (← uriOctets fault ((← get).rest.length)) with
      | .ok text => return text.toList ++ (← uriPieces fault fuel)
      | .error _ => throw fault
    else if isUriChar c then
      let run ← takeWhile isUriChar
      return run ++ (← uriPieces fault fuel)
    else return []

/-- A URI, which may not be empty. An escape that is wrong is another fault than a missing URI. -/
def uri (missing wrong : TokenFault) : Scan String := do
  let first ← peek 0
  unless first = '%' ∨ isUriChar first do throw missing
  let pieces ← uriPieces wrong ((← get).rest.length + 1)
  return String.ofList pieces

/-- A handle: an exclamation mark, alone or with a name and a second one. -/
def tagHandle (fault : TokenFault) : Scan String := do
  require fault (· = '!')
  skip 1
  if (← peek 0) = ' ' then return "!"
  let name ← takeWhile isNameChar
  require fault (· = '!')
  skip 1
  return String.ofList ('!' :: name ++ ['!'])

/-- A tag: in full between angle brackets, an exclamation mark alone, or a suffix after a handle. -/
def tag : Scan Token := do
  let next ← peek 1
  let token ←
    if next = '<' then do
      skip 2
      let suffix ← uri .tagUri .tag
      require .tagUri (· = '>')
      skip 1
      pure (Token.tag none suffix)
    else if endsWord next then do
      skip 1
      pure (Token.tag none "!")
    else do
      let word := (← get).rest.drop 1 |>.takeWhile (!endsItem ·)
      let handle ← if word.contains '!' then tagHandle .tag else do skip 1; pure "!"
      pure (Token.tag (some handle) (← uri .tagUri .tag))
  require .tag endsItem
  return token

/-! ## Directives -/

/-- A number of a version. -/
def versionNumber : Scan Nat := do
  let digits ← takeWhile Char.isDigit
  if digits.isEmpty then throw .directive
  return digits.foldl (fun n c => 10 * n + (c.toNat - '0'.toNat)) 0

/-- A whole line that is a directive. -/
def directive : Scan Directive := do
  skip 1
  let name ← takeWhile isNameChar
  if name.isEmpty then throw .directive
  require .directive endsItem
  let value ←
    if name = "YAML".toList then do
      skipWhile (· = ' ')
      let major ← versionNumber
      require .directive (· = '.')
      skip 1
      let minor ← versionNumber
      require .directive endsItem
      pure (Directive.version major minor)
    else if name = "TAG".toList then do
      skipWhile (· = ' ')
      let handle ← tagHandle .directive
      require .directive (· = ' ')
      skipWhile (· = ' ')
      let lead ← uri .directiveUri .directive
      require .directive endsItem
      pure (Directive.tagHandle handle lead)
    else do
      skipWhile (!endsLine ·)
      pure Directive.reserved
  restOfLine .directive
  return value

end Scan

end PluginRegistry.Yaml
