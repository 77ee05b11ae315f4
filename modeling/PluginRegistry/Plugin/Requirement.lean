import PluginRegistry.Text.Blank
import PluginRegistry.Text.Digit
import PluginRegistry.Text.Split
import PluginRegistry.Text.Word

/-!
# Requirements of a release

A requirement names a service and bounds its version: `orca>=7.0.0`. A release carries a list of
them as one text, separated by commas; blanks around an entry do not count, and blank entries are
none.
-/

namespace PluginRegistry

/-- How a version is bounded. -/
inductive Comparison where
  | atLeast
  | atMost
  | above
  | below
  | equal
  deriving DecidableEq, Repr

namespace Comparison

/-- The sign of a comparison. -/
def chars : Comparison → List Char
  | .atLeast => ['>', '=']
  | .atMost => ['<', '=']
  | .above => ['>']
  | .below => ['<']
  | .equal => ['=']

/-- The sign as a text. -/
def text (c : Comparison) : String := String.ofList c.chars

/-- The sign at the start of a text, the longest that fits, and the text after it. -/
def split? : List Char → Option (Comparison × List Char)
  | '>' :: '=' :: rest => some (.atLeast, rest)
  | '<' :: '=' :: rest => some (.atMost, rest)
  | '>' :: rest => some (.above, rest)
  | '<' :: rest => some (.below, rest)
  | '=' :: rest => some (.equal, rest)
  | _ => none

end Comparison

/-- A service and a bound on its version. -/
structure Requirement where
  service : String
  comparison : Comparison
  version : String
  deriving DecidableEq, Repr

namespace Requirement

/-- A character of a service's name. -/
def isServiceChar (c : Char) : Bool := Text.isWord c || c = '-'

/-- Three numbers with points between them. -/
def isVersion (cs : List Char) : Bool :=
  match Text.splitAt '.' cs with
  | [major, minor, patch] =>
    [major, minor, patch].all fun number => !number.isEmpty && number.all Text.isDigit
  | _ => false

/-- Reads an entry without blanks around it. -/
def ofChars? (cs : List Char) : Option Requirement := do
  let service := cs.takeWhile isServiceChar
  let rest := (cs.dropWhile isServiceChar).dropWhile Text.isBlank
  let (comparison, rest) ← Comparison.split? rest
  let version := rest.dropWhile Text.isBlank
  if !service.isEmpty && isVersion version then
    some ⟨String.ofList service, comparison, String.ofList version⟩
  else none

/-- Reads one entry, if it is well formed. -/
def parse? (entry : String) : Option Requirement := ofChars? (Text.trim entry.toList)

/-- The entries of a list of requirements, trimmed and without the blank ones. -/
def entries (list : String) : List String :=
  ((Text.split ',' list).map Text.trimmed).filter (· ≠ "")

end Requirement

end PluginRegistry
