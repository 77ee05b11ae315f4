import PluginRegistry.Plugin.Basic
import PluginRegistry.Validation.Violation

/-!
# The rules of the registry

Three rules come with the registry: versions are present and unique within a plugin, an id has a
namespace and a name, and every requirement is well formed. A rule lists what it objects to, in
order.
-/

namespace PluginRegistry

/-- A rule for records, with its name. -/
structure Validator where
  name : String
  check : Plugin → List Violation

namespace Validator

/-! ## Versions -/

/-- One violation for each release without a version, where `index` releases came before. -/
def emptyVersions (index : Nat) : List Release → List Violation
  | [] => []
  | r :: rest =>
    if r.version = "" then .emptyVersion index :: emptyVersions (index + 1) rest
    else emptyVersions (index + 1) rest

/-- How often each item occurs, in order of the first occurrences. -/
def tally (items : List String) : List (String × Nat) :=
  items.foldl (fun counts item => putMember item ((counts.lookup item).getD 0 + 1) counts) []

/-- One violation for each version that several releases have, in order of the first of them. -/
def repeatedVersions (versions : List String) : List Violation :=
  ((tally (versions.filter (· ≠ ""))).filter fun counted => 1 < counted.2).map fun counted =>
    .repeatedVersion counted.1 counted.2

/-- Versions are present and unique. -/
def uniqueVersions : Validator where
  name := "UniqueReleaseVersionValidator"
  check p := emptyVersions 0 p.releases ++ repeatedVersions p.versions

/-! ## Ids -/

/-- A character of a namespace or a name. -/
def isIdChar (c : Char) : Bool := c.isAlphanum || c = '_' || c = '-'

/-- The text without one line feed at its end. -/
def withoutLineEnd (cs : List Char) : List Char :=
  if cs.getLast? = some '\n' then cs.dropLast else cs

/-- A namespace and a name with a point between them. A line feed at the end is overlooked. -/
def isCanonicalId (id : String) : Bool :=
  match Text.splitAt '.' (withoutLineEnd id.toList) with
  | [space, name] => [space, name].all fun part => !part.isEmpty && part.all isIdChar
  | _ => false

/-- An id has a namespace and a name. -/
def canonicalId : Validator where
  name := "CanonicalPluginIdValidator"
  check p := if isCanonicalId p.id then [] else [.idFormat p.id]

/-! ## Requirements -/

/-- The entries of a release that are malformed. They are looked for only if fewer requirements can
be read than there are entries. -/
def malformedEntries (r : Release) : List String :=
  let entries := r.requirementEntries
  if r.requirements.length = entries.length then []
  else entries.filter fun entry => (Requirement.parse? entry).isNone

/-- One violation for each malformed entry, where `index` releases came before. -/
def malformedRequirements (index : Nat) : List Release → List Violation
  | [] => []
  | r :: rest =>
    ((malformedEntries r).map fun entry => .requirement index entry r.version) ++
      malformedRequirements (index + 1) rest

/-- Every requirement is well formed. -/
def requirementFormat : Validator where
  name := "RequiresFieldValidator"
  check p := malformedRequirements 0 p.releases

/-! ## Lists of rules -/

/-- The rules of the registry, as far as they are enforced. -/
def builtIn (versions ids requirements : Bool) : List Validator :=
  (if versions then [uniqueVersions] else []) ++ (if ids then [canonicalId] else []) ++
    (if requirements then [requirementFormat] else [])

/-- All rules of the registry. -/
def all : List Validator := builtIn true true true

/-- What the rules object to, one rule after the other. -/
def report (validators : List Validator) (p : Plugin) : Report :=
  ⟨p.id, validators.flatMap (·.check p)⟩

end Validator

end PluginRegistry
