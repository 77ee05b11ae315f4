import PluginRegistry.Json.Basic

/-!
# Violations

What a validator objects to. A violation concerns the record as a whole or names the field that is
at fault, and then may show the value it rejects.
-/

namespace PluginRegistry

/-- An objection to a record. -/
inductive Violation where
  | emptyVersion (index : Nat)
  | repeatedVersion (version : String) (count : Nat)
  | idFormat (id : String)
  | requirement (index : Nat) (entry version : String)
  | custom (code message : String) (field : Option String) (value : Json)

namespace Violation

/-- The code of a violation. -/
def code : Violation → String
  | .emptyVersion _ => "pluginInfo.releases.emptyVersion"
  | .repeatedVersion _ _ => "pluginInfo.releases.duplicateVersion"
  | .idFormat _ => "pluginInfo.id.invalidFormat"
  | .requirement _ _ _ => "pluginInfo.releases.invalidRequires"
  | .custom code _ _ _ => code

/-- The violation in words. -/
def message : Violation → String
  | .emptyVersion _ => "Release version cannot be empty"
  | .repeatedVersion version count => s!"Release version {version} appears {count} times"
  | .idFormat id =>
    "Plugin IDs must follow a '\x7bnamespace\x7d.\x7bname\x7d' format using letters, digits, " ++
      "'-' and '_' (got '" ++ id ++ "')"
  | .requirement _ entry version =>
    "Invalid requires entry '" ++ entry ++ "' on release " ++ version ++
      ": expected '\x7bservice\x7d\x7boperator\x7d\x7bmajor\x7d.\x7bminor\x7d.\x7bpatch\x7d' " ++
      "with operator one of >=, <=, >, <, ="
  | .custom _ message _ _ => message

/-- The field at fault, if the violation names one. -/
def field : Violation → Option String
  | .emptyVersion index => some s!"releases[{index}].version"
  | .repeatedVersion _ _ => some "releases"
  | .idFormat _ => some "id"
  | .requirement index _ _ => some s!"releases[{index}].requires"
  | .custom _ _ field _ => field

/-- The value that is rejected, or null. -/
def rejectedValue : Violation → Json
  | .emptyVersion _ => .null
  | .repeatedVersion version _ => .str version
  | .idFormat id => .str id
  | .requirement _ entry _ => .str entry
  | .custom _ _ _ value => value

/-- The violation as a JSON object. -/
def toJson (v : Violation) : Json :=
  .obj [("code", .str v.code), ("message", .str v.message), ("field", .ofText? v.field),
    ("rejected_value", v.rejectedValue)]

end Violation

/-- All that the validators object to in the record of a plugin. -/
structure Report where
  plugin : String
  violations : List Violation

namespace Report

/-- The violations in words. -/
def messages (r : Report) : List String := r.violations.map Violation.message

/-- The violations that name a field. -/
def ofFields (r : Report) : List Violation := r.violations.filter fun v => v.field.isSome

/-- The violations that name that field. -/
def ofField (field : String) (r : Report) : List Violation :=
  r.violations.filter fun v => v.field = some field

/-- The violations that concern the record as a whole. -/
def ofRecord (r : Report) : List Violation := r.violations.filter fun v => v.field.isNone

end Report

end PluginRegistry
