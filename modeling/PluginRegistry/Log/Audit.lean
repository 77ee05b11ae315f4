import PluginRegistry.Log.Sanitize

/-!
# Audit entries

Every change of a record is noted as one line of fields `name=value`: what was done, by whom, to
which plugin, to which version if it was one of its releases, and whether it succeeded.
-/

namespace PluginRegistry.Log

/-- What an audit entry tells. Null stands for what is not known. -/
structure Audit where
  action : Json
  user : Json
  plugin : Json
  version : Json
  success : Json

/-- The version, unless there is none. -/
def Audit.versionField (a : Audit) : List (String × String) :=
  match a.version with
  | .null => []
  | version => [("version", sanitize versionLimit version)]

/-- The fields with their values made safe. -/
def Audit.fields (a : Audit) : List (String × String) :=
  [("action", sanitize usualLimit a.action),
    ("user", sanitizeOr "[no_user]" usualLimit a.user),
    ("plugin", sanitizeOr "[no_id]" usualLimit a.plugin)] ++ a.versionField ++
  [("success", a.success.display)]

/-- The entry as one line. -/
def Audit.line (a : Audit) : String :=
  "AUDIT: " ++ " ".intercalate (a.fields.map fun field => field.1 ++ "=" ++ field.2)

end PluginRegistry.Log
