import PluginRegistry.Schema.Field
import PluginRegistry.Text.Blank
import PluginRegistry.Text.Case
import PluginRegistry.Validation.Rules

/-!
# Settings

What can be chosen about the registry: where records and artifacts are kept, which rules are
enforced, who acts when nobody is known, and how the log is written. A setting that is not given has
its usual value, and whatever is given beside the declared settings is kept.
-/

namespace PluginRegistry

/-- The settings of the registry. -/
structure Settings where
  appName : String
  appVersion : String
  debug : Bool
  databaseUrl : String
  databaseEcho : Bool
  binaryStoragePath : Option String
  anonymousUser : String
  enforceCanonicalIds : Bool
  enforceRequiresFormat : Bool
  enforceUniqueVersions : Bool
  logLevel : String
  logFormat : String
  extras : Extras

namespace Settings

/-- The levels of the log that may be set. -/
def logLevels : List String := ["CRITICAL", "ERROR", "WARNING", "INFO", "DEBUG"]

/-- The part is somewhere in the text. -/
def occursIn (part : List Char) : List Char → Bool
  | [] => part.isEmpty
  | c :: rest => part.isPrefixOf (c :: rest) || occursIn part rest

/-- A level of the log, in any case. -/
def readLogLevel (value : Document) : Schema.Checked String :=
  (Schema.text value).andThen fun text =>
    let level := Text.upper text
    if logLevels.contains level then .ok level
    else .fail (.refused ("Unknown log level: " ++ text))

/-- The address of a database: a scheme, and the rest behind a colon and two slashes. -/
def readDatabaseUrl (value : Document) : Schema.Checked String :=
  (Schema.text value).andThen fun text =>
    if occursIn "://".toList text.toList then .ok text
    else
      .fail (.refused "Database URL must be a SQLAlchemy URL (e.g. sqlite:///plugins.db)")

/-- A name that is not blank, without the blanks around it. -/
def readAnonymousUser (value : Document) : Schema.Checked String :=
  (Schema.text value).andThen fun text =>
    if Text.trimmed text = "" then .fail (.refused "Anonymous user name cannot be blank")
    else .ok (Text.trimmed text)

/-- A setting of that name. -/
def field (name : String) : Schema.Field := ⟨name, name⟩

/-- The declared settings, in order. -/
def names : List String :=
  ["app_name", "app_version", "debug", "database_url", "database_echo", "binary_storage_path",
    "anonymous_user", "enforce_canonical_ids", "enforce_requires_format",
    "enforce_unique_versions", "log_level", "log_format"]

/-- Reads the settings that are given. -/
def ofEntries (entries : Schema.Entries) : Schema.Checked Settings :=
  let text := fun name usual => Schema.optional entries (field name) usual Schema.text
  let flag := fun name usual => Schema.optional entries (field name) usual Schema.flag
  Settings.mk
    <$> text "app_name" "plugininfo"
    <*> text "app_version" "0.1.0"
    <*> flag "debug" false
    <*> Schema.optional entries (field "database_url") "sqlite:///./plugininfo.db"
      readDatabaseUrl
    <*> flag "database_echo" false
    <*> Schema.optional entries (field "binary_storage_path") none
      (Schema.nullable Schema.text)
    <*> Schema.optional entries (field "anonymous_user") "anonymous" readAnonymousUser
    <*> flag "enforce_canonical_ids" true
    <*> flag "enforce_requires_format" true
    <*> flag "enforce_unique_versions" true
    <*> Schema.optional entries (field "log_level") "INFO" readLogLevel
    <*> text "log_format" "%(asctime)s - %(name)s - %(levelname)s - %(message)s"
    <*> Schema.extras (names.map field) entries

/-- The declared settings with their values, in order. -/
def members (s : Settings) : List (String × Json) :=
  [("app_name", .str s.appName), ("app_version", .str s.appVersion), ("debug", .bool s.debug),
    ("database_url", .str s.databaseUrl), ("database_echo", .bool s.databaseEcho),
    ("binary_storage_path", .ofText? s.binaryStoragePath),
    ("anonymous_user", .str s.anonymousUser),
    ("enforce_canonical_ids", .bool s.enforceCanonicalIds),
    ("enforce_requires_format", .bool s.enforceRequiresFormat),
    ("enforce_unique_versions", .bool s.enforceUniqueVersions), ("log_level", .str s.logLevel),
    ("log_format", .str s.logFormat)]

/-- All settings by name. -/
def toJson (s : Settings) : Json := .obj (s.members ++ s.extras.payload)

/-- The rules that are enforced. -/
def validators (s : Settings) : List Validator :=
  Validator.builtIn s.enforceUniqueVersions s.enforceCanonicalIds s.enforceRequiresFormat

end Settings

end PluginRegistry
