import PluginRegistry.Document.Payload
import PluginRegistry.Json.Display
import PluginRegistry.Schema.Fault
import PluginRegistry.Storage.Path
import PluginRegistry.Validation.Violation

/-!
# Failures

Why an operation of the registry does not succeed. The errors that callers are meant to handle form
one family, `PluginError`; each has a message and details. Beside them an operation can meet a
document that is no record, a catalog that cannot be used, and faults of the artifact store.
-/

namespace PluginRegistry

/-- Why a file operation fails. -/
inductive FileCause where
  | noEntry
  | exists
  | notDirectory
  | isDirectory
  | nameTooLong
  deriving DecidableEq

/-- The number and the words of a cause. -/
def FileCause.message : FileCause → String
  | .noEntry => "[Errno 2] No such file or directory"
  | .exists => "[Errno 17] File exists"
  | .notDirectory => "[Errno 20] Not a directory"
  | .isDirectory => "[Errno 21] Is a directory"
  | .nameTooLong => "[Errno 36] File name too long"

/-- A cause and the path that it concerns. -/
structure FileFault where
  cause : FileCause
  path : String
  deriving DecidableEq

/-- The fault in words. -/
def FileFault.message (f : FileFault) : String := f.cause.message ++ ": " ++ Text.quoted f.path

/-- Why a request is refused. -/
inductive RequestCause where
  | blankService
  | publishedRelease (version : String)
  | pluginExists (plugin : String)
  | idMismatch (given own : String)
  | other (message : Json)

/-- The cause as a value, which is a text unless somebody else put it. -/
def RequestCause.message : RequestCause → Json
  | .blankService => .str "Service tag cannot be empty"
  | .publishedRelease version => .str ("Cannot update an existing release: " ++ version)
  | .pluginExists plugin => .str ("Plugin already exists: " ++ plugin)
  | .idMismatch given own => .str ("Plugin id mismatch: " ++ given ++ " != " ++ own)
  | .other message => message

/-- An operation of the artifact store. -/
inductive StorageOperation where
  | resolve
  | store
  | load
  | delete
  | other (name : Json)

/-- The name of an operation. -/
def StorageOperation.name : StorageOperation → Json
  | .resolve => .str "resolve"
  | .store => .str "store"
  | .load => .str "load"
  | .delete => .str "delete"
  | .other name => name

/-- Why an operation of the artifact store fails. -/
inductive StorageCause where
  | outsideRoot
  | notFound
  | storing (fault : FileFault)
  | deleting (fault : FileFault)
  | other (message : Json)

/-- The cause as a value, for the artifact under a key. -/
def StorageCause.message (key : Json) : StorageCause → Json
  | .outsideRoot => .str ("Artifact key escapes storage root: " ++ key.display)
  | .notFound => .str ("Artifact not found: " ++ key.display)
  | .storing fault => .str ("Failed to store artifact " ++ key.display ++ ": " ++ fault.message)
  | .deleting fault =>
    .str ("Failed to delete artifact " ++ key.display ++ ": " ++ fault.message)
  | .other message => message

/-- An error that callers of the registry are meant to handle. What it is about is kept as it was
given; null stands for what was not. -/
inductive PluginError where
  | general (message details : Json)
  | pluginNotFound (plugin wording : Json)
  | releaseNotFound (plugin version : Json)
  | invalidRequest (cause : RequestCause) (plugin version details : Json)
  | validation (report : Report)
  | storage (cause : StorageCause) (key : Json) (operation : StorageOperation)

namespace PluginError

/-- The kinds of an error, from its own to the one that all have. -/
def kinds : PluginError → List String
  | .general _ _ => ["PluginError"]
  | .pluginNotFound _ _ => ["PluginNotFoundError", "PluginError"]
  | .releaseNotFound _ _ => ["ReleaseNotFoundError", "PluginNotFoundError", "PluginError"]
  | .invalidRequest _ _ _ _ => ["InvalidRequestError", "PluginError"]
  | .validation _ => ["PluginValidationError", "PluginError"]
  | .storage _ _ _ => ["PluginStorageError", "PluginError"]

/-- The own kind of an error. -/
def kind (e : PluginError) : String := e.kinds.head?.getD "PluginError"

/-- What the error says, as a value. -/
def messageValue : PluginError → Json
  | .general message _ => message
  | .pluginNotFound plugin wording =>
    if wording.truthy then wording else .str ("Plugin not found: " ++ plugin.display)
  | .releaseNotFound plugin version =>
    .str ("Plugin " ++ plugin.display ++ " with release " ++ version.display ++
      " version not found")
  | .invalidRequest cause _ _ _ => cause.message
  | .validation report => .str ("Validation failed for plugin " ++ report.plugin)
  | .storage cause key _ => cause.message key

/-- The error in words. -/
def message (e : PluginError) : String := e.messageValue.display

/-- An object with one more member, unless it has no value. -/
def putGiven (key : String) (value object : Json) : Json :=
  match value, object with
  | .null, object => object
  | value, .obj members => .obj (putMember key value members)
  | _, object => object

/-- Details, of which none count as an empty object. -/
def someDetails (details : Json) : Json := if details.truthy then details else .obj []

/-- What the error is about, by name. -/
def details : PluginError → Json
  | .general _ details => someDetails details
  | .pluginNotFound plugin _ => .obj [("plugin_id", plugin)]
  | .releaseNotFound plugin version => .obj [("plugin_id", plugin), ("version", version)]
  | .invalidRequest _ plugin version details =>
    putGiven "version" version (putGiven "plugin_id" plugin (someDetails details))
  | .validation report =>
    .obj [("plugin_id", .str report.plugin),
      ("validation_errors", .arr (report.messages.map .str)),
      ("errors", .arr (report.violations.map Violation.toJson))]
  | .storage _ key operation => .obj [("key", key), ("operation", operation.name)]

/-- What the error carries besides message and details. -/
def attributes : PluginError → List (String × Json)
  | .general _ _ => []
  | .pluginNotFound plugin _ => [("plugin_id", plugin)]
  | .releaseNotFound plugin version => [("plugin_id", plugin), ("version", version)]
  | .invalidRequest _ plugin version _ => [("plugin_id", plugin), ("version", version)]
  | .validation report => [("validation_errors", .arr (report.messages.map .str))]
  | .storage _ key operation => [("key", key), ("operation", operation.name)]

/-- The error as a JSON object. -/
def toJson (e : PluginError) : Json :=
  .obj [("error_type", .str e.kind), ("message", e.messageValue), ("details", e.details)]

/-- The error of a plugin that is not there. -/
def noPlugin (plugin : String) : PluginError := .pluginNotFound (.str plugin) .null

/-- The error of a release that its plugin does not have. -/
def noRelease (plugin version : String) : PluginError :=
  .releaseNotFound (.str plugin) (.str version)

/-- The error of a request about a plugin. -/
def badRequest (cause : RequestCause) (plugin : String) : PluginError :=
  .invalidRequest cause (.str plugin) .null .null

/-- The error of an artifact under a key. -/
def artifact (cause : StorageCause) (key : String) (operation : StorageOperation) :
    PluginError :=
  .storage cause (.str key) operation

end PluginError

/-- A fault of the catalog of records. -/
inductive CatalogFault where
  | noTable
  | readOnly
  | repeatedId
  | noRow
  | noColumn (name : String)
  | noTime
  | noParameter (position : Nat) (kind : String)
  | largeNumber
  | noOctets (halves : Text.HalfRun)
  deriving DecidableEq

/-- The fault in words. -/
def CatalogFault.message : CatalogFault → String
  | .noTable => "(sqlite3.OperationalError) no such table: plugin_info"
  | .readOnly => "(sqlite3.OperationalError) attempt to write a readonly database"
  | .repeatedId => "(sqlite3.IntegrityError) UNIQUE constraint failed: plugin_info.id"
  | .noRow => "Class 'builtins.NoneType' is not mapped"
  | .noColumn name =>
    "None of the FROM clause entities have a property \"" ++ name ++
      "\". Searched entities: Mapper[PluginInfoRecord(plugin_info)]"
  | .noTime =>
    "(builtins.TypeError) SQLite DateTime type only accepts Python datetime and date objects " ++
      "as input."
  | .noParameter position kind =>
    s!"(sqlite3.ProgrammingError) Error binding parameter {position}: type '" ++ kind ++
      "' is not supported"
  | .largeNumber => "Python int too large to convert to SQLite INTEGER"
  | .noOctets halves => halves.message

/-- A fault of an artifact store that is none of its errors. -/
inductive StoreFault where
  | error (error : PluginError)
  | name (fault : NameFault)
  | file (fault : FileFault)
  | other (message : String)

/-- The fault in words. -/
def StoreFault.message : StoreFault → String
  | .error e => e.message
  | .name fault => fault.message
  | .file fault => fault.message
  | .other message => message

/-- Why an operation does not succeed. -/
inductive Failure where
  | error (error : PluginError)
  | rejected (rejection : Schema.Rejection)
  | catalog (fault : CatalogFault)
  | store (fault : StoreFault)
  | unwritable (fault : WriteFault)
  | nesting
  | other (message : String)

/-- The failure in words. -/
def Failure.message : Failure → String
  | .error e => e.message
  | .rejected rejection => rejection.message
  | .catalog fault => fault.message
  | .store fault => fault.message
  | .unwritable fault => fault.message
  | .nesting => "maximum recursion depth exceeded while calling a Python object"
  | .other message => message

end PluginRegistry
