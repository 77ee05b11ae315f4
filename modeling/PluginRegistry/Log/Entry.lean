/-!
# Entries of the log

An entry has a topic and a message. The topic tells how urgent the entry is, and which part of the
program made it. Entries from the level of information up are kept.
-/

namespace PluginRegistry.Log

/-- How urgent an entry is. -/
inductive Level where
  | debug
  | info
  | warning
  | error
  | critical
  deriving DecidableEq, Repr

/-- The name of a level. -/
def Level.name : Level → String
  | .debug => "DEBUG"
  | .info => "INFO"
  | .warning => "WARNING"
  | .error => "ERROR"
  | .critical => "CRITICAL"

/-- The number by which levels are compared. -/
def Level.rank : Level → Nat
  | .debug => 10
  | .info => 20
  | .warning => 30
  | .error => 40
  | .critical => 50

/-- A part of the program that makes entries. -/
inductive Source where
  | database
  | query
  | artifacts
  | service
  | commandLine
  deriving DecidableEq, Repr

namespace Source

/-- The name of a source. -/
def name : Source → String
  | .database => "plugininfo.database"
  | .query => "plugininfo.repositories.base_repository.PluginInfoRecord"
  | .artifacts => "plugininfo.services.plugins.binary_storage"
  | .service => "plugininfo.services.plugin_info_service"
  | .commandLine => "plugininfo.cli_interface"

/-- The last part of the name that a source is filed under. -/
def module : Source → String
  | .database => "database"
  | .query => "base_repository"
  | .artifacts => "binary_storage"
  | .service => "plugin_info_service"
  | .commandLine => "cli_interface"

end Source

/-- What an entry is about. -/
inductive Topic where
  | schemaReady
  | getFailed
  | findFailed
  | addFailed
  | removeFailed
  | slowQuery
  | query
  | artifactStored
  | artifactDeleted
  | pluginCreated
  | pluginMerged
  | pluginDeleted
  | releaseCreated
  | releaseReplaced
  | releaseDeleted
  | preferenceChanged
  | validationFailed
  | artifactLeft
  | commandFailed
  deriving DecidableEq, Repr

namespace Topic

/-- Where entries of a topic come from: the source, the operation, and the number by which an entry
tells the place in it. -/
def origin : Topic → Source × String × Nat
  | .schemaReady => (.database, "init_db", 67)
  | .getFailed => (.query, "get", 79)
  | .findFailed => (.query, "find_many", 112)
  | .addFailed => (.query, "add", 128)
  | .removeFailed => (.query, "remove", 142)
  | .slowQuery => (.query, "_log_query_performance", 167)
  | .query => (.query, "_log_query_performance", 169)
  | .artifactStored => (.artifacts, "store", 74)
  | .artifactDeleted => (.artifacts, "delete", 98)
  | .pluginCreated => (.service, "upsert", 138)
  | .pluginMerged => (.service, "upsert", 153)
  | .pluginDeleted => (.service, "delete", 176)
  | .releaseCreated => (.service, "create_release", 207)
  | .releaseReplaced => (.service, "upsert_release", 234)
  | .releaseDeleted => (.service, "delete_release", 250)
  | .preferenceChanged => (.service, "prefer_release_version", 290)
  | .validationFailed => (.service, "validate", 315)
  | .artifactLeft => (.service, "_delete_release_binary", 363)
  | .commandFailed => (.commandLine, "main", 187)

/-- The source of entries of a topic. -/
def source (t : Topic) : Source := t.origin.1

/-- How urgent entries of a topic are. -/
def level : Topic → Level
  | .getFailed | .findFailed | .addFailed | .removeFailed | .commandFailed => .error
  | .slowQuery | .validationFailed | .artifactLeft => .warning
  | .query => .debug
  | _ => .info

end Topic

/-- A message with its topic. -/
structure Entry where
  topic : Topic
  message : String
  deriving DecidableEq, Repr

namespace Entry

/-- How urgent the entry is. -/
def level (e : Entry) : Level := e.topic.level

/-- The part of the program that made the entry. -/
def source (e : Entry) : Source := e.topic.source

/-- The message with its level before it. -/
def line (e : Entry) : String := e.level.name ++ " " ++ e.message

end Entry

end PluginRegistry.Log
