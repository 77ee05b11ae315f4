import PluginRegistry.CommandLine.Options

/-!
# The command line of the registry

Options that hold for every command stand before its name, its own options and arguments behind it.
-/

namespace PluginRegistry.CommandLine

/-- What is to be done. A file or a version behind a plugin may lack its value, and so may the tag
of a service. -/
inductive Command where
  | list (service : Option (Option String))
  | show (plugin : String)
  | importPlugin (file : String)
  | addRelease (plugin : String) (file : Option String)
  | replaceRelease (plugin : String) (file : Option String)
  | delete (plugin : String)
  | deleteRelease (plugin : String) (version : Option String)
  | prefer (plugin : String) (version : Option String) (preferred : Bool)
  deriving DecidableEq, Repr

/-- A command with the options that hold for every command. -/
structure Request where
  user : Option String
  databaseUrl : Option String
  binaryStorage : Option String
  logLevel : Option String
  command : Command
  deriving DecidableEq, Repr

/-- The name of the program. -/
def program : String := "plugininfo"

/-- The options in front of a command. -/
def general : Grammar where
  program := program
  options := [⟨"--user", true⟩, ⟨"--database-url", true⟩, ⟨"--binary-storage", true⟩,
    ⟨"--log-level", true⟩]
  arguments := []

/-- The commands with their options and arguments. -/
def commands : List (String × List OptionSpec × List String) :=
  [("list", [⟨"--service", true⟩], []), ("show", [], ["plugin_id"]), ("import", [], ["file"]),
    ("add-release", [], ["plugin_id", "file"]), ("replace-release", [], ["plugin_id", "file"]),
    ("delete", [], ["plugin_id"]), ("delete-release", [], ["plugin_id", "version"]),
    ("prefer", [⟨"--unset", false⟩], ["plugin_id", "version"])]

/-- The words of a command. -/
def grammarOf? (name : String) : Option Grammar :=
  (commands.lookup name).map fun parts => ⟨program ++ " " ++ name, parts.1, parts.2⟩

/-- The command of that name with what was read of its words. The first argument always has a value:
either no mark stands before it, or that belongs to it. -/
def commandOf (name : String) (found : Found) : Command :=
  let plugin := (found.argument? "plugin_id").getD ""
  let file := found.argument? "file"
  let version := found.argument? "version"
  match name with
  | "show" => .show plugin
  | "import" => .importPlugin (file.getD "")
  | "add-release" => .addRelease plugin file
  | "replace-release" => .replaceRelease plugin file
  | "delete" => .delete plugin
  | "delete-release" => .deleteRelease plugin version
  | "prefer" => .prefer plugin version (found.option? "--unset").isNone
  | _ => .list (found.option? "--service")

/-- The options in front of a command, its name, and the words behind it. -/
def readGeneral : Nat → List Word → Found → Except Stop (Found × Option (String × List String))
  | 0, _, found => return (found, none)
  | _, [], found => return (found, none)
  | _, .argument name :: rest, found => return (found, some (name, rest.map Word.text))
  | _, .mark :: .argument _ :: _, found => return (found, some ("--", []))
  | fuel + 1, .mark :: rest, found =>
    readGeneral fuel rest { found with leftOver := found.leftOver ++ ["--"] }
  | fuel + 1, .option text spec value :: rest, found => do
    let (found, rest) ← general.takeOption text spec value rest found
    readGeneral fuel rest found

/-- Reads a command line. -/
def Request.read (words : List String) : Except Stop Request := do
  let classified ← general.classifyAll words
  let (found, rest) ← readGeneral (classified.length + 1) classified ⟨[], [], []⟩
  let some (name, rest) := rest | general.refuse (.required ["command"])
  let some grammar := grammarOf? name
    | general.refuse (.unknownCommand name (commands.map (·.1)))
  let inner ← grammar.read rest
  let leftOver := found.leftOver ++ inner.leftOver
  if !leftOver.isEmpty then general.refuse (.leftOver leftOver)
  return {
    user := (found.option? "--user").join
    databaseUrl := (found.option? "--database-url").join
    binaryStorage := (found.option? "--binary-storage").join
    logLevel := (found.option? "--log-level").join
    command := commandOf name inner }

end PluginRegistry.CommandLine
