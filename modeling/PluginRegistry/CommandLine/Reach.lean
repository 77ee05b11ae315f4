import PluginRegistry.CommandLine.Run

/-!
# What a run reaches

The variables and files that a run may ask for, found from its command line and its settings. A run
that sees these sees all that it needs, and changes nothing else.
-/

namespace PluginRegistry.CommandLine

/-- The variables of the environment that count: those of the declared settings, and those that the
file of variables refers to. -/
def Workplace.variableNames (w : Workplace) : List String :=
  Settings.names.map (fun name => Text.upper (SettingSources.usualLead ++ name)) ++
    Dotenv.references (w.dotenv.toOption.getD "").toList

/-- The file that a command reads. -/
def Command.document? : Command → Option String
  | .importPlugin file => some file
  | .addRelease _ file | .replaceRelease _ file => file
  | .list _ | .show _ | .delete _ | .deleteRelease _ _ | .prefer _ _ _ => none

/-- The path of a database in a file. -/
def Workplace.database? (w : Workplace) (settings : Settings) : Option Path :=
  match DatabasePlace.ofAddress settings.databaseUrl with
  | .ok (.file text _) => some (w.directory.resolve text)
  | _ => none

/-- The directory of the artifacts. -/
def Workplace.artifacts? (w : Workplace) (settings : Settings) : Option Path :=
  (settings.binaryStoragePath.filter (· ≠ "")).map w.directory.resolve

/-- The paths that a run may touch: the document, the database, and the directory of the artifacts
with all below it. -/
def Workplace.reach (w : Workplace) (environment : List (String × String)) (words : List String) :
    List Path :=
  match Request.read words with
  | .error _ => []
  | .ok request =>
    let document := request.command.document?.map w.directory.resolve
    match request.settings environment (w.dotenv.toOption.getD "") with
    | (.error _, _) => document.toList
    | (.ok settings, _) =>
      document.toList ++ (w.database? settings).toList ++ (w.artifacts? settings).toList

end PluginRegistry.CommandLine
