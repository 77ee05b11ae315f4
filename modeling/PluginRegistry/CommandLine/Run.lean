import PluginRegistry.Catalog.Archive
import PluginRegistry.CommandLine.Arguments
import PluginRegistry.Document.File
import PluginRegistry.Json.Printer
import PluginRegistry.Log.Setup
import PluginRegistry.Service.Basic
import PluginRegistry.Settings.DatabaseUrl
import PluginRegistry.Settings.Sources

/-!
# Running a command

A run reads the command line and the settings, opens the database, and performs one operation of the
registry. Its result goes to the output as JSON. An error of the registry goes to the error output
as JSON, any other failure to the log; in both cases the run ends with status 1, and with status 2
if the command line makes no sense. Where reading breaks off rather than finding fault, so does the
run.
-/

namespace PluginRegistry.CommandLine

/-- What a run works on: the directory it is in, and the files. -/
structure Workplace where
  directory : Path
  tree : FileTree

/-- Why a run does not get to its operation, or fails in it without being refused. -/
inductive RunFault where
  | settings (rejection : Schema.Rejection)
  | encoding (fault : Text.Utf8Fault)
  | logging (fault : Log.SetupFault)
  | database (fault : DatabaseFault)
  | store (fault : StoreFault)
  | noFile
  | document (fault : DocumentFault)
  | failure (cause : Failure)

/-- The fault in words. -/
def RunFault.message : RunFault → String
  | .settings rejection => rejection.message
  | .encoding fault => fault.message
  | .logging fault => fault.message
  | .database fault => fault.message
  | .store fault => fault.message
  | .noFile => "'list' object has no attribute 'read_text'"
  | .document fault => fault.message
  | .failure cause => cause.message

/-- The run breaks off with the fault, and does not answer for it. -/
def RunFault.isBreak : RunFault → Bool
  | .noFile => true
  | .document fault => fault.isBreak
  | .database fault => fault.isBreak
  | .failure .nesting => true
  | _ => false

/-- How a run ends: with a status, or by breaking off. -/
inductive Ending where
  | status (code : Nat)
  | broken (fault : RunFault)

/-- The status that the system sees. -/
def Ending.code : Ending → Nat
  | .status code => code
  | .broken _ => 1

/-- How a run ends, and what it leaves on the terminal. -/
structure Outcome where
  ending : Ending
  output : String
  errors : String

/-! ## Settings -/

/-- The text of the file of variables in the directory, if there is one. -/
def Workplace.dotenv (w : Workplace) : Except Text.Utf8Fault String :=
  match w.tree.status (w.directory ++ [".env"]) with
  | .ok (.file content) => decodeFile content
  | _ => .ok ""

/-- The sources of settings where a run is made. -/
def sources (environment : List (String × String)) (dotenv : String)
    (arguments : List (String × Json)) : SettingSources :=
  ⟨arguments, environment, Dotenv.bindings environment dotenv⟩

/-- The settings that a command line overrides; an empty value overrides nothing. -/
def Request.overrides (r : Request) : List (String × Json) :=
  [("database_url", r.databaseUrl), ("binary_storage_path", r.binaryStorage),
    ("log_level", r.logLevel.map Text.upper)].filterMap fun entry =>
      (entry.2.filter (· ≠ "")).map fun value => (entry.1, .str value)

/-- The arguments that settings are made from again: all that they tell, and what overrides it. -/
def Request.arguments (r : Request) (base : Settings) : List (String × Json) :=
  r.overrides.foldl (fun all entry => putMember entry.1 entry.2 all)
    (base.members ++ base.extras.payload)

/-- The settings of a run, and how often the file of variables was read. -/
def Request.settings (r : Request) (environment : List (String × String)) (dotenv : String) :
    Except Schema.Rejection Settings × Nat :=
  match Settings.ofSources (sources environment dotenv []) with
  | .error rejection => (.error rejection, 1)
  | .ok base =>
    if r.overrides.isEmpty then (.ok base, 1)
    else
      let again := sources environment dotenv (r.arguments base)
      (Settings.ofSources again, if again.readsFile then 2 else 1)

/-! ## The database -/

/-- The most octets in the path of a database and in the name at its end, with the ending of the
journal that stands beside it. -/
def journalPathLimit : Nat := 512

/-- The ending of a journal. -/
def journalEnding : String := "-journal"

/-- The path of a file for a database, if neither it nor its name is too long. -/
def Workplace.locate? (w : Workplace) (text : String) : Option Path :=
  let path := w.directory.resolve text
  let size := fun (text : String) => Text.octetLength (text ++ journalEnding)
  if size path.text ≤ journalPathLimit ∧ size (path.getLast?.getD "") ≤ FileTree.nameLimit then
    some path
  else none

/-- A database that was opened: its table, where to put that back, unless it is to be read only, and
whether it must not be written. -/
structure Database where
  table : Table
  path : Option Path
  readOnly : Bool

/-- Opens the database at a place. A file without a table cannot be opened to be read only. -/
def Workplace.openDatabase (w : Workplace) (place : DatabasePlace) :
    Except DatabaseFault Database :=
  match place with
  | .memory => .ok ⟨.empty, none, false⟩
  | .file text access =>
    match w.locate? text with
    | none => .error .unreachable
    | some path =>
      match w.tree.reachParent path, w.tree.node? path with
      | .error _, _ | _, some .directory => .error .unreachable
      | .ok (), none =>
        if access = .create then .ok ⟨.empty, some path, false⟩ else .error .unreachable
      | .ok (), some (.file content) =>
        match Table.ofOctets? content with
        | some table =>
          if access ≠ .readOnly then .ok ⟨table, some path, false⟩
          else if content.isEmpty then .error .readOnly
          else .ok ⟨table, none, true⟩
        | none => .error .foreign

/-- The workplace with a table in the file for it. -/
def Workplace.keep (w : Workplace) (path : Option Path) (table : Table) : Workplace :=
  match path with
  | none => w
  | some path => { w with tree := w.tree.put path (.file table.octets) }

/-- The workplace with a table put back in its file, if that is still there. -/
def Workplace.refresh (w : Workplace) (path : Option Path) (table : Table) : Workplace :=
  match path.bind w.tree.node? with
  | some (.file _) => w.keep path table
  | _ => w

/-! ## Operations -/

/-- The record that `read` makes of the document in a file. -/
def fromFile {α : Type} (w : Workplace) (file : Option String)
    (read : Document → Except Schema.Rejection α) : Except RunFault α := do
  let some file := file | throw .noFile
  let document ← (Document.load (.ofText file) w.directory w.tree).mapError .document
  (read document).mapError fun rejection => .failure (.rejected rejection)

/-- A printed result. -/
def shown (value : Json) : String := value.indented ++ "\n"

/-- A run of an operation: its printed result, unless it fails. -/
abbrev Operation := Action FileTree String

/-- Prints what can be written. -/
def print (value : Except WriteFault Json) : Operation :=
  shown <$> Action.ofExcept .unwritable value

/-- The operation of a command. -/
def operation (w : Workplace) (registry : Registry FileTree) (now : CivilTime) (command : Command) :
    Except RunFault Operation := do
  let showPlugin := fun (action : Action FileTree Plugin) => (do print (← action).write : Operation)
  let showPlugins := fun (action : Action FileTree (List Plugin)) =>
    (do print (.arr <$> (← action).mapM Plugin.write) : Operation)
  let showRelease := fun (action : Action FileTree Release) =>
    (do print (← action).write : Operation)
  match command with
  | .list none => return showPlugins registry.findAll
  | .list (some service) => return showPlugins (registry.findByService service)
  | .show id => return showPlugin (registry.find id)
  | .importPlugin file => return showPlugin (registry.upsert now (← fromFile w file Plugin.read))
  | .addRelease id file =>
    return showPlugin (registry.createRelease now id (← fromFile w file Release.read) none)
  | .replaceRelease id file =>
    return showPlugin (registry.upsertRelease now id (← fromFile w file Release.read) none)
  | .delete id =>
    return do
      registry.delete now id none
      return (Json.obj [("deleted", .str id)]).compact ++ "\n"
  | .deleteRelease id (some version) =>
    return showPlugin (registry.deleteRelease now id version none)
  | .deleteRelease id none => return showPlugin (registry.deleteNoRelease now id (.arr []) none)
  | .prefer id (some version) preferred =>
    return showRelease (registry.preferRelease now id version (.bool preferred) none)
  | .prefer id none _ => return showRelease (registry.preferNoRelease id (.arr []))

/-- How long a query is taken to last: less than counts as slow. -/
def timing : Timing := ⟨.ofDecimal false 0 0, .ofDecimal false 1 0⟩

/-- Makes the directory of the artifacts, if there is one. -/
def makeArtifacts (w : Workplace) (settings : Settings) (world : World FileTree) :
    Except RunFault (Option Path) × World FileTree :=
  match settings.binaryStoragePath.filter (· ≠ "") with
  | none => (.ok none, world)
  | some text =>
    let (artifacts, made) := Artifacts.makeRoot w.directory text world.artifacts
    ((made.map some).mapError .store, { world with artifacts })

/-- Makes the registry and performs the operation of a command on a state. -/
def perform (w : Workplace) (settings : Settings) (user : Option String) (now : CivilTime)
    (command : Command) (world : World FileTree) :
    Except RunFault String × World FileTree :=
  match makeArtifacts w settings world with
  | (.error fault, world) => (.error fault, world)
  | (.ok root?, world) =>
    let registry : Registry FileTree :=
      ⟨root?.map Artifacts.inDirectory, settings.validators, some (Identity.bound user),
        settings.anonymousUser, timing⟩
    match operation { w with tree := world.artifacts } registry now command with
    | .error fault => (.error fault, world)
    | .ok action =>
      let (result, world) := action.start world
      (result.mapError .failure, world)

/-! ## Runs -/

/-- The line in which a run says why it failed. -/
def failedLine (fault : RunFault) : String := "Command failed: " ++ fault.message

/-- The entries that the log is to show, one to a line. -/
def logText (setup : Log.Setup) (now : CivilTime) (entries : List Log.Entry) : String :=
  let lines := (entries.filter fun e => setup.threshold.admits e.level).filterMap (setup.line? now)
  String.join (lines.map (· ++ "\n"))

/-- A run that fails before the log is set up. -/
def failEarly (complaints : List String) (fault : RunFault) : Outcome :=
  ⟨.status 1, "", String.join ((complaints ++ [failedLine fault]).map (· ++ "\n"))⟩

/-- A run that fails once the log is set up, with what it has left on the terminal by then. -/
def fail (setup : Log.Setup) (now : CivilTime) (before : String) (fault : RunFault) : Outcome :=
  if fault.isBreak then ⟨.broken fault, "", before⟩
  else ⟨.status 1, "", before ++ logText setup now [⟨.commandFailed, failedLine fault⟩]⟩

/-- A run with the settings in hand. -/
def runWith (settings : Settings) (request : Request) (now : CivilTime) (before : String)
    (w : Workplace) : Outcome × Workplace :=
  match Log.Setup.ofNames settings.logLevel settings.logFormat with
  | .error fault =>
    (⟨.status 1, "", before ++ failedLine (.logging fault) ++ "\n"⟩, w)
  | .ok setup =>
    match (DatabasePlace.ofAddress settings.databaseUrl).bind w.openDatabase with
    | .error fault => (fail setup now before (.database fault), w)
    | .ok database =>
      let opened := w.keep database.path database.table
      let start : World FileTree := ⟨some database.table, database.readOnly, opened.tree, 0, []⟩
      let (_, ready) := (Catalog.create : Action FileTree Unit).start start
      let (result, world) := perform opened settings request.user now request.command ready
      let after :=
        { w with tree := world.artifacts }.refresh database.path (world.table.getD .empty)
      let before := before ++ logText setup now world.log
      match result with
      | .ok output => (⟨.status 0, output, before⟩, after)
      | .error (.failure (.error e)) | .error (.failure (.store (.error e))) =>
        (⟨.status 1, "", before ++ shown e.toJson⟩, after)
      | .error fault => (fail setup now before fault, after)

/-- One run of the program. Help that was asked for is left out of what it prints, and so are the
lines on usage above a complaint about the words. -/
def run (environment : List (String × String)) (now : CivilTime) (words : List String)
    (w : Workplace) : Outcome × Workplace :=
  match Request.read words with
  | .error .help => (⟨.status 0, "", ""⟩, w)
  | .error (.fault fault) => (⟨.status 2, "", fault.message ++ "\n"⟩, w)
  | .ok request =>
    match w.dotenv with
    | .error fault => (failEarly [] (.encoding fault), w)
    | .ok dotenv =>
      let (settings, count) := request.settings environment dotenv
      let complaints := (List.replicate count (Dotenv.complaints dotenv)).flatten
      match settings with
      | .error rejection => (failEarly complaints (.settings rejection), w)
      | .ok settings =>
        runWith settings request now (String.join (complaints.map (· ++ "\n"))) w

end PluginRegistry.CommandLine
