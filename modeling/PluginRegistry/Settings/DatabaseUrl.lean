import PluginRegistry.Json.Basic
import PluginRegistry.Numeral.Spelled
import PluginRegistry.Text.Case
import PluginRegistry.Text.Percent
import PluginRegistry.Text.Split
import PluginRegistry.Text.Word

/-!
# Addresses of databases

An address names the kind of database before a colon and two slashes, and after them where it is: a
user with a password, a host with a port, a path, and options. The kind that is at hand knows
neither users nor hosts. It keeps a database in memory or in a file: `sqlite://` and
`sqlite:///:memory:` are databases in memory, and `sqlite:///` with a path is a file. With the
option `uri` a path may be a `file:` name with options of its own.
-/

namespace PluginRegistry

/-- Whether a file may be made, and whether it may be written. -/
inductive FileAccess where
  | create
  | existing
  | readOnly
  deriving DecidableEq

/-- Where the records are kept. -/
inductive DatabasePlace where
  | memory
  | file (path : String) (access : FileAccess)
  deriving DecidableEq

/-- Why a database cannot be opened. -/
inductive DatabaseFault where
  | address
  | server (text : String)
  | portNumber (text : String)
  | noPort
  | kind (name : String)
  | kindParts
  | library (name : String)
  | extension (name : String)
  | flag (word : String)
  | whole (text : String)
  | decimal (text : String)
  | repeated (type : String)
  | large
  | noPath (withOptions : Bool)
  | nullCharacter
  | authority (name : String)
  | fileMode (name : String)
  | cacheMode (name : String)
  | fileSystem (name : String)
  | unreachable
  | readOnly
  | foreign
  deriving DecidableEq

/-- The first line of what is said about the fault. -/
def DatabaseFault.message : DatabaseFault → String
  | .address => "Could not parse SQLAlchemy URL from given URL string"
  | .server text => "Invalid SQLite URL: " ++ text
  | .portNumber text | .whole text =>
    "invalid literal for int() with base 10: " ++ Text.quoted text
  | .noPort => "Port argument must be an integer or None"
  | .kind name => "Can't load plugin: sqlalchemy.dialects:" ++ name
  | .kindParts => "too many values to unpack (expected 2)"
  | .library name => "No module named " ++ Text.quoted name
  | .extension name => "Can't load plugin: sqlalchemy.plugins:" ++ name
  | .flag word => "String is not true/false: " ++ Text.quoted word
  | .decimal text => "could not convert string to float: " ++ Text.quoted text
  | .repeated "int" =>
    "int() argument must be a string, a bytes-like object or a real number, not 'tuple'"
  | .repeated type => type ++ "() argument must be a string or a real number, not 'tuple'"
  | .large => "Python int too large to convert to C int"
  | .noPath true => "unsupported operand type(s) for +=: 'NoneType' and 'str'"
  | .noPath false => "expected str, bytes or os.PathLike object, not NoneType"
  | .nullCharacter => "embedded null byte"
  | .authority name => "(sqlite3.OperationalError) invalid uri authority: " ++ name
  | .fileMode name => "(sqlite3.OperationalError) no such access mode: " ++ name
  | .cacheMode name => "(sqlite3.OperationalError) no such cache mode: " ++ name
  | .fileSystem name => "(sqlite3.OperationalError) no such vfs: " ++ name
  | .unreachable => "(sqlite3.OperationalError) unable to open database file"
  | .readOnly => "(sqlite3.OperationalError) attempt to write a readonly database"
  | .foreign => "(sqlite3.DatabaseError) file is not a database"

/-- The fault is no complaint about the address, but reading broke off: over a value of the wrong
kind or size, or for want of a library. -/
def DatabaseFault.isBreak : DatabaseFault → Bool
  | .noPort | .repeated _ | .large | .noPath _ | .library _ => true
  | _ => false

/-- The parts of an address. -/
structure DatabaseUrl where
  kind : String
  user : Option String
  password : Option String
  host : Option String
  port : Option Int
  database : Option String
  options : List (String × List String)

namespace DatabaseUrl

/-! ## Reading -/

/-- A character of the name of a kind. -/
def isKindChar (c : Char) : Bool := Text.isWord c || c = '+'

/-- The last `mark` of a text divides it, if there is one. -/
def splitLast? (mark : Char) (cs : List Char) : Option (List Char × List Char) :=
  let after := (cs.reverse.takeWhile (· ≠ mark)).reverse
  if after.length < cs.length then
    some (cs.take (cs.length - after.length - 1), after)
  else none

/-- The user and the password at the start of a text, in front of an at sign, and the text after it.
A password reaches to the first at sign, a user without one to the last. -/
def credentials (cs : List Char) : Option (List Char × Option (List Char)) × List Char :=
  let run := cs.takeWhile fun c => !(c = ':' || c = '/')
  let after := cs.drop run.length
  let password := (after.drop 1).takeWhile (· ≠ '@')
  if after.head? = some ':' ∧ password.length + 1 < after.length then
    (some (run, some password), after.drop (password.length + 2))
  else
    match splitLast? '@' run with
    | some (user, rest) => (some (user, none), rest ++ after)
    | none => (none, cs)

/-- The host at the start of a text, which may stand between brackets, and the text after it. -/
def hostPart (cs : List Char) : List Char × List Char :=
  let bracketed :=
    if cs.head? = some '[' then
      splitLast? ']' ((cs.drop 1).takeWhile fun c => !(c = '/' || c = '?'))
    else none
  match bracketed with
  | some (c :: name, _) => (c :: name, cs.drop (name.length + 3))
  | _ =>
    let name := cs.takeWhile fun c => !(c = '/' || c = ':' || c = '?')
    (name, cs.drop name.length)

/-- Names and values of a query; a name without a value is none. -/
def readOptions (cs : List Char) : List (String × List String) :=
  (Text.splitAt '&' cs).foldl (fun all part =>
    let name := part.takeWhile (· ≠ '=')
    let value := part.drop (name.length + 1)
    if value.isEmpty then all
    else
      let name := String.ofList (Text.queryDecode name)
      let value := String.ofList (Text.queryDecode value)
      putMember name ((all.lookup name).getD [] ++ [value]) all) []

/-- A text, or nothing for one that is empty. -/
def filled (cs : List Char) : Option String :=
  if cs.isEmpty then none else some (String.ofList cs)

/-- The number of a port. -/
def readPort (cs : List Char) : Except DatabaseFault Int :=
  if cs.isEmpty then .error .noPort
  else
    match Spelled.integer? cs with
    | some n => .ok n
    | none => .error (.portNumber (String.ofList cs))

/-- The parts of an address after its kind. -/
def readParts (kind : String) (cs : List Char) : Except DatabaseFault DatabaseUrl := do
  let (person, rest) := credentials cs
  let decoded := fun (cs : List Char) => String.ofList (Text.percentDecode cs)
  let (name, rest) := hostPart rest
  let digits := (rest.drop 1).takeWhile fun c => !(c = '/' || c = '?')
  let (port, rest) ←
    if rest.head? = some ':' then do
      pure (some (← readPort digits), rest.drop (digits.length + 1))
    else pure (none, rest)
  let path := (rest.drop 1).takeWhile (· ≠ '?')
  let (database, rest) :=
    if rest.head? = some '/' then (some (decoded path), rest.drop (path.length + 1))
    else (none, rest)
  let options :=
    if rest.head? = some '?' then readOptions ((rest.drop 1).takeWhile (· ≠ '\n')) else []
  return {
    kind
    user := person.map (decoded ·.1)
    password := person.bind fun p => p.2.map decoded
    host := filled name
    port, database, options }

/-- The parts of an address. -/
def read (address : String) : Except DatabaseFault DatabaseUrl :=
  let cs := address.toList
  let kind := cs.takeWhile isKindChar
  match kind, cs.drop kind.length with
  | _ :: _, ':' :: '/' :: '/' :: rest => readParts (String.ofList kind) rest
  | _, _ => .error .address

/-! ## Writing -/

/-- The options as a query, in the order of their names. -/
def queryText (options : List (String × List String)) : String :=
  let parts := (options.mergeSort fun a b => decide (a.1 ≤ b.1)).flatMap fun (name, values) =>
    values.map fun value =>
      String.ofList (Text.queryEncode name.toList ++ '=' :: Text.queryEncode value.toList)
  if parts.isEmpty then "" else "?" ++ "&".intercalate parts

/-- The address without its password. -/
def shown (u : DatabaseUrl) : String :=
  let encoded := fun (safe text : String) =>
    String.ofList (Text.percentEncode safe.toList text.toList)
  let person := match u.user with
    | some user => encoded " +" user ++ (if u.password.isSome then ":***" else "") ++ "@"
    | none => ""
  let host := match u.host with
    | some host => if host.contains ':' then "[" ++ host ++ "]" else host
    | none => ""
  let port := match u.port with
    | some n => s!":{n}"
    | none => ""
  let database := match u.database with
    | some path => "/" ++ encoded " +/" path
    | none => ""
  u.kind ++ "://" ++ person ++ host ++ port ++ database ++ queryText u.options

end DatabaseUrl

namespace DatabasePlace

/-- Kinds of databases that are known, each with the library that it lacks. -/
def libraries : List (String × String) :=
  [("sqlite+aiosqlite", "aiosqlite"), ("sqlite+pysqlcipher", "pysqlcipher3"),
    ("postgresql", "psycopg"), ("postgresql+psycopg", "psycopg"),
    ("postgresql+psycopg2", "psycopg2"), ("postgresql+pg8000", "pg8000"),
    ("postgresql+asyncpg", "asyncpg"), ("mysql", "MySQLdb"), ("mysql+mysqldb", "MySQLdb"),
    ("mysql+pymysql", "pymysql"), ("mysql+mysqlconnector", "mysql"), ("mariadb", "MySQLdb"),
    ("mariadb+pymysql", "pymysql"), ("oracle", "oracledb"), ("oracle+oracledb", "oracledb"),
    ("oracle+cx_oracle", "cx_Oracle"), ("mssql", "pyodbc"), ("mssql+pyodbc", "pyodbc"),
    ("mssql+pymssql", "pymssql")]

/-- The kinds that are at hand, and what the name of another one is shown as. -/
def checkKind (name : String) : Except DatabaseFault Unit :=
  if ["sqlite", "sqlite+pysqlite", "sqlite+base"].contains name then .ok ()
  else if let some library := libraries.lookup name then .error (.library library)
  else if 1 < name.toList.count '+' then .error .kindParts
  else .error (.kind (name.map fun c => if c = '+' then '.' else c))

/-! ## Options -/

/-- The kinds of values that options have. -/
inductive OptionKind where
  | flag
  | whole
  | decimal
  | text

/-- The options that are no part of a name of a file, with their kinds. -/
def ownOptions : List (String × OptionKind) :=
  [("uri", .flag), ("timeout", .decimal), ("isolation_level", .text), ("detect_types", .whole),
    ("check_same_thread", .flag), ("cached_statements", .whole)]

/-- The flag that a word means. -/
def flagOf (word : String) : Except DatabaseFault Bool :=
  let word := Text.lower (Text.trimmed word)
  if ["true", "yes", "on", "y", "t", "1"].contains word then .ok true
  else if ["false", "no", "off", "n", "f", "0"].contains word then .ok false
  else .error (.flag word)

/-- Looks at an option; the answer is whether it is on. -/
def checkOption (kind : OptionKind) (values : List String) : Except DatabaseFault Bool :=
  match kind, values with
  | .flag, [word] => flagOf word
  | .whole, [text] =>
    if (Spelled.integer? text.toList).isSome then .ok true else .error (.whole text)
  | .decimal, [text] =>
    if (Spelled.double? text.toList).isSome then .ok true else .error (.decimal text)
  | .whole, _ => .error (.repeated "int")
  | .decimal, _ => .error (.repeated "float")
  | _, _ => .ok true

/-- Looks at the options in the order in which they are known; the answer is whether the path is a
name with options of its own. -/
def checkOptions (options : List (String × List String)) : Except DatabaseFault Bool := do
  let seen ← ownOptions.filterMapM fun (name, kind) =>
    match options.lookup name with
    | some values => do return some (name, ← checkOption kind values)
    | none => return none
  return (seen.lookup "uri").getD false

/-- A whole number among the options does not fit in 32 bits. -/
def hasLarge (options : List (String × List String)) : Bool :=
  ownOptions.any fun (name, kind) =>
    match kind, options.lookup name with
    | .whole, some [text] =>
      (Spelled.integer? text.toList).any fun n => n < -0x80000000 || 0x80000000 ≤ n
    | _, _ => false

/-! ## Names of files -/

/-- The options of a name of a file, after its question mark. One without a name is none. -/
def fileOptions (cs : List Char) : List (String × String) :=
  let decoded := fun (cs : List Char) => String.ofList (Text.percentDecode cs)
  (Text.splitAt '&' cs).filterMap fun part =>
    let name := part.takeWhile (· ≠ '=')
    if name.isEmpty then none else some (decoded name, decoded (part.drop (name.length + 1)))

/-- The values that an option of a name of a file may have, and the fault of any other. -/
def checkFileOption (option : String × String) : Except DatabaseFault Unit :=
  match option with
  | ("cache", mode) =>
    if ["shared", "private"].contains mode then .ok () else .error (.cacheMode mode)
  | ("mode", mode) =>
    if ["ro", "rw", "rwc", "memory"].contains mode then .ok () else .error (.fileMode mode)
  | _ => .ok ()

/-- The ways to reach files that an option may name. -/
def fileSystems : List String :=
  ["unix", "unix-none", "unix-dotfile", "unix-excl", "unix-namedsem", "memdb"]

/-- The text of a `file:` name after its authority, which is either empty or this machine. -/
def afterAuthority : List Char → Except DatabaseFault (List Char)
  | '/' :: '/' :: rest =>
    let authority := rest.takeWhile (· ≠ '/')
    if authority.isEmpty ∨ authority = "localhost".toList then .ok (rest.drop authority.length)
    else .error (.authority (String.ofList authority))
  | cs => .ok cs

/-- The place of a `file:` name. -/
def ofFileName (cs : List Char) : Except DatabaseFault DatabasePlace := do
  let cs := (← afterAuthority cs).takeWhile (· ≠ '#')
  let name := cs.takeWhile (· ≠ '?')
  let path := String.ofList (Text.percentDecode name)
  let options := fileOptions (cs.drop (name.length + 1))
  options.forM checkFileOption
  if let some system := options.reverse.lookup "vfs" then
    if !fileSystems.contains system then throw (.fileSystem system)
  let named := fun (access : FileAccess) =>
    if path = ":memory:" ∨ path = "" ∧ access = .create then DatabasePlace.memory
    else .file path access
  match options.reverse.lookup "mode" with
  | some "memory" => return .memory
  | some "rw" => return named .existing
  | some "ro" => return named .readOnly
  | _ => return named .create

/-- The values of an option as a text. -/
def valuesText : List String → String
  | [value] => value
  | values => "(" ++ ", ".intercalate (values.map Text.quoted) ++ ")"

/-- A path with options behind a question mark, in the order of their names. -/
def withOptions (path : String) (options : List (String × List String)) : String :=
  if options.isEmpty then path
  else
    let parts := (options.mergeSort fun a b => decide (a.1 ≤ b.1)).map fun (name, values) =>
      name ++ "=" ++ valuesText values
    path ++ "?" ++ "&".intercalate parts

/-- The place of a path, with the options that belong to a name of a file. -/
def ofPath (path : Option String) (ownName : Bool) (options : List (String × List String)) :
    Except DatabaseFault DatabasePlace :=
  let further := options.filter fun entry => (ownOptions.lookup entry.1).isNone
  match path, ownName with
  | none, true => .error (.noPath !further.isEmpty)
  | path, _ =>
    let path := path.getD ""
    let name := if ownName then withOptions path further else path
    if name.toList.contains '\x00' then .error .nullCharacter
    else if hasLarge options then .error .large
    else if ownName ∧ name.startsWith "file:" then ofFileName (name.toList.drop 5)
    else .ok (if name = "" ∨ name = ":memory:" then .memory else .file name .create)

/-- The place that an address names. -/
def ofAddress (address : String) : Except DatabaseFault DatabasePlace := do
  let url ← DatabaseUrl.read address
  if let some (name :: _) := url.options.lookup "plugin" then throw (.extension name)
  checkKind url.kind
  let given := fun (text : Option String) => (text.filter (· ≠ "")).isSome
  if given url.user || given url.password || given url.host || url.port.any (· ≠ 0) then
    throw (.server url.shown)
  let ownName ← checkOptions url.options
  ofPath url.database ownName url.options

end DatabasePlace

end PluginRegistry
