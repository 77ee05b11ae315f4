import PluginRegistry.Catalog.Action
import PluginRegistry.Json.Display
import PluginRegistry.Json.Printer
import PluginRegistry.Numeral.Fixed

/-!
# Queries

The four ways to use the table inside a session. A query that takes longer than a threshold is noted
as slow, and one that fails is noted with the reason.
-/

namespace PluginRegistry

/-- What is known of a query once it is done. -/
structure Query where
  operation : Json
  subject : Json
  results : Json

namespace Query

/-- The query with the time that it took. -/
def summary (q : Query) (duration : Double) : String :=
  q.operation.display ++ " completed in " ++ duration.fixed 3 ++ "s" ++
    match q.results with
    | .null => ""
    | count => " (" ++ count.display ++ " results)"

/-- One number is beyond the other. -/
def exceeds (x y : Double) : Bool :=
  match x, y with
  | .finite x, .finite y => y.lessThan x
  | .infinite negative, .finite _ => !negative
  | .finite _, .infinite negative => negative
  | .infinite x, .infinite y => !x && y
  | _, _ => false

/-- What is noted of a query: a warning when it was slow. -/
def entry (q : Query) (threshold duration : Double) : Log.Entry :=
  if exceeds duration threshold then
    ⟨.slowQuery,
      "SLOW QUERY: " ++ q.summary duration ++ " - Query: " ++ q.subject.display⟩
  else ⟨.query, q.summary duration⟩

end Query

/-- How long a query takes, and from when on it is slow. -/
structure Timing where
  duration : Double
  threshold : Double

/-- A column of the table by which rows are found. -/
inductive Column where
  | id
  | service
  | body
  | createdAt
  | lastModified
  deriving DecidableEq

namespace Column

/-- The column of that name. -/
def ofName? : String → Option Column
  | "id" => some .id
  | "service" => some .service
  | "body" => some .body
  | "created_at" => some .createdAt
  | "last_modified" => some .lastModified
  | _ => none

/-- The value is the text, where a number is compared as it is written and a flag as 0 or 1. -/
def isText (value : Json) (text : String) : Bool :=
  match value with
  | .bool b => text = if b then "1" else "0"
  | .str s => text = s
  | value => text = value.display

/-- A row has the value in the column. Nothing but the tag of a service is ever missing, and a time
is not found by a value. -/
def holds (row : Row) (value : Json) : Column → Bool
  | .id => value.toOption.any (isText · row.id)
  | .service =>
    match value.toOption, row.service with
    | none, none => true
    | some value, some tag => isText value tag
    | _, _ => false
  | .body =>
    value.toOption.any fun value => value.sameNumber row.body || value.compact = row.body.compact
  | .createdAt | .lastModified => false

/-- The value is passed to the query, rather than written into it. -/
def isPassed : Json → Bool
  | .null | .bool _ => false
  | _ => true

end Column

/-- Why a text cannot be passed to a query: one with half a surrogate pair has no octets. The
characters that stand for halves are always taken for them. -/
def textFault? (text : String) : Option CatalogFault := (Text.half? text).map .noOctets

/-- Which rows are to be found: those with the given values, by the names of columns. -/
abbrev Filters := List (String × Json)

namespace Filters

/-- The columns with their values, if all the names are known. -/
def columns (filters : Filters) : Except CatalogFault (List (Column × Json)) :=
  filters.mapM fun filter =>
    match Column.ofName? filter.1 with
    | some column => .ok (column, filter.2)
    | none => .error (.noColumn filter.1)

/-- Why a value cannot be the parameter at a position; a body may be any value. -/
def parameterFault? (position : Nat) (column : Column) (value : Json) : Option CatalogFault :=
  match column, value with
  | .body, _ => none
  | _, .str text => textFault? text
  | _, .int n =>
    if -0x8000000000000000 ≤ n ∧ n < 0x8000000000000000 then none else some .largeNumber
  | _, .arr _ => some (.noParameter position "list")
  | _, .obj _ => some (.noParameter position "dict")
  | _, _ => none

/-- Why the values cannot be passed to a query: the first fault. -/
def passFault? (filters : List (Column × Json)) : Option CatalogFault :=
  ((filters.filter fun filter => Column.isPassed filter.2).zipIdx 1).findSome? fun entry =>
    parameterFault? entry.2 entry.1.1 entry.1.2

/-- A time is looked for by a value. -/
def seekTime (filters : List (Column × Json)) : Bool :=
  filters.any fun filter =>
    Column.isPassed filter.2 && (filter.1 = .createdAt || filter.1 = .lastModified)

end Filters

namespace Catalog

variable {σ : Type}

/-- Notes a query that is done, if it was slow. -/
def measure (timing : Timing) (query : Query) : Action σ Unit := do
  let entry := query.entry timing.threshold timing.duration
  if entry.level ≠ .debug then modify fun w => { w with log := w.log ++ [entry] }

/-- Fails, and notes what was to be done. -/
def fail {α : Type} (topic : Log.Topic) (what : String) (fault : CatalogFault) : Action σ α := do
  Action.note topic ("Error " ++ what ++ ": " ++ fault.message)
  throw (.catalog fault)

/-- The table, or a failure that is noted under the name of what was to be done. -/
def table (topic : Log.Topic) (what : String) : Action σ Table := do
  match (← get).table with
  | some t => return t
  | none => fail topic what .noTable

/-- Replaces the table. -/
def replace (t : Table) : Action σ Unit := modify fun w => { w with table := some t }

/-- The row of an id, if there is one. -/
def get (timing : Timing) (id : String) : Action σ (Option Row) := do
  let what := "in get with key " ++ id
  let t ← table .getFailed what
  if let some fault := textFault? id then fail .getFailed what fault
  measure timing ⟨.str "get", .obj [("key", .str id)], .null⟩
  return t.find? id

/-- The rows with the given values, in the order of their ids. -/
def findMany (timing : Timing) (filters : Filters) : Action σ (List Row) := do
  let what := "in find_many with filters " ++ (Json.obj filters).display
  match filters.columns with
  | .error fault => fail .findFailed what fault
  | .ok columns =>
    if Filters.seekTime columns then fail .findFailed what .noTime
    let t ← table .findFailed what
    if let some fault := Filters.passFault? columns then fail .findFailed what fault
    let found := t.rows.filter fun row => columns.all fun filter => filter.1.holds row filter.2
    measure timing ⟨.str "find_many", .obj filters, .int found.length⟩
    return found

/-- What is noted of a query that changes the table. -/
def modelSubject : Json := .obj [("model", .str "PluginInfoRecord")]

/-- Why a tag cannot be kept. -/
def tagFault? (service : Option String) : Option CatalogFault := service.bind textFault?

/-- Adds a row. -/
def add (timing : Timing) (row : Row) : Action σ Unit := do
  let what := "adding PluginInfoRecord"
  let t ← table .addFailed what
  if let some fault := textFault? row.id <|> tagFault? row.service then fail .addFailed what fault
  if ← Action.isReadOnly then fail .addFailed what .readOnly
  match t.insert? row with
  | some t =>
    replace t
    measure timing ⟨.str "add", modelSubject, .null⟩
  | none => fail .addFailed what .repeatedId

/-- Removes a row that was found before. -/
def remove (timing : Timing) (row : Option Row) : Action σ Unit := do
  let what := "removing PluginInfoRecord"
  match row with
  | some row =>
    let t ← table .removeFailed what
    if ← Action.isReadOnly then fail .removeFailed what .readOnly
    replace (t.erase row.id)
    measure timing ⟨.str "remove", modelSubject, .null⟩
  | none => fail .removeFailed what .noRow

/-- Makes the table, if there is none. -/
def create : Action σ Unit := do
  modify fun w => { w with table := some (w.table.getD .empty) }
  Action.note .schemaReady "Plugin metadata schema ready"

/-- Drops the table, if there is one. -/
def drop : Action σ Unit := modify fun w => { w with table := none }

end Catalog

end PluginRegistry
