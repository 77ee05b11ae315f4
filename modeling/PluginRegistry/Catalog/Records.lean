import PluginRegistry.Catalog.Query

/-!
# Records in the catalog

The catalog keeps each plugin under its id. It alone sets the times of a record: that of its
creation when the record is made, and that of its last change whenever it is written.
-/

namespace PluginRegistry.Catalog

variable {σ : Type}

/-- The record of a row. -/
def recordOf (row : Row) : Action σ Plugin := Action.ofExcept .rejected (Plugin.ofRow row)

/-- Every record, in the order of ids. -/
def all (timing : Timing) : Action σ (List Plugin) :=
  .session do (← findMany timing []).mapM recordOf

/-- The records that are tagged with a service, or with none. -/
def byService (timing : Timing) (service : Json) : Action σ (List Plugin) :=
  .session do (← findMany timing [("service", service)]).mapM recordOf

/-- The record of an id, if there is one. -/
def byId? (timing : Timing) (id : String) : Action σ (Option Plugin) :=
  .session do
    match ← get timing id with
    | some row => return some (← recordOf row)
    | none => return none

/-- The record of an id, which has to be there. -/
def byId (timing : Timing) (id : String) : Action σ Plugin := do
  match ← byId? timing id with
  | some plugin => return plugin
  | none => .refuse (.noPlugin id)

/-- A record is written under its own id only. -/
def requireOwnId (id : String) (plugin : Plugin) : Action σ Unit :=
  if plugin.id = id then return
  else .refuse (.badRequest (.idMismatch id plugin.id) id)

/-- Makes a record, whose id must be new. The answer is the record as it is kept. -/
def insert (timing : Timing) (now : CivilTime) (id : String) (plugin : Plugin) :
    Action σ Plugin := do
  requireOwnId id plugin
  Action.session do
    if (← get timing id).isSome then
      Action.refuse (.badRequest (.pluginExists id) id)
    -- Too many digits keep the row from being added, and yet this is not noted: the note would show
    -- the body, and fails at the same number.
    let body ← Action.ofExcept .unwritable plugin.writeBody
    let row : Row := ⟨id, plugin.service, body, now, now⟩
    add timing row
    recordOf row

/-- The row after its record was written. A body that is alike to the one in place is left as it
is. -/
def written (now : CivilTime) (plugin : Plugin) (body : Json) (row : Row) : Row :=
  { row with
    service := plugin.service
    body := if body.alike row.body then row.body else body
    lastModified := now }

/-- Writes a record in place of the one of its id. The answer is the record with its times. -/
def update (timing : Timing) (now : CivilTime) (id : String) (plugin : Plugin) :
    Action σ Plugin := do
  requireOwnId id plugin
  Action.session do
    match ← get timing id with
    | none => .refuse (.noPlugin id)
    | some row =>
      let body ← Action.ofExcept .unwritable plugin.writeBody
      if let some fault := tagFault? plugin.service then throw (.catalog fault)
      if ← Action.isReadOnly then throw (.catalog .readOnly)
      modify fun w => { w with table := w.table.map (·.modify id (written now plugin body)) }
      return { plugin with
        createTs := some (.utc row.createdAt)
        lastModified := some (.utc now) }

/-- Removes the record of an id; an id that is not there is passed over. -/
def delete (timing : Timing) (id : String) : Action σ Unit :=
  .session do
    match ← get timing id with
    | some row => remove timing (some row)
    | none => return

end PluginRegistry.Catalog
