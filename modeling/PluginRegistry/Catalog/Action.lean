import PluginRegistry.Catalog.Table
import PluginRegistry.Failure
import PluginRegistry.Log.Entry

/-!
# Actions

What operations work on: the table of records, the state of the artifact store, how often somebody
was asked for the acting user, and the log. An action that fails leaves behind what it had changed
by then; a session puts the table back.
-/

namespace PluginRegistry

/-- The state that operations change. There may be no table, or one that must not be written. -/
structure World (σ : Type) where
  table : Option Table
  readOnly : Bool
  artifacts : σ
  asked : Nat
  log : List Log.Entry

/-- An operation on the state, which may fail. -/
abbrev Action (σ : Type) := ExceptT Failure (StateM (World σ))

namespace Action

variable {σ α : Type}

/-- Runs an action on a state. -/
def start (action : Action σ α) (world : World σ) : Except Failure α × World σ :=
  (ExceptT.run action).run world

/-- Adds an entry to the log. -/
def note (topic : Log.Topic) (message : String) : Action σ Unit :=
  modify fun w => { w with log := w.log ++ [⟨topic, message⟩] }

/-- Whether the table must not be written. -/
def isReadOnly : Action σ Bool := return (← get).readOnly

/-- Fails with an error of the registry. -/
def refuse (error : PluginError) : Action σ α := throw (.error error)

/-- The result, or the failure that it stands for. -/
def ofExcept {ε : Type} (failure : ε → Failure) : Except ε α → Action σ α
  | .ok a => return a
  | .error e => throw (failure e)

/-- Runs an action and puts the table back if it fails. -/
def session (action : Action σ α) : Action σ α := do
  let before := (← get).table
  try action
  catch failure =>
    modify fun w => { w with table := before }
    throw failure

end Action

end PluginRegistry
