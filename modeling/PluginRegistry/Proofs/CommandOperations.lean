import PluginRegistry.CommandLine.Run
import PluginRegistry.Proofs.Independence
import PluginRegistry.Proofs.WrittenAnswers

/-!
# What commands ask of the registry

Each command asks for one operation, with what stands on the command line or in the file that is
named there, and prints the answer. Nobody is named to act, so that the user of the command line
does. Nothing is printed of an answer that cannot be written, and this turns out only once the
operation has been performed.
-/

namespace PluginRegistry.CommandLine

/-- What a command asks for, with the record that is read from a file. A version without a value is
no text. -/
def Command.asked (w : Workplace) : Command → Except RunFault PluginRegistry.Operation
  | .list none => .ok .findAll
  | .list (some service) => .ok (.findByService service)
  | .show id => .ok (.find id)
  | .importPlugin file => .upsert <$> fromFile w file Plugin.read
  | .addRelease id file => (.createRelease id · none) <$> fromFile w file Release.read
  | .replaceRelease id file => (.upsertRelease id · none) <$> fromFile w file Release.read
  | .delete id => .ok (.delete id none)
  | .deleteRelease id version => .ok (.deleteRelease id (version.elim (.arr []) .str) none)
  | .prefer id version preferred =>
    .ok (.preferRelease id (version.elim (.arr []) .str) (.bool preferred) none)

/-- What is printed of an answer, if it can be written. -/
def Command.printed (command : Command) : Answer → Except WriteFault String
  | .plugins found => shown <$> (.arr <$> found.mapM Plugin.write)
  | .plugin p => shown <$> p.write
  | .release r => shown <$> r.write
  | .done =>
    match command with
    | .delete id => .ok ((Json.obj [("deleted", .str id)]).compact ++ "\n")
    | _ => .ok ""

theorem print_eq (value : Except WriteFault Json) :
    print value = Action.ofExcept .unwritable (shown <$> value) := by
  cases value with
  | ok json => rfl
  | error fault => rfl

/-- To print the answer that is made of a result is to print what is made of the result. -/
theorem print_answer {α : Type} (command : Command) (make : α → Answer)
    (action : Action FileTree α) :
    (pure (action >>= fun a => Action.ofExcept .unwritable (command.printed (make a))) :
        Except RunFault Operation) =
      pure (make <$> action >>= fun a => Action.ofExcept .unwritable (command.printed a)) := by
  rw [map_eq_pure_bind, bind_assoc]
  simp only [pure_bind]

/-- **A command performs the operation that it asks for, once, and prints the answer.** -/
theorem operation_eq (w : Workplace) (registry : Registry FileTree) (now : CivilTime)
    (command : Command) :
    operation w registry now command = (fun op => do
      Action.ofExcept .unwritable (command.printed (← registry.perform now op))) <$>
        command.asked w := by
  unfold operation
  simp only [print_eq]
  cases command with
  | list service =>
      cases service with
      | none => exact print_answer (.list none) .plugins registry.findAll
      | some service => exact print_answer (.list service) .plugins (registry.findByService service)
  | «show» id => exact print_answer (.show id) .plugin (registry.find id)
  | importPlugin file =>
      dsimp only [Command.asked]
      cases fromFile w (some file) Plugin.read with
      | error fault => rfl
      | ok candidate =>
          exact print_answer (.importPlugin file) .plugin (registry.upsert now candidate)
  | addRelease id file =>
      dsimp only [Command.asked]
      cases fromFile w file Release.read with
      | error fault => rfl
      | ok release =>
          exact print_answer (.addRelease id file) .plugin
            (registry.createRelease now id release none)
  | replaceRelease id file =>
      dsimp only [Command.asked]
      cases fromFile w file Release.read with
      | error fault => rfl
      | ok release =>
          exact print_answer (.replaceRelease id file) .plugin
            (registry.upsertRelease now id release none)
  | delete id => exact print_answer (.delete id) (fun _ => .done) (registry.delete now id none)
  | deleteRelease id version =>
      cases version with
      | none =>
          exact print_answer (.deleteRelease id none) .plugin
            (registry.deleteNoRelease now id (.arr []) none)
      | some version =>
          exact print_answer (.deleteRelease id version) .plugin
            (registry.deleteRelease now id version none)
  | prefer id version preferred =>
      cases version with
      | none =>
          exact print_answer (.prefer id none preferred) .release
            (registry.preferNoRelease id (.arr []))
      | some version =>
          exact print_answer (.prefer id version preferred) .release
            (registry.preferRelease now id version (.bool preferred) none)

/-! ## Answers that are printed -/

theorem mapM_write {found : List Plugin} (h : ∀ p ∈ found, p.write = .ok p.toJson) :
    found.mapM Plugin.write = .ok (found.map Plugin.toJson) := by
  induction found with
  | nil => rfl
  | cons p rest ih =>
      rw [List.mapM_cons, h p List.mem_cons_self, ih fun q hq => h q (List.mem_cons_of_mem p hq)]
      rfl

/-- What can be written is printed. -/
theorem Command.printed_of_written (command : Command) {answer : Answer} (h : answer.Written) :
    ∃ text, command.printed answer = .ok text := by
  cases answer with
  | plugin p => exact ⟨shown p.toJson, congrArg (shown <$> ·) h⟩
  | release r => exact ⟨shown r.toJson, congrArg (shown <$> ·) h⟩
  | plugins found =>
      exact ⟨_, congrArg (fun written => shown <$> (Json.arr <$> written)) (mapM_write h)⟩
  | done =>
      cases command with
      | _ => exact ⟨_, rfl⟩

/-- To print an answer changes nothing, and fails if it cannot be written. -/
theorem start_printed (command : Command) {action : Action FileTree Answer}
    {w w' : World FileTree} {result : Except Failure Answer} (h : action.start w = (result, w')) :
    (action >>= fun answer => Action.ofExcept .unwritable (command.printed answer)).start w =
      (result >>= fun answer => (command.printed answer).mapError .unwritable, w') := by
  rw [Action.start_bind, h]
  cases result with
  | error failure => rfl
  | ok answer =>
      show (Action.ofExcept .unwritable (command.printed answer)).start w' =
        ((command.printed answer).mapError .unwritable, w')
      cases command.printed answer with
      | error fault => rfl
      | ok text => rfl

/-! ## The user of a command -/

/-- Nobody is named to act. -/
theorem Command.settlesActor_of_asked {w : Workplace} {command : Command}
    {op : PluginRegistry.Operation} (h : command.asked w = .ok op) {r : Registry FileTree}
    (hr : r.Settles none) : r.SettlesActor op := by
  cases command with
  | list service =>
      cases service with
      | _ =>
        cases h
        exact hr
  | importPlugin file =>
      dsimp only [asked] at h
      cases hfile : fromFile w (some file) Plugin.read with
      | error fault =>
          rw [hfile] at h
          cases h
      | ok candidate =>
          rw [hfile] at h
          cases h
          trivial
  | addRelease id file | replaceRelease id file =>
      dsimp only [asked] at h
      cases hfile : fromFile w file Release.read with
      | error fault =>
          rw [hfile] at h
          cases h
      | ok release =>
          rw [hfile] at h
          cases h
          exact hr
  | _ =>
      cases h
      exact hr

end PluginRegistry.CommandLine
