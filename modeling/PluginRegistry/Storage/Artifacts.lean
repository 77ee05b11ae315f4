import PluginRegistry.Log.Entry
import PluginRegistry.Log.Sanitize
import PluginRegistry.Storage.FileTree

/-!
# Artifacts of releases

The archive of a release is kept under a key made from plugin id and version. A store is anything
that keeps contents under keys. The one that comes with the registry keeps them as files below a
root directory: a key is resolved as a path, which has to lie below the root, and the directory of a
plugin goes with its last artifact.
-/

namespace PluginRegistry

/-- What a store answers: a result or a fault, its new state, and the entries for the log. -/
abbrev StoreAnswer (σ α : Type) := Except StoreFault α × σ × List Log.Entry

/-- A store of artifacts with states of type `σ`. -/
structure ArtifactStore (σ : Type) where
  getKey : String → String → Except StoreFault String
  store : String → List UInt8 → σ → StoreAnswer σ Unit
  load : String → σ → Except StoreFault (List UInt8)
  delete : String → σ → StoreAnswer σ Unit
  listKeys : σ → List String

namespace Artifacts

/-- The key of a release. -/
def key (plugin version : String) : String := plugin ++ "/" ++ version ++ ".zip"

/-- The path of a key below the root. -/
def pathOf (root : Path) (key : String) : Except StoreFault Path :=
  match root.nameFault? key with
  | some fault => .error (.name fault)
  | none =>
    let path := root.resolve key
    if root.isBelow path then .ok path
    else .error (.error (.artifact .outsideRoot key .resolve))

/-- Writes an artifact, in place of the one that is there. -/
def store (root : Path) (key : String) (content : List UInt8) (t : FileTree) :
    StoreAnswer FileTree Unit :=
  match pathOf root key with
  | .error fault => (.error fault, t, [])
  | .ok path =>
    match t.ensureDirectories path.dropLast with
    | (t, .error fault) => (.error (.error (.artifact (.storing fault) key .store)), t, [])
    | (t, .ok ()) =>
      match t.write path content with
      | .error fault => (.error (.error (.artifact (.storing fault) key .store)), t, [])
      | .ok t =>
        (.ok (), t, [⟨.artifactStored,
          "Stored artifact " ++ Log.sanitizeText Log.usualLimit key ++
            s!" ({content.length} bytes)"⟩])

/-- Reads an artifact. -/
def load (root : Path) (key : String) (t : FileTree) : Except StoreFault (List UInt8) :=
  match pathOf root key with
  | .error fault => .error fault
  | .ok path =>
    match t.probe path with
    | .error fault => .error (.file fault)
    | .ok (some (.file content)) => .ok content
    | .ok _ => .error (.error (.artifact .notFound key .load))

/-- Takes away the directory of an artifact that is gone, if it is empty and not the root. -/
def dropParent (root path : Path) (t : FileTree) : FileTree :=
  if path.dropLast ≠ root ∧ t.isEmptyBelow path.dropLast then t.erase path.dropLast else t

/-- Removes an artifact; a key under which there is nothing is passed over. -/
def delete (root : Path) (key : String) (t : FileTree) : StoreAnswer FileTree Unit :=
  match pathOf root key with
  | .error fault => (.error fault, t, [])
  | .ok path =>
    match t.probe path with
    | .error fault => (.error (.file fault), t, [])
    | .ok none => (.ok (), t, [])
    | .ok (some .directory) =>
      (.error (.error (.artifact (.deleting ⟨.isDirectory, path.text⟩) key .delete)), t, [])
    | .ok (some (.file _)) =>
      (.ok (), dropParent root path (t.erase path),
        [⟨.artifactDeleted, "Deleted artifact " ++ Log.sanitizeText Log.usualLimit key⟩])

/-- The keys of all artifacts, in order. -/
def listKeys (root : Path) (t : FileTree) : List String :=
  ((t.filesBelow root).map root.relativeTo).mergeSort (fun a b => decide (a ≤ b))

/-- The store of files below a root. -/
def inDirectory (root : Path) : ArtifactStore FileTree where
  getKey plugin version := .ok (key plugin version)
  store := store root
  load := load root
  delete := delete root
  listKeys := listKeys root

/-- Makes the root of a store, which a text means inside a directory, with the directories on the
way to it. -/
def makeRoot (directory : Path) (text : String) (t : FileTree) :
    FileTree × Except StoreFault Path :=
  match directory.nameFault? text with
  | some fault => (t, .error (.name fault))
  | none =>
    let root := directory.resolve text
    match t.ensureDirectories root with
    | (t, .ok ()) => (t, .ok root)
    | (t, .error fault) => (t, .error (.file fault))

end Artifacts

end PluginRegistry
