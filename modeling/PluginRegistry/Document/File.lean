import PluginRegistry.Document.FromJson
import PluginRegistry.Document.FromYaml
import PluginRegistry.Storage.FileTree

/-!
# Document files

A file whose name ends in `.json` holds a JSON text, any other a YAML text. Files are in UTF-8, and
what they hold has to be a mapping. A path is followed as it is written, without the components that
say nothing.
-/

namespace PluginRegistry

/-- A path as it was written: its components, and whether it starts at the root of the file system.
-/
structure WrittenPath where
  absolute : Bool
  components : List String
  deriving DecidableEq

namespace WrittenPath

/-- Reads a path and drops the components that say nothing. -/
def ofText (text : String) : WrittenPath :=
  ⟨text.startsWith "/", (Text.split '/' text).filter fun part => part ≠ "" ∧ part ≠ "."⟩

/-- The path as a text. -/
def text (p : WrittenPath) : String :=
  if p.absolute then "/" ++ "/".intercalate p.components
  else if p.components.isEmpty then "."
  else "/".intercalate p.components

/-- The end of the last component from its last point on, unless the point is at either end. -/
def suffix (p : WrittenPath) : String :=
  let name := (p.components.getLast?.getD "").toList
  let ending := name.reverse.takeWhile (· ≠ '.')
  if ending.isEmpty ∨ name.length ≤ ending.length + 1 then ""
  else String.ofList ('.' :: ending.reverse)

/-- Follows the components from a directory. Two points lead out of a directory that is there. -/
def follow (t : FileTree) (reached : Path) : List String → Except FileCause Path
  | [] => .ok reached
  | name :: rest =>
    match t.walk [] reached with
    | .error cause => .error cause
    | .ok (.file _) => .error .notDirectory
    | .ok .directory => follow t (if name = ".." then reached.dropLast else reached ++ [name]) rest

/-- Reads the file that the path leads to from a directory. -/
def read (p : WrittenPath) (directory : Path) (t : FileTree) :
    Except FileFault (List UInt8) :=
  let found := do
    if FileTree.pathLimit < Text.octetLength p.text then throw FileCause.nameTooLong
    let path ← follow t (if p.absolute then [] else directory) p.components
    match ← t.walk [] path with
    | .file content => .ok content
    | .directory => .error .isDirectory
  found.mapError fun cause => ⟨cause, p.text⟩

end WrittenPath

/-- Why a file gives no document. -/
inductive DocumentFault where
  | nullCharacter
  | file (fault : FileFault)
  | encoding (fault : Text.Utf8Fault)
  | json (fault : JsonFault)
  | yaml (fault : Yaml.Fault)
  | noMapping (path kind : String)

/-- The fault in words. -/
def DocumentFault.message : DocumentFault → String
  | .nullCharacter => "embedded null byte"
  | .file fault => fault.message
  | .encoding fault => fault.message
  | .json fault => fault.message
  | .yaml fault => fault.message
  | .noMapping path kind => path ++ " must contain a mapping, got " ++ kind

/-- The fault is no complaint about the text, but reading broke off: over a value of a kind that its
text does not fit, or over too many levels. -/
def DocumentFault.isBreak : DocumentFault → Bool
  | .json fault =>
    match fault.cause with
    | .nesting _ => true
    | _ => false
  | .yaml (.value (.flag _)) | .yaml (.value .noDigits) | .yaml (.value .timestamp) => true
  | .yaml (.value .place) | .yaml (.read .nesting) => true
  | _ => false

/-- The text of a file, with its line ends unified. -/
def decodeFile (content : List UInt8) : Except Text.Utf8Fault String := do
  return String.ofList (Text.unifyNewlines (← Text.decodeUtf8 content).toList)

namespace Document

/-- Reads the content of a file under a path. -/
def ofFile (path : WrittenPath) (content : List UInt8) : Except DocumentFault Document := do
  let text ← (decodeFile content).mapError .encoding
  let document ←
    if Text.lower path.suffix = ".json" then (ofJsonText text).mapError .json
    else (ofYamlText text).mapError .yaml
  match document with
  | .map _ => return document
  | other => throw (.noMapping path.text other.kind)

/-- Reads the file under a path, seen from a directory. -/
def load (path : WrittenPath) (directory : Path) (t : FileTree) :
    Except DocumentFault Document := do
  if path.text.toList.contains '\x00' then throw .nullCharacter
  ofFile path (← (path.read directory t).mapError .file)

end Document

end PluginRegistry
