import PluginRegistry.Failure
import PluginRegistry.Storage.Path
import PluginRegistry.Text.Utf8

/-!
# Trees of files

A tree knows for every path whether there is a directory, a file with its content, or nothing. Paths
are walked component by component from the root of the file system: each component but the last must
be a directory, a name has at most 255 octets, and a whole path at most 4095.
-/

namespace PluginRegistry

/-- What stands at a path. -/
inductive FileNode where
  | directory
  | file (content : List UInt8)
  deriving DecidableEq

/-- A tree of files, without the root of the file system. -/
structure FileTree where
  nodes : List (Path × FileNode)

namespace FileTree

/-- A tree that has only the directories on the way to a path. -/
def withDirectory (path : Path) : FileTree :=
  ⟨(List.range path.length).map fun n => (path.take (n + 1), .directory)⟩

/-- What stands at a path. -/
def node? (t : FileTree) (path : Path) : Option FileNode :=
  if path.isEmpty then some .directory else t.nodes.lookup path

/-- Puts something at a path. -/
def put (path : Path) (node : FileNode) (t : FileTree) : FileTree :=
  ⟨if (t.nodes.lookup path).isSome then
      t.nodes.map fun entry => if entry.1 = path then (path, node) else entry
    else t.nodes ++ [(path, node)]⟩

/-- Takes away what stands at a path. -/
def erase (path : Path) (t : FileTree) : FileTree :=
  ⟨t.nodes.filter fun entry => entry.1 ≠ path⟩

/-- The most octets that a name may have. -/
def nameLimit : Nat := 255

/-- The most octets that a path may have. -/
def pathLimit : Nat := 4095

/-- Walks the rest of a path from a place that was reached. -/
def walk (t : FileTree) (reached : Path) : Path → Except FileCause FileNode
  | [] =>
    match t.node? reached with
    | some node => .ok node
    | none => .error .noEntry
  | name :: rest =>
    match t.node? reached with
    | none => .error .noEntry
    | some (.file _) => .error .notDirectory
    | some .directory =>
      if nameLimit < Text.octetLength name then .error .nameTooLong
      else t.walk (reached ++ [name]) rest

/-- What stands at a path, or why it cannot be reached. -/
def status (t : FileTree) (path : Path) : Except FileCause FileNode :=
  if pathLimit < Text.octetLength path.text then .error .nameTooLong else t.walk [] path

/-- There is a directory at a path. -/
def hasDirectory (t : FileTree) (path : Path) : Bool :=
  match t.status path with
  | .ok .directory => true
  | _ => false

/-- What stands at a path, where one that cannot be reached for want of a directory has nothing. -/
def probe (t : FileTree) (path : Path) : Except FileFault (Option FileNode) :=
  match t.status path with
  | .ok node => .ok (some node)
  | .error .nameTooLong => .error ⟨.nameTooLong, path.text⟩
  | .error _ => .ok none

/-- The directory that a new name at the end of a path would stand in is there, and neither the name
nor the path is too long. -/
def reachParent (t : FileTree) (path : Path) : Except FileCause Unit :=
  if pathLimit < Text.octetLength path.text then .error .nameTooLong
  else
    match t.walk [] path.dropLast with
    | .error cause => .error cause
    | .ok (.file _) => .error .notDirectory
    | .ok .directory =>
      if nameLimit < Text.octetLength (path.getLast?.getD "") then .error .nameTooLong else .ok ()

/-- Makes one directory. -/
def makeDirectory (path : Path) (t : FileTree) : Except FileCause FileTree :=
  match t.reachParent path with
  | .error cause => .error cause
  | .ok () => if (t.node? path).isSome then .error .exists else .ok (t.put path .directory)

/-- Makes one directory, unless it is there already. -/
def ensureDirectory (path : Path) (t : FileTree) : FileTree × Except FileCause Unit :=
  match t.makeDirectory path with
  | .ok t => (t, .ok ())
  | .error cause => (t, if t.hasDirectory path then .ok () else .error cause)

/-- Makes a directory and those on the way to it that are missing. The path is given from its last
component on. What was made before a failure stays. -/
def ensureUpwards : List String → FileTree → FileTree × Except FileFault Unit
  | [], t => (t, .ok ())
  | name :: up, t =>
    let path : Path := (name :: up).reverse
    match t.ensureDirectory path with
    | (t, .ok ()) => (t, .ok ())
    | (t, .error .noEntry) =>
      match ensureUpwards up t with
      | (t, .error fault) => (t, .error fault)
      | (t, .ok ()) =>
        match t.ensureDirectory path with
        | (t, .ok ()) => (t, .ok ())
        | (t, .error cause) => (t, .error ⟨cause, path.text⟩)
    | (t, .error cause) => (t, .error ⟨cause, path.text⟩)

/-- Makes a directory and those on the way to it that are missing. -/
def ensureDirectories (path : Path) (t : FileTree) : FileTree × Except FileFault Unit :=
  ensureUpwards path.reverse t

/-- Writes a file, in place of the one that is there. -/
def write (path : Path) (content : List UInt8) (t : FileTree) : Except FileFault FileTree :=
  match t.reachParent path with
  | .error cause => .error ⟨cause, path.text⟩
  | .ok () =>
    match t.node? path with
    | some .directory => .error ⟨.isDirectory, path.text⟩
    | _ => .ok (t.put path (.file content))

/-- Reads a file. -/
def read (path : Path) (t : FileTree) : Except FileFault (List UInt8) :=
  match t.status path with
  | .ok (.file content) => .ok content
  | .ok .directory => .error ⟨.isDirectory, path.text⟩
  | .error cause => .error ⟨cause, path.text⟩

/-- Nothing stands below a directory. -/
def isEmptyBelow (t : FileTree) (directory : Path) : Bool :=
  !t.nodes.any fun entry => directory.isBelow entry.1

/-- The paths of the files below a directory. -/
def filesBelow (t : FileTree) (directory : Path) : List Path :=
  t.nodes.filterMap fun entry =>
    match entry.2 with
    | .file _ => if directory.isBelow entry.1 then some entry.1 else none
    | .directory => none

end FileTree

end PluginRegistry
