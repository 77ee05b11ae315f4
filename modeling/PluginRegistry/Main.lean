import PluginRegistry.CommandLine.Reach
import Std.Time.DateTime.Timestamp

/-!
# The program

Loads what a run reaches, performs the run, prints what it leaves on the terminal and puts the files
that it changed back.
-/

namespace PluginRegistry.Main

open CommandLine

/-- The time in UTC. -/
def now : IO CivilTime := do
  let span := (← Std.Time.Timestamp.now).val
  let moment := Reading.momentOfSeconds span.second.val (span.nano.val / 1000).toNat
  return (moment.toOption.bind Moment.toUtc?).getD default

/-- The variables of these names that are set. -/
def environment (names : List String) : IO (List (String × String)) :=
  names.eraseDups.filterMapM fun name => return (← IO.getEnv name).map (name, ·)

/-- The entry that a path has in the directory above it. -/
def entry (path : Path) : IO.FS.DirEntry := ⟨Path.text path.dropLast, path.getLast?.getD ""⟩

/-- The tree with what stands at a path and below it. -/
partial def load (tree : FileTree) (path : Path) : IO FileTree := do
  let place := (entry path).path
  if ← place.isDir then
    (← place.readDir).foldlM (fun tree entry => load tree (path ++ [entry.fileName]))
      (tree.put path .directory)
  else if ← place.pathExists then
    return tree.put path (.file (← IO.FS.readBinFile place).toList)
  else return tree

/-- The tree with the directories on the way to a path, and what stands there. -/
def loadWay (tree : FileTree) (path : Path) : IO FileTree := do
  let mut tree := tree
  for length in (List.range path.length).drop 1 do
    let up : Path := path.take length
    if ← (entry up).path.isDir then tree := tree.put up .directory
  load tree path

/-- Puts on disk what differs between two trees. -/
def store (before after : FileTree) : IO Unit := do
  for (path, node) in after.nodes do
    if before.node? path ≠ some node then
      match node with
      | .directory => IO.FS.createDirAll path.text
      | .file content => IO.FS.writeBinFile path.text ⟨content.toArray⟩
  for (path, node) in before.nodes.reverse do
    if (after.node? path).isNone then
      match node with
      | .directory => IO.FS.removeDir path.text
      | .file _ => IO.FS.removeFile path.text

end PluginRegistry.Main

open PluginRegistry in
def main (words : List String) : IO UInt32 := do
  let directory := Path.resolve [] (← IO.currentDir).toString
  let place : CommandLine.Workplace :=
    ⟨directory, ← Main.loadWay ⟨[]⟩ (directory ++ [".env"])⟩
  let environment ← Main.environment place.variableNames
  let tree ← (place.reach environment words).foldlM Main.loadWay place.tree
  let (outcome, after) :=
    CommandLine.run environment (← Main.now) words { place with tree }
  Main.store tree after.tree
  (← IO.getStdout).putStr outcome.output
  (← IO.getStderr).putStr outcome.errors
  if let .broken fault := outcome.ending then (← IO.getStderr).putStrLn fault.message
  return outcome.ending.code.toUInt32
