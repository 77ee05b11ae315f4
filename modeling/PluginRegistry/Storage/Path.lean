import PluginRegistry.Text.Quoted
import PluginRegistry.Text.Split

/-!
# Paths

An absolute path is the list of its components from the root of the file system on. Resolving a text
against a directory drops empty components and single points, lets two points take back the
component before them, and starts over when the text is absolute. Each component is looked up where
the ones before it lead, and some are no names that can be looked up.
-/

namespace PluginRegistry

/-- Why a component cannot be looked up. -/
inductive NameFault where
  | nullCharacter
  | noOctets (halves : Text.HalfRun)
  deriving DecidableEq

/-- The fault in words. -/
def NameFault.message : NameFault → String
  | .nullCharacter => "embedded null byte"
  | .noOctets halves => halves.message

/-- An absolute path. -/
abbrev Path := List String

namespace Path

/-- Follows one component. Above the root of the file system there is only itself. -/
def step (path : Path) (component : String) : Path :=
  if component = "" ∨ component = "." then path
  else if component = ".." then path.dropLast
  else path ++ [component]

/-- Where a text starts that is resolved against a directory. -/
def origin (directory : Path) (text : String) : Path :=
  if text.startsWith "/" then [] else directory

/-- The path that a text means inside a directory. -/
def resolve (directory : Path) (text : String) : Path :=
  (Text.split '/' text).foldl step (directory.origin text)

/-- The path lies below the directory and is not the directory itself. -/
def isBelow (directory path : Path) : Bool :=
  directory.isPrefixOf path && directory.length < path.length

/-- The path as a text. -/
def text (path : Path) : String := "/" ++ "/".intercalate path

/-- Why a component cannot be looked up at a path. A half is told by its position in the path with
the component behind it. -/
def componentFault? (path : Path) (component : String) : Option NameFault :=
  match Text.nameless? component with
  | some halves =>
    some (.noOctets { halves with position := (path ++ [""]).text.length + halves.position })
  | none => if component.toList.contains '\x00' then some .nullCharacter else none

/-- The first fault of components that are followed from a path. -/
def firstFault? (path : Path) : List String → Option NameFault
  | [] => none
  | component :: rest => path.componentFault? component <|> (path.step component).firstFault? rest

/-- Why a text cannot be resolved against a directory. -/
def nameFault? (directory : Path) (text : String) : Option NameFault :=
  (directory.origin text).firstFault? (Text.split '/' text)

/-- The part of the path behind the directory, as a text. -/
def relativeTo (directory path : Path) : String :=
  "/".intercalate (path.drop directory.length)

end Path

end PluginRegistry
