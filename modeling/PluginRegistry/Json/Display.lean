import PluginRegistry.Json.Basic
import PluginRegistry.Numeral.Shortest
import PluginRegistry.Text.Quoted

/-!
# JSON values inside messages

In a message a value is shown on one line: texts are quoted, flags and the null value are words with
a capital letter, lists stand between brackets and objects between braces.
-/

namespace PluginRegistry

/-- A flag as a word. -/
def flagWord (b : Bool) : String := if b then "True" else "False"

namespace Json

mutual

/-- The value as it is shown inside another one. -/
def shown : Json → String
  | .null => "None"
  | .bool b => flagWord b
  | .int n => toString n
  | .float x => x.text
  | .str s => Text.quoted s
  | .arr items => "[" ++ ", ".intercalate (shownItems items) ++ "]"
  | .obj members => "\x7b" ++ ", ".intercalate (shownMembers members) ++ "\x7d"

/-- The items as they are shown. -/
def shownItems : List Json → List String
  | [] => []
  | x :: xs => x.shown :: shownItems xs

/-- The members as they are shown. -/
def shownMembers : List (String × Json) → List String
  | [] => []
  | (k, v) :: rest => (Text.quoted k ++ ": " ++ v.shown) :: shownMembers rest

end

/-- The value as it is shown by itself: a text without quotes, any other value as inside one. -/
def display : Json → String
  | .str s => s
  | value => value.shown

end Json

end PluginRegistry
