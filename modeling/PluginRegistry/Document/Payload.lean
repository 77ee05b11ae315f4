import PluginRegistry.Document.Basic
import PluginRegistry.Numeral.Limit
import PluginRegistry.Numeral.Shortest
import PluginRegistry.Text.Utf8

/-!
# Documents as JSON

A record keeps the keys it does not declare as JSON values. A document that came from a JSON value
gives that value back. Of the other values, dates and moments become their texts, bytes become the
text they spell, sets become lists, a double that is no number becomes null, and a key that is no
text is spelled out.

Some documents cannot be written: bytes that spell no text, a whole number of too many digits, a
document that holds itself, and one that is nested too deeply.
-/

namespace PluginRegistry

/-- The text that bytes spell; the empty text stands in for bytes that spell none. -/
def bytesText (bytes : List UInt8) : String :=
  match Text.decodeUtf8 bytes with
  | .ok s => s
  | .error _ => ""

namespace Scalar

/-- The scalar as a JSON value. -/
def payload : Scalar → Json
  | .null => .null
  | .bool b => .bool b
  | .int n => .int n
  | .float (.finite x) => .float (.finite x)
  | .float _ => .null
  | .text s => .str s
  | .date d => .str d.text
  | .moment m => .str m.text
  | .bytes bs => .str (bytesText bs)

/-- The scalar as the key of a JSON object. -/
def keyText : Scalar → String
  | .null => "None"
  | .bool b => if b then "true" else "false"
  | .int n => toString n
  | .float x => x.text
  | .text s => s
  | .date d => d.text
  | .moment m => m.text
  | .bytes bs => bytesText bs

end Scalar

namespace Document

mutual

/-- The document as a JSON value. -/
def payload : Document → Json
  | .scalar s => s.payload
  | .list items => .arr (payloads items)
  | .set members => .arr (members.map Scalar.payload)
  | .map entries => .obj (payloadMembers [] entries)
  | .enclosing _ => .null

/-- The items as JSON values. -/
def payloads : List Document → List Json
  | [] => []
  | x :: xs => x.payload :: payloads xs

/-- The members already written, followed by the entries. Two keys of one spelling are one member,
with the later value. -/
def payloadMembers (written : List (String × Json)) :
    List (Scalar × Document) → List (String × Json)
  | [] => written
  | (k, v) :: rest => payloadMembers (putMember k.keyText v.payload written) rest

end

end Document

/-! ## Documents that cannot be written -/

/-- Why a document cannot be written. -/
inductive WriteFault where
  | undecodable (fault : Text.Utf8Fault)
  | digits
  | circular
  | nesting
  deriving DecidableEq

/-- The most levels that a value may have to be written, scalars included. -/
def levelLimit : Nat := 255

/-- The fault in words. -/
def WriteFault.message : WriteFault → String
  | .undecodable fault => fault.describe "invalid utf-8"
  | .digits => digitComplaint none
  | .circular => "Circular reference detected (id repeated)"
  | .nesting => "Maximum serialization depth exceeded"

/-- Why a scalar cannot be written. -/
def Scalar.writeFault? : Scalar → Option WriteFault
  | .bytes bs =>
    match Text.decodeUtf8 bs with
    | .ok _ => none
    | .error fault => some (.undecodable fault)
  | .int n => if n.natAbs < Nat.pow 10 digitLimit then none else some .digits
  | _ => none

namespace Document

mutual

/-- Why a document cannot be written where there is room for so many levels: the first fault in the
order in which the parts are written. -/
def faultWithin? (room : Nat) : Document → Option WriteFault
  | .enclosing _ => some .circular
  | .scalar s => if room = 0 then some .nesting else s.writeFault?
  | .list items => if room = 0 then some .nesting else itemFault? (room - 1) items
  | .set members => if room = 0 then some .nesting else memberFault? (room - 1) members
  | .map entries => if room = 0 then some .nesting else entryFault? (room - 1) entries

/-- The first fault of the items. -/
def itemFault? (room : Nat) : List Document → Option WriteFault
  | [] => none
  | x :: xs => faultWithin? room x <|> itemFault? room xs

/-- The first fault of the members of a set. -/
def memberFault? (room : Nat) : List Scalar → Option WriteFault
  | [] => none
  | x :: xs => (if room = 0 then some .nesting else x.writeFault?) <|> memberFault? room xs

/-- The first fault of the entries, keys before values. -/
def entryFault? (room : Nat) : List (Scalar × Document) → Option WriteFault
  | [] => none
  | (k, v) :: rest => k.writeFault? <|> faultWithin? room v <|> entryFault? room rest

end

mutual

/-- How many levels of collections a document has. -/
def depth : Document → Nat
  | .list items => depthOfItems items + 1
  | .map entries => depthOfEntries entries + 1
  | .set _ => 1
  | .scalar _ | .enclosing _ => 0

/-- The levels of the deepest item. -/
def depthOfItems : List Document → Nat
  | [] => 0
  | x :: xs => max (depth x) (depthOfItems xs)

/-- The levels of the deepest value. -/
def depthOfEntries : List (Scalar × Document) → Nat
  | [] => 0
  | (_, v) :: rest => max (depth v) (depthOfEntries rest)

end

/-- The most levels that a document is copied with. The registry does not set this number. Copying
is recursive, and so many levels are what the limit on recursion leaves to it where a request comes
straight from outside; a caller that is itself deep in calls has fewer. -/
def copyLimit : Nat := 485

/-- Why a document cannot be written. -/
def writeFault? (document : Document) : Option WriteFault := document.faultWithin? levelLimit

end Document

/-! ## Undeclared entries -/

/-- Entries that a record keeps without knowing what they mean, under texts. -/
abbrev Extras := List (String × Document)

namespace Extras

/-- The entries as members of a JSON object. -/
def payload (extras : Extras) : List (String × Json) :=
  extras.map fun extra => (extra.1, extra.2.payload)

/-- The entries can be copied. -/
def canCopy (extras : Extras) : Bool :=
  extras.all fun extra => extra.2.depth ≤ Document.copyLimit

/-- Why the entries cannot be written. -/
def writeFault? (extras : Extras) : Option WriteFault :=
  extras.findSome? fun extra => extra.2.writeFault?

end Extras

end PluginRegistry
