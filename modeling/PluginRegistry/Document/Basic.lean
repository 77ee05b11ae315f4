import PluginRegistry.Json.Basic
import PluginRegistry.Time.Moment

/-!
# Documents

What a document file holds once it is read. Beside the JSON values there are dates and moments, raw
bytes, and sets; and the keys of a mapping may be any scalar, compared by value, so that `1`, `1.0`
and `true` are one key. A document may hold itself: inside it, a list or mapping that it stands in
is told only by its kind.
-/

namespace PluginRegistry

/-- A value without parts. -/
inductive Scalar where
  | null
  | bool (value : Bool)
  | int (value : Int)
  | float (value : Double)
  | text (value : String)
  | date (value : Date)
  | moment (value : Moment)
  | bytes (value : List UInt8)
  deriving DecidableEq

/-- A document or a part of one. -/
inductive Document where
  | scalar (value : Scalar)
  | list (items : List Document)
  | set (members : List Scalar)
  | map (entries : List (Scalar × Document))
  | enclosing (kind : String)

instance : Inhabited Document := ⟨.scalar .null⟩

namespace Scalar

/-- Numerator and denominator of the number that the scalar is, where a flag is 0 or 1. -/
def asRatio? : Scalar → Option (Int × Nat)
  | .bool b => some (if b then 1 else 0, 1)
  | .int n => some (n, 1)
  | .float (.finite x) => some x.ratio
  | _ => none

/-- The scalars are one key of a mapping. -/
def sameKey (a b : Scalar) : Bool :=
  match a.asRatio?, b.asRatio? with
  | some x, some y => x.1 * (y.2 : Int) = y.1 * (x.2 : Int)
  | _, _ => a = b

end Scalar

namespace Document

/-- A text. -/
abbrev text (s : String) : Document := .scalar (.text s)

/-- Puts a value under a key. A key that is there already keeps its place and its spelling. -/
def put (key : Scalar) (value : Document) : List (Scalar × Document) → List (Scalar × Document)
  | [] => [(key, value)]
  | (k, v) :: rest =>
    if k.sameKey key then (k, value) :: rest else (k, v) :: put key value rest

/-- The entries one after the other, where a later one replaces an earlier one of its key. -/
def ofEntries (entries : List (Scalar × Document)) : Document :=
  .map (entries.foldl (fun all e => put e.1 e.2 all) [])

/-- The set of the scalars, each once. -/
def ofMembers (members : List Scalar) : Document :=
  .set (members.foldl (fun all m => if all.any (·.sameKey m) then all else all ++ [m]) [])

/-- The name of the kind of value. -/
def kind : Document → String
  | .scalar .null => "NoneType"
  | .scalar (.bool _) => "bool"
  | .scalar (.int _) => "int"
  | .scalar (.float _) => "float"
  | .scalar (.text _) => "str"
  | .scalar (.date _) => "date"
  | .scalar (.moment _) => "datetime"
  | .scalar (.bytes _) => "bytes"
  | .list _ => "list"
  | .set _ => "set"
  | .map _ => "dict"
  | .enclosing kind => kind

end Document

mutual

/-- A JSON value as a document. -/
def Json.toDocument : Json → Document
  | .null => .scalar .null
  | .bool b => .scalar (.bool b)
  | .int n => .scalar (.int n)
  | .float x => .scalar (.float x)
  | .str s => .text s
  | .arr items => .list (Json.toDocuments items)
  | .obj members => .map (Json.toEntries members)

/-- The items as documents. -/
def Json.toDocuments : List Json → List Document
  | [] => []
  | x :: xs => x.toDocument :: Json.toDocuments xs

/-- The members as entries with texts for keys. -/
def Json.toEntries : List (String × Json) → List (Scalar × Document)
  | [] => []
  | (k, v) :: rest => (.text k, v.toDocument) :: Json.toEntries rest

end

end PluginRegistry
