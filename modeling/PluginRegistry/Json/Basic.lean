import PluginRegistry.Numeral.Binary64

/-!
# JSON values

The values that records are stored as. Whole numbers and doubles are kept apart, so `1` and `1.0`
are different values, and the members of an object keep the order in which they were written. A
double that is no number is a value as well: a message may show one, though no record keeps it.

`Json.alike` is the coarser comparison by which the record table decides whether a body changed:
numbers are compared by value, a flag counts as the number 0 or 1, and the order of members does not
matter.
-/

namespace PluginRegistry

/-- A JSON value. -/
inductive Json where
  | null
  | bool (value : Bool)
  | int (value : Int)
  | float (value : Double)
  | str (value : String)
  | arr (items : List Json)
  | obj (members : List (String × Json))

instance : Inhabited Json := ⟨.null⟩

namespace Json

/-- A text, or null when there is none. -/
def ofText? : Option String → Json
  | some s => .str s
  | none => .null

/-- The value, unless it is null. -/
def toOption : Json → Option Json
  | .null => none
  | value => some value

/-- The member of an object under a key. -/
def get? (key : String) : Json → Option Json
  | .obj members => members.lookup key
  | _ => none

/-- Numerator and denominator of the number that the value is, where a flag is 0 or 1. -/
def asRatio? : Json → Option (Int × Nat)
  | .bool b => some (if b then 1 else 0, 1)
  | .int n => some (n, 1)
  | .float (.finite x) => some x.ratio
  | _ => none

/-- The value counts as true: a number that is not zero, or a text, list or object that is not
empty. -/
def truthy : Json → Bool
  | .null => false
  | .bool b => b
  | .int n => n ≠ 0
  | .float (.finite x) => x.mantissa ≠ 0
  | .float _ => true
  | .str s => s ≠ ""
  | .arr items => !items.isEmpty
  | .obj members => !members.isEmpty

/-- Both values are numbers, and the same one. -/
def sameNumber (a b : Json) : Bool :=
  match a.asRatio?, b.asRatio? with
  | some x, some y => x.1 * (y.2 : Int) = y.1 * (x.2 : Int)
  | _, _ => false

mutual

/-- The values are the same up to the kind of number and the order of members. -/
def alike : Json → Json → Bool
  | .null, .null => true
  | .str s, .str t => s = t
  | .arr xs, .arr ys => alikeItems xs ys
  | .obj ms, .obj ns => ms.length = ns.length && alikeMembers ms ns
  | a, b => sameNumber a b

/-- The items are alike one by one. -/
def alikeItems : List Json → List Json → Bool
  | [], [] => true
  | x :: xs, y :: ys => alike x y && alikeItems xs ys
  | _, _ => false

/-- Each of the members has one of its key among `others`, with a value alike. -/
def alikeMembers : List (String × Json) → List (String × Json) → Bool
  | [], _ => true
  | (key, value) :: rest, others =>
    (match others.lookup key with
      | some other => alike value other
      | none => false) && alikeMembers rest others

end

end Json

/-- Puts a value under a key: in place of the one that is there, or at the end. -/
def putMember {α : Type} (key : String) (value : α) : List (String × α) → List (String × α)
  | [] => [(key, value)]
  | (k, v) :: rest =>
    if k = key then (key, value) :: rest else (k, v) :: putMember key value rest

end PluginRegistry
