import PluginRegistry.Catalog.Table

/-!
# Tables as files

A database file holds its table as numbers, and a number as octets with seven bits each, the lowest
first, where all but the last octet are marked. The numbers begin with the name of the table. Then
come the rows in the order of their ids, each part of a row behind its kind or its size where it may
be of several. A file without content is a table without rows, and any other file is no database.
-/

namespace PluginRegistry

namespace Archive

/-! ## Numbers as octets -/

/-- The octets of a number. -/
def octetsOf (n : Nat) : List UInt8 :=
  if n < 128 then [n.toUInt8] else (n % 128 + 128).toUInt8 :: octetsOf (n / 128)

/-- The numbers that octets spell, where the first is `low` so far and goes on with multiples of
`scale`. The octets must not end in the middle of a number. -/
def numbersFrom? (low scale : Nat) : List UInt8 → Option (List Nat)
  | [] => if scale = 1 then some [] else none
  | octet :: rest =>
    if octet.toNat < 128 then
      (numbersFrom? 0 1 rest).map fun numbers => (low + scale * octet.toNat) :: numbers
    else numbersFrom? (low + scale * (octet.toNat - 128)) (scale * 128) rest

/-- The numbers that octets spell. -/
def numbers? (octets : List UInt8) : Option (List Nat) := numbersFrom? 0 1 octets

/-! ## Values as numbers -/

/-- A flag as a number. -/
def ofFlag (b : Bool) : Nat := if b then 1 else 0

/-- A whole number as its sign and its size. -/
def ofInt (n : Int) : List Nat := [ofFlag (n < 0), n.natAbs]

/-- A text as its length and its code points. -/
def ofText (s : String) : List Nat := s.length :: s.toList.map Char.toNat

/-- A text that may be missing. -/
def ofText? : Option String → List Nat
  | none => [0]
  | some s => 1 :: ofText s

/-- A time as its parts. -/
def ofTime (c : CivilTime) : List Nat :=
  [c.date.year, c.date.month, c.date.day, c.time.hour, c.time.minute, c.time.second,
    c.time.microsecond]

mutual

/-- A JSON value behind the number of its kind. -/
def ofJson : Json → List Nat
  | .null => [0]
  | .bool b => [1, ofFlag b]
  | .int n => 2 :: ofInt n
  | .float (.finite x) => 3 :: ofFlag x.negative :: x.mantissa :: ofInt x.exponent
  | .float (.infinite negative) => [4, ofFlag negative]
  | .float .notANumber => [5]
  | .str s => 6 :: ofText s
  | .arr items => 7 :: items.length :: ofItems items
  | .obj members => 8 :: members.length :: ofMembers members

/-- The items, one after the other. -/
def ofItems : List Json → List Nat
  | [] => []
  | x :: xs => ofJson x ++ ofItems xs

/-- The members, each behind its key. -/
def ofMembers : List (String × Json) → List Nat
  | [] => []
  | (key, value) :: rest => ofText key ++ (ofJson value ++ ofMembers rest)

end

/-- A row as its parts. -/
def ofRow (row : Row) : List Nat :=
  ofText row.id ++ (ofText? row.service ++ (ofJson row.body ++
    (ofTime row.createdAt ++ ofTime row.lastModified)))

/-! ## Values from numbers -/

/-- Reads a value from the front of the numbers, and leaves the others. -/
abbrev Reader (α : Type) := List Nat → Option (α × List Nat)

/-- Reads so many values. -/
def many {α : Type} (read : Reader α) : Nat → Reader (List α)
  | 0, numbers => some ([], numbers)
  | count + 1, numbers => do
    let (value, numbers) ← read numbers
    let (values, numbers) ← many read count numbers
    return (value :: values, numbers)

/-- Reads a flag. -/
def flag? : Reader Bool
  | 0 :: numbers => some (false, numbers)
  | 1 :: numbers => some (true, numbers)
  | _ => none

/-- Reads a number. -/
def number? : Reader Nat
  | n :: numbers => some (n, numbers)
  | [] => none

/-- Reads a whole number. -/
def int? : Reader Int := fun numbers => do
  let (negative, numbers) ← flag? numbers
  let (size, numbers) ← number? numbers
  return (if negative then -(size : Int) else size, numbers)

/-- Reads a double that is a number. -/
def double? : Reader Binary64 := fun numbers => do
  let (negative, numbers) ← flag? numbers
  let (mantissa, numbers) ← number? numbers
  let (exponent, numbers) ← int? numbers
  return (← Binary64.ofParts? negative mantissa exponent, numbers)

/-- Reads a text. -/
def text? : Reader String := fun numbers => do
  let (length, numbers) ← number? numbers
  let (codes, numbers) ← many number? length numbers
  return (String.ofList (codes.map Char.ofNat), numbers)

/-- Reads a text that may be missing. -/
def maybeText? : Reader (Option String) := fun numbers => do
  let (there, numbers) ← flag? numbers
  if there then
    let (s, numbers) ← text? numbers
    return (some s, numbers)
  else return (none, numbers)

/-- Reads a time. -/
def time? : Reader CivilTime
  | year :: month :: day :: hour :: minute :: second :: microsecond :: numbers => do
    let date ← Date.ofParts? year month day
    let time ← TimeOfDay.ofParts? hour minute second microsecond
    return (⟨date, time⟩, numbers)
  | _ => none

/-- Reads a member of an object, with a reader for its value. -/
def member? (value? : Reader Json) : Reader (String × Json) := fun numbers => do
  let (key, numbers) ← text? numbers
  let (value, numbers) ← value? numbers
  return ((key, value), numbers)

/-- Reads a JSON value that has at most so many levels. -/
def json? : Nat → Reader Json
  | 0, _ => none
  | _ + 1, [] => none
  | levels + 1, kind :: numbers =>
    match kind with
    | 0 => some (.null, numbers)
    | 1 => (flag? numbers).map fun (b, numbers) => (.bool b, numbers)
    | 2 => (int? numbers).map fun (n, numbers) => (.int n, numbers)
    | 3 => (double? numbers).map fun (x, numbers) => (.float (.finite x), numbers)
    | 4 => (flag? numbers).map fun (negative, numbers) => (.float (.infinite negative), numbers)
    | 5 => some (.float .notANumber, numbers)
    | 6 => (text? numbers).map fun (s, numbers) => (.str s, numbers)
    | 7 => do
      let (count, numbers) ← number? numbers
      let (items, numbers) ← many (json? levels) count numbers
      return (.arr items, numbers)
    | 8 => do
      let (count, numbers) ← number? numbers
      let (members, numbers) ← many (member? (json? levels)) count numbers
      return (.obj members, numbers)
    | _ => none

/-- Reads a row. Its body has no more levels than there are numbers. -/
def row? : Reader Row := fun numbers => do
  let (id, numbers) ← text? numbers
  let (service, numbers) ← maybeText? numbers
  let (body, numbers) ← json? numbers.length numbers
  let (createdAt, numbers) ← time? numbers
  let (lastModified, numbers) ← time? numbers
  return (⟨id, service, body, createdAt, lastModified⟩, numbers)

/-- The name at the front of an archive. -/
def heading : String := "plugin_info"

end Archive

namespace Table

open Archive

/-- The table as numbers. -/
def numbers (t : Table) : List Nat := ofText heading ++ t.rows.length :: t.rows.flatMap ofRow

/-- The table that numbers tell, unless its rows are out of order. -/
def ofNumbers? (numbers : List Nat) : Option Table := do
  let (name, numbers) ← text? numbers
  let (count, numbers) ← number? numbers
  let (rows, numbers) ← many row? count numbers
  if h : name = heading ∧ numbers = [] ∧ rows.Pairwise fun a b => a.id < b.id then
    some ⟨rows, h.2.2⟩
  else none

/-- The content of a file that holds the table. -/
def octets (t : Table) : List UInt8 := t.numbers.flatMap octetsOf

/-- The table that a file with this content holds. -/
def ofOctets? (content : List UInt8) : Option Table :=
  if content.isEmpty then some empty else (numbers? content).bind ofNumbers?

end Table

end PluginRegistry
