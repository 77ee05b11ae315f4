import PluginRegistry.Document.Payload
import PluginRegistry.Schema.Fault

/-!
# Reading fields

A field is looked up under its key and, when that is not there, under its name; a document may use
either. The entries that no field took are kept as they are.

Text fields take texts only. A flag may also be written as 0 or 1 or as one of a few words, and a
moment as a date, as a text, or as a number of seconds.
-/

namespace PluginRegistry.Schema

/-- A declared field: the key that it is written under, and the name it has besides. -/
structure Field where
  key : String
  name : String
  deriving DecidableEq

/-- The entries of a document. -/
abbrev Entries := List (Scalar × Document)

/-- The value of a key. -/
def lookup (entries : Entries) (key : String) : Option Document :=
  (entries.find? fun entry => entry.1 = .text key).map (·.2)

/-- The key that a field is found under, and its value. -/
def Field.find? (field : Field) (entries : Entries) : Option (String × Document) :=
  match lookup entries field.key with
  | some value => some (field.key, value)
  | none => (lookup entries field.name).map (field.name, ·)

/-- Reads the value of a field that may be left out. -/
def optional {α : Type} (entries : Entries) (field : Field) (absent : α)
    (read : Document → Checked α) : Checked α :=
  match field.find? entries with
  | some (key, value) => (read value).within (.member key)
  | none => .ok absent

/-- Reads the value of a field that has to be there. -/
def required {α : Type} (entries : Entries) (field : Field) (read : Document → Checked α) :
    Checked α :=
  match field.find? entries with
  | some (key, value) => (read value).within (.member key)
  | none => (Checked.fail .missing).within (.member field.key)

/-! ## Kinds of values -/

/-- The text that a scalar is; bytes are the text they spell. -/
def textOf? : Scalar → Option (Except Text.Utf8Fault String)
  | .text s => some (.ok s)
  | .bytes octets => some (Text.decodeUtf8 octets)
  | _ => none

/-- A text. -/
def text : Document → Checked String
  | .scalar value =>
    match textOf? value with
    | some (.ok s) => .ok s
    | some (.error _) => .fail .undecodable
    | none => .fail .noText
  | _ => .fail .noText

/-- A value that may be null. -/
def nullable {α : Type} (read : Document → Checked α) : Document → Checked (Option α)
  | .scalar .null => .ok none
  | value => (read value).map some

/-- A text that is not empty. Its length counts, so it has to have octets, and a text with a half,
or with a character that is taken for one, has none. -/
def nonemptyText (value : Document) : Checked String :=
  (text value).andThen fun s =>
    if (Text.half? s).isSome then .fail .undecodable
    else if s = "" then .fail (.tooShort 1)
    else .ok s

/-- The words for a flag, in lower case. -/
def flagOfWord? (word : String) : Option Bool :=
  let small := String.ofList (word.toList.map Char.toLower)
  if ["0", "off", "f", "false", "n", "no"].contains small then some false
  else if ["1", "on", "t", "true", "y", "yes"].contains small then some true
  else none

/-- The flag that a whole number of 64 bits is. -/
def flagOfInt (n : Int) : Checked Bool :=
  if n = 0 then .ok false
  else if n = 1 then .ok true
  else if -0x8000000000000000 ≤ n ∧ n < 0x8000000000000000 then .fail .unknownFlag
  else .fail .noFlag

/-- A flag. -/
def flag : Document → Checked Bool
  | .scalar (.bool b) => .ok b
  | .scalar (.int n) => flagOfInt n
  | .scalar (.float (.finite x)) =>
    match x.toInt? with
    | some n => flagOfInt n
    | none => .fail .noFlag
  | .scalar value =>
    match textOf? value with
    | some (.ok word) =>
      match flagOfWord? word with
      | some b => .ok b
      | none => .fail .unknownFlag
    | some (.error _) => .fail .undecodable
    | none => .fail .noFlag
  | _ => .fail .noFlag

/-- The moment that was read, or the cause. -/
def momentOr (result : Except MomentFault Moment) : Checked Moment :=
  match result with
  | .ok m => .ok m
  | .error fault => .fail (.noMoment fault)

/-- A moment. -/
def moment : Document → Checked Moment
  | .scalar (.moment m) => .ok m
  | .scalar (.date d) => .ok ⟨⟨d, .midnight⟩, none⟩
  | .scalar (.int n) => momentOr (Reading.momentOfInt n)
  | .scalar (.float x) => momentOr ((Reading.momentOfDouble x).mapError .impossible)
  | .scalar value =>
    match textOf? value with
    | some (.ok s) => momentOr (Reading.momentOfText s)
    | some (.error _) | none => .fail (.noMoment .wrongKind)
  | _ => .fail (.noMoment .wrongKind)

/-- The items of a list, one by one. -/
def itemsFrom {α : Type} (read : Document → Checked α) (index : Nat) :
    List Document → List (Checked α)
  | [] => []
  | item :: rest => (read item).within (.item index) :: itemsFrom read (index + 1) rest

/-- A list, each of whose items is read. -/
def list {α : Type} (read : Document → Checked α) : Document → Checked (List α)
  | .list items => .all (itemsFrom read 0 items)
  | .set members => .all (itemsFrom read 0 (members.map .scalar))
  | _ => .fail .noList

/-! ## Entries that are not declared -/

/-- The keys under which the fields were found. -/
def taken (fields : List Field) (entries : Entries) : List String :=
  fields.filterMap fun field => (field.find? entries).map (·.1)

/-- The entries that no field took, after those that are kept already. -/
def extrasFrom (taken : List String) (kept : Extras) : Entries → Extras
  | [] => kept
  | (key, value) :: rest =>
    match textOf? key with
    | some (.ok name) =>
      if taken.contains name then extrasFrom taken kept rest
      else extrasFrom taken (putMember name value kept) rest
    | _ => extrasFrom taken kept rest

/-- One fault for every key that is no text. -/
def keyFaults (entries : Entries) : List Fault :=
  entries.filterMap fun entry =>
    match textOf? entry.1 with
    | some (.ok _) => none
    | _ => some ⟨[.member entry.1.keyText], .noKey⟩

/-- The entries that no field took. -/
def extras (fields : List Field) (entries : Entries) : Checked Extras :=
  match keyFaults entries with
  | [] => .ok (extrasFrom (taken fields entries) [] entries)
  | faults => .wrong faults

end PluginRegistry.Schema
