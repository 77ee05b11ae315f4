import PluginRegistry.Time.Reading

/-!
# Why a document is no record

A document is held against the declared fields of a record. Every field is looked at, and each one
that is wrong gives a fault: the place of the value and the cause.
-/

namespace PluginRegistry.Schema

/-- A step from a record to one of its parts. -/
inductive Step where
  | member (name : String)
  | item (index : Nat)
  deriving DecidableEq

/-- What is wrong with a value. -/
inductive Cause where
  | missing
  | noText
  | undecodable
  | tooShort (least : Nat)
  | noRecord (model : String)
  | noList
  | noFlag
  | unknownFlag
  | noMoment (fault : MomentFault)
  | noKey
  | refused (reason : String)
  deriving DecidableEq

/-- The name of the cause. -/
def Cause.name : Cause → String
  | .missing => "missing"
  | .noText => "string_type"
  | .undecodable => "string_unicode"
  | .tooShort _ => "string_too_short"
  | .noRecord _ => "model_type"
  | .noList => "list_type"
  | .noFlag => "bool_type"
  | .unknownFlag => "bool_parsing"
  | .noMoment .wrongKind => "datetime_type"
  | .noMoment (.impossible _) => "datetime_parsing"
  | .noMoment (.neitherNorDate _) => "datetime_from_date_parsing"
  | .noKey => "invalid_key"
  | .refused _ => "value_error"

/-- The cause in words. -/
def Cause.message : Cause → String
  | .missing => "Field required"
  | .noText => "Input should be a valid string"
  | .undecodable => "Input should be a valid string, unable to parse raw data as a unicode string"
  | .tooShort least =>
    s!"String should have at least {least} character" ++ (if least = 1 then "" else "s")
  | .noRecord model => "Input should be a valid dictionary or instance of " ++ model
  | .noList => "Input should be a valid list"
  | .noFlag => "Input should be a valid boolean"
  | .unknownFlag => "Input should be a valid boolean, unable to interpret input"
  | .noMoment .wrongKind => "Input should be a valid datetime"
  | .noMoment (.impossible reason) => "Input should be a valid datetime, " ++ reason.message
  | .noMoment (.neitherNorDate reason) =>
    "Input should be a valid datetime or date, " ++ reason.message
  | .noKey => "Keys should be strings"
  | .refused reason => "Value error, " ++ reason

/-- A cause and the place of the value, from the record inwards. -/
structure Fault where
  place : List Step
  cause : Cause
  deriving DecidableEq

/-- The fault of a part, seen from the record that has it. -/
def Fault.within (step : Step) (f : Fault) : Fault := { f with place := step :: f.place }

/-- Every fault of a document that was to be a record of a kind. -/
structure Rejection where
  model : String
  faults : List Fault
  deriving DecidableEq

/-- How many faults there are, in words. -/
def Rejection.message (r : Rejection) : String :=
  let count := r.faults.length
  s!"{count} validation error" ++ (if count = 1 then "" else "s") ++ " for " ++ r.model

/-- A value that was read, or the faults that were found instead. -/
inductive Checked (α : Type) where
  | ok (value : α)
  | wrong (faults : List Fault)

namespace Checked

variable {α β : Type}

/-- A fault at the place itself. -/
def fail (cause : Cause) : Checked α := .wrong [⟨[], cause⟩]

/-- The faults that were found. -/
def faults : Checked α → List Fault
  | .ok _ => []
  | .wrong faults => faults

/-- Applies a function to a value that was read. -/
def map (f : α → β) : Checked α → Checked β
  | .ok a => .ok (f a)
  | .wrong faults => .wrong faults

/-- Applies a function that was read to a value that was read. The faults of both are kept. -/
def apply (f : Checked (α → β)) (x : Checked α) : Checked β :=
  match f, x with
  | .ok g, .ok a => .ok (g a)
  | f, x => .wrong (f.faults ++ x.faults)

instance : Applicative Checked where
  pure := .ok
  map := map
  seq f x := apply f (x ())

/-- Goes on with a value that was read. -/
def andThen (x : Checked α) (f : α → Checked β) : Checked β :=
  match x with
  | .ok a => f a
  | .wrong faults => .wrong faults

/-- Notes that the value is a part of a record. -/
def within (step : Step) : Checked α → Checked α
  | .ok a => .ok a
  | .wrong faults => .wrong (faults.map (·.within step))

/-- Every value, or the faults of all. -/
def all : List (Checked α) → Checked (List α)
  | [] => .ok []
  | x :: xs => apply (x.map List.cons) (all xs)

/-- The value, or the rejection for the kind of record. -/
def forRecord (model : String) : Checked α → Except Rejection α
  | .ok a => .ok a
  | .wrong faults => .error ⟨model, faults⟩

end Checked

end PluginRegistry.Schema
