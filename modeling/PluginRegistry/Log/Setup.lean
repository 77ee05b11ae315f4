import PluginRegistry.Log.Format
import PluginRegistry.Text.Case
import PluginRegistry.Text.Digit
import PluginRegistry.Text.Word

/-!
# Setting the log up

A level is named in any case. A format needs one conversion at least: a percent sign, a word in
parentheses, optional flags, width and precision, and a letter. That is looked at when the log is
set up; whether all of the format makes sense shows with the first entry.
-/

namespace PluginRegistry.Log

/-- The levels that the log can be set to, by all their names. -/
inductive Threshold where
  | all
  | from (level : Level)
  deriving DecidableEq, Repr

/-- The threshold of that name. -/
def Threshold.ofName? (name : String) : Option Threshold :=
  match name with
  | "NOTSET" => some .all
  | "DEBUG" => some (.from .debug)
  | "INFO" => some (.from .info)
  | "WARN" | "WARNING" => some (.from .warning)
  | "ERROR" => some (.from .error)
  | "CRITICAL" | "FATAL" => some (.from .critical)
  | _ => none

/-- The name of a threshold. -/
def Threshold.name : Threshold → String
  | .all => "NOTSET"
  | .from level => level.name

/-- The threshold lets entries of a level through. -/
def Threshold.admits (t : Threshold) (level : Level) : Bool :=
  match t with
  | .all => true
  | .from least => least.rank ≤ level.rank

/-- The format of lines when none is given. -/
def usualFormat : String := "%(asctime)s - %(name)s - %(levelname)s - %(message)s"

/-- A letter that a conversion may end with, in either case. The long s counts as S, and an I counts
with and without its dot. -/
def isConversion (c : Char) : Bool := "diouxefgcrsa%ſıİ".toList.contains c.toLower

/-- What follows a word in parentheses at the start of a text. -/
def afterName? : List Char → Option (List Char)
  | '(' :: rest =>
    let name := rest.takeWhile Text.isWord
    match rest.drop name.length with
    | ')' :: rest => if name.isEmpty then none else some rest
    | _ => none
  | _ => none

/-- What follows a star or a number at the start of a text. -/
def afterNumber? : List Char → Option (List Char)
  | '*' :: rest => some rest
  | cs =>
    let rest := cs.dropWhile Text.isDigit
    if rest.length < cs.length then some rest else none

/-- A conversion stands at the start of a text, after its percent sign. -/
def startsConversion (cs : List Char) : Bool :=
  let letter := do
    let rest := (← afterName? cs).dropWhile fun c => "#0+- ".toList.contains c
    let rest := (afterNumber? rest).getD rest
    let rest ← if rest.head? = some '.' then afterNumber? (rest.drop 1) else some rest
    rest.head?
  letter.any isConversion

/-- The text holds a conversion. -/
def hasConversion : List Char → Bool
  | [] => false
  | c :: rest => (c = '%' && startsConversion rest) || hasConversion rest

/-- Why the log cannot be set up. -/
inductive SetupFault where
  | format (text : String)
  | level (name : String)
  deriving DecidableEq, Repr

/-- The fault in words. -/
def SetupFault.message : SetupFault → String
  | .format text => "Invalid format '" ++ text ++ "' for '%' style"
  | .level name => "Unknown level: " ++ Text.quoted name

/-- How the log is set up. -/
structure Setup where
  threshold : Threshold
  format : String
  deriving DecidableEq, Repr

/-- Sets the log up; the format is looked at before the level. -/
def Setup.ofNames (level : String) (format : Option String) : Except SetupFault Setup :=
  let format := match format with
    | some f => if f = "" then usualFormat else f
    | none => usualFormat
  let name := Text.upper level
  if !hasConversion format.toList then .error (.format format)
  else
    match Threshold.ofName? name with
    | some threshold => .ok ⟨threshold, format⟩
    | none => .error (.level name)

/-- The line that the log shows for an entry made at a time, if the format shows entries at all. -/
def Setup.line? (s : Setup) (time : CivilTime) (e : Entry) : Option String := do
  e.show? time (← pieces? s.format)

end PluginRegistry.Log
