import PluginRegistry.Time.Moment
import PluginRegistry.Numeral.Binary64

/-!
# Reading moments

A moment is written as a date, one of the separators `T`, `t`, space and `_`, and a time of day with
an optional zone; or as a date alone, which means its midnight; or as a number of seconds since the
start of 1970 in UTC. Numbers beyond twenty thousand million count milliseconds instead.

Texts are read octet by octet in UTF-8, so that lengths are lengths in octets.
-/

namespace PluginRegistry

/-- Why a text or number is no date. -/
inductive DateFault where
  | tooShort
  | yearDigit
  | separator
  | monthDigit
  | monthRange
  | dayDigit
  | dayRange
  | trailing
  | beyondCalendar
  | beforeCalendar
  | yearZero
  | notANumber
  deriving DecidableEq

/-- The reason in words. -/
def DateFault.message : DateFault → String
  | .tooShort => "input is too short"
  | .yearDigit => "invalid character in year"
  | .separator => "invalid date separator, expected `-`"
  | .monthDigit => "invalid character in month"
  | .monthRange => "month value is outside expected range of 1-12"
  | .dayDigit => "invalid character in day"
  | .dayRange => "day value is outside expected range"
  | .trailing => "unexpected extra characters at the end of the input"
  | .beyondCalendar => "dates after 9999 are not supported as unix timestamps"
  | .beforeCalendar => "dates before 0000 are not supported as unix timestamps"
  | .yearZero => "year 0 is out of range"
  | .notANumber => "NaN values not permitted"

/-- Why a value is no moment: it is of a kind that tells no time, it tells a time that does not
exist, or its text is neither a moment nor a date. -/
inductive MomentFault where
  | wrongKind
  | impossible (reason : DateFault)
  | neitherNorDate (reason : DateFault)
  deriving DecidableEq

namespace Reading

/-- The octets of a character in UTF-8, each as the character of that code. -/
def octetsOf (c : Char) : List Char :=
  let n := c.toNat
  if n < 0x80 then [c]
  else if n < 0x800 then [Char.ofNat (0xC0 + n / 64), Char.ofNat (0x80 + n % 64)]
  else if n < 0x10000 then
    [Char.ofNat (0xE0 + n / 4096), Char.ofNat (0x80 + n / 64 % 64), Char.ofNat (0x80 + n % 64)]
  else
    [Char.ofNat (0xF0 + n / 262144), Char.ofNat (0x80 + n / 4096 % 64),
      Char.ofNat (0x80 + n / 64 % 64), Char.ofNat (0x80 + n % 64)]

/-- The octets of a text. -/
def octets (text : String) : List Char := text.toList.flatMap octetsOf

/-- The value of an ASCII digit. -/
def digit? (c : Char) : Option Nat :=
  if '0'.toNat ≤ c.toNat ∧ c.toNat ≤ '9'.toNat then some (c.toNat - '0'.toNat) else none

/-- The number that the digits denote, if all of them are digits. -/
def number? (cs : List Char) : Option Nat :=
  cs.foldl (fun total c => do return 10 * (← total) + (← digit? c)) (some 0)

/-- Year, month and day at the start of a text, and what follows them. The faults are looked for
from left to right, the ranges last. -/
def dateParts : List Char → Except DateFault ((Nat × Nat × Nat) × List Char)
  | y₁ :: y₂ :: y₃ :: y₄ :: s₁ :: m₁ :: m₂ :: s₂ :: d₁ :: d₂ :: rest => do
    let some year := number? [y₁, y₂, y₃, y₄] | throw .yearDigit
    if s₁ ≠ '-' then throw .separator
    let some month := number? [m₁, m₂] | throw .monthDigit
    if s₂ ≠ '-' then throw .separator
    let some day := number? [d₁, d₂] | throw .dayDigit
    if month < 1 ∨ 12 < month then throw .monthRange
    if day < 1 ∨ daysInMonth year month < day then throw .dayRange
    return ((year, month, day), rest)
  | _ => throw .tooShort

/-- The date with parts that `dateParts` gave; only the year 0 is none. -/
def dateOf (parts : Nat × Nat × Nat) : Except DateFault Date :=
  match Date.ofParts? parts.1 parts.2.1 parts.2.2 with
  | some date => return date
  | none => throw .yearZero

/-- Microseconds from the digits after the point: the first six, filled up with zeros. -/
def microseconds? (digits : List Char) : Option Nat :=
  if digits.isEmpty then none else number? ((digits ++ List.replicate 6 '0').take 6)

/-- The time of day at the start of a text, and what follows it. Seconds may be left out, and their
fraction may follow a point or a comma. -/
def timeOfDay? : List Char → Option (TimeOfDay × List Char)
  | h₁ :: h₂ :: ':' :: m₁ :: m₂ :: rest => do
    let hour ← number? [h₁, h₂]
    let minute ← number? [m₁, m₂]
    match rest with
    | ':' :: s₁ :: s₂ :: rest => do
      let second ← number? [s₁, s₂]
      match rest with
      | point :: fraction =>
        if point = '.' ∨ point = ',' then do
          let digits := fraction.takeWhile Char.isDigit
          let time ← TimeOfDay.ofParts? hour minute second (← microseconds? digits)
          return (time, fraction.dropWhile Char.isDigit)
        else return (← TimeOfDay.ofParts? hour minute second 0, rest)
      | [] => return (← TimeOfDay.ofParts? hour minute second 0, [])
    | ':' :: _ => none
    | _ => return (← TimeOfDay.ofParts? hour minute 0 0, rest)
  | _ => none

/-- Hours and minutes of an offset, with or without a colon between them. -/
def offsetMinutes? : List Char → Option Nat
  | [h₁, h₂, ':', m₁, m₂] | [h₁, h₂, m₁, m₂] => do
    let minutes ← number? [m₁, m₂]
    if minutes < 60 then return 60 * (← number? [h₁, h₂]) + minutes else none
  | _ => none

/-- The zone that the rest of a text tells: none, UTC or an offset. The sign may be the minus of
mathematics. -/
def zone? : List Char → Option (Option Offset)
  | [] => some none
  | ['Z'] | ['z'] => some (some .zero)
  | '+' :: rest => do return some (← Offset.ofMinutes? (← offsetMinutes? rest))
  | '-' :: rest | '\u00e2' :: '\u0088' :: '\u0092' :: rest => do
    return some (← Offset.ofMinutes? (-(← offsetMinutes? rest)))
  | _ => none

/-- A date, a separator and a time of day, as parts. -/
def momentParts? (cs : List Char) :
    Option ((Nat × Nat × Nat) × TimeOfDay × Option Offset) :=
  match dateParts cs with
  | .ok (parts, separator :: rest) =>
    if separator = 'T' ∨ separator = 't' ∨ separator = ' ' ∨ separator = '_' then do
      let (time, rest) ← timeOfDay? rest
      return (parts, time, ← zone? rest)
    else none
  | _ => none

/-! ## Numbers of seconds -/

/-- The moment so many seconds and microseconds after the start of 1970. -/
def momentOfSeconds (seconds : Int) (micros : Nat) : Except DateFault Moment :=
  let total := seconds + micros / 1000000
  let micro := micros % 1000000
  if total < -62167219200 then throw .beforeCalendar
  else if 253402300799 < total then throw .beyondCalendar
  else
    let (year, month, day) := Date.civilOfDayCount (total.fdiv 86400)
    let second := (total.fmod 86400).toNat
    match Date.ofParts? year.toNat month day,
        TimeOfDay.ofParts? (second / 3600) (second / 60 % 60) (second % 60) micro with
    | some date, some time => return .utc ⟨date, time⟩
    | _, _ => throw .yearZero

/-- The largest number that still counts seconds. -/
def secondsLimit : Nat := 20000000000

/-- The moment of a whole number. -/
def momentOfNumber (n : Int) : Except DateFault Moment :=
  if n.natAbs ≤ secondsLimit then momentOfSeconds n 0
  else momentOfSeconds (n.fdiv 1000) ((n.fmod 1000).toNat * 1000)

/-- A fraction of a second in microseconds: the fraction and the product as doubles, rounded with
halves going up. -/
def microsecondsOf (num den : Nat) : Nat :=
  let product := do
    let fraction ← Binary64.nearest? false num den
    Binary64.nearest? false (fraction.ratio.1.natAbs * 1000000) fraction.ratio.2
  match product with
  | some x => ((2 * x.ratio.1 + x.ratio.2).toNat) / (2 * x.ratio.2)
  | none => 0

/-- The moment of a finite double. The fraction is counted from the second before. -/
def momentOfFinite (x : Binary64) : Except DateFault Moment :=
  let (num, den) := x.ratio
  let inMillis := secondsLimit * den < num.natAbs
  let scaled := if inMillis then Binary64.nearest? x.negative num.natAbs (den * 1000) else some x
  match scaled with
  | none => throw .beyondCalendar
  | some y =>
    momentOfSeconds y.floor (microsecondsOf (y.ratio.1.fmod y.ratio.2).toNat y.ratio.2)

/-- The moment of a double. -/
def momentOfDouble : Double → Except DateFault Moment
  | .notANumber => throw .notANumber
  | .infinite negative => throw (if negative then .beforeCalendar else .beyondCalendar)
  | .finite x => momentOfFinite x

/-- The moment of a whole number that a document holds; one that no double comes near is of the
wrong kind. -/
def momentOfInt (n : Int) : Except MomentFault Moment :=
  if -(Nat.pow 2 63 : Int) ≤ n ∧ n < Nat.pow 2 63 then (momentOfNumber n).mapError .impossible
  else
    match Binary64.ofInt? n with
    | some x => (momentOfFinite x).mapError .impossible
    | none => throw .wrongKind

/-- A text that is a number: whole, or with a point. -/
inductive Numeric where
  | whole (n : Int)
  | decimal (x : Double)

/-- The exponent that ends a number: nothing, or a letter, an optional sign and digits. -/
def exponent? : List Char → Option Int
  | [] => some 0
  | e :: rest => do
    let negative := rest.head? = some '-'
    let digits := if negative ∨ rest.head? = some '+' then rest.drop 1 else rest
    if (e ≠ 'e' ∧ e ≠ 'E') ∨ digits.isEmpty then none
    let n ← number? digits
    return if negative then -(n : Int) else n

/-- The number that the whole text denotes: digits after an optional sign, which fit in 64 bits, or
digits with a point before, among or after them and an optional exponent. -/
def numeric? (cs : List Char) : Option Numeric := do
  let negative := cs.head? = some '-'
  let body := if negative ∨ cs.head? = some '+' then cs.drop 1 else cs
  let whole := body.takeWhile Char.isDigit
  match body.drop whole.length with
  | [] =>
    let n : Int := ← if whole.isEmpty then none else number? whole
    let n := if negative then -n else n
    if -(Nat.pow 2 63 : Int) ≤ n ∧ n < Nat.pow 2 63 then return .whole n else none
  | '.' :: rest =>
    let places := rest.takeWhile Char.isDigit
    if whole.isEmpty ∧ places.isEmpty then none
    let exponent ← exponent? (rest.drop places.length)
    return .decimal (.ofDecimal negative (← number? (whole ++ places)) (exponent - places.length))
  | _ => none

/-! ## Texts -/

/-- The fault of a text that is no moment: the one it shows as a date, or the midnight of that
date. -/
def dateAlone (cs : List Char) : Except MomentFault Moment :=
  match dateParts cs with
  | .ok (parts, []) =>
    match dateOf parts with
    | .ok date => return ⟨⟨date, .midnight⟩, none⟩
    | .error e => throw (.impossible e)
  | .ok _ => throw (.neitherNorDate .trailing)
  | .error e => throw (.neitherNorDate e)

/-- Reads a text as a moment. -/
def momentOfText (text : String) : Except MomentFault Moment :=
  let cs := octets text
  match momentParts? cs with
  | some (parts, time, offset) =>
    match dateOf parts with
    | .ok date => return ⟨⟨date, time⟩, offset⟩
    | .error e => throw (.impossible e)
  | none =>
    match numeric? cs with
    | some (.whole n) =>
      match momentOfNumber n with
      | .ok m => return m
      | .error .yearZero => throw (.impossible .yearZero)
      | .error e => throw (.neitherNorDate e)
    | some (.decimal x) =>
      match momentOfDouble x with
      | .ok m => return m
      | .error .yearZero => throw (.impossible .yearZero)
      | .error _ => dateAlone cs
    | none => dateAlone cs

end Reading

end PluginRegistry
