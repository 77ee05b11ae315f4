import PluginRegistry.Time.Calendar

/-!
# Moments

A civil time is a date and a time of day to the microsecond. A moment is a civil time with the zone
it is told in, or with none. A zone is its distance from UTC in whole minutes, less than a day.
-/

namespace PluginRegistry

/-- A time of day to the microsecond. -/
structure TimeOfDay where
  hour : Nat
  minute : Nat
  second : Nat
  microsecond : Nat
  inDay : hour < 24 ∧ minute < 60 ∧ second < 60 ∧ microsecond < 1000000
  deriving DecidableEq

/-- The start of a day. -/
def TimeOfDay.midnight : TimeOfDay := ⟨0, 0, 0, 0, by decide⟩

/-- The time of day with these numbers, if there is one. -/
def TimeOfDay.ofParts? (hour minute second microsecond : Nat) : Option TimeOfDay :=
  if h : hour < 24 ∧ minute < 60 ∧ second < 60 ∧ microsecond < 1000000 then
    some ⟨hour, minute, second, microsecond, h⟩
  else none

/-- A date and a time of day, in a zone that is understood. -/
structure CivilTime where
  date : Date
  time : TimeOfDay
  deriving DecidableEq

instance : Inhabited CivilTime := ⟨⟨.epoch, .midnight⟩⟩

/-- How far a zone is ahead of UTC. -/
structure Offset where
  minutes : Int
  withinDay : -1440 < minutes ∧ minutes < 1440
  deriving DecidableEq

/-- No distance: the zone is UTC. -/
def Offset.zero : Offset := ⟨0, by decide⟩

/-- The offset of so many minutes, if that is less than a day. -/
def Offset.ofMinutes? (minutes : Int) : Option Offset :=
  if h : -1440 < minutes ∧ minutes < 1440 then some ⟨minutes, h⟩ else none

/-- A civil time and its zone, if it tells one. -/
structure Moment where
  civil : CivilTime
  offset : Option Offset
  deriving DecidableEq

namespace Moment

/-- The civil time told in UTC. -/
def utc (civil : CivilTime) : Moment := ⟨civil, some .zero⟩

/-- A moment that tells no zone is taken to be told in UTC. -/
def asUtc (m : Moment) : Moment := ⟨m.civil, some (m.offset.getD .zero)⟩

end Moment

/-- `HH:MM:SS`, with six digits after a point unless they are all zero. -/
def TimeOfDay.chars (t : TimeOfDay) : List Char :=
  padded 2 t.hour ++ ':' :: padded 2 t.minute ++ ':' :: padded 2 t.second ++
    (if t.microsecond = 0 then [] else '.' :: padded 6 t.microsecond)

/-- Date and time of day with a `T` between them. -/
def CivilTime.chars (c : CivilTime) : List Char := c.date.chars ++ 'T' :: c.time.chars

/-- The offset as a sign, hours and minutes. -/
def Offset.chars (o : Offset) : List Char :=
  (if o.minutes < 0 then '-' else '+') :: padded 2 (o.minutes.natAbs / 60) ++
    ':' :: padded 2 (o.minutes.natAbs % 60)

namespace Moment

/-- The moment with its zone, where UTC is written `Z`. -/
def chars (m : Moment) : List Char :=
  m.civil.chars ++
    match m.offset with
    | none => []
    | some o => if o.minutes = 0 then ['Z'] else o.chars

/-- The moment as records show it, with UTC written `Z`. -/
def text (m : Moment) : String := String.ofList m.chars

/-- The moment with UTC written as an offset like any other. -/
def isoText (m : Moment) : String :=
  String.ofList (m.civil.chars ++ (m.offset.map Offset.chars).getD [])

/-- The same instant told in UTC, if its date is on the calendar. A moment without a zone is told in
UTC already. -/
def toUtc? (m : Moment) : Option CivilTime :=
  let shift := (m.offset.getD .zero).minutes
  let minuteOfDay := (m.civil.time.hour * 60 + m.civil.time.minute : Nat) - shift
  let days := minuteOfDay.fdiv 1440
  let minute := (minuteOfDay.fmod 1440).toNat
  let date? : Option Date :=
    if days = 0 then some m.civil.date
    else if days < 0 then m.civil.date.previous?
    else m.civil.date.next?
  match date?, TimeOfDay.ofParts? (minute / 60) (minute % 60) m.civil.time.second
      m.civil.time.microsecond with
  | some date, some time => some ⟨date, time⟩
  | _, _ => none

end Moment

end PluginRegistry
