-- Days of the calendar, with a time of day or without one, how they are shown, and
-- which of them are the same.

namespace Coffer

structure Clock where
  hour : Nat
  minute : Nat
  second : Nat
  microsecond : Nat
  deriving DecidableEq, Repr

-- An offset in minutes from universal time, if one is given.
structure Moment where
  year : Nat
  month : Nat
  day : Nat
  clock : Option Clock
  offset : Option Int
  deriving DecidableEq, Repr

namespace Moment

def isLeap (year : Nat) : Bool := year % 4 = 0 && (year % 100 ≠ 0 || year % 400 = 0)

def daysIn (year month : Nat) : Nat :=
  if month = 2 then if isLeap year then 29 else 28
  else if month = 4 ∨ month = 6 ∨ month = 9 ∨ month = 11 then 30
  else 31

-- A span of time, shown as whole days and the seconds left over.
def spanShown (minutes : Int) : String :=
  let days := Int.fdiv minutes 1440
  let seconds := 60 * Int.fmod minutes 1440
  let parts :=
    (if days = 0 then [] else [s!"days={days}"]) ++ (if seconds = 0 then [] else [s!"seconds={seconds}"])
  "datetime.timedelta(" ++ (if parts.isEmpty then "0" else ", ".intercalate parts) ++ ")"

def zoneShown (minutes : Int) : String :=
  if minutes = 0 then "datetime.timezone.utc"
  else "datetime.timezone(" ++ spanShown minutes ++ ")"

-- What is wrong with a moment that no calendar or clock has.
def fault? (m : Moment) : Option String :=
  match m.offset with
  | some minutes =>
      if minutes ≤ -1440 ∨ 1440 ≤ minutes then
        some ("offset must be a timedelta strictly between -timedelta(hours=24) and " ++
          "timedelta(hours=24), not " ++ spanShown minutes ++ ".")
      else dateFault
  | none => dateFault
where
  dateFault : Option String :=
    if m.year = 0 then some "year 0 is out of range"
    else if m.month = 0 ∨ 12 < m.month then some "month must be in 1..12"
    else if m.day = 0 ∨ daysIn m.year m.month < m.day then some "day is out of range for month"
    else
      match m.clock with
      | none => none
      | some c =>
          if 23 < c.hour then some "hour must be in 0..23"
          else if 59 < c.minute then some "minute must be in 0..59"
          else if 59 < c.second then some "second must be in 0..59"
          else none

-- The name of the kind of moment, without and with where it belongs.
def plainName (m : Moment) : String := if m.clock.isSome then "datetime" else "date"

def typeName (m : Moment) : String := "datetime." ++ m.plainName

def shown (m : Moment) : String :=
  let date := [m.year, m.month, m.day]
  match m.clock with
  | none => m.typeName ++ "(" ++ ", ".intercalate (date.map toString) ++ ")"
  | some c =>
      let time :=
        if c.microsecond ≠ 0 then [c.hour, c.minute, c.second, c.microsecond]
        else if c.second ≠ 0 then [c.hour, c.minute, c.second]
        else [c.hour, c.minute]
      let zone :=
        match m.offset with
        | none => []
        | some minutes => ["tzinfo=" ++ zoneShown minutes]
      m.typeName ++ "(" ++ ", ".intercalate ((date ++ time).map toString ++ zone) ++ ")"

-- The days from the start of the calendar.
def dayNumber (m : Moment) : Int :=
  let years := m.year - 1
  let months := (List.range (m.month - 1)).foldl (fun n i => n + daysIn m.year (i + 1)) 0
  (365 * years + years / 4 - years / 100 + years / 400 + months + m.day : Nat)

-- The microseconds from the start of the calendar, in universal time if the offset
-- is known.
def instant (m : Moment) (c : Clock) : Int :=
  let minutes := 1440 * m.dayNumber + 60 * c.hour + c.minute - m.offset.getD 0
  1000000 * (60 * minutes + c.second) + c.microsecond

-- Moments with an offset are the same at the same instant. A moment with an offset
-- is never the same as one without, nor is a day the same as a moment in it.
def same (a b : Moment) : Bool :=
  match a.clock, b.clock with
  | none, none => a.dayNumber == b.dayNumber
  | some c, some d => a.offset.isSome == b.offset.isSome && a.instant c == b.instant d
  | _, _ => false

theorem same_self (m : Moment) : m.same m = true := by
  unfold same
  cases m.clock <;> simp

end Moment

end Coffer
