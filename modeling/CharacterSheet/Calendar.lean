/-!
# Dates and moments

A date is a day of the calendar, a moment a time of day on a date.  A moment may tell how far its
clock is ahead of universal time.
-/

namespace CharacterSheet

/-- Why some numbers are no date or no moment. -/
inductive CalendarFault where
  | noSuchYear | noSuchMonth | noSuchDay
  /-- A part of the time of day is too large. -/
  | noSuchTime (part : String) (last : Nat)
  /-- A clock is ahead or behind by a day or more. -/
  | farOffset (minutes : Int)
  deriving DecidableEq, Repr

namespace Calendar

def padded (width n : Nat) : String :=
  let ds := (toString n).toList
  String.ofList (List.replicate (width - ds.length) '0' ++ ds)

/-- A number of minutes as days and seconds, with less than a day of seconds. -/
def durationLiteral (minutes : Int) : String :=
  let days := minutes / 1440
  let seconds := minutes % 1440 * 60
  let parts := (if days = 0 then [] else ["days=" ++ toString days]) ++
    (if seconds = 0 then [] else ["seconds=" ++ toString seconds])
  "datetime.timedelta(" ++ (if parts.isEmpty then "0" else ", ".intercalate parts) ++ ")"

def isLeap (year : Nat) : Bool := year % 4 = 0 && (year % 100 ≠ 0 || year % 400 = 0)

def daysIn (year month : Nat) : Nat :=
  if month = 2 then if isLeap year then 29 else 28
  else if [4, 6, 9, 11].contains month then 30 else 31

end Calendar

open Calendar

def CalendarFault.message : CalendarFault → String
  | noSuchYear => "year 0 is out of range"
  | noSuchMonth => "month must be in 1..12"
  | noSuchDay => "day is out of range for month"
  | noSuchTime part last => part ++ " must be in 0.." ++ toString last
  | farOffset minutes =>
    "offset must be a timedelta strictly between -timedelta(hours=24) and timedelta(hours=24), not "
      ++ durationLiteral minutes ++ "."

structure Date where
  year : Nat
  month : Nat
  day : Nat
  deriving DecidableEq, Repr

namespace Date

/-- A date from its numbers, if there is such a day. -/
def ofNumbers (year month day : Nat) : Except CalendarFault Date :=
  if year = 0 then .error .noSuchYear
  else if month = 0 || 12 < month then .error .noSuchMonth
  else if day = 0 || daysIn year month < day then .error .noSuchDay
  else .ok { year, month, day }

def text (d : Date) : String :=
  "-".intercalate [padded 4 d.year, padded 2 d.month, padded 2 d.day]

def numbers (d : Date) : List Nat := [d.year, d.month, d.day]

/-- Whether a day is the other one or comes before it. -/
def le (a b : Date) : Bool := !b.numbers.lex a.numbers (· < ·)

def literal (d : Date) : String :=
  "datetime.date(" ++ ", ".intercalate (d.numbers.map toString) ++ ")"

/-- The number of days from the beginning of the calendar. -/
def dayNumber (d : Date) : Nat :=
  let y := d.year - 1
  let before := ((List.range d.month).drop 1).map (daysIn d.year)
  365 * y + y / 4 - y / 100 + y / 400 + before.foldl (· + ·) d.day

end Date

structure Moment where
  date : Date
  hour : Nat
  minute : Nat
  second : Nat
  microsecond : Nat := 0
  /-- The minutes by which the clock is ahead of universal time. -/
  offset : Option Int := none
  deriving DecidableEq, Repr

namespace Moment

def checkPart (part : String) (last n : Nat) : Except CalendarFault Unit :=
  if last < n then .error (.noSuchTime part last) else .ok ()

def checkOffset (offset : Option Int) : Except CalendarFault Unit :=
  match offset with
  | some minutes => if 1440 ≤ minutes.natAbs then .error (.farOffset minutes) else .ok ()
  | none => .ok ()

/-- Whether the parts of a time of day are not too large. -/
def checkTime (hour minute second : Nat) : Except CalendarFault Unit := do
  checkPart "hour" 23 hour
  checkPart "minute" 59 minute
  checkPart "second" 59 second

def offsetText (minutes : Int) : String :=
  let size := minutes.natAbs
  (if minutes < 0 then "-" else "+") ++ padded 2 (size / 60) ++ ":" ++ padded 2 (size % 60)

def text (m : Moment) : String :=
  m.date.text ++ " " ++ ":".intercalate ([m.hour, m.minute, m.second].map (padded 2))
    ++ (if m.microsecond = 0 then "" else "." ++ padded 6 m.microsecond)
    ++ (m.offset.map offsetText).getD ""

/-- The numbers of a moment; zeros at the end are left out, but for hours and minutes. -/
def numbers (m : Moment) : List Nat :=
  m.date.numbers ++ [m.hour, m.minute] ++
    (if m.microsecond ≠ 0 then [m.second, m.microsecond]
    else if m.second ≠ 0 then [m.second] else [])

def zoneLiteral (minutes : Int) : String :=
  "datetime.timezone" ++
    (if minutes = 0 then ".utc" else "(" ++ durationLiteral minutes ++ ")")

def literal (m : Moment) : String :=
  "datetime.datetime(" ++ ", ".intercalate (m.numbers.map toString ++
    (m.offset.map fun o ↦ "tzinfo=" ++ zoneLiteral o).toList) ++ ")"

/-- The seconds from the beginning of the calendar, on the clock of the moment. -/
def clockSeconds (m : Moment) : Int :=
  ((m.date.dayNumber * 24 + m.hour) * 60 + m.minute) * 60 + m.second

/-- The seconds from the beginning of the calendar, in universal time if the offset is known and
else on the clock of the moment. -/
def seconds (m : Moment) : Int := m.clockSeconds - 60 * m.offset.getD 0

/-- Whether two moments are the same point in time.  Without an offset the clocks are compared, and
a moment with an offset is never the same as one without. -/
def same (a b : Moment) : Bool :=
  match a.offset, b.offset with
  | none, none => a == b
  | some _, some _ => a.seconds == b.seconds && a.microsecond == b.microsecond
  | _, _ => false

/-- Whether a moment is the other one or comes before it.  Only two moments with an offset have an
order, and two without. -/
def le (a b : Moment) : Bool :=
  a.seconds < b.seconds || (a.seconds == b.seconds && a.microsecond ≤ b.microsecond)

end Moment

end CharacterSheet
