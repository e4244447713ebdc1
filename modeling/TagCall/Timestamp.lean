import TagCall.Text.Digit

/-!
Dates, and moments: a date with the time of day, which may tell how far its clock is ahead of
universal time. Dates are ordered among themselves, and so are moments without an offset; moments
with an offset are ordered by the instants they name.
-/

namespace TagCall

/-- Whether a year has a 29 February. -/
def isLeapYear (year : Nat) : Bool :=
  year % 4 = 0 && (year % 100 ≠ 0 || year % 400 = 0)

/-- The number of days in a month; January is 1. -/
def daysInMonth (year : Nat) : Nat → Nat
  | 2 => if isLeapYear year then 29 else 28
  | 4 | 6 | 9 | 11 => 30
  | _ => 31

/-- A day of the Gregorian calendar, in the years of at most four digits. -/
structure Date where
  year : Nat
  month : Nat
  day : Nat
  inCalendar : (1 ≤ year ∧ year ≤ 9999) ∧ (1 ≤ month ∧ month ≤ 12) ∧
    1 ≤ day ∧ day ≤ daysInMonth year month
  deriving DecidableEq, Repr

/-- A time of day. -/
structure Clock where
  hour : Nat
  minute : Nat
  second : Nat
  microsecond : Nat
  inDay : hour < 24 ∧ minute < 60 ∧ second < 60 ∧ microsecond < 1000000
  deriving DecidableEq, Repr

/-- How many minutes a clock is ahead of universal time: by less than a day, or behind it. -/
structure Offset where
  minutes : Int
  lessThanDay : minutes.natAbs < 1440
  deriving DecidableEq, Repr

structure Moment where
  date : Date
  clock : Clock
  offset : Option Offset
  deriving DecidableEq, Repr

inductive Timestamp where
  | date (d : Date)
  | moment (m : Moment)
  deriving DecidableEq, Repr

private def decimal (width n : Nat) : String :=
  String.ofList (Text.padded 10 width n)

private def listed (ns : List Nat) : String :=
  ", ".intercalate (ns.map (decimal 1))

namespace Date

def ofNumbers? (year month day : Nat) : Option Date :=
  if h : (1 ≤ year ∧ year ≤ 9999) ∧ (1 ≤ month ∧ month ≤ 12) ∧
      1 ≤ day ∧ day ≤ daysInMonth year month then
    some ⟨year, month, day, h⟩
  else none

/-- The number of days before a day, from the start of year 1. -/
def daysBefore (d : Date) : Nat :=
  let years := d.year - 1
  let inYears := 365 * years + years / 4 - years / 100 + years / 400
  let inMonths := (List.range (d.month - 1)).foldl (fun n m => n + daysInMonth d.year (m + 1)) 0
  inYears + inMonths + (d.day - 1)

def toText (d : Date) : String :=
  decimal 4 d.year ++ "-" ++ decimal 2 d.month ++ "-" ++ decimal 2 d.day

def describe (d : Date) : String :=
  "datetime.date(" ++ listed [d.year, d.month, d.day] ++ ")"

end Date

namespace Clock

def ofNumbers? (hour minute second microsecond : Nat) : Option Clock :=
  if h : hour < 24 ∧ minute < 60 ∧ second < 60 ∧ microsecond < 1000000 then
    some ⟨hour, minute, second, microsecond, h⟩
  else none

/-- The numbers of a time of day, without zeros for the second and its parts at the end. -/
def numbers (c : Clock) : List Nat :=
  if c.microsecond ≠ 0 then [c.hour, c.minute, c.second, c.microsecond]
  else if c.second ≠ 0 then [c.hour, c.minute, c.second]
  else [c.hour, c.minute]

/-- The time of day. Parts of a second are told if there are any. -/
def toText (c : Clock) : String :=
  decimal 2 c.hour ++ ":" ++ decimal 2 c.minute ++ ":" ++ decimal 2 c.second ++
    if c.microsecond ≠ 0 then "." ++ decimal 6 c.microsecond else ""

end Clock

namespace Offset

def ofMinutes? (minutes : Int) : Option Offset :=
  if h : minutes.natAbs < 1440 then some ⟨minutes, h⟩ else none

def toText (o : Offset) : String :=
  let n := o.minutes.natAbs
  (if o.minutes < 0 then "-" else "+") ++ decimal 2 (n / 60) ++ ":" ++ decimal 2 (n % 60)

/-- An offset as messages show it. One behind universal time is a day back and seconds forward. -/
def describe (o : Offset) : String :=
  if o.minutes = 0 then "datetime.timezone.utc"
  else
    "datetime.timezone(datetime.timedelta(" ++ (if o.minutes < 0 then "days=-1, " else "") ++
      "seconds=" ++ decimal 1 ((o.minutes % 1440).toNat * 60) ++ "))"

end Offset

namespace Moment

def toText (m : Moment) : String :=
  m.date.toText ++ " " ++ m.clock.toText ++ (m.offset.map Offset.toText).getD ""

def describe (m : Moment) : String :=
  "datetime.datetime(" ++ listed ([m.date.year, m.date.month, m.date.day] ++ m.clock.numbers) ++
    (m.offset.map fun o => ", tzinfo=" ++ o.describe).getD "" ++ ")"

/-- The microseconds from the start of year 1, on the clock of the moment or, where its offset is
known, on that of universal time. -/
def instant (m : Moment) : Int :=
  let minutes := (m.date.daysBefore * 24 + m.clock.hour) * 60 + m.clock.minute
  let ahead := (m.offset.map Offset.minutes).getD 0
  ((minutes - ahead) * 60 + m.clock.second) * 1000000 + m.clock.microsecond

end Moment

namespace Timestamp

def toText : Timestamp → String
  | date d => d.toText
  | moment m => m.toText

/-- A time as messages show it. -/
def describe : Timestamp → String
  | date d => d.describe
  | moment m => m.describe

/-- The order of two dates, or of two moments that both have an offset or both have none. Other
pairs have no order. -/
def le? : Timestamp → Timestamp → Option Bool
  | date d, date e => some (d.daysBefore ≤ e.daysBefore)
  | moment m, moment n =>
    if m.offset.isSome = n.offset.isSome then some (m.instant ≤ n.instant) else none
  | _, _ => none

/-- Whether two times are the same, each at or before the other. -/
def same (s t : Timestamp) : Bool :=
  s.le? t = some true && t.le? s = some true

end Timestamp

end TagCall
