import PgFragment.Text.Numeral

namespace PgFragment.Calendar

/-!
# Dates and times of day

Dates of the Gregorian calendar, extended to all years in both directions, and times of day to the
nanosecond.  Within a leap second the nanoseconds run on from a thousand million, so that such a
time is distinct from every other.  It may follow any second, for on a clock that is seconds off
universal time minutes end elsewhere; it is written as the second behind it, which is the sixtieth
at the end of a minute.

A date-time with an offset keeps its local reading.  Its instant is what equality and look-ups go
by: the seconds since the first day of year 1 in universal time, and the nanoseconds.
-/

open Text

/-! ### Dates -/

/-- Every fourth year, except full centuries that four hundred does not divide. -/
def isLeapYear (year : Int) : Bool := year % 4 == 0 && (year % 100 != 0 || year % 400 == 0)

/-- The number of days of a month. -/
def daysInMonth (year : Int) (month : Nat) : Nat :=
  if month = 2 then if isLeapYear year then 29 else 28
  else if month = 4 ∨ month = 6 ∨ month = 9 ∨ month = 11 then 30
  else 31

/-- A day of the calendar. -/
structure Date where
  year : Int
  month : Nat
  day : Nat
  month_valid : 1 ≤ month ∧ month ≤ 12
  day_valid : 1 ≤ day ∧ day ≤ daysInMonth year month
  deriving DecidableEq

namespace Date

/-- The date of a year, month and day, if there is one. -/
def of? (year : Int) (month day : Nat) : Option Date :=
  if hm : 1 ≤ month ∧ month ≤ 12 then
    if hd : 1 ≤ day ∧ day ≤ daysInMonth year month then some ⟨year, month, day, hm, hd⟩ else none
  else none

variable (d : Date)

/-- The days from the first of year 1 to a date, negative before it. -/
def dayNumber : Int :=
  let past := d.year - 1
  let months := (List.range (d.month - 1)).foldl
    (fun days month => days + daysInMonth d.year (month + 1)) 0
  365 * past + past / 4 - past / 100 + past / 400 + months + (d.day - 1)

/-- Four digits for the years 0 to 9999; other years have a sign and at least four digits. -/
def yearText (year : Int) : List Char :=
  if 0 ≤ year ∧ year ≤ 9999 then padded 4 year.natAbs
  else (if year < 0 then '-' else '+') :: padded 4 year.natAbs

/-- Year, month and day between hyphens. -/
def text : List Char :=
  yearText d.year ++ '-' :: padded 2 d.month ++ '-' :: padded 2 d.day

end Date

/-! ### Times of day -/

/-- A time of day; `nanos` from a thousand million upwards lie in a leap second, which may follow any
second. -/
structure TimeOfDay where
  hour : Nat
  minute : Nat
  second : Nat
  nanos : Nat
  clock_valid : hour < 24 ∧ minute < 60 ∧ second < 60
  nanos_valid : nanos < 2000000000
  deriving DecidableEq

namespace TimeOfDay

/-- The time of day of a clock reading, if it is one. -/
def of? (hour minute second nanos : Nat) : Option TimeOfDay :=
  if hc : hour < 24 ∧ minute < 60 ∧ second < 60 then
    if hn : nanos < 2000000000 then some ⟨hour, minute, second, nanos, hc, hn⟩ else none
  else none

variable (t : TimeOfDay)

/-- The seconds since midnight, a leap second counted to the one before it. -/
def seconds : Nat := t.hour * 3600 + t.minute * 60 + t.second

/-- A fraction of a second: nothing, or a point and three, six or nine digits. -/
def fractionText (nanos : Nat) : List Char :=
  if nanos = 0 then []
  else if nanos % 1000000 = 0 then '.' :: padded 3 (nanos / 1000000)
  else if nanos % 1000 = 0 then '.' :: padded 6 (nanos / 1000)
  else '.' :: padded 9 nanos

/-- Hours, minutes and seconds between colons, and the fraction. -/
def text : List Char :=
  -- The nanoseconds of a leap second carry over into the next second, the sixtieth at most.
  padded 2 t.hour ++ ':' :: padded 2 t.minute ++
    ':' :: padded 2 (t.second + t.nanos / 1000000000) ++ fractionText (t.nanos % 1000000000)

end TimeOfDay

/-! ### Date-times -/

/-- A date and a time of day, in no time zone. -/
structure DateTime where
  date : Date
  time : TimeOfDay
  deriving DecidableEq

/-- The date and the time with `separator` between them. -/
def DateTime.text (separator : Char) (t : DateTime) : List Char :=
  t.date.text ++ separator :: t.time.text

/-- A date and time with the offset of its clock in seconds east of universal time. -/
structure OffsetDateTime where
  localTime : DateTime
  offset : Int
  offset_valid : -86400 < offset ∧ offset < 86400
  deriving DecidableEq

/-- A point in time. -/
structure Instant where
  seconds : Int
  nanos : Nat
  deriving DecidableEq

namespace OffsetDateTime

/-- The local time with an offset, if that is less than a day. -/
def of? (localTime : DateTime) (offset : Int) : Option OffsetDateTime :=
  if h : -86400 < offset ∧ offset < 86400 then some ⟨localTime, offset, h⟩ else none

variable (t : OffsetDateTime)

/-- The point in time that is meant. -/
def instant : Instant :=
  ⟨t.localTime.date.dayNumber * 86400 + t.localTime.time.seconds - t.offset, t.localTime.time.nanos⟩

/-- The sign of an offset. -/
def signText : Char := if t.offset < 0 then '-' else '+'

/-- The offset in hours and minutes, rounded to the nearest minute. -/
def offsetToMinute : List Char :=
  let minutes := (t.offset.natAbs + 30) / 60
  t.signText :: padded 2 (minutes / 60) ++ ':' :: padded 2 (minutes % 60)

/-- The offset in full: the seconds are written when there are any. -/
def offsetInFull : List Char :=
  let seconds := t.offset.natAbs
  t.signText :: padded 2 (seconds / 3600) ++ ':' :: padded 2 (seconds / 60 % 60) ++
    if seconds % 60 = 0 then [] else ':' :: padded 2 (seconds % 60)

end OffsetDateTime

end PgFragment.Calendar
