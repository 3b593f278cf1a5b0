import PgFragment.Text.Numeral

namespace PgFragment.Calendar

/-!
# Durations

A duration is a number of nanoseconds of either sign.  `intervalText` writes it as days and a clock
reading, with one sign in front and the microseconds cut off toward zero.
-/

open Text

/-- A span of time. -/
structure Duration where
  nanoseconds : Int
  deriving DecidableEq

namespace Duration

variable (d : Duration)

/-- Whole seconds, rounded down. -/
def seconds : Int := d.nanoseconds / 1000000000

/-- The nanoseconds past `seconds`. -/
def nanos : Int := d.nanoseconds % 1000000000

/-- Microseconds as the digits after a point, without zeros at the end; nothing for none. -/
def microsText (micros : Nat) : List Char :=
  if micros = 0 then []
  else '.' :: ((padded 6 micros).reverse.dropWhile (· == '0')).reverse

/-- The days, when there are any, and hours, minutes, seconds and microseconds. -/
def intervalText : List Char :=
  let total := d.nanoseconds.natAbs
  let seconds := total / 1000000000
  let days := seconds / 86400
  (if d.nanoseconds < 0 then ['-'] else []) ++
    (if days = 0 then [] else decimal days ++ [' ']) ++
    padded 2 (seconds % 86400 / 3600) ++ ':' :: padded 2 (seconds % 3600 / 60) ++
    ':' :: padded 2 (seconds % 60) ++ microsText (total % 1000000000 / 1000)

end Duration

end PgFragment.Calendar
