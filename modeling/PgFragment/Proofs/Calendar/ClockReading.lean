import PgFragment.Proofs.Calendar.DateTimeText

namespace PgFragment.Calendar

/-!
# Reading clocks

Readers of the pieces that times are written in.  Each takes its piece from the front of a text and
leaves the rest; digits count by their place, whoever wrote them.

* `readField_append`, `readDigits_append` — digits of a fixed number, and as many as there are.
* `readFraction_digits` — the digits behind a point, by their place.
* `readClock_fields` — a clock, field by field.
-/

open Text

/-! ### Readers -/

/-- Reads exactly `width` digits as a number. -/
def readField (width : Nat) (s : List Char) : Option (Nat × List Char) :=
  if width ≤ s.length ∧ (s.take width).all Char.isDigit = true then
    some (Nat.ofDigitChars 10 (s.take width) 0, s.drop width)
  else none

/-- Reads the digits up to something else, at least one. -/
def readDigits (s : List Char) : Option (List Char × List Char) :=
  if s.takeWhile Char.isDigit = [] then none
  else some (s.takeWhile Char.isDigit, s.dropWhile Char.isDigit)

/-- Reads one mark. -/
def readMark (mark : Char) : List Char → Option (List Char)
  | [] => none
  | c :: s => if c = mark then some s else none

/-- A number under a minus sign, or without one. -/
def signed (negative : Bool) (n : Nat) : Int := if negative then -n else n

/-- Reads a fraction of a second, of which `10 ^ places` parts make a whole: a point and no more than
`places` digits.  Without a point there is none. -/
def readFraction (places : Nat) (s : List Char) : Option (Nat × List Char) :=
  match readMark '.' s with
  | none => some (0, s)
  | some s => do
    let (digits, s) ← readDigits s
    if digits.length ≤ places then
      return (Nat.ofDigitChars 10 digits 0 * 10 ^ (places - digits.length), s)
    else none

/-- What a clock shows.  How many parts of a second the fraction counts is up to its reader. -/
structure ClockReading where
  hour : Nat
  minute : Nat
  second : Nat
  fraction : Nat

/-- Reads a clock, `HH:MM:SS[.F]`. -/
def readClock (places : Nat) (s : List Char) : Option (ClockReading × List Char) := do
  let (hour, s) ← readField 2 s
  let s ← readMark ':' s
  let (minute, s) ← readField 2 s
  let s ← readMark ':' s
  let (second, s) ← readField 2 s
  let (fraction, s) ← readFraction places s
  return (⟨hour, minute, second, fraction⟩, s)

/-! ### Digits and marks -/

variable {width places n : Nat} {digits s rest : List Char}

/-- **A field is read as its digits say.** -/
theorem readField_append (hlength : digits.length = width)
    (hdigits : ∀ c ∈ digits, c.isDigit = true) (rest : List Char) :
    readField width (digits ++ rest) = some (Nat.ofDigitChars 10 digits 0, rest) := by
  have hall : digits.all Char.isDigit = true := List.all_eq_true.2 hdigits
  rw [readField, List.take_left' hlength, List.drop_left' hlength, if_pos]
  exact ⟨by rw [List.length_append, hlength]; omega, hall⟩

theorem readField_padded (hw : 0 < width) (hn : n < 10 ^ width) (rest : List Char) :
    readField width (padded width n ++ rest) = some (n, rest) := by
  rw [readField_append (length_padded hw hn) (fun _ => isDigit_of_mem_padded),
    ofDigitChars_padded]

theorem readDigits_append (hne : digits ≠ []) (hdigits : ∀ c ∈ digits, c.isDigit = true)
    (hr : StopsAt Char.isDigit rest) : readDigits (digits ++ rest) = some (digits, rest) := by
  rw [readDigits, takeWhile_append_of_stopsAt hdigits hr, dropWhile_append_of_stopsAt hdigits hr,
    if_neg hne]

theorem readMark_cons (mark : Char) (s : List Char) : readMark mark (mark :: s) = some s := if_pos rfl

theorem readMark_eq_none {mark : Char} (h : mark ∉ s.head?) : readMark mark s = none := by
  cases s with
  | nil => rfl
  | cons c s =>
    refine if_neg ?_
    rintro rfl
    exact h rfl

/-! ### Fractions -/

theorem readFraction_none (h : '.' ∉ s.head?) : readFraction places s = some (0, s) := by
  rw [readFraction, readMark_eq_none h]

/-- **A fraction is read by the place of its digits.** -/
theorem readFraction_digits (hne : digits ≠ []) (hlength : digits.length ≤ places)
    (hdigits : ∀ c ∈ digits, c.isDigit = true) (hr : StopsAt Char.isDigit rest) :
    readFraction places ('.' :: digits ++ rest)
      = some (Nat.ofDigitChars 10 digits 0 * 10 ^ (places - digits.length), rest) := by
  rw [readFraction, List.cons_append, readMark_cons]
  simp only [readDigits_append hne hdigits hr, Option.bind_eq_bind, Option.bind_some,
    if_pos hlength]
  rfl

/-- Nanoseconds are read back from the group of three, six or nine digits that they fit in. -/
theorem readFraction_fractionText (hn : n < 1000000000) (hr : StopsAt Char.isDigit rest)
    (hpoint : '.' ∉ rest.head?) :
    readFraction 9 (TimeOfDay.fractionText n ++ rest) = some (n, rest) := by
  obtain ⟨hzero, htext⟩ | ⟨w, a, hw, ha, hna, htext⟩ := TimeOfDay.fractionText_cases hn
  · rw [htext, hzero, List.nil_append, readFraction_none hpoint]
  · have hlength : (padded w a).length = w := length_padded hw.1 ha
    have hne : padded w a ≠ [] := List.ne_nil_of_length_pos (by rw [hlength]; exact hw.1)
    rw [htext, readFraction_digits hne (by rw [hlength]; exact hw.2)
      (fun _ => isDigit_of_mem_padded) hr, hlength, ofDigitChars_padded, ← hna]

/-! ### Clocks -/

/-- The digits of a clock field: a number below a limit, in two digits. -/
structure IsClockField (limit : Nat) (digits : List Char) : Prop where
  length : digits.length = 2
  isDigit : ∀ c ∈ digits, c.isDigit = true
  value_lt : Nat.ofDigitChars 10 digits 0 < limit

theorem isClockField_padded {limit : Nat} (hn : n < limit) (hlimit : limit ≤ 100) :
    IsClockField limit (padded 2 n) where
  length := length_padded (by decide) (Nat.lt_of_lt_of_le hn hlimit)
  isDigit _ := isDigit_of_mem_padded
  value_lt := by rwa [ofDigitChars_padded]

/-- **A clock is read field by field.** -/
theorem readClock_fields {a b c : Nat} {hour minute second fraction : List Char}
    (hhour : IsClockField a hour) (hminute : IsClockField b minute) (hsecond : IsClockField c second)
    (hfraction : readFraction places fraction = some (n, rest)) :
    readClock places (hour ++ ':' :: (minute ++ ':' :: (second ++ fraction)))
      = some (⟨Nat.ofDigitChars 10 hour 0, Nat.ofDigitChars 10 minute 0,
          Nat.ofDigitChars 10 second 0, n⟩, rest) := by
  simp only [readClock, readField_append hhour.length hhour.isDigit,
    readField_append hminute.length hminute.isDigit,
    readField_append hsecond.length hsecond.isDigit, readMark_cons, hfraction,
    Option.bind_eq_bind, Option.bind_some]
  rfl

end PgFragment.Calendar
