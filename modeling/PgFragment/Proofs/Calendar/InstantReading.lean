import PgFragment.Mapping.Catalog
import PgFragment.Proofs.Calendar.ClockReading

namespace PgFragment.Calendar

/-!
# Reading instants

A date-time with an offset is written as its local time and its offset, from which the point in time
follows as the local time less the offset.  The local time is written in full.  The offset is
written to the minute, so that the point in time moves by what was rounded away.

* `readDateTime_text` — the local time is read back, in any year.
* `readOffset_offsetToMinute` — of the offset its nearest minute is read back.
* `readInstant_timestampTzLiteral_iff` — when the point in time is read back.
-/

open Text

/-- The point in time of a date-time on a clock with an offset. -/
def DateTime.instantAt (offset : Int) (t : DateTime) : Instant :=
  ⟨t.date.dayNumber * 86400 + t.time.seconds - offset, t.time.nanos⟩

/-! ### Readers -/

/-- Reads a sign, whether it is a minus. -/
def readSign : List Char → Option (Bool × List Char)
  | [] => none
  | c :: s => if c = '-' then some (true, s) else if c = '+' then some (false, s) else none

/-- Reads a year: under a sign as many digits as there are, else four. -/
def readYear (s : List Char) : Option (Int × List Char) :=
  match readSign s with
  | some (negative, s) =>
    (readDigits s).map fun (digits, s) => (signed negative (Nat.ofDigitChars 10 digits 0), s)
  | none => (readField 4 s).map fun (year, s) => (year, s)

/-- Reads a date, `YYYY-MM-DD`. -/
def readDate (s : List Char) : Option (Date × List Char) := do
  let (year, s) ← readYear s
  let s ← readMark '-' s
  let (month, s) ← readField 2 s
  let s ← readMark '-' s
  let (day, s) ← readField 2 s
  return (← Date.of? year month day, s)

/-- Reads a time of day to the nanosecond, `HH:MM:SS[.F]`. -/
def readTime (s : List Char) : Option (TimeOfDay × List Char) := do
  let (clock, s) ← readClock 9 s
  return (← TimeOfDay.of? clock.hour clock.minute clock.second clock.fraction, s)

/-- Reads a date and a time with a blank between them. -/
def readDateTime (s : List Char) : Option (DateTime × List Char) := do
  let (date, s) ← readDate s
  let s ← readMark ' ' s
  let (time, s) ← readTime s
  return (⟨date, time⟩, s)

/-- Reads an offset, `±HH:MM`, in seconds. -/
def readOffset (s : List Char) : Option (Int × List Char) := do
  let (negative, s) ← readSign s
  let (hours, s) ← readField 2 s
  let s ← readMark ':' s
  let (minutes, s) ← readField 2 s
  return (signed negative (hours * 3600 + minutes * 60), s)

/-- Reads `YYYY-MM-DD HH:MM:SS[.F]±HH:MM` as a point in time: the local time less the offset. -/
def readInstant (s : List Char) : Option Instant := do
  let (t, s) ← readDateTime s
  let (offset, s) ← readOffset s
  if s = [] then return t.instantAt offset else none

variable {s rest : List Char}

/-! ### Signs -/

theorem readSign_cons (negative : Prop) [Decidable negative] (s : List Char) :
    readSign ((if negative then '-' else '+') :: s) = some (decide negative, s) := by
  by_cases h : negative
  · rw [if_pos h, decide_eq_true h]
    rfl
  · rw [if_neg h, decide_eq_false h]
    rfl

theorem readSign_padded (w n : Nat) (rest : List Char) : readSign (padded w n ++ rest) = none := by
  cases h : padded w n ++ rest with
  | nil => rfl
  | cons c s =>
    have hne : ∀ sign : Char, sign.isDigit = false → c ≠ sign := by
      rintro sign hsign rfl
      exact padded_append_ne_cons hsign h
    rw [readSign, if_neg (hne '-' (by decide)), if_neg (hne '+' (by decide))]

theorem signed_natAbs (z : Int) : signed (z < 0) z.natAbs = z := by
  unfold signed
  simp only [decide_eq_true_eq]
  split <;> omega

/-! ### Dates -/

theorem daysInMonth_le (year : Int) (month : Nat) : daysInMonth year month ≤ 31 := by
  unfold daysInMonth
  split_ifs <;> decide

theorem Date.of?_fields (d : Date) : Date.of? d.year d.month d.day = some d := by
  rw [Date.of?, dif_pos d.month_valid, dif_pos d.day_valid]

/-- Years have a sign and any number of digits, or four digits. -/
theorem readYear_yearText (year : Int) (hr : StopsAt Char.isDigit rest) :
    readYear (Date.yearText year ++ rest) = some (year, rest) := by
  unfold Date.yearText
  split
  · next hyear =>
    have hfield : readField 4 (padded 4 year.natAbs ++ rest) = some (year.natAbs, rest) :=
      readField_padded (by decide) (by omega) rest
    rw [readYear, readSign_padded]
    simp only [hfield, Option.map_some, Int.natAbs_of_nonneg hyear.1]
  · have hdigits := readDigits_append (padded_ne_nil 4 year.natAbs)
      (fun _ => isDigit_of_mem_padded) hr
    rw [List.cons_append, readYear, readSign_cons]
    simp only [hdigits, Option.map_some, ofDigitChars_padded, signed_natAbs]

/-- **A date is read back**, in any year. -/
theorem readDate_text (d : Date) (rest : List Char) : readDate (d.text ++ rest) = some (d, rest) := by
  have hmonth : d.month < 10 ^ 2 := by have := d.month_valid; omega
  have hday : d.day < 10 ^ 2 := by
    have := d.day_valid
    have := daysInMonth_le d.year d.month
    omega
  have hhyphen : ∀ s, StopsAt Char.isDigit ('-' :: s) := stopsAt_cons (by decide)
  -- Only the year needs to be ended by its hyphen; the other fields have a width.
  simp only [Date.text, List.append_assoc, List.cons_append]
  simp only [readDate, readYear_yearText _ (hhyphen _), readMark_cons,
    readField_padded (by decide : 0 < 2) hmonth, readField_padded (by decide : 0 < 2) hday,
    Date.of?_fields, Option.bind_eq_bind, Option.bind_some]
  rfl

/-! ### Times of day -/

theorem TimeOfDay.of?_fields (t : TimeOfDay) :
    TimeOfDay.of? t.hour t.minute t.second t.nanos = some t := by
  rw [TimeOfDay.of?, dif_pos t.clock_valid, dif_pos t.nanos_valid]

/-- **A time of day is read back**, to the nanosecond, outside leap seconds. -/
theorem readTime_text {t : TimeOfDay} (ht : t.nanos < 1000000000) (hr : StopsAt Char.isDigit rest)
    (hpoint : '.' ∉ rest.head?) : readTime (t.text ++ rest) = some (t, rest) := by
  obtain ⟨hhour, hminute, hsecond⟩ := t.clock_valid
  have hclock := readClock_fields (isClockField_padded hhour (by decide))
    (isClockField_padded hminute (by decide)) (isClockField_padded hsecond (by decide))
    (readFraction_fractionText ht hr hpoint)
  simp only [ofDigitChars_padded] at hclock
  -- Outside a leap second nothing is carried over into the next second.
  simp only [TimeOfDay.text, Nat.div_eq_of_lt ht, Nat.mod_eq_of_lt ht, Nat.add_zero,
    List.append_assoc, List.cons_append]
  simp only [readTime, hclock, TimeOfDay.of?_fields, Option.bind_eq_bind, Option.bind_some]
  rfl

/-- **A date-time is read back.** -/
theorem readDateTime_text {t : DateTime} (ht : t.time.nanos < 1000000000)
    (hr : StopsAt Char.isDigit rest) (hpoint : '.' ∉ rest.head?) :
    readDateTime (t.text ' ' ++ rest) = some (t, rest) := by
  simp only [DateTime.text, List.append_assoc, List.cons_append]
  simp only [readDateTime, readDate_text, readMark_cons, readTime_text ht hr hpoint,
    Option.bind_eq_bind, Option.bind_some]
  rfl

/-! ### Offsets -/

namespace OffsetDateTime

variable (t : OffsetDateTime)

/-- The offset to the nearest minute, in seconds. -/
def roundedOffset : Int := signed (t.offset < 0) ((t.offset.natAbs + 30) / 60 * 60)

theorem roundedOffset_eq_iff : t.roundedOffset = t.offset ↔ 60 ∣ t.offset := by
  unfold roundedOffset signed
  simp only [decide_eq_true_eq]
  split <;> omega

/-- Rounding moves an offset by half a minute at most. -/
theorem natAbs_roundedOffset_sub_le : (t.roundedOffset - t.offset).natAbs ≤ 30 := by
  unfold roundedOffset signed
  simp only [decide_eq_true_eq]
  split <;> omega

theorem offsetToMinute_append (rest : List Char) : t.offsetToMinute ++ rest =
    t.signText :: (padded 2 ((t.offset.natAbs + 30) / 60 / 60) ++
      ':' :: (padded 2 ((t.offset.natAbs + 30) / 60 % 60) ++ rest)) := by
  simp only [offsetToMinute, List.append_assoc, List.cons_append]

/-- **Of an offset its nearest minute is read back**, up to a whole day. -/
theorem readOffset_offsetToMinute (rest : List Char) :
    readOffset (t.offsetToMinute ++ rest) = some (t.roundedOffset, rest) := by
  have hvalid := t.offset_valid
  -- The last half minute of a day is rounded up to 24 hours, which two digits still hold.
  have hhours : (t.offset.natAbs + 30) / 60 / 60 < 10 ^ 2 := by omega
  have hminutes : (t.offset.natAbs + 30) / 60 % 60 < 10 ^ 2 := by omega
  have hsum : (t.offset.natAbs + 30) / 60 / 60 * 3600 + (t.offset.natAbs + 30) / 60 % 60 * 60
      = (t.offset.natAbs + 30) / 60 * 60 := by omega
  rw [offsetToMinute_append, signText, readOffset, readSign_cons]
  simp only [readField_padded (by decide : 0 < 2) hhours, readMark_cons,
    readField_padded (by decide : 0 < 2) hminutes, hsum, Option.bind_eq_bind, Option.bind_some]
  rfl

/-- **A point in time is read from its text** as the local time less the rounded offset. -/
theorem readInstant_text (ht : t.localTime.time.nanos < 1000000000) :
    readInstant (t.localTime.text ' ' ++ t.offsetToMinute)
      = some (t.localTime.instantAt t.roundedOffset) := by
  -- The sign ends the local time: it goes on neither with its seconds nor with their fraction.
  have hstops : StopsAt Char.isDigit t.offsetToMinute := by
    unfold offsetToMinute signText
    split <;> exact stopsAt_cons (by decide) _
  have hpoint : '.' ∉ t.offsetToMinute.head? := by
    unfold offsetToMinute signText
    split <;> simp
  have hoffset := t.readOffset_offsetToMinute []
  rw [List.append_nil] at hoffset
  simp only [readInstant, readDateTime_text ht hstops hpoint, hoffset, Option.bind_eq_bind,
    Option.bind_some]
  rfl

theorem instantAt_roundedOffset_eq_iff :
    t.localTime.instantAt t.roundedOffset = t.instant ↔ 60 ∣ t.offset := by
  rw [← roundedOffset_eq_iff, DateTime.instantAt, instant, Instant.mk.injEq]
  omega

end OffsetDateTime

/-! ### Literals of date-times with an offset -/

variable {m : Mapping} {t : OffsetDateTime}

theorem literal_timestampTz (hm : m.kind = .scalar .timestampTz) (t : OffsetDateTime) :
    m.literal (.dateTimeOffset t) = .ok ("TIMESTAMPTZ '" ++
      String.ofList (t.localTime.text ' ' ++ t.offsetToMinute) ++ "'") :=
  Mapping.literal_of_kind hm rfl rfl

/-- **A point in time is read back** exactly when its clock is whole minutes from universal time,
and to half a minute else: the local time is written in full, but its offset to the minute. -/
theorem readInstant_timestampTzLiteral_iff (hm : m.kind = .scalar .timestampTz)
    (ht : t.localTime.time.nanos < 1000000000) :
    ∃ text i, m.literal (.dateTimeOffset t) = .ok ("TIMESTAMPTZ '" ++ String.ofList text ++ "'") ∧
      readInstant text = some i ∧ (i = t.instant ↔ 60 ∣ t.offset) ∧
      i.nanos = t.instant.nanos ∧ (t.instant.seconds - i.seconds).natAbs ≤ 30 := by
  have hdistance : t.instant.seconds - (t.localTime.instantAt t.roundedOffset).seconds
      = t.roundedOffset - t.offset := by
    simp only [DateTime.instantAt, OffsetDateTime.instant]
    omega
  refine ⟨_, t.localTime.instantAt t.roundedOffset, literal_timestampTz hm t,
    t.readInstant_text ht, t.instantAt_roundedOffset_eq_iff, rfl, ?_⟩
  rw [hdistance]
  exact t.natAbs_roundedOffset_sub_le

/-- Half past ten in the evening before a leap day, on a clock with an offset. -/
def eveningBeforeLeapDay (offset : Int) (h : -86400 < offset ∧ offset < 86400) : OffsetDateTime :=
  ⟨⟨⟨2024, 2, 28, by decide, by decide⟩, ⟨22, 30, 0, 500000000, by decide, by decide⟩⟩,
    offset, h⟩

/-- Five and a half hours west, where it is the next day in universal time. -/
theorem readInstant_timestampTzLiteral_halfHourOffset :
    Mapping.timestampTz.kind = .scalar .timestampTz ∧
      Mapping.timestampTz.literal (.dateTimeOffset (eveningBeforeLeapDay (-19800) (by decide)))
        = .ok "TIMESTAMPTZ '2024-02-28 22:30:00.500-05:30'" ∧
      ∃ text, Mapping.timestampTz.literal
          (.dateTimeOffset (eveningBeforeLeapDay (-19800) (by decide)))
          = .ok ("TIMESTAMPTZ '" ++ String.ofList text ++ "'") ∧
        readInstant text = some (eveningBeforeLeapDay (-19800) (by decide)).instant := by
  obtain ⟨text, i, htext, hread, hiff, -⟩ := readInstant_timestampTzLiteral_iff
    (m := Mapping.timestampTz) (t := eveningBeforeLeapDay (-19800) (by decide)) rfl (by decide)
  obtain rfl := hiff.2 (by decide)
  exact ⟨rfl, by rfl, text, htext, hread⟩

/-- Three seconds of the offset are lost, and what is read is three seconds later. -/
theorem readInstant_offsetWithSeconds :
    Mapping.timestampTz.literal (.dateTimeOffset (eveningBeforeLeapDay 3723 (by decide)))
        = .ok "TIMESTAMPTZ '2024-02-28 22:30:00.500+01:02'" ∧
      readInstant "2024-02-28 22:30:00.500+01:02".toList = some ⟨63844752480, 500000000⟩ ∧
      (eveningBeforeLeapDay 3723 (by decide)).instant = ⟨63844752477, 500000000⟩ :=
  ⟨by rfl, by decide +kernel, by decide⟩

end PgFragment.Calendar
