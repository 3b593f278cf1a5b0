import PgFragment.Mapping.Catalog
import PgFragment.Proofs.Calendar.ClockReading

namespace PgFragment.Calendar

/-!
# Reading intervals

A duration is written as days and a clock behind one sign.  Whoever takes that sign for the whole
reads the duration back, to the microsecond.  The database takes a sign for the one field that it
stands in front of, so that behind a sign at the days the clock counts forward.

* `IntervalPieces` — the texts of the form `[-][D ]HH:MM:SS[.F]`, piece by piece.
* `readUnderOneSign_text`, `readUnderOwnSigns_text` — what either reader makes of any such text.
* `exists_pieces_intervalLiteral` — a duration is written in that form and read back under one sign.
* `readUnderOwnSigns_intervalLiteral_iff` — when the database reads it back.
-/

open Text

/-- The microseconds of a day. -/
def microsPerDay : Nat := 86400000000

/-- The whole microseconds of a duration; what is beyond them is cut off toward zero. -/
def Duration.micros (d : Duration) : Int := d.nanoseconds.tdiv 1000

/-! ### Readers -/

/-- Reads what may have a sign of its own, and is positive without one. -/
def readSigned (read : List Char → Option Nat) (s : List Char) : Option Int :=
  match readMark '-' s with
  | none => (read s).map (signed false)
  | some s => (read s).map (signed true)

/-- Reads days and a clock with a blank between them, or a clock alone. -/
def readDaysAndClock {α : Type} [Add α] (days clock : List Char → Option α) (s : List Char) :
    Option α :=
  match s.span (· != ' ') with
  | (_, []) => clock s
  | (front, _ :: back) => do return (← days front) + (← clock back)

/-- A number of days, in microseconds. -/
def readDayMicros (s : List Char) : Option Nat :=
  match readDigits s with
  | some (digits, []) => some (Nat.ofDigitChars 10 digits 0 * microsPerDay)
  | _ => none

/-- A clock, in microseconds. -/
def readClockMicros (s : List Char) : Option Nat :=
  match readClock 6 s with
  | some (clock, []) =>
    some ((clock.hour * 3600 + clock.minute * 60 + clock.second) * 1000000 + clock.fraction)
  | _ => none

/-- Reads `[-][D ]HH:MM:SS[.F]`, in microseconds: the sign is that of the whole. -/
def readUnderOneSign : List Char → Option Int :=
  readSigned (readDaysAndClock readDayMicros readClockMicros)

/-- Reads `[-]D [-]HH:MM:SS[.F]` or `[-]HH:MM:SS[.F]`, in microseconds: either field has its own
sign.  This is how the database reads intervals. -/
def readUnderOwnSigns : List Char → Option Int :=
  readDaysAndClock (readSigned readDayMicros) (readSigned readClockMicros)

section Readers

variable {α : Type} [Add α] {read : List Char → Option Nat} {days clock : List Char → Option α}
  {s front back : List Char}

theorem readSigned_sign {n : Nat} (negative : Bool) (hs : '-' ∉ s.head?) (hread : read s = some n) :
    readSigned read ((if negative then ['-'] else []) ++ s) = some (signed negative n) := by
  cases negative with
  | false =>
    rw [if_neg Bool.false_ne_true, List.nil_append, readSigned, readMark_eq_none hs]
    exact congrArg (Option.map (signed false)) hread
  | true =>
    rw [if_pos rfl, List.singleton_append, readSigned, readMark_cons]
    exact congrArg (Option.map (signed true)) hread

theorem readDaysAndClock_of_not_mem (h : ' ' ∉ s) : readDaysAndClock days clock s = clock s := by
  have hspan : s.span (· != ' ') = (s, []) := span_ne_eq_iff.2 ⟨List.append_nil s, h, nofun⟩
  rw [readDaysAndClock, hspan]

theorem readDaysAndClock_append {x y : α} (h : ' ' ∉ front) (hdays : days front = some x)
    (hclock : clock back = some y) :
    readDaysAndClock days clock (front ++ ' ' :: back) = some (x + y) := by
  have hspan : (front ++ ' ' :: back).span (· != ' ') = (front, ' ' :: back) :=
    span_ne_eq_iff.2 ⟨rfl, h, by simp⟩
  rw [readDaysAndClock, hspan]
  simp only [hdays, hclock]
  rfl

end Readers

/-! ### The form -/

/-- The digits of a positive number without leading zeros. -/
structure IsCount (digits : List Char) : Prop where
  ne_nil : digits ≠ []
  isDigit : ∀ c ∈ digits, c.isDigit = true
  head : digits.head? ≠ some '0'

/-- One to six digits, the last of which is no zero. -/
structure IsFraction (digits : List Char) : Prop where
  ne_nil : digits ≠ []
  length_le : digits.length ≤ 6
  isDigit : ∀ c ∈ digits, c.isDigit = true
  last : digits.getLast? ≠ some '0'

/-- The pieces of a text of the form `[-][D ]HH:MM:SS[.F]`. -/
structure IntervalPieces where
  negative : Bool
  days : Option (List Char)
  hour : List Char
  minute : List Char
  second : List Char
  fraction : Option (List Char)
  days_valid : ∀ digits ∈ days, IsCount digits
  hour_valid : IsClockField 24 hour
  minute_valid : IsClockField 60 minute
  second_valid : IsClockField 60 second
  fraction_valid : ∀ digits ∈ fraction, IsFraction digits

namespace IntervalPieces

variable (p : IntervalPieces)

/-- The point and the digits behind it, if there are any. -/
def fractionText : List Char := p.fraction.elim [] ('.' :: ·)

/-- The clock. -/
def clockText : List Char := p.hour ++ ':' :: (p.minute ++ ':' :: (p.second ++ p.fractionText))

/-- All that follows the sign. -/
def unsignedText : List Char := p.days.elim p.clockText (· ++ ' ' :: p.clockText)

/-- The whole text. -/
def text : List Char := (if p.negative then ['-'] else []) ++ p.unsignedText

/-- The microseconds of the days. -/
def dayMicros : Nat := p.days.elim 0 fun digits => Nat.ofDigitChars 10 digits 0 * microsPerDay

/-- The microseconds of the fraction. -/
def fractionMicros : Nat :=
  p.fraction.elim 0 fun digits => Nat.ofDigitChars 10 digits 0 * 10 ^ (6 - digits.length)

/-- The microseconds of the clock. -/
def clockMicros : Nat :=
  (Nat.ofDigitChars 10 p.hour 0 * 3600 + Nat.ofDigitChars 10 p.minute 0 * 60
      + Nat.ofDigitChars 10 p.second 0) * 1000000 + p.fractionMicros

/-- What the text says when its sign is that of the whole. -/
def micros : Int := signed p.negative (p.dayMicros + p.clockMicros)

/-- What the text says when its sign is that of the field behind it. -/
def microsByField : Int :=
  if p.days.isSome then signed p.negative p.dayMicros + p.clockMicros
  else signed p.negative p.clockMicros

/-! ### What the readers make of the form -/

theorem blank_not_mem_of_isDigit {s : List Char} (hs : ∀ c ∈ s, c.isDigit = true) : ' ' ∉ s := by
  intro h
  exact absurd (hs ' ' h) (by decide)

theorem hyphen_not_mem_head {s rest : List Char} (hne : s ≠ [])
    (hs : ∀ c ∈ s, c.isDigit = true) : '-' ∉ (s ++ rest).head? := by
  intro h
  obtain ⟨tail, htail⟩ := List.head?_eq_some_iff.1 h
  exact run_append_ne_cons hne hs (by decide) htail

theorem readFraction_fractionText :
    readFraction 6 p.fractionText = some (p.fractionMicros, []) := by
  unfold fractionText fractionMicros
  cases hfraction : p.fraction with
  | none => exact readFraction_none nofun
  | some digits =>
    have hvalid := p.fraction_valid digits hfraction
    have hread := readFraction_digits hvalid.ne_nil hvalid.length_le hvalid.isDigit
      (nofun : StopsAt Char.isDigit [])
    rwa [List.append_nil] at hread

theorem readClockMicros_clockText : readClockMicros p.clockText = some p.clockMicros := by
  rw [readClockMicros, clockText, readClock_fields p.hour_valid p.minute_valid p.second_valid
    p.readFraction_fractionText]
  rfl

theorem blank_not_mem_clockText : ' ' ∉ p.clockText := by
  have hfraction : ' ' ∉ p.fractionText := by
    unfold fractionText
    cases hfraction : p.fraction with
    | none => exact List.not_mem_nil
    | some digits =>
      have hdigits := blank_not_mem_of_isDigit (p.fraction_valid digits hfraction).isDigit
      simpa using hdigits
  have hhour := blank_not_mem_of_isDigit p.hour_valid.isDigit
  have hminute := blank_not_mem_of_isDigit p.minute_valid.isDigit
  have hsecond := blank_not_mem_of_isDigit p.second_valid.isDigit
  simp [clockText, hhour, hminute, hsecond, hfraction]

theorem hyphen_not_mem_head_clockText : '-' ∉ p.clockText.head? := by
  have hne : p.hour ≠ [] := List.ne_nil_of_length_pos (by rw [p.hour_valid.length]; decide)
  exact hyphen_not_mem_head hne p.hour_valid.isDigit

theorem readDayMicros_digits {digits : List Char} (h : IsCount digits) :
    readDayMicros digits = some (Nat.ofDigitChars 10 digits 0 * microsPerDay) := by
  have hread := readDigits_append h.ne_nil h.isDigit (nofun : StopsAt Char.isDigit [])
  rw [List.append_nil] at hread
  rw [readDayMicros, hread]

/-- **Under one sign a text of the form says what its fields add up to**, with that sign. -/
theorem readUnderOneSign_text : readUnderOneSign p.text = some p.micros := by
  unfold readUnderOneSign text micros unsignedText dayMicros
  cases hdays : p.days with
  | none =>
    refine readSigned_sign p.negative p.hyphen_not_mem_head_clockText ?_
    rw [Option.elim_none, Option.elim_none, Nat.zero_add,
      readDaysAndClock_of_not_mem p.blank_not_mem_clockText]
    exact p.readClockMicros_clockText
  | some digits =>
    have hvalid := p.days_valid digits hdays
    refine readSigned_sign p.negative (hyphen_not_mem_head hvalid.ne_nil hvalid.isDigit) ?_
    exact readDaysAndClock_append (blank_not_mem_of_isDigit hvalid.isDigit)
      (readDayMicros_digits hvalid) p.readClockMicros_clockText

/-- **Under signs of their own the days take the sign and the clock has none**, unless the clock
stands alone. -/
theorem readUnderOwnSigns_text : readUnderOwnSigns p.text = some p.microsByField := by
  unfold readUnderOwnSigns text microsByField unsignedText dayMicros
  have hsign : ∀ b : Bool, ' ' ∉ if b then ['-'] else [] := by decide
  cases hdays : p.days with
  | none =>
    rw [Option.elim_none, readDaysAndClock_of_not_mem]
    · exact readSigned_sign p.negative p.hyphen_not_mem_head_clockText p.readClockMicros_clockText
    · exact List.not_mem_append (hsign p.negative) p.blank_not_mem_clockText
  | some digits =>
    have hvalid := p.days_valid digits hdays
    have hhead : '-' ∉ (digits ++ []).head? := hyphen_not_mem_head hvalid.ne_nil hvalid.isDigit
    rw [List.append_nil] at hhead
    have hday := readSigned_sign p.negative hhead (readDayMicros_digits hvalid)
    have hclock := readSigned_sign false p.hyphen_not_mem_head_clockText p.readClockMicros_clockText
    rw [Option.elim_some, ← List.append_assoc]
    exact readDaysAndClock_append (List.not_mem_append (hsign p.negative)
      (blank_not_mem_of_isDigit hvalid.isDigit)) hday hclock

/-- **The two readings differ** exactly where a sign stands at days that a clock follows. -/
theorem microsByField_eq_iff :
    p.microsByField = p.micros ↔ p.negative = false ∨ p.days = none ∨ p.clockMicros = 0 := by
  unfold microsByField micros signed dayMicros
  cases p.days with
  | none => simp
  | some digits =>
    cases p.negative with
    | false => simp
    | true =>
      have hnegative : -((Nat.ofDigitChars 10 digits 0 * microsPerDay : Nat) : Int) + p.clockMicros
          = -((Nat.ofDigitChars 10 digits 0 * microsPerDay + p.clockMicros : Nat) : Int) ↔
            p.clockMicros = 0 := by omega
      simpa using hnegative

end IntervalPieces

/-! ### The text of a duration -/

theorem isCount_decimal {n : Nat} (hn : n ≠ 0) : IsCount (decimal n) where
  ne_nil := decimal_ne_nil n
  isDigit _ := isDigit_of_mem_decimal
  head := head?_decimal hn

/-- The digits of microseconds, less the zeros at the end. -/
def trimmedMicros (n : Nat) : List Char := (padded 6 n).rdropWhile (· == '0')

theorem ofDigitChars_trimmedMicros {n : Nat} (hn : n < 1000000) :
    Nat.ofDigitChars 10 (trimmedMicros n) 0 * 10 ^ (6 - (trimmedMicros n).length) = n := by
  have hvalue := ofDigitChars_rdropWhile (padded 6 n)
  rwa [length_padded (by decide) hn, ofDigitChars_padded] at hvalue

theorem isFraction_trimmedMicros {n : Nat} (h0 : n ≠ 0) (hn : n < 1000000) :
    IsFraction (trimmedMicros n) := by
  have hpadded : trimmedMicros n <+: padded 6 n := List.rdropWhile_prefix (· == '0') _
  have hlength : (padded 6 n).length = 6 := length_padded (by decide) hn
  refine ⟨?_, hlength ▸ hpadded.length_le, fun c hc => isDigit_of_mem_padded (hpadded.mem hc), ?_⟩
  · -- Were all digits zeros, the number would be zero.
    intro hnil
    have hvalue := ofDigitChars_trimmedMicros hn
    rw [hnil, Nat.ofDigitChars_nil, Nat.zero_mul] at hvalue
    exact h0 hvalue.symm
  · intro hlast
    obtain ⟨hne, hzero⟩ := List.mem_getLast?_eq_getLast hlast
    exact List.rdropWhile_last_not (· == '0') _ hne (beq_iff_eq.2 hzero.symm)

namespace Duration

variable (d : Duration)

/-- The pieces that a duration is written in. -/
def pieces : IntervalPieces :=
  let total := d.nanoseconds.natAbs
  let seconds := total / 1000000000
  let days := seconds / 86400
  let micros := total % 1000000000 / 1000
  { negative := d.nanoseconds < 0
    days := if days = 0 then none else some (decimal days)
    hour := padded 2 (seconds % 86400 / 3600)
    minute := padded 2 (seconds % 3600 / 60)
    second := padded 2 (seconds % 60)
    fraction := if micros = 0 then none else some (trimmedMicros micros)
    days_valid := by
      intro digits h
      obtain ⟨hdays, hdigits⟩ := Option.ite_none_left_eq_some.1 h
      exact Option.some.inj hdigits ▸ isCount_decimal hdays
    hour_valid := isClockField_padded (by omega) (by decide)
    minute_valid := isClockField_padded (by omega) (by decide)
    second_valid := isClockField_padded (by omega) (by decide)
    fraction_valid := by
      intro digits h
      obtain ⟨hmicros, hdigits⟩ := Option.ite_none_left_eq_some.1 h
      exact Option.some.inj hdigits ▸ isFraction_trimmedMicros hmicros (by omega) }

theorem fractionText_pieces :
    d.pieces.fractionText = microsText (d.nanoseconds.natAbs % 1000000000 / 1000) := by
  unfold IntervalPieces.fractionText microsText pieces
  dsimp only
  split <;> rfl

/-- **A duration is written in its pieces.** -/
theorem text_pieces : d.pieces.text = d.intervalText := by
  have hclock : d.pieces.clockText = padded 2 (d.nanoseconds.natAbs / 1000000000 % 86400 / 3600) ++
      ':' :: (padded 2 (d.nanoseconds.natAbs / 1000000000 % 3600 / 60) ++
        ':' :: (padded 2 (d.nanoseconds.natAbs / 1000000000 % 60) ++
          microsText (d.nanoseconds.natAbs % 1000000000 / 1000))) := by
    rw [IntervalPieces.clockText, fractionText_pieces]
    rfl
  have hdays : d.pieces.unsignedText = (if d.nanoseconds.natAbs / 1000000000 / 86400 = 0 then []
      else decimal (d.nanoseconds.natAbs / 1000000000 / 86400) ++ [' ']) ++ d.pieces.clockText := by
    rw [IntervalPieces.unsignedText]
    show Option.elim (if _ then none else some _) _ _ = _
    split <;> simp
  rw [IntervalPieces.text, hdays, hclock, intervalText]
  simp [pieces, List.append_assoc]

theorem micros_eq_signed :
    d.micros = signed (d.nanoseconds < 0) (d.nanoseconds.natAbs / 1000) := by
  rw [micros]
  cases d.nanoseconds with
  | ofNat n =>
    rw [decide_eq_false (show ¬Int.ofNat n < 0 from Int.not_lt.2 (Int.natCast_nonneg n))]
    rfl
  | negSucc n =>
    rw [decide_eq_true (Int.negSucc_lt_zero n)]
    rfl

theorem natAbs_micros : d.micros.natAbs = d.nanoseconds.natAbs / 1000 := by
  rw [micros, Int.natAbs_tdiv]
  rfl

theorem dayMicros_pieces :
    d.pieces.dayMicros = d.micros.natAbs / microsPerDay * microsPerDay := by
  have hdays : d.nanoseconds.natAbs / 1000000000 / 86400
      = d.nanoseconds.natAbs / 1000 / microsPerDay := by
    unfold microsPerDay
    omega
  rw [natAbs_micros, ← hdays]
  show Option.elim (if _ then none else some _) _ _ = _
  split
  · next hzero => rw [hzero, Nat.zero_mul, Option.elim_none]
  · rw [Option.elim_some, ofDigitChars_decimal]

theorem fractionMicros_pieces :
    d.pieces.fractionMicros = d.nanoseconds.natAbs % 1000000000 / 1000 := by
  show Option.elim (if _ then none else some _) _ _ = _
  split
  · next hzero => rw [hzero, Option.elim_none]
  · rw [Option.elim_some, ofDigitChars_trimmedMicros (by omega)]

theorem clockMicros_pieces : d.pieces.clockMicros = d.micros.natAbs % microsPerDay := by
  have hfields : d.pieces.clockMicros = (d.nanoseconds.natAbs / 1000000000 % 86400 / 3600 * 3600
      + d.nanoseconds.natAbs / 1000000000 % 3600 / 60 * 60
      + d.nanoseconds.natAbs / 1000000000 % 60) * 1000000
        + d.nanoseconds.natAbs % 1000000000 / 1000 := by
    rw [IntervalPieces.clockMicros, fractionMicros_pieces]
    show (Nat.ofDigitChars 10 (padded 2 _) 0 * 3600 + Nat.ofDigitChars 10 (padded 2 _) 0 * 60
      + Nat.ofDigitChars 10 (padded 2 _) 0) * 1000000 + _ = _
    rw [ofDigitChars_padded, ofDigitChars_padded, ofDigitChars_padded]
  rw [hfields, natAbs_micros]
  unfold microsPerDay
  omega

/-- **The pieces add up to the duration**, to the microsecond. -/
theorem micros_pieces : d.pieces.micros = d.micros := by
  have hsum : d.pieces.dayMicros + d.pieces.clockMicros = d.nanoseconds.natAbs / 1000 := by
    rw [dayMicros_pieces, clockMicros_pieces, Nat.div_add_mod', natAbs_micros]
  rw [IntervalPieces.micros, hsum, micros_eq_signed]
  rfl

/-- The reading by fields gives the duration as long as there is no day to take away, or nothing
beside whole days. -/
theorem microsByField_pieces_eq_iff :
    d.pieces.microsByField = d.micros ↔
      -(microsPerDay : Int) < d.micros ∨ (microsPerDay : Int) ∣ d.micros := by
  have hday : (0 : Int) < microsPerDay := by decide
  have hdays : d.pieces.days = none ↔ d.micros.natAbs < microsPerDay := by
    have hquotient : d.pieces.days = none ↔ d.nanoseconds.natAbs / 1000000000 / 86400 = 0 := by
      show (if _ then none else some _) = none ↔ _
      split <;> simp [*]
    rw [hquotient, natAbs_micros, microsPerDay]
    omega
  have hclock : d.pieces.clockMicros = 0 ↔ (microsPerDay : Int) ∣ d.micros := by
    rw [clockMicros_pieces, ← Int.natAbs_dvd_natAbs, Int.natAbs_natCast, Nat.dvd_iff_mod_eq_zero]
  have hnegative : d.pieces.negative = false ↔ 0 ≤ d.nanoseconds := by
    rw [pieces, decide_eq_false_iff_not, Int.not_lt]
  -- The duration is on the side of zero that its nanoseconds are on, or it is zero.
  have hsign : d.micros = if d.nanoseconds < 0 then -(d.micros.natAbs : Int) else d.micros.natAbs := by
    rw [natAbs_micros, micros_eq_signed, signed]
    simp only [decide_eq_true_eq]
  rw [← micros_pieces, IntervalPieces.microsByField_eq_iff, hnegative, hdays, hclock, micros_pieces,
    ← or_assoc]
  refine or_congr_left ?_
  split at hsign <;> omega

end Duration

/-! ### Interval literals -/

variable {m : Mapping}

theorem literal_interval (hm : m.kind = .scalar .interval) (d : Duration) :
    m.literal (.timeSpan d) = .ok ("INTERVAL '" ++ String.ofList d.pieces.text ++ "'") := by
  rw [d.text_pieces]
  exact Mapping.literal_of_kind hm rfl rfl

/-- **A duration is exact under one sign.**  Its text is of the form `[-][D ]HH:MM:SS[.F]`, and with
the sign taken for the whole it says the duration, to the microsecond. -/
theorem exists_pieces_intervalLiteral (hm : m.kind = .scalar .interval) (d : Duration) :
    ∃ p : IntervalPieces,
      m.literal (.timeSpan d) = .ok ("INTERVAL '" ++ String.ofList p.text ++ "'") ∧
        readUnderOneSign p.text = some d.micros := by
  refine ⟨d.pieces, literal_interval hm d, ?_⟩
  rw [IntervalPieces.readUnderOneSign_text, Duration.micros_pieces]

/-- A day, an hour and a little more ago; the last nanoseconds are cut off. -/
theorem exists_pieces_intervalLiteral_dayAndHourAgo :
    Mapping.interval.kind = .scalar .interval ∧
      Mapping.interval.literal (.timeSpan ⟨-90000500000999⟩) = .ok "INTERVAL '-1 01:00:00.5'" ∧
      ∃ p : IntervalPieces,
        Mapping.interval.literal (.timeSpan ⟨-90000500000999⟩)
          = .ok ("INTERVAL '" ++ String.ofList p.text ++ "'") ∧
        readUnderOneSign p.text = some (-90000500000) :=
  ⟨rfl, by rfl, exists_pieces_intervalLiteral rfl ⟨-90000500000999⟩⟩

/-- **The database reads a duration back** exactly when it is less than a day back in time or whole
days: the sign at the days is not that of the clock behind them. -/
theorem readUnderOwnSigns_intervalLiteral_iff (hm : m.kind = .scalar .interval) (d : Duration) :
    ∃ text v, m.literal (.timeSpan d) = .ok ("INTERVAL '" ++ String.ofList text ++ "'") ∧
      readUnderOwnSigns text = some v ∧
      (v = d.micros ↔ -(microsPerDay : Int) < d.micros ∨ (microsPerDay : Int) ∣ d.micros) :=
  ⟨d.pieces.text, d.pieces.microsByField, literal_interval hm d,
    d.pieces.readUnderOwnSigns_text, d.microsByField_pieces_eq_iff⟩

/-- Two days ago is read back. -/
theorem readUnderOwnSigns_intervalLiteral_twoDaysAgo :
    Mapping.interval.kind = .scalar .interval ∧
      ∃ text, Mapping.interval.literal (.timeSpan ⟨-172800000000000⟩)
          = .ok ("INTERVAL '" ++ String.ofList text ++ "'") ∧
        readUnderOwnSigns text = some (Duration.micros ⟨-172800000000000⟩) := by
  obtain ⟨text, v, htext, hread, hiff⟩ :=
    readUnderOwnSigns_intervalLiteral_iff (m := Mapping.interval) rfl ⟨-172800000000000⟩
  obtain rfl := hiff.2 (.inr (by decide))
  exact ⟨rfl, text, htext, hread⟩

/-- A day and an hour ago is read as a day back and an hour on. -/
theorem readUnderOwnSigns_dayAndHourAgo :
    Mapping.interval.literal (.timeSpan ⟨-90000000000000⟩) = .ok "INTERVAL '-1 01:00:00'" ∧
      readUnderOwnSigns "-1 01:00:00".toList = some (-82800000000) ∧
      Duration.micros ⟨-90000000000000⟩ = -90000000000 :=
  ⟨by rfl, by decide +kernel, by decide⟩

end PgFragment.Calendar
