namespace PgFragment.Text

/-!
# Numerals

Writing natural numbers in decimal and hexadecimal digits, and reading the 32-bit counts that
stand in type names.  A count is read from left to right and fails at the first character that is
no digit or takes the value out of range.  Main statement: what is read back from the decimal
digits of a 32-bit number is that number.
-/

/-- Why a text is no 32-bit count. -/
inductive NumeralFault where
  | empty
  | invalidDigit
  | tooLarge
  deriving DecidableEq

/-- The wording of a fault. -/
def NumeralFault.message : NumeralFault → String
  | .empty => "cannot parse integer from empty string"
  | .invalidDigit => "invalid digit found in string"
  | .tooLarge => "number too large to fit in target type"

/-! ### Writing -/

/-- The decimal digits of a number, without leading zeros. -/
def decimal (n : Nat) : List Char := Nat.toDigits 10 n

/-- The decimal digits of a number, with zeros in front up to `width` digits. -/
def padded (width n : Nat) : List Char := (decimal n).leftpad width '0'

/-- The last `width` hexadecimal digits of a number, in lower case. -/
def hexadecimal : (width : Nat) → (n : Nat) → List Char
  | 0, _ => []
  | width + 1, n => hexadecimal width (n / 16) ++ [Nat.digitChar (n % 16)]

/-- `decimal` as a string. -/
def decimalString (n : Nat) : String := String.ofList (decimal n)

/-- A signed number in decimal digits. -/
def signedDecimal (n : Int) : String :=
  if n < 0 then "-" ++ decimalString n.natAbs else decimalString n.natAbs

/-! ### Reading -/

/-- The value of a decimal digit. -/
def digitValue? (c : Char) : Option Nat := if c.isDigit then some (c.toNat - 48) else none

/-- Reads digits after those that gave `value`; at one character a bad digit is reported before a
value that is out of range. -/
def readDigits (value : Nat) : List Char → Except NumeralFault Nat
  | [] => .ok value
  | c :: rest =>
    match digitValue? c with
    | none => .error .invalidDigit
    | some d =>
      if value * 10 + d < UInt32.size then readDigits (value * 10 + d) rest else .error .tooLarge

/-- Reads a 32-bit count; one plus sign may stand in front of the digits. -/
def readCount : List Char → Except NumeralFault UInt32
  | [] => .error .empty
  | ['+'] => .error .invalidDigit
  | '+' :: rest => (readDigits 0 rest).map UInt32.ofNat
  | s => (readDigits 0 s).map UInt32.ofNat

theorem length_hexadecimal (width n : Nat) : (hexadecimal width n).length = width := by
  induction width generalizing n with
  | zero => rfl
  | succ width ih => simp [hexadecimal, ih]

/-- Reading on only makes a value greater. -/
theorem le_ofDigitChars (s : List Char) (value : Nat) : value ≤ Nat.ofDigitChars 10 s value := by
  induction s generalizing value with
  | nil => simp
  | cons c s ih =>
    have h := ih (10 * value + (c.toNat - '0'.toNat))
    rw [Nat.ofDigitChars_cons]
    omega

/-- Digits in range are read as their value. -/
theorem readDigits_of_isDigit {s : List Char} {value : Nat} (hs : ∀ c ∈ s, c.isDigit)
    (h : Nat.ofDigitChars 10 s value < UInt32.size) :
    readDigits value s = .ok (Nat.ofDigitChars 10 s value) := by
  induction s generalizing value with
  | nil => simp [readDigits]
  | cons c s ih =>
    have hc : c.isDigit := hs c List.mem_cons_self
    rw [Nat.ofDigitChars_cons, Nat.mul_comm] at h
    have hlt : value * 10 + (c.toNat - 48) < UInt32.size := Nat.lt_of_le_of_lt (le_ofDigitChars s _) h
    have hs' : ∀ d ∈ s, d.isDigit := fun d hd => hs d (List.mem_cons_of_mem c hd)
    rw [readDigits, digitValue?, if_pos hc, Nat.ofDigitChars_cons, Nat.mul_comm 10]
    exact (if_pos hlt).trans (ih hs' h)

/-- The decimal digits of a 32-bit number are read as that number. -/
theorem readCount_decimal (n : UInt32) : readCount (decimal n.toNat) = .ok n := by
  have hd : ∀ c ∈ decimal n.toNat, c.isDigit := fun c hc =>
    Nat.isDigit_of_mem_toDigits (by decide) (by decide) hc
  have hn : Nat.ofDigitChars 10 (decimal n.toNat) 0 = n.toNat :=
    Nat.ofDigitChars_toDigits (by decide) (by decide)
  have hr := readDigits_of_isDigit hd (by rw [hn]; exact n.toNat_lt_size)
  rw [hn] at hr
  have hne : decimal n.toNat ≠ [] := Nat.toDigits_ne_nil
  revert hr hd hne
  generalize decimal n.toNat = s
  intro hd hr hne
  match s with
  | [] => exact absurd rfl hne
  | c :: rest =>
    have hc : c ≠ '+' := by
      rintro rfl
      exact absurd (hd '+' List.mem_cons_self) (by decide)
    simp [readCount, hc, hr, Except.map]

end PgFragment.Text
