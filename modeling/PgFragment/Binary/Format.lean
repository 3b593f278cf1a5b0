namespace PgFragment.Binary

/-!
# Binary floating-point formats

The interchange formats: from the top, a sign bit, a biased exponent field and a fraction field.
`Format.decode` reads the bits as a sign, a natural number `m` and a power `q`, which denote
`m · 2 ^ q`.  Numbers are compared by what they denote, so the two zeros are one number and a bit
pattern that is no number equals nothing.  Main statement: this comparison is symmetric and
transitive, and holds of a pattern and itself exactly when it is a number.
-/

/-- A format is given by the widths of its fraction and exponent fields. -/
structure Format where
  fractionBits : Nat
  exponentBits : Nat

/-- The 32-bit format. -/
def single : Format := ⟨23, 8⟩

/-- The 64-bit format. -/
def double : Format := ⟨52, 11⟩

/-- What a bit pattern denotes. -/
inductive Decoded where
  | nan
  | infinite (negative : Bool)
  /-- The number `m · 2 ^ q`, or its negative. -/
  | finite (negative : Bool) (m : Nat) (q : Int)
  deriving DecidableEq

namespace Format

variable (format : Format)

/-- The fraction field. -/
def fraction (bits : Nat) : Nat := bits % (1 <<< format.fractionBits)

/-- The exponent field, biased. -/
def exponent (bits : Nat) : Nat := (bits >>> format.fractionBits) % (1 <<< format.exponentBits)

/-- The sign bit. -/
def isNegative (bits : Nat) : Bool :=
  (bits >>> (format.fractionBits + format.exponentBits)) % 2 == 1

/-- The power of two of the numbers next to zero. -/
def lowestPower : Int := 2 - (1 <<< (format.exponentBits - 1) : Nat) - format.fractionBits

/-- What the bits denote. -/
def decode (bits : Nat) : Decoded :=
  let negative := format.isNegative bits
  let fraction := format.fraction bits
  let exponent := format.exponent bits
  if exponent = (1 <<< format.exponentBits) - 1 then
    if fraction = 0 then .infinite negative else .nan
  else if exponent = 0 then .finite negative fraction format.lowestPower
  else
    .finite negative ((1 <<< format.fractionBits) + fraction) (format.lowestPower + (exponent - 1))

/-- The exponent field is full and the fraction is not zero. -/
def isNaN (bits : Nat) : Bool := format.decode bits == .nan

/-- All bits but the sign are zero. -/
def isZero (bits : Nat) : Bool := bits % (1 <<< (format.fractionBits + format.exponentBits)) == 0

/-- The bits that stand for a number in look-ups: one pattern for both zeros. -/
def canonical (bits : Nat) : Nat := if format.isZero bits then 0 else bits

/-- Both patterns denote the same number. -/
def sameNumber (a b : Nat) : Bool :=
  !format.isNaN a && !format.isNaN b && format.canonical a == format.canonical b

/-- Shifts `m` up to the full width of a number of this format, as far as the powers reach; the
value `m · 2 ^ q` stays. -/
def align (m : Nat) (q : Int) : Nat × Int :=
  let shift := min (format.fractionBits - m.log2) (q - format.lowestPower).toNat
  (m <<< shift, q - shift)

theorem sameNumber_self (a : Nat) : format.sameNumber a a = !format.isNaN a := by
  simp [sameNumber]

theorem sameNumber_comm (a b : Nat) : format.sameNumber a b = format.sameNumber b a := by
  rw [sameNumber, sameNumber, Bool.and_comm (!format.isNaN a), BEq.comm]

theorem sameNumber_trans {a b c : Nat} (hab : format.sameNumber a b = true)
    (hbc : format.sameNumber b c = true) : format.sameNumber a c = true := by
  simp only [sameNumber, Bool.and_eq_true, beq_iff_eq] at *
  exact ⟨⟨hab.1.1, hbc.1.2⟩, hab.2.trans hbc.2⟩

theorem canonical_eq_of_sameNumber {a b : Nat} (h : format.sameNumber a b = true) :
    format.canonical a = format.canonical b := by
  simp only [sameNumber, Bool.and_eq_true, beq_iff_eq] at h
  exact h.2

end Format

end PgFragment.Binary
