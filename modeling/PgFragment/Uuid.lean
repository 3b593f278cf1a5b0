import PgFragment.Text.Numeral

namespace PgFragment

/-!
# Universally unique identifiers

A 128-bit number, written in 32 lower-case hexadecimal digits in five groups.
-/

/-- A 128-bit identifier. -/
structure Uuid where
  bits : BitVec 128
  deriving DecidableEq

namespace Uuid

/-- The groups of 8, 4, 4, 4 and 12 digits between hyphens. -/
def text (u : Uuid) : List Char :=
  let digits := Text.hexadecimal 32 u.bits.toNat
  let group (start length : Nat) := (digits.drop start).take length
  group 0 8 ++ '-' :: group 8 4 ++ '-' :: group 12 4 ++ '-' :: group 16 4 ++ '-' :: group 20 12

end Uuid

end PgFragment
