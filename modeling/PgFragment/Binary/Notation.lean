import PgFragment.Binary.Shortest
import PgFragment.Text.Numeral

namespace PgFragment.Binary

/-!
# Writing floating-point numbers

Two notations of the shortest decimal.  `plain` never uses an exponent and adds no fraction to a
whole number; SQL literals are written in it.  `shown` is for messages: it keeps at least one
decimal, and takes an exponent from `10 ^ 16` upwards and below `10 ^ -4`.
-/

open Text

namespace Decimal

/-- Positional digits, with `wholeEnding` after a whole number. -/
def positional (wholeEnding : List Char) (d : Decimal) : List Char :=
  let digits := decimal d.digits
  if 0 ≤ d.exponent then digits ++ List.replicate d.exponent.toNat '0' ++ wholeEnding
  else
    let places := (-d.exponent).toNat
    let digits := digits.leftpad (places + 1) '0'
    digits.take (digits.length - places) ++ '.' :: digits.drop (digits.length - places)

/-- The power of ten of the leading digit. -/
def magnitude (d : Decimal) : Int := d.exponent + (decimal d.digits).length - 1

/-- One digit, the others after a point, and the power of ten. -/
def scientific (d : Decimal) : List Char :=
  (match decimal d.digits with
    | [] => []
    | [c] => [c]
    | c :: rest => c :: '.' :: rest) ++ 'e' :: (signedDecimal d.magnitude).toList

/-- The notation of messages. -/
def forMessage (d : Decimal) : List Char :=
  if d.digits ≠ 0 ∧ (16 ≤ d.magnitude ∨ d.magnitude < -4) then d.scientific
  else d.positional ['.', '0']

end Decimal

/-- Writes what `bits` denote: the shortest decimal through `write`, with a sign in front. -/
def Format.text (format : Format) (nan infinity : String) (write : Decimal → List Char)
    (bits : Nat) : String :=
  let signed (negative : Bool) (s : String) := if negative then "-" ++ s else s
  match format.decode bits with
  | .nan => nan
  | .infinite negative => signed negative infinity
  | .finite negative m q =>
    signed negative (String.ofList (write (if m = 0 then ⟨0, 0⟩ else format.shortest m q)))

/-- A floating-point number as messages show it. -/
def Format.shown (format : Format) (bits : Nat) : String :=
  format.text "NaN" "inf" Decimal.forMessage bits

end PgFragment.Binary
