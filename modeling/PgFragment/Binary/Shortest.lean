import PgFragment.Binary.Format

namespace PgFragment.Binary

/-!
# The shortest decimal that reads back

Of the decimals `digits · 10 ^ exponent` that round to a given binary number, `shortest` takes one
on the coarsest decimal grid that has any, and on that grid the nearer of the two around the
number, the upper one on a tie.

The numbers that round to `m · 2 ^ q` lie between the middles to its two neighbours, ends included
exactly when `m` is even.  All comparisons are made in natural numbers: `Interval` keeps the number
and the two middles as multiples of `2 ^ (q - 2)`.
-/

/-- The decimal number `digits · 10 ^ exponent`. -/
structure Decimal where
  digits : Nat
  exponent : Int
  deriving DecidableEq

/-- The numbers that round to one binary number, in units of `2 ^ power`. -/
structure Interval where
  low : Nat
  middle : Nat
  high : Nat
  power : Int
  /-- The two ends round to the number as well. -/
  closed : Bool

/-- What rounds to `m · 2 ^ q`: half a step to either side, and only a quarter of one downwards
where the steps below are half as wide. -/
def Format.interval (format : Format) (m : Nat) (q : Int) : Interval :=
  let narrow := m = 1 <<< format.fractionBits ∧ format.lowestPower < q
  { low := 4 * m - if narrow then 1 else 2
    middle := 4 * m
    high := 4 * m + 2
    power := q - 2
    closed := m % 2 == 0 }

namespace Interval

variable (i : Interval)

/-- The factors that make `c · 10 ^ e` and `x · 2 ^ power` whole, in this order. -/
def factors (e : Int) : Nat × Nat :=
  (Nat.pow 10 e.toNat <<< (-i.power).toNat, Nat.pow 10 (-e).toNat <<< i.power.toNat)

/-- The decimal `c · 10 ^ e` rounds to the number. -/
def contains (c : Nat) (e : Int) : Bool :=
  let (unit, scale) := i.factors e
  if i.closed then i.low * scale ≤ c * unit && c * unit ≤ i.high * scale
  else i.low * scale < c * unit && c * unit < i.high * scale

/-- The decimal on the grid of `10 ^ e` that rounds to the number, the nearer one of two. -/
def onGrid? (e : Int) : Option Decimal :=
  let (unit, scale) := i.factors e
  let below := i.middle * scale / unit
  -- If any point of the grid lies in the interval, so does one of the two around the number.
  match i.contains below e, i.contains (below + 1) e with
  | true, true =>
    if (below + 1) * unit - i.middle * scale ≤ i.middle * scale - below * unit then
      some ⟨below + 1, e⟩
    else some ⟨below, e⟩
  | true, false => some ⟨below, e⟩
  | false, true => some ⟨below + 1, e⟩
  | false, false => none

/-- An exponent of ten whose power is above the interval. -/
def topExponent : Int := (i.high.log2 + 1 + i.power) * 30103 / 100000 + 1

/-- The decimals of the two formats need no finer grid than this many below the top. -/
def gridCount : Nat := 24

end Interval

/-- The shortest decimal that rounds to `m · 2 ^ q`. -/
def Format.shortest (format : Format) (m : Nat) (q : Int) : Decimal :=
  let i := format.interval m q
  let exponents := (List.range Interval.gridCount).map fun (n : Nat) => i.topExponent - n
  (exponents.findSome? i.onGrid?).getD ⟨0, 0⟩

end PgFragment.Binary
