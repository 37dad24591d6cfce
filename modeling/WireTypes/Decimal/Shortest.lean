import WireTypes.Decimal.Double

/-!
# Shortest decimals

The decimal with the fewest digits that reads back as a given double, and of those the nearest one.
The numbers that round to a double form an interval; a decimal grid has a point in it exactly when
one of the two grid points around the double is in it, so the grids are tried from coarse to fine.
-/

set_option autoImplicit false

namespace WireTypes.Decimal

/-- The numbers that round to a double, scaled to whole numbers. The ends belong to the interval
when the mantissa is even, because a tie goes to the even neighbour. -/
structure Interval where
  low : Nat
  value : Nat
  high : Nat
  closed : Bool

/-- The interval of `mantissa * 2 ^ exponent` in quarters of `2 ^ exponent`. Below a power of two
the doubles lie twice as close. -/
def Interval.ofDouble (mantissa : Nat) (exponent : Int) : Interval :=
  let below := if mantissa = Nat.pow 2 52 ∧ -1074 < exponent then 1 else 2
  { low := 4 * mantissa - below, value := 4 * mantissa, high := 4 * mantissa + 2,
    closed := mantissa % 2 == 0 }

/-- All three numbers times `k`. -/
def Interval.scale (i : Interval) (k : Nat) : Interval :=
  { i with low := i.low * k, value := i.value * k, high := i.high * k }

/-- Membership. -/
def Interval.contains (i : Interval) (n : Nat) : Bool :=
  if i.closed then i.low ≤ n && n ≤ i.high else i.low < n && n < i.high

/-- The multiple of `unit` in the interval that is nearest to its value, as a count of units. A tie
goes up. -/
def Interval.onGrid? (i : Interval) (unit : Nat) : Option Nat :=
  let d := i.value / unit
  match i.contains (d * unit), i.contains ((d + 1) * unit) with
  | true, true => if i.value - d * unit < (d + 1) * unit - i.value then some d else some (d + 1)
  | true, false => some d
  | false, true => some (d + 1)
  | false, false => none

/-- Tries the grids of `10 ^ e`, `10 ^ (e - 1)`, … and answers the digits and the power of ten of
the first hit. -/
def firstGrid (i : Interval) (scale : Nat) : Nat → Int → Option (Nat × Int)
  | 0, _ => none
  | tries + 1, e =>
    match (i.scale (Nat.pow 10 (-e).toNat)).onGrid? (scale * Nat.pow 10 e.toNat) with
    | some d => some (d, e)
    | none => firstGrid i scale tries (e - 1)

/-- A power of ten that is not below `mantissa * 2 ^ exponent` and exceeds it by two digits at
most. -/
def topPower (mantissa : Nat) (exponent : Int) : Int :=
  let e := (mantissa.log2 : Int) + exponent
  if 0 ≤ e then e * 30103 / 100000 + 1 else 1 - (-e) * 30102 / 100000

/-- The shortest decimal `(d, e)`, standing for `d * 10 ^ e`, that reads back as
`mantissa * 2 ^ exponent`. Seventeen digits are always enough. -/
def shortest (mantissa : Nat) (exponent : Int) : Nat × Int :=
  if mantissa = 0 then (0, 0)
  else
    let i := (Interval.ofDouble mantissa exponent).scale (Nat.pow 2 exponent.toNat)
    (firstGrid i (4 * Nat.pow 2 (-exponent).toNat) 24 (topPower mantissa exponent)).getD (0, 0)

end WireTypes.Decimal
