/-!
# Doubles

A double as a sign, a whole number and a power of two, and the double nearest to a decimal.
-/

set_option autoImplicit false

namespace WireTypes.Decimal

/-- What a double stands for: no number, an infinity, or `mantissa * 2 ^ exponent` with a sign. -/
inductive Double where
  | nan
  | infinity (negative : Bool)
  | finite (negative : Bool) (mantissa : Nat) (exponent : Int)
deriving Repr, DecidableEq

/-- Takes a double apart. The exponent field 0 holds the numbers below `2 ^ 52` steps of
`2 ^ -1074`; every other field adds the hidden bit. -/
def Double.ofFloat (x : Float) : Double :=
  let bits : Nat := x.toBits.toNat
  let negative := bits / Nat.pow 2 63 == 1
  let field : Nat := bits / Nat.pow 2 52 % 2048
  let fraction := bits % Nat.pow 2 52
  if field = 2047 then (if fraction = 0 then .infinity negative else .nan)
  else if field = 0 then .finite negative fraction (-1074)
  else .finite negative (fraction + Nat.pow 2 52) ((field : Int) - 1075)

/-- `a / b` rounded to the nearest whole number, a half to the even neighbour. -/
def roundDiv (a b : Nat) : Nat :=
  let quotient := a / b
  let rest := a % b
  if b < 2 * rest ∨ (2 * rest = b ∧ quotient % 2 = 1) then quotient + 1 else quotient

/-- The greatest `e` with `2 ^ e ≤ a / b`, for positive `a` and `b`. -/
def floorLog2 (a b : Nat) : Int :=
  let e := (a.log2 : Int) - b.log2
  if b * Nat.pow 2 e.toNat ≤ a * Nat.pow 2 (-e).toNat then e else e - 1

/-- The double nearest to `a / b`, infinite when that is beyond the finite doubles. Its bits, read
as a number, count the doubles from zero up: `mantissa` of the last `2 ^ 52` steps and the steps of
all smaller exponents. -/
def nearestQuotient (a b : Nat) : Float :=
  if a = 0 then 0
  else
    let exponent := max (floorLog2 a b - 52) (-1074)
    let mantissa := roundDiv (a * Nat.pow 2 (-exponent).toNat) (b * Nat.pow 2 exponent.toNat)
    let bits := (exponent + 1074).toNat * Nat.pow 2 52 + mantissa
    Float.ofBits (min bits (2047 * Nat.pow 2 52)).toUInt64

/-- The double nearest to `m * 10 ^ e`. Powers of ten beyond the range of doubles are not worked
out. -/
def nearest (m : Nat) (e : Int) : Float :=
  let size : Int := (Nat.toDigits 10 m).length + e
  if m = 0 ∨ size < -330 then 0
  else if 310 < size then Float.ofBits (2047 * Nat.pow 2 52 : Nat).toUInt64
  else nearestQuotient (m * Nat.pow 10 e.toNat) (Nat.pow 10 (-e).toNat)

end WireTypes.Decimal
