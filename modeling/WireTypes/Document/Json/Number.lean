import WireTypes.Decimal.Text
import WireTypes.Document.Tree

/-!
# Numbers of JSON

A whole number that fits 64 bits keeps its value. Every other number is a double: its leading digits
as far as they fit 64 bits, scaled by a power of ten in double arithmetic.
-/

set_option autoImplicit false

namespace WireTypes.Document.Json

/-- The parts of a number: its sign, the digits before and after the point, and the exponent. -/
structure Number where
  negative : Bool
  whole : List Char
  fraction : List Char
  exponent : Int
  /-- There is neither a fraction nor an exponent. -/
  isWhole : Bool
deriving Repr

/-! ## Reading the parts -/

/-- The digits before the point: a zero, or digits that start with another one. -/
def whole? (cs : List Char) : Option (List Char × List Char) :=
  match cs with
  | '0' :: rest => some (['0'], rest)
  | _ =>
    let (digits, rest) := Decimal.takeDigits cs
    if digits.isEmpty then none else some (digits, rest)

/-- The digits after a point, if there is a point. -/
def fraction? (cs : List Char) : Option (List Char × List Char) :=
  match cs with
  | '.' :: rest =>
    let (digits, rest) := Decimal.takeDigits rest
    if digits.isEmpty then none else some (digits, rest)
  | _ => some ([], cs)

/-- The exponent, if there is one. -/
def exponent? (cs : List Char) : Option (Option Int × List Char) :=
  match cs with
  | c :: rest =>
    if c = 'e' ∨ c = 'E' then
      let (negative, rest) := Decimal.takeSign rest
      let (digits, rest) := Decimal.takeDigits rest
      (Decimal.natOfDigits? 10 digits).map fun n =>
        (some (if negative then -(n : Int) else n), rest)
    else some (none, cs)
  | [] => some (none, cs)

/-- The number at the start of a text, and the rest. -/
def number? (cs : List Char) : Option (Number × List Char) := do
  let (negative, cs) :=
    match cs with
    | '-' :: rest => (true, rest)
    | _ => (false, cs)
  let (whole, cs) ← whole? cs
  let (fraction, cs) ← fraction? cs
  let (exponent, cs) ← exponent? cs
  let isWhole := fraction.isEmpty && exponent.isNone
  some ({ negative, whole, fraction, exponent := exponent.getD 0, isWhole }, cs)

/-! ## Values -/

/-- Appends digits to `n` until it would not fit 64 bits; answers the number and the digits that
are left. -/
def accumulate (n : Nat) : List Char → Nat × List Char
  | [] => (n, [])
  | c :: rest =>
    let next := n * 10 + (c.toNat - 48)
    if next < Nat.pow 2 64 then accumulate next rest else (n, c :: rest)

/-- `x * 10 ^ e` in double arithmetic, for a finite `x`; none when it is infinite. Steps of 308
digits lead to a power of ten that is a double, or to zero. -/
def scale? (x : Float) (e : Int) : Nat → Option Float
  | 0 => some x
  | steps + 1 =>
    if e.natAbs ≤ 308 then
      let power := Decimal.nearest 1 e.natAbs
      if 0 ≤ e then
        let y := x * power
        if y.isInf then none else some y
      else some (x / power)
    else if x == 0 then some x
    else if 0 ≤ e then none
    else scale? (x / Decimal.nearest 1 308) (e + 308) steps

/-- The double that a number stands for, if it is finite. -/
def Number.float? (n : Number) : Option Float := do
  let (m, dropped) := accumulate 0 n.whole
  let (m, ignored) := accumulate m n.fraction
  let places : Int := n.fraction.length - ignored.length
  let x ← scale? (Decimal.nearest m 0) (n.exponent + dropped.length - places) 8
  some (if n.negative then -x else x)

/-- The value of a whole number that fits 64 bits. Negative zero is none. -/
def Number.integer? (n : Number) : Option Atom :=
  let (m, dropped) := accumulate 0 n.whole
  if !n.isWhole || !dropped.isEmpty then none
  else if !n.negative then some (.nat m)
  else if 0 < m ∧ m ≤ Nat.pow 2 63 then some (.int (-(m : Int)))
  else none

/-- The scalar of a number. One that is beyond the finite doubles can only be ignored. -/
def Number.scalar (n : Number) : Scalar :=
  match n.integer?, n.float? with
  | some a, _ => .typed a
  | none, some x => .typed (.float x)
  | none, none => .unreadable

end WireTypes.Document.Json
