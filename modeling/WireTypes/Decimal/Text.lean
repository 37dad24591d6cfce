import WireTypes.Decimal.Shortest

/-!
# Decimals as text

Writing a double positionally with the fewest digits, and reading the usual decimal notation.
-/

set_option autoImplicit false

namespace WireTypes.Decimal

/-! ## Writing -/

/-- `d * 10 ^ e` without an exponent. -/
def positional (d : Nat) (e : Int) : List Char :=
  let digits := Nat.toDigits 10 d
  let places := (-e).toNat
  if d = 0 then ['0']
  else if 0 ≤ e then digits ++ List.replicate e.toNat '0'
  else if places < digits.length then
    digits.take (digits.length - places) ++ '.' :: digits.drop (digits.length - places)
  else '0' :: '.' :: List.replicate (places - digits.length) '0' ++ digits

/-- The spellings of the doubles that are not finite. -/
structure SpecialNames where
  nan : String
  infinity : String

/-- `NaN` and `inf`, as in a value listing. -/
def plainNames : SpecialNames := ⟨"NaN", "inf"⟩

/-- `NaN` and `Infinity`, as in generated code. -/
def codeNames : SpecialNames := ⟨"NaN", "Infinity"⟩

/-- A double as text: positional, the shortest that reads back, no trailing zeros after the point,
and a minus sign also for negative zero. -/
def write (names : SpecialNames) (x : Float) : String :=
  let sign (negative : Bool) : String := if negative then "-" else ""
  match Double.ofFloat x with
  | .nan => names.nan
  | .infinity negative => sign negative ++ names.infinity
  | .finite negative mantissa exponent =>
    let (d, e) := shortest mantissa exponent
    sign negative ++ .ofList (positional d e)

/-! ## Reading -/

/-- The number that a list of digits stands for, in base `base`. -/
def digitsValue (base : Nat) (digits : List Nat) : Nat :=
  digits.foldl (fun n d => n * base + d) 0

/-- The value of a digit in bases up to sixteen. -/
def digit? (c : Char) : Option Nat :=
  if c.isDigit then some (c.toNat - 48)
  else if 'a' ≤ c ∧ c ≤ 'f' then some (c.toNat - 87)
  else if 'A' ≤ c ∧ c ≤ 'F' then some (c.toNat - 55)
  else none

/-- A whole number written in `base` with one digit or more and nothing else. -/
def natOfDigits? (base : Nat) (cs : List Char) : Option Nat :=
  if cs.isEmpty then none
  else do
    let digits ← cs.mapM digit?
    if digits.all (· < base) then some (digitsValue base digits) else none

/-- Takes a sign off: whether it is a minus, and what follows. -/
def takeSign : List Char → Bool × List Char
  | '-' :: rest => (true, rest)
  | '+' :: rest => (false, rest)
  | cs => (false, cs)

/-- The digits at the start of a text, and the rest. -/
def takeDigits (cs : List Char) : List Char × List Char :=
  (cs.takeWhile Char.isDigit, cs.dropWhile Char.isDigit)

/-- An optional exponent, which must be the whole of the text: `e`, a sign or none, and digits. -/
def exponent? : List Char → Option Int
  | [] => some 0
  | c :: rest =>
    if c = 'e' ∨ c = 'E' then
      let (negative, digits) := takeSign rest
      (natOfDigits? 10 digits).map fun n => if negative then -(n : Int) else n
    else none

/-- Decimal notation without a sign: digits with a point anywhere or none, at least one digit, and
an exponent or none. -/
def unsigned? (cs : List Char) : Option Float :=
  let (whole, rest) := takeDigits cs
  let (fraction, rest) :=
    match rest with
    | '.' :: rest => takeDigits rest
    | rest => ([], rest)
  if whole.isEmpty && fraction.isEmpty then none
  else do
    let e ← exponent? rest
    let m ← natOfDigits? 10 (whole ++ fraction)
    some (nearest m (e - fraction.length))

/-- A double in decimal notation, with a sign or none. The words for infinity and for no number may
be in capital or small letters. -/
def read? (cs : List Char) : Option Float :=
  let (negative, digits) := takeSign cs
  let word := String.ofList (digits.map Char.toLower)
  let value? :=
    if word = "inf" ∨ word = "infinity" then some (1 / 0)
    else if word = "nan" then some (0 / 0)
    else unsigned? digits
  value?.map fun x => if negative then -x else x

end WireTypes.Decimal
