import WireTypes.Decimal.Text
import WireTypes.Document.Tree

/-!
# Plain scalars

The value of text without quotes: null, a truth value, a number, or the text itself. Numbers with a
leading zero are text, and whole numbers beyond 64 bits have no value while they fit 128.
-/

set_option autoImplicit false

namespace WireTypes.Document.Plain

/-- The words for nothing. -/
def isNull (s : String) : Bool :=
  s = "~" || s = "null" || s = "Null" || s = "NULL"

/-- The words for truth values. -/
def bool? (s : String) : Option Bool :=
  if s = "true" ∨ s = "True" ∨ s = "TRUE" then some true
  else if s = "false" ∨ s = "False" ∨ s = "FALSE" then some false
  else none

/-! ## Whole numbers -/

/-- Digits with a zero in front of others, after a sign or none. -/
def hasLeadingZero (cs : List Char) : Bool :=
  match (Decimal.takeSign cs).2 with
  | '0' :: c :: rest => (c :: rest).all Char.isDigit
  | _ => false

/-- A whole number in the base that its first two characters announce, if they do. -/
def based? : List Char → Option Nat
  | '0' :: 'x' :: digits => Decimal.natOfDigits? 16 digits
  | '0' :: 'o' :: digits => Decimal.natOfDigits? 8 digits
  | '0' :: 'b' :: digits => Decimal.natOfDigits? 2 digits
  | _ => none

/-- A whole number below `limit` in any of the four notations. -/
def magnitude? (limit : Nat) (cs : List Char) : Option Nat :=
  let fits (n : Nat) : Bool := n < limit
  ((based? cs).filter fits).or
    (if hasLeadingZero cs then none else (Decimal.natOfDigits? 10 cs).filter fits)

/-- A whole number below `limit` with a plus sign or none. -/
def nat? (limit : Nat) (cs : List Char) : Option Nat :=
  match cs with
  | '+' :: digits => magnitude? limit digits
  | _ => magnitude? limit cs

/-- A whole number with a minus sign, down to `-limit`. -/
def negative? (limit : Nat) (cs : List Char) : Option Int :=
  match cs with
  | '-' :: digits => (magnitude? (limit + 1) digits).map fun n => -(n : Int)
  | _ => none

/-! ## Numbers with a fraction -/

/-- The characters that a number in decimal notation may have. Words for special values have
others. -/
def isFloatChar (c : Char) : Bool :=
  c.isDigit || c = '.' || c = 'e' || c = 'E' || c = '+' || c = '-'

/-- A finite number in decimal notation, or one of the words for infinity and for no number. -/
def float? (cs : List Char) : Option Float :=
  let s := String.ofList cs
  if s = ".nan" ∨ s = ".NaN" ∨ s = ".NAN" then some (0 / 0)
  else
    let digits := (Decimal.takeSign cs).2
    let word := String.ofList digits
    if word = ".inf" ∨ word = ".Inf" ∨ word = ".INF" then
      some (if cs.head? = some '-' then -1 / 0 else 1 / 0)
    else if cs.all isFloatChar then (Decimal.read? cs).filter Float.isFinite
    else none

/-! ## All together -/

/-- The value of a plain scalar. -/
def atom? (s : String) : Option Atom :=
  let cs := s.toList
  if s.isEmpty ∨ isNull s then some .null
  else
    match bool? s, nat? (Nat.pow 2 64) cs, negative? (Nat.pow 2 63) cs with
    | some b, _, _ => some (.bool b)
    | none, some n, _ => some (.nat n)
    | none, none, some i => some (.int i)
    | none, none, none =>
      if (nat? (Nat.pow 2 128) cs).isSome ∨ (negative? (Nat.pow 2 127) cs).isSome then none
      else
        match if hasLeadingZero cs then none else float? cs with
        | some x => some (.float x)
        | none => some (.text s)

end WireTypes.Document.Plain
