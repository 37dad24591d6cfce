/-!
# Classes of characters

A class of characters is a list of strides over code points: the first and the last member of a
stretch, and the distance between neighbours (capital and small letters often alternate, so a
distance of two is common). `CharClass.contains` is membership.

The letters of ASCII are two stretches (`isUpper_iff`, `isLower_iff`).
-/

set_option autoImplicit false

namespace WireTypes.Text

/-- The code points `first`, `first + step`, … up to `last`. -/
structure Stride where
  first : Nat
  last : Nat
  step : Nat
deriving Repr, DecidableEq

/-- A code point is in a stride when it lies between the ends and on the grid of the stride. -/
def Stride.contains (s : Stride) (n : Nat) : Bool :=
  s.first ≤ n && n ≤ s.last && (n - s.first) % s.step == 0

/-- A class of characters, as the strides that make it up. -/
abbrev CharClass := List Stride

/-- A character is in a class when its code point is in one of the strides. -/
def CharClass.contains (k : CharClass) (c : Char) : Bool :=
  k.any (·.contains c.toNat)

/-! ## Letters of ASCII -/

variable {c : Char}

theorem isUpper_iff : c.isUpper ↔ 65 ≤ c.toNat ∧ c.toNat ≤ 90 :=
  decide_eq_true_iff

theorem isLower_iff : c.isLower ↔ 97 ≤ c.toNat ∧ c.toNat ≤ 122 := by
  show (decide _ && decide _) = true ↔ _
  rw [Bool.and_eq_true, decide_eq_true_iff, decide_eq_true_iff]
  rfl

theorem isAlpha_iff : c.isAlpha ↔ c.isUpper ∨ c.isLower := by
  show (c.isUpper || c.isLower) = true ↔ _
  rw [Bool.or_eq_true]

theorem isAlphanum_iff : c.isAlphanum ↔ c.isAlpha ∨ c.isDigit := by
  show (c.isAlpha || c.isDigit) = true ↔ _
  rw [Bool.or_eq_true]

end WireTypes.Text
