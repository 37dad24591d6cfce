import WireTypes.Text.CharClass

/-!
# Blanks

White space in the sense of Unicode, and texts without the blanks at their ends.
-/

set_option autoImplicit false

namespace WireTypes.Text

/-- The strides of the property `White_Space`. -/
def whiteSpace : CharClass :=
  [⟨0x09, 0x0D, 1⟩, ⟨0x20, 0x20, 1⟩, ⟨0x85, 0x85, 1⟩, ⟨0xA0, 0xA0, 1⟩, ⟨0x1680, 0x1680, 1⟩,
   ⟨0x2000, 0x200A, 1⟩, ⟨0x2028, 0x2029, 1⟩, ⟨0x202F, 0x202F, 1⟩, ⟨0x205F, 0x205F, 1⟩,
   ⟨0x3000, 0x3000, 1⟩]

/-- White space of any script, line ends included. -/
def isBlank (c : Char) : Bool :=
  whiteSpace.contains c

/-- The list without its longest suffix of members that satisfy `p`. -/
def dropEndWhile {α : Type} (p : α → Bool) : List α → List α
  | [] => []
  | a :: rest =>
    match dropEndWhile p rest with
    | [] => if p a then [] else [a]
    | b :: kept => a :: b :: kept

/-- The text without the blanks at its end. -/
def trimEnd (cs : List Char) : List Char :=
  dropEndWhile isBlank cs

/-- The text without the blanks at either end. -/
def trim (cs : List Char) : List Char :=
  trimEnd (cs.dropWhile isBlank)

/-- A text of blanks only, the empty text included. -/
def isBlankText (s : String) : Bool :=
  s.toList.all isBlank

/-- `trim` on strings. -/
def trimmed (s : String) : String :=
  .ofList (trim s.toList)

end WireTypes.Text
