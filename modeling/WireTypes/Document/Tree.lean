/-!
# Document trees

What a JSON or YAML text contains: scalars, lists and tables. The scalars of JSON say what they are;
those of YAML are text whose type depends on what is asked for.
-/

set_option autoImplicit false

namespace WireTypes.Document

/-- A tree with leaves `α`. A table keeps the order and the repetitions of its entries. -/
inductive Tree (α : Type) where
  | leaf (a : α)
  | list (items : List (Tree α))
  | table (entries : List (Tree α × Tree α))
deriving Repr, Inhabited

/-- A value without parts. A whole number is `nat` unless it is written with a minus sign. -/
inductive Atom where
  | null
  | bool (b : Bool)
  | nat (n : Nat)
  | int (i : Int)
  | float (x : Float)
  | text (s : String)
deriving Repr, Inhabited

/-- A tree whose scalars have their types. -/
abbrev Value := Tree Atom

/-- What the tag of a scalar asks for. A tag of the application's own asks for a type that no
document has; a tag of an unknown schema leaves the text as it is. -/
inductive Tag where
  | own
  | null | bool | int | float
  | foreign
deriving Repr, DecidableEq

/-- A scalar: one that says what it is, one that only a reader who ignores it accepts, or text. Text
without quotes is plain. -/
inductive Scalar where
  | typed (a : Atom)
  | unreadable
  | text (s : String) (plain : Bool) (tag : Option Tag)
deriving Repr, Inhabited

/-- A document as it is written. -/
abbrev Node := Tree Scalar

/-- What an empty document or an entry without a value contains. -/
def Node.empty : Node :=
  .leaf (.text "" true none)

end WireTypes.Document
