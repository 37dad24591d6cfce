import WireTypes.Package.Primitive

/-!
# Values of constants

The values that constants have in resolved Go code.
-/

set_option autoImplicit false

namespace WireTypes.Package

/-- A constant's value: a plain literal, or the text of an expression that is none. -/
inductive Literal where
  | bool (b : Bool)
  | int (i : Int)
  | float (x : Float)
  | string (s : String)
  | expr (text : String)
deriving Repr, Inhabited

/-- The type that an untyped constant takes from its value. -/
def Literal.defaultType : Literal → Primitive
  | .bool _ => .bool
  | .int _ | .expr _ => .int
  | .float _ => .float64
  | .string _ => .string

end WireTypes.Package
