import WireTypes.Location
import WireTypes.Package.Literal
import WireTypes.Shape

/-!
# Declarations

What the declarations of a Go file become: types, constants, and text that is copied as it stands.
-/

set_option autoImplicit false

namespace WireTypes

/-- How a type is declared: an interface with the members of a struct, an alias, or an interface of
methods, of which nothing goes over the wire. -/
inductive TypeKind where
  | struct | alias | interface
deriving Repr, DecidableEq, Inhabited

/-- A type that an interface extends. -/
structure Parent where
  name : String
  /-- It was embedded by pointer, so that all of its members may be missing. -/
  partly : Bool
deriving Repr, DecidableEq, Inhabited

/-- A declared type. -/
structure TypeDecl where
  name : String
  kind : TypeKind
  body : Shape
  heritage : List Parent
  doc : Option String
  comment : Option String
  location : Location
deriving Repr, Inhabited

/-- A declared constant. An untyped one has the default type of its value. -/
structure ConstDecl where
  name : String
  type : Shape
  value : Package.Literal
  doc : Option String
  comment : Option String
  location : Location
deriving Repr, Inhabited

/-- The name by which constants are grouped; constants of composite type share the empty one. -/
def ConstDecl.typeName (d : ConstDecl) : String :=
  d.type.typeName?.getD ""

/-- An entry of a file. -/
inductive Item where
  | type (decl : TypeDecl)
  | const (decl : ConstDecl)
  | emit (text : String)
deriving Repr, Inhabited

/-- The name that an item declares, and where. -/
def Item.declared? : Item → Option (String × Location)
  | .type decl => some (decl.name, decl.location)
  | .const decl => some (decl.name, decl.location)
  | .emit _ => none

end WireTypes
