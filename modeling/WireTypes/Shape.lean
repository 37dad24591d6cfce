import WireTypes.Package.Primitive

/-!
# Shapes

The shape of a Go type on the wire, with references sorted into those that a declaration of the
same output answers and those that nothing answers. Named types are referred to and never expanded,
so a shape is a finite tree also when a type refers to itself.
-/

set_option autoImplicit false

namespace WireTypes

/-- A member of a record whose types are `τ`, before the options of an output have their say about
names and comments. -/
structure Member (τ : Type) where
  type : τ
  goName : String
  /-- The name that a tag gives. -/
  rename : Option String
  optional : Bool
  readonly : Bool
  /-- Left out of the output. -/
  skip : Bool
  /-- TypeScript to be written in place of the type. -/
  override : Option String
  doc : Option String
  comment : Option String
deriving Repr, Inhabited

/-- A member with a name and a type, and nothing else to say about it. -/
def Member.plain {τ : Type} (goName : String) (type : τ) : Member τ :=
  { type, goName, rename := none, optional := false, readonly := false, skip := false,
    override := none, doc := none, comment := none }

/-- The shape of a type. -/
inductive Shape where
  | primitive (p : Package.Primitive)
  /-- A declaration of the same package. -/
  | named (name : String)
  /-- A name that no declaration of the package answers. -/
  | unresolved (name : String)
  | record (members : List (Member Shape))
  | map (key value : Shape)
  | sequence (elem : Shape)
  /-- A value that may be missing. -/
  | optional (inner : Shape)
  /-- A value that may be null. -/
  | pointer (inner : Shape)
deriving Repr, Inhabited

/-- The Go spelling of a shape that is a name. Constants are grouped by it. -/
def Shape.typeName? : Shape → Option String
  | .primitive p => some p.name
  | .named name | .unresolved name => some name
  | _ => none

/-- A primitive whose sequences are base64 text. -/
def Shape.isByte : Shape → Bool
  | .primitive p => p.isByte
  | _ => false

end WireTypes
