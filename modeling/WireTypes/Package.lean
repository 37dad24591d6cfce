import WireTypes.Package.Literal

/-!
# Resolved packages

The declarations of one Go package as a resolver writes them down: every type expression already
says which package a name belongs to.
-/

set_option autoImplicit false

namespace WireTypes.Package

/-- A field of a struct whose types are `τ`. A field without a name is embedded. -/
structure Field (τ : Type) where
  type : τ
  name : Option String
  tag : Option String
  doc : Option String
  comment : Option String
deriving Repr, Inhabited

/-- A method of an interface. -/
structure Method where
  name : String
  signature : Option String
deriving Repr, DecidableEq, Inhabited

/-- A type expression. A name without a package belongs to the package at hand. -/
inductive TypeExpr where
  | basic (name : String)
  | named (package : Option String) (name : String)
  | pointer (elem : TypeExpr)
  | slice (elem : TypeExpr)
  | array (elem : TypeExpr) (length : Option Nat)
  | map (key value : TypeExpr)
  | struct (fields : List (Field TypeExpr))
  | interface (methods : List Method) (embeds : List TypeExpr)
  | func
  | chan (elem : TypeExpr)
deriving Repr, Inhabited

/-- `type Name Underlying` -/
structure TypeSpec where
  name : String
  underlying : TypeExpr
  doc : Option String
  comment : Option String
  line : Option Nat
deriving Repr, Inhabited

/-- `const Name Type = Value`; an untyped constant has no type. -/
structure ConstSpec where
  name : String
  type : Option TypeExpr
  value : Literal
  doc : Option String
  comment : Option String
  line : Option Nat
deriving Repr, Inhabited

/-- A declaration, or TypeScript to be copied into the output as it stands. -/
inductive Decl where
  | type (spec : TypeSpec)
  | const (spec : ConstSpec)
  | emit (text : String)
deriving Repr, Inhabited

/-- A Go file with its declarations, in order. -/
structure File where
  name : String
  decls : List Decl
deriving Repr, Inhabited

end WireTypes.Package

namespace WireTypes

/-- A Go package with its files, in order. -/
structure Package where
  name : String
  files : List Package.File
deriving Repr, Inhabited

end WireTypes
