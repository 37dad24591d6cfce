import WireTypes.Code.Comment
import WireTypes.Code.Expr
import WireTypes.Code.Ident
import WireTypes.Options
import WireTypes.Shape

/-!
# Type expressions of shapes

The expression of a shape. A rule for a name wins; numbers carry their Go name in a comment; a
name that nothing answers becomes the fallback, with the name in a comment; byte sequences are text.
-/

set_option autoImplicit false

namespace WireTypes.Code

/-- What is fixed while the shapes of one declaration are mapped: the options, the Go package that
the declaration belongs to, and its name for messages. -/
structure Context where
  options : Options
  package : String
  decl : String

namespace Context

/-- The rule for a name of the package: under the bare name, else under the qualified one. -/
def localRule? (ctx : Context) (name : String) : Option String :=
  (ctx.options.overrides.get? name).or
    (ctx.options.overrides.get? (ctx.package ++ "." ++ name))

/-- Refuses the declaration. -/
def malformed {α : Type} (ctx : Context) (reason : Malformation) : Except Error α :=
  throw (.malformedDeclaration ctx.decl reason)

end Context

/-- A member as it is written: a name, quoted if need be, a type and comments. -/
structure Property where
  name : String
  optional : Bool
  readonly : Bool
  type : Expr
  doc : Option String
  comment : Option String
deriving Repr

/-- The lines of a property at a depth. -/
def Property.render (options : Options) (depth : Nat) (p : Property) : String :=
  Comment.docBlock? options.comments.hasDocs p.doc depth options.indent ++
    Comment.indentation depth options.indent ++
    (if p.readonly then "readonly " else "") ++ p.name ++ (if p.optional then "?" else "") ++
    ": " ++ p.type.text ++ ";" ++
    Comment.inline? options.comments.hasInline p.comment ++ "\n"

/-- Properties one after the other. -/
def renderProperties (options : Options) (depth : Nat) (ps : List Property) : String :=
  String.join (ps.map (·.render options depth))

/-- The expression of a primitive. -/
def primitiveExpr (options : Options) (p : Package.Primitive) : Expr :=
  match p with
  | .bool => .simple "boolean" .other
  | .string => .simple "string" .string
  | .any => .ofText options.fallback
  | p => .simple ("number /* " ++ p.name ++ " */") .numeric

/-- The fallback, annotated with the name that it stands for. -/
def fallbackExpr (options : Options) (name : String) : Expr :=
  let note := String.ofList (Comment.escapeClosing name.toList)
  .simple (options.fallback ++ " /* " ++ note ++ " */") .other

/-- The expression of a reference to a declaration of the package. -/
def namedExpr (ctx : Context) (name : String) : Except Error Expr :=
  if name.isEmpty then ctx.malformed .emptyReference
  else
    match ctx.localRule? name with
    | some expr => pure (.ofText expr)
    | none => pure (.simple name .named)

/-- The expression of a name that nothing answers. -/
def unresolvedExpr (ctx : Context) (name : String) : Except Error Expr :=
  if name.isEmpty then ctx.malformed .emptyUnresolved
  else
    match ctx.options.overrides.get? name with
    | some expr => pure (.ofText expr)
    | none => pure (fallbackExpr ctx.options name)

/-- An index signature; keys that cannot index become strings. -/
def mapExpr (key value : Expr) : Expr :=
  .simple ("\x7b [key: " ++ (if key.canIndex then key.text else "string") ++ "]: " ++
    (value.orElse "undefined").text ++ " \x7d") .other

/-- An object type with the given properties, at a depth. -/
def recordExpr (options : Options) (depth : Nat) (ps : List Property) : Expr :=
  .simple ("\x7b\n" ++ renderProperties options (depth + 1) ps ++
    Comment.indentation depth options.indent ++ "\x7d") .other

/-- `null` as an alternative, unless it is one. -/
def pointerExpr (e : Expr) : Expr :=
  if e.nullable then e else e.orElse "null"

/-- The name of a member: that of its tag unless empty, else that of the Go field. -/
def memberName (options : Options) (rename : Option String) (goName : String) : String :=
  match rename with
  | some name => if name.isEmpty then options.nameStyle.apply goName else name
  | none => options.nameStyle.apply goName

mutual

/-- The expression of a shape, at the depth of the line on which it starts. -/
def toExpr (ctx : Context) : Shape → Nat → Except Error Expr
  | .primitive p, _ => pure (primitiveExpr ctx.options p)
  | .named name, _ => namedExpr ctx name
  | .unresolved name, _ => unresolvedExpr ctx name
  | .map key value, depth => do
    let key ← toExpr ctx key depth
    let value ← toExpr ctx value depth
    pure (mapExpr key value)
  | .sequence elem, depth =>
    if elem.isByte then pure (.simple "string" .string)
    else do
      let elem ← toExpr ctx elem depth
      pure (.simple (elem.operand ++ "[]") .other)
  | .pointer inner, depth => do
    let inner ← toExpr ctx inner depth
    pure (pointerExpr inner)
  | .optional inner, depth => do
    let inner ← toExpr ctx inner depth
    pure (inner.orElse "undefined")
  | .record members, depth => do
    let ps ← toProperties ctx members (depth + 1)
    pure (recordExpr ctx.options depth ps)
termination_by structural s => s

/-- The properties of members that are not skipped, in order. -/
def toProperties (ctx : Context) : List (Member Shape) → Nat → Except Error (List Property)
  | [], _ => pure []
  | member :: rest, depth => do
    match ← toProperty? ctx member depth with
    | none => toProperties ctx rest depth
    | some p => return p :: (← toProperties ctx rest depth)
termination_by structural members => members

/-- The property of a member, unless it is skipped. -/
def toProperty? (ctx : Context) : Member Shape → Nat → Except Error (Option Property)
  | ⟨type, goName, rename, optional, readonly, skip, override, doc, comment⟩, depth => do
    if skip then return none
    let type ←
      match override with
      | some expr => pure (Expr.ofText expr)
      | none => toExpr ctx type depth
    let name := propertyName (memberName ctx.options rename goName)
    return some { name, optional, readonly, type, doc, comment }
termination_by structural member => member

end

end WireTypes.Code
