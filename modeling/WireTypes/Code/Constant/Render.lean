import WireTypes.Code.Constant.Family
import WireTypes.Code.Constant.Value
import WireTypes.Code.Mapping

/-!
# Constants as text

A constant is written as an exported binding. A family with an alias of its own adds a declaration
of the alias: a type alias, a union of the types of its constants, or an enumeration.
-/

set_option autoImplicit false

namespace WireTypes.Code

/-- A binding, with a type annotation or none. -/
def renderConst (options : Options) (typeText : Option String) (decl : ConstDecl) :
    Except Error String := do
  checkName decl.name decl.location
  let type := match typeText with
    | some type => ": " ++ type
    | none => ""
  pure (Comment.docBlock? options.comments.hasDocs decl.doc 0 options.indent ++
    "export const " ++ decl.name ++ type ++ " = " ++ literal decl.value ++ ";" ++
    Comment.inline? options.comments.hasConstInline decl.comment ++ "\n")

/-- Bindings with one annotation. -/
def renderConsts (options : Options) (typeText : Option String) (decls : List ConstDecl) :
    Except Error String := do
  let lines ← decls.mapM (renderConst options typeText)
  pure (String.join lines)

/-- A constant on its own. Its type is written unless it is predeclared. -/
def renderSingle (ctx : Context) (decl : ConstDecl) : Except Error String := do
  let typeText ←
    match decl.type with
    | .primitive _ => pure none
    | type => do
      let e ← toExpr { ctx with decl := decl.name } type 0
      pure (some e.text)
  renderConst ctx.options typeText decl

/-- The expression of the named type of a family, if a rule replaces that name. -/
def replacedType? (ctx : Context) (f : Family) : Except Error (Option Expr) :=
  match f.first.type with
  | .named name => do
    let e ← namedExpr { ctx with decl := f.first.name } name
    pure (if e.kind = .named then none else some e)
  | _ => pure none

/-- The alias of a family as a type alias, followed by the bindings. -/
def renderAliased (ctx : Context) (f : Family) (backing : Shape) : Except Error String := do
  checkName f.name f.first.location
  let type ← toExpr { ctx with decl := f.name } backing 0
  let bindings ← renderConsts ctx.options (some f.name) f.members
  pure ("export type " ++ f.name ++ " = " ++ type.text ++ ";\n" ++ bindings)

/-- Bindings without types, followed by the union of their types. -/
def renderTypeofUnion (ctx : Context) (f : Family) : Except Error String := do
  checkName f.name f.first.location
  let bindings ← renderConsts ctx.options none f.members
  let alternatives := " | ".intercalate (f.members.map fun decl => "typeof " ++ decl.name)
  pure (bindings ++ "export type " ++ f.name ++ " = " ++ alternatives ++ ";\n")

/-- Enumerations hold numbers and strings only. -/
def Family.isEnumerable (f : Family) : Bool :=
  f.members.all fun decl =>
    match decl.value with
    | .bool _ => false
    | _ => true

/-- The name of a constant inside the enumeration of its family: without the alias in front and the
underscores after it, unless what is left is no identifier. -/
def caseName (name family : String) : String :=
  let rest :=
    if family.toList.isPrefixOf name.toList then name.toList.drop family.length else name.toList
  let short := String.ofList (rest.dropWhile (· = '_'))
  if isIdentifier short then short else name

/-- The line of a constant inside the enumeration of its family. -/
def renderCase (options : Options) (family : String) (decl : ConstDecl) : String :=
  Comment.docBlock? options.comments.hasDocs decl.doc 1 options.indent ++
    Comment.indentation 1 options.indent ++ caseName decl.name family ++ " = " ++
    literal decl.value ++ "," ++
    Comment.inline? options.comments.hasConstInline decl.comment ++ "\n"

/-- A family as an enumeration. -/
def renderEnumeration (ctx : Context) (f : Family) : Except Error String := do
  checkName f.name f.first.location
  pure ("export enum " ++ f.name ++ " \x7b\n" ++
    String.join (f.members.map (renderCase ctx.options f.name)) ++ "\x7d\n")

/-- A family of constants. When a rule replaces its named type, or its alias is declared elsewhere,
only bindings are written. -/
def renderFamily (ctx : Context) (f : Family) : Except Error String := do
  match ← replacedType? ctx f, f.backing with
  | some type, _ => renderConsts ctx.options (some type.text) f.members
  | none, none => renderConsts ctx.options (some f.name) f.members
  | none, some backing =>
    match ctx.options.aliasStyle with
    | .union => renderTypeofUnion ctx f
    | .enum => if f.isEnumerable then renderEnumeration ctx f else renderAliased ctx f backing
    | .alias => renderAliased ctx f backing

/-- The text of a piece. -/
def ConstPiece.render (ctx : Context) : ConstPiece → Except Error String
  | .single decl => renderSingle ctx decl
  | .family f => renderFamily ctx f

end WireTypes.Code
