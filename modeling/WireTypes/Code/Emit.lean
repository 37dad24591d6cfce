import WireTypes.Code.Constant.Render
import WireTypes.Code.Layout

/-!
# Emission

The text of an output: a header, and the declarations of every section under a banner with the
name of its file.
-/

set_option autoImplicit false

namespace WireTypes.Code

/-! ## Types -/

/-- A parent in an `extends` clause. A rule may replace its name. -/
def renderParent (ctx : Context) (p : Parent) : String :=
  let name := (ctx.localRule? p.name).getD p.name
  if p.partly then "Partial<" ++ name ++ ">" else name

/-- The `extends` clause of an interface. -/
def renderHeritage (ctx : Context) (parents : List Parent) : String :=
  if parents.isEmpty then ""
  else " extends " ++ ", ".intercalate (parents.map (renderParent ctx))

/-- An interface or alias, without its comments. -/
def renderTypeBody (ctx : Context) (decl : TypeDecl) : Except Error String :=
  match decl.kind with
  | .alias => do
    let e ← toExpr ctx decl.body 0
    pure ("export type " ++ decl.name ++ " = " ++ e.text ++ ";")
  | .struct | .interface =>
    match decl.body with
    | .record members => do
      let ps ← toProperties ctx members 1
      pure ("export interface " ++ decl.name ++ renderHeritage ctx decl.heritage ++ " \x7b\n" ++
        renderProperties ctx.options 1 ps ++ "\x7d")
    | _ => ctx.malformed .interfaceWithoutFields

/-- The declaration of a type. -/
def renderType (options : Options) (package : String) (decl : TypeDecl) : Except Error String := do
  checkName decl.name decl.location
  let body ← renderTypeBody { options, package, decl := decl.name } decl
  pure (Comment.docBlock? options.comments.hasDocs decl.doc 0 options.indent ++ body ++
    Comment.inline? options.comments.hasDocs decl.comment ++ "\n")

/-! ## Sections -/

/-- The text of a block of a package. -/
def Block.render (options : Options) (package : String) : Block → Except Error String
  | .type decl => renderType options package decl
  | .consts piece => piece.render { options, package, decl := "" }
  | .emit text => pure (Text.asLine text)

/-- The text of blocks, one after the other. -/
def renderBlocks (options : Options) (package : String) (blocks : List Block) :
    Except Error String := do
  let parts ← blocks.mapM (Block.render options package)
  pure (String.join parts)

/-- A section under its banner; nothing when it has no text. -/
def renderSection (options : Options) (s : Section) (blocks : List Block) :
    Except Error String := do
  let body ← renderBlocks options s.package blocks
  pure (if body.isEmpty then "" else "\n//////////\n// source: " ++ s.file ++ "\n\n" ++ body)

/-- What precedes the sections. -/
def renderFront (options : Options) : Except Error String := do
  let header ← options.renderHeader
  pure <| match options.frontmatter with
    | some text => header ++ "\n" ++ Text.asLine text
    | none => header

/-- The TypeScript of sections. -/
def generate (options : Options) (sections : List Section) : Except Error String := do
  options.validate
  let front ← renderFront options
  let (laidOut, _) := layoutSections options.groupConstants (.ofSections sections) sections
  let parts ← laidOut.mapM fun (s, blocks) => renderSection options s blocks
  pure (front ++ String.join parts)

end WireTypes.Code
