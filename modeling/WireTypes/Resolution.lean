import WireTypes.Package
import WireTypes.Package.Comment
import WireTypes.Package.Name
import WireTypes.Section

/-!
# Resolution

From the declarations of a Go package to sections. Exported declarations are kept, references are
sorted by whether the package declares the name, and struct tags are read.
-/

set_option autoImplicit false

namespace WireTypes.Resolution

/-! ## References -/

/-- What a package says about names: its own name, and the exported types of all its files. -/
structure Scope where
  package : String
  exported : List String
deriving Repr

/-- The name of a declaration, if it is an exported type. -/
def exportedType? : Package.Decl → Option String
  | .type spec => if Package.isExported spec.name then some spec.name else none
  | _ => none

/-- What the declarations of a package say about names. -/
def Scope.ofPackage (p : Package) : Scope :=
  { package := p.name, exported := p.files.flatMap fun file => file.decls.filterMap exportedType? }

/-- The package of a reference, if it is not the package at hand. -/
def Scope.foreign? (s : Scope) (package : Option String) : Option String :=
  package.filter (· ≠ s.package)

/-- The spelling of a reference: qualified when it leads to another package. -/
def Scope.spelling (s : Scope) (package : Option String) (name : String) : String :=
  match s.foreign? package with
  | some package => package ++ "." ++ name
  | none => name

/-- A reference to an exported type of the package is answered, every other one is not. -/
def Scope.reference (s : Scope) (package : Option String) (name : String) : Shape :=
  if (s.foreign? package).isNone && s.exported.contains name then .named name
  else .unresolved (s.spelling package name)

/-! ## Fields -/

/-- An embedded reference: a name, or a pointer to one. -/
structure Embedded where
  package : Option String
  name : String
  pointer : Bool
deriving Repr

/-- What an embedded field of a type embeds. -/
def embedded? : Package.TypeExpr → Option Embedded
  | .named package name => some ⟨package, name, false⟩
  | .pointer (.named package name) => some ⟨package, name, true⟩
  | _ => none

/-- The name that a field goes by, and what it embeds if it has no name of its own. -/
def fieldName (decl : String) (type : Package.TypeExpr) (name : Option String) :
    Except Error (String × Option Embedded) :=
  match name with
  | some name => pure (name, none)
  | none =>
    match embedded? type with
    | some e => pure (e.name, some e)
    | none => throw (.malformedDeclaration decl .embeddedWithoutName)

/-- Reads the tag of a field. A field without one has an empty tag. -/
def fieldTag (decl field : String) (tag : Option String) : Except Error Package.Tag :=
  match tag with
  | none => pure ⟨[]⟩
  | some raw =>
    match Package.Tag.read raw with
    | .ok tag => pure tag
    | .error reason => throw (.malformedTag decl field reason)

/-- Whether there is an entry with an option. -/
def has (entry : Option Package.TagPair) (option : String) : Bool :=
  entry.any (·.has option)

/-- Whether there is an entry that leaves the field out. -/
def leavesOut (entry : Option Package.TagPair) : Bool :=
  entry.any Package.TagPair.leavesOut

/-- The name of an entry, unless it is empty or leaves the field out. -/
def givenName? (entry : Option Package.TagPair) : Option String :=
  entry.bind fun e => if e.name.isEmpty || e.leavesOut then none else some e.name

/-- Whether a field may be missing: what its `yaml` entry says if it has one, else its `json`
entry. -/
def isOptional (json yaml : Option Package.TagPair) : Bool :=
  match yaml with
  | some yaml => yaml.has "omitempty"
  | none => has json "omitempty" || has json "omitzero"

/-- What becomes of a field: a member, a parent of the interface, or nothing. -/
inductive Outcome where
  | member (m : Member Shape)
  | parent (p : Parent)
  | dropped
deriving Repr

/-- The member of a field with a tag, given the shape of its type. -/
def memberOf (goName : String) (tag : Package.Tag) (doc comment : Option String) (type : Shape) :
    Member Shape :=
  let json := tag.get? "json"
  let yaml := tag.get? "yaml"
  let tstype := tag.get? "tstype"
  { type, goName
    rename := givenName? (yaml.or json)
    optional := isOptional json yaml
    readonly := has tstype "readonly"
    skip := leavesOut json || leavesOut yaml || leavesOut tstype
    override := givenName? tstype
    doc := doc.bind Package.Comment.clean
    comment := comment.bind Package.Comment.clean }

/-- The members among outcomes, in order. -/
def members (outcomes : List Outcome) : List (Member Shape) :=
  outcomes.filterMap fun
    | .member m => some m
    | _ => none

/-- The parents among outcomes, in order. -/
def parents (outcomes : List Outcome) : List Parent :=
  outcomes.filterMap fun
    | .parent p => some p
    | _ => none

/-! ## Types -/

mutual

/-- The shape of a type expression inside the declaration `decl`. What never goes over the wire has
the shape of `any`. -/
def shape (s : Scope) (decl : String) : Package.TypeExpr → Except Error Shape
  | .basic name =>
    if name.isEmpty then throw (.malformedDeclaration decl .basicWithoutName)
    else
      match Package.Primitive.ofName? name with
      | some p => pure (.primitive p)
      | none => pure (.unresolved name)
  | .named package name =>
    if name.isEmpty then throw (.malformedDeclaration decl .namedWithoutName)
    else pure (s.reference package name)
  | .pointer elem => do return .pointer (← shape s decl elem)
  | .slice elem => do return .sequence (← shape s decl elem)
  | .array elem _ => do return .sequence (← shape s decl elem)
  | .map key value => do
    let key ← shape s decl key
    let value ← shape s decl value
    return .map key value
  | .struct fields => do return .record (members (← outcomes s decl fields))
  | .interface _ _ => pure (.primitive .any)
  | .func => pure (.primitive .any)
  | .chan _ => pure (.primitive .any)
termination_by structural e => e

/-- What becomes of the fields of a struct, in order. -/
def outcomes (s : Scope) (decl : String) : List (Package.Field Package.TypeExpr) →
    Except Error (List Outcome)
  | [] => pure []
  | field :: rest => do
    let first ← outcome s decl field
    return first :: (← outcomes s decl rest)
termination_by structural fields => fields

/-- What becomes of a field. An embedded field with the option `extends` is a parent; unexported
fields, and named ones with that option, are dropped before their types are looked at. -/
def outcome (s : Scope) (decl : String) : Package.Field Package.TypeExpr → Except Error Outcome
  | ⟨type, name, tag, doc, comment⟩ => do
    let (goName, embeds) ← fieldName decl type name
    let tag ← fieldTag decl goName tag
    let tstype := tag.get? "tstype"
    match embeds, has tstype "extends" with
    | some e, true =>
      return .parent
        { name := s.spelling e.package e.name
          partly := e.pointer && !has tstype "required" }
    | none, true => return .dropped
    | _, false =>
      if !Package.isExported goName then return .dropped
      return .member (memberOf goName tag doc comment (← shape s decl type))
termination_by structural field => field

end

/-! ## Declarations -/

/-- A type declaration. Structs become interfaces; interfaces with methods or embedded types become
empty ones; every other type is an alias. -/
def typeDecl (s : Scope) (location : Location) (spec : Package.TypeSpec) :
    Except Error TypeDecl := do
  let (kind, body, heritage) ←
    match spec.underlying with
    | .struct fields => do
      let found ← outcomes s spec.name fields
      pure (TypeKind.struct, Shape.record (members found), parents found)
    | .interface methods embeds =>
      if methods.isEmpty && embeds.isEmpty then pure (.alias, .primitive .any, [])
      else pure (.interface, .record [], [])
    | underlying => do
      let body ← shape s spec.name underlying
      pure (.alias, body, [])
  return {
    name := spec.name
    kind, body, heritage, location
    doc := spec.doc.bind Package.Comment.clean
    comment := spec.comment.bind Package.Comment.clean }

/-- The type of a constant: that of its value when none is written, and never a composite one. -/
def constType (s : Scope) (spec : Package.ConstSpec) : Except Error Shape :=
  match spec.type with
  | none => pure (.primitive spec.value.defaultType)
  | some type => do
    let type ← shape s spec.name type
    if type.typeName?.isNone then throw (.malformedDeclaration spec.name .constantOfCompositeType)
    return type

/-- A constant declaration. -/
def constDecl (s : Scope) (location : Location) (spec : Package.ConstSpec) :
    Except Error ConstDecl := do
  let type ← constType s spec
  return {
    name := spec.name
    type, location
    value := spec.value
    doc := spec.doc.bind Package.Comment.clean
    comment := spec.comment.bind Package.Comment.clean }

/-- The item of a declaration at a position of a file; none when it is not exported. -/
def item? (s : Scope) (file : String) (index : Nat) : Package.Decl → Except Error (Option Item)
  | .type spec =>
    if Package.isExported spec.name then do
      let decl ← typeDecl s { file, line := spec.line, index } spec
      pure (some (.type decl))
    else pure none
  | .const spec =>
    if Package.isExported spec.name then do
      let decl ← constDecl s { file, line := spec.line, index } spec
      pure (some (.const decl))
    else pure none
  | .emit text => pure (some (.emit text))

/-- The items of declarations, of which the first has position `index`. -/
def items (s : Scope) (file : String) (index : Nat) : List Package.Decl → Except Error (List Item)
  | [] => pure []
  | decl :: rest => do
    let first ← item? s file index decl
    let more ← items s file (index + 1) rest
    return first.toList ++ more

/-- The section of a file. -/
def fileSection (s : Scope) (file : Package.File) : Except Error Section := do
  let items ← items s file.name 1 file.decls
  Section.ofItems s.package file.name items

/-- The sections of a package, one for each file. -/
def packageSections (p : Package) : Except Error (List Section) :=
  p.files.mapM (fileSection (.ofPackage p))

end WireTypes.Resolution
