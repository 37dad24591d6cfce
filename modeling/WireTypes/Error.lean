import WireTypes.Location
import WireTypes.Package.Tag
import WireTypes.Path

/-!
# Errors

What can go wrong between a resolved package and its TypeScript text. An error is a cause;
`Error.message` is its wording.
-/

set_option autoImplicit false

namespace WireTypes

/-- What is wrong with a declaration. -/
inductive Malformation where
  | basicWithoutName
  | namedWithoutName
  | embeddedWithoutName
  | constantOfCompositeType
  | emptyReference
  | emptyUnresolved
  | interfaceWithoutFields
deriving Repr, DecidableEq

/-- The wording of a malformation. -/
def Malformation.message : Malformation → String
  | .basicWithoutName => "basic type without a name"
  | .namedWithoutName => "named type without a name"
  | .embeddedWithoutName => "embedded field must name a type"
  | .constantOfCompositeType => "constant type must be a basic or named type"
  | .emptyReference => "reference to a type with an empty name"
  | .emptyUnresolved => "unresolved reference without a name"
  | .interfaceWithoutFields => "interface declaration without a struct body"

/-- What is wrong with the options. -/
inductive InvalidOption where
  | zeroIndent
  | emptyFallback
  | emptyRuleName
  | emptyRuleExpr (name : String)
  | unclosedPlaceholder (header : String)
  | unknownPlaceholder (name : String)
  | missingPath
deriving Repr, DecidableEq

/-- The wording of an invalid option. -/
def InvalidOption.message : InvalidOption → String
  | .zeroIndent => "indent width must be at least 1"
  | .emptyFallback => "fallback type must not be empty"
  | .emptyRuleName => "override rule with an empty type name"
  | .emptyRuleExpr name => s!"override rule for `{name}` has an empty expression"
  | .unclosedPlaceholder header => s!"unclosed placeholder in header `{header}`"
  | .unknownPlaceholder name => "unknown header placeholder `\x7b" ++ name ++ "\x7d`"
  | .missingPath => "package entry without a `path`"

/-- Why there is no output. -/
inductive Error where
  | duplicateDeclaration (name : String) (first second : Location)
  | invalidIdentifier (name : String) (location : Location)
  | conflictingRules (name : String)
  | malformedDeclaration (decl : String) (reason : Malformation)
  | malformedTag (decl field : String) (reason : Package.TagError)
  | invalidOptions (reason : InvalidOption)
  | unreadableDocument (origin : String)
  | unknownFormat (path : Path)
  | inaccessible (path : Path)
deriving Repr, DecidableEq

/-- The wording of an error. What a parser or the file system has to say is left out. -/
def Error.message : Error → String
  | .duplicateDeclaration name first second =>
    s!"duplicate declaration `{name}`: first declared at {first.text}, " ++
      s!"redeclared at {second.text}"
  | .invalidIdentifier name location =>
    s!"`{name}` is not a valid TypeScript identifier (declared at {location.text})"
  | .conflictingRules name => s!"conflicting override rules for `{name}`"
  | .malformedDeclaration decl reason => s!"malformed declaration `{decl}`: {reason.message}"
  | .malformedTag decl field reason =>
    s!"malformed struct tag on `{decl}.{field}`: {reason.message}"
  | .invalidOptions reason => s!"invalid configuration: {reason.message}"
  | .unreadableDocument origin => s!"failed to parse {origin}: not a resolved package document"
  | .unknownFormat path =>
    s!"failed to parse {path.text}: expected a .json, .yaml or .yml document"
  | .inaccessible path => s!"i/o error on {path.text}"

end WireTypes
