import WireTypes.Error
import WireTypes.Text.Numeric
import WireTypes.Text.Quoted

/-!
# Identifiers

Which names TypeScript takes for declarations, and how property names are written.
-/

set_option autoImplicit false

namespace WireTypes.Code

/-- Words that cannot name a declaration: reserved words, those of strict mode, and the names of
predefined types. -/
def reservedWords : List String :=
  ["break", "case", "catch", "class", "const", "continue", "debugger", "default", "delete", "do",
   "else", "enum", "export", "extends", "false", "finally", "for", "function", "if", "import",
   "in", "instanceof", "new", "null", "return", "super", "switch", "this", "throw", "true", "try",
   "typeof", "var", "void", "while", "with",
   "implements", "interface", "let", "package", "private", "protected", "public", "static",
   "yield",
   "any", "bigint", "boolean", "never", "number", "object", "string", "symbol", "undefined",
   "unknown"]

/-- What an identifier starts with. -/
def isIdentStart (c : Char) : Bool :=
  Text.isAlphabetic c || c = '_' || c = '$'

/-- What an identifier goes on with. -/
def isIdentPart (c : Char) : Bool :=
  Text.isAlphanumeric c || c = '_' || c = '$'

/-- Whether a text has the form of an identifier. -/
def isIdentChars : List Char → Bool
  | [] => false
  | c :: rest => isIdentStart c && rest.all isIdentPart

/-- `isIdentChars` on strings. -/
def isIdentifier (name : String) : Bool :=
  isIdentChars name.toList

/-- Whether a name is one of the reserved words. -/
def isReserved (name : String) : Bool :=
  reservedWords.contains name

/-- Whether a name can be declared: an identifier that is not reserved. -/
def isDeclarable (name : String) : Bool :=
  isIdentifier name && !isReserved name

/-- Refuses the name of a declaration at `location` that cannot be declared. -/
def checkName (name : String) (location : Location) : Except Error PUnit :=
  if isDeclarable name then pure ⟨⟩ else throw (.invalidIdentifier name location)

/-- A property name: identifiers as they are, reserved or not, all else in single quotes. -/
def propertyName (name : String) : String :=
  if isIdentifier name then name else Text.singleQuoted name

end WireTypes.Code
