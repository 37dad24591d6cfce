import WireTypes.Code.Alternatives
import WireTypes.Text.Blank

/-!
# Type expressions

The text of a type expression, with what the rules around it need to know.
-/

set_option autoImplicit false

namespace WireTypes.Code

/-- The coarse kind of an expression. -/
inductive ExprKind where
  | numeric
  | string
  /-- The name of a declaration. -/
  | named
  /-- Two alternatives or more. -/
  | union
  | other
deriving Repr, DecidableEq, Inhabited

/-- A type expression. It is nullable when one of its alternatives is `null`. -/
structure Expr where
  text : String
  kind : ExprKind
  nullable : Bool
deriving Repr, DecidableEq, Inhabited

namespace Expr

/-- An expression that is not nullable. -/
def simple (text : String) (kind : ExprKind) : Expr :=
  { text, kind, nullable := false }

/-- The kind of a text that is a single alternative. -/
def kindOfWord (word : String) : ExprKind :=
  if word = "string" then .string
  else if word = "number" ∨ word = "bigint" then .numeric
  else .other

/-- An expression written by the user, classified by its text. -/
def ofText (text : String) : Expr :=
  let parts := alternatives text
  { text
    kind := if 1 < parts.length then .union else kindOfWord (Text.trimmed text)
    nullable := parts.any fun part => Text.trim part = "null".toList }

/-- Whether an index signature takes the expression for its key. -/
def canIndex (e : Expr) : Bool :=
  e.kind = .numeric || e.kind = .string || e.kind = .named

/-- The expression with one more alternative. -/
def orElse (e : Expr) (alternative : String) : Expr :=
  { text := e.text ++ " | " ++ alternative
    kind := .union
    nullable := e.nullable || alternative = "null" }

/-- The text as an operand of a postfix operator: a union in parentheses. -/
def operand (e : Expr) : String :=
  if e.kind = .union then "(" ++ e.text ++ ")" else e.text

end Expr

end WireTypes.Code
