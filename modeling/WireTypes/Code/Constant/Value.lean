import WireTypes.Decimal.Text
import WireTypes.Package.Literal
import WireTypes.Text.Blank
import WireTypes.Text.Quoted

/-!
# Values of constants in TypeScript

Numbers without exponents, texts in double quotes, and expressions as they are.
-/

set_option autoImplicit false

namespace WireTypes.Code

/-- A Go octal number, a zero followed by octal digits and underscores, in TypeScript notation; any
other expression as it is. -/
def modernOctal (expr : List Char) : List Char :=
  match expr with
  | '0' :: digits =>
    if !digits.isEmpty && digits.all (fun c => '0' ≤ c && c ≤ '7' || c = '_') then
      '0' :: 'o' :: digits.dropWhile (· = '_')
    else expr
  | _ => expr

/-- The value of a constant as an expression. -/
def literal : Package.Literal → String
  | .bool b => if b then "true" else "false"
  | .int i => toString i
  | .float x => Decimal.write Decimal.codeNames x
  | .string s => Text.doubleQuoted s
  | .expr text => .ofList (modernOctal (Text.trim text.toList))

end WireTypes.Code
