import WireTypes.Text.Blank
import WireTypes.Text.Pieces

/-!
# Comments of Go declarations

Comments come without their markers, and with the directives that Go tools find in them.
-/

set_option autoImplicit false

namespace WireTypes.Package.Comment

/-- A line that is a directive of a tool: a word of small ASCII letters and digits, a colon, and
one of these characters right after it. Prose has a blank after its colons. -/
def isDirective (line : List Char) : Bool :=
  let isWordChar (c : Char) : Bool := c.isLower || c.isDigit
  match Text.splitAtFirst ':' line with
  | none => false
  | some (word, rest) => !word.isEmpty && word.all isWordChar && rest.head?.any isWordChar

/-- A comment without its directives and without the blank lines at its ends; none when nothing is
left. -/
def clean (text : String) : Option String :=
  let kept := ((Text.lines text.toList).map Text.trimEnd).filter (!isDirective ·)
  match Text.dropEndWhile List.isEmpty (kept.dropWhile List.isEmpty) with
  | [] => none
  | body => some (.ofList (List.intercalate ['\n'] body))

end WireTypes.Package.Comment
