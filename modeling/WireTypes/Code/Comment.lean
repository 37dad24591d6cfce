import WireTypes.Text.Blank
import WireTypes.Text.Pieces

/-!
# Comments

The comments of the output: documentation blocks, and comments at the end of a line.
-/

set_option autoImplicit false

namespace WireTypes.Code.Comment

/-- Text that does not close a block comment: the slash of every closing pair is escaped. -/
def escapeClosing : List Char → List Char
  | [] => []
  | '*' :: '/' :: rest => '*' :: '\\' :: '/' :: escapeClosing rest
  | c :: rest => c :: escapeClosing rest

/-- The indentation of a level. -/
def indentation (depth width : Nat) : String :=
  Text.spaces (depth * width)

/-- A documentation block with one line per line of `text` that is not blank; nothing if all are. -/
def docBlock (text : String) (depth width : Nat) : String :=
  let margin := indentation depth width
  match (Text.lines text.toList).filter (!·.all Text.isBlank) with
  | [] => ""
  | body =>
    let line (cs : List Char) : String :=
      margin ++ " * " ++ .ofList (escapeClosing (Text.trimEnd cs)) ++ "\n"
    margin ++ "/**\n" ++ String.join (body.map line) ++ margin ++ " */\n"

/-- A comment at the end of a line, its own lines joined by blanks; nothing if all are blank. -/
def inline (text : String) : String :=
  match ((Text.lines text.toList).map Text.trim).filter (!·.isEmpty) with
  | [] => ""
  | parts => " // " ++ .ofList (List.intercalate [' '] parts)

/-- The documentation block of a declaration, provided docs are kept. -/
def docBlock? (keep : Bool) (text : Option String) (depth width : Nat) : String :=
  match text with
  | some text => if keep then docBlock text depth width else ""
  | none => ""

/-- The comment at the end of a line, provided it is kept. -/
def inline? (keep : Bool) (text : Option String) : String :=
  match text with
  | some text => if keep then inline text else ""
  | none => ""

end WireTypes.Code.Comment
