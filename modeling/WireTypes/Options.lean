import WireTypes.Overrides
import WireTypes.Text.Blank
import WireTypes.Text.LowerCase
import WireTypes.Text.Pieces

/-!
# Options

What can be chosen for one output, and the checks on it that need no input.
-/

set_option autoImplicit false

namespace WireTypes

/-- Which source comments reach the output: all, all but the inline comments of constants, or
none. -/
inductive CommentLevel where
  | all | types | none
deriving Repr, DecidableEq, Inhabited

namespace CommentLevel

/-- Documentation is kept unless nothing is. -/
def hasDocs (l : CommentLevel) : Bool := l ≠ none

/-- Comments at the end of a line are kept unless nothing is. -/
def hasInline (l : CommentLevel) : Bool := l ≠ none

/-- The comments at the end of a constant are kept only where everything is. -/
def hasConstInline (l : CommentLevel) : Bool := l = all

end CommentLevel

/-- The convention by which members without a tag are named: as in Go, or in small letters. -/
inductive NameStyle where
  | asWritten | lowerCase
deriving Repr, DecidableEq, Inhabited

/-- The name of a member without a tag. -/
def NameStyle.apply : NameStyle → String → String
  | .asWritten, name => name
  | .lowerCase, name => Text.toLower name

/-- How a family of constants with an alias of its own is written: as an alias of the type, as the
union of the types of the constants, or as an enumeration. -/
inductive AliasStyle where
  | alias | union | enum
deriving Repr, DecidableEq, Inhabited

/-- The options of one output. -/
structure Options where
  overrides : Overrides := .empty
  /-- The expression for references that nothing answers. -/
  fallback : String := "unknown"
  /-- Spaces per level of indentation. -/
  indent : Nat := 2
  /-- The template of the comment at the top. -/
  header : String := "Code generated by gots. DO NOT EDIT."
  groupConstants : Bool := true
  aliasStyle : AliasStyle := .alias
  /-- Text that follows the header as it stands. -/
  frontmatter : Option String := none
  comments : CommentLevel := .all
  nameStyle : NameStyle := .asWritten
deriving Repr, Inhabited

namespace Options

/-- The version that the header's placeholder stands for. -/
def version : String := "0.1.0"

/-- Replaces the placeholders of a header template. The only placeholder is the word for the version
in braces; `whole` is the template for messages. -/
def expand (whole : String) : List Char → Except InvalidOption (List Char)
  | [] => pure []
  | c :: rest =>
    if c = '\x7b' then
      match _h : Text.splitAtFirst '\x7d' rest with
      | none => throw (.unclosedPlaceholder whole)
      | some (name, after) =>
        if name = "version".toList then return version.toList ++ (← expand whole after)
        else throw (.unknownPlaceholder (.ofList name))
    else return c :: (← expand whole rest)
termination_by cs => cs.length
decreasing_by
  · have := Text.length_splitAtFirst _h
    simp only [List.length_cons]
    omega
  · simp

/-- A line of the header as a comment. -/
def headerLine (line : List Char) : String :=
  if line.isEmpty then "//\n" else "// " ++ .ofList line ++ "\n"

/-- The header: every line of the expanded template as a comment. -/
def renderHeader (o : Options) : Except Error String :=
  match expand o.header o.header.toList with
  | .ok text => pure (String.join ((Text.lines text).map headerLine))
  | .error reason => throw (.invalidOptions reason)

/-- What is wrong with a rule. -/
def ruleError? (rule : String × String) : Option InvalidOption :=
  if Text.isBlankText rule.1 then some .emptyRuleName
  else if Text.isBlankText rule.2 then some (.emptyRuleExpr rule.1)
  else none

/-- What is wrong with options other than the header, the first fault in the order in which they are
checked. -/
def fault? (o : Options) : Option InvalidOption :=
  if o.indent = 0 then some .zeroIndent
  else if Text.isBlankText o.fallback then some .emptyFallback
  else o.overrides.rules.findSome? ruleError?

/-- Checks all that can be checked before any input is seen. -/
def validate (o : Options) : Except Error PUnit :=
  match o.fault? with
  | some reason => throw (.invalidOptions reason)
  | none => do let _ ← o.renderHeader

end Options

end WireTypes
