import WireTypes.Text.Pieces

/-!
# Alternatives

A type expression `A | B` cut at the bars that stand outside brackets, strings and comments.
-/

set_option autoImplicit false

namespace WireTypes.Code

/-- What a position of a type expression is in: code at a depth of brackets, a string with its
quote, or a block comment. A string and a comment remember the depth around them. -/
inductive Scope where
  | code (depth : Nat)
  | string (quote : Char) (depth : Nat)
  | comment (depth : Nat)
deriving Repr, DecidableEq

def isOpening (c : Char) : Bool :=
  c = '(' || c = '[' || c = '\x7b' || c = '<'

def isClosing (c : Char) : Bool :=
  c = ')' || c = ']' || c = '\x7d' || c = '>'

def isQuote (c : Char) : Bool :=
  c = '\x27' || c = '\x22' || c = '\x60'

/-- The scope after a character of code. A closing bracket without an opening one changes
nothing. -/
def afterCode (depth : Nat) (c : Char) : Scope :=
  if isOpening c then .code (depth + 1)
  else if isClosing c then .code (depth - 1)
  else if isQuote c then .string c depth
  else .code depth

/-- Cuts a text, of which `scope` says where it starts. In a string a backslash takes the next
character along. -/
def alternativesIn : Scope → List Char → List (List Char)
  | _, [] => [[]]
  | .code depth, '/' :: '*' :: rest =>
    Text.consHead '/' (Text.consHead '*' (alternativesIn (.comment depth) rest))
  | .code depth, c :: rest =>
    if c = '|' ∧ depth = 0 then [] :: alternativesIn (.code 0) rest
    else Text.consHead c (alternativesIn (afterCode depth c) rest)
  | .string quote depth, '\\' :: c :: rest =>
    Text.consHead '\\' (Text.consHead c (alternativesIn (.string quote depth) rest))
  | .string quote depth, c :: rest =>
    Text.consHead c
      (alternativesIn (if c = quote then .code depth else .string quote depth) rest)
  | .comment depth, '*' :: '/' :: rest =>
    Text.consHead '*' (Text.consHead '/' (alternativesIn (.code depth) rest))
  | .comment depth, c :: rest => Text.consHead c (alternativesIn (.comment depth) rest)

/-- The alternatives of a type expression, blanks and comments included. -/
def alternatives (text : String) : List (List Char) :=
  alternativesIn (.code 0) text.toList

end WireTypes.Code
