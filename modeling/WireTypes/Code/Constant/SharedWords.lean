import WireTypes.Text.Alphabetic
import WireTypes.Text.Blank
import WireTypes.Text.Case

/-!
# Shared words

The words with which all names of a list start: `RoleViewer` and `RoleEditor` share `Role`.
-/

set_option autoImplicit false

namespace WireTypes.Code

/-- A name splits into two words between `before` and `after`: at an underscore, in front of a
capital after a small letter or digit, and in front of a digit after a letter. Digits are ASCII. -/
def isWordBreak (before after : Char) : Bool :=
  after = '_' || before = '_' ||
    ((Text.isLowercase before || before.isDigit) && Text.isUppercase after) ||
    (Text.isAlphabetic before && after.isDigit)

/-- A name splits into two words after its first `k` characters. -/
def breaksAt (name : List Char) (k : Nat) : Bool :=
  match name.drop (k - 1) with
  | before :: after :: _ => 0 < k && isWordBreak before after
  | _ => false

/-- All names start with the first `k` characters of `first` and split into two words there. -/
def isCommonCut (first : List Char) (names : List (List Char)) (k : Nat) : Bool :=
  names.all fun name => name.take k = first.take k && breaksAt name k

/-- The longest common cut that is inside `first`. -/
def longestCut? (first : List Char) (names : List (List Char)) : Option Nat :=
  (List.range first.length).reverse.find? (isCommonCut first names)

/-- The longest common prefix that ends with a word of every name, without underscores at its end,
provided it starts with a capital letter. -/
def sharedStart? (names : List (List Char)) : Option (List Char) :=
  match names with
  | [] => none
  | first :: _ => do
    let cut ← longestCut? first names
    let shared := Text.dropEndWhile (· = '_') (first.take cut)
    if shared.head?.any Text.isUppercase then some shared else none

/-- `sharedStart?` on strings. -/
def sharedWords? (names : List String) : Option String :=
  (sharedStart? (names.map String.toList)).map .ofList

end WireTypes.Code
