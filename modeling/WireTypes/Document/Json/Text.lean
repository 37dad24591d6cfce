import WireTypes.Decimal.Text
import WireTypes.Document.Tree

/-!
# Texts of JSON

The syntax of a string is read first, as characters and UTF-16 units; then pairs of units are
joined. A string with a unit that has no partner can only be ignored.
-/

set_option autoImplicit false

namespace WireTypes.Document.Json

/-- A piece of a string: a character, or a UTF-16 unit written as an escape. -/
inductive Piece where
  | char (c : Char)
  | unit (n : Nat)
deriving Repr

/-- The character of an escape with one letter. -/
def shortEscape? : Char → Option Char
  | '\x22' => some '\x22'
  | '\\' => some '\\'
  | '/' => some '/'
  | 'b' => some '\x08'
  | 'f' => some '\x0c'
  | 'n' => some '\n'
  | 'r' => some '\r'
  | 't' => some '\t'
  | _ => none

/-- Puts a piece in front of those of the rest. -/
def consPiece (p : Piece) (rest : Option (List Piece × List Char)) :
    Option (List Piece × List Char) :=
  rest.map fun (ps, cs) => (p :: ps, cs)

/-- The pieces up to the closing quote, and what follows it. Control characters must be escaped. -/
def pieces? : List Char → Option (List Piece × List Char)
  | [] => none
  | '\x22' :: rest => some ([], rest)
  | '\\' :: 'u' :: a :: b :: c :: d :: rest =>
    match Decimal.natOfDigits? 16 [a, b, c, d] with
    | some n => consPiece (.unit n) (pieces? rest)
    | none => none
  | '\\' :: c :: rest =>
    match shortEscape? c with
    | some c => consPiece (.char c) (pieces? rest)
    | none => none
  | c :: rest => if c.toNat < 0x20 ∨ c = '\\' then none else consPiece (.char c) (pieces? rest)

/-- Joins the pieces. A unit of the first half of a pair must have one of the second half behind
it. -/
def join? : List Piece → Option (List Char)
  | [] => some []
  | .char c :: rest => (join? rest).map (c :: ·)
  | .unit n :: .unit m :: rest =>
    if 0xD800 ≤ n ∧ n ≤ 0xDBFF then
      if 0xDC00 ≤ m ∧ m ≤ 0xDFFF then
        (join? rest).map (Char.ofNat (0x10000 + (n - 0xD800) * 0x400 + (m - 0xDC00)) :: ·)
      else none
    else if 0xDC00 ≤ n ∧ n ≤ 0xDFFF then none
    else (join? (.unit m :: rest)).map (Char.ofNat n :: ·)
  | .unit n :: rest =>
    if 0xD800 ≤ n ∧ n ≤ 0xDFFF then none else (join? rest).map (Char.ofNat n :: ·)

/-- The scalar of a string. -/
def stringScalar (ps : List Piece) : Scalar :=
  match join? ps with
  | some cs => .typed (.text (.ofList cs))
  | none => .unreadable

end WireTypes.Document.Json
