import WireTypes.Document.Json.Number
import WireTypes.Document.Json.Text

/-!
# JSON documents

Reading one JSON value with blanks around it. Scalars without a value are kept, because an ignored
part of a document may hold them.
-/

set_option autoImplicit false

namespace WireTypes.Document.Json

/-- What is left after blanks and line ends. -/
def skipBlanks (cs : List Char) : List Char :=
  cs.dropWhile fun c => c = ' ' || c = '\n' || c = '\t' || c = '\r'

/-- Takes a word off the start of a text. -/
def word? (word : String) (cs : List Char) : Option (List Char) :=
  if word.toList.isPrefixOf cs then some (cs.drop word.length) else none

/-- A scalar at the start of a text, and the rest. -/
def scalar? (cs : List Char) : Option (Scalar × List Char) :=
  match cs with
  | 'n' :: _ => (word? "null" cs).map fun rest => (.typed .null, rest)
  | 't' :: _ => (word? "true" cs).map fun rest => (.typed (.bool true), rest)
  | 'f' :: _ => (word? "false" cs).map fun rest => (.typed (.bool false), rest)
  | '\x22' :: rest => (pieces? rest).map fun (ps, rest) => (stringScalar ps, rest)
  | _ => (number? cs).map fun (n, rest) => (n.scalar, rest)

/-- Takes `sep` or `close` off after an item; answers whether the collection ends. -/
def separator? (close : Char) (cs : List Char) : Option (Bool × List Char) :=
  match skipBlanks cs with
  | ',' :: rest => some (false, rest)
  | c :: rest => if c = close then some (true, rest) else none
  | [] => none

mutual

/-- A value after blanks, and the rest. Every call takes one step. -/
def value? : Nat → List Char → Option (Node × List Char)
  | 0, _ => none
  | steps + 1, cs =>
    match skipBlanks cs with
    | '[' :: rest =>
      match skipBlanks rest with
      | ']' :: rest => some (.list [], rest)
      | rest => (items? steps rest).map fun (items, rest) => (.list items, rest)
    | '\x7b' :: rest =>
      match skipBlanks rest with
      | '\x7d' :: rest => some (.table [], rest)
      | rest => (entries? steps rest).map fun (entries, rest) => (.table entries, rest)
    | cs => (scalar? cs).map fun (a, rest) => (.leaf a, rest)

/-- The items of a list up to its end. -/
def items? : Nat → List Char → Option (List Node × List Char)
  | 0, _ => none
  | steps + 1, cs => do
    let (item, rest) ← value? steps cs
    let (ended, rest) ← separator? ']' rest
    if ended then some ([item], rest)
    else
      let (items, rest) ← items? steps rest
      some (item :: items, rest)

/-- The entries of a table up to its end. -/
def entries? : Nat → List Char → Option (List (Node × Node) × List Char)
  | 0, _ => none
  | steps + 1, cs => do
    let (key, rest) ← key? cs
    let (value, rest) ← value? steps rest
    let (ended, rest) ← separator? '\x7d' rest
    if ended then some ([(key, value)], rest)
    else
      let (entries, rest) ← entries? steps rest
      some ((key, value) :: entries, rest)
where
  /-- A string and the colon after it. -/
  key? (cs : List Char) : Option (Node × List Char) :=
    match skipBlanks cs with
    | '\x22' :: rest => do
      let (ps, rest) ← pieces? rest
      match skipBlanks rest with
      | ':' :: rest => some (.leaf (stringScalar ps), rest)
      | _ => none
    | _ => none

end

/-- The node of a JSON text. Opening a collection and reading an item each consume a character, so
that twice the length of the text is steps enough. -/
def parse? (text : String) : Option Node := do
  let cs := text.toList
  let (n, rest) ← value? (2 * cs.length + 2) cs
  if (skipBlanks rest).isEmpty then some n else none

end WireTypes.Document.Json
