import WireTypes.Document.TypeExpr

/-!
# Package documents

One document holds the resolved declarations of one package, file by file.
-/

set_option autoImplicit false

namespace WireTypes.Document

/-- The value of a constant: a truth value, a whole number that fits 64 bits with a sign, any other
number, a text, or a record with the text of an expression. -/
def literalOf? : Value → Option Package.Literal
  | .leaf .null => none
  | .leaf (.bool b) => some (.bool b)
  | .leaf (.nat n) => some (if n < Nat.pow 2 63 then .int n else .float (Decimal.nearest n 0))
  | .leaf (.int i) => some (.int i)
  | .leaf (.float x) => some (.float x)
  | .leaf (.text s) => some (.string s)
  | .table entries => do
    let fields ← Value.fields? ["expr"] (.table entries)
    let text ← required? fields "expr" Value.text?
    some (.expr text)
  | .list _ => none

/-- The value of a constant in a node. -/
def literal? (r : Reader) (n : Node) : Option Package.Literal :=
  (Reader.value? r.depth n).bind literalOf?

/-- An optional text of a record. -/
def text? (fields : List (String × Node)) (name : String) : Option (Option String) :=
  default? fields name none (Reader.optional? Reader.string?)

/-- An optional line number of a record. -/
def line? (fields : List (String × Node)) : Option (Option Nat) :=
  let nat? : Node → Option Nat
    | .leaf a => a.nat? (Nat.pow 2 32)
    | _ => none
  default? fields "line" none (Reader.optional? nat?)

/-- The declaration of a type. -/
def typeSpec? (r : Reader) (n : Node) : Option Package.TypeSpec := do
  let (r, fields) ← r.fields? false ["name", "underlying", "doc", "comment", "line"] n
  let name ← required? fields "name" Reader.string?
  let underlying ← required? fields "underlying" (typeExpr? r)
  let doc ← text? fields "doc"
  let comment ← text? fields "comment"
  let line ← line? fields
  some { name, underlying, doc, comment, line }

/-- The declaration of a constant, whose type may be absent. -/
def constSpec? (r : Reader) (n : Node) : Option Package.ConstSpec := do
  let (r, fields) ← r.fields? false ["name", "type", "value", "doc", "comment", "line"] n
  let name ← required? fields "name" Reader.string?
  let type ← default? fields "type" none (Reader.optional? (typeExpr? r))
  let value ← required? fields "value" (literal? r)
  let doc ← text? fields "doc"
  let comment ← text? fields "comment"
  let line ← line? fields
  some { name, type, value, doc, comment, line }

/-- A declaration is a table with one entry, whose key says what is declared. -/
def decl? (r : Reader) (n : Node) : Option Package.Decl := do
  let (r, key, value) ← r.single? n
  if key = "type" then (typeSpec? r value).map .type
  else if key = "const" then (constSpec? r value).map .const
  else if key = "emit" then (Reader.string? value).map .emit
  else none

/-- A list of a record, whose items are read by `item?`. -/
def listField? {α : Type} (r : Reader) (fields : List (String × Node)) (name : String)
    (item? : Reader → Node → Option α) : Option (List α) :=
  default? fields name [] fun n => do
    let (r, items) ← r.list? n
    items.mapM (item? r)

/-- A file of a package. -/
def file? (r : Reader) (n : Node) : Option Package.File := do
  let (r, fields) ← r.fields? false ["name", "decls"] n
  let name ← required? fields "name" Reader.string?
  let decls ← listField? r fields "decls" decl?
  some { name, decls }

/-- The package of a document. -/
def package? (r : Reader) (n : Node) : Option Package := do
  let (r, fields) ← r.fields? false ["package", "files"] n
  let name ← required? fields "package" Reader.string?
  let files ← listField? r fields "files" file?
  some { name, files }

end WireTypes.Document
