import WireTypes.Document.Reader
import WireTypes.Package

/-!
# Type expressions in documents

A type expression is a record with a `kind` and the fields of that kind. Written as a list it has
the kind first.
-/

set_option autoImplicit false

namespace WireTypes.Document

/-- The kinds of type expressions. -/
inductive Kind where
  | basic | named | pointer | slice | array | map | struct | interface | func | chan
deriving Repr, DecidableEq

namespace Kind

/-- The word for a kind. -/
def name : Kind → String
  | basic => "basic"
  | named => "named"
  | pointer => "pointer"
  | slice => "slice"
  | array => "array"
  | map => "map"
  | struct => "struct"
  | interface => "interface"
  | func => "func"
  | chan => "chan"

/-- All kinds, in the order by which numbers stand for them. -/
def all : List Kind :=
  [basic, named, pointer, slice, array, map, struct, interface, func, chan]

/-- The fields of a kind. -/
def fields : Kind → List String
  | basic => ["name"]
  | named => ["package", "name"]
  | pointer => ["elem"]
  | slice => ["elem"]
  | array => ["elem", "len"]
  | map => ["key", "value"]
  | struct => ["fields"]
  | interface => ["methods", "embeds"]
  | func => []
  | chan => ["elem"]

/-- A kind by its name or its number. -/
def ofValue? : Value → Option Kind
  | .leaf (.text s) => all.find? (·.name = s)
  | .leaf (.nat n) => all[n]?
  | _ => none

end Kind

/-- Whether a value is the key of the kind. -/
def isKindKey : Value → Bool
  | .leaf (.text s) => s = "kind"
  | _ => false

/-- The kind of a type expression, and what is left without it. A table has it at any position, but
once. -/
def splitKind? : Value → Option (Kind × Value)
  | .table entries => do
    match entries.filter (isKindKey ·.1) with
    | [(_, kind)] =>
      let kind ← Kind.ofValue? kind
      some (kind, .table (entries.filter (!isKindKey ·.1)))
    | _ => none
  | .list (kind :: rest) => do
    let kind ← Kind.ofValue? kind
    some (kind, .list rest)
  | _ => none

/-- The fields of a kind. A kind without fields ignores those of a table. -/
def kindFields? (kind : Kind) : Value → Option (List (String × Value))
  | .table entries =>
    if kind.fields.isEmpty then some [] else Value.fields? kind.fields (.table entries)
  | v => Value.fields? kind.fields v

/-- A method of an interface. -/
def method? (v : Value) : Option Package.Method := do
  let fields ← Value.fields? ["name", "signature"] v
  let name ← required? fields "name" Value.text?
  let signature ← default? fields "signature" none (Value.optional? Value.text?)
  some { name, signature }

/-- A field of a struct, whose type is read by `type?`. -/
def structField? {τ : Type} (type? : Value → Option τ) (v : Value) : Option (Package.Field τ) := do
  let fields ← Value.fields? ["name", "type", "tag", "doc", "comment"] v
  let text (name : String) : Option (Option String) :=
    default? fields name none (Value.optional? Value.text?)
  let name ← text "name"
  let type ← required? fields "type" type?
  let tag ← text "tag"
  let doc ← text "doc"
  let comment ← text "comment"
  some { type, name, tag, doc, comment }

/-- A list whose items are read by `item?`. -/
def listOf? {α : Type} (item? : Value → Option α) (v : Value) : Option (List α) := do
  let items ← Value.list? v
  items.mapM item?

/-- A type expression in a value of at most `depth` nested collections. -/
def typeExprIn? : Nat → Value → Option Package.TypeExpr
  | 0, _ => none
  | depth + 1, v => do
    let (kind, rest) ← splitKind? v
    let fields ← kindFields? kind rest
    let elem := required? fields "elem" (typeExprIn? depth)
    match kind with
    | .basic => return .basic (← required? fields "name" Value.text?)
    | .named =>
      let package ← default? fields "package" none (Value.optional? Value.text?)
      return .named package (← required? fields "name" Value.text?)
    | .pointer => return .pointer (← elem)
    | .slice => return .slice (← elem)
    | .array =>
      let length ← default? fields "len" none (Value.optional? Value.nat?)
      return .array (← elem) length
    | .map =>
      let key ← required? fields "key" (typeExprIn? depth)
      return .map key (← required? fields "value" (typeExprIn? depth))
    | .struct =>
      return .struct (← default? fields "fields" [] (listOf? (structField? (typeExprIn? depth))))
    | .interface =>
      let methods ← default? fields "methods" [] (listOf? method?)
      return .interface methods (← default? fields "embeds" [] (listOf? (typeExprIn? depth)))
    | .func => return .func
    | .chan => return .chan (← elem)

/-- Turns an entry of the outermost table into values. The kind is text there, whatever it looks
like. -/
def typePair? (r : Reader) (entry : Node × Node) : Option (Value × Value) := do
  let key ← Reader.value? r.depth entry.1
  if isKindKey key then
    let kind ← Reader.string? entry.2
    some (key, .leaf (.text kind))
  else
    let v ← Reader.value? r.depth entry.2
    some (key, v)

/-- The type expression of a node. -/
def typeExpr? (r : Reader) (n : Node) : Option Package.TypeExpr := do
  let inner ← r.enter?
  let v : Value ←
    match n with
    | .table entries => (entries.mapM (typePair? inner)).map .table
    | .list (kind :: rest) => do
      let kind ← Reader.string? kind
      let rest ← Reader.values? inner.depth rest
      some (.list (.leaf (.text kind) :: rest))
    | _ => none
  typeExprIn? r.depth v

end WireTypes.Document
