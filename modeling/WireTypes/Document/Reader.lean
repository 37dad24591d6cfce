import WireTypes.Document.Plain

/-!
# Reading trees

What a tree gives to a reader who knows which type to expect. A reading fails as a whole, so a
failure carries no reason.
-/

set_option autoImplicit false

namespace WireTypes.Document

/-! ## Scalars -/

namespace Scalar

/-- The text of a scalar where text is expected: any text is, whatever it looks like. -/
def string? : Scalar → Option String
  | .typed (.text s) => some s
  | .typed _ => none
  | .unreadable => none
  | .text s _ _ => some s

/-- A whole number in 64 bits, if a text is one. A longer one that fits 128 bits has no value. -/
def integer? (s : String) : Option Atom :=
  match Plain.nat? (Nat.pow 2 64) s.toList with
  | some n => some (.nat n)
  | none => (Plain.negative? (Nat.pow 2 63) s.toList).map .int

/-- The value of a scalar where any type is welcome: its tag decides, then its quotes, then its
text. -/
def atom? : Scalar → Option Atom
  | .typed a => some a
  | .unreadable => none
  | .text s plain none => if plain then Plain.atom? s else some (.text s)
  | .text _ _ (some .own) => none
  | .text s _ (some .foreign) => some (.text s)
  | .text s _ (some .null) => if Plain.isNull s then some .null else none
  | .text s _ (some .bool) => (Plain.bool? s).map .bool
  | .text s _ (some .int) => integer? s
  | .text s _ (some .float) => (Plain.float? s.toList).map .float

/-- Whether a scalar says that an optional entry is absent. -/
def isAbsent : Scalar → Bool
  | .typed .null => true
  | .text s true none => s.isEmpty || Plain.isNull s
  | .text s true (some .null) => Plain.isNull s
  | _ => false

/-- A whole number below `limit` where one is expected. Quoted text is none. -/
def nat? (limit : Nat) : Scalar → Option Nat
  | .typed (.nat n) => if n < limit then some n else none
  | .text s true _ => Plain.nat? limit s.toList
  | _ => none

/-- A truth value where one is expected. -/
def bool? : Scalar → Option Bool
  | .typed (.bool b) => some b
  | .text s true _ => Plain.bool? s
  | _ => none

/-- An entry without a value stands for an empty collection. -/
def isEmptyPlain : Scalar → Bool
  | .text s true _ => s.isEmpty
  | _ => false

end Scalar

/-! ## Fields -/

/-- Collects the entries whose keys name fields. `field?` fails for keys that cannot name a field
and answers `none` for fields that are not known, which `strict` refuses. No field may be given
twice. -/
def collect? {κ α : Type} (strict : Bool) (field? : κ → Option (Option String)) :
    List (κ × α) → Option (List (String × α))
  | [] => some []
  | (key, a) :: rest => do
    let found ← collect? strict field? rest
    match ← field? key with
    | none => if strict then none else some found
    | some name => if (found.lookup name).isSome then none else some ((name, a) :: found)

/-- Fields given by position; those at the end may be left out. -/
def positional? {α : Type} (names : List String) (items : List α) : Option (List (String × α)) :=
  if items.length ≤ names.length then some (names.zip items) else none

/-- A name among `names`, or no known field. -/
def known (names : List String) (name : String) : Option String :=
  if names.contains name then some name else none

/-! ## Nodes -/

/-- How a format is read: how many collections may still be opened, and whether the fields of a
record may be given by position. -/
structure Reader where
  depth : Nat
  byPosition : Bool
deriving Repr

namespace Reader

/-- The reader inside a collection. -/
def enter? (r : Reader) : Option Reader :=
  if r.depth = 0 then none else some { r with depth := r.depth - 1 }

/-- The text of a node. -/
def string? : Node → Option String
  | .leaf a => a.string?
  | _ => none

/-- What a node that may be absent contains. -/
def optional? {α : Type} (read? : Node → Option α) (n : Node) : Option (Option α) :=
  match n with
  | .leaf a => if a.isAbsent then some none else (read? n).map some
  | _ => (read? n).map some

/-- The items of a list, and their reader. -/
def list? (r : Reader) : Node → Option (Reader × List Node)
  | .list items => r.enter?.map fun r => (r, items)
  | .leaf a => if a.isEmptyPlain then some (r, []) else none
  | .table _ => none

/-- The known fields of a record, and their reader. -/
def fields? (r : Reader) (strict : Bool) (names : List String) :
    Node → Option (Reader × List (String × Node))
  | .table entries => do
    let inner ← r.enter?
    let fields ← collect? strict (fun key => (string? key).map (known names)) entries
    some (inner, fields)
  | .list items => do
    if !r.byPosition then none
    let inner ← r.enter?
    let fields ← positional? names items
    some (inner, fields)
  | .leaf a => if a.isEmptyPlain then some (r, []) else none

/-- The entry of a table that must have exactly one, and its reader. -/
def single? (r : Reader) : Node → Option (Reader × String × Node)
  | .table [(key, value)] => do
    let inner ← r.enter?
    let key ← string? key
    some (inner, key, value)
  | _ => none

mutual

/-- The value of a node where any type is welcome, with at most `depth` collections open at once. -/
def value? (depth : Nat) : Node → Option Value
  | .leaf a => a.atom?.map .leaf
  | .list items => if depth = 0 then none else (values? (depth - 1) items).map .list
  | .table entries => if depth = 0 then none else (entries? (depth - 1) entries).map .table
termination_by structural n => n

/-- The values of nodes. -/
def values? (depth : Nat) : List Node → Option (List Value)
  | [] => some []
  | n :: rest => do
    let v ← value? depth n
    let vs ← values? depth rest
    some (v :: vs)
termination_by structural ns => ns

/-- The values of the entries of a table. -/
def entries? (depth : Nat) : List (Node × Node) → Option (List (Value × Value))
  | [] => some []
  | e :: rest => do
    let v ← pair? depth e
    let vs ← entries? depth rest
    some (v :: vs)
termination_by structural es => es

/-- The values of a key and of what it stands for. -/
def pair? (depth : Nat) : Node × Node → Option (Value × Value)
  | (key, n) => do
    let k ← value? depth key
    let v ← value? depth n
    some (k, v)
termination_by structural e => e

end

end Reader

/-! ## Fields of a record -/

/-- A field that must be there. -/
def required? {α β : Type} (fields : List (String × α)) (name : String) (read? : α → Option β) :
    Option β :=
  (fields.lookup name).bind read?

/-- A field that may be left out. -/
def default? {α β : Type} (fields : List (String × α)) (name : String) (default : β)
    (read? : α → Option β) : Option β :=
  match fields.lookup name with
  | some a => read? a
  | none => some default

/-! ## Values -/

namespace Value

/-- A text. -/
def text? : Value → Option String
  | .leaf (.text s) => some s
  | _ => none

/-- A whole number in 64 bits that is not negative. -/
def nat? : Value → Option Nat
  | .leaf (.nat n) => some n
  | .leaf (.int i) => if 0 ≤ i then some i.toNat else none
  | _ => none

/-- What a value that may be null contains. -/
def optional? {α : Type} (read? : Value → Option α) : Value → Option (Option α)
  | .leaf .null => some none
  | v => (read? v).map some

/-- The items of a list. -/
def list? : Value → Option (List Value)
  | .list items => some items
  | _ => none

/-- The field that a key stands for: a name, or the position of one. -/
def field? (names : List String) : Value → Option (Option String)
  | .leaf (.text s) => some (known names s)
  | .leaf (.nat n) => some names[n]?
  | _ => none

/-- The known fields of a record, by name or by position. -/
def fields? (names : List String) : Value → Option (List (String × Value))
  | .table entries => collect? false (field? names) entries
  | .list items => positional? names items
  | .leaf _ => none

end Value

end WireTypes.Document
