import WireTypes.Document.Json
import WireTypes.Document.Package
import WireTypes.Document.Yaml
import WireTypes.Error

/-!
# Formats of documents

The two formats in which a document may be written, and how each of them is read.
-/

set_option autoImplicit false

namespace WireTypes.Document

/-- The formats of documents. -/
inductive Format where
  | json | yaml
deriving Repr, DecidableEq

namespace Format

/-- The format that the extension of a path announces. -/
def ofPath? (p : Path) : Option Format :=
  match p.extension? with
  | some "json" => some .json
  | some "yaml" | some "yml" => some .yaml
  | _ => none

/-- The node of a text. -/
def parse? : Format → String → Option Node
  | .json => Json.parse?
  | .yaml => Yaml.parse?

/-- In JSON a record may be written as a list of its fields. -/
def reader : Format → Reader
  | .json => { depth := 127, byPosition := true }
  | .yaml => { depth := 128, byPosition := false }

end Format

/-- Reads a package document; `origin` says in messages where it comes from. -/
def readPackage (format : Format) (text origin : String) : Except Error Package :=
  match (format.parse? text).bind (package? format.reader) with
  | some p => pure p
  | none => throw (.unreadableDocument origin)

end WireTypes.Document
