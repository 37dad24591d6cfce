import WireTypes.Code.Constant.Family
import WireTypes.Section

/-!
# Layout

The items of a section as the blocks in which they are written. Constants that follow each other
are cut into pieces together; a type or a copied text between them keeps them apart.
-/

set_option autoImplicit false

namespace WireTypes.Code

/-- What is written together: a type, constants, or a copied text. -/
inductive Block where
  | type (decl : TypeDecl)
  | consts (piece : ConstPiece)
  | emit (text : String)
deriving Repr, Inhabited

/-- The blocks of items that follow the constants `pending`, and the names taken after them. -/
def layoutAfter (grouped : Bool) (taken : TakenNames) (pending : List ConstDecl) :
    List Item → List Block × TakenNames
  | [] =>
    let (pieces, taken) := constPieces grouped taken pending
    (pieces.map .consts, taken)
  | .const decl :: rest => layoutAfter grouped taken (pending ++ [decl]) rest
  | .type decl :: rest =>
    let (pieces, taken) := constPieces grouped taken pending
    let (more, taken) := layoutAfter grouped taken [] rest
    (pieces.map .consts ++ .type decl :: more, taken)
  | .emit text :: rest =>
    let (pieces, taken) := constPieces grouped taken pending
    let (more, taken) := layoutAfter grouped taken [] rest
    (pieces.map .consts ++ .emit text :: more, taken)

/-- The blocks of items, and the names taken after them. -/
def layout (grouped : Bool) (taken : TakenNames) (items : List Item) : List Block × TakenNames :=
  layoutAfter grouped taken [] items

/-- The blocks of sections, with one record of taken names for all of them. -/
def layoutSections (grouped : Bool) (taken : TakenNames) :
    List Section → List (Section × List Block) × TakenNames
  | [] => ([], taken)
  | s :: rest =>
    let (blocks, taken) := layout grouped taken s.items
    let (more, taken) := layoutSections grouped taken rest
    ((s, blocks) :: more, taken)

/-- The names taken in an output before any alias: those declared in any of its sections. -/
def TakenNames.ofSections (sections : List Section) : TakenNames :=
  ⟨sections.flatMap fun s => (Section.declarations s.items).map Prod.fst⟩

end WireTypes.Code
