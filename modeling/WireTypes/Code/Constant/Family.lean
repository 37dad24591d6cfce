import WireTypes.Code.Constant.SharedWords
import WireTypes.Declaration

/-!
# Families of constants

Consecutive constants of one type form a run. A run of two or more may become a family, which shares
a type alias: the declared type of the constants, or else an alias of its own. The names that an
output has taken are kept, so that no alias collides with a declaration or with another alias.
-/

set_option autoImplicit false

namespace WireTypes.Code

/-- The names taken in one output, by declarations and by aliases. -/
structure TakenNames where
  names : List String
deriving Repr, DecidableEq, Inhabited

namespace TakenNames

/-- Whether a name is taken. -/
def contains (t : TakenNames) (name : String) : Bool :=
  t.names.contains name

/-- Takes a name. -/
def insert (t : TakenNames) (name : String) : TakenNames :=
  ⟨name :: t.names⟩

end TakenNames

/-- Two constants or more under an alias. An alias of the family's own comes with the type that
backs it. -/
structure Family where
  name : String
  backing : Option Shape
  first : ConstDecl
  others : List ConstDecl
deriving Repr, Inhabited

/-- The constants of a family, in order. -/
def Family.members (f : Family) : List ConstDecl :=
  f.first :: f.others

/-- Constants that are written together: one on its own, or a family. -/
inductive ConstPiece where
  | single (decl : ConstDecl)
  | family (f : Family)
deriving Repr, Inhabited

/-- The constants of a piece, in order. -/
def ConstPiece.members : ConstPiece → List ConstDecl
  | .single decl => [decl]
  | .family f => f.members

/-- Cuts constants into the longest runs of one type name. -/
def runs (consts : List ConstDecl) : List (List ConstDecl) :=
  consts.splitBy fun a b => a.typeName == b.typeName

/-- The family of a run of two constants or more. A declared type is its alias. A type name that
nothing declares becomes an alias, backed by the type of the first value; constants of a predeclared
or unresolved type have the words that their names share for an alias, unless that is taken. -/
def Family.ofRun? (taken : TakenNames) : List ConstDecl → Option Family
  | first :: second :: rest =>
    let others := second :: rest
    match first.type with
    | .named name =>
      let backing :=
        if taken.contains name then none else some (.primitive first.value.defaultType)
      some { name, backing, first, others }
    | .primitive _ | .unresolved _ =>
      match sharedWords? ((first :: others).map ConstDecl.name) with
      | some name =>
        if taken.contains name then none
        else some { name, backing := some first.type, first, others }
      | none => none
    | _ => none
  | _ => none

/-- The names taken after a family: an alias of the family's own is taken from then on. -/
def TakenNames.after (taken : TakenNames) (f : Family) : TakenNames :=
  if f.backing.isSome then taken.insert f.name else taken

/-- Turns runs into pieces, one after the other. A run that is no family is written constant by
constant. -/
def piecesOfRuns (grouped : Bool) (taken : TakenNames) :
    List (List ConstDecl) → List ConstPiece × TakenNames
  | [] => ([], taken)
  | run :: rest =>
    match if grouped then Family.ofRun? taken run else none with
    | some f =>
      let (pieces, taken) := piecesOfRuns grouped (taken.after f) rest
      (.family f :: pieces, taken)
    | none =>
      let (pieces, taken) := piecesOfRuns grouped taken rest
      (run.map .single ++ pieces, taken)

/-- Turns consecutive constants into pieces, and answers the names taken after them. -/
def constPieces (grouped : Bool) (taken : TakenNames) (consts : List ConstDecl) :
    List ConstPiece × TakenNames :=
  piecesOfRuns grouped taken (runs consts)

end WireTypes.Code
