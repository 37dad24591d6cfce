import WireTypes.Declaration
import WireTypes.Error

/-!
# Sections

A section of an output holds the declarations of one Go file.
-/

set_option autoImplicit false

namespace WireTypes

/-- The declarations of a Go file, in order. -/
structure Section where
  package : String
  file : String
  items : List Item
deriving Repr, Inhabited

namespace Section

/-- The names that a list of items declares, with their places, in order. -/
def declarations (items : List Item) : List (String × Location) :=
  items.filterMap Item.declared?

/-- The first declaration of a name that was declared before: the name, its first place and the
place of the repetition. -/
def firstRepeated? : List (String × Location) → List (String × Location) →
    Option (String × Location × Location)
  | _, [] => none
  | seen, (name, location) :: rest =>
    match seen.lookup name with
    | some first => some (name, first, location)
    | none => firstRepeated? (seen ++ [(name, location)]) rest

/-- A section, unless a name is declared twice in it. -/
def ofItems (package file : String) (items : List Item) : Except Error Section :=
  match firstRepeated? [] (declarations items) with
  | some (name, first, second) => throw (.duplicateDeclaration name first second)
  | none => pure { package, file, items }

/-- The names of the types that a section declares. -/
def typeNames (s : Section) : List String :=
  s.items.filterMap fun
    | .type decl => some decl.name
    | _ => none

end Section

end WireTypes
