/-!
# Locations

Places of declarations, as they are shown in messages.
-/

set_option autoImplicit false

namespace WireTypes

/-- Where a declaration stands in the resolved input: its file, its line when that is known, and its
position among the declarations of the file, counted from one. -/
structure Location where
  file : String
  line : Option Nat
  index : Nat
deriving Repr, DecidableEq, Inhabited

/-- A location in a message: by line if possible, by position otherwise. -/
def Location.text (l : Location) : String :=
  match l.line with
  | some line => s!"{l.file}:{line}"
  | none => s!"{l.file} (declaration #{l.index})"

end WireTypes
