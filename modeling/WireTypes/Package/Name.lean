import WireTypes.Text.Case

/-!
# Names

The export rule of Go.
-/

set_option autoImplicit false

namespace WireTypes.Package

/-- A name is exported when it starts with a capital letter. -/
def isExported (name : String) : Bool :=
  name.toList.head?.any Text.isUppercase

end WireTypes.Package
