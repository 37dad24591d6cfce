import WireTypes.Path

/-!
# Files

What a reader needs to know about files and directories.
-/

set_option autoImplicit false

namespace WireTypes

/-- The files that a reader sees. -/
structure Files where
  /-- Whether a path leads to a directory. -/
  isDir : Path → Bool
  /-- The content of the file that a path leads to. -/
  read? : Path → Option String
  /-- The files below a directory, in the order of a depth-first walk that visits the entries of a
  directory by name. -/
  below : Path → List Path

end WireTypes
