import WireTypes.Text.Blank
import WireTypes.Text.Pieces

/-!
# Paths

A path keeps its spelling, because it is shown in messages. What it means are its steps: repeated
slashes, a slash at the end, and the name `.` anywhere but at the start say nothing.
-/

set_option autoImplicit false

namespace WireTypes

/-- A slash-separated path, as it was written. -/
structure Path where
  text : String
deriving Repr, DecidableEq, Inhabited

namespace Path

/-- One step of a path: to the root, staying at the start, up, or down to a name. -/
inductive Step where
  | root
  | here
  | up
  | name (s : String)
deriving Repr, DecidableEq

/-- The pieces between the slashes. -/
def segments (p : Path) : List (List Char) :=
  Text.splitAtEach '/' p.text.toList

/-- A piece that takes no step, unless it is at the start. -/
def isIdle (segment : List Char) : Bool :=
  segment = [] ∨ segment = ['.']

/-- The step of a piece that is not at the start. -/
def step? (segment : List Char) : Option Step :=
  if isIdle segment then none
  else if segment = ['.', '.'] then some .up
  else some (.name (.ofList segment))

/-- A path that starts at the root. -/
def isAbsolute (p : Path) : Bool :=
  p.text.toList.head? == some '/'

/-- The steps of a path, in order. -/
def steps (p : Path) : List Step :=
  match p.segments with
  | [] => []
  | first :: rest =>
    let start :=
      if p.isAbsolute then [.root]
      else if first = ['.'] then [.here]
      else (step? first).toList
    start ++ rest.filterMap step?

/-- Two spellings of one sequence of steps. -/
def same (p q : Path) : Bool :=
  p.steps = q.steps

/-- The name that a path ends with. -/
def fileName? (p : Path) : Option String :=
  match p.steps.getLast? with
  | some (.name s) => some s
  | _ => none

/-- Cuts at the last `sep`, if there is one. -/
def splitAtLast (sep : Char) (cs : List Char) : Option (List Char × List Char) :=
  (Text.splitAtFirst sep cs.reverse).map fun (right, left) => (left.reverse, right.reverse)

/-- What follows the last point of the name, provided something precedes that point. -/
def extension? (p : Path) : Option String := do
  let name ← p.fileName?
  let (stem, ext) ← splitAtLast '.' name.toList
  if stem.isEmpty then none else some (.ofList ext)

/-- The path without its last step, and without what is idle before it. There is none when the last
step goes to the root. -/
def parent? (p : Path) : Option Path :=
  match p.segments with
  | [] => none
  | first :: rest =>
    match Text.dropEndWhile isIdle rest with
    | [] =>
      if p.isAbsolute ∨ first = [] then none else some ⟨""⟩
    | kept =>
      let above := Text.dropEndWhile isIdle kept.dropLast
      if p.isAbsolute ∧ above = [] then some ⟨"/"⟩
      else some ⟨.ofList (List.intercalate ['/'] (first :: above))⟩

/-- `p` continued by `q`; an absolute `q` stands for itself. -/
def join (p q : Path) : Path :=
  if q.isAbsolute then q
  else if p.text.isEmpty ∨ p.text.toList.getLast? = some '/' then ⟨p.text ++ q.text⟩
  else ⟨p.text ++ "/" ++ q.text⟩

/-- The spelling admits directories only: it ends with a slash or with a lone point. -/
def namesDirectory (p : Path) : Bool :=
  match p.segments.getLast? with
  | some last => isIdle last
  | none => false

end Path

end WireTypes
