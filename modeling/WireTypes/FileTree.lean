import WireTypes.Files

/-!
# File trees

The files and directories that a command reads and writes, with the directory in which relative
paths start. Looking a path up follows its steps: a name or a way up needs a directory to start
from.

Symbolic links, permissions and contents that are not text are left out:

* Without links, the names on the way to a place are its only names, so paths that only go down lead
  to one place only by the same steps (`steps_eq_of_descends`).
* Without permissions, every file can be read, and a write fails on account of its path only: the
  path has no place, it names a directory, or a file stands where a directory is needed.
-/

set_option autoImplicit false

namespace WireTypes

/-- A place in a tree: the names from the root down. -/
abbrev Place := List String

/-- Files with their contents, directories, and the place where relative paths start. The root is
always a directory. There are no links and no permissions. -/
structure FileTree where
  files : List (Place × String)
  dirs : List Place
  start : Place
deriving Repr

namespace FileTree

/-! ## Looking up -/

/-- The root and the listed directories. -/
def hasDir (t : FileTree) (place : Place) : Bool :=
  place.isEmpty || t.dirs.contains place

/-- The content of the file at a place. -/
def content? (t : FileTree) (place : Place) : Option String :=
  t.files.lookup place

/-- Where a step leads. -/
def follow (t : FileTree) (base : Place) : Path.Step → Option Place
  | .root => some []
  | .here => if t.hasDir base then some base else none
  | .up => if t.hasDir base then some base.dropLast else none
  | .name s => if t.hasDir base then some (base ++ [s]) else none

/-- The place of a path, which need not be occupied. The empty path has none. -/
def place? (t : FileTree) (p : Path) : Option Place :=
  if p.text.isEmpty then none else p.steps.foldlM t.follow t.start

/-- Whether a path leads to a directory. -/
def isDir (t : FileTree) (p : Path) : Bool :=
  (t.place? p).any t.hasDir

/-- The content of the file that a path leads to. -/
def read? (t : FileTree) (p : Path) : Option String := do
  let place ← t.place? p
  if p.namesDirectory then none else t.content? place

/-! ## Listing -/

/-- Order of places: by the first name that differs, and a place before those below it. Among the
files below a directory this is the order of a walk that visits entries by name. -/
def precedes : Place → Place → Bool
  | [], _ => true
  | _ :: _, [] => false
  | a :: as, b :: bs => if a = b then precedes as bs else a < b

/-- The rest of a place below `top`. -/
def below? : Place → Place → Option Place
  | [], rest => some rest
  | _ :: _, [] => none
  | a :: as, b :: bs => if a = b then below? as bs else none

/-- The files below a directory, each as the path of the directory continued by names, in the order
of a depth-first walk that visits the entries of a directory by name. -/
def filesBelow (t : FileTree) (dir : Path) : List Path :=
  match t.place? dir with
  | none => []
  | some top =>
    let found := t.files.filterMap fun (place, _) => below? top place
    (found.mergeSort precedes).map fun rest => rest.foldl (fun p name => p.join ⟨name⟩) dir

/-- What a tree shows to a reader. -/
def view (t : FileTree) : Files :=
  { isDir := t.isDir, read? := t.read?, below := t.filesBelow }

/-! ## Writing -/

/-- A tree after an attempt to change it, and whether the attempt came to its end. -/
structure Attempt where
  tree : FileTree
  done : Bool

/-- Puts a file at a place, over one that is there. -/
def put (t : FileTree) (place : Place) (content : String) : FileTree :=
  if (t.content? place).isSome then
    { t with files := t.files.map fun f => if f.1 = place then (place, content) else f }
  else { t with files := t.files ++ [(place, content)] }

/-- Makes the directories along the steps from a place. A file in the way ends it. -/
def makeDirs (t : FileTree) (place : Place) : List Path.Step → Attempt
  | [] => ⟨t, true⟩
  | .root :: rest => makeDirs t [] rest
  | .here :: rest => makeDirs t place rest
  | .up :: rest => makeDirs t place.dropLast rest
  | .name s :: rest =>
    let next := place ++ [s]
    if t.hasDir next then makeDirs t next rest
    else if (t.content? next).isSome then ⟨t, false⟩
    else makeDirs { t with dirs := t.dirs ++ [next] } next rest

/-- Writes a file into a directory that exists. -/
def write (t : FileTree) (p : Path) (content : String) : Attempt :=
  match t.place? p with
  | none => ⟨t, false⟩
  | some place =>
    if p.namesDirectory || t.hasDir place then ⟨t, false⟩ else ⟨t.put place content, true⟩

/-- Writes a file after making the directories above it. The answer holds the path at fault when
that fails. -/
def save (t : FileTree) (p : Path) (content : String) : FileTree × Option Path :=
  let above := (p.parent?.filter fun q => !q.text.isEmpty)
  let made :=
    match above with
    | some q => t.makeDirs t.start q.steps
    | none => ⟨t, true⟩
  if made.done then
    let written := made.tree.write p content
    (written.tree, if written.done then none else some p)
  else (made.tree, above)

/-- The files below the start that are not in `old` with the same content, as places from the start
on. -/
def changesSince (t old : FileTree) : List (Place × String) :=
  t.files.filterMap fun (place, content) =>
    if old.content? place = some content then none
    else (below? t.start place).map fun rest => (rest, content)

/-- All the places above a place, the root left out. -/
def placesAbove (place : Place) : List Place :=
  (List.range place.length).tail.map place.take

/-- The tree with the given files and directories below `start`. The directories above each of them
exist too. -/
def ofEntries (start : Place) (files : List (Place × String)) (dirs : List Place) : FileTree :=
  let files := files.map fun (place, content) => (start ++ place, content)
  let dirs := start :: dirs.map (start ++ ·)
  { files, start,
    dirs := (dirs ++ (files.map Prod.fst ++ dirs).flatMap placesAbove).eraseDups }

end FileTree

end WireTypes
