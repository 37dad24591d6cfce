import WireTypes.Code.Emit
import WireTypes.Document.Format
import WireTypes.FileTree
import WireTypes.Resolution

/-!
# Targets

A target is one output in the making: its options, and the sections collected so far. Packages come
from texts, files and directories of documents.
-/

set_option autoImplicit false

namespace WireTypes

/-! ## Loading documents -/

/-- Loads the document of a file. -/
def loadDocument (files : Files) (p : Path) : Except Error Package :=
  match Document.Format.ofPath? p with
  | none => throw (.unknownFormat p)
  | some format =>
    match files.read? p with
    | none => throw (.inaccessible p)
    | some text => Document.readPackage format text p.text

/-- The documents that a path stands for: the file itself, or the files of known formats below a
directory. -/
def documentsOf (files : Files) (p : Path) : List Path :=
  if files.isDir p then
    (files.below p).filter fun q => (Document.Format.ofPath? q).isSome
  else [p]

/-- Loads all documents that a path stands for. -/
def loadDocuments (files : Files) (p : Path) : Except Error (List Package) :=
  (documentsOf files p).mapM (loadDocument files)

/-! ## Targets -/

/-- The options of an output and its sections so far. -/
structure Target where
  options : Options
  sections : List Section
deriving Repr, Inhabited

namespace Target

/-- An empty target, provided its options are valid. -/
def ofOptions (options : Options) : Except Error Target := do
  options.validate
  pure { options, sections := [] }

/-- Adds an override rule. -/
def addRule (target : Target) (name expr : String) : Except Error Target := do
  let overrides ← target.options.overrides.insert name expr
  pure { target with options := { target.options with overrides } }

/-- Takes the override rule of a name away. -/
def eraseRule (target : Target) (name : String) : Target :=
  { target with
    options := { target.options with overrides := target.options.overrides.erase name } }

/-- Adds a section at the end. -/
def addSection (target : Target) (s : Section) : Target :=
  { target with sections := target.sections ++ [s] }

/-- Adds the sections of a package. -/
def addPackage (target : Target) (p : Package) : Except Error Target := do
  let sections ← Resolution.packageSections p
  pure { target with sections := target.sections ++ sections }

/-- Adds packages one after the other. The answer holds the target at the first failure, with the
packages before it. -/
def addPackages (target : Target) : List Package → Target × Except Error PUnit
  | [] => (target, pure ⟨⟩)
  | p :: rest =>
    match target.addPackage p with
    | .ok target => target.addPackages rest
    | .error e => (target, throw e)

/-- Adds the package of a document that is given as text. -/
def addText (target : Target) (format : Document.Format) (text : String) : Except Error Target := do
  let p ← Document.readPackage format text "<memory>"
  target.addPackage p

/-- Adds the package of a file. -/
def addFile (target : Target) (files : Files) (p : Path) : Except Error Target := do
  let package ← loadDocument files p
  target.addPackage package

/-- Adds the packages of a document or of all documents below a directory. All of them are loaded
before any is added. -/
def addDirectory (target : Target) (files : Files) (p : Path) : Target × Except Error PUnit :=
  match loadDocuments files p with
  | .ok packages => target.addPackages packages
  | .error e => (target, throw e)

/-- The TypeScript of a target. -/
def generate (target : Target) : Except Error String :=
  Code.generate target.options target.sections

/-- Writes the TypeScript of a target to a file. The tree is unchanged when there is none. -/
def save (target : Target) (t : FileTree) (p : Path) : FileTree × Except Error PUnit :=
  match target.generate with
  | .error e => (t, throw e)
  | .ok code =>
    match t.save p code with
    | (t, none) => (t, pure ⟨⟩)
    | (t, some fault) => (t, throw (.inaccessible fault))

end Target

end WireTypes
