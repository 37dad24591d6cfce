import WireTypes.InPlace
import WireTypes.Target

/-!
# Additions

Sources of declarations, and how they are added to a target in place.
-/

set_option autoImplicit false

namespace WireTypes

/-- Where the declarations of an output come from: a package, the text of a document, a file with a
document, or the documents below a directory. -/
inductive Source where
  | package (p : Package)
  | text (format : Document.Format) (text : String)
  | file (p : Path)
  | directory (p : Path)

namespace Source

/-- Adds a package: its sections one after the other, when all of them are there. -/
def addPackage (p : Package) : InPlace Target Error PUnit := do
  let sections ← Resolution.packageSections p
  forM sections fun s => modify fun target => target.addSection s

/-- Adds a source: its packages one after the other, when all of them are loaded. -/
def add (files : Files) : Source → InPlace Target Error PUnit
  | .package p => addPackage p
  | .text format content => do
    let p ← Document.readPackage format content "<memory>"
    addPackage p
  | .file path => do
    let p ← loadDocument files path
    addPackage p
  | .directory path => do
    let packages ← loadDocuments files path
    forM packages addPackage

end Source

/-- A target after a source is added to it, and whether all of the source was. -/
def Target.add (target : Target) (files : Files) (source : Source) : Target × Except Error PUnit :=
  InPlace.runAt target (source.add files)

end WireTypes
