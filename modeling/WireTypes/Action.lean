import WireTypes.Command
import WireTypes.InPlace

/-!
# Commands in place

The commands once more, as steps that look at the files as they are by then, save files and print.
-/

set_option autoImplicit false

namespace WireTypes.Command

open CommandLine (Invocation RenderRequest)

/-- What a command acts on: the files, and the text on the standard output. -/
structure World where
  tree : FileTree
  stdout : String
deriving Repr

/-- The steps of a command. -/
abbrev Action := InPlace World CommandError

namespace Action

/-- Works something out from the files as they are. -/
def look {α : Type} (f : Files → Except CommandError α) : Action α := do
  let w ← get
  f w.tree.view

/-- Saves a file; `fault` is the error for a path that cannot be written. -/
def save (fault : Path → CommandError) (path : Path) (text : String) : Action PUnit := do
  let w ← get
  let (tree, unwritten) := w.tree.save path text
  set { w with tree }
  match unwritten with
  | none => pure ⟨⟩
  | some p => throw (fault p)

/-- Prints a text. -/
def print (text : String) : Action PUnit :=
  modify fun w => { w with stdout := w.stdout ++ text }

/-- Writes the packages of a settings file: settings, options, collisions, the outputs of all
entries, and then the files. -/
def generate (settings : Path) : Action PUnit := do
  let entries ← look fun files => loadSettings files settings
  let options ← lift (entries.mapM Entry.options)
  look fun files =>
    match collision? files [] entries with
    | some (path, first, second) => throw (.outputCollision path first second)
    | none => pure PUnit.unit
  let outputs ← (entries.zip options).mapM fun (e, options) =>
    look fun files => renderEntry files e options
  forM outputs fun (path, text) => save .unwritable path text

/-- Renders documents: options, one input after the other, the text, and then the output. -/
def render (args : RenderRequest) : Action PUnit := do
  let options ← lift (renderOptions args)
  let target ← lift (Target.ofOptions options)
  let target ← args.inputs.foldlM (fun target p => do
    let packages ← look fun files => loadInput files p
    addAll target packages) target
  let code ← lift target.generate
  match args.output with
  | some path => save (fun p => .failed (.inaccessible p)) path code
  | none => print code

/-- The steps of a command line. -/
def ofArgs (args : List String) : Action PUnit :=
  match CommandLine.parse? args with
  | none => throw .usage
  | some (.generate settings) => generate settings
  | some (.render request) => render request

end Action

/-- Carries out a command line step by step. -/
def perform (t : FileTree) (args : List String) : Outcome :=
  let (w, result) := InPlace.runAt ⟨t, ""⟩ (Action.ofArgs args)
  { stdout := w.stdout
    tree := w.tree
    error := match result with
      | .ok _ => none
      | .error e => some e }

end WireTypes.Command
