import WireTypes.CommandLine

/-!
# Commands

A command first works out all of its output and then delivers it, so that nothing is written when
anything is wrong with the input.
-/

set_option autoImplicit false

namespace WireTypes

open CommandLine (Invocation RenderRequest)

/-- Why a command ends early. -/
inductive CommandError where
  | usage
  | unreadable (path : Path)
  | unwritable (path : Path)
  | badSettings (path : Path)
  | noPackages (settings : Path)
  | outputCollision (path first second : Path)
  | unsupportedInput (path : Path)
  | failed (e : Error)
deriving Repr, DecidableEq

/-- The wording of an error. What the file system says about an unreadable or unwritable path is
left out. -/
def CommandError.message : CommandError → String
  | .usage => "invalid command line"
  | .unreadable path => s!"failed to read {path.text}"
  | .unwritable path => s!"failed to write {path.text}"
  | .badSettings path => s!"invalid config file {path.text}"
  | .noPackages settings => s!"no packages configured in {settings.text}"
  | .outputCollision path first second =>
    s!"packages {first.text} and {second.text} both write to {path.text}"
  | .unsupportedInput path =>
    s!"{path.text} is not a resolved package document or a directory of them"
  | .failed e => e.message

namespace Command

/-- What a command delivers: text on the standard output, one file, or the files of several
packages. -/
inductive Plan where
  | print (text : String)
  | save (path : Path) (text : String)
  | saveAll (outputs : List (Path × String))
deriving Repr

namespace Plan

/-- The text for the standard output. -/
def stdout : Plan → String
  | .print text => text
  | .save .. | .saveAll _ => ""

/-- The files to be saved, in order. -/
def files : Plan → List (Path × String)
  | .print _ => []
  | .save path text => [(path, text)]
  | .saveAll outputs => outputs

/-- The error when a path cannot be written. -/
def fault (plan : Plan) (p : Path) : CommandError :=
  match plan with
  | .saveAll _ => .unwritable p
  | .print _ | .save .. => .failed (.inaccessible p)

end Plan

/-- An error of the library as an error of a command. -/
def lift {α : Type} (x : Except Error α) : Except CommandError α :=
  x.mapError .failed

/-- The packages of an input, of which there must be one at least. -/
def loadInput (files : Files) (p : Path) : Except CommandError (List Package) := do
  let packages ← lift (loadDocuments files p)
  if packages.isEmpty then throw (.unsupportedInput p)
  return packages

/-- Adds packages to a target, all of them or none. -/
def addAll (target : Target) (packages : List Package) : Except CommandError Target :=
  lift (packages.foldlM (fun target p => target.addPackage p) target)

/-! ## Rendering documents -/

/-- The options that a command line asks for. -/
def renderOptions (args : RenderRequest) : Except Error Options := do
  let overrides ← Overrides.ofRules args.mappings
  return {
    overrides
    fallback := args.fallback
    indent := args.indent
    groupConstants := args.groupConstants
    aliasStyle := args.aliasStyle
    nameStyle := args.nameStyle
    comments := args.comments }

/-- Adds the packages of one input after the other to a target. -/
def addInputs (files : Files) (target : Target) (inputs : List Path) :
    Except CommandError Target :=
  inputs.foldlM (fun target p => do addAll target (← loadInput files p)) target

/-- The text of all inputs together. -/
def planRender (files : Files) (args : RenderRequest) : Except CommandError Plan := do
  let options ← lift (renderOptions args)
  let target ← lift (Target.ofOptions options)
  let target ← addInputs files target args.inputs
  let code ← lift target.generate
  return match args.output with
    | some path => .save path code
    | none => .print code

/-! ## Generating packages -/

/-- The first two entries that write to one path: the path, and the inputs of both. -/
def collision? (files : Files) : List Entry → List Entry → Option (Path × Path × Path)
  | _, [] => none
  | before, e :: rest =>
    let output := e.outputFile files
    match before.find? fun b => (b.outputFile files).same output with
    | some b => some (output, b.path, e.path)
    | none => collision? files (before ++ [e]) rest

/-- The package without the files that an entry leaves out. -/
def keepFiles (e : Entry) (p : Package) : Package :=
  { p with files := p.files.filter fun file => !e.ignores file.name }

/-- The output of an entry with its options. -/
def renderEntry (files : Files) (e : Entry) (options : Options) :
    Except CommandError (Path × String) := do
  let packages ← loadInput files e.path
  let target ← lift (Target.ofOptions options)
  let target ← addAll target (packages.map (keepFiles e))
  let code ← lift target.generate
  return (e.outputFile files, code)

/-- Reads a settings file, which must list an entry at least. -/
def loadSettings (files : Files) (p : Path) : Except CommandError (List Entry) :=
  match files.read? p with
  | none => throw (.unreadable p)
  | some text =>
    match Settings.read? text with
    | none => throw (.badSettings p)
    | some settings =>
      if settings.entries.isEmpty then throw (.noPackages p) else pure settings.entries

/-- The outputs of all entries. The options of all of them are checked before any input is read. -/
def planGenerate (files : Files) (settings : Path) : Except CommandError Plan := do
  let entries ← loadSettings files settings
  let options ← lift (entries.mapM Entry.options)
  match collision? files [] entries with
  | some (path, first, second) => throw (.outputCollision path first second)
  | none => pure ⟨⟩
  let outputs ← (entries.zip options).mapM fun (e, options) => renderEntry files e options
  return .saveAll outputs

/-- What a command delivers. -/
def plan (files : Files) : Invocation → Except CommandError Plan
  | .generate settings => planGenerate files settings
  | .render args => planRender files args

/-! ## Delivering -/

/-- What a command leaves behind. -/
structure Outcome where
  stdout : String
  tree : FileTree
  error : Option CommandError

/-- Saves files one after the other, up to the first that cannot be saved. The answer holds the path
at fault. -/
def saveAll (t : FileTree) : List (Path × String) → FileTree × Option Path
  | [] => (t, none)
  | (path, text) :: rest =>
    match t.save path text with
    | (t, none) => saveAll t rest
    | (t, some fault) => (t, some fault)

/-- Delivers a plan. -/
def deliver (t : FileTree) (plan : Plan) : Outcome :=
  let (tree, fault) := saveAll t plan.files
  { stdout := plan.stdout, tree, error := fault.map plan.fault }

/-- Runs a command line on a file tree. -/
def run (t : FileTree) (args : List String) : Outcome :=
  let planned : Except CommandError Plan :=
    match CommandLine.parse? args with
    | none => throw .usage
    | some invocation => plan t.view invocation
  match planned with
  | .ok plan => deliver t plan
  | .error e => { stdout := "", tree := t, error := some e }

end Command

end WireTypes
