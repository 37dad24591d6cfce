import WireTypes.Command

/-!
# The program

Looks at what a command may read, lets the command plan what it delivers, and delivers that. Errors
go to the standard error; the exit code is 2 for a command line that is not understood and 1 for
every other failure.
-/

set_option autoImplicit false

namespace WireTypes.Program

/-! ## Reading -/

/-- The content of a file, if it can be read. -/
def readText? (p : Path) : IO (Option String) := do
  try
    return some (← IO.FS.readFile p.text)
  catch _ =>
    return none

/-- Whether a path leads to a directory. -/
def isDir (p : Path) : IO Bool :=
  (System.mkFilePath [p.text]).isDir

/-- The files below a directory, in the order of a depth-first walk that visits the entries of a
directory by name. Links are passed over. -/
partial def filesBelow (dir : Path) : IO (List Path) := do
  let entries ← (System.mkFilePath [dir.text]).readDir
  let names := (entries.toList.map fun e => e.fileName).mergeSort fun a b => decide (a ≤ b)
  let found ← names.mapM fun name => do
    let p := dir.join ⟨name⟩
    match (← (System.mkFilePath [p.text]).symlinkMetadata).type with
    | .dir => filesBelow p
    | .file => return [p]
    | _ => return []
  return found.flatten

/-- What the given paths show to a reader of documents. -/
def look (paths : List Path) : IO Files := do
  let dirs ← paths.filterM isDir
  let listings ← dirs.mapM fun dir => do return (dir, ← filesBelow dir)
  let listed : Files :=
    { isDir := fun p => dirs.contains p
      read? := fun _ => none
      below := fun p => (listings.lookup p).getD [] }
  let texts ← (paths.flatMap (documentsOf listed)).mapM fun p => do return (p, ← readText? p)
  return { listed with read? := fun p => (texts.lookup p).join }

/-- What a command needs to see. -/
def view : CommandLine.Invocation → IO Files
  | .render args => look args.inputs
  | .generate settings => do
    let files ← look [settings]
    match Command.loadSettings files settings with
    | .ok entries => look (settings :: entries.map Entry.path)
    | .error _ => return files

/-! ## Writing -/

/-- Writes a file after making the directories above it. The answer is the path at fault when that
fails. -/
def save (p : Path) (text : String) : IO (Option Path) := do
  if let some above := p.parent?.filter fun q => !q.text.isEmpty then
    try
      IO.FS.createDirAll above.text
    catch _ =>
      return some above
  try
    IO.FS.writeFile p.text text
    return none
  catch _ =>
    return some p

/-- Saves files one after the other, up to the first that cannot be saved. -/
def saveAll : List (Path × String) → IO (Option Path)
  | [] => return none
  | (p, text) :: rest => do
    match ← save p text with
    | some fault => return some fault
    | none => saveAll rest

/-! ## Running -/

/-- Reports a failure. -/
def fail (code : UInt32) (message : String) : IO UInt32 := do
  IO.eprintln ("error: " ++ message)
  return code

/-- Delivers a plan. -/
def deliver (plan : Command.Plan) : IO UInt32 := do
  match ← saveAll plan.files with
  | some fault => fail 1 (plan.fault fault).message
  | none =>
    IO.print plan.stdout
    return 0

/-- Runs a command line. -/
def run (args : List String) : IO UInt32 := do
  match CommandLine.parse? args with
  | none => fail 2 CommandError.usage.message
  | some invocation =>
    match Command.plan (← view invocation) invocation with
    | .error e => fail 1 e.message
    | .ok plan => deliver plan

end WireTypes.Program

/-- Runs a command line; a failure that nothing else reports is an error of the file system. -/
def main (args : List String) : IO UInt32 := do
  try
    WireTypes.Program.run args
  catch e =>
    WireTypes.Program.fail 1 e.toString
