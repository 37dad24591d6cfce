import WireTypes.Settings

/-!
# Command lines

What the arguments of a command ask for. Options have a long name and perhaps a short one; a value
follows its option or is attached to it, after an equals sign or, for short names, without one.
After two dashes every argument is an operand.

Requests for help (`--help`, `-h` and the command `help`) and for the version (`--version`, `-V`)
are left out: they run no command. `parse?` has no result for them, as for arguments that cannot be
read.
-/

set_option autoImplicit false

namespace WireTypes.CommandLine

/-! ## Words -/

/-- An option that a command knows. -/
structure Spec where
  long : String
  short : Option Char
  takesValue : Bool
deriving Repr

/-- An argument, or the part of one, that says one thing. -/
inductive Word where
  | flag (name : String)
  | option (name value : String)
  | operand (text : String)
deriving Repr, DecidableEq

/-- Whether an argument stands for options. A single dash is an operand. -/
def isOption (arg : String) : Bool :=
  arg.toList.head? = some '-' && arg ≠ "-"

/-- The words of an argument with a long name, and the name of the option whose value is to
follow. -/
def longWords? (specs : List Spec) (body : List Char) : Option (List Word × Option String) := do
  let (name, value) :=
    match Text.splitAtFirst '=' body with
    | some (name, value) => (name, some (String.ofList value))
    | none => (body, none)
  let spec ← specs.find? (·.long.toList = name)
  match spec.takesValue, value with
  | true, some value => some ([.option spec.long value], none)
  | true, none => some ([], some spec.long)
  | false, none => some ([.flag spec.long], none)
  | false, some _ => none

/-- The words of short names in one argument. The first of them that takes a value has the rest of
the argument for its value. -/
def shortWords? (specs : List Spec) : List Char → Option (List Word × Option String)
  | [] => some ([], none)
  | c :: rest => do
    let spec ← specs.find? (·.short = some c)
    if spec.takesValue then
      match rest with
      | [] => some ([], some spec.long)
      | '=' :: value => some ([.option spec.long (.ofList value)], none)
      | value => some ([.option spec.long (.ofList value)], none)
    else
      let (words, wanting) ← shortWords? specs rest
      some (.flag spec.long :: words, wanting)

/-- The words of an argument that stands for options. -/
def optionWords? (specs : List Spec) (arg : String) : Option (List Word × Option String) :=
  match arg.toList with
  | '-' :: '-' :: body => longWords? specs body
  | _ :: body => shortWords? specs body
  | [] => none

/-- The words of arguments, after an option that waits for its value if there is one. -/
def words? (specs : List Spec) : Option String → List String → Option (List Word)
  | none, [] => some []
  | some _, [] => none
  | some name, arg :: rest =>
    if isOption arg then none else (words? specs none rest).map (.option name arg :: ·)
  | none, arg :: rest =>
    if arg = "--" then some (rest.map .operand)
    else if isOption arg then do
      let (words, wanting) ← optionWords? specs arg
      let more ← words? specs wanting rest
      some (words ++ more)
    else (words? specs none rest).map (.operand arg :: ·)

/-! ## Reading words -/

/-- How often a flag is given, once at most. -/
def flag? (words : List Word) (name : String) : Option Bool :=
  match words.count (.flag name) with
  | 0 => some false
  | 1 => some true
  | _ => none

/-- The values of an option, in order. -/
def values (words : List Word) (name : String) : List String :=
  words.filterMap fun
    | .option n value => if n = name then some value else none
    | _ => none

/-- The value of an option, read by `read?`; `default` if the option is not given. It may be given
once. -/
def value? {α : Type} (words : List Word) (name : String) (default : α)
    (read? : String → Option α) : Option α :=
  match values words name with
  | [] => some default
  | [value] => read? value
  | _ => none

/-- The operands, in order. -/
def operands (words : List Word) : List String :=
  words.filterMap fun
    | .operand text => some text
    | _ => none

/-- A path, which must not be empty. -/
def path? (s : String) : Option Path :=
  if s.isEmpty then none else some ⟨s⟩

/-- A whole number in 64 bits, with a plus sign or none. -/
def nat? (s : String) : Option Nat :=
  let digits :=
    match s.toList with
    | '+' :: digits => digits
    | digits => digits
  (Decimal.natOfDigits? 10 digits).filter (· < Nat.pow 2 64)

/-- A rule `name=expr` without the blanks around its parts, neither of which may be empty. -/
def rule? (s : String) : Option (String × String) := do
  let (name, expr) ← Text.splitAtFirst '=' s.toList
  let name := Text.trim name
  let expr := Text.trim expr
  if name.isEmpty || expr.isEmpty then none
  else some (.ofList name, .ofList expr)

/-! ## Commands -/

/-- What the command that renders documents is asked for. -/
structure RenderRequest where
  inputs : List Path
  output : Option Path
  mappings : List (String × String)
  fallback : String
  indent : Nat
  groupConstants : Bool
  aliasStyle : AliasStyle
  nameStyle : NameStyle
  comments : CommentLevel
deriving Repr

/-- What a command line asks for. -/
inductive Invocation where
  /-- Write the packages of a settings file. -/
  | generate (settings : Path)
  /-- Render documents with options from the command line. -/
  | render (args : RenderRequest)
deriving Repr

/-- The flag for more messages, which every command knows. -/
def debug : Spec := ⟨"debug", some 'D', false⟩

/-- The options of the command that writes packages. -/
def generateSpecs : List Spec :=
  [debug, ⟨"config", some 'c', true⟩]

/-- The options of the command that renders documents. -/
def renderSpecs : List Spec :=
  [debug, ⟨"output", some 'o', true⟩, ⟨"map", some 'm', true⟩, ⟨"fallback-type", none, true⟩,
   ⟨"indent", none, true⟩, ⟨"no-group-constants", none, false⟩, ⟨"const-style", none, true⟩,
   ⟨"flavor", none, true⟩, ⟨"preserve-comments", none, true⟩]

/-- The arguments of the command that writes packages. It takes no operands. -/
def generate? (args : List String) : Option Invocation := do
  let words ← words? generateSpecs none args
  let _ ← flag? words "debug"
  if !(operands words).isEmpty then none
  let settings ← value? words "config" ⟨"gots.yaml"⟩ path?
  some (.generate settings)

/-- The arguments of the command that renders documents. It takes one operand at least, and rules
may be given repeatedly. -/
def render? (args : List String) : Option Invocation := do
  let words ← words? renderSpecs none args
  let defaults : Options := {}
  let _ ← flag? words "debug"
  let inputs ← (operands words).mapM path?
  if inputs.isEmpty then none
  let output ← value? words "output" none fun s => (path? s).map some
  let mappings ← (values words "map").mapM rule?
  let fallback ← value? words "fallback-type" defaults.fallback some
  let indent ← value? words "indent" defaults.indent nat?
  let ungrouped ← flag? words "no-group-constants"
  let aliasStyle ← value? words "const-style" .alias fun word => aliasStyleWords.lookup word
  let nameStyle ← value? words "flavor" .asWritten fun word => nameStyleWords.lookup word
  let comments ← value? words "preserve-comments" .all fun word => commentWords.lookup word
  some (.render { inputs, output, mappings, fallback, indent, groupConstants := !ungrouped,
                  aliasStyle, nameStyle, comments })

/-- What a command line asks for: flags for all commands, a command, and its arguments. There is no
result for arguments that cannot be read, nor for a request for help or for the version. -/
def parse? (args : List String) : Option Invocation := do
  let words ← words? [debug] none (args.takeWhile isOption)
  let _ ← flag? words "debug"
  match args.dropWhile isOption with
  | [] => none
  | command :: rest =>
    if args.takeWhile isOption |>.contains "--" then none
    else if command = "generate" then generate? rest
    else if command = "render" then render? rest
    else none

end WireTypes.CommandLine
