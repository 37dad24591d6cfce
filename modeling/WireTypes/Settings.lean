import WireTypes.Target

/-!
# Settings files

A settings file lists the packages to be written, each with the options of its output.
-/

set_option autoImplicit false

namespace WireTypes

/-- An entry of a settings file. Options that are not given keep their defaults. -/
structure Entry where
  /-- A package document, or a directory of them. -/
  path : Path
  outputPath : Option Path
  indent : Option Nat
  /-- Override rules in the order of the file, repetitions included. -/
  mappings : List (String × String)
  fallback : Option String
  frontmatter : Option String
  includeFiles : List String
  excludeFiles : List String
  nameStyle : NameStyle
  comments : CommentLevel
  groupConstants : Option Bool
  aliasStyle : AliasStyle
  header : Option String
deriving Repr, DecidableEq, Inhabited

/-- The entries of a settings file, in order. -/
structure Settings where
  entries : List Entry
deriving Repr, DecidableEq, Inhabited

/-! ## Words for options -/

/-- The words for what can be chosen, with what they stand for. -/
def nameStyleWords : List (String × NameStyle) :=
  [("default", .asWritten), ("yaml", .lowerCase)]

def commentWords : List (String × CommentLevel) :=
  [("default", .all), ("types", .types), ("none", .none)]

def aliasStyleWords : List (String × AliasStyle) :=
  [("alias", .alias), ("union", .union), ("enum", .enum)]

/-! ## Reading -/

namespace Settings

open Document

/-- The fields of an entry. -/
def entryFields : List String :=
  ["path", "output_path", "indent", "type_mappings", "fallback_type", "frontmatter",
   "include_files", "exclude_files", "flavor", "preserve_comments", "group_constants",
   "const_style", "header"]

/-- A scalar read by `read?`. -/
def scalar? {α : Type} (read? : Scalar → Option α) : Node → Option α
  | .leaf a => read? a
  | _ => none

/-- A scalar that is one of the words for an option. -/
def word? {α : Type} (words : List (String × α)) (n : Node) : Option α :=
  (Reader.string? n).bind fun word => words.lookup word

/-- A list of texts. -/
def texts? (r : Reader) (n : Node) : Option (List String) := do
  let (_, items) ← r.list? n
  items.mapM Reader.string?

/-- A table of texts, repetitions included. -/
def textTable? (r : Reader) : Node → Option (List (String × String))
  | .table entries => do
    let _ ← r.enter?
    entries.mapM fun (key, value) => do
      let key ← Reader.string? key
      let value ← Reader.string? value
      some (key, value)
  | .leaf a => if a.isEmptyPlain then some [] else none
  | .list _ => none

def entryOf? (r : Reader) (n : Node) : Option Entry := do
  let (r, fields) ← r.fields? true entryFields n
  let optional {α : Type} (name : String) (read? : Node → Option α) : Option (Option α) :=
    default? fields name none (Reader.optional? read?)
  let path ← default? fields "path" "" Reader.string?
  let outputPath ← optional "output_path" Reader.string?
  let indent ← optional "indent" (scalar? (Scalar.nat? (Nat.pow 2 64)))
  let mappings ← default? fields "type_mappings" [] (textTable? r)
  let fallback ← optional "fallback_type" Reader.string?
  let frontmatter ← optional "frontmatter" Reader.string?
  let includeFiles ← default? fields "include_files" [] (texts? r)
  let excludeFiles ← default? fields "exclude_files" [] (texts? r)
  let nameStyle ← default? fields "flavor" .asWritten (word? nameStyleWords)
  let comments ← default? fields "preserve_comments" .all (word? commentWords)
  let groupConstants ← optional "group_constants" (scalar? Scalar.bool?)
  let aliasStyle ← default? fields "const_style" .alias (word? aliasStyleWords)
  let header ← optional "header" Reader.string?
  some { path := ⟨path⟩, outputPath := outputPath.map Path.mk, indent, mappings, fallback,
         frontmatter, includeFiles, excludeFiles, nameStyle, comments, groupConstants, aliasStyle,
         header }

/-- The settings of a text. -/
def read? (text : String) : Option Settings := do
  let n ← Format.yaml.parse? text
  let (r, fields) ← Format.yaml.reader.fields? true ["packages"] n
  let entries ← default? fields "packages" [] fun n => do
    let (r, items) ← r.list? n
    items.mapM (entryOf? r)
  some { entries }

end Settings

/-! ## What an entry asks for -/

namespace Entry

/-- The options of an entry, if they are valid. -/
def options (e : Entry) : Except Error Options := do
  if e.path.text.isEmpty then throw (.invalidOptions .missingPath)
  let overrides ← Overrides.ofRules e.mappings
  let defaults : Options := {}
  let options : Options :=
    { overrides
      fallback := e.fallback.getD defaults.fallback
      indent := e.indent.getD defaults.indent
      header := e.header.getD defaults.header
      groupConstants := e.groupConstants.getD defaults.groupConstants
      aliasStyle := e.aliasStyle
      frontmatter := e.frontmatter
      comments := e.comments
      nameStyle := e.nameStyle }
  options.validate
  return options

/-- Whether the declarations of a Go file are left out, going by the base name of the file.
Exclusions win; where inclusions are listed, only these files are kept. -/
def ignores (e : Entry) (file : String) : Bool :=
  let base := (Path.fileName? ⟨file⟩).getD file
  e.excludeFiles.contains base || (!e.includeFiles.isEmpty && !e.includeFiles.contains base)

/-- The name of an output for which only a directory is given. -/
def defaultName : Path := ⟨"index.ts"⟩

/-- Where the output of an entry goes: to the given file; into the given directory, which is what
every path without the extension `ts` names; or next to the input. -/
def outputFile (e : Entry) (files : Files) : Path :=
  match e.outputPath with
  | some p => if p.extension? = some "ts" then p else p.join defaultName
  | none =>
    if files.isDir e.path then e.path.join defaultName
    else (e.path.parent?.getD ⟨""⟩).join defaultName

end Entry

end WireTypes
