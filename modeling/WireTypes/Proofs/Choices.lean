import WireTypes.Command
import WireTypes.Proofs.FlowNodes

/-!
# What both commands can be asked for

`Choices` are an input and the options that a command line and a settings file have words for.
Every choice can be made in both ways: `parse?_arguments` reads it from a command line, and
`read?_settings` from a settings file.
-/

set_option autoImplicit false

namespace WireTypes

open CommandLine

/-- A rule that a command line can state: neither part is empty or has blanks around it, and the
name has no equals sign. -/
structure IsRule (rule : String × String) : Prop where
  name_ne : rule.1 ≠ ""
  name_trimmed : Text.trimmed rule.1 = rule.1
  name_noEquals : '=' ∉ rule.1.toList
  expr_ne : rule.2 ≠ ""
  expr_trimmed : Text.trimmed rule.2 = rule.2

/-- An input and the options of its output. -/
structure Choices where
  path : Path
  path_ne : path.text ≠ ""
  /-- Override rules in order, repetitions included. -/
  mappings : List (String × String)
  areRules : ∀ m ∈ mappings, IsRule m
  fallback : String
  indent : Nat
  indent_lt : indent < Nat.pow 2 64
  groupConstants : Bool
  aliasStyle : AliasStyle
  nameStyle : NameStyle
  comments : CommentLevel

/-! ## Words -/

/-- The word for a style of families of constants. -/
def AliasStyle.word : AliasStyle → String
  | .alias => "alias"
  | .union => "union"
  | .enum => "enum"

/-- The word for a convention of names. -/
def NameStyle.word : NameStyle → String
  | .asWritten => "default"
  | .lowerCase => "yaml"

/-- The word for a choice of comments. -/
def CommentLevel.word : CommentLevel → String
  | .all => "default"
  | .types => "types"
  | .none => "none"

@[simp] theorem lookup_aliasStyleWords (s : AliasStyle) :
    aliasStyleWords.lookup s.word = some s := by
  cases s <;> rfl

@[simp] theorem lookup_nameStyleWords (s : NameStyle) : nameStyleWords.lookup s.word = some s := by
  cases s <;> rfl

@[simp] theorem lookup_commentWords (l : CommentLevel) : commentWords.lookup l.word = some l := by
  cases l <;> rfl

/-! ## Command lines -/

namespace CommandLine

/-- An option with its value attached. -/
def attached (name value : String) : String :=
  "--" ++ name ++ "=" ++ value

theorem toList_attached (name value : String) :
    (attached name value).toList = '-' :: '-' :: (name.toList ++ '=' :: value.toList) := by
  simp [attached]

variable {specs : List Spec}

theorem words?_attached {name : String} (spec : Spec) (hname : '=' ∉ name.toList)
    (hspec : specs.find? (·.long.toList = name.toList) = some spec) (hvalue : spec.takesValue)
    (value : String) (rest : List String) :
    words? specs none (attached name value :: rest) =
      (words? specs none rest).map (.option spec.long value :: ·) := by
  have hlist := toList_attached name value
  have hmarks : attached name value ≠ "--" := by
    intro he
    rw [he] at hlist
    cases h : name.toList <;> simp [h] at hlist
  have hoption : isOption (attached name value) = true := by
    have hdash : attached name value ≠ "-" := by
      intro he
      rw [he] at hlist
      simp at hlist
    simp [isOption, hlist, hdash]
  have hwords : optionWords? specs (attached name value) =
      some ([.option spec.long value], none) := by
    rw [optionWords?, hlist]
    simp [longWords?, Text.splitAtFirst_append hname, hspec, hvalue]
  rw [words?, if_neg hmarks, if_pos hoption]
  cases hrest : words? specs none rest <;> simp [hwords, hrest]

theorem words?_ungrouped (rest : List String) :
    words? renderSpecs none ("--no-group-constants" :: rest) =
      (words? renderSpecs none rest).map (.flag "no-group-constants" :: ·) := by
  have hwords : optionWords? renderSpecs "--no-group-constants" =
      some ([.flag "no-group-constants"], none) := by rfl
  rw [words?, if_neg (by decide), if_pos (by decide)]
  cases hrest : words? renderSpecs none rest <;> simp [hwords, hrest]

theorem rule?_of_isRule {rule : String × String} (h : IsRule rule) :
    rule? (rule.1 ++ "=" ++ rule.2) = some rule := by
  have htrim {s : String} (hs : Text.trimmed s = s) : Text.trim s.toList = s.toList := by
    have hlist := congrArg String.toList hs
    rwa [Text.trimmed, String.toList_ofList] at hlist
  have hsplit := Text.splitAtFirst_append h.name_noEquals rule.2.toList
  have hname := h.name_ne
  have hexpr := h.expr_ne
  simp [rule?, hsplit, htrim h.name_trimmed, htrim h.expr_trimmed, hname, hexpr]

theorem nat?_toString {n : Nat} (h : n < Nat.pow 2 64) : nat? (toString n) = some n := by
  have hdigits := Decimal.natOfDigits?_toDigits (by decide : 1 < 10) (by decide) n
  have hsign : ∀ rest, Nat.toDigits 10 n ≠ '+' :: rest := by
    intro rest he
    have hplus := Nat.isDigit_of_mem_toDigits (b := 10) (n := n) (c := '+') (by decide) (by decide)
    exact absurd (hplus (he ▸ List.mem_cons_self)) (by decide)
  rw [Nat.toString_eq_ofList_toDigits, nat?, String.toList_ofList]
  split
  · rename_i he
    exact absurd he (hsign _)
  · rw [hdigits]
    exact Option.filter_eq_some_iff.2 ⟨rfl, decide_eq_true h⟩

/-! ### Reading words -/

section Values

variable (words more : List Word) (name : String)

@[simp] theorem values_nil : values [] name = [] := rfl

@[simp] theorem values_cons_option (n value : String) :
    values (.option n value :: words) name =
      if n = name then value :: values words name else values words name := by
  unfold values
  split <;> simp [*]

@[simp] theorem values_cons_flag (n : String) :
    values (.flag n :: words) name = values words name := rfl

@[simp] theorem values_cons_operand (text : String) :
    values (.operand text :: words) name = values words name := rfl

@[simp] theorem values_append :
    values (words ++ more) name = values words name ++ values more name :=
  List.filterMap_append

@[simp] theorem operands_nil : operands [] = [] := rfl

@[simp] theorem operands_cons_option (value : String) :
    operands (.option name value :: words) = operands words := rfl

@[simp] theorem operands_cons_flag : operands (.flag name :: words) = operands words := rfl

@[simp] theorem operands_cons_operand (text : String) :
    operands (.operand text :: words) = text :: operands words := rfl

@[simp] theorem operands_append : operands (words ++ more) = operands words ++ operands more :=
  List.filterMap_append

end Values

/-- The words of options that state rules. -/
def ruleWords (rules : List (String × String)) : List Word :=
  rules.map fun rule => .option "map" (rule.1 ++ "=" ++ rule.2)

@[simp] theorem count_flag_ruleWords (rules : List (String × String)) (name : String) :
    (ruleWords rules).count (.flag name) = 0 := by
  refine List.count_eq_zero.2 fun hmem => ?_
  obtain ⟨_, -, he⟩ := List.mem_map.1 hmem
  cases he

@[simp] theorem operands_ruleWords (rules : List (String × String)) :
    operands (ruleWords rules) = [] := by
  induction rules with
  | nil => rfl
  | cons rule rules ih => exact ih

@[simp] theorem values_ruleWords (rules : List (String × String)) (name : String) :
    values (ruleWords rules) name =
      if "map" = name then rules.map fun rule => rule.1 ++ "=" ++ rule.2 else [] := by
  induction rules with
  | nil => simp [ruleWords]
  | cons rule rules ih =>
    rw [ruleWords, List.map_cons, values_cons_option]
    rw [ruleWords] at ih
    rw [ih]
    split <;> rfl

theorem words?_rules (rules : List (String × String)) (rest : List String) :
    words? renderSpecs none ((rules.map fun m => attached "map" (m.1 ++ "=" ++ m.2)) ++ rest) =
      (words? renderSpecs none rest).map (ruleWords rules ++ ·) := by
  induction rules with
  | nil =>
    show _ = (words? renderSpecs none rest).map id
    rw [Option.map_id_fun, id]
    rfl
  | cons rule rules ih =>
    rw [List.map_cons, List.cons_append,
      words?_attached ⟨"map", some 'm', true⟩ (by decide) rfl rfl, ih, Option.map_map]
    rfl

end CommandLine

namespace Choices

variable (c : Choices)

/-- What the command that renders documents is asked for. -/
def request : RenderRequest :=
  { inputs := [c.path], output := none, mappings := c.mappings, fallback := c.fallback
    indent := c.indent, groupConstants := c.groupConstants, aliasStyle := c.aliasStyle
    nameStyle := c.nameStyle, comments := c.comments }

/-- The choices as arguments. -/
def arguments : List String :=
  "render" :: (c.mappings.map fun m => attached "map" (m.1 ++ "=" ++ m.2)) ++
    [attached "fallback-type" c.fallback, attached "indent" (toString c.indent)] ++
    (if c.groupConstants then [] else ["--no-group-constants"]) ++
    [attached "const-style" c.aliasStyle.word, attached "flavor" c.nameStyle.word,
      attached "preserve-comments" c.comments.word, "--", c.path.text]

/-- The words of the arguments. -/
def words : List Word :=
  ruleWords c.mappings ++
    [.option "fallback-type" c.fallback, .option "indent" (toString c.indent)] ++
    (if c.groupConstants then [] else [.flag "no-group-constants"]) ++
    [.option "const-style" c.aliasStyle.word, .option "flavor" c.nameStyle.word,
      .option "preserve-comments" c.comments.word, .operand c.path.text]

theorem words?_arguments : words? renderSpecs none c.arguments.tail = some c.words := by
  have hattached (name : String) (spec : Spec) (hname : '=' ∉ name.toList)
      (hspec : renderSpecs.find? (·.long.toList = name.toList) = some spec)
      (hvalue : spec.takesValue) := words?_attached spec hname hspec hvalue
  have hend : words? renderSpecs none ["--", c.path.text] = some [.operand c.path.text] := rfl
  have hstyles : words? renderSpecs none [attached "const-style" c.aliasStyle.word,
      attached "flavor" c.nameStyle.word, attached "preserve-comments" c.comments.word, "--",
      c.path.text] =
      some [.option "const-style" c.aliasStyle.word, .option "flavor" c.nameStyle.word,
      .option "preserve-comments" c.comments.word, .operand c.path.text] := by
    rw [hattached _ ⟨"const-style", none, true⟩ (by decide) rfl rfl,
      hattached _ ⟨"flavor", none, true⟩ (by decide) rfl rfl,
      hattached _ ⟨"preserve-comments", none, true⟩ (by decide) rfl rfl, hend]
    rfl
  simp only [arguments, List.cons_append, List.tail_cons, List.append_assoc, words?_rules]
  rw [List.nil_append, hattached _ ⟨"fallback-type", none, true⟩ (by decide) rfl rfl,
    hattached _ ⟨"indent", none, true⟩ (by decide) rfl rfl, words]
  cases hgroup : c.groupConstants
  · simp [words?_ungrouped, hstyles]
  · simp [hstyles]

theorem mapM_rule? {rules : List (String × String)} (h : ∀ rule ∈ rules, IsRule rule) :
    (rules.map fun rule => rule.1 ++ "=" ++ rule.2).mapM rule? = some rules := by
  induction rules with
  | nil => rfl
  | cons rule rules ih =>
    rw [List.forall_mem_cons] at h
    simp [rule?_of_isRule h.1, ih h.2]

/-- Every choice can be made by arguments. -/
theorem parse?_arguments : parse? c.arguments = some (.render c.request) := by
  have hpath : path? c.path.text = some c.path := by simp [path?, c.path_ne]
  have hindent : nat? c.indent.repr = some c.indent := nat?_toString c.indent_lt
  have hrender : render? c.arguments.tail = some (.render c.request) := by
    rw [render?, words?_arguments]
    cases hgroup : c.groupConstants
    · simp [words, hgroup, flag?, value?, List.count_append, mapM_rule? c.areRules, hpath, hindent,
        request]
    · simp [words, hgroup, flag?, value?, List.count_append, mapM_rule? c.areRules, hpath, hindent,
        request]
  rw [← hrender]
  simp [parse?, arguments]
  rfl

/-! ## Settings files -/

open Document Yaml

theorem isWord_toString (n : Nat) : IsWord (toString n).toList := by
  rw [Nat.toString_eq_ofList_toDigits, String.toList_ofList]
  refine ⟨Nat.toDigits_ne_nil, fun c hc => ?_⟩
  have hdigit := Nat.isDigit_of_mem_toDigits (by decide) (by decide) hc
  simp [Char.isAlphanum, hdigit]

/-- A whole number in a document. -/
def number (n : Nat) : Flow :=
  .word (toString n) (isWord_toString n)

/-- A truth value in a document. -/
def truth : Bool → Flow
  | true => .word "true" ⟨by decide, List.all_eq_true.1 (by decide)⟩
  | false => .word "false" ⟨by decide, List.all_eq_true.1 (by decide)⟩

/-- The fields of the entry of a settings file. -/
def fields (output : Option Path) : List (String × Flow) :=
  (output.map fun p => ("output_path", .text p.text)).toList ++
    [("path", .text c.path.text),
     ("type_mappings", .table (c.mappings.map fun m => (m.1, .text m.2))),
     ("fallback_type", .text c.fallback), ("indent", number c.indent),
     ("group_constants", truth c.groupConstants), ("const_style", .text c.aliasStyle.word),
     ("flavor", .text c.nameStyle.word), ("preserve_comments", .text c.comments.word)]

/-- The choices as the text of a settings file. -/
def settingsText (output : Option Path) : String :=
  (Flow.table [("packages", .list [.table (c.fields output)])]).write

/-- The entry of a settings file. -/
def entry (output : Option Path) : Entry :=
  { path := c.path, outputPath := output, indent := some c.indent, mappings := c.mappings
    fallback := some c.fallback, frontmatter := none, includeFiles := [], excludeFiles := []
    nameStyle := c.nameStyle, comments := c.comments, groupConstants := some c.groupConstants
    aliasStyle := c.aliasStyle, header := none }

@[simp] theorem string?_text (s : String) (plain : Bool) (tag : Option Document.Tag) :
    Reader.string? (.leaf (.text s plain tag)) = some s := rfl

/-- The fields of a table whose keys are known and distinct. -/
theorem fields?_table (r : Reader) (hr : r.depth ≠ 0) (names : List String)
    (entries : List (String × Flow)) (hknown : ∀ e ∈ entries, e.1 ∈ names)
    (hnodup : (entries.map Prod.fst).Nodup) :
    r.fields? true names (Flow.table entries).node =
      some ({ r with depth := r.depth - 1 }, entries.map fun e => (e.1, e.2.node)) := by
  have hcollect : collect? true (fun key => (Reader.string? key).map (known names))
      (entries.map fun e => (Tree.leaf (Scalar.text e.1 false none), e.2.node)) =
        some (entries.map fun e => (e.1, e.2.node)) := by
    induction entries with
    | nil => rfl
    | cons e entries ih =>
      rw [List.forall_mem_cons] at hknown
      rw [List.map_cons, List.nodup_cons] at hnodup
      have hkey : known names e.1 = some e.1 := by simp [known, hknown.1]
      have hnew : (entries.map fun e => (e.1, e.2.node)).lookup e.1 = none := by
        rw [List.lookup_eq_none_iff]
        rintro _ hmem
        obtain ⟨e', he', rfl⟩ := List.mem_map.1 hmem
        have hne : e.1 ≠ e'.1 := fun he => hnodup.1 (he ▸ List.mem_map_of_mem he')
        simpa using hne
      rw [List.map_cons, collect?, ih hknown.2 hnodup.2]
      simp [hkey, hnew]
  simp [Flow.node, Reader.fields?, Reader.enter?, hr, hcollect]

theorem textTable?_table {r : Reader} (hr : r.depth ≠ 0) (rules : List (String × String)) :
    Settings.textTable? r (Flow.table (rules.map fun m => (m.1, .text m.2))).node = some rules := by
  simp only [Flow.node, Settings.textTable?, Reader.enter?, hr, ↓reduceIte, Option.bind_eq_bind,
    Option.bind_some, List.map_map]
  induction rules with
  | nil => rfl
  | cons rule rules ih =>
    rw [List.map_cons, List.mapM_cons, ih]
    simp [Flow.node]

theorem optional?_number {limit n : Nat} (h : n < limit) :
    Reader.optional? (Settings.scalar? (Scalar.nat? limit)) (number n).node = some (some n) := by
  have hdigit {c : Char} (hc : c ∈ (toString n).toList) : c.isDigit := by
    rw [Nat.toString_eq_ofList_toDigits, String.toList_ofList] at hc
    exact Nat.isDigit_of_mem_toDigits (by decide) (by decide) hc
  have hpresent : Scalar.isAbsent (.text (toString n) true none) = false := by
    have hne {s : String} {c : Char} (hc : c ∈ s.toList) (hno : c.isDigit = false) :
        toString n ≠ s := by
      rintro rfl
      rw [hdigit hc] at hno
      cases hno
    simp only [Scalar.isAbsent, Plain.isNull, Bool.or_eq_false_iff, decide_eq_false_iff_not]
    refine ⟨by simp, ⟨⟨?_, ?_⟩, ?_⟩, ?_⟩
    · exact hne (c := '~') (by decide) (by decide)
    · exact hne (c := 'n') (by decide) (by decide)
    · exact hne (c := 'N') (by decide) (by decide)
    · exact hne (c := 'N') (by decide) (by decide)
  have hread : Settings.scalar? (Scalar.nat? limit) (.leaf (.text (toString n) true none)) =
      some n := by
    have hdigits := Plain.nat?_toDigits h
    rw [← String.toList_ofList (l := Nat.toDigits 10 n), ← Nat.toString_eq_ofList_toDigits]
      at hdigits
    exact hdigits
  rw [number, Flow.node, Reader.optional?, hpresent, hread]
  rfl

theorem optional?_truth (b : Bool) :
    Reader.optional? (Settings.scalar? Scalar.bool?) (truth b).node = some (some b) := by
  cases b
  · rw [truth, Flow.node]
    rfl
  · rw [truth, Flow.node]
    rfl

theorem string?_flow (s : String) : Reader.string? (Flow.text s).node = some s := by
  rw [Flow.node, string?_text]

theorem optional?_flow (s : String) :
    Reader.optional? Reader.string? (Flow.text s).node = some (some s) := by
  rw [Flow.node]
  rfl

theorem word?_flow {α : Type} (words : List (String × α)) (word : String) :
    Settings.word? words (Flow.text word).node = words.lookup word := by
  rw [Settings.word?, string?_flow, Option.bind_some]

/-- The fields of the entry as they are read. -/
def nodes (output : Option Path) : List (String × Node) :=
  (c.fields output).map fun e => (e.1, e.2.node)

/-- What each field of an entry is, and which of them are left out. -/
theorem lookup_nodes (output : Option Path) :
    (Settings.entryFields.map fun name => (c.nodes output).lookup name) =
      [some (Flow.text c.path.text).node, output.map fun p => (Flow.text p.text).node,
        some (number c.indent).node,
        some (Flow.table (c.mappings.map fun m => (m.1, .text m.2))).node,
        some (Flow.text c.fallback).node, none, none, none, some (Flow.text c.nameStyle.word).node,
        some (Flow.text c.comments.word).node, some (truth c.groupConstants).node,
        some (Flow.text c.aliasStyle.word).node, none] := by
  cases output <;> rfl

theorem entryOf?_fields (r : Reader) (hr : 2 ≤ r.depth) (output : Option Path) :
    Settings.entryOf? r (Flow.table (c.fields output)).node = some (c.entry output) := by
  have hfields : r.fields? true Settings.entryFields (Flow.table (c.fields output)).node =
      some ({ r with depth := r.depth - 1 }, c.nodes output) := by
    apply fields?_table r (by omega)
    · cases output <;> simp [fields, Settings.entryFields]
    · cases output <;> simp [fields]
  have hmappings : Settings.textTable? { r with depth := r.depth - 1 }
      (Flow.table (c.mappings.map fun m => (m.1, .text m.2))).node = some c.mappings :=
    textTable?_table (show r.depth - 1 ≠ 0 by omega) c.mappings
  have hlookup := c.lookup_nodes output
  simp only [Settings.entryFields, List.map_cons, List.map_nil, List.cons.injEq,
    and_true] at hlookup
  obtain ⟨hpath, hout, hindent, hrules, hfallback, hfront, hinclude, hexclude, hflavor, hcomments,
    hgroup, hstyle, hheader⟩ := hlookup
  have houtput : default? (c.nodes output) "output_path" none (Reader.optional? Reader.string?) =
      some (output.map Path.text) := by
    rw [default?, hout]
    cases output with
    | none => rfl
    | some p => exact optional?_flow p.text
  rw [Settings.entryOf?, hfields, Option.bind_eq_bind, Option.bind_some]
  dsimp only
  rw [houtput]
  simp only [default?, hpath, hindent, hrules, hfallback, hfront, hinclude, hexclude, hflavor,
    hcomments, hgroup, hstyle, hheader, string?_flow, optional?_flow, word?_flow,
    optional?_number c.indent_lt, optional?_truth, hmappings, lookup_aliasStyleWords,
    lookup_nameStyleWords, lookup_commentWords, Option.bind_eq_bind, Option.bind_some]
  cases output <;> rfl

theorem list?_flow (r : Reader) (hr : r.depth ≠ 0) (items : List Flow) :
    r.list? (Flow.list items).node =
      some ({ r with depth := r.depth - 1 }, items.map Flow.node) := by
  simp [Flow.node, Reader.list?, Reader.enter?, hr]

/-- Every choice can be made by a settings file, with an output path or without. -/
theorem read?_settingsText (output : Option Path) :
    Settings.read? (c.settingsText output) = some ⟨[c.entry output]⟩ := by
  let top : Reader := { Format.yaml.reader with depth := Format.yaml.reader.depth - 1 }
  have hpackages := fields?_table Format.yaml.reader (by decide) ["packages"]
    [("packages", .list [.table (c.fields output)])] (by simp) (by simp)
  have hlist := list?_flow top (by decide) [.table (c.fields output)]
  have hentry := c.entryOf?_fields { top with depth := top.depth - 1 } (by decide) output
  rw [Settings.read?, settingsText, Format.parse?, Flow.parse?_write, Option.bind_eq_bind,
    Option.bind_some, hpackages]
  show ((top.list? (Flow.list [.table (c.fields output)]).node >>= fun found =>
    found.2.mapM (Settings.entryOf? found.1)) >>= fun entries => some (⟨entries⟩ : Settings)) = _
  rw [hlist]
  simp [hentry]

end Choices

end WireTypes
