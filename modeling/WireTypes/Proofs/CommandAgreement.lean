import WireTypes.Proofs.Choices
import WireTypes.Proofs.Outputs

/-!
# Agreement of the two commands

Asked for the same choices, rendering a document and writing the package of a settings file come
down to one computation, `Choices.code`: `planRender_eq` and `planGenerate_eq_code`. So the two
commands deliver the same text or fail with the same error (`render_agrees_generate`).
-/

set_option autoImplicit false

namespace WireTypes

open Command CommandLine

namespace Choices

variable {c : Choices} {e : Entry} {files : Files}

/-- The entry asks for the choices: what it leaves out has these values by default, and it asks for
nothing that a command line has no words for. Where its output goes is left open. -/
structure AskedBy (c : Choices) (e : Entry) : Prop where
  path : e.path = c.path
  mappings : e.mappings = c.mappings
  fallback : e.fallback.getD ({} : Options).fallback = c.fallback
  indent : e.indent.getD ({} : Options).indent = c.indent
  groupConstants : e.groupConstants.getD ({} : Options).groupConstants = c.groupConstants
  aliasStyle : e.aliasStyle = c.aliasStyle
  nameStyle : e.nameStyle = c.nameStyle
  comments : e.comments = c.comments
  frontmatter : e.frontmatter = none
  includeFiles : e.includeFiles = []
  excludeFiles : e.excludeFiles = []
  header : e.header = none

theorem askedBy_entry (c : Choices) (output : Option Path) : c.AskedBy (c.entry output) :=
  ⟨rfl, rfl, rfl, rfl, rfl, rfl, rfl, rfl, rfl, rfl, rfl, rfl⟩

/-! ## One computation -/

theorem lift_ok {α : Type} (a : α) : lift (.ok a) = pure a := rfl

theorem lift_map {α β : Type} (f : α → β) (x : Except Error α) : lift (f <$> x) = f <$> lift x := by
  cases x <;> rfl

theorem lift_bind {α β : Type} (x : Except Error α) (f : α → Except Error β) :
    lift (x >>= f) = lift x >>= fun a => lift (f a) := by
  cases x <;> rfl

/-- The options for the choices, if they are valid. -/
def options (c : Choices) : Except Error Options := do
  let options ← renderOptions c.request
  options.validate
  return options

/-- The code for the choices. -/
def code (c : Choices) (files : Files) : Except CommandError String := do
  let options ← lift c.options
  let packages ← loadInput files c.path
  let target ← addAll ⟨options, []⟩ packages
  lift target.generate

theorem planRender_eq (c : Choices) (files : Files) :
    planRender files c.request = Plan.print <$> c.code files := by
  simp [planRender, code, options, Target.ofOptions, addInputs, request, lift_bind, lift_map]

theorem AskedBy.options (h : c.AskedBy e) : e.options = c.options := by
  have hpath : ¬c.path.text.isEmpty := by simpa using c.path_ne
  simp [Entry.options, Choices.options, renderOptions, request, h.path, h.mappings, h.fallback,
    h.indent, h.groupConstants, h.aliasStyle, h.nameStyle, h.comments, h.frontmatter, h.header,
    hpath]

/-- Nothing is left out. -/
theorem AskedBy.keepFiles (h : c.AskedBy e) (p : Package) : keepFiles e p = p := by
  simp [Command.keepFiles, Entry.ignores, h.includeFiles, h.excludeFiles]

/-- The options are checked a second time for the output of the entry. -/
theorem AskedBy.renderEntry (h : c.AskedBy e) {options : Options}
    (hoptions : c.options = .ok options) (files : Files) :
    Command.renderEntry files e options =
      (fun code => (e.outputFile files, code)) <$> c.code files := by
  have htarget : Target.ofOptions options = .ok ⟨options, []⟩ := by
    obtain ⟨_, -, hchecked⟩ := bind_eq_ok.1 hoptions
    obtain ⟨_, hvalid, hchecked⟩ := bind_eq_ok.1 hchecked
    cases hchecked
    rw [Target.ofOptions, hvalid]
    rfl
  have hkeep : Command.keepFiles e = id := funext h.keepFiles
  simp [Command.renderEntry, code, h.path, htarget, hoptions, hkeep, lift_ok]

theorem planGenerate_eq_code (h : c.AskedBy e) {settings : Path}
    (hentries : loadSettings files settings = .ok [e]) :
    planGenerate files settings =
      (fun code => .saveAll [(e.outputFile files, code)]) <$> c.code files := by
  cases hoptions : c.options with
  | error err =>
    have hnone : [e].mapM Entry.options = .error err := by
      rw [List.mapM_cons, h.options, hoptions]
      rfl
    rw [planGenerate, hentries, code, hoptions]
    show (lift ([e].mapM Entry.options) >>= _) = _
    rw [hnone]
    rfl
  | ok options =>
    have hlist : [e].mapM Entry.options = .ok [options] := by
      rw [List.mapM_cons, h.options, hoptions]
      rfl
    have hentry := h.renderEntry hoptions files
    rw [planGenerate_eq hentries hlist]
    simp [collision?, hentry]

end Choices

/-! ## Runs -/

namespace Command

variable {t : FileTree} {c : Choices} {e : Entry} {args : List String} {settings : Path}

theorem run_render (hargs : parse? args = some (.render c.request)) :
    run t args = match c.code t.view with
      | .ok code => ⟨code, t, none⟩
      | .error err => ⟨"", t, some err⟩ := by
  have hplan : plan t.view (.render c.request) = Plan.print <$> c.code t.view := c.planRender_eq _
  cases hcode : c.code t.view with
  | error err =>
    rw [hcode] at hplan
    exact run_eq_of_error hargs hplan
  | ok code =>
    rw [hcode] at hplan
    exact run_eq_of_ok hargs hplan

theorem run_generate (hargs : parse? args = some (.generate settings)) {text : String}
    (hfile : t.view.read? settings = some text) (hread : Settings.read? text = some ⟨[e]⟩)
    (h : c.AskedBy e) :
    run t args = match c.code t.view with
      | .ok code => deliver t (.saveAll [(e.outputFile t.view, code)])
      | .error err => ⟨"", t, some err⟩ := by
  have hentries : loadSettings t.view settings = .ok [e] := by
    rw [loadSettings, hfile]
    simp [hread]
    rfl
  have hplan : plan t.view (.generate settings) =
      (fun code => .saveAll [(e.outputFile t.view, code)]) <$> c.code t.view :=
    Choices.planGenerate_eq_code h hentries
  cases hcode : c.code t.view with
  | error err =>
    rw [hcode] at hplan
    exact run_eq_of_error hargs hplan
  | ok code =>
    rw [hcode] at hplan
    exact run_eq_of_ok hargs hplan

/-- A single output that can be written is written, and read back. -/
theorem deliver_single {p : Path} {code : String} (h : (t.save p code).2 = none) :
    deliver t (.saveAll [(p, code)]) = ⟨"", (t.save p code).1, none⟩ ∧
      (t.save p code).1.read? p = some code := by
  have hsave : t.save p code = ((t.save p code).1, none) := Prod.ext rfl h
  have hall : saveAll t [(p, code)] = ((t.save p code).1, none) := by
    rw [saveAll, hsave]
    rfl
  refine ⟨?_, ?_⟩
  · rw [deliver, show (Plan.saveAll [(p, code)]).files = [(p, code)] from rfl, hall]
    rfl
  · obtain ⟨o, ho, -, hread⟩ := read?_of_saveAll hall (o := (p, code)) List.mem_cons_self
    rwa [List.mem_singleton.1 ho] at hread

/-- Every choice can be made on a command line and in a settings file, and however it is made there,
the two commands agree: what one prints the other writes, or both fail with the same error and leave
the tree as it is. -/
theorem render_agrees_generate (c : Choices) (output : Option Path) :
    parse? c.arguments = some (.render c.request) ∧
    Settings.read? (c.settingsText output) = some ⟨[c.entry output]⟩ ∧
    c.AskedBy (c.entry output) ∧
    ∀ (t : FileTree) (args args' : List String) (settings : Path) (text : String) (e : Entry),
      parse? args = some (.render c.request) → parse? args' = some (.generate settings) →
      t.view.read? settings = some text → Settings.read? text = some ⟨[e]⟩ → c.AskedBy e →
      (∃ code, run t args = ⟨code, t, none⟩ ∧
        ((t.save (e.outputFile t.view) code).2 = none →
          run t args' = ⟨"", (t.save (e.outputFile t.view) code).1, none⟩ ∧
          (run t args').tree.read? (e.outputFile t.view) = some code)) ∨
      ∃ err, run t args = ⟨"", t, some err⟩ ∧ run t args' = ⟨"", t, some err⟩ := by
  refine ⟨c.parse?_arguments, c.read?_settingsText output, c.askedBy_entry output, ?_⟩
  intro t args args' settings text e hargs hargs' hfile hread h
  have hrender := run_render (t := t) hargs
  have hgenerate := run_generate hargs' hfile hread h
  cases hcode : c.code t.view with
  | error err =>
    rw [hcode] at hrender hgenerate
    exact .inr ⟨err, hrender, hgenerate⟩
  | ok code =>
    rw [hcode] at hrender hgenerate
    refine .inl ⟨code, hrender, fun hwritable => ?_⟩
    obtain ⟨hdeliver, hback⟩ := deliver_single hwritable
    have hwritten := hgenerate.trans hdeliver
    rw [hwritten]
    exact ⟨rfl, hback⟩

/-- The text of a settings file with one entry. -/
def constantSettings : String :=
  "packages:\n  - path: a.json\n    output_path: a.ts\n    indent: 4\n" ++
    "    type_mappings:\n      time.Time: string\n"

/-- A package with one constant, and the settings file. -/
def constantTree : FileTree :=
  .ofEntries ["work"]
    [(["gots.yaml"], constantSettings),
      (["a.json"], "\x7b\"package\": \"a\", \"files\": [\x7b\"name\": \"a.go\", " ++
        "\"decls\": [\x7b\"const\": \x7b\"name\": \"A\", \"value\": 1\x7d\x7d]\x7d]\x7d")] []

/-- The choices of the entry. -/
def constantChoices : Choices :=
  { path := ⟨"a.json"⟩, path_ne := by decide
    mappings := [("time.Time", "string")]
    areRules := by
      rw [List.forall_mem_singleton]
      exact ⟨by decide, by decide +kernel, by decide, by decide, by decide +kernel⟩
    fallback := "unknown", indent := 4, indent_lt := by decide, groupConstants := true
    aliasStyle := .alias, nameStyle := .asWritten, comments := .all }

/-- The entry as it is read. -/
def constantEntry : Entry :=
  { constantChoices.entry (some ⟨"a.ts"⟩) with fallback := none, groupConstants := none }

theorem constantTree_agrees :
    ∃ code, run constantTree ["render", "-m", "time.Time = string", "--indent", "4", "a.json"] =
        ⟨code, constantTree, none⟩ ∧
      (run constantTree ["generate"]).error = none ∧
      (run constantTree ["generate"]).tree.read? ⟨"a.ts"⟩ = some code := by
  have hargs : parse? ["render", "-m", "time.Time = string", "--indent", "4", "a.json"] =
      some (.render constantChoices.request) := rfl
  have hargs' : parse? ["generate"] = some (.generate ⟨"gots.yaml"⟩) := rfl
  have hread : Settings.read? constantSettings = some ⟨[constantEntry]⟩ := by
    decide +kernel
  have hdone : (run constantTree
      ["render", "-m", "time.Time = string", "--indent", "4", "a.json"]).error = none := by
    decide +kernel
  obtain ⟨-, -, -, hagree⟩ := render_agrees_generate constantChoices none
  obtain ⟨code, hrender, hwritten⟩ | ⟨err, hrender, -⟩ :=
    hagree constantTree _ _ _ _ _ hargs hargs' rfl hread
      ⟨rfl, rfl, rfl, rfl, rfl, rfl, rfl, rfl, rfl, rfl, rfl, rfl⟩
  · obtain ⟨hgenerate, hback⟩ := hwritten rfl
    have hout : constantEntry.outputFile constantTree.view = ⟨"a.ts"⟩ := by decide +kernel
    rw [hout] at hback
    exact ⟨code, hrender, by rw [hgenerate], hback⟩
  · rw [hrender] at hdone
    cases hdone

end Command

end WireTypes
