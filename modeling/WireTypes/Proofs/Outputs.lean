import Mathlib.Data.List.Pairwise
import WireTypes.Command
import WireTypes.Proofs.Failure
import WireTypes.Proofs.FileTree

/-!
# Outputs of a settings file

* `collision?_eq_none`: a collision is two entries whose outputs take the same steps.
* `saveAll_content`: after all outputs are saved, the file at a place is one that was saved there,
  if any was.
* `generate_outputs`: a collision is reported before anything is written, and after a success every
  output can be read back exactly when outputs that lead to one place agree.
-/

set_option autoImplicit false

namespace WireTypes.Command

variable {t t' : FileTree} {files : Files}

/-! ## Collisions -/

/-- The outputs of two entries take different steps. -/
def Apart (files : Files) (e e' : Entry) : Prop :=
  (e.outputFile files).steps ≠ (e'.outputFile files).steps

theorem collision?_eq_none {before entries : List Entry} :
    collision? files before entries = none ↔
      (∀ b ∈ before, ∀ e ∈ entries, Apart files b e) ∧ entries.Pairwise (Apart files) := by
  induction entries generalizing before with
  | nil => simp [collision?]
  | cons e rest ih =>
    rw [collision?]
    split
    · rename_i b hb
      have hmem := List.mem_of_find?_eq_some hb
      have hsame := List.find?_some hb
      simp only [Path.same, decide_eq_true_eq] at hsame
      refine ⟨fun h => (nomatch h), fun h => ?_⟩
      exact absurd hsame (h.1 b hmem e List.mem_cons_self)
    · rename_i hnone
      have happart : ∀ b ∈ before, Apart files b e := by
        intro b hb hsame
        have hnot := List.find?_eq_none.1 hnone b hb
        exact hnot (by simpa [Path.same] using hsame)
      rw [ih, List.pairwise_cons]
      constructor
      · rintro ⟨hbefore, hrest⟩
        refine ⟨?_, fun e' he' => hbefore e (by simp) e' he', hrest⟩
        intro b hb e' he'
        rcases List.mem_cons.1 he' with rfl | he'
        · exact happart b hb
        · exact hbefore b (List.mem_append_left _ hb) e' he'
      · rintro ⟨hbefore, he, hrest⟩
        refine ⟨?_, hrest⟩
        intro b hb e' he'
        rcases List.mem_append.1 hb with hb | hb
        · exact hbefore b hb e' (List.mem_cons_of_mem _ he')
        · rw [List.mem_singleton.1 hb]
          exact he e' he'

theorem collision?_nil {entries : List Entry} :
    collision? files [] entries = none ↔ entries.Pairwise (Apart files) := by
  rw [collision?_eq_none]
  exact and_iff_right fun _ h => nomatch h

/-- The error says that two entries write to one path. -/
def IsCollision (e : CommandError) : Prop :=
  ∃ path first second, e = .outputCollision path first second

theorem lift_eq_ok {α : Type} {x : Except Error α} {a : α} (h : lift x = .ok a) : x = .ok a := by
  cases x with
  | error e => cases h
  | ok a' =>
    cases h
    rfl

/-- An error of the library, or an input without packages: all that can be wrong with an entry. -/
def IsInputError (e : CommandError) : Prop :=
  (∃ cause, e = .failed cause) ∨ ∃ path, e = .unsupportedInput path

theorem IsInputError.not_collision {e : CommandError} (h : IsInputError e) : ¬IsCollision e := by
  rintro ⟨_, _, _, rfl⟩
  obtain ⟨_, h⟩ | ⟨_, h⟩ := h
  · cases h
  · cases h

theorem lift_inputError {α : Type} (x : Except Error α) : FailsWith IsInputError (lift x) := by
  intro e he
  cases x with
  | ok a => cases he
  | error cause =>
    cases he
    exact .inl ⟨cause, rfl⟩

theorem loadInput_inputError (p : Path) : FailsWith IsInputError (loadInput files p) := by
  refine (lift_inputError _).bind fun packages _ => ?_
  cases packages with
  | nil => exact .throw (.inr ⟨p, rfl⟩)
  | cons p rest => exact .pure _

theorem renderEntry_inputError (e : Entry) (options : Options) :
    FailsWith IsInputError (renderEntry files e options) := by
  refine (loadInput_inputError _).bind fun _ _ => ?_
  refine (lift_inputError _).bind fun _ _ => ?_
  refine (lift_inputError _).bind fun _ _ => ?_
  exact (lift_inputError _).bind fun _ _ => .pure _

/-! ## Planning -/

/-- The code of an output is that of an entry, under the entry's own options. -/
structure Delivers (files : Files) (e : Entry) (o : Path × String) : Prop where
  path : o.1 = e.outputFile files
  code : ∃ options, e.options = .ok options ∧ renderEntry files e options = .ok o

theorem renderEntry_path {e : Entry} {options : Options} {o : Path × String}
    (h : renderEntry files e options = .ok o) : o.1 = e.outputFile files := by
  obtain ⟨_, -, h⟩ := bind_eq_ok.1 h
  obtain ⟨_, -, h⟩ := bind_eq_ok.1 h
  obtain ⟨_, -, h⟩ := bind_eq_ok.1 h
  obtain ⟨_, -, h⟩ := bind_eq_ok.1 h
  cases h
  rfl

theorem forall₂_delivers {entries : List Entry} {options : List Options}
    {outputs : List (Path × String)}
    (hoptions : List.Forall₂ (fun e o => e.options = .ok o) entries options)
    (houtputs : List.Forall₂ (fun p o => renderEntry files p.1 p.2 = .ok o)
      (entries.zip options) outputs) : List.Forall₂ (Delivers files) entries outputs := by
  induction hoptions generalizing outputs with
  | nil =>
    cases houtputs
    exact .nil
  | cons he _ ih =>
    rw [List.zip_cons_cons] at houtputs
    cases houtputs with
    | cons ho hrest => exact .cons ⟨renderEntry_path ho, _, he, ho⟩ (ih hrest)

section Plan

variable {settings : Path} {entries : List Entry} {options : List Options}

/-- What is planned for entries with valid options. -/
theorem planGenerate_eq (hentries : loadSettings files settings = .ok entries)
    (hoptions : entries.mapM Entry.options = .ok options) :
    planGenerate files settings =
      match collision? files [] entries with
      | some (path, first, second) => .error (.outputCollision path first second)
      | none => do
        let outputs ← (entries.zip options).mapM fun p => renderEntry files p.1 p.2
        return .saveAll outputs := by
  unfold planGenerate
  rw [hentries]
  show (lift (entries.mapM Entry.options) >>= _) = _
  rw [hoptions]
  cases collision? files [] entries with
  | none => rfl
  | some c => rfl

/-- A plan holds an output for each entry, and no two of them take the same steps. -/
theorem planGenerate_eq_ok {plan : Plan} (h : planGenerate files settings = .ok plan) :
    ∃ entries outputs, loadSettings files settings = .ok entries ∧
      List.Forall₂ (Delivers files) entries outputs ∧ entries.Pairwise (Apart files) ∧
      plan = .saveAll outputs := by
  obtain ⟨entries, hentries, hrest⟩ := bind_eq_ok.1 h
  obtain ⟨options, hoptions, -⟩ := bind_eq_ok.1 hrest
  have hoptions := lift_eq_ok hoptions
  rw [planGenerate_eq hentries hoptions] at h
  split at h
  · cases h
  · rename_i hnone
    obtain ⟨outputs, houtputs, h⟩ := bind_eq_ok.1 h
    cases h
    exact ⟨entries, outputs, hentries,
      forall₂_delivers (mapM_eq_ok.1 hoptions) (mapM_eq_ok.1 houtputs),
      collision?_nil.1 hnone, rfl⟩

/-- Planning reports a collision exactly when two outputs take the same steps. -/
theorem planGenerate_collision (hentries : loadSettings files settings = .ok entries)
    (hoptions : entries.mapM Entry.options = .ok options) :
    (∃ e, planGenerate files settings = .error e ∧ IsCollision e) ↔
      ¬entries.Pairwise (Apart files) := by
  rw [planGenerate_eq hentries hoptions]
  split
  · rename_i path first second hc
    refine ⟨fun _ happart => ?_, fun _ => ⟨_, rfl, path, first, second, rfl⟩⟩
    rw [collision?_nil.2 happart] at hc
    cases hc
  · rename_i hc
    refine ⟨?_, fun hnot => absurd (collision?_nil.1 hc) hnot⟩
    rintro ⟨e, he, hcollision⟩
    have hrender : FailsWith IsInputError
        ((entries.zip options).mapM fun p => renderEntry files p.1 p.2) :=
      .mapM fun p _ => renderEntry_inputError p.1 p.2
    exact absurd hcollision (hrender.bind (fun _ _ => .pure _) e he).not_collision

end Plan

/-! ## Saving -/

theorem saveAll_grows {outputs : List (Path × String)} (h : saveAll t outputs = (t', none)) :
    t.Grows t' := by
  induction outputs generalizing t with
  | nil =>
    cases h
    exact .refl _
  | cons o rest ih =>
    rw [saveAll] at h
    split at h
    · rename_i made hsave
      exact (FileTree.saved_of_save hsave).grows.trans (ih h)
    · cases h

/-- After all outputs are saved, the file at a place is one of those that were saved there; where
none was saved it is the one before. -/
theorem saveAll_content {outputs : List (Path × String)} (h : saveAll t outputs = (t', none))
    (place : Place) :
    (∃ o ∈ outputs, t'.place? o.1 = some place ∧ t'.content? place = some o.2) ∨
      ((∀ o ∈ outputs, t'.place? o.1 ≠ some place) ∧ t'.content? place = t.content? place) := by
  induction outputs generalizing t with
  | nil =>
    cases h
    exact .inr ⟨by simp, rfl⟩
  | cons o rest ih =>
    rw [saveAll] at h
    split at h
    · rename_i made hsave
      obtain ⟨-, -, here, hplace, hcontent⟩ := FileTree.saved_of_save hsave
      have hfinal : t'.place? o.1 = some here := (saveAll_grows h).place? hplace
      -- a later output at the place of this one wins
      rcases ih h with ⟨o', ho', hlast⟩ | ⟨hnone, hkept⟩
      · exact .inl ⟨o', List.mem_cons_of_mem _ ho', hlast⟩
      · rw [hcontent] at hkept
        by_cases hp : place = here
        · rw [if_pos hp] at hkept
          exact .inl ⟨o, List.mem_cons_self, hp ▸ hfinal, hkept⟩
        · rw [if_neg hp] at hkept
          refine .inr ⟨List.forall_mem_cons.2 ⟨?_, hnone⟩, hkept⟩
          rw [hfinal]
          exact fun he => hp (Option.some.inj he).symm
    · cases h

/-- Every saved output leads to a place, by a path that can name a file. -/
theorem exists_place_of_saveAll {outputs : List (Path × String)}
    (h : saveAll t outputs = (t', none)) {o : Path × String} (ho : o ∈ outputs) :
    o.1.namesDirectory = false ∧ ∃ place, t'.place? o.1 = some place := by
  induction outputs generalizing t with
  | nil => cases ho
  | cons o' rest ih =>
    rw [saveAll] at h
    split at h
    · rename_i made hsave
      rcases List.mem_cons.1 ho with rfl | ho
      · obtain ⟨-, hname, here, hplace, -⟩ := FileTree.saved_of_save hsave
        exact ⟨hname, here, (saveAll_grows h).place? hplace⟩
      · exact ih h ho
    · cases h

/-- A saved output is read back as the last one that leads to its place. -/
theorem read?_of_saveAll {outputs : List (Path × String)} (h : saveAll t outputs = (t', none))
    {o : Path × String} (ho : o ∈ outputs) :
    ∃ o' ∈ outputs, t'.place? o'.1 = t'.place? o.1 ∧ t'.read? o.1 = some o'.2 := by
  obtain ⟨hname, place, hplace⟩ := exists_place_of_saveAll h ho
  rcases saveAll_content h place with ⟨o', ho', hplace', hcontent⟩ | ⟨hnone, -⟩
  · refine ⟨o', ho', hplace'.trans hplace.symm, ?_⟩
    rw [FileTree.read?, hplace]
    simp only [Option.bind_eq_bind, Option.bind_some, hname]
    exact hcontent
  · exact absurd hplace (hnone o ho)

theorem read?_iff_of_saveAll {outputs : List (Path × String)} (h : saveAll t outputs = (t', none)) :
    (∀ o ∈ outputs, t'.read? o.1 = some o.2) ↔
      ∀ o ∈ outputs, ∀ o' ∈ outputs, t'.place? o.1 = t'.place? o'.1 → o.2 = o'.2 := by
  constructor
  · intro hread o ho o' ho' hplace
    have heq : t'.read? o.1 = t'.read? o'.1 := by
      rw [FileTree.read?, FileTree.read?, hplace, (exists_place_of_saveAll h ho).1,
        (exists_place_of_saveAll h ho').1]
    rw [hread o ho, hread o' ho'] at heq
    exact Option.some.inj heq
  · intro hagree o ho
    obtain ⟨o', ho', hplace, hread⟩ := read?_of_saveAll h ho
    rw [hread, hagree o' ho' o ho hplace]

/-! ## Running -/

variable {args : List String} {invocation : CommandLine.Invocation} {settings : Path}

theorem run_eq_of_error (hargs : CommandLine.parse? args = some invocation)
    {e : CommandError} (h : plan t.view invocation = .error e) :
    run t args = { stdout := "", tree := t, error := some e } := by
  unfold run
  simp only [hargs, h]

theorem run_eq_of_ok (hargs : CommandLine.parse? args = some invocation)
    {planned : Plan} (h : plan t.view invocation = .ok planned) :
    run t args = deliver t planned := by
  unfold run
  simp only [hargs, h]

/-- The error is about a path that cannot be written. -/
def IsWriteError (e : CommandError) : Prop := ∃ path, e = .unwritable path

theorem IsWriteError.not_collision {e : CommandError} (h : IsWriteError e) : ¬IsCollision e := by
  rintro ⟨_, _, _, rfl⟩
  obtain ⟨_, h⟩ := h
  cases h

theorem deliver_writeError (outputs : List (Path × String)) {e : CommandError}
    (h : (deliver t (.saveAll outputs)).error = some e) : IsWriteError e := by
  obtain ⟨path, -, he⟩ := Option.map_eq_some_iff.1 h
  exact ⟨path, he.symm⟩

/-- A run ends with a collision exactly when its plan does, and then nothing has happened. -/
theorem run_collision_iff (hargs : CommandLine.parse? args = some (.generate settings))
    {e : CommandError} (he : IsCollision e) :
    (run t args).error = some e ↔ planGenerate t.view settings = .error e := by
  constructor
  · intro h
    cases hplan : planGenerate t.view settings with
    | error e' =>
      rw [run_eq_of_error hargs hplan] at h
      exact congrArg Except.error (Option.some.inj h)
    | ok plan =>
      obtain ⟨_, outputs, -, -, -, rfl⟩ := planGenerate_eq_ok hplan
      rw [run_eq_of_ok hargs hplan] at h
      exact absurd he (deliver_writeError outputs h).not_collision
  · intro h
    rw [run_eq_of_error hargs h]

/-- What a successful run has done. -/
theorem saveAll_of_run (hargs : CommandLine.parse? args = some (.generate settings))
    (h : (run t args).error = none) :
    ∃ entries outputs, loadSettings t.view settings = .ok entries ∧
      List.Forall₂ (Delivers t.view) entries outputs ∧ entries.Pairwise (Apart t.view) ∧
      saveAll t outputs = ((run t args).tree, none) := by
  cases hplan : planGenerate t.view settings with
  | error e =>
    rw [run_eq_of_error hargs hplan] at h
    cases h
  | ok plan =>
    obtain ⟨entries, outputs, hentries, hdelivers, happart, rfl⟩ := planGenerate_eq_ok hplan
    rw [run_eq_of_ok hargs hplan] at h ⊢
    have hfault : (saveAll t outputs).2 = none := Option.map_eq_none_iff.1 h
    exact ⟨entries, outputs, hentries, hdelivers, happart, Prod.ext rfl hfault⟩

/-- Outputs of entries whose paths only go down agree where they lead to one place: there is only
one of them. -/
theorem agree_of_descends {entries : List Entry} {outputs : List (Path × String)}
    (hdelivers : List.Forall₂ (Delivers files) entries outputs)
    (happart : entries.Pairwise (Apart files))
    (hdown : ∀ e ∈ entries, (e.outputFile files).Descends)
    (hplaces : ∀ o ∈ outputs, ∃ place, t.place? o.1 = some place) :
    ∀ o ∈ outputs, ∀ o' ∈ outputs, t.place? o.1 = t.place? o'.1 → o.2 = o'.2 := by
  have : Std.Symm fun o o' : Path × String => t.place? o.1 = t.place? o'.1 → o.2 = o'.2 :=
    ⟨fun _ _ h he => (h he.symm).symm⟩
  suffices hpairwise : outputs.Pairwise fun o o' => t.place? o.1 = t.place? o'.1 → o.2 = o'.2 from
    fun o ho o' ho' => hpairwise.forall_of_forall (fun _ _ _ => rfl) ho ho'
  induction hdelivers with
  | nil => exact .nil
  | @cons e o _ _ hd hrest ih =>
    rw [List.pairwise_cons] at happart ⊢
    rw [List.forall_mem_cons] at hdown hplaces
    refine ⟨fun o' ho' hplace => ?_, ih happart.2 hdown.2 hplaces.2⟩
    obtain ⟨e', he', hd'⟩ := exists_of_forall₂ hrest.flip ho'
    obtain ⟨place, hp⟩ := hplaces.1
    refine absurd ?_ (happart.1 e' he')
    rw [← hd.path, ← hd'.path]
    exact FileTree.steps_eq_of_descends (hd.path ▸ hdown.1) (hd'.path ▸ hdown.2 e' he') hp
      (hplace ▸ hp)

/-- Entries with valid options are refused as a collision exactly when the outputs of two of them
take the same steps, and a collision leaves the tree as it was. After a success, every output can be
read back at its path exactly when outputs that lead to one place are equal; this is so whenever the
paths of outputs only go down. -/
theorem generate_outputs (hargs : CommandLine.parse? args = some (.generate settings)) :
    (∀ entries options, loadSettings t.view settings = .ok entries →
      entries.mapM Entry.options = .ok options →
      ((∃ e, (run t args).error = some e ∧ IsCollision e) ↔
        ¬entries.Pairwise (Apart t.view))) ∧
    (∀ e, (run t args).error = some e → IsCollision e →
      (run t args).tree = t ∧ (run t args).stdout = "") ∧
    ((run t args).error = none →
      ∃ entries outputs, loadSettings t.view settings = .ok entries ∧
        List.Forall₂ (Delivers t.view) entries outputs ∧
        ((∀ o ∈ outputs, (run t args).tree.read? o.1 = some o.2) ↔
          ∀ o ∈ outputs, ∀ o' ∈ outputs,
            (run t args).tree.place? o.1 = (run t args).tree.place? o'.1 → o.2 = o'.2) ∧
        ((∀ e ∈ entries, (e.outputFile t.view).Descends) →
          ∀ o ∈ outputs, (run t args).tree.read? o.1 = some o.2)) := by
  refine ⟨?_, ?_, ?_⟩
  · intro entries options hentries hoptions
    rw [← planGenerate_collision hentries hoptions]
    refine exists_congr fun e => ?_
    rw [and_congr_left_iff]
    exact run_collision_iff hargs
  · intro e h he
    rw [run_eq_of_error hargs ((run_collision_iff hargs he).1 h)]
    exact ⟨rfl, rfl⟩
  · intro h
    obtain ⟨entries, outputs, hentries, hdelivers, happart, hsaved⟩ := saveAll_of_run hargs h
    refine ⟨entries, outputs, hentries, hdelivers, read?_iff_of_saveAll hsaved, fun hdown => ?_⟩
    refine (read?_iff_of_saveAll hsaved).2 (agree_of_descends hdelivers happart hdown ?_)
    exact fun o ho => (exists_place_of_saveAll hsaved ho).2

/-- A settings file with two packages of one constant each, and the paths of their outputs. -/
def twoPackages (first second : String) : FileTree :=
  let document (package name value : String) : String :=
    "\x7b\"package\": \"" ++ package ++ "\", \"files\": [\x7b\"name\": \"a.go\", " ++
      "\"decls\": [\x7b\"const\": \x7b\"name\": \"" ++ name ++ "\", \"value\": " ++ value ++
      "\x7d\x7d]\x7d]\x7d"
  .ofEntries ["w"]
    [(["gots.yaml"], "packages:\n  - path: a.json\n    output_path: " ++ first ++
        "\n  - path: b.json\n    output_path: " ++ second ++ "\n"),
      (["a.json"], document "a" "A" "1"), (["b.json"], document "b" "B" "2")] []

theorem twoPackages_outputs :
    (run (twoPackages "a.ts" "b.ts") ["generate"]).error = none ∧
      ∃ entries outputs,
        loadSettings (twoPackages "a.ts" "b.ts").view ⟨"gots.yaml"⟩ = .ok entries ∧
        List.Forall₂ (Delivers (twoPackages "a.ts" "b.ts").view) entries outputs ∧
        ∀ o ∈ outputs,
          (run (twoPackages "a.ts" "b.ts") ["generate"]).tree.read? o.1 = some o.2 := by
  have hargs : CommandLine.parse? ["generate"] = some (.generate ⟨"gots.yaml"⟩) := rfl
  have hdone : (run (twoPackages "a.ts" "b.ts") ["generate"]).error = none := by decide +kernel
  have hdown : (loadSettings (twoPackages "a.ts" "b.ts").view ⟨"gots.yaml"⟩).toOption.all
      fun entries => entries.all fun e =>
        (e.outputFile (twoPackages "a.ts" "b.ts").view).Descends := by
    decide +kernel
  obtain ⟨-, -, hsuccess⟩ := generate_outputs (t := twoPackages "a.ts" "b.ts") hargs
  obtain ⟨entries, outputs, hentries, hdelivers, -, hread⟩ := hsuccess hdone
  rw [hentries] at hdown
  refine ⟨hdone, entries, outputs, hentries, hdelivers, hread fun e he => ?_⟩
  exact of_decide_eq_true (List.all_eq_true.1 hdown e he)

/-- Two spellings of one path are not seen as a collision, and the first output is lost. -/
theorem twoPackages_lost :
    (run (twoPackages "index.ts" "./index.ts") ["generate"]).error = none ∧
      ∃ entries e o,
        loadSettings (twoPackages "index.ts" "./index.ts").view ⟨"gots.yaml"⟩ = .ok entries ∧
        e ∈ entries ∧ Delivers (twoPackages "index.ts" "./index.ts").view e o ∧
        (run (twoPackages "index.ts" "./index.ts") ["generate"]).tree.read? o.1 ≠ some o.2 := by
  have hlost : (run (twoPackages "index.ts" "./index.ts") ["generate"]).error = none ∧
      ((loadSettings (twoPackages "index.ts" "./index.ts").view ⟨"gots.yaml"⟩).toOption.any
        fun entries => entries.any fun e => e.options.toOption.any fun options =>
          (renderEntry (twoPackages "index.ts" "./index.ts").view e options).toOption.any
            fun o =>
              (run (twoPackages "index.ts" "./index.ts") ["generate"]).tree.read? o.1 ≠
                some o.2) := by
    decide +kernel
  refine ⟨hlost.1, ?_⟩
  replace hlost := hlost.2
  simp only [Option.any_eq_true, List.any_eq_true, decide_eq_true_eq] at hlost
  obtain ⟨entries, hentries, e, he, options, hoptions, o, ho, hread⟩ := hlost
  have hrender := eq_ok_of_toOption ho
  exact ⟨entries, e, o, eq_ok_of_toOption hentries, he,
    ⟨renderEntry_path hrender, options, eq_ok_of_toOption hoptions, hrender⟩, hread⟩

end WireTypes.Command
