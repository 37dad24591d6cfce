import WireTypes.Addition
import WireTypes.Proofs.Failure
import WireTypes.Proofs.InPlace

/-!
# What an addition leaves behind

* `add_package`, `add_text`, `add_file`, `add_directory`: an addition in place does what the
  functions on targets say.
* `addPackages_append`: packages that resolve are added one after the other.
* `add_failed`: a failed addition changes nothing, unless all documents of a directory load and one
  of their packages does not resolve. Then the sections of the packages before it stay
  (`Source.CutShort`).
-/

set_option autoImplicit false

namespace WireTypes

open Resolution (packageSections)
open InPlace (runAt runAt_lift runAt_modify runAt_bind)

namespace Target

variable {target target' : Target} {files : Files} {e : Error}

/-! ## Packages -/

/-- What a change comes to that is made as a whole or not at all. -/
def settled (target : Target) : Except Error Target → Target × Except Error PUnit
  | .ok target' => (target', .ok ⟨⟩)
  | .error e => (target, .error e)

theorem runAt_addSections (target : Target) (sections : List Section) :
    runAt target (forM sections fun s => modify fun target => target.addSection s :
      InPlace Target Error PUnit) =
      ({ target with sections := target.sections ++ sections }, .ok ⟨⟩) := by
  induction sections generalizing target with
  | nil =>
    rw [List.append_nil]
    rfl
  | cons s rest ih =>
    rw [List.forM_cons, runAt_bind, runAt_modify]
    show runAt (target.addSection s) _ = _
    rw [ih, addSection, List.append_assoc]
    rfl

theorem runAt_addPackage (target : Target) (p : Package) :
    runAt target (Source.addPackage p) = target.settled (target.addPackage p) := by
  unfold Source.addPackage addPackage
  rw [runAt_bind, runAt_lift]
  cases packageSections p with
  | error e => rfl
  | ok sections => exact runAt_addSections target sections

theorem runAt_addPackages (target : Target) (packages : List Package) :
    runAt target (forM packages Source.addPackage) = target.addPackages packages := by
  induction packages generalizing target with
  | nil => rfl
  | cons p rest ih =>
    rw [List.forM_cons, runAt_bind, runAt_addPackage, addPackages]
    cases target.addPackage p with
    | error e => rfl
    | ok target' => exact ih target'

/-! ## Additions -/

theorem add_package (target : Target) (files : Files) (p : Package) :
    target.add files (.package p) = target.settled (target.addPackage p) :=
  runAt_addPackage target p

theorem add_text (target : Target) (files : Files) (format : Document.Format) (text : String) :
    target.add files (.text format text) = target.settled (target.addText format text) := by
  unfold add addText Source.add
  rw [runAt_bind, runAt_lift]
  cases Document.readPackage format text "<memory>" with
  | error e => rfl
  | ok p => exact runAt_addPackage target p

theorem add_file (target : Target) (files : Files) (path : Path) :
    target.add files (.file path) = target.settled (target.addFile files path) := by
  unfold add addFile Source.add
  rw [runAt_bind, runAt_lift]
  cases loadDocument files path with
  | error e => rfl
  | ok p => exact runAt_addPackage target p

theorem add_directory (target : Target) (files : Files) (path : Path) :
    target.add files (.directory path) = target.addDirectory files path := by
  unfold add addDirectory Source.add
  rw [runAt_bind, runAt_lift]
  cases loadDocuments files path with
  | error e => rfl
  | ok packages => exact runAt_addPackages target packages

/-! ## Packages one after the other -/

theorem addPackages_append {before : List Package} {found : List (List Section)}
    (h : before.mapM packageSections = .ok found) (target : Target) (rest : List Package) :
    target.addPackages (before ++ rest) =
      ({ target with sections := target.sections ++ found.flatten } : Target).addPackages rest := by
  induction before generalizing target found with
  | nil =>
    rw [List.mapM_nil] at h
    cases h
    rw [List.nil_append, List.flatten_nil, List.append_nil]
  | cons p before ih =>
    rw [List.mapM_cons] at h
    obtain ⟨sections, hp, h⟩ := bind_eq_ok.1 h
    obtain ⟨more, hrest, h⟩ := bind_eq_ok.1 h
    cases h
    have hadd : target.addPackage p =
        .ok { target with sections := target.sections ++ sections } :=
      bind_eq_ok.2 ⟨sections, hp, rfl⟩
    rw [List.cons_append, addPackages, hadd]
    simp only [ih hrest, List.flatten_cons, List.append_assoc]

theorem addPackages_cons_of_error {p : Package} (h : packageSections p = .error e)
    (target : Target) (rest : List Package) :
    target.addPackages (p :: rest) = (target, .error e) := by
  have hadd : target.addPackage p = .error e := by
    unfold addPackage
    rw [h]
    rfl
  rw [addPackages, hadd]
  rfl

/-- Packages that are not all added: one of them does not resolve, and those before it stay. -/
theorem addPackages_eq_error {packages : List Package}
    (h : target.addPackages packages = (target', .error e)) :
    ∃ before p after found, packages = before ++ p :: after ∧
      before.mapM packageSections = .ok found ∧ packageSections p = .error e ∧
      target' = { target with sections := target.sections ++ found.flatten } := by
  induction packages generalizing target with
  | nil => cases h
  | cons p rest ih =>
    cases hp : packageSections p with
    | error e' =>
      rw [addPackages_cons_of_error hp] at h
      cases h
      exact ⟨[], p, rest, [], rfl, rfl, hp, by simp⟩
    | ok sections =>
      have hfound : [p].mapM packageSections = .ok [sections] := mapM_eq_ok.2 (.cons hp .nil)
      rw [← List.singleton_append, addPackages_append hfound] at h
      obtain ⟨before, q, after, found, rfl, hbefore, hq, rfl⟩ := ih h
      refine ⟨p :: before, q, after, sections :: found, rfl, ?_, hq, by simp⟩
      exact mapM_eq_ok.2 (.cons hp (mapM_eq_ok.1 hbefore))

end Target

/-! ## Failures -/

/-- The documents below a directory all load, and one of their packages does not resolve; `left`
are the sections of the packages before it. -/
def Source.CutShort (source : Source) (files : Files) (e : Error) (left : List Section) : Prop :=
  ∃ path before p after found, source = .directory path ∧
    loadDocuments files path = .ok (before ++ p :: after) ∧
    before.mapM packageSections = .ok found ∧ packageSections p = .error e ∧ left = found.flatten

namespace Target

variable {target target' : Target} {files : Files} {source : Source} {e : Error}

theorem eq_of_settled {changed : Except Error Target}
    (h : target.settled changed = (target', .error e)) : target' = target := by
  cases changed with
  | error e' =>
    cases h
    rfl
  | ok changed => cases h

theorem add_of_cutShort {left : List Section} (h : source.CutShort files e left)
    (target : Target) :
    target.add files source =
      ({ target with sections := target.sections ++ left }, .error e) := by
  obtain ⟨path, before, p, after, found, rfl, hload, hbefore, hp, rfl⟩ := h
  rw [add_directory, addDirectory, hload]
  simp only [addPackages_append hbefore, addPackages_cons_of_error hp]

theorem unchanged_or_cutShort (h : target.add files source = (target', .error e)) :
    target' = target ∨ ∃ left, source.CutShort files e left := by
  cases source with
  | package p => exact .inl (eq_of_settled (add_package target files p ▸ h))
  | text format text => exact .inl (eq_of_settled (add_text target files format text ▸ h))
  | file path => exact .inl (eq_of_settled (add_file target files path ▸ h))
  | directory path =>
    rw [add_directory, addDirectory] at h
    cases hload : loadDocuments files path with
    | error e' =>
      rw [hload] at h
      cases h
      exact .inl rfl
    | ok packages =>
      rw [hload] at h
      obtain ⟨before, p, after, found, rfl, hbefore, hp, -⟩ := addPackages_eq_error h
      exact .inr ⟨_, path, before, p, after, found, rfl, hload, hbefore, hp, rfl⟩

/-- A failed addition leaves the options as they were, and the sections too unless it is cut short:
then exactly the sections of the packages before the failing one have been added. Hence the target
is unchanged exactly when these packages have no files, and whenever the source is a single
document or a document does not load. -/
theorem add_failed (h : target.add files source = (target', .error e)) :
    target'.options = target.options ∧
    (∀ left, source.CutShort files e left → target'.sections = target.sections ++ left) ∧
    (target' = target ↔ ∀ left, source.CutShort files e left → left = []) := by
  have hcut : ∀ left, source.CutShort files e left →
      target' = { target with sections := target.sections ++ left } := by
    intro left hleft
    rw [add_of_cutShort hleft target] at h
    exact (congrArg Prod.fst h).symm
  refine ⟨?_, fun left hleft => by rw [hcut left hleft], ?_, ?_⟩
  · rcases unchanged_or_cutShort h with rfl | ⟨left, hleft⟩
    · rfl
    · rw [hcut left hleft]
  · intro hsame left hleft
    have hsections := congrArg Target.sections (hcut left hleft)
    rw [hsame] at hsections
    exact List.self_eq_append_right.1 hsections
  · intro hnone
    rcases unchanged_or_cutShort h with rfl | ⟨left, hleft⟩
    · rfl
    · rw [hcut left hleft, hnone left hleft, List.append_nil]

/-- A directory with two documents, of which the first is in order. -/
def twoDocuments (second : String) : FileTree :=
  { files :=
      [(["d", "a.json"], "\x7b\"package\": \"a\", \"files\": [\x7b\"name\": \"a.go\", " ++
          "\"decls\": [\x7b\"const\": \x7b\"name\": \"A\", \"value\": 1\x7d\x7d]\x7d]\x7d"),
        (["d", "b.json"], second)]
    dirs := [["d"]]
    start := [] }

theorem documentsOf_twoDocuments (second : String) :
    documentsOf (twoDocuments second).view ⟨"d"⟩ = [⟨"d/a.json"⟩, ⟨"d/b.json"⟩] := by
  have hsteps : (⟨"d"⟩ : Path).steps = [.name "d"] := by decide +kernel
  have hplace : (twoDocuments second).place? ⟨"d"⟩ = some ["d"] := by
    simp [FileTree.place?, hsteps, FileTree.follow, FileTree.hasDir, twoDocuments]
  have hdir : (twoDocuments second).view.isDir ⟨"d"⟩ = true := by
    simp only [FileTree.view, FileTree.isDir, hplace]
    rfl
  have hsorted : [["a.json"], ["b.json"]].mergeSort FileTree.precedes = [["a.json"], ["b.json"]] :=
    List.mergeSort_of_pairwise (by decide +kernel)
  have hbelow : (twoDocuments second).view.below ⟨"d"⟩ = [⟨"d/a.json"⟩, ⟨"d/b.json"⟩] := by
    simp only [FileTree.view, FileTree.filesBelow, hplace]
    show ([["a.json"], ["b.json"]].mergeSort FileTree.precedes).map _ = _
    rw [hsorted]
    decide +kernel
  rw [documentsOf, hdir, hbelow]
  decide +kernel

/-- A document of a package that declares a name twice. -/
def repeatedDeclaration : String :=
  let decl := "\x7b\"const\": \x7b\"name\": \"B\", \"value\": 2\x7d\x7d"
  "\x7b\"package\": \"b\", \"files\": [\x7b\"name\": \"b.go\", \"decls\": [" ++ decl ++ ", " ++
    decl ++ "]\x7d]\x7d"

/-- The second package of the directory does not resolve, and the first one is written. -/
theorem add_repeatedDeclaration :
    ∃ target' e, (⟨{}, []⟩ : Target).add (twoDocuments repeatedDeclaration).view
      (.directory ⟨"d"⟩) = (target', .error e) ∧
        target'.generate ≠ (⟨{}, []⟩ : Target).generate := by
  have hadded : (([⟨"d/a.json"⟩, ⟨"d/b.json"⟩] : List Path).mapM
      (loadDocument (twoDocuments repeatedDeclaration).view)).toOption.any fun packages =>
        let added : Target × Except Error Unit := (⟨{}, []⟩ : Target).addPackages packages
        !added.2.isOk && added.1.generate.toOption ≠ (⟨{}, []⟩ : Target).generate.toOption := by
    decide +kernel
  rw [← documentsOf_twoDocuments repeatedDeclaration] at hadded
  simp only [Option.any_eq_true, Bool.and_eq_true, Bool.not_eq_true', decide_eq_true_eq] at hadded
  obtain ⟨packages, hload, hfailed, hcode⟩ := hadded
  cases h : (⟨{}, []⟩ : Target).addPackages packages with
  | mk target' result =>
    rw [h] at hfailed hcode
    cases result with
    | ok done => cases hfailed
    | error e =>
      refine ⟨target', e, ?_, fun heq => hcode (congrArg Except.toOption heq)⟩
      rw [add_directory, addDirectory, loadDocuments, eq_ok_of_toOption hload]
      exact h

/-- What stays are the sections of the first package. -/
theorem twoDocuments_cutShort :
    ∃ target' e left, (⟨{}, []⟩ : Target).add (twoDocuments repeatedDeclaration).view
      (.directory ⟨"d"⟩) = (target', .error e) ∧
        Source.CutShort (.directory ⟨"d"⟩) (twoDocuments repeatedDeclaration).view e left ∧
        left ≠ [] ∧ target'.sections = left := by
  obtain ⟨target', e, h, hcode⟩ := add_repeatedDeclaration
  obtain ⟨-, hsections, hsame⟩ := add_failed h
  have hleft := mt hsame.2 fun heq => hcode (congrArg generate heq)
  push Not at hleft
  obtain ⟨left, hcut, hne⟩ := hleft
  exact ⟨target', e, left, h, hcut, hne, hsections left hcut⟩

theorem not_unchanged_of_add_failed :
    ¬ ∀ (target target' : Target) (files : Files) (source : Source) (e : Error),
      target.add files source = (target', .error e) →
        target' = target ∧ target'.generate = target.generate := by
  intro hall
  obtain ⟨target', e, h, hcode⟩ := add_repeatedDeclaration
  exact hcode (hall _ _ _ _ _ h).2

end Target

end WireTypes
