import WireTypes.Proofs.AlikeConstants
import WireTypes.Proofs.References
import WireTypes.Target

/-!
# Declarations that are not exported

A package with further declarations that are not kept, at any positions of its files, is as good as
the package without them: only the positions of other declarations move, and these are seen in
errors alone.

* `packageSections_agree`: the sections are the same up to these positions (`Section.Moved`), or
  resolution fails for the same reason (`Error.Moved`).
* `unexported_unseen`: so do packages that are added to a target, and the outputs from there on.
-/

set_option autoImplicit false

namespace WireTypes

namespace Package

/-- The second list is the first one with declarations put in that are not kept, anywhere. -/
inductive Decl.InsertsHidden : List Decl → List Decl → Prop
  | nil : InsertsHidden [] []
  | same {ds ds' : List Decl} (d : Decl) (h : InsertsHidden ds ds') :
      InsertsHidden (d :: ds) (d :: ds')
  | hidden {ds ds' : List Decl} {d : Decl} (hd : d.isKept = false) (h : InsertsHidden ds ds') :
      InsertsHidden ds (d :: ds')

/-- The second file is the first one with such declarations. -/
structure File.InsertsHidden (f f' : File) : Prop where
  name : f'.name = f.name
  decls : Decl.InsertsHidden f.decls f'.decls

/-- The second package is the first one with such declarations in its files. -/
structure InsertsHidden (p p' : Package) : Prop where
  name : p'.name = p.name
  files : List.Forall₂ File.InsertsHidden p.files p'.files

end Package

/-! ## Moved declarations -/

/-- Places that differ in the position at most. -/
structure Location.Moved (l l' : Location) : Prop where
  file : l'.file = l.file
  line : l'.line = l.line

/-- Errors that differ in the positions of places at most. -/
inductive Error.Moved : Error → Error → Prop
  | duplicateDeclaration {name : String} {first first' second second' : Location}
      (hfirst : first.Moved first') (hsecond : second.Moved second') :
      Moved (.duplicateDeclaration name first second) (.duplicateDeclaration name first' second')
  | invalidIdentifier {name : String} {l l' : Location} (h : l.Moved l') :
      Moved (.invalidIdentifier name l) (.invalidIdentifier name l')
  | same (e : Error) : Moved e e

/-- Types that differ in the positions of their places at most. -/
def TypeDecl.Moved (d d' : TypeDecl) : Prop :=
  ∃ location, d.location.Moved location ∧ d' = { d with location }

/-- Constants that differ in the positions of their places at most. -/
def ConstDecl.Moved (d d' : ConstDecl) : Prop :=
  ∃ location, d.location.Moved location ∧ d' = { d with location }

/-- Items that differ in the positions of their places at most. -/
abbrev Item.Moved : Item → Item → Prop :=
  Item.Beside ConstDecl.Moved TypeDecl.Moved

/-- Sections that differ in the positions of places at most. -/
abbrev Section.Moved : Section → Section → Prop :=
  Section.Beside (fun _ => ConstDecl.Moved) (fun _ => TypeDecl.Moved)

theorem Location.Moved.refl (l : Location) : l.Moved l := ⟨rfl, rfl⟩

/-! ## Names that are declared twice -/

namespace Section

/-- Declared names with their places. -/
abbrev MovedNames : List (String × Location) → List (String × Location) → Prop :=
  List.Forall₂ fun a b => b.1 = a.1 ∧ a.2.Moved b.2

theorem declarations_moved {items items' : List Item} (h : List.Forall₂ Item.Moved items items') :
    MovedNames (declarations items) (declarations items') := by
  induction h with
  | nil => exact .nil
  | cons hitem _ ih =>
    cases hitem with
    | type hd =>
      obtain ⟨location, hlocation, rfl⟩ := hd
      exact .cons ⟨rfl, hlocation⟩ ih
    | const hd =>
      obtain ⟨location, hlocation, rfl⟩ := hd
      exact .cons ⟨rfl, hlocation⟩ ih
    | emit text => exact ih

theorem lookup_moved {seen seen' : List (String × Location)} (h : MovedNames seen seen')
    (name : String) : Option.Rel Location.Moved (seen.lookup name) (seen'.lookup name) := by
  induction h with
  | nil => exact .none
  | @cons a b as bs hab _ ih =>
    obtain ⟨n, l⟩ := a
    obtain ⟨n', l'⟩ := b
    obtain ⟨hname, hlocation⟩ := hab
    simp only at hname
    rw [hname, List.lookup_cons, List.lookup_cons]
    cases name == n with
    | true => exact .some hlocation
    | false => exact ih

theorem ofItems_moved {package file : String} {items items' : List Item}
    (h : List.Forall₂ Item.Moved items items') :
    Agree Error.Moved Section.Moved (ofItems package file items) (ofItems package file items') := by
  have hrepeated {names names' : List (String × Location)} (hnames : MovedNames names names')
      {seen seen' : List (String × Location)} (hseen : MovedNames seen seen') :
      Option.Rel (fun r r' => Error.Moved (.duplicateDeclaration r.1 r.2.1 r.2.2)
          (.duplicateDeclaration r'.1 r'.2.1 r'.2.2))
        (firstRepeated? seen names) (firstRepeated? seen' names') := by
    induction hnames generalizing seen seen' with
    | nil => exact .none
    | @cons a b as bs hab _ ih =>
      obtain ⟨name, l⟩ := a
      obtain ⟨name', l'⟩ := b
      obtain ⟨hname, hlocation⟩ := hab
      simp only at hname
      subst hname
      have hfirst := lookup_moved hseen name'
      rw [firstRepeated?, firstRepeated?]
      generalize seen.lookup name' = first at hfirst ⊢
      generalize seen'.lookup name' = first' at hfirst ⊢
      cases hfirst with
      | none => exact ih (List.rel_append hseen (.cons ⟨rfl, hlocation⟩ .nil))
      | some hfirst => exact .some (.duplicateDeclaration hfirst hlocation)
  have hfound := hrepeated (declarations_moved h) .nil
  unfold ofItems
  generalize firstRepeated? [] (declarations items) = found at hfound ⊢
  generalize firstRepeated? [] (declarations items') = found' at hfound ⊢
  cases hfound with
  | none => exact .ok ⟨rfl, rfl, h⟩
  | some herror => exact .error herror

end Section

/-! ## Resolution -/

namespace Resolution

variable {s : Scope} {file : String}

theorem ofPackage_insertsHidden {p p' : Package} (h : p.InsertsHidden p') :
    Scope.ofPackage p' = Scope.ofPackage p := by
  have hdecls {ds ds' : List Package.Decl} (h : Package.Decl.InsertsHidden ds ds') :
      ds'.filterMap exportedType? = ds.filterMap exportedType? := by
    induction h with
    | nil => rfl
    | same d _ ih => rw [List.filterMap_cons, List.filterMap_cons, ih]
    | @hidden _ _ d hd _ ih =>
      have hnone : exportedType? d = none := by
        cases d with
        | type spec =>
          have hexp : Package.isExported spec.name = false := hd
          simp only [exportedType?, hexp, Bool.false_eq_true, ↓reduceIte]
        | const spec => rfl
        | emit text => rfl
      rw [List.filterMap_cons, hnone]
      exact ih
  have hfiles {fs fs' : List Package.File} (h : List.Forall₂ Package.File.InsertsHidden fs fs') :
      (fs'.flatMap fun file => file.decls.filterMap exportedType?) =
        fs.flatMap fun file => file.decls.filterMap exportedType? := by
    induction h with
    | nil => rfl
    | cons hfile _ ih => rw [List.flatMap_cons, List.flatMap_cons, hdecls hfile.decls, ih]
  unfold Scope.ofPackage
  rw [h.name, hfiles h.files]

theorem typeDecl_moved {l l' : Location} (hl : l.Moved l') (spec : Package.TypeSpec) :
    Agree Error.Moved TypeDecl.Moved (typeDecl s l spec) (typeDecl s l' spec) := by
  unfold typeDecl
  split
  · refine (Agree.refl Error.Moved.same (fun _ => rfl) _).bind fun found found' hfound => .ok ?_
    subst hfound
    exact ⟨l', hl, rfl⟩
  · split
    · exact .ok ⟨l', hl, rfl⟩
    · exact .ok ⟨l', hl, rfl⟩
  · refine (Agree.refl Error.Moved.same (fun _ => rfl) _).bind fun body body' hbody => .ok ?_
    subst hbody
    exact ⟨l', hl, rfl⟩

theorem constDecl_moved {l l' : Location} (hl : l.Moved l') (spec : Package.ConstSpec) :
    Agree Error.Moved ConstDecl.Moved (constDecl s l spec) (constDecl s l' spec) := by
  unfold constDecl
  refine (Agree.refl Error.Moved.same (fun _ => rfl) _).bind fun type type' htype => .ok ?_
  subst htype
  exact ⟨l', hl, rfl⟩

theorem item?_moved (i j : Nat) (d : Package.Decl) :
    Agree Error.Moved (Option.Rel Item.Moved) (item? s file i d) (item? s file j d) := by
  have hmoved (line : Option Nat) : Location.Moved ⟨file, line, i⟩ ⟨file, line, j⟩ := ⟨rfl, rfl⟩
  cases d with
  | type spec =>
    rw [item?, item?]
    split
    · refine Agree.bind (typeDecl_moved (hmoved spec.line) spec) fun d d' hd => ?_
      exact .ok (.some (.type hd))
    · exact .ok .none
  | const spec =>
    rw [item?, item?]
    split
    · refine Agree.bind (constDecl_moved (hmoved spec.line) spec) fun d d' hd => ?_
      exact .ok (.some (.const hd))
    · exact .ok .none
  | emit text => exact .ok (.some (.emit text))

theorem item?_hidden {d : Package.Decl} (hd : d.isKept = false) (i : Nat) :
    item? s file i d = .ok none := by
  cases d with
  | type spec =>
    have hexp : Package.isExported spec.name = false := hd
    rw [item?, hexp]
    rfl
  | const spec =>
    have hexp : Package.isExported spec.name = false := hd
    rw [item?, hexp]
    rfl
  | emit text => cases hd

theorem items_moved {ds ds' : List Package.Decl} (h : Package.Decl.InsertsHidden ds ds')
    (i j : Nat) :
    Agree Error.Moved (List.Forall₂ Item.Moved) (items s file i ds) (items s file j ds') := by
  induction h generalizing i j with
  | nil => exact .ok .nil
  | same d _ ih =>
    rw [items, items]
    refine (item?_moved i j d).bind fun first first' hfirst => ?_
    refine (ih (i + 1) (j + 1)).bind fun more more' hmore => .ok (List.rel_append ?_ hmore)
    cases hfirst with
    | none => exact .nil
    | some hitem => exact .cons hitem .nil
  | hidden hd _ ih =>
    -- only the count of declarations goes on
    have hrest := ih i (j + 1)
    rw [items, item?_hidden hd]
    show Agree _ _ _ (items s file (j + 1) _ >>= pure)
    rwa [bind_pure]

theorem fileSection_moved {f f' : Package.File} (h : f.InsertsHidden f') :
    Agree Error.Moved Section.Moved (fileSection s f) (fileSection s f') := by
  unfold fileSection
  rw [h.name]
  exact (items_moved h.decls 1 1).bind fun _ _ hitems => Section.ofItems_moved hitems

theorem packageSections_agree {p p' : Package} (h : p.InsertsHidden p') :
    Agree Error.Moved (List.Forall₂ Section.Moved) (packageSections p) (packageSections p') := by
  unfold packageSections
  rw [ofPackage_insertsHidden h]
  exact Agree.mapM (h.files.imp fun _ _ hf => fileSection_moved hf)

end Resolution

/-! ## Outputs -/

namespace Code

variable {o : Options} {package : String}

theorem checkName_moved {l l' : Location} (h : l.Moved l') (name : String) :
    Agree Error.Moved Eq (checkName name l) (checkName name l') := by
  unfold checkName
  split
  · exact .ok rfl
  · exact .error (.invalidIdentifier h)

theorem renderType_moved {d d' : TypeDecl} (h : d.Moved d') :
    Agree Error.Moved Eq (renderType o package d) (renderType o package d') := by
  obtain ⟨location, hlocation, rfl⟩ := h
  unfold renderType
  exact (checkName_moved hlocation d.name).bind fun _ _ _ => .refl .same (fun _ => rfl) _

theorem alike_of_moved {d d' : ConstDecl} (h : d.Moved d') :
    ConstDecl.Alike Error.Moved o o package d d' := by
  obtain ⟨location, hlocation, rfl⟩ := h
  exact {
    name := rfl
    value := rfl
    type := .inl rfl
    expr := fun _ => .refl .same (fun _ => rfl) _
    check := checkName_moved hlocation
    doc := fun _ => rfl
    comment := rfl }

theorem generate_moved {sections sections' : List Section}
    (h : List.Forall₂ Section.Moved sections sections') :
    Agree Error.Moved Eq (generate o sections) (generate o sections') := by
  have htaken : TakenNames.ofSections sections' = TakenNames.ofSections sections := by
    refine ofSections_eq ?_ ?_ h
    · rintro package d _ ⟨location, -, rfl⟩
      rfl
    · rintro package d _ ⟨location, -, rfl⟩
      rfl
  refine generate_agree .same rfl rfl htaken (fun _ => ?_) (fun _ => ?_) h
  · exact constsInStep_of_alike ⟨rfl, rfl, rfl⟩ .same (fun _ _ => alike_of_moved) _
  · exact fun _ _ => renderType_moved

end Code

/-- A package, with declarations put in that are not exported, resolves exactly when it does without
them, and then to the same sections but for the positions of declarations. Added to a target, the
outputs are the same text, or fail with the same error but for positions. -/
theorem unexported_unseen {p p' : Package} (h : p.InsertsHidden p') (target : Target) :
    Agree Error.Moved (List.Forall₂ Section.Moved) (Resolution.packageSections p)
      (Resolution.packageSections p') ∧
    Agree Error.Moved (fun t t' => Agree Error.Moved Eq t.generate t'.generate)
      (target.addPackage p) (target.addPackage p') := by
  have hsections := Resolution.packageSections_agree h
  refine ⟨hsections, ?_⟩
  unfold Target.addPackage
  refine hsections.bind fun sections sections' hmoved => .ok ?_
  have hbefore : List.Forall₂ Section.Moved target.sections target.sections :=
    Section.beside_self (fun _ _ d _ => ⟨d.location, .refl _, rfl⟩)
      fun _ d => ⟨d.location, .refl _, rfl⟩
  exact Code.generate_moved (List.rel_append hbefore hmoved)

/-- Two constants with words in common. -/
def levelPackage : Package :=
  let level (name : String) (value : Int) : Package.Decl :=
    .const ⟨name, none, .int value, none, none, none⟩
  { name := "log", files := [⟨"level.go", [level "LevelLow" 1, level "LevelHigh" 2]⟩] }

/-- The same with declarations in front of, between and after them: a blank constant of another
type, one more of the words in common, and a type whose body does not resolve. -/
def levelPackageWithHidden : Package :=
  let level (name : String) (value : Int) : Package.Decl :=
    .const ⟨name, none, .int value, none, none, none⟩
  let hidden : Package.Decl := .type ⟨"levelOf", .basic "", none, none, none⟩
  { name := "log"
    files := [⟨"level.go", [hidden, level "LevelLow" 1,
      .const ⟨"_", none, .string "", none, none, none⟩, level "levelMiddle" 3,
      level "LevelHigh" 2, hidden]⟩] }

theorem levelPackage_unseen :
    levelPackage.InsertsHidden levelPackageWithHidden ∧
      Agree Error.Moved (List.Forall₂ Section.Moved) (Resolution.packageSections levelPackage)
        (Resolution.packageSections levelPackageWithHidden) ∧
      Agree Error.Moved (fun t t' => Agree Error.Moved Eq t.generate t'.generate)
        (Target.addPackage ⟨{ aliasStyle := .enum }, []⟩ levelPackage)
        (Target.addPackage ⟨{ aliasStyle := .enum }, []⟩ levelPackageWithHidden) ∧
      ((Target.addPackage ⟨{ aliasStyle := .enum }, []⟩ levelPackage).bind
        Target.generate).isOk := by
  have h : levelPackage.InsertsHidden levelPackageWithHidden := by
    refine ⟨rfl, .cons ⟨rfl, .hidden ?_ (.same _ (.hidden ?_ (.hidden ?_ (.same _
      (.hidden ?_ .nil)))))⟩ .nil⟩
    · decide +kernel
    · decide +kernel
    · decide +kernel
    · decide +kernel
  obtain ⟨hsections, htargets⟩ := unexported_unseen h ⟨{ aliasStyle := .enum }, []⟩
  exact ⟨h, hsections, htargets, by decide +kernel⟩

end WireTypes
