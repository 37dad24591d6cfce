import WireTypes.Proofs.Resolution

/-!
# What becomes of references

`Package.TypeExpr.references` lists the references of a Go type that go over the wire, and
`Shape.references` those of a shape. `Package.Answers p e t` says what a reference `e` of the
package `p` must become, from the declarations of all files alone.

* `shape_answers`: the references of a type become those of its shape, one by one and in order.
* `outcome_member_iff`: only the fields that `Field.isMember` describes become members.
* `references_answered`: the references of every declaration of a package that resolves are
  answered, and each one that leads to a declaration leads to one in the sections.
-/

set_option autoImplicit false

namespace WireTypes

/-! ## References of shapes -/

/-- A shape that is a name. -/
def Shape.isReference : Shape → Bool
  | .named _ | .unresolved _ => true
  | _ => false

/-- The references in a shape at any depth, those of skipped members included. -/
def Shape.references (t : Shape) : List Shape :=
  t.nodes.filter Shape.isReference

/-- The references in the type of a constant or in the body of a type. -/
def Item.references : Item → List Shape
  | .type decl => decl.body.references
  | .const decl => decl.type.references
  | .emit _ => []

theorem Shape.references_record (members : List (Member Shape)) :
    (Shape.record members).references = members.flatMap fun m => m.type.references := by
  rw [references, nodes_record, List.filter_cons, List.filter_flatMap]
  rfl

theorem Shape.references_map (key value : Shape) :
    (Shape.map key value).references = key.references ++ value.references := by
  rw [references, nodes, List.filter_cons, List.filter_append]
  rfl

theorem Shape.references_sequence (elem : Shape) :
    (Shape.sequence elem).references = elem.references := rfl

theorem Shape.references_pointer (inner : Shape) :
    (Shape.pointer inner).references = inner.references := rfl

namespace Package

/-! ## References of Go types -/

/-- A field becomes a member when its name, or that of the type that it embeds, is exported, and its
tag does not make it a parent. -/
def Field.isMember (f : Field TypeExpr) : Bool :=
  let name := f.name.or ((Resolution.embedded? f.type).map (·.name))
  let tag := f.tag.bind fun raw => (Tag.read raw).toOption
  name.any isExported && !Resolution.has (tag.bind (·.get? "tstype")) "extends"

mutual

/-- The references in a type at any depth, without those of fields that are no members and of what
never goes over the wire. A basic type that is not predeclared is one too. -/
def TypeExpr.references : TypeExpr → List TypeExpr
  | .basic name => if (Primitive.ofName? name).isSome then [] else [.basic name]
  | .named package name => [.named package name]
  | .pointer elem => elem.references
  | .slice elem => elem.references
  | .array elem _ => elem.references
  | .map key value => key.references ++ value.references
  | .struct fields => TypeExpr.referencesOfFields fields
  | .interface _ _ | .func | .chan _ => []
termination_by structural e => e

/-- The references in the types of fields, in order. -/
def TypeExpr.referencesOfFields : List (Field TypeExpr) → List TypeExpr
  | [] => []
  | f :: rest => TypeExpr.referencesOfField f ++ TypeExpr.referencesOfFields rest
termination_by structural fields => fields

/-- The references in the type of a field that becomes a member. -/
def TypeExpr.referencesOfField : Field TypeExpr → List TypeExpr
  | ⟨type, name, tag, doc, comment⟩ =>
    if Field.isMember ⟨type, name, tag, doc, comment⟩ then type.references else []
termination_by structural f => f

end

theorem TypeExpr.referencesOfField_eq (f : Field TypeExpr) :
    referencesOfField f = if f.isMember then f.type.references else [] := by
  cases f
  rfl

/-- The references in the type of a constant or in a declared type. -/
def Decl.references : Decl → List TypeExpr
  | .type spec => spec.underlying.references
  | .const spec => (spec.type.map TypeExpr.references).getD []
  | .emit _ => []

/-- The declarations that are kept: those with exported names, and copied text. -/
def Decl.isKept : Decl → Bool
  | .type spec => isExported spec.name
  | .const spec => isExported spec.name
  | .emit _ => true

end Package

/-! ## Answers -/

namespace Package

/-- One of the files of a package declares a type of that name, and the name is exported. -/
def DeclaresType (p : Package) (name : String) : Prop :=
  isExported name ∧ ∃ file ∈ p.files, ∃ spec, .type spec ∈ file.decls ∧ spec.name = name

/-- What a reference becomes in a package. A name without a package, or with that of the package at
hand, is looked up in all files; one of another package is spelled in full. -/
inductive Answers (p : Package) : TypeExpr → Shape → Prop
  | declared {package : Option String} {name : String}
      (here : package = none ∨ package = some p.name) (h : p.DeclaresType name) :
      Answers p (.named package name) (.named name)
  | undeclared {package : Option String} {name : String}
      (here : package = none ∨ package = some p.name) (h : ¬p.DeclaresType name) :
      Answers p (.named package name) (.unresolved name)
  | foreign {package name : String} (h : package ≠ p.name) :
      Answers p (.named (some package) name) (.unresolved (package ++ "." ++ name))
  | basic {name : String} (h : Primitive.ofName? name = none) :
      Answers p (.basic name) (.unresolved name)

/-- An item is what a declaration becomes: it has the declaration's name, and the references of the
declaration are answered in order. -/
structure Yields (p : Package) (d : Decl) (item : Item) : Prop where
  name : item.declared?.map Prod.fst = Resolution.exportedName? d
  references : List.Forall₂ p.Answers d.references item.references

end Package

namespace Resolution

variable {p : Package} {decl : String}

theorem mem_exported {name : String} :
    name ∈ (Scope.ofPackage p).exported ↔ p.DeclaresType name := by
  simp only [Scope.ofPackage, List.mem_flatMap, List.mem_filterMap]
  constructor
  · rintro ⟨file, hfile, d, hd, hname⟩
    cases d with
    | type spec =>
      simp only [exportedType?, Option.ite_none_right_eq_some, Option.some.injEq] at hname
      obtain ⟨hexp, rfl⟩ := hname
      exact ⟨hexp, file, hfile, spec, hd, rfl⟩
    | const spec => cases hname
    | emit text => cases hname
  · rintro ⟨hexp, file, hfile, spec, hd, rfl⟩
    exact ⟨file, hfile, .type spec, hd, by simp [exportedType?, hexp]⟩

theorem reference_answers (package : Option String) (name : String) :
    p.Answers (.named package name) ((Scope.ofPackage p).reference package name) := by
  have hlocal (here : package = none ∨ package = some p.name)
      (hforeign : (Scope.ofPackage p).foreign? package = none) :
      p.Answers (.named package name) ((Scope.ofPackage p).reference package name) := by
    simp only [Scope.reference, Scope.spelling, hforeign, Option.isNone_none, Bool.true_and]
    split
    · rename_i hc
      exact .declared here (mem_exported.1 (List.contains_iff_mem.1 hc))
    · rename_i hc
      exact .undeclared here fun h => hc (List.contains_iff_mem.2 (mem_exported.2 h))
  cases package with
  | none => exact hlocal (.inl rfl) rfl
  | some package =>
    by_cases hp : package = p.name
    · exact hlocal (.inr (congrArg some hp)) (by simp [Scope.foreign?, Scope.ofPackage, hp])
    · have hforeign : (Scope.ofPackage p).foreign? (some package) = some package := by
        simp [Scope.foreign?, Scope.ofPackage, hp]
      simp only [Scope.reference, Scope.spelling, hforeign, Option.isNone_some, Bool.false_and]
      exact .foreign hp

/-! ## Fields -/

theorem fieldName_eq_ok {type : Package.TypeExpr} {name : Option String} {goName : String}
    {embeds : Option Embedded} (h : fieldName decl type name = .ok (goName, embeds)) :
    name.or ((embedded? type).map (·.name)) = some goName := by
  unfold fieldName at h
  split at h
  · cases h
    rfl
  · split at h
    · rename_i e he
      cases h
      rw [he]
      rfl
    · cases h

theorem fieldTag_eq_ok {field : String} {raw : Option String} {tag : Package.Tag}
    (h : fieldTag decl field raw = .ok tag) (key : String) :
    (raw.bind fun raw => (Package.Tag.read raw).toOption).bind (·.get? key) = tag.get? key := by
  unfold fieldTag at h
  split at h
  · cases h
    rfl
  · rename_i raw
    split at h
    · rename_i read hread
      cases h
      simp [hread, Except.toOption]
    · cases h

/-- Whether a field with a readable tag is a member. -/
theorem isMember_eq {f : Package.Field Package.TypeExpr} {goName : String}
    {embeds : Option Embedded} {tag : Package.Tag}
    (hname : fieldName decl f.type f.name = .ok (goName, embeds))
    (htag : fieldTag decl goName f.tag = .ok tag) :
    f.isMember = (Package.isExported goName && !has (tag.get? "tstype") "extends") := by
  simp only [Package.Field.isMember, fieldName_eq_ok hname, fieldTag_eq_ok htag, Option.any_some]

/-- A field that resolves becomes a member with the shape of its type exactly when it is one. -/
theorem outcome_member_iff {s : Scope} {f : Package.Field Package.TypeExpr} {o : Outcome}
    (h : outcome s decl f = .ok o) :
    (f.isMember ∧ ∃ m, o = .member m ∧ shape s decl f.type = .ok m.type) ∨
      (f.isMember = false ∧ ∀ m, o ≠ .member m) := by
  obtain ⟨goName, embeds, tag, hname, htag, hcases⟩ := outcome_cases h
  rw [isMember_eq hname htag]
  obtain ⟨e, -, hparent, rfl⟩ | ⟨-, hparent, rfl⟩ | ⟨-, hexp, rfl⟩ |
    ⟨hparent, hexp, type, htype, rfl⟩ := hcases
  · exact .inr ⟨by simp [hparent], fun _ h => nomatch h⟩
  · exact .inr ⟨by simp [hparent], fun _ h => nomatch h⟩
  · exact .inr ⟨by simpa using fun he => absurd he (by simpa using hexp), fun _ h => nomatch h⟩
  · exact .inl ⟨by simpa [hexp] using hparent, _, rfl, htype⟩

/-! ## Types -/

/-- What is answered in the types of fields is answered in the members that they become. -/
theorem outcomes_answer {fields : List (Package.Field Package.TypeExpr)} {found : List Outcome}
    (ih : ∀ f ∈ fields, ∀ t, shape (.ofPackage p) decl f.type = .ok t →
      List.Forall₂ p.Answers f.type.references t.references)
    (h : outcomes (.ofPackage p) decl fields = .ok found) :
    List.Forall₂ p.Answers (Package.TypeExpr.referencesOfFields fields)
      ((members found).flatMap fun m => m.type.references) := by
  induction fields generalizing found with
  | nil =>
    cases h
    exact .nil
  | cons f rest ihrest =>
    obtain ⟨first, hfirst, h⟩ := bind_eq_ok.1 h
    obtain ⟨more, hmore, h⟩ := bind_eq_ok.1 h
    cases h
    have hrest := ihrest (fun f hf => ih f (List.mem_cons_of_mem _ hf)) hmore
    rw [Package.TypeExpr.referencesOfFields, Package.TypeExpr.referencesOfField_eq]
    obtain ⟨hm, m, rfl, htype⟩ | ⟨hm, hnot⟩ := outcome_member_iff hfirst
    · rw [if_pos hm]
      exact List.rel_append (ih f List.mem_cons_self _ htype) hrest
    · rw [if_neg (by simp [hm])]
      cases first with
      | member m => exact absurd rfl (hnot m)
      | parent _ => exact hrest
      | dropped => exact hrest

/-- The references of a type become those of its shape. -/
theorem shape_answers {e : Package.TypeExpr} {t : Shape}
    (h : shape (.ofPackage p) decl e = .ok t) :
    List.Forall₂ p.Answers e.references t.references := by
  induction e generalizing t with
  | basic name =>
    rw [shape] at h
    split at h
    · cases h
    · split at h
      · rename_i q hq
        cases h
        simp [Package.TypeExpr.references, hq, Shape.references, Shape.nodes, Shape.isReference]
      · rename_i hq
        cases h
        rw [Package.TypeExpr.references, hq]
        exact .cons (.basic hq) .nil
  | named package name =>
    rw [shape] at h
    split at h
    · cases h
    · cases h
      have hr : ((Scope.ofPackage p).reference package name).references =
          [(Scope.ofPackage p).reference package name] := by
        unfold Scope.reference
        split
        · rfl
        · rfl
      rw [Package.TypeExpr.references, hr]
      exact .cons (reference_answers package name) .nil
  | pointer elem ih =>
    rw [shape] at h
    obtain ⟨t, ht, h⟩ := bind_eq_ok.1 h
    cases h
    rw [Package.TypeExpr.references, Shape.references_pointer]
    exact ih ht
  | slice elem ih =>
    rw [shape] at h
    obtain ⟨t, ht, h⟩ := bind_eq_ok.1 h
    cases h
    rw [Package.TypeExpr.references, Shape.references_sequence]
    exact ih ht
  | array elem _ ih =>
    rw [shape] at h
    obtain ⟨t, ht, h⟩ := bind_eq_ok.1 h
    cases h
    rw [Package.TypeExpr.references, Shape.references_sequence]
    exact ih ht
  | map key value ihk ihv =>
    rw [shape] at h
    obtain ⟨k, hk, h⟩ := bind_eq_ok.1 h
    obtain ⟨v, hv, h⟩ := bind_eq_ok.1 h
    cases h
    rw [Package.TypeExpr.references, Shape.references_map]
    exact List.rel_append (ihk hk) (ihv hv)
  | struct fields ih =>
    rw [shape] at h
    obtain ⟨found, hfound, h⟩ := bind_eq_ok.1 h
    cases h
    rw [Package.TypeExpr.references, Shape.references_record]
    exact outcomes_answer (fun f hf t ht => ih f hf ht) hfound
  | interface =>
    rw [shape] at h
    cases h
    exact .nil
  | func =>
    rw [shape] at h
    cases h
    exact .nil
  | chan =>
    rw [shape] at h
    cases h
    exact .nil

/-! ## Declarations -/

theorem typeDecl_answers {location : Location} {spec : Package.TypeSpec} {d : TypeDecl}
    (h : typeDecl (.ofPackage p) location spec = .ok d) :
    List.Forall₂ p.Answers spec.underlying.references d.body.references := by
  unfold typeDecl at h
  split at h
  · rename_i fields hu
    obtain ⟨found, hfound, h⟩ := bind_eq_ok.1 h
    cases h
    rw [hu]
    exact shape_answers (e := .struct fields) (by rw [shape]; exact bind_eq_ok.2 ⟨_, hfound, rfl⟩)
  · rename_i hu
    rw [hu]
    split at h
    · cases h
      exact .nil
    · cases h
      exact .nil
  · obtain ⟨body, hbody, h⟩ := bind_eq_ok.1 h
    cases h
    exact shape_answers hbody

theorem constDecl_answers {location : Location} {spec : Package.ConstSpec} {d : ConstDecl}
    (h : constDecl (.ofPackage p) location spec = .ok d) :
    List.Forall₂ p.Answers (Package.Decl.const spec).references d.type.references := by
  unfold constDecl constType at h
  obtain ⟨type, htype, h⟩ := bind_eq_ok.1 h
  cases h
  rw [Package.Decl.references]
  split at htype
  · rename_i hnone
    cases htype
    rw [hnone]
    exact .nil
  · rename_i written hsome
    obtain ⟨type', htype', htype⟩ := bind_eq_ok.1 htype
    split at htype
    · cases htype
    · cases htype
      rw [hsome]
      exact shape_answers htype'

/-- A declaration that is kept becomes an item, and one that is not becomes none. -/
theorem item?_yields {file : String} {index : Nat} {d : Package.Decl} {r : Option Item}
    (h : item? (.ofPackage p) file index d = .ok r) :
    (d.isKept ∧ ∃ item, r = some item ∧ p.Yields d item) ∨ (d.isKept = false ∧ r = none) := by
  cases d with
  | type spec =>
    cases hexp : Package.isExported spec.name with
    | false =>
      simp only [item?, hexp] at h
      cases h
      exact .inr ⟨hexp, rfl⟩
    | true =>
      have hitem := h
      simp only [item?, hexp] at h
      obtain ⟨decl, hdecl, h⟩ := bind_eq_ok.1 h
      cases h
      exact .inl ⟨hexp, _, rfl, (item?_resolved hitem).2, typeDecl_answers hdecl⟩
  | const spec =>
    cases hexp : Package.isExported spec.name with
    | false =>
      simp only [item?, hexp] at h
      cases h
      exact .inr ⟨hexp, rfl⟩
    | true =>
      have hitem := h
      simp only [item?, hexp] at h
      obtain ⟨decl, hdecl, h⟩ := bind_eq_ok.1 h
      cases h
      exact .inl ⟨hexp, _, rfl, (item?_resolved hitem).2, constDecl_answers hdecl⟩
  | emit text =>
    cases h
    exact .inl ⟨rfl, _, rfl, rfl, .nil⟩

theorem items_yield {file : String} {decls : List Package.Decl} {index : Nat} {found : List Item}
    (h : items (.ofPackage p) file index decls = .ok found) :
    List.Forall₂ p.Yields (decls.filter Package.Decl.isKept) found := by
  induction decls generalizing index found with
  | nil =>
    cases h
    exact .nil
  | cons d rest ih =>
    obtain ⟨first, hfirst, h⟩ := bind_eq_ok.1 h
    obtain ⟨more, hmore, h⟩ := bind_eq_ok.1 h
    cases h
    rw [List.filter_cons]
    obtain ⟨hkept, item, rfl, hitem⟩ | ⟨hkept, rfl⟩ := item?_yields hfirst
    · rw [if_pos hkept]
      exact .cons hitem (ih hmore)
    · rw [if_neg (by simp [hkept])]
      exact ih hmore

/-! ## Packages -/

/-- A reference that is answered in an item leads to an exported type of the package. -/
theorem declaresType_of_named {d : Package.Decl} {item : Item} (h : p.Yields d item) {name : String}
    (hname : .named name ∈ item.references) : p.DeclaresType name := by
  obtain ⟨e, -, he⟩ := exists_of_forall₂ h.references.flip hname
  cases he with
  | declared _ h => exact h

/-- The declarations that are kept become the items of the sections, file by file and in order, with
every reference answered by what all files of the package declare; and every reference that leads
to a declaration leads to a type that one of the sections declares. -/
theorem references_answered {sections : List Section} (h : packageSections p = .ok sections) :
    List.Forall₂
      (fun file s => List.Forall₂ p.Yields (file.decls.filter Package.Decl.isKept) s.items)
      p.files sections ∧
    ∀ s ∈ sections, ∀ item ∈ s.items, ∀ name, .named name ∈ item.references →
      ∃ s' ∈ sections, ∃ d, .type d ∈ s'.items ∧ d.name = name := by
  have hyields := (mapM_eq_ok.1 h).imp fun _ _ hfile => items_yield (fileSection_eq_ok hfile).2
  refine ⟨hyields, fun s hs item hitem name hname => ?_⟩
  obtain ⟨file, -, hfile⟩ := exists_of_forall₂ hyields.flip hs
  obtain ⟨d, -, hd⟩ := exists_of_forall₂ hfile.flip hitem
  exact exists_typeDecl_of_exported h (mem_exported.2 (declaresType_of_named hd hname))

/-- The type `User`, with references to a type of its own package, to one of another package and to
one that is not exported, and a field that is no member. -/
def userDecl : Package.Decl :=
  let field (name : String) (type : Package.TypeExpr) : Package.Field Package.TypeExpr :=
    { type, name := some name, tag := none, doc := none, comment := none }
  let fields :=
    [field "Teams" (.slice (.named none "Team")), field "Lead" (.pointer (.named "auth" "Team")),
      field "ID" (.named "uuid" "UUID"), field "State" (.named none "state"),
      field "hidden" (.named none "Team")]
  .type ⟨"User", .struct fields, none, none, none⟩

/-- A package whose first file refers to a type of the second. -/
def teamsPackage : Package :=
  { name := "auth"
    files := [⟨"user.go", [userDecl]⟩,
      ⟨"team.go", [.type ⟨"Team", .basic "string", none, none, none⟩]⟩] }

theorem teamsPackage_answered :
    ∃ sections, packageSections teamsPackage = .ok sections ∧
      ∃ s ∈ sections, ∃ item ∈ s.items, .named "Team" ∈ item.references ∧
        ∃ s' ∈ sections, ∃ d, .type d ∈ s'.items ∧ d.name = "Team" := by
  obtain ⟨sections, hsections⟩ : ∃ sections, packageSections teamsPackage = .ok sections :=
    exists_of_isOk (by decide +kernel)
  have hdeclares : teamsPackage.DeclaresType "Team" :=
    ⟨by decide, _, .tail _ (.head _), _, .head _, rfl⟩
  obtain ⟨hyields, hdeclared⟩ := references_answered hsections
  obtain ⟨s, hs, hfile⟩ := exists_of_forall₂ hyields (.head _)
  obtain ⟨item, hitem, hd⟩ := exists_of_forall₂ hfile (x := userDecl) (.head _)
  obtain ⟨t, ht, hanswer⟩ := exists_of_forall₂ hd.references (x := .named none "Team") (.head _)
  refine ⟨sections, hsections, s, hs, item, hitem, ?_⟩
  cases hanswer with
  | declared _ _ => exact ⟨ht, hdeclared s hs item hitem "Team" ht⟩
  | undeclared _ hnot => exact absurd hdeclares hnot

end Resolution

end WireTypes
