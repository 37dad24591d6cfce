import WireTypes.Code.Emit
import WireTypes.Proofs.References
import WireTypes.Proofs.RepeatedNames

/-!
# Types with and without a name

Resolution refuses a type without a name wherever a reference goes over the wire, but not where an
embedded type becomes a parent. `Package.references` and `Package.parents` list both kinds of
places.

* `outcome_parent_iff`: only the fields that `Field.parent?` describes become parents.
* `shape_hasName`: all references of a type that resolves have names.
* `malformed_of_readable`: where all tags can be read and no file declares a name twice, the only
  errors are malformed declarations.
* `typeNames_of_packageSections`: what has a name in the sections of a package comes from a type
  with a name, parents apart; a reference without a name makes the package malformed.
-/

set_option autoImplicit false

namespace WireTypes

/-! ## Names -/

namespace Package

/-- A type that is given by its name, and the name is not empty. -/
def TypeExpr.hasName : TypeExpr → Bool
  | .basic name | .named _ name => !name.isEmpty
  | _ => false

/-- The type that a field puts into the `extends` clause: what it embeds, if its tag says so. -/
def Field.parent? (f : Field TypeExpr) : Option TypeExpr :=
  let tag := f.tag.bind fun raw => (Tag.read raw).toOption
  if f.name.isNone && Resolution.has (tag.bind (·.get? "tstype")) "extends" then
    (Resolution.embedded? f.type).map fun e => .named e.package e.name
  else none

/-- The types that a declared struct extends. -/
def Decl.parents : Decl → List TypeExpr
  | .type spec =>
    match spec.underlying with
    | .struct fields => fields.filterMap Field.parent?
    | _ => []
  | .const _ | .emit _ => []

/-- The references that go over the wire, in the declarations that are kept. -/
def references (p : Package) : List TypeExpr :=
  p.files.flatMap fun file => (file.decls.filter Decl.isKept).flatMap Decl.references

/-- The types that the declarations that are kept extend. -/
def parents (p : Package) : List TypeExpr :=
  p.files.flatMap fun file => (file.decls.filter Decl.isKept).flatMap Decl.parents

/-- How the name of a parent is spelled in a package. Whether the package declares it is not asked,
nor whether it has a name. -/
inductive Extends (p : Package) : TypeExpr → Parent → Prop
  | here {package : Option String} {name : String} {partly : Bool}
      (h : package = none ∨ package = some p.name) :
      Extends p (.named package name) ⟨name, partly⟩
  | foreign {package name : String} {partly : Bool} (h : package ≠ p.name) :
      Extends p (.named (some package) name) ⟨package ++ "." ++ name, partly⟩

end Package

/-- The parents of a declared type. -/
def Item.parents : Item → List Parent
  | .type decl => decl.heritage
  | .const _ | .emit _ => []

namespace Package

/-- Where the names in an item come from: those of its references from types with a name, those of
its parents from embedded types. -/
structure Sources (p : Package) (d : Decl) (item : Item) : Prop where
  references : List.Forall₂ (fun e t => e.hasName ∧ p.Answers e t) d.references item.references
  parents : List.Forall₂ p.Extends d.parents item.parents

/-! ## Tags -/

mutual

/-- The tags that are read for a type: those of the fields of structs at any depth. In the type of a
field that is no member nothing is read. -/
def TypeExpr.tags : TypeExpr → List String
  | .pointer elem => elem.tags
  | .slice elem => elem.tags
  | .array elem _ => elem.tags
  | .map key value => key.tags ++ value.tags
  | .struct fields => TypeExpr.tagsOfFields fields
  | .basic _ | .named _ _ | .interface _ _ | .func | .chan _ => []
termination_by structural e => e

/-- The tags of fields and of their types. -/
def TypeExpr.tagsOfFields : List (Field TypeExpr) → List String
  | [] => []
  | f :: rest => TypeExpr.tagsOfField f ++ TypeExpr.tagsOfFields rest
termination_by structural fields => fields

/-- The tag of a field, and those of its type if it becomes a member. -/
def TypeExpr.tagsOfField : Field TypeExpr → List String
  | ⟨type, name, tag, doc, comment⟩ =>
    tag.toList ++ if Field.isMember ⟨type, name, tag, doc, comment⟩ then type.tags else []
termination_by structural f => f

end

theorem TypeExpr.tagsOfFields_eq (fields : List (Field TypeExpr)) :
    tagsOfFields fields = fields.flatMap tagsOfField := by
  induction fields with
  | nil => rfl
  | cons f rest ih => rw [tagsOfFields, ih, List.flatMap_cons]

theorem TypeExpr.tagsOfField_eq (f : Field TypeExpr) :
    tagsOfField f = f.tag.toList ++ if f.isMember then f.type.tags else [] := by
  cases f
  rfl

/-- The tags that are read for a declaration. -/
def Decl.tags : Decl → List String
  | .type spec => spec.underlying.tags
  | .const spec => (spec.type.map TypeExpr.tags).getD []
  | .emit _ => []

/-- All tags that are read for a package can be read. -/
def HasReadableTags (p : Package) : Prop :=
  ∀ file ∈ p.files, ∀ d ∈ file.decls.filter Decl.isKept, ∀ raw ∈ d.tags, (Tag.read raw).isOk

/-- No file of a package declares an exported name twice. -/
def DeclaresOnce (p : Package) : Prop :=
  ∀ file ∈ p.files, (file.decls.filterMap Resolution.exportedName?).Nodup

end Package

namespace Resolution

variable {p : Package} {s : Scope} {decl : String}

/-! ## Parents -/

theorem spelling_extends (e : Embedded) (partly : Bool) :
    p.Extends (.named e.package e.name)
      ⟨(Scope.ofPackage p).spelling e.package e.name, partly⟩ := by
  obtain ⟨package, name, pointer⟩ := e
  cases package with
  | none => exact .here (.inl rfl)
  | some package =>
    by_cases h : package = p.name
    · simp only [Scope.spelling, Scope.foreign?, Scope.ofPackage, h, Option.filter_some]
      simpa using Package.Extends.here (.inr rfl)
    · simp only [Scope.spelling, Scope.foreign?, Scope.ofPackage, Option.filter_some]
      simpa [h] using Package.Extends.foreign h

/-- What a field without a name of its own embeds. -/
theorem embeds_eq {type : Package.TypeExpr} {name : Option String} {goName : String}
    {embeds : Option Embedded} (h : fieldName decl type name = .ok (goName, embeds)) :
    embeds = if name.isNone then embedded? type else none := by
  unfold fieldName at h
  split at h
  · cases h
    rfl
  · split at h
    · rename_i e he
      cases h
      simp [he]
    · cases h

/-- A field that resolves becomes a parent exactly when it is one, whatever the name. -/
theorem outcome_parent_iff {f : Package.Field Package.TypeExpr} {o : Outcome}
    (h : outcome (.ofPackage p) decl f = .ok o) :
    (∃ e P, f.parent? = some e ∧ o = .parent P ∧ p.Extends e P) ∨
      (f.parent? = none ∧ ∀ P, o ≠ .parent P) := by
  obtain ⟨goName, embeds, tag, hname, htag, hcases⟩ := outcome_cases h
  have hparent : f.parent? = if has (tag.get? "tstype") "extends" then
      embeds.map fun e => .named e.package e.name else none := by
    simp only [Package.Field.parent?, embeds_eq hname, fieldTag_eq_ok htag]
    cases f.name <;> simp
  rw [hparent]
  obtain ⟨e, rfl, hext, rfl⟩ | ⟨rfl, -, rfl⟩ | ⟨hext, -, rfl⟩ | ⟨hext, -, type, -, rfl⟩ := hcases
  · refine .inl ⟨.named e.package e.name, _, ?_, rfl, spelling_extends e _⟩
    simp [hext]
  · exact .inr ⟨by simp, fun _ h => nomatch h⟩
  · exact .inr ⟨by simp_all, fun _ h => nomatch h⟩
  · exact .inr ⟨by simp_all, fun _ h => nomatch h⟩

theorem parents_extend {fields : List (Package.Field Package.TypeExpr)} {found : List Outcome}
    (h : outcomes (.ofPackage p) decl fields = .ok found) :
    List.Forall₂ p.Extends (fields.filterMap Package.Field.parent?) (parents found) := by
  induction fields generalizing found with
  | nil =>
    cases h
    exact .nil
  | cons f rest ih =>
    obtain ⟨first, hfirst, h⟩ := bind_eq_ok.1 h
    obtain ⟨more, hmore, h⟩ := bind_eq_ok.1 h
    cases h
    rw [List.filterMap_cons]
    obtain ⟨e, P, hparent, rfl, hext⟩ | ⟨hparent, hnot⟩ := outcome_parent_iff hfirst
    · rw [hparent]
      exact .cons hext (ih hmore)
    · rw [hparent]
      have hrest := ih hmore
      cases first with
      | parent P => exact absurd rfl (hnot P)
      | member _ => exact hrest
      | dropped => exact hrest

/-! ## References -/

theorem outcomes_hasName {fields : List (Package.Field Package.TypeExpr)} {found : List Outcome}
    (ih : ∀ f ∈ fields, ∀ t, shape s decl f.type = .ok t → ∀ e ∈ f.type.references, e.hasName)
    (h : outcomes s decl fields = .ok found) :
    ∀ e ∈ Package.TypeExpr.referencesOfFields fields, e.hasName := by
  induction fields generalizing found with
  | nil => exact fun _ h => nomatch h
  | cons f rest ihrest =>
    obtain ⟨first, hfirst, h⟩ := bind_eq_ok.1 h
    obtain ⟨more, hmore, -⟩ := bind_eq_ok.1 h
    rw [Package.TypeExpr.referencesOfFields, Package.TypeExpr.referencesOfField_eq,
      List.forall_mem_append]
    refine ⟨?_, ihrest (fun f hf => ih f (List.mem_cons_of_mem _ hf)) hmore⟩
    obtain ⟨hm, m, -, htype⟩ | ⟨hm, -⟩ := outcome_member_iff hfirst
    · rw [if_pos hm]
      exact ih f List.mem_cons_self _ htype
    · simp [hm]

/-- The references of a type that resolves have names. -/
theorem shape_hasName {e : Package.TypeExpr} {t : Shape} (h : shape s decl e = .ok t) :
    ∀ r ∈ e.references, r.hasName := by
  induction e generalizing t with
  | basic name =>
    rw [shape] at h
    split at h
    · cases h
    · rename_i hne
      rw [Package.TypeExpr.references]
      split
      · simp
      · simpa [Package.TypeExpr.hasName] using hne
  | named package name =>
    rw [shape] at h
    split at h
    · cases h
    · rename_i hne
      simpa [Package.TypeExpr.references, Package.TypeExpr.hasName] using hne
  | pointer elem ih =>
    rw [shape] at h
    obtain ⟨t, ht, -⟩ := bind_eq_ok.1 h
    rw [Package.TypeExpr.references]
    exact ih ht
  | slice elem ih =>
    rw [shape] at h
    obtain ⟨t, ht, -⟩ := bind_eq_ok.1 h
    rw [Package.TypeExpr.references]
    exact ih ht
  | array elem _ ih =>
    rw [shape] at h
    obtain ⟨t, ht, -⟩ := bind_eq_ok.1 h
    rw [Package.TypeExpr.references]
    exact ih ht
  | map key value ihk ihv =>
    rw [shape] at h
    obtain ⟨k, hk, h⟩ := bind_eq_ok.1 h
    obtain ⟨v, hv, -⟩ := bind_eq_ok.1 h
    rw [Package.TypeExpr.references, List.forall_mem_append]
    exact ⟨ihk hk, ihv hv⟩
  | struct fields ih =>
    rw [shape] at h
    obtain ⟨found, hfound, -⟩ := bind_eq_ok.1 h
    rw [Package.TypeExpr.references]
    exact outcomes_hasName (fun f hf t ht => ih f hf ht) hfound
  | interface => simp [Package.TypeExpr.references]
  | func => simp [Package.TypeExpr.references]
  | chan => simp [Package.TypeExpr.references]

/-! ## Declarations -/

theorem shape_struct {fields : List (Package.Field Package.TypeExpr)} {found : List Outcome}
    (h : outcomes s decl fields = .ok found) :
    shape s decl (.struct fields) = .ok (.record (members found)) := by
  rw [shape, h]
  rfl

theorem typeDecl_sources {location : Location} {spec : Package.TypeSpec} {d : TypeDecl}
    (h : typeDecl (.ofPackage p) location spec = .ok d) :
    (∀ e ∈ spec.underlying.references, e.hasName) ∧
      List.Forall₂ p.Extends (Package.Decl.type spec).parents d.heritage := by
  unfold typeDecl at h
  rw [Package.Decl.parents]
  split at h
  · rename_i fields hu
    obtain ⟨found, hfound, h⟩ := bind_eq_ok.1 h
    cases h
    rw [hu]
    exact ⟨shape_hasName (shape_struct hfound), parents_extend hfound⟩
  · rename_i hu
    rw [hu]
    refine ⟨by simp [Package.TypeExpr.references], ?_⟩
    split at h
    · cases h
      exact .nil
    · cases h
      exact .nil
  · rename_i hstruct _
    obtain ⟨body, hbody, h⟩ := bind_eq_ok.1 h
    cases h
    refine ⟨shape_hasName hbody, ?_⟩
    split
    · rename_i hu
      exact absurd hu (hstruct _)
    · exact .nil

theorem constDecl_hasName {location : Location} {spec : Package.ConstSpec} {d : ConstDecl}
    (h : constDecl s location spec = .ok d) :
    ∀ e ∈ (Package.Decl.const spec).references, e.hasName := by
  unfold constDecl constType at h
  obtain ⟨type, htype, -⟩ := bind_eq_ok.1 h
  rw [Package.Decl.references]
  split at htype
  · rename_i hnone
    simp [hnone]
  · rename_i hsome
    obtain ⟨type', htype', -⟩ := bind_eq_ok.1 htype
    rw [hsome]
    exact shape_hasName htype'

/-- References are answered, and their types have names. -/
theorem sources_of {d : Package.Decl} {item : Item} (hanswers : p.Yields d item)
    (hnames : ∀ e ∈ d.references, e.hasName)
    (hparents : List.Forall₂ p.Extends d.parents item.parents) : p.Sources d item := by
  refine ⟨?_, hparents⟩
  have hrefs := hanswers.references
  generalize d.references = es at hnames hrefs
  generalize item.references = ts at hrefs
  induction hrefs with
  | nil => exact .nil
  | cons he _ ih =>
    rw [List.forall_mem_cons] at hnames
    exact .cons ⟨hnames.1, he⟩ (ih hnames.2)

/-- A declaration that is kept becomes an item with names from types that have names. -/
theorem item?_sources {file : String} {index : Nat} {d : Package.Decl} {item : Item}
    (h : item? (.ofPackage p) file index d = .ok (some item)) : p.Sources d item := by
  obtain ⟨-, item', hitem, hanswers⟩ | ⟨-, hnone⟩ := item?_yields h
  · cases hitem
    cases d with
    | type spec =>
      simp only [item?] at h
      split at h
      · obtain ⟨decl, hdecl, h⟩ := bind_eq_ok.1 h
        cases h
        obtain ⟨hnames, hparents⟩ := typeDecl_sources hdecl
        exact sources_of hanswers hnames hparents
      · cases h
    | const spec =>
      simp only [item?] at h
      split at h
      · obtain ⟨decl, hdecl, h⟩ := bind_eq_ok.1 h
        cases h
        exact sources_of hanswers (constDecl_hasName hdecl) .nil
      · cases h
    | emit text =>
      cases h
      exact sources_of hanswers (by simp [Package.Decl.references]) .nil
  · cases hnone

theorem items_sources {file : String} {decls : List Package.Decl} {index : Nat} {found : List Item}
    (h : items (.ofPackage p) file index decls = .ok found) :
    List.Forall₂ p.Sources (decls.filter Package.Decl.isKept) found := by
  induction decls generalizing index found with
  | nil =>
    cases h
    exact .nil
  | cons d rest ih =>
    obtain ⟨first, hfirst, h⟩ := bind_eq_ok.1 h
    obtain ⟨more, hmore, h⟩ := bind_eq_ok.1 h
    cases h
    rw [List.filter_cons]
    obtain ⟨hkept, item, rfl, -⟩ | ⟨hkept, rfl⟩ := item?_yields hfirst
    · rw [if_pos hkept]
      exact .cons (item?_sources hfirst) (ih hmore)
    · rw [if_neg (by simp [hkept])]
      exact ih hmore

/-! ## Faults -/

/-- The error says that a declaration is malformed. -/
def IsMalformed (err : Error) : Prop := ∃ decl reason, err = .malformedDeclaration decl reason

theorem fieldName_malformed (type : Package.TypeExpr) (name : Option String) :
    FailsWith IsMalformed (fieldName decl type name) := by
  unfold fieldName
  split
  · exact .pure _
  · split
    · exact .pure _
    · exact .throw ⟨_, _, rfl⟩

theorem exists_fieldTag {field : String} {raw : Option String}
    (h : ∀ text ∈ raw, (Package.Tag.read text).isOk) :
    ∃ tag, fieldTag decl field raw = .ok tag := by
  cases raw with
  | none => exact ⟨_, rfl⟩
  | some text =>
    obtain ⟨tag, htag⟩ := exists_of_isOk (h text rfl)
    exact ⟨tag, by simp only [fieldTag, htag]; rfl⟩

theorem outcome_malformed {f : Package.Field Package.TypeExpr}
    (hraw : ∀ text ∈ f.tag, (Package.Tag.read text).isOk)
    (htype : f.isMember → FailsWith IsMalformed (shape s decl f.type)) :
    FailsWith IsMalformed (outcome s decl f) := by
  obtain ⟨type, name, raw, doc, comment⟩ := f
  rw [outcome]
  refine (fieldName_malformed type name).bind fun found hname => ?_
  obtain ⟨goName, embeds⟩ := found
  refine (FailsWith.of_ok (exists_fieldTag hraw)).bind fun tag htag => ?_
  have hmember := isMember_eq (f := ⟨type, name, raw, doc, comment⟩) hname htag
  cases hext : has (tag.get? "tstype") "extends" with
  | true =>
    simp only [hext]
    cases embeds with
    | none => exact .pure _
    | some e => exact .pure _
  | false =>
    simp only [hext]
    cases hexp : Package.isExported goName with
    | false => exact .pure _
    | true =>
      rw [hexp, hext] at hmember
      exact (htype hmember).bind fun _ _ => .pure _

/-- With readable tags, a type that does not resolve is malformed. -/
theorem shape_malformed {e : Package.TypeExpr} (h : ∀ raw ∈ e.tags, (Package.Tag.read raw).isOk) :
    FailsWith IsMalformed (shape s decl e) := by
  induction e with
  | basic name =>
    rw [shape]
    split
    · exact .throw ⟨_, _, rfl⟩
    · split
      · exact .pure _
      · exact .pure _
  | named package name =>
    rw [shape]
    split
    · exact .throw ⟨_, _, rfl⟩
    · exact .pure _
  | pointer elem ih =>
    rw [shape]
    exact (ih h).bind fun _ _ => .pure _
  | slice elem ih =>
    rw [shape]
    exact (ih h).bind fun _ _ => .pure _
  | array elem _ ih =>
    rw [shape]
    exact (ih h).bind fun _ _ => .pure _
  | map key value ihk ihv =>
    rw [Package.TypeExpr.tags, List.forall_mem_append] at h
    rw [shape]
    exact (ihk h.1).bind fun _ _ => (ihv h.2).bind fun _ _ => .pure _
  | struct fields ih =>
    rw [shape, outcomes_eq_mapM]
    refine (FailsWith.mapM fun f hf => ?_).bind fun _ _ => .pure _
    rw [Package.TypeExpr.tags, Package.TypeExpr.tagsOfFields_eq, List.forall_mem_flatMap] at h
    have hf' := h f hf
    rw [Package.TypeExpr.tagsOfField_eq, List.forall_mem_append] at hf'
    refine outcome_malformed (by simpa using hf'.1) fun hm => ih f hf ?_
    simpa [hm] using hf'.2
  | interface => exact .pure _
  | func => exact .pure _
  | chan => exact .pure _

theorem typeDecl_malformed {location : Location} {spec : Package.TypeSpec}
    (h : ∀ raw ∈ spec.underlying.tags, (Package.Tag.read raw).isOk) :
    FailsWith IsMalformed (typeDecl s location spec) := by
  unfold typeDecl
  split
  · rename_i fields hu
    rw [hu] at h
    have hshape : FailsWith IsMalformed (shape s spec.name (.struct fields)) := shape_malformed h
    rw [shape] at hshape
    exact hshape.of_bind.bind fun _ _ => .pure _
  · split
    · exact .pure _
    · exact .pure _
  · exact (shape_malformed h).bind fun _ _ => .pure _

theorem constDecl_malformed {location : Location} {spec : Package.ConstSpec}
    (h : ∀ raw ∈ (Package.Decl.const spec).tags, (Package.Tag.read raw).isOk) :
    FailsWith IsMalformed (constDecl s location spec) := by
  unfold constDecl constType
  refine FailsWith.bind ?_ fun _ _ => .pure _
  rw [Package.Decl.tags] at h
  split
  · exact .pure _
  · rename_i hsome
    rw [hsome] at h
    refine (shape_malformed h).bind fun _ _ => ?_
    split
    · exact .throw ⟨_, _, rfl⟩
    · exact .pure _

theorem item?_malformed {file : String} {index : Nat} {d : Package.Decl}
    (h : d.isKept → ∀ raw ∈ d.tags, (Package.Tag.read raw).isOk) :
    FailsWith IsMalformed (item? s file index d) := by
  cases d with
  | type spec =>
    rw [item?]
    split
    · rename_i hexp
      exact (typeDecl_malformed (h hexp)).bind fun _ _ => .pure _
    · exact .pure _
  | const spec =>
    rw [item?]
    split
    · rename_i hexp
      exact (constDecl_malformed (h hexp)).bind fun _ _ => .pure _
    · exact .pure _
  | emit text => exact .pure _

theorem items_malformed {file : String} {decls : List Package.Decl} {index : Nat}
    (h : ∀ d ∈ decls.filter Package.Decl.isKept, ∀ raw ∈ d.tags, (Package.Tag.read raw).isOk) :
    FailsWith IsMalformed (items s file index decls) := by
  induction decls generalizing index with
  | nil => exact .pure _
  | cons d rest ih =>
    rw [items]
    refine (item?_malformed fun hkept => ?_).bind fun _ _ => (ih ?_).bind fun _ _ => .pure _
    · exact h d (List.mem_filter.2 ⟨List.mem_cons_self, hkept⟩)
    · intro d' hd'
      refine h d' ?_
      rw [List.filter_cons]
      split
      · exact List.mem_cons_of_mem _ hd'
      · exact hd'

/-! ## Repeated names -/

theorem exportedName?_of_not_kept {d : Package.Decl} (h : d.isKept = false) :
    exportedName? d = none := by
  cases d with
  | type spec => simp_all [Package.Decl.isKept, exportedName?]
  | const spec => simp_all [Package.Decl.isKept, exportedName?]
  | emit text => rfl

/-- The names that the items of a file declare are those of its exported declarations. -/
theorem declarations_names {file : String} {decls : List Package.Decl} {index : Nat}
    {found : List Item} (h : items (.ofPackage p) file index decls = .ok found) :
    (Section.declarations found).map Prod.fst = decls.filterMap exportedName? := by
  induction decls generalizing index found with
  | nil =>
    cases h
    rfl
  | cons d rest ih =>
    obtain ⟨first, hfirst, h⟩ := bind_eq_ok.1 h
    obtain ⟨more, hmore, h⟩ := bind_eq_ok.1 h
    cases h
    have hrest := ih hmore
    obtain ⟨-, item, rfl, hitem⟩ | ⟨hkept, rfl⟩ := item?_yields hfirst
    · rw [List.filterMap_cons, ← hitem.name, ← hrest]
      unfold Section.declarations
      cases hname : item.declared? with
      | none => simp [hname]
      | some d => simp [hname]
    · rw [List.filterMap_cons, exportedName?_of_not_kept hkept]
      exact hrest

/-! ## Packages -/

/-- With readable tags and no name declared twice in a file, a package that does not resolve is
malformed. -/
theorem packageSections_malformed (htags : p.HasReadableTags) (hnames : p.DeclaresOnce) :
    FailsWith IsMalformed (packageSections p) := by
  refine FailsWith.mapM fun file hfile => ?_
  refine (items_malformed (htags file hfile)).bind fun found hfound => ?_
  have hnone : Section.firstRepeated? [] (Section.declarations found) = none := by
    rw [Section.firstRepeated?_nil_eq_none_iff, declarations_names hfound]
    exact hnames file hfile
  unfold Section.ofItems
  rw [hnone]
  exact .pure _

theorem mem_references {e : Package.TypeExpr} :
    e ∈ p.references ↔
      ∃ file ∈ p.files, ∃ d ∈ file.decls.filter Package.Decl.isKept, e ∈ d.references := by
  simp [Package.references]

/-- The names in the sections of a package come from types that have names, those of parents
excepted: all of them do exactly when all parents have names. A reference to a type without a name
makes the package fail, and it is malformed unless a tag cannot be read or a file declares a name
twice. -/
theorem typeNames_of_packageSections (p : Package) :
    (∀ sections, packageSections p = .ok sections →
      List.Forall₂
        (fun file s => List.Forall₂ p.Sources (file.decls.filter Package.Decl.isKept) s.items)
        p.files sections ∧
      ((∀ e ∈ p.references ++ p.parents, e.hasName) ↔ ∀ e ∈ p.parents, e.hasName)) ∧
    ((∃ e ∈ p.references, e.hasName = false) →
      (∃ err, packageSections p = .error err) ∧
      (p.HasReadableTags → p.DeclaresOnce →
        ∃ decl reason, packageSections p = .error (.malformedDeclaration decl reason))) := by
  have hsources : ∀ sections, packageSections p = .ok sections →
      List.Forall₂
        (fun file s => List.Forall₂ p.Sources (file.decls.filter Package.Decl.isKept) s.items)
        p.files sections := fun sections h =>
    (mapM_eq_ok.1 h).imp fun _ _ hfile => items_sources (fileSection_eq_ok hfile).2
  have hnamed : ∀ sections, packageSections p = .ok sections →
      ∀ e ∈ p.references, e.hasName := by
    intro sections h e he
    obtain ⟨file, hfile, d, hd, he⟩ := mem_references.1 he
    obtain ⟨s, -, hs⟩ := exists_of_forall₂ (hsources sections h) hfile
    obtain ⟨item, -, hitem⟩ := exists_of_forall₂ hs hd
    obtain ⟨t, -, ht⟩ := exists_of_forall₂ hitem.references he
    exact ht.1
  refine ⟨fun sections h => ⟨hsources sections h, ?_⟩, ?_⟩
  · rw [List.forall_mem_append]
    exact and_iff_right (hnamed sections h)
  · rintro ⟨e, he, hnameless⟩
    have hfails : ∃ err, packageSections p = .error err := by
      cases h : packageSections p with
      | error err => exact ⟨err, rfl⟩
      | ok sections => simp [hnamed sections h e he] at hnameless
    refine ⟨hfails, fun htags hnames => ?_⟩
    obtain ⟨err, herr⟩ := hfails
    obtain ⟨decl, reason, rfl⟩ := packageSections_malformed htags hnames err herr
    exact ⟨decl, reason, herr⟩

/-- A package with the type `Holder`, which has the given field. -/
def holderOf (f : Package.Field Package.TypeExpr) : Package :=
  { name := "p", files := [⟨"a.go", [.type ⟨"Holder", .struct [f], none, none, none⟩]⟩] }

/-- A field whose type has no name, inside a map of pointers. -/
def namelessField : Package.Field Package.TypeExpr :=
  { type := .map (.basic "string") (.pointer (.named none "")), name := some "F",
    tag := some "json:\"f\"", doc := none, comment := none }

/-- An embedded type without a name that becomes a parent. -/
def namelessParent : Package.Field Package.TypeExpr :=
  { type := .named none "", name := none, tag := some "tstype:\",extends\"", doc := none,
    comment := none }

theorem namelessField_malformed :
    (holderOf namelessField).HasReadableTags ∧ (holderOf namelessField).DeclaresOnce ∧
      (∃ e ∈ (holderOf namelessField).references, e.hasName = false) ∧
      ∃ decl reason,
        packageSections (holderOf namelessField) = .error (.malformedDeclaration decl reason) := by
  have htags : (holderOf namelessField).HasReadableTags := by
    unfold Package.HasReadableTags
    decide +kernel
  have hnames : (holderOf namelessField).DeclaresOnce := by
    unfold Package.DeclaresOnce
    decide +kernel
  have hnameless : ∃ e ∈ (holderOf namelessField).references, e.hasName = false := by
    have hany : (holderOf namelessField).references.any (fun e => !e.hasName) := by decide +kernel
    simpa using hany
  exact ⟨htags, hnames, hnameless,
    ((typeNames_of_packageSections (holderOf namelessField)).2 hnameless).2 htags hnames⟩

/-- Nothing asks for the name of a parent. -/
theorem namelessParent_resolves :
    (∃ sections, packageSections (holderOf namelessParent) = .ok sections) ∧
      (∃ e ∈ (holderOf namelessParent).parents, e.hasName = false) ∧
      ((packageSections (holderOf namelessParent)).bind (Code.generate {})).toOption =
        some ("// Code generated by gots. DO NOT EDIT.\n\n//////////\n// source: a.go\n\n" ++
          "export interface Holder extends  \x7b\n\x7d\n") := by
  refine ⟨exists_of_isOk (by decide +kernel), ?_, by decide +kernel⟩
  have hany : (holderOf namelessParent).parents.any (fun e => !e.hasName) := by decide +kernel
  simpa using hany

end Resolution

end WireTypes
