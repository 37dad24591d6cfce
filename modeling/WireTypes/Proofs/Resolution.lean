import WireTypes.Proofs.Failure
import WireTypes.Proofs.Nodes
import WireTypes.Resolution

/-!
# What resolution guarantees

The invariants of resolved packages:

* `shape_nodes`: every reference in a resolved shape has a name, and one that is answered leads to
  an exported type of the package (`Scope.Answers`).
* `packageSections_resolved`: this holds of all items of all sections; the bodies of interfaces are
  records, and the types of constants are names (`Item.Resolved`).
* `exists_typeDecl_of_exported`: every exported type is declared in one of the sections.
* `declared_exported`: sections declare exported names of the package only.
-/

set_option autoImplicit false

namespace WireTypes.Resolution

variable {s : Scope} {decl : String}

/-! ## Steps -/

theorem outcomes_eq_mapM (fields : List (Package.Field Package.TypeExpr)) :
    outcomes s decl fields = fields.mapM (outcome s decl) := by
  induction fields with
  | nil => rw [outcomes, List.mapM_nil]
  | cons f rest ih => rw [outcomes, List.mapM_cons, ih]

/-- What becomes of a field that resolves. -/
theorem outcome_cases {f : Package.Field Package.TypeExpr} {o : Outcome}
    (h : outcome s decl f = .ok o) :
    ∃ goName embeds tag, fieldName decl f.type f.name = .ok (goName, embeds) ∧
      fieldTag decl goName f.tag = .ok tag ∧
      let asParent := has (tag.get? "tstype") "extends"
      ((∃ e, embeds = some e ∧ asParent ∧
          o = .parent
            { name := s.spelling e.package e.name
              partly := e.pointer && !has (tag.get? "tstype") "required" }) ∨
        (embeds = none ∧ asParent ∧ o = .dropped) ∨
        (!asParent ∧ !Package.isExported goName ∧ o = .dropped) ∨
        (!asParent ∧ Package.isExported goName ∧ ∃ type, shape s decl f.type = .ok type ∧
          o = .member (memberOf goName tag f.doc f.comment type))) := by
  obtain ⟨type, name, raw, doc, comment⟩ := f
  rw [outcome] at h
  obtain ⟨⟨goName, embeds⟩, hname, h⟩ := bind_eq_ok.1 h
  obtain ⟨tag, htag, h⟩ := bind_eq_ok.1 h
  refine ⟨goName, embeds, tag, hname, htag, ?_⟩
  cases hparent : has (tag.get? "tstype") "extends" with
  | true =>
    simp only [hparent] at h
    cases embeds with
    | some e =>
      cases h
      exact .inl ⟨e, rfl, rfl, rfl⟩
    | none =>
      cases h
      exact .inr (.inl ⟨rfl, rfl, rfl⟩)
  | false =>
    simp only [hparent] at h
    cases hexp : Package.isExported goName with
    | false =>
      rw [hexp] at h
      cases h
      exact .inr (.inr (.inl ⟨rfl, rfl, rfl⟩))
    | true =>
      rw [hexp] at h
      obtain ⟨type, htype, h⟩ := bind_eq_ok.1 h
      cases h
      exact .inr (.inr (.inr ⟨rfl, rfl, type, htype, rfl⟩))

/-- The members of a struct have the shapes of fields. -/
theorem exists_field_of_member {fields : List (Package.Field Package.TypeExpr)}
    {found : List Outcome} (h : outcomes s decl fields = .ok found) {m : Member Shape}
    (hm : m ∈ members found) : ∃ f ∈ fields, shape s decl f.type = .ok m.type := by
  rw [outcomes_eq_mapM] at h
  obtain ⟨o, ho, hom⟩ := List.mem_filterMap.1 hm
  obtain ⟨f, hf, hfo⟩ := exists_of_mem_right h ho
  refine ⟨f, hf, ?_⟩
  obtain ⟨_, _, _, -, -, ⟨e, -, -, rfl⟩ | ⟨-, -, rfl⟩ | ⟨-, -, rfl⟩ | ⟨-, -, type, htype, rfl⟩⟩ :=
    outcome_cases hfo
  · cases hom
  · cases hom
  · cases hom
  · cases hom
    exact htype

/-! ## References -/

/-- A reference has a name, and what is answered is an exported type. -/
def Scope.Answers (s : Scope) : Shape → Prop
  | .named name => name ≠ "" ∧ name ∈ s.exported
  | .unresolved name => name ≠ ""
  | _ => True

/-- All references in a shape are answered by the scope or named as unanswered. -/
def Scope.AnswersAll (s : Scope) (t : Shape) : Prop := ∀ n ∈ t.nodes, s.Answers n

theorem answersAll_leaf {t : Shape} (ht : t.nodes = [t]) (h : s.Answers t) : s.AnswersAll t := by
  intro n hn
  rw [ht, List.mem_singleton] at hn
  exact hn ▸ h

theorem spelling_ne_empty {package : Option String} {name : String} (h : name ≠ "") :
    s.spelling package name ≠ "" := by
  unfold Scope.spelling
  split
  · intro he
    have := congrArg String.length he
    simp only [String.length_append, String.length_empty, Nat.add_eq_zero_iff,
      String.length_eq_zero_iff] at this
    exact h this.2
  · exact h

theorem reference_answered {package : Option String} {name : String} (h : name ≠ "") :
    s.AnswersAll (s.reference package name) := by
  unfold Scope.reference
  split
  · rename_i hc
    simp only [Bool.and_eq_true, List.contains_iff_mem] at hc
    exact answersAll_leaf rfl ⟨h, hc.2⟩
  · exact answersAll_leaf rfl (spelling_ne_empty h)

theorem shape_nodes {e : Package.TypeExpr} {t : Shape} (h : shape s decl e = .ok t) :
    s.AnswersAll t := by
  induction e generalizing t with
  | basic name =>
    rw [shape] at h
    split at h
    · cases h
    · rename_i hne
      split at h
      · cases h
        exact answersAll_leaf rfl trivial
      · cases h
        exact answersAll_leaf rfl fun he => hne (by rw [he]; rfl)
  | named package name =>
    rw [shape] at h
    split at h
    · cases h
    · rename_i hne
      cases h
      exact reference_answered (by simpa using hne)
  | pointer elem ih =>
    rw [shape] at h
    obtain ⟨t, ht, h⟩ := bind_eq_ok.1 h
    cases h
    exact List.forall_mem_cons.2 ⟨trivial, ih ht⟩
  | slice elem ih =>
    rw [shape] at h
    obtain ⟨t, ht, h⟩ := bind_eq_ok.1 h
    cases h
    exact List.forall_mem_cons.2 ⟨trivial, ih ht⟩
  | array elem _ ih =>
    rw [shape] at h
    obtain ⟨t, ht, h⟩ := bind_eq_ok.1 h
    cases h
    exact List.forall_mem_cons.2 ⟨trivial, ih ht⟩
  | map key value ihk ihv =>
    rw [shape] at h
    obtain ⟨k, hk, h⟩ := bind_eq_ok.1 h
    obtain ⟨v, hv, h⟩ := bind_eq_ok.1 h
    cases h
    exact List.forall_mem_cons.2 ⟨trivial, List.forall_mem_append.2 ⟨ihk hk, ihv hv⟩⟩
  | struct fields ih =>
    rw [shape] at h
    obtain ⟨found, hfound, h⟩ := bind_eq_ok.1 h
    cases h
    rw [Scope.AnswersAll, Shape.nodes_record]
    refine List.forall_mem_cons.2 ⟨trivial, fun n hn => ?_⟩
    obtain ⟨m, hm, hn⟩ := List.mem_flatMap.1 hn
    obtain ⟨f, hf, hm⟩ := exists_field_of_member hfound hm
    exact ih f hf hm n hn
  | interface =>
    rw [shape] at h
    cases h
    exact answersAll_leaf rfl trivial
  | func =>
    rw [shape] at h
    cases h
    exact answersAll_leaf rfl trivial
  | chan =>
    rw [shape] at h
    cases h
    exact answersAll_leaf rfl trivial

/-! ## Items -/

/-- What holds of a resolved type declaration. -/
structure Scope.ResolvedType (s : Scope) (d : TypeDecl) : Prop where
  exported : Package.isExported d.name
  record : d.kind ≠ .alias → ∃ members, d.body = .record members
  answers : s.AnswersAll d.body

/-- What holds of a resolved constant declaration. -/
structure Scope.ResolvedConst (s : Scope) (d : ConstDecl) : Prop where
  exported : Package.isExported d.name
  named : d.type.typeName?.isSome
  answers : s.AnswersAll d.type

/-- What holds of a resolved item. -/
def Scope.Resolved (s : Scope) : Item → Prop
  | .type d => s.ResolvedType d
  | .const d => s.ResolvedConst d
  | .emit _ => True

theorem typeDecl_resolved {location : Location} {spec : Package.TypeSpec} {d : TypeDecl}
    (hexp : Package.isExported spec.name) (h : typeDecl s location spec = .ok d) :
    d.name = spec.name ∧ s.ResolvedType d := by
  unfold typeDecl at h
  split at h
  · rename_i fields _
    obtain ⟨found, hfound, h⟩ := bind_eq_ok.1 h
    cases h
    refine ⟨rfl, hexp, fun _ => ⟨_, rfl⟩, ?_⟩
    exact shape_nodes (e := .struct fields) (by rw [shape]; exact bind_eq_ok.2 ⟨found, hfound, rfl⟩)
  · split at h
    · cases h
      exact ⟨rfl, hexp, fun hk => absurd rfl hk, answersAll_leaf rfl trivial⟩
    · cases h
      exact ⟨rfl, hexp, fun _ => ⟨[], rfl⟩, answersAll_leaf rfl trivial⟩
  · obtain ⟨body, hbody, h⟩ := bind_eq_ok.1 h
    cases h
    exact ⟨rfl, hexp, fun hk => absurd rfl hk, shape_nodes hbody⟩

theorem constDecl_resolved {location : Location} {spec : Package.ConstSpec} {d : ConstDecl}
    (hexp : Package.isExported spec.name) (h : constDecl s location spec = .ok d) :
    d.name = spec.name ∧ s.ResolvedConst d := by
  unfold constDecl constType at h
  obtain ⟨type, htype, h⟩ := bind_eq_ok.1 h
  cases h
  split at htype
  · cases htype
    exact ⟨rfl, hexp, rfl, answersAll_leaf rfl trivial⟩
  · obtain ⟨type', htype', htype⟩ := bind_eq_ok.1 htype
    split at htype
    · cases htype
    · rename_i hnamed
      cases htype
      exact ⟨rfl, hexp, by simpa [Option.isSome_iff_ne_none] using hnamed, shape_nodes htype'⟩

/-- The name of an exported declaration. -/
def exportedName? : Package.Decl → Option String
  | .type spec => if Package.isExported spec.name then some spec.name else none
  | .const spec => if Package.isExported spec.name then some spec.name else none
  | .emit _ => none

/-- An item declares the name of its declaration, if that is exported. -/
theorem item?_resolved {file : String} {index : Nat} {d : Package.Decl} {item : Item}
    (h : item? s file index d = .ok (some item)) :
    s.Resolved item ∧ item.declared?.map Prod.fst = exportedName? d := by
  cases d with
  | type spec =>
    simp only [item?] at h
    split at h
    · rename_i hexp
      obtain ⟨decl, hdecl, h⟩ := bind_eq_ok.1 h
      cases h
      obtain ⟨hname, hres⟩ := typeDecl_resolved hexp hdecl
      exact ⟨hres, by simp [Item.declared?, exportedName?, hexp, hname]⟩
    · cases h
  | const spec =>
    simp only [item?] at h
    split at h
    · rename_i hexp
      obtain ⟨decl, hdecl, h⟩ := bind_eq_ok.1 h
      cases h
      obtain ⟨hname, hres⟩ := constDecl_resolved hexp hdecl
      exact ⟨hres, by simp [Item.declared?, exportedName?, hexp, hname]⟩
    · cases h
  | emit text =>
    cases h
    exact ⟨trivial, rfl⟩

theorem exists_decl_of_mem_items {file : String} {decls : List Package.Decl} {index : Nat}
    {found : List Item} (h : items s file index decls = .ok found) {item : Item}
    (hi : item ∈ found) : ∃ d ∈ decls, ∃ i, item? s file i d = .ok (some item) := by
  induction decls generalizing index found with
  | nil =>
    cases h
    cases hi
  | cons d rest ih =>
    obtain ⟨first, hfirst, h⟩ := bind_eq_ok.1 h
    obtain ⟨more, hmore, h⟩ := bind_eq_ok.1 h
    cases h
    rcases List.mem_append.1 hi with hi | hi
    · exact ⟨d, List.mem_cons_self, index, by rw [hfirst, Option.mem_toList.1 hi]⟩
    · obtain ⟨d', hd', hitem⟩ := ih hmore hi
      exact ⟨d', List.mem_cons_of_mem _ hd', hitem⟩

theorem exists_item_of_mem_decls {file : String} {decls : List Package.Decl} {index : Nat}
    {found : List Item} (h : items s file index decls = .ok found) {d : Package.Decl}
    (hd : d ∈ decls) : ∃ i r, item? s file i d = .ok r ∧ ∀ item ∈ r, item ∈ found := by
  induction decls generalizing index found with
  | nil => cases hd
  | cons d' rest ih =>
    obtain ⟨first, hfirst, h⟩ := bind_eq_ok.1 h
    obtain ⟨more, hmore, h⟩ := bind_eq_ok.1 h
    cases h
    rcases List.mem_cons.1 hd with rfl | hd
    · exact ⟨index, first, hfirst, fun item hi =>
        List.mem_append_left _ (Option.mem_toList.2 hi)⟩
    · obtain ⟨i, r, hr, hsub⟩ := ih hmore hd
      exact ⟨i, r, hr, fun item hi => List.mem_append_right _ (hsub item hi)⟩

/-! ## Sections -/

theorem fileSection_eq_ok {file : Package.File} {r : Section} (h : fileSection s file = .ok r) :
    r.package = s.package ∧ items s file.name 1 file.decls = .ok r.items := by
  obtain ⟨found, hfound, h⟩ := bind_eq_ok.1 h
  unfold Section.ofItems at h
  split at h
  · cases h
  · cases h
    exact ⟨rfl, hfound⟩

/-- The names of the exported declarations of a package. -/
def exportedNames (p : Package) : List String :=
  p.files.flatMap fun file => file.decls.filterMap exportedName?

variable {p : Package} {sections : List Section}

theorem packageSections_resolved (h : packageSections p = .ok sections) {r : Section}
    (hr : r ∈ sections) {item : Item} (hi : item ∈ r.items) :
    (Scope.ofPackage p).Resolved item := by
  obtain ⟨file, -, hr⟩ := exists_of_mem_right h hr
  obtain ⟨d, -, i, hd⟩ := exists_decl_of_mem_items (fileSection_eq_ok hr).2 hi
  exact (item?_resolved hd).1

theorem declared_exported (h : packageSections p = .ok sections) {r : Section}
    (hr : r ∈ sections) {item : Item} (hi : item ∈ r.items) {name : String} {location : Location}
    (hname : item.declared? = some (name, location)) : name ∈ exportedNames p := by
  obtain ⟨file, hfile, hr⟩ := exists_of_mem_right h hr
  obtain ⟨d, hd, i, hitem⟩ := exists_decl_of_mem_items (fileSection_eq_ok hr).2 hi
  have hexp : exportedName? d = some name := by rw [← (item?_resolved hitem).2, hname]; rfl
  exact List.mem_flatMap.2 ⟨file, hfile, List.mem_filterMap.2 ⟨d, hd, hexp⟩⟩

theorem exists_typeDecl_of_exported (h : packageSections p = .ok sections) {name : String}
    (hname : name ∈ (Scope.ofPackage p).exported) :
    ∃ r ∈ sections, ∃ d, .type d ∈ r.items ∧ d.name = name := by
  obtain ⟨file, hfile, hname⟩ := List.mem_flatMap.1 hname
  obtain ⟨d, hd, hname⟩ := List.mem_filterMap.1 hname
  obtain ⟨r, hr, hfile⟩ := exists_of_mem_left h hfile
  obtain ⟨i, item, hitem, hsub⟩ := exists_item_of_mem_decls (fileSection_eq_ok hfile).2 hd
  cases d with
  | type spec =>
    simp only [exportedType?] at hname
    split at hname
    · rename_i hexp
      cases hname
      simp only [item?, hexp] at hitem
      obtain ⟨decl, hdecl, hitem⟩ := bind_eq_ok.1 hitem
      cases hitem
      exact ⟨r, hr, decl, hsub _ rfl, (typeDecl_resolved hexp hdecl).1⟩
    · cases hname
  | const spec => cases hname
  | emit text => cases hname

end WireTypes.Resolution
