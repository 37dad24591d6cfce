import WireTypes.Proofs.Additions
import WireTypes.Proofs.Declarable
import WireTypes.Proofs.Layout
import WireTypes.Proofs.Properties
import WireTypes.Proofs.Resolution
import WireTypes.Target

/-!
# Generation succeeds on resolved packages

`Item.Emittable` is what emission asks of an item, and resolution delivers it
(`emittable_of_resolved`). Then a name that is no identifier is the only thing that emission can
refuse (`Refuses`):

* `exists_toExpr`: shapes without empty references always have an expression.
* `renderFamily_refuses`: the type of a family is declared in the output, and an alias made of
  shared words is an identifier if the names are.
* `generates_of_identifiers`: packages that resolve, valid options and identifiers for names give
  an output.
-/

set_option autoImplicit false

namespace WireTypes.Code

/-! ## Shapes -/

/-- No reference in a shape is empty. -/
def Spelled (s : Shape) : Prop := ∀ n ∈ s.nodes, n.typeName? ≠ some ""

theorem spelled_of_answersAll {scope : Resolution.Scope} {s : Shape} (h : scope.AnswersAll s) :
    Spelled s := by
  intro n hn he
  have hans := h n hn
  cases n with
  | primitive p => exact absurd (Option.some.inj he) (by cases p <;> decide)
  | named name => exact hans.1 (Option.some.inj he)
  | unresolved name => exact hans (Option.some.inj he)
  | _ => cases he

theorem exists_namedExpr (ctx : Context) {name : String} (h : name ≠ "") :
    ∃ e, namedExpr ctx name = .ok e := by
  have hne : name.isEmpty = false := by simpa using h
  unfold namedExpr
  rw [hne]
  cases ctx.localRule? name with
  | some expr => exact ⟨_, rfl⟩
  | none => exact ⟨_, rfl⟩

theorem exists_unresolvedExpr (ctx : Context) {name : String} (h : name ≠ "") :
    ∃ e, unresolvedExpr ctx name = .ok e := by
  have hne : name.isEmpty = false := by simpa using h
  unfold unresolvedExpr
  rw [hne]
  cases ctx.options.overrides.get? name with
  | some expr => exact ⟨_, rfl⟩
  | none => exact ⟨_, rfl⟩

theorem exists_toProperty? {ctx : Context} {m : Member Shape} {depth : Nat}
    (h : ∃ e, toExpr ctx m.type depth = .ok e) : ∃ p, toProperty? ctx m depth = .ok p := by
  obtain ⟨e, he⟩ := h
  rw [toProperty?_eq]
  split
  · exact ⟨none, rfl⟩
  · unfold memberType
    split
    · exact ⟨_, rfl⟩
    · rw [he]
      exact ⟨_, rfl⟩

theorem exists_toProperties {ctx : Context} {ms : List (Member Shape)} {depth : Nat}
    (h : ∀ m ∈ ms, ∃ e, toExpr ctx m.type depth = .ok e) :
    ∃ ps, toProperties ctx ms depth = .ok ps := by
  induction ms with
  | nil => exact ⟨[], rfl⟩
  | cons m rest ih =>
    obtain ⟨p, hp⟩ := exists_toProperty? (h m List.mem_cons_self)
    obtain ⟨ps, hps⟩ := ih fun m hm => h m (List.mem_cons_of_mem _ hm)
    rw [toProperties_cons, hp, hps]
    exact ⟨_, rfl⟩

theorem exists_toExpr (ctx : Context) {s : Shape} (h : Spelled s) (depth : Nat) :
    ∃ e, toExpr ctx s depth = .ok e := by
  induction s generalizing depth with
  | primitive p => exact ⟨_, by rw [toExpr]; rfl⟩
  | named name =>
    rw [toExpr]
    exact exists_namedExpr ctx fun he => h _ (Shape.self_mem_nodes _) (congrArg some he)
  | unresolved name =>
    rw [toExpr]
    exact exists_unresolvedExpr ctx fun he => h _ (Shape.self_mem_nodes _) (congrArg some he)
  | map key value ihk ihv =>
    have hsub := (List.forall_mem_cons.1 h).2
    obtain ⟨k, hk⟩ := ihk (fun n hn => hsub n (List.mem_append_left _ hn)) depth
    obtain ⟨v, hv⟩ := ihv (fun n hn => hsub n (List.mem_append_right _ hn)) depth
    rw [toExpr]
    exact ⟨_, bind_eq_ok.2 ⟨k, hk, bind_eq_ok.2 ⟨v, hv, rfl⟩⟩⟩
  | sequence elem ih =>
    rw [toExpr]
    split
    · exact ⟨_, rfl⟩
    · obtain ⟨e, he⟩ := ih (List.forall_mem_cons.1 h).2 depth
      exact ⟨_, bind_eq_ok.2 ⟨e, he, rfl⟩⟩
  | pointer inner ih =>
    obtain ⟨e, he⟩ := ih (List.forall_mem_cons.1 h).2 depth
    rw [toExpr]
    exact ⟨_, bind_eq_ok.2 ⟨e, he, rfl⟩⟩
  | optional inner ih =>
    obtain ⟨e, he⟩ := ih (List.forall_mem_cons.1 h).2 depth
    rw [toExpr]
    exact ⟨_, bind_eq_ok.2 ⟨e, he, rfl⟩⟩
  | record members ih =>
    have hsub : ∀ m ∈ members, Spelled m.type := fun m hm n hn =>
      h n (Shape.nodes_subset_of_mem hm hn)
    obtain ⟨ps, hps⟩ := exists_toProperties fun m hm => ih m hm (hsub m hm) (depth + 1)
    rw [toExpr]
    exact ⟨_, bind_eq_ok.2 ⟨ps, hps, rfl⟩⟩

/-! ## What is refused -/

/-- A name is refused, and one of `names` is no identifier. -/
def Refuses (names : List String) (e : Error) : Prop :=
  (∃ name location, e = .invalidIdentifier name location) ∧ ∃ n ∈ names, isIdentifier n = false

/-- What emission asks of an item: it is resolved, the types that it may refer to are declared in
the output, and its name is listed. -/
structure Item.Emittable (declared names : List String) (item : Item) : Prop where
  resolved : ∃ scope : Resolution.Scope, scope.exported ⊆ declared ∧ scope.Resolved item
  listed : ∀ name location, item.declared? = some (name, location) → name ∈ names

variable {names : List String} {ctx : Context}

theorem checkName_refuses {name : String} (location : Location)
    (h : (∀ n ∈ names, isIdentifier n) → isDeclarable name) :
    FailsWith (Refuses names) (checkName name location) := by
  unfold checkName
  split
  · exact .pure _
  · rename_i hname
    refine .throw ⟨⟨name, location, rfl⟩, ?_⟩
    by_contra hall
    push Not at hall
    exact hname (h fun n hn => by simpa using hall n hn)

theorem checkName_refuses_of_mem {name : String} (location : Location) (hn : name ∈ names)
    (hexp : Package.isExported name) : FailsWith (Refuses names) (checkName name location) :=
  checkName_refuses location fun hid => isDeclarable_of_exported hexp (hid name hn)

/-! ## Types -/

theorem exists_renderTypeBody {d : TypeDecl} (hs : Spelled d.body)
    (hr : d.kind ≠ .alias → ∃ members, d.body = .record members) :
    ∃ text, renderTypeBody ctx d = .ok text := by
  have interface (members : List (Member Shape)) (hbody : d.body = .record members) :
      ∃ ps, toProperties ctx members 1 = .ok ps := by
    refine exists_toProperties fun m hm => exists_toExpr ctx (fun n hn => ?_) 1
    rw [hbody] at hs
    exact hs n (Shape.nodes_subset_of_mem hm hn)
  by_cases hk : d.kind = .alias
  · obtain ⟨e, he⟩ := exists_toExpr ctx hs 0
    unfold renderTypeBody
    rw [hk]
    exact ⟨_, bind_eq_ok.2 ⟨e, he, rfl⟩⟩
  · obtain ⟨members, hbody⟩ := hr hk
    obtain ⟨ps, hps⟩ := interface members hbody
    unfold renderTypeBody
    rw [hbody]
    split
    · exact absurd ‹_› hk
    · exact ⟨_, bind_eq_ok.2 ⟨ps, hps, rfl⟩⟩
    · exact ⟨_, bind_eq_ok.2 ⟨ps, hps, rfl⟩⟩

theorem renderType_refuses {options : Options} {package : String} {declared : List String}
    {d : TypeDecl} (h : Item.Emittable declared names (.type d)) :
    FailsWith (Refuses names) (renderType options package d) := by
  obtain ⟨scope, -, hres⟩ := h.resolved
  refine (checkName_refuses_of_mem _ (h.listed _ _ rfl) hres.exported).bind fun _ _ => ?_
  refine FailsWith.bind ?_ fun _ _ => .pure _
  exact .of_ok (exists_renderTypeBody (spelled_of_answersAll hres.answers) hres.record)

/-! ## Constants -/

section Constants

variable {declared : List String}

/-- What emission asks of constants that are written together. -/
def EmittableAll (declared names : List String) (decls : List ConstDecl) : Prop :=
  ∀ d ∈ decls, Item.Emittable declared names (.const d)

theorem renderConst_refuses {options : Options} {typeText : Option String} {d : ConstDecl}
    (h : Item.Emittable declared names (.const d)) :
    FailsWith (Refuses names) (renderConst options typeText d) := by
  obtain ⟨scope, -, hres⟩ := h.resolved
  exact (checkName_refuses_of_mem _ (h.listed _ _ rfl) hres.exported).bind fun _ _ => .pure _

theorem renderConsts_refuses {options : Options} {typeText : Option String} {ds : List ConstDecl}
    (h : EmittableAll declared names ds) :
    FailsWith (Refuses names) (renderConsts options typeText ds) :=
  (FailsWith.mapM fun d hd => renderConst_refuses (h d hd)).bind fun _ _ => .pure _

theorem renderSingle_refuses {d : ConstDecl} (h : Item.Emittable declared names (.const d)) :
    FailsWith (Refuses names) (renderSingle ctx d) := by
  obtain ⟨scope, -, hres⟩ := h.resolved
  unfold renderSingle
  split
  · exact FailsWith.bind (.pure none) fun _ _ => renderConst_refuses h
  · have htype := exists_toExpr { ctx with decl := d.name } (spelled_of_answersAll hres.answers) 0
    refine FailsWith.bind (.of_ok htype) fun _ _ => ?_
    exact FailsWith.bind (.pure _) fun _ _ => renderConst_refuses h

theorem renderTypeofUnion_refuses {f : Family} (hm : EmittableAll declared names f.members)
    (hname : (∀ n ∈ names, isIdentifier n) → isDeclarable f.name) :
    FailsWith (Refuses names) (renderTypeofUnion ctx f) :=
  (checkName_refuses _ hname).bind fun _ _ => (renderConsts_refuses hm).bind fun _ _ => .pure _

theorem renderEnumeration_refuses {f : Family}
    (hname : (∀ n ∈ names, isIdentifier n) → isDeclarable f.name) :
    FailsWith (Refuses names) (renderEnumeration ctx f) :=
  (checkName_refuses _ hname).bind fun _ _ => .pure _

theorem renderAliased_refuses {f : Family} {backing : Shape}
    (hm : EmittableAll declared names f.members) (hs : Spelled backing)
    (hname : (∀ n ∈ names, isIdentifier n) → isDeclarable f.name) :
    FailsWith (Refuses names) (renderAliased ctx f backing) := by
  refine (checkName_refuses _ hname).bind fun _ _ => ?_
  refine (FailsWith.of_ok (exists_toExpr _ hs 0)).bind fun _ _ => ?_
  exact (renderConsts_refuses hm).bind fun _ _ => .pure _

/-- A family of the layout refuses nothing but names: its type is declared in the output, and then
it has no alias of its own, or its alias is made of the words that the names share. -/
theorem renderFamily_refuses {taken : TakenNames} (hsub : declared ⊆ taken.names) {f : Family}
    (hf : Family.ofRun? taken f.members = some f) (hm : EmittableAll declared names f.members) :
    FailsWith (Refuses names) (renderFamily ctx f) := by
  have hfirst : Item.Emittable declared names (.const f.first) := hm _ List.mem_cons_self
  obtain ⟨scope, hscope, hres⟩ := hfirst.resolved
  have hspelled : Spelled f.first.type := spelled_of_answersAll hres.answers
  unfold renderFamily
  refine FailsWith.bind (.of_ok ?_) fun replaced hreplaced => ?_
  · -- the named type of a family is never empty
    unfold replacedType?
    split
    · rename_i name htype
      have hne : name ≠ "" := fun he =>
        hspelled _ (Shape.self_mem_nodes _) (by rw [htype, he]; rfl)
      obtain ⟨e, he⟩ := exists_namedExpr { ctx with decl := f.first.name } hne
      exact ⟨_, bind_eq_ok.2 ⟨e, he, rfl⟩⟩
    · exact ⟨none, rfl⟩
  · obtain ⟨-, -, ⟨htype, hbacking⟩ | ⟨-, hshared, -, hbacking⟩⟩ := Family.ofRun?_cases hf
    · -- a type that a constant names is declared somewhere in the output, so it has no alias here
      have hnamed := hres.answers _ (Shape.self_mem_nodes _)
      rw [htype] at hnamed
      have htaken : taken.contains f.name := List.contains_iff_mem.2 (hsub (hscope hnamed.2))
      rw [hbacking, if_pos htaken]
      cases replaced with
      | some type => exact renderConsts_refuses hm
      | none => exact renderConsts_refuses hm
    · have hname : (∀ n ∈ names, isIdentifier n) → isDeclarable f.name := fun hid =>
        isDeclarable_of_sharedWords? hshared (hid _ (hfirst.listed _ _ rfl))
      rw [hbacking]
      cases replaced with
      | some type => exact renderConsts_refuses hm
      | none =>
        simp only
        split
        · exact renderTypeofUnion_refuses hm hname
        · split
          · exact renderEnumeration_refuses hname
          · exact renderAliased_refuses hm hspelled hname
        · exact renderAliased_refuses hm hspelled hname

end Constants

/-! ## Outputs -/

theorem validate_eq_ok {o : Options} (h : o.validate = .ok ⟨⟩) :
    ∃ text, o.renderHeader = .ok text := by
  unfold Options.validate at h
  split at h
  · cases h
  · obtain ⟨text, htext, -⟩ := bind_eq_ok.1 h
    exact ⟨text, htext⟩

theorem exists_renderFront {o : Options} (h : o.validate = .ok ⟨⟩) :
    ∃ front, renderFront o = .ok front := by
  obtain ⟨text, htext⟩ := validate_eq_ok h
  exact ⟨_, bind_eq_ok.2 ⟨text, htext, rfl⟩⟩

theorem mem_members_of_mem_blocks {blocks : List Block} {items : List Item} {piece : ConstPiece}
    (hitems : blocks.flatMap Block.items = items) (hb : .consts piece ∈ blocks) {d : ConstDecl}
    (hd : d ∈ piece.members) : .const d ∈ items := by
  rw [← hitems]
  exact List.mem_flatMap.2 ⟨_, hb, List.mem_map_of_mem hd⟩

theorem mem_of_type_mem_blocks {blocks : List Block} {items : List Item} {d : TypeDecl}
    (hitems : blocks.flatMap Block.items = items) (hb : .type d ∈ blocks) : .type d ∈ items := by
  rw [← hitems]
  exact List.mem_flatMap.2 ⟨_, hb, List.mem_singleton_self _⟩

theorem renderSection_refuses {options : Options} {grouped : Bool} {taken : TakenNames}
    {s : Section} (hs : ∀ item ∈ s.items, Item.Emittable taken.names names item)
    {taken' : TakenNames} (hsub : taken.names ⊆ taken'.names) :
    FailsWith (Refuses names) (renderSection options s (layout grouped taken' s.items).1) := by
  have hitems : (layout grouped taken' s.items).1.flatMap Block.items = s.items :=
    flatMap_items_layout s.items
  refine FailsWith.bind ?_ fun _ _ => .pure _
  refine FailsWith.bind (.mapM fun b hb => ?_) fun _ _ => .pure _
  cases b with
  | type d => exact renderType_refuses (hs _ (mem_of_type_mem_blocks hitems hb))
  | emit text => exact .pure _
  | consts piece =>
    cases piece with
    | single d =>
      exact renderSingle_refuses
        (hs _ (mem_members_of_mem_blocks hitems hb (List.mem_singleton_self d)))
    | family f =>
      obtain ⟨-, taken'', hsub', hf⟩ := exists_run_of_mem_layout hb
      exact renderFamily_refuses (List.Subset.trans hsub hsub') hf
        fun d hd => hs _ (mem_members_of_mem_blocks hitems hb hd)

/-- Emission refuses nothing but names. -/
theorem generate_refuses {options : Options} {sections : List Section}
    (hv : options.validate = .ok ⟨⟩)
    (hs : ∀ s ∈ sections, ∀ item ∈ s.items,
      Item.Emittable (TakenNames.ofSections sections).names names item) :
    FailsWith (Refuses names) (generate options sections) := by
  refine FailsWith.bind (.of_ok ⟨⟨⟩, hv⟩) fun _ _ => ?_
  refine FailsWith.bind (.of_ok (exists_renderFront hv)) fun _ _ => ?_
  refine FailsWith.bind (.mapM fun p hp => ?_) fun _ _ => .pure _
  obtain ⟨s, blocks⟩ := p
  have hmem : s ∈ sections := by
    have hs' := List.mem_map_of_mem (f := Prod.fst) hp
    rwa [map_fst_layoutSections] at hs'
  obtain ⟨taken', hsub, rfl⟩ := exists_layout_of_mem hp
  exact renderSection_refuses (hs s hmem) hsub

end WireTypes.Code

namespace WireTypes

open Code Resolution

/-! ## Packages -/

theorem Target.addPackages_eq {packages : List Package} {found : List (List Section)}
    (h : packages.mapM packageSections = .ok found) (target : Target) :
    target.addPackages packages =
      ({ target with sections := target.sections ++ found.flatten }, .ok ⟨⟩) := by
  have happend := Target.addPackages_append h target []
  rwa [List.append_nil] at happend

/-- Resolution delivers what emission asks for, in every output that holds the whole package. -/
theorem emittable_of_resolved {packages : List Package} {found : List (List Section)}
    (h : packages.mapM packageSections = .ok found) {s : Section} (hs : s ∈ found.flatten)
    {item : Item} (hi : item ∈ s.items) :
    Item.Emittable (TakenNames.ofSections found.flatten).names
      (packages.flatMap exportedNames) item := by
  obtain ⟨sections, hsections, hs⟩ := List.mem_flatten.1 hs
  obtain ⟨p, hp, hres⟩ := exists_of_mem_right h hsections
  refine ⟨⟨.ofPackage p, ?_, packageSections_resolved hres hs hi⟩, ?_⟩
  · intro name hname
    obtain ⟨r, hr, d, hd, rfl⟩ := exists_typeDecl_of_exported hres hname
    refine List.mem_flatMap.2 ⟨r, List.mem_flatten.2 ⟨sections, hsections, hr⟩, ?_⟩
    exact List.mem_map.2 ⟨(d.name, d.location), List.mem_filterMap.2 ⟨_, hd, rfl⟩, rfl⟩
  · intro name location hname
    exact List.mem_flatMap.2 ⟨p, hp, declared_exported hres hs hi hname⟩

/-- Packages that resolve are added to a target with valid options, and its output fails for no
other reason than an exported name that is no identifier: no declaration is malformed, and no alias
of a family is refused on its own account. -/
theorem generates_of_identifiers {options : Options} {packages : List Package}
    (hv : options.validate = .ok ⟨⟩)
    (hp : ∀ p ∈ packages, ∃ sections, packageSections p = .ok sections) :
    ∃ start target, Target.ofOptions options = .ok start ∧
      start.addPackages packages = (target, .ok ⟨⟩) ∧
      (∀ e, target.generate = .error e → ∃ name location, e = .invalidIdentifier name location) ∧
      ((∀ p ∈ packages, ∀ name ∈ exportedNames p, isIdentifier name) →
        ∃ code, target.generate = .ok code) := by
  have hfound : ∃ found, packages.mapM packageSections = .ok found := by
    refine FailsWith.exists_ok (.mapM fun p hmem => .of_ok (hp p hmem))
  obtain ⟨found, hfound⟩ := hfound
  have hrefuses : FailsWith (Refuses (packages.flatMap exportedNames))
      (generate options found.flatten) :=
    generate_refuses hv fun s hs item hi => emittable_of_resolved hfound hs hi
  refine ⟨⟨options, []⟩, ⟨options, [] ++ found.flatten⟩, bind_eq_ok.2 ⟨⟨⟩, hv, rfl⟩,
    Target.addPackages_eq hfound _, ?_, ?_⟩
  · intro e he
    exact (hrefuses e he).1
  · intro hid
    refine FailsWith.exists_ok (hrefuses.mono fun e he => ?_)
    obtain ⟨-, name, hname, hnot⟩ := he
    obtain ⟨p, hmem, hname⟩ := List.mem_flatMap.1 hname
    rw [hid p hmem name hname] at hnot
    cases hnot

/-- A package with a family of constants and a struct of a type that it does not declare. -/
def rolesPackage : Package :=
  let role (name value : String) : Package.Decl :=
    .const ⟨name, some (.named none "Role"), .string value, none, none, none⟩
  let user : Package.TypeExpr := .struct [⟨.named none "Role", some "Role", none, none, none⟩]
  { name := "auth"
    files := [⟨"roles.go", [role "RoleViewer" "viewer", role "RoleEditor" "editor",
      .type ⟨"User", user, none, none, none⟩]⟩] }

theorem rolesPackage_generates :
    ∃ start target, Target.ofOptions { aliasStyle := .union } = .ok start ∧
      start.addPackages [rolesPackage] = (target, .ok ⟨⟩) ∧ ∃ code, target.generate = .ok code := by
  have hv : Options.validate { aliasStyle := .union } = .ok ⟨⟩ :=
    (exists_of_isOk (by decide +kernel)).choose_spec
  have hp : ∀ p ∈ [rolesPackage], ∃ sections, packageSections p = .ok sections := by
    rintro p hp
    rw [List.mem_singleton.1 hp]
    exact exists_of_isOk (by decide +kernel)
  have hid : ∀ p ∈ [rolesPackage], ∀ name ∈ exportedNames p, isIdentifier name := by
    decide +kernel
  obtain ⟨start, target, hstart, hadd, -, hcode⟩ := generates_of_identifiers hv hp
  exact ⟨start, target, hstart, hadd, hcode hid⟩

end WireTypes
