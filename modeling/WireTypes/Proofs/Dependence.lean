import WireTypes.Proofs.AlikeConstants
import WireTypes.Proofs.Properties
import WireTypes.Proofs.References

/-!
# What an output depends on

Of its options and declarations an output shows only the comments that its level keeps, and of the
rules only the answers to references that occur.

* `toExpr_congr`: two pairs of options and shape with these in common have the same expression.
  The shapes may differ in comments (`Shape.mapComments`), at any depth.
* `renderType_congr`, `alike_mapComments`: so do types, and such constants go alike.
* `generate_congr`: outputs with these in common are the same, errors included.
-/

set_option autoImplicit false

namespace WireTypes

/-! ## Changed comments -/

mutual

/-- A shape with changed comments: those of the members of its records, at any depth. -/
def Shape.mapComments (f : Option String → Option String) : Shape → Shape
  | .record members => .record (Shape.mapCommentsOfMembers f members)
  | .map key value => .map (key.mapComments f) (value.mapComments f)
  | .sequence elem => .sequence (elem.mapComments f)
  | .optional inner => .optional (inner.mapComments f)
  | .pointer inner => .pointer (inner.mapComments f)
  | .primitive p => .primitive p
  | .named name => .named name
  | .unresolved name => .unresolved name
termination_by structural s => s

/-- Members with changed comments. -/
def Shape.mapCommentsOfMembers (f : Option String → Option String) :
    List (Member Shape) → List (Member Shape)
  | [] => []
  | m :: rest => Shape.mapCommentsOfMember f m :: Shape.mapCommentsOfMembers f rest
termination_by structural members => members

/-- A member with changed comments: its own, and those inside its type. -/
def Shape.mapCommentsOfMember (f : Option String → Option String) : Member Shape → Member Shape
  | ⟨type, goName, rename, mayMiss, readonly, skip, override, doc, comment⟩ =>
    ⟨type.mapComments f, goName, rename, mayMiss, readonly, skip, override, f doc, f comment⟩
termination_by structural m => m

end

/-- A type with its comments and those of its members changed by `f`. -/
def TypeDecl.mapComments (f : Option String → Option String) (d : TypeDecl) : TypeDecl :=
  { d with body := d.body.mapComments f, doc := f d.doc, comment := f d.comment }

/-- A constant with its documentation, and all comments inside its type, changed by `f` and the
comment at its end by `g`. -/
def ConstDecl.mapComments (f g : Option String → Option String) (d : ConstDecl) : ConstDecl :=
  { d with type := d.type.mapComments f, doc := f d.doc, comment := g d.comment }

/-- An item with the comments at the end of constants changed by `g`, all others by `f`. -/
def Item.mapComments (f g : Option String → Option String) : Item → Item
  | .type d => .type (d.mapComments f)
  | .const d => .const (d.mapComments f g)
  | .emit text => .emit text

/-- A section with the comments at the end of constants changed by `g`, all others by `f`. -/
def Section.mapComments (f g : Option String → Option String) (s : Section) : Section :=
  { s with items := s.items.map (Item.mapComments f g) }

section

variable {f g : Option String → Option String}

theorem Shape.mapComments_record (members : List (Member Shape)) :
    (Shape.record members).mapComments f = .record (members.map (Shape.mapCommentsOfMember f)) := by
  have h : Shape.mapCommentsOfMembers f members = members.map (Shape.mapCommentsOfMember f) := by
    induction members with
    | nil => rfl
    | cons m rest ih => rw [mapCommentsOfMembers, ih, List.map_cons]
  rw [mapComments, h]

theorem Shape.mapComments_id (s : Shape) : s.mapComments id = s := by
  induction s with
  | record members ih =>
    have hmember : ∀ m ∈ members, mapCommentsOfMember id m = m := by
      rintro ⟨type, goName, rename, mayMiss, readonly, skip, override, doc, comment⟩ hm
      rw [mapCommentsOfMember.eq_def]
      simp only [ih _ hm, id]
    rw [mapComments_record, List.map_congr_left hmember, List.map_id']
  | map key value ihk ihv => rw [mapComments, ihk, ihv]
  | sequence elem ih => rw [mapComments, ih]
  | optional inner ih => rw [mapComments, ih]
  | pointer inner ih => rw [mapComments, ih]
  | primitive _ | named _ | unresolved _ => rfl

theorem Shape.isByte_mapComments (s : Shape) : (s.mapComments f).isByte = s.isByte := by
  cases s with
  | _ => rfl

theorem TypeDecl.mapComments_id (d : TypeDecl) : d.mapComments id = d := by
  unfold mapComments
  rw [Shape.mapComments_id]
  rfl

theorem ConstDecl.mapComments_id (d : ConstDecl) : d.mapComments id id = d := by
  unfold mapComments
  rw [Shape.mapComments_id]
  rfl

theorem Section.mapComments_id (s : Section) : s.mapComments id id = s := by
  have hitem : ∀ item : Item, item.mapComments id id = item := by
    intro item
    cases item with
    | type d => rw [Item.mapComments, d.mapComments_id]
    | const d => rw [Item.mapComments, d.mapComments_id]
    | emit text => rfl
  unfold mapComments
  rw [List.map_id'' hitem]

end

/-! ## Lookups -/

/-- The names under which rules are looked up for the references in a shape, at any depth. -/
def Shape.lookups (package : String) (s : Shape) : List String :=
  s.references.flatMap fun
    | .named name => [name, package ++ "." ++ name]
    | .unresolved name => [name]
    | _ => []

/-- The names under which rules are looked up for an item: for the references in it, and for the
parents of a type as for references to them. -/
def Item.lookups (package : String) : Item → List String
  | .type d =>
    d.body.lookups package ++ d.heritage.flatMap fun p => (Shape.named p.name).lookups package
  | .const d => d.type.lookups package
  | .emit _ => []

theorem Shape.lookups_record (package : String) (members : List (Member Shape)) :
    (Shape.record members).lookups package = members.flatMap fun m => m.type.lookups package := by
  unfold lookups
  rw [references_record, List.flatMap_assoc]

theorem Shape.lookups_map (package : String) (key value : Shape) :
    (Shape.map key value).lookups package = key.lookups package ++ value.lookups package := by
  unfold lookups
  rw [references_map, List.flatMap_append]

end WireTypes

namespace WireTypes.Code

variable {f g : Option String → Option String} {o o' : Options} {package : String}

/-! ## What is shown -/

namespace Comment

/-- A comment as far as it is shown. -/
def shown (keep : Bool) (text : Option String) : Option String :=
  text.filter fun _ => keep

theorem docBlock?_congr {keep keep' : Bool} {text text' : Option String}
    (h : shown keep' text' = shown keep text) (depth width : Nat) :
    docBlock? keep' text' depth width = docBlock? keep text depth width := by
  have hshown (keep : Bool) (text : Option String) : docBlock? keep text depth width =
      ((shown keep text).map fun text => docBlock text depth width).getD "" := by
    cases text with
    | none => rfl
    | some text =>
      cases keep with
      | false => rfl
      | true => rfl
  rw [hshown, hshown, h]

theorem inline?_congr {keep keep' : Bool} {text text' : Option String}
    (h : shown keep' text' = shown keep text) : inline? keep' text' = inline? keep text := by
  have hshown (keep : Bool) (text : Option String) :
      inline? keep text = ((shown keep text).map inline).getD "" := by
    cases text with
    | none => rfl
    | some text =>
      cases keep with
      | false => rfl
      | true => rfl
  rw [hshown, hshown, h]

end Comment

/-- Options that map shapes in the same way and show the same comments once `f` has changed them,
whatever their rules are. -/
structure Options.MapAlike (f : Option String → Option String) (o o' : Options) : Prop where
  fallback : o'.fallback = o.fallback
  indent : o'.indent = o.indent
  nameStyle : o'.nameStyle = o.nameStyle
  docs : ∀ text, Comment.shown o'.comments.hasDocs (f text) = Comment.shown o.comments.hasDocs text
  inline : ∀ text,
    Comment.shown o'.comments.hasInline (f text) = Comment.shown o.comments.hasInline text

/-- The rules of both options answer names in the same way. -/
def SameRules (o o' : Options) (names : List String) : Prop :=
  ∀ name ∈ names, o'.overrides.get? name = o.overrides.get? name

theorem SameRules.mono {names names' : List String} (h : SameRules o o' names)
    (hsub : names' ⊆ names) : SameRules o o' names' :=
  fun name hname => h name (hsub hname)

theorem SameRules.part {α : Type} {xs : List α} {names : α → List String}
    (h : SameRules o o' (xs.flatMap names)) {x : α} (hx : x ∈ xs) : SameRules o o' (names x) :=
  h.mono fun _ hname => List.mem_flatMap.2 ⟨x, hx, hname⟩

/-! ## Expressions -/

/-- A property with changed comments. -/
def Property.mapComments (f : Option String → Option String) (p : Property) : Property :=
  { p with doc := f p.doc, comment := f p.comment }

theorem renderProperties_mapComments (ho : Options.MapAlike f o o') (depth : Nat)
    (ps : List Property) :
    renderProperties o' depth (ps.map (Property.mapComments f)) = renderProperties o depth ps := by
  have hrender : ∀ p ∈ ps, ((p.mapComments f).render o' depth) = p.render o depth := by
    intro p _
    unfold Property.render Property.mapComments
    rw [Comment.docBlock?_congr (ho.docs p.doc), Comment.inline?_congr (ho.inline p.comment),
      ho.indent]
  unfold renderProperties
  rw [List.map_map]
  exact congrArg String.join (List.map_congr_left hrender)

theorem recordExpr_mapComments (ho : Options.MapAlike f o o') (depth : Nat) (ps : List Property) :
    recordExpr o' depth (ps.map (Property.mapComments f)) = recordExpr o depth ps := by
  unfold recordExpr
  rw [renderProperties_mapComments ho, ho.indent]

variable {decl : String}

theorem toProperty?_congr (ho : Options.MapAlike f o o') {m : Member Shape} {depth : Nat}
    (h : toExpr { options := o', package, decl } (m.type.mapComments f) depth =
      toExpr { options := o, package, decl } m.type depth) :
    Agree Eq (fun p p' => p' = p.map (Property.mapComments f))
      (toProperty? { options := o, package, decl } m depth)
      (toProperty? { options := o', package, decl } (Shape.mapCommentsOfMember f m) depth) := by
  obtain ⟨type, goName, rename, optional, readonly, skip, override, doc, comment⟩ := m
  have hname : memberName o' rename goName = memberName o rename goName := by
    unfold memberName
    rw [ho.nameStyle]
  rw [Shape.mapCommentsOfMember.eq_def, toProperty?.eq_def, toProperty?.eq_def]
  simp only [hname]
  cases skip with
  | true => exact .ok rfl
  | false =>
    cases override with
    | some expr => exact .ok rfl
    | none =>
      refine (Agree.of_eq (fun _ => rfl) h.symm).bind fun e e' he => .ok ?_
      rw [he]
      rfl

theorem toProperties_congr (package decl : String) (ho : Options.MapAlike f o o')
    {ms : List (Member Shape)} {depth : Nat}
    (h : ∀ m ∈ ms, toExpr { options := o', package, decl } (m.type.mapComments f) depth =
      toExpr { options := o, package, decl } m.type depth) :
    Agree Eq (fun ps ps' => ps' = ps.map (Property.mapComments f))
      (toProperties { options := o, package, decl } ms depth)
      (toProperties { options := o', package, decl } (ms.map (Shape.mapCommentsOfMember f))
        depth) := by
  induction ms with
  | nil =>
    rw [List.map_nil, toProperties, toProperties]
    exact .ok rfl
  | cons m rest ih =>
    have hrest := ih fun m hm => h m (List.mem_cons_of_mem _ hm)
    rw [List.map_cons, toProperties_cons, toProperties_cons]
    refine (toProperty?_congr ho (h m List.mem_cons_self)).bind fun p p' hp => ?_
    refine hrest.bind fun ps ps' hps => .ok ?_
    rw [hp, hps, List.map_append]
    cases p <;> rfl

theorem localRule?_congr {name : String}
    (h : SameRules o o' ((Shape.named name).lookups package)) :
    Context.localRule? { options := o', package, decl } name =
      Context.localRule? { options := o, package, decl } name := by
  have hbare := h name List.mem_cons_self
  have hqualified := h (package ++ "." ++ name) (.tail _ (.head _))
  unfold Context.localRule?
  rw [hbare, hqualified]

theorem toExpr_congr (ho : Options.MapAlike f o o') {s : Shape}
    (hs : SameRules o o' (s.lookups package)) (depth : Nat) :
    toExpr { options := o', package, decl } (s.mapComments f) depth =
      toExpr { options := o, package, decl } s depth := by
  induction s generalizing depth with
  | primitive p =>
    rw [Shape.mapComments, toExpr, toExpr]
    unfold primitiveExpr
    rw [ho.fallback]
  | named name =>
    rw [Shape.mapComments, toExpr, toExpr]
    unfold namedExpr
    rw [localRule?_congr hs]
    rfl
  | unresolved name =>
    have hrule : o'.overrides.get? name = o.overrides.get? name := hs name List.mem_cons_self
    rw [Shape.mapComments, toExpr, toExpr]
    unfold unresolvedExpr fallbackExpr
    rw [hrule, ho.fallback]
    rfl
  | map key value ihk ihv =>
    rw [Shape.lookups_map] at hs
    rw [Shape.mapComments, toExpr, toExpr, ihk (hs.mono (List.subset_append_left _ _)),
      ihv (hs.mono (List.subset_append_right _ _))]
  | sequence elem ih => rw [Shape.mapComments, toExpr, toExpr, Shape.isByte_mapComments, ih hs]
  | optional inner ih => rw [Shape.mapComments, toExpr, toExpr, ih hs]
  | pointer inner ih => rw [Shape.mapComments, toExpr, toExpr, ih hs]
  | record members ih =>
    rw [Shape.lookups_record] at hs
    have hmembers := toProperties_congr package decl ho fun m hm =>
      ih m hm (hs.part hm) (depth + 1)
    rw [Shape.mapComments_record, toExpr, toExpr]
    refine (hmembers.bind (S := Eq) fun ps ps' hps => .ok ?_).eq.symm
    rw [hps, recordExpr_mapComments ho]

/-! ## Declarations -/

theorem renderHeritage_congr {parents : List Parent}
    (h : SameRules o o' (parents.flatMap fun p => (Shape.named p.name).lookups package)) :
    renderHeritage { options := o', package, decl } parents =
      renderHeritage { options := o, package, decl } parents := by
  have hparent : ∀ p ∈ parents, renderParent { options := o', package, decl } p =
      renderParent { options := o, package, decl } p := by
    intro p hp
    unfold renderParent
    rw [localRule?_congr (h.part hp)]
  unfold renderHeritage
  rw [List.map_congr_left hparent]

theorem renderTypeBody_congr (ho : Options.MapAlike f o o') {d : TypeDecl}
    (hd : SameRules o o' ((Item.type d).lookups package)) :
    renderTypeBody { options := o', package, decl } (d.mapComments f) =
      renderTypeBody { options := o, package, decl } d := by
  obtain ⟨name, kind, body, heritage, doc, comment, location⟩ := d
  have hbody : SameRules o o' (body.lookups package) := hd.mono (List.subset_append_left _ _)
  have hheritage : renderHeritage { options := o', package, decl } heritage =
      renderHeritage { options := o, package, decl } heritage :=
    renderHeritage_congr (hd.mono (List.subset_append_right _ _))
  have hinterface : renderTypeBody { options := o', package, decl }
        ⟨name, .struct, body.mapComments f, heritage, f doc, f comment, location⟩ =
      renderTypeBody { options := o, package, decl }
        ⟨name, .struct, body, heritage, doc, comment, location⟩ := by
    cases body with
    | record members =>
      rw [Shape.lookups_record] at hbody
      have hmembers := toProperties_congr package decl ho fun m hm =>
        toExpr_congr ho (hbody.part hm) 1
      rw [Shape.mapComments_record]
      refine (hmembers.bind (S := Eq) fun ps ps' hps => .ok ?_).eq.symm
      rw [hps, renderProperties_mapComments ho, hheritage]
    | _ => rfl
  rcases kind with _ | _ | _
  · exact hinterface
  · unfold renderTypeBody TypeDecl.mapComments
    simp only
    rw [toExpr_congr ho hbody]
  · exact hinterface

theorem renderType_congr (ho : Options.MapAlike f o o') {d : TypeDecl}
    (hd : SameRules o o' ((Item.type d).lookups package)) :
    renderType o' package (d.mapComments f) = renderType o package d := by
  have hbody : renderTypeBody { options := o', package, decl := d.name } (d.mapComments f) =
      renderTypeBody { options := o, package, decl := d.name } d := renderTypeBody_congr ho hd
  have hdoc := Comment.docBlock?_congr (ho.docs d.doc) 0 o.indent
  have hcomment := Comment.inline?_congr (ho.docs d.comment)
  unfold renderType
  rw [ho.indent]
  unfold TypeDecl.mapComments at hbody ⊢
  simp only [hbody, hdoc, hcomment]

theorem alike_mapComments (ho : Options.MapAlike f o o') {d : ConstDecl}
    (hg : Comment.shown o'.comments.hasConstInline (g d.comment) =
      Comment.shown o.comments.hasConstInline d.comment)
    (hd : SameRules o o' ((Item.const d).lookups package)) :
    ConstDecl.Alike Eq o o' package d (d.mapComments f g) where
  name := rfl
  value := rfl
  type := by
    unfold ConstDecl.mapComments
    cases d.type with
    | primitive _ | named _ | unresolved _ => exact .inl rfl
    | _ => exact .inr ⟨rfl, rfl⟩
  expr decl := .of_eq (fun _ => rfl) (toExpr_congr ho hd 0).symm
  check name := .refl (fun _ => rfl) (fun _ => rfl) _
  doc depth := by
    rw [ho.indent]
    exact Comment.docBlock?_congr (ho.docs d.doc) depth o.indent
  comment := Comment.inline?_congr hg

/-! ## Outputs -/

theorem generate_congr (ho : Options.MapAlike f o o') (hgroup : Options.GroupAlike o o')
    (hvalid : o'.validate = o.validate) (hfront : renderFront o' = renderFront o)
    (hg : ∀ text, Comment.shown o'.comments.hasConstInline (g text) =
      Comment.shown o.comments.hasConstInline text) {sections : List Section}
    (h : ∀ s ∈ sections, ∀ item ∈ s.items, SameRules o o' (item.lookups s.package)) :
    generate o' (sections.map (Section.mapComments f g)) = generate o sections := by
  have hsections : List.Forall₂ (Section.Beside
      (fun package d d' =>
        SameRules o o' ((Item.const d).lookups package) ∧ d' = d.mapComments f g)
      (fun package d d' =>
        SameRules o o' ((Item.type d).lookups package) ∧ d' = d.mapComments f))
      sections (sections.map (Section.mapComments f g)) := by
    refine Section.beside_map (fun _ => rfl) fun s hs item hitem => ?_
    have hrules := h s hs item hitem
    cases item with
    | type d => exact .type ⟨hrules, rfl⟩
    | const d => exact .const ⟨hrules, rfl⟩
    | emit text => exact .emit text
  have htaken : TakenNames.ofSections (sections.map (Section.mapComments f g)) =
      TakenNames.ofSections sections := by
    refine ofSections_eq ?_ ?_ hsections
    · rintro package d _ ⟨-, rfl⟩
      rfl
    · rintro package d _ ⟨-, rfl⟩
      rfl
  refine (generate_agree (fun _ => rfl) hvalid hfront htaken (fun package => ?_) ?_
    hsections).eq.symm
  · refine constsInStep_of_alike hgroup (fun _ => rfl) ?_ _
    rintro d _ ⟨hd, rfl⟩
    exact alike_mapComments ho (hg d.comment) hd
  · rintro package d _ ⟨hd, rfl⟩
    exact .of_eq (fun _ => rfl) (renderType_congr ho hd).symm

end WireTypes.Code
