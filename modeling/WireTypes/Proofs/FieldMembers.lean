import WireTypes.Proofs.Generation

/-!
# From fields to properties

A field of a struct becomes a member (`Resolution.outcome`), and a member that is not skipped
becomes a property (`toProperty?`). `LeftOut` and `Tells` describe the two steps together, in terms
of the Go name and the entries of the tag: which fields have no property, and what the property of
a field is. `properties_of_fields` says that the two steps do what they describe, for every field,
and that properties have the order of their fields.
-/

set_option autoImplicit false

namespace WireTypes

open Resolution

namespace Package

/-- The name by which a field goes in Go: its own, or that of the type that it embeds. -/
def Field.goName? (f : Field TypeExpr) : Option String :=
  f.name.or ((embedded? f.type).map (·.name))

/-- What the tag of a field says. A field without a tag has an empty one. -/
def Field.readTag (f : Field TypeExpr) : Except TagError Tag :=
  match f.tag with
  | none => pure ⟨[]⟩
  | some raw => Tag.read raw

namespace Tag

/-- The name that a tag gives to a field: its `yaml` entry decides, or its `json` entry if there is
none. Where it gives none, the field has its Go name in the style of the output. -/
def wireName (t : Tag) (style : NameStyle) (goName : String) : String :=
  match (t.get? "yaml").or (t.get? "json") with
  | some e => if e.name = "" then style.apply goName else e.name
  | none => style.apply goName

/-- A tag asks for an optional member: a `yaml` entry with `omitempty`, or, where there is no `yaml`
entry, a `json` entry with `omitempty` or `omitzero`. -/
def Omits (t : Tag) : Prop :=
  (∃ e ∈ t.get? "yaml", "omitempty" ∈ e.options) ∨
    t.get? "yaml" = none ∧
      ∃ e ∈ t.get? "json", "omitempty" ∈ e.options ∨ "omitzero" ∈ e.options

/-- The TypeScript type that a tag asks for. -/
def typeText? (t : Tag) : Option String :=
  (t.get? "tstype").bind fun e => if e.name = "" then none else some e.name

end Tag

/-- Why a field has no property: its tag makes it a parent, its name is not exported, or an entry of
its tag is a bare `-`. -/
inductive LeftOut (goName : String) (tag : Tag) : Prop
  | parent {e : TagPair} (he : tag.get? "tstype" = some e) (h : "extends" ∈ e.options)
  | unexported (h : isExported goName = false)
  | dash {key : String} {e : TagPair} (hkey : key ∈ ["json", "yaml", "tstype"])
      (he : tag.get? key = some e) (hname : e.name = "-") (hoptions : e.options = [])

end Package

namespace Resolution

/-! ## Entries -/

theorem has_iff {entry : Option Package.TagPair} {option : String} :
    has entry option ↔ ∃ e ∈ entry, option ∈ e.options := by
  cases entry with
  | none => simp [has]
  | some e => simp [has, Package.TagPair.has]

theorem leavesOut_iff {entry : Option Package.TagPair} :
    leavesOut entry ↔ ∃ e ∈ entry, e.name = "-" ∧ e.options = [] := by
  cases entry with
  | none => simp [leavesOut]
  | some e => simp [leavesOut, Package.TagPair.leavesOut]

theorem isOptional_iff (tag : Package.Tag) :
    isOptional (tag.get? "json") (tag.get? "yaml") ↔ tag.Omits := by
  unfold isOptional Package.Tag.Omits
  cases tag.get? "yaml" with
  | some yaml => simp [Package.TagPair.has]
  | none => cases tag.get? "json" <;> simp [has, Package.TagPair.has]

/-- An entry that does not leave the field out gives its name, unless that is empty. -/
theorem givenName?_eq {entry : Option Package.TagPair} (h : leavesOut entry = false) :
    givenName? entry = entry.bind fun e => if e.name = "" then none else some e.name := by
  cases entry with
  | none => rfl
  | some e =>
    have hdash : e.leavesOut = false := h
    simp [givenName?, hdash]

/-- A field has no property exactly if it is no member or its member is skipped. -/
theorem leftOut_iff {goName : String} {tag : Package.Tag} (doc comment : Option String)
    (type : Shape) :
    Package.LeftOut goName tag ↔
      has (tag.get? "tstype") "extends" ∨ Package.isExported goName = false ∨
        (memberOf goName tag doc comment type).skip := by
  simp only [memberOf, Bool.or_eq_true, leavesOut_iff, has_iff]
  constructor
  · rintro (⟨he, h⟩ | h | ⟨hkey, he, hname, hoptions⟩)
    · exact .inl ⟨_, he, h⟩
    · exact .inr (.inl h)
    · simp only [List.mem_cons, List.not_mem_nil, or_false] at hkey
      rcases hkey with rfl | rfl | rfl
      · exact .inr (.inr (.inl (.inl ⟨_, he, hname, hoptions⟩)))
      · exact .inr (.inr (.inl (.inr ⟨_, he, hname, hoptions⟩)))
      · exact .inr (.inr (.inr ⟨_, he, hname, hoptions⟩))
  · rintro (⟨e, he, h⟩ | h | (⟨e, he, hname, hoptions⟩ | ⟨e, he, hname, hoptions⟩) |
      ⟨e, he, hname, hoptions⟩)
    · exact .parent he h
    · exact .unexported h
    · exact .dash (.head _) he hname hoptions
    · exact .dash (.tail _ (.head _)) he hname hoptions
    · exact .dash (.tail _ (.tail _ (.head _))) he hname hoptions

instance (goName : String) (tag : Package.Tag) : Decidable (Package.LeftOut goName tag) :=
  decidable_of_iff _ (leftOut_iff none none (.primitive .any)).symm

/-! ## Names and tags of fields -/

theorem exists_fieldName {f : Package.Field Package.TypeExpr} {goName : String}
    (h : f.goName? = some goName) (decl : String) :
    ∃ embeds, fieldName decl f.type f.name = .ok (goName, embeds) := by
  unfold Package.Field.goName? at h
  unfold fieldName
  split
  · rename_i name hname
    rw [hname] at h
    cases h
    exact ⟨none, rfl⟩
  · rename_i hname
    rw [hname, Option.none_or] at h
    obtain ⟨e, he, rfl⟩ := Option.map_eq_some_iff.1 h
    rw [he]
    exact ⟨some e, rfl⟩

theorem fieldTag_of_readTag {f : Package.Field Package.TypeExpr} {tag : Package.Tag}
    (h : f.readTag = .ok tag) (decl field : String) : fieldTag decl field f.tag = .ok tag := by
  unfold Package.Field.readTag at h
  unfold fieldTag
  split
  · rename_i hraw
    rw [hraw] at h
    cases h
    rfl
  · rename_i raw hraw
    rw [hraw] at h
    simp only [h]
    rfl

end Resolution

namespace Code

variable {s : Resolution.Scope} {ctx : Context} {decl : String} {depth : Nat}

/-- The property of a field: that of the member that it becomes, if it becomes one. -/
def fieldProperty? (s : Resolution.Scope) (ctx : Context) (decl : String) (depth : Nat)
    (f : Package.Field Package.TypeExpr) : Except Error (Option Property) := do
  match ← outcome s decl f with
  | .member m => toProperty? ctx m depth
  | .parent _ | .dropped => pure none

/-- The properties of the fields of a struct: those of the members that they become. -/
def fieldProperties (s : Resolution.Scope) (ctx : Context) (decl : String) (depth : Nat)
    (fields : List (Package.Field Package.TypeExpr)) : Except Error (List Property) := do
  let found ← outcomes s decl fields
  toProperties ctx (members found) depth

/-- What the property of a field with a tag is, for a type with the expression `mapped`. -/
structure Tells (o : Options) (f : Package.Field Package.TypeExpr) (goName : String)
    (tag : Package.Tag) (mapped : Expr) (p : Property) : Prop where
  name : p.name = propertyName (tag.wireName o.nameStyle goName)
  optional : p.optional ↔ tag.Omits
  readonly : p.readonly ↔ ∃ e ∈ tag.get? "tstype", "readonly" ∈ e.options
  type : p.type = (tag.typeText?.map Expr.ofText).getD mapped
  doc : p.doc = f.doc.bind Package.Comment.clean
  comment : p.comment = f.comment.bind Package.Comment.clean

/-- The name of a member whose naming entry does not leave the field out. -/
theorem memberName_eq {tag : Package.Tag} {goName : String}
    (h : leavesOut ((tag.get? "yaml").or (tag.get? "json")) = false) (o : Options) :
    memberName o (givenName? ((tag.get? "yaml").or (tag.get? "json"))) goName =
      tag.wireName o.nameStyle goName := by
  unfold Package.Tag.wireName
  rw [givenName?_eq h]
  cases (tag.get? "yaml").or (tag.get? "json") with
  | none => rfl
  | some e => by_cases hname : e.name = "" <;> simp [memberName, hname]

/-- The property of a member that is not skipped is what its field tells. -/
theorem tells_propertyOf {f : Package.Field Package.TypeExpr} {goName : String}
    {tag : Package.Tag} {type : Shape} {mapped : Expr}
    (hskip : (memberOf goName tag f.doc f.comment type).skip = false)
    (hmapped : toExpr ctx type depth = .ok mapped) :
    ∃ p, toProperty? ctx (memberOf goName tag f.doc f.comment type) depth = .ok (some p) ∧
      Tells ctx.options f goName tag mapped p := by
  let m := memberOf goName tag f.doc f.comment type
  have hentries := hskip
  simp only [memberOf, Bool.or_eq_false_iff] at hentries
  obtain ⟨⟨hjson, hyaml⟩, htstype⟩ := hentries
  have hnaming : leavesOut ((tag.get? "yaml").or (tag.get? "json")) = false := by
    cases htag : tag.get? "yaml" with
    | none => exact hjson
    | some e =>
      rw [htag] at hyaml
      exact hyaml
  have htype : memberType ctx m depth = .ok ((tag.typeText?.map Expr.ofText).getD mapped) := by
    have hoverride : m.override = tag.typeText? := givenName?_eq htstype
    unfold memberType
    rw [hoverride]
    cases tag.typeText? with
    | some expr => rfl
    | none => exact hmapped
  refine ⟨propertyOf ctx.options m ((tag.typeText?.map Expr.ofText).getD mapped), ?_, ?_⟩
  · exact toProperty?_eq_some_iff.2 ⟨hskip, _, htype, rfl⟩
  · constructor
    · exact congrArg propertyName (memberName_eq hnaming ctx.options)
    · exact isOptional_iff tag
    · exact has_iff
    · rfl
    · rfl
    · rfl

/-! ## Fields -/

section Field

variable {f : Package.Field Package.TypeExpr} {goName : String} {tag : Package.Tag} {type : Shape}

/-- The two steps together, for a field that both accept. -/
theorem fieldProperty?_eq (hname : f.goName? = some goName) (htag : f.readTag = .ok tag)
    (htype : shape s decl f.type = .ok type) :
    fieldProperty? s ctx decl depth f =
      if has (tag.get? "tstype") "extends" || !Package.isExported goName then pure none
      else toProperty? ctx (memberOf goName tag f.doc f.comment type) depth := by
  obtain ⟨embeds, hname⟩ := exists_fieldName hname decl
  have htag := fieldTag_of_readTag htag decl goName
  obtain ⟨fieldType, fieldName, raw, doc, comment⟩ := f
  rw [fieldProperty?, outcome, hname]
  simp only [bind, Except.bind, htag]
  cases has (tag.get? "tstype") "extends" with
  | true => cases embeds <;> rfl
  | false =>
    cases Package.isExported goName with
    | false => cases embeds <;> rfl
    | true =>
      simp only [htype]
      cases embeds <;> rfl

theorem fieldProperty?_of_leftOut (hname : f.goName? = some goName) (htag : f.readTag = .ok tag)
    (htype : shape s decl f.type = .ok type) (h : Package.LeftOut goName tag) :
    fieldProperty? s ctx decl depth f = .ok none := by
  rw [fieldProperty?_eq hname htag htype]
  rcases (leftOut_iff f.doc f.comment type).1 h with h | h | h
  · rw [h]
    rfl
  · rw [h, Bool.not_false, Bool.or_true]
    rfl
  · rw [toProperty?_eq, h]
    exact ite_self _

theorem exists_fieldProperty?_tells {mapped : Expr} (hname : f.goName? = some goName)
    (htag : f.readTag = .ok tag) (htype : shape s decl f.type = .ok type)
    (hmapped : toExpr ctx type depth = .ok mapped) (h : ¬Package.LeftOut goName tag) :
    ∃ p, fieldProperty? s ctx decl depth f = .ok (some p) ∧
      Tells ctx.options f goName tag mapped p := by
  rw [leftOut_iff f.doc f.comment type, not_or, not_or, Bool.not_eq_true, Bool.not_eq_false,
    Bool.not_eq_true] at h
  obtain ⟨hextends, hexported, hskip⟩ := h
  rw [fieldProperty?_eq hname htag htype, hextends, hexported]
  exact tells_propertyOf hskip hmapped

end Field

/-! ## Fields in order -/

/-- A field that resolves has a property or none, and puts it in front of those of later fields. -/
theorem exists_fieldProperty? {f : Package.Field Package.TypeExpr} {o : Outcome}
    (h : outcome s decl f = .ok o) (ctx : Context) (depth : Nat) :
    ∃ p?, fieldProperty? s ctx decl depth f = .ok p? ∧
      ∀ more, toProperties ctx (members (o :: more)) depth =
        (toProperties ctx (members more) depth).map (p?.toList ++ ·) := by
  have hnone (x : Except Error (List Property)) :
      x = x.map ((none : Option Property).toList ++ ·) := by
    cases x <;> rfl
  rw [fieldProperty?, h]
  obtain ⟨goName, _, tag, -, -,
    ⟨e, -, -, rfl⟩ | ⟨-, -, rfl⟩ | ⟨-, -, rfl⟩ | ⟨-, -, type, htype, rfl⟩⟩ := outcome_cases h
  · exact ⟨none, rfl, fun more => hnone _⟩
  · exact ⟨none, rfl, fun more => hnone _⟩
  · exact ⟨none, rfl, fun more => hnone _⟩
  · have hspelled := spelled_of_answersAll (shape_nodes htype)
    have hmapped : ∃ e, toExpr ctx (memberOf goName tag f.doc f.comment type).type depth = .ok e :=
      exists_toExpr ctx hspelled depth
    obtain ⟨p?, hp⟩ := exists_toProperty? hmapped
    refine ⟨p?, hp, fun more => ?_⟩
    refine (toProperties_cons ctx _ (members more) depth).trans ?_
    rw [hp]
    rfl

/-- The fields of a struct have their properties one by one. -/
theorem fieldProperties_eq_mapM (fields : List (Package.Field Package.TypeExpr)) :
    fieldProperties s ctx decl depth fields =
      (fields.mapM (fieldProperty? s ctx decl depth)).map List.reduceOption := by
  induction fields with
  | nil => rfl
  | cons f rest ih =>
    rw [List.mapM_cons, fieldProperties, outcomes]
    cases ho : outcome s decl f with
    | error e =>
      rw [fieldProperty?, ho]
      rfl
    | ok o =>
      obtain ⟨p?, hp, hmore⟩ := exists_fieldProperty? ho ctx depth
      have hfirst : (do
            let more ← outcomes s decl rest
            let found ← pure (o :: more)
            toProperties ctx (members found) depth) =
          (fieldProperties s ctx decl depth rest).map (p?.toList ++ ·) := by
        rw [fieldProperties]
        cases outcomes s decl rest with
        | error e => rfl
        | ok more => exact hmore more
      rw [hp]
      refine (bind_assoc (outcomes s decl rest) _ _).trans (hfirst.trans ?_)
      rw [ih]
      cases rest.mapM (fieldProperty? s ctx decl depth) with
      | error e => rfl
      | ok ps? => cases p? <;> rfl

/-- What becomes of the fields of a struct. -/
theorem properties_of_fields (s : Resolution.Scope) (ctx : Context) (decl : String) (depth : Nat)
    (fields : List (Package.Field Package.TypeExpr)) :
    fieldProperties s ctx decl depth fields =
        (fields.mapM (fieldProperty? s ctx decl depth)).map List.reduceOption ∧
      ∀ f ∈ fields, ∀ goName tag type, f.goName? = some goName → f.readTag = .ok tag →
        shape s decl f.type = .ok type → ∃ mapped, toExpr ctx type depth = .ok mapped ∧
          (fieldProperty? s ctx decl depth f = .ok none ↔ Package.LeftOut goName tag) ∧
          (¬Package.LeftOut goName tag → ∃ p, fieldProperty? s ctx decl depth f = .ok (some p) ∧
            Tells ctx.options f goName tag mapped p) := by
  refine ⟨fieldProperties_eq_mapM fields, fun f _ goName tag type hname htag htype => ?_⟩
  obtain ⟨mapped, hmapped⟩ :=
    exists_toExpr ctx (spelled_of_answersAll (shape_nodes htype)) depth
  have hsome := exists_fieldProperty?_tells hname htag htype hmapped
  refine ⟨mapped, hmapped, ⟨fun hnone => ?_, fieldProperty?_of_leftOut hname htag htype⟩, hsome⟩
  by_contra hin
  obtain ⟨p, hp, -⟩ := hsome hin
  cases hp.symm.trans hnone

/-- A field with a JSON name and an option, a YAML name, and an option for TypeScript. -/
def idField : Package.Field Package.TypeExpr :=
  { type := .basic "string", name := some "ID"
    tag := some "json:\"id,omitempty\" yaml:\"ident\" tstype:\",readonly\"", doc := none,
    comment := some "never empty" }

/-- The fields of a struct: two members with names of their own, one with its Go name, which is that
of the embedded type, and one that is left out. -/
def accountFields : List (Package.Field Package.TypeExpr) :=
  [idField,
    { type := .pointer (.named none "Base"), name := none, tag := none, doc := none,
      comment := none },
    { type := .basic "string", name := some "Secret", tag := some "json:\"-\"", doc := none,
      comment := none },
    { type := .basic "int", name := some "Kind", tag := some "json:\",omitzero\" tstype:\"0 | 1\"",
      doc := none, comment := none }]

theorem accountFields_properties :
    let s : Resolution.Scope := { package := "p", exported := ["Base"] }
    let o : Options := { nameStyle := .lowerCase }
    let ctx : Context := { options := o, package := "p", decl := "Account" }
    (accountFields.mapM (fieldProperty? s ctx "Account" 1)).toOption.map
        (·.map (·.map fun p => (p.name, p.optional, p.readonly, p.type.text))) =
      some [some ("ident", false, true, "string"), some ("base", false, false, "Base | null"), none,
        some ("kind", true, false, "0 | 1")] ∧
    fieldProperties s ctx "Account" 1 accountFields =
      (accountFields.mapM (fieldProperty? s ctx "Account" 1)).map List.reduceOption ∧
    ∃ tag p, idField.readTag = .ok tag ∧ ¬Package.LeftOut "ID" tag ∧
      fieldProperty? s ctx "Account" 1 idField = .ok (some p) ∧ p.name = "ident" ∧
      p.optional = false ∧ p.readonly = true ∧ p.type = .simple "string" .string ∧
      p.comment = some "never empty" := by
  intro s o ctx
  let tag : Package.Tag :=
    ⟨[⟨"json", "id", ["omitempty"]⟩, ⟨"yaml", "ident", []⟩, ⟨"tstype", "", ["readonly"]⟩]⟩
  have hread : idField.readTag = .ok tag := by cbv
  have hin : ¬Package.LeftOut "ID" tag := by decide +kernel
  have htype : shape s "Account" idField.type = .ok (.primitive .string) := rfl
  obtain ⟨hall, hfields⟩ := properties_of_fields s ctx "Account" 1 accountFields
  obtain ⟨mapped, hmapped, -, hsome⟩ :=
    hfields idField List.mem_cons_self "ID" tag _ rfl hread htype
  obtain ⟨p, hp, htells⟩ := hsome hin
  cases hmapped
  refine ⟨by decide +kernel, hall, tag, p, hread, hin, hp, ?_⟩
  refine ⟨htells.name.trans (by decide +kernel), ?_, ?_, htells.type, htells.comment.trans ?_⟩
  · refine Bool.eq_false_iff.2 fun h => ?_
    exact absurd ((isOptional_iff tag).2 (htells.optional.1 h)) (by decide +kernel)
  · exact htells.readonly.2 ⟨_, rfl, by decide⟩
  · cbv

end Code

end WireTypes
