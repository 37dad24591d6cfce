import WireTypes.Proofs.Annotated

/-!
# Comments that are shown

An output is compared with the one that the same input has without a header and without comments
(`Options.uncommented`): declaration by declaration, comments are put in, and the lists of line
comments (`Shape.lineComments`, `Block.lineComments`) say which ones.

* `toExpr_shows`: expressions of shapes.
* `renderType_shows`, `renderSingle_shows`, `renderFamily_shows`: declarations.
-/

set_option autoImplicit false

namespace WireTypes

/-! ## Comments at ends of lines -/

mutual

/-- The comments at ends of lines inside the expression of a shape, in order. Keys of maps show
none: an object type does not index. -/
def Shape.lineComments (keep : Bool) : Shape → List String
  | .record members => Shape.lineCommentsOfMembers keep members
  | .map _ value => value.lineComments keep
  | .sequence elem => elem.lineComments keep
  | .optional inner => inner.lineComments keep
  | .pointer inner => inner.lineComments keep
  | .primitive _ | .named _ | .unresolved _ => []
termination_by structural s => s

/-- The comments on the lines of members, in order. -/
def Shape.lineCommentsOfMembers (keep : Bool) : List (Member Shape) → List String
  | [] => []
  | m :: rest => Shape.lineCommentsOfMember keep m ++ Shape.lineCommentsOfMembers keep rest
termination_by structural members => members

/-- The comments on the lines of a member, its own after those inside its type. -/
def Shape.lineCommentsOfMember (keep : Bool) : Member Shape → List String
  | ⟨type, _, _, _, _, skip, override, _, comment⟩ =>
    if skip then []
    else
      (if override.isSome then [] else type.lineComments keep) ++
        (Code.Comment.shown keep comment).toList
termination_by structural m => m

end

/-- The comments at ends of lines of a type, in order. -/
def TypeDecl.lineComments (l : CommentLevel) (d : TypeDecl) : List String :=
  d.body.lineComments l.hasInline ++ (Code.Comment.shown l.hasDocs d.comment).toList

/-- The comment at the end of a constant. -/
def ConstDecl.lineComment (l : CommentLevel) (d : ConstDecl) : List String :=
  (Code.Comment.shown l.hasConstInline d.comment).toList

/-- Options for an output without a header and without comments. -/
def Options.uncommented (o : Options) : Options :=
  { o with header := "", comments := .none }

namespace Code

/-- The comments at ends of lines of a block, in order. The types of the constants of a family are
not written. -/
def Block.lineComments (l : CommentLevel) : Block → List String
  | .type d => d.lineComments l
  | .consts (.single d) => d.type.lineComments l.hasInline ++ d.lineComment l
  | .consts (.family f) => f.members.flatMap (ConstDecl.lineComment l)
  | .emit _ => []

/-- A context for an output without comments. -/
def Context.uncommented (ctx : Context) : Context :=
  { ctx with options := ctx.options.uncommented }

/-! ## Expressions -/

/-- An expression with comments put in. They change nothing for the rules around it. -/
structure Expr.Shows (texts : List String) (e e' : Expr) : Prop where
  kind : e'.kind = e.kind
  nullable : e'.nullable = e.nullable
  text : Code.Shows texts e.text e'.text
  /-- No comment is put into a key. -/
  key : e.canIndex → e'.text = e.text

namespace Expr.Shows

variable {texts : List String} {e e' : Expr}

theorem refl (e : Expr) : e.Shows [] e :=
  ⟨rfl, rfl, .refl _, fun _ => rfl⟩

theorem other {t t' : String} (h : Code.Shows texts t t') :
    (Expr.simple t .other).Shows texts (.simple t' .other) :=
  ⟨rfl, rfl, h, fun hkey => nomatch hkey⟩

theorem canIndex (h : e.Shows texts e') : e'.canIndex = e.canIndex := by
  unfold Expr.canIndex
  rw [h.kind]

theorem orElse (h : e.Shows texts e') (alternative : String) :
    (e.orElse alternative).Shows texts (e'.orElse alternative) := by
  refine ⟨rfl, ?_, (h.text.before " | ").before alternative, fun hkey => nomatch hkey⟩
  show (e'.nullable || _) = (e.nullable || _)
  rw [h.nullable]

theorem pointer (h : e.Shows texts e') : (pointerExpr e).Shows texts (pointerExpr e') := by
  unfold pointerExpr
  rw [h.nullable]
  split
  · exact h
  · exact h.orElse "null"

theorem sequence (h : e.Shows texts e') :
    (Expr.simple (e.operand ++ "[]") .other).Shows texts (.simple (e'.operand ++ "[]") .other) := by
  refine other (Annotated.before ?_ "[]")
  unfold operand
  rw [h.kind]
  split
  · exact (Annotated.code "(" h.text).before ")"
  · exact h.text

theorem map {key key' : Expr} {inKey : List String} (hkey : key.Shows inKey key')
    (h : e.Shows texts e') : (mapExpr key e).Shows texts (mapExpr key' e') := by
  have hindex : (if key'.canIndex then key'.text else "string") =
      if key.canIndex then key.text else "string" := by
    rw [hkey.canIndex]
    split
    · rename_i hcan
      exact hkey.key hcan
    · rfl
  unfold mapExpr
  rw [hindex]
  exact other ((Annotated.code _ (h.orElse "undefined").text).before _)

end Expr.Shows

/-! ## Members -/

theorem renderProperties_append (o : Options) (depth : Nat) (ps qs : List Property) :
    renderProperties o depth (ps ++ qs) =
      renderProperties o depth ps ++ renderProperties o depth qs := by
  unfold renderProperties
  rw [List.map_append, String.join_append]

theorem renderProperties_singleton (o : Options) (depth : Nat) (p : Property) :
    renderProperties o depth [p] = p.render o depth := by
  unfold renderProperties
  rw [List.map_singleton, String.join_cons, String.join_nil, String.append_empty]

variable {ctx : Context} {depth : Nat}

/-- A property with comments put in: inside its type, and at the end of its line. -/
theorem render_shows (o : Options) (depth : Nat) (p : Property) {e' : Expr} {texts : List String}
    (h : p.type.Shows texts e') :
    Shows (texts ++ (Comment.shown o.comments.hasInline p.comment).toList)
      (p.render o.uncommented depth) ({ p with type := e' }.render o depth) := by
  unfold Property.render
  simp only [String.append_assoc]
  refine .docBlock? _ _ _ _ (.code _ (.code _ (.code _ (.code _ (.code _ ?_)))))
  exact h.text.append (.code ";" (Shows.lineEnd _ _))

theorem toProperty?_shows {m : Member Shape}
    (h : Agree Eq (Expr.Shows (m.type.lineComments ctx.options.comments.hasInline))
      (toExpr ctx.uncommented m.type depth) (toExpr ctx m.type depth)) :
    Agree Eq (fun p p' => Shows (Shape.lineCommentsOfMember ctx.options.comments.hasInline m)
        (renderProperties ctx.options.uncommented depth p.toList)
        (renderProperties ctx.options depth p'.toList))
      (toProperty? ctx.uncommented m depth) (toProperty? ctx m depth) := by
  obtain ⟨type, goName, rename, optional, readonly, skip, override, doc, comment⟩ := m
  rw [Shape.lineCommentsOfMember.eq_def, toProperty?.eq_def, toProperty?.eq_def]
  cases skip with
  | true => exact .ok .nil
  | false =>
    have hrender {texts : List String} {e e' : Expr} (he : e.Shows texts e') (name : String) :
        Shows (texts ++ (Comment.shown ctx.options.comments.hasInline comment).toList)
          (renderProperties ctx.options.uncommented depth
            [⟨name, optional, readonly, e, doc, comment⟩])
          (renderProperties ctx.options depth [⟨name, optional, readonly, e', doc, comment⟩]) := by
      rw [renderProperties_singleton, renderProperties_singleton]
      exact render_shows ctx.options depth ⟨name, optional, readonly, e, doc, comment⟩ he
    cases override with
    | some expr => exact .ok (hrender (.refl (.ofText expr)) _)
    | none => exact h.bind fun e e' he => .ok (hrender he _)

theorem toProperties_shows {ms : List (Member Shape)}
    (h : ∀ m ∈ ms, Agree Eq (Expr.Shows (m.type.lineComments ctx.options.comments.hasInline))
      (toExpr ctx.uncommented m.type depth) (toExpr ctx m.type depth)) :
    Agree Eq (fun ps ps' => Shows (Shape.lineCommentsOfMembers ctx.options.comments.hasInline ms)
        (renderProperties ctx.options.uncommented depth ps)
        (renderProperties ctx.options depth ps'))
      (toProperties ctx.uncommented ms depth) (toProperties ctx ms depth) := by
  induction ms with
  | nil => exact .ok .nil
  | cons m rest ih =>
    rw [toProperties_cons, toProperties_cons, Shape.lineCommentsOfMembers]
    refine (toProperty?_shows (h m List.mem_cons_self)).bind fun p p' hp => ?_
    refine (ih fun m hm => h m (List.mem_cons_of_mem _ hm)).bind fun ps ps' hps => .ok ?_
    rw [renderProperties_append, renderProperties_append]
    exact hp.append hps

theorem toExpr_shows (ctx : Context) (s : Shape) (depth : Nat) :
    Agree Eq (Expr.Shows (s.lineComments ctx.options.comments.hasInline))
      (toExpr ctx.uncommented s depth) (toExpr ctx s depth) := by
  have hsame {x : Except Error Expr} : Agree Eq (Expr.Shows []) x x :=
    .refl (fun _ => rfl) .refl x
  induction s generalizing depth with
  | primitive _ | named _ | unresolved _ =>
    rw [Shape.lineComments, toExpr, toExpr]
    exact hsame
  | map key value ihk ihv =>
    rw [Shape.lineComments, toExpr, toExpr]
    refine (ihk depth).bind fun k k' hk => (ihv depth).bind fun v v' hv => .ok ?_
    exact .map hk hv
  | sequence elem ih =>
    rw [Shape.lineComments, toExpr, toExpr]
    split
    · rename_i hbyte
      cases elem with
      | primitive p => exact hsame
      | _ => cases hbyte
    · exact (ih depth).bind fun e e' he => .ok he.sequence
  | optional inner ih =>
    rw [Shape.lineComments, toExpr, toExpr]
    exact (ih depth).bind fun e e' he => .ok (he.orElse "undefined")
  | pointer inner ih =>
    rw [Shape.lineComments, toExpr, toExpr]
    exact (ih depth).bind fun e e' he => .ok he.pointer
  | record members ih =>
    rw [Shape.lineComments, toExpr, toExpr]
    refine (toProperties_shows fun m hm => ih m hm (depth + 1)).bind fun ps ps' hps => .ok ?_
    exact .other (((Annotated.code "\x7b\n" hps).before _).before "\x7d")

/-! ## Declarations -/

theorem renderTypeBody_shows (ctx : Context) (d : TypeDecl) :
    Agree Eq (Shows (d.body.lineComments ctx.options.comments.hasInline))
      (renderTypeBody ctx.uncommented d) (renderTypeBody ctx d) := by
  obtain ⟨name, kind, body, heritage, doc, comment, location⟩ := d
  have hinterface : Agree Eq (Shows (body.lineComments ctx.options.comments.hasInline))
      (renderTypeBody ctx.uncommented ⟨name, .struct, body, heritage, doc, comment, location⟩)
      (renderTypeBody ctx ⟨name, .struct, body, heritage, doc, comment, location⟩) := by
    cases body with
    | record members =>
      rw [Shape.lineComments]
      refine (toProperties_shows fun m _ => toExpr_shows ctx m.type 1).bind fun ps ps' hps => .ok ?_
      exact (Annotated.code _ hps).before "\x7d"
    | _ => exact .error rfl
  rcases kind with _ | _ | _
  · exact hinterface
  · unfold renderTypeBody
    exact (toExpr_shows ctx body 0).bind fun e e' he => .ok ((Annotated.code _ he.text).before ";")
  · exact hinterface

variable {o : Options} {package : String}

theorem renderType_shows (d : TypeDecl) :
    Agree Eq (Shows (d.lineComments o.comments)) (renderType o.uncommented package d)
      (renderType o package d) := by
  unfold renderType
  refine (Agree.refl (fun _ => rfl) (fun _ => rfl) _).bind fun _ _ _ => ?_
  refine Agree.bind (renderTypeBody_shows ⟨o, package, d.name⟩ d) fun body body' hbody => .ok ?_
  simp only [String.append_assoc]
  exact .docBlock? _ _ _ _ (hbody.append (Shows.lineEnd _ _))

/-- What a type is written with behind a name. -/
def typeClause (typeText : Option String) : String :=
  match typeText with
  | some type => ": " ++ type
  | none => ""

theorem renderConst_shows {typeText typeText' : Option String} {texts : List String}
    (h : Shows texts (typeClause typeText) (typeClause typeText')) (d : ConstDecl) :
    Agree Eq (Shows (texts ++ d.lineComment o.comments))
      (renderConst o.uncommented typeText d) (renderConst o typeText' d) := by
  unfold renderConst
  refine (Agree.refl (fun _ => rfl) (fun _ => rfl) _).bind fun _ _ _ => .ok ?_
  simp only [String.append_assoc]
  refine .docBlock? _ _ _ _ (.code _ (.code _ (h.append ?_)))
  exact .code _ (.code _ (.code _ (Shows.lineEnd _ _)))

theorem renderConsts_shows (typeText : Option String) (ds : List ConstDecl) :
    Agree Eq (Shows (ds.flatMap (ConstDecl.lineComment o.comments)))
      (renderConsts o.uncommented typeText ds) (renderConsts o typeText ds) := by
  have hsame : Shows [] (typeClause typeText) (typeClause typeText) := .refl _
  exact (Shows.joinM fun d _ => renderConst_shows hsame d).bind fun ts us hts => .ok hts

theorem renderSingle_of_primitive {d : ConstDecl} {p : Package.Primitive}
    (h : d.type = .primitive p) : renderSingle ctx d = renderConst ctx.options none d := by
  unfold renderSingle
  rw [h]
  rfl

theorem renderSingle_shows (ctx : Context) (d : ConstDecl) :
    Agree Eq (Shows (Block.lineComments ctx.options.comments (.consts (.single d))))
      (renderSingle ctx.uncommented d) (renderSingle ctx d) := by
  by_cases hd : ∃ p, d.type = .primitive p
  · obtain ⟨p, hp⟩ := hd
    have hnone : Shows [] (typeClause none) (typeClause none) := .refl _
    rw [renderSingle_of_primitive hp, renderSingle_of_primitive hp, Block.lineComments, hp]
    exact renderConst_shows hnone d
  · rw [renderSingle_of_not_primitive (not_exists.1 hd),
      renderSingle_of_not_primitive (not_exists.1 hd)]
    refine Agree.bind (toExpr_shows { ctx with decl := d.name } d.type 0) fun e e' he => ?_
    exact renderConst_shows (Annotated.code ": " he.text) d

/-! ## Families -/

/-- The alias of a family, if it has one of its own, stands for a name. -/
def Family.IsNamed (f : Family) : Prop :=
  ∀ backing, f.backing = some backing → backing.typeName?.isSome

variable {f : Family}

theorem replacedType?_uncommented : replacedType? ctx.uncommented f = replacedType? ctx f := by
  unfold replacedType?
  cases f.first.type with
  | _ => rfl

theorem toExpr_name {s : Shape} (h : s.typeName?.isSome) (depth : Nat) :
    toExpr ctx.uncommented s depth = toExpr ctx s depth := by
  cases s with
  | primitive _ | named _ | unresolved _ => rfl
  | _ => cases h

theorem renderAliased_shows {backing : Shape} (h : backing.typeName?.isSome) :
    Agree Eq (Shows (f.members.flatMap (ConstDecl.lineComment ctx.options.comments)))
      (renderAliased ctx.uncommented f backing) (renderAliased ctx f backing) := by
  have htype : toExpr { ctx with decl := f.name }.uncommented backing 0 =
      toExpr { ctx with decl := f.name } backing 0 := toExpr_name h 0
  unfold renderAliased
  refine (Agree.refl (fun _ => rfl) (fun _ => rfl) _).bind fun _ _ _ => ?_
  refine (Agree.of_eq (fun _ => rfl) htype).bind fun type type' hsame => ?_
  rw [hsame]
  exact (renderConsts_shows (some f.name) f.members).bind fun t u ht => .ok (.code _ ht)

theorem renderTypeofUnion_shows :
    Agree Eq (Shows (f.members.flatMap (ConstDecl.lineComment ctx.options.comments)))
      (renderTypeofUnion ctx.uncommented f) (renderTypeofUnion ctx f) := by
  unfold renderTypeofUnion
  refine (Agree.refl (fun _ => rfl) (fun _ => rfl) _).bind fun _ _ _ => ?_
  refine (renderConsts_shows none f.members).bind fun t u ht => .ok ?_
  simp only [String.append_assoc]
  exact ht.before _

theorem renderCase_shows (family : String) (d : ConstDecl) :
    Shows (d.lineComment o.comments) (renderCase o.uncommented family d)
      (renderCase o family d) := by
  unfold renderCase
  simp only [String.append_assoc]
  refine .docBlock? _ _ _ _ (.code _ (.code _ (.code _ (.code _ (.code _ ?_)))))
  exact Shows.lineEnd _ _

theorem renderEnumeration_shows :
    Agree Eq (Shows (f.members.flatMap (ConstDecl.lineComment ctx.options.comments)))
      (renderEnumeration ctx.uncommented f) (renderEnumeration ctx f) := by
  unfold renderEnumeration
  refine (Agree.refl (fun _ => rfl) (fun _ => rfl) _).bind fun _ _ _ => .ok ?_
  exact (Annotated.code _ (Shows.join fun d _ => renderCase_shows f.name d)).before "\x7d\n"

theorem renderFamily_shows (ctx : Context) (hf : f.IsNamed) :
    Agree Eq (Shows (Block.lineComments ctx.options.comments (.consts (.family f))))
      (renderFamily ctx.uncommented f) (renderFamily ctx f) := by
  unfold renderFamily
  refine (Agree.of_eq (fun _ => rfl) replacedType?_uncommented).bind fun type type' hsame => ?_
  rw [hsame]
  cases type' with
  | some type => exact renderConsts_shows _ f.members
  | none =>
    cases hb : f.backing with
    | none => exact renderConsts_shows _ f.members
    | some backing =>
      have hstyle : ctx.uncommented.options.aliasStyle = ctx.options.aliasStyle := rfl
      simp only [hstyle]
      split
      · exact renderTypeofUnion_shows
      · split
        · exact renderEnumeration_shows
        · exact renderAliased_shows (hf backing hb)
      · exact renderAliased_shows (hf backing hb)

end WireTypes.Code
