import WireTypes.Proofs.SideBySide

/-!
# Constants that go alike

`ConstDecl.Alike` lists what the text of a constant is made of: two constants that have it in common
can stand for each other wherever constants are written.

* `ofRun?_alike`: they make families alike, under the same aliases.
* `renderFamily_agree`: such families agree in every style.
* `constsInStep_of_alike`: hence lists of them are laid out in step, the names taken included.
-/

set_option autoImplicit false

namespace WireTypes.Code

variable {E : Error → Error → Prop} {o o' : Options} {package : String}

/-- Two constants, each under its options, with the same name, value and visible comments. Their
types are the same unless neither of them is a name; in any case their expressions agree. -/
structure ConstDecl.Alike (E : Error → Error → Prop) (o o' : Options) (package : String)
    (d d' : ConstDecl) : Prop where
  name : d'.name = d.name
  value : d'.value = d.value
  type : d'.type = d.type ∨ d.type.typeName? = none ∧ d'.type.typeName? = none
  expr : ∀ decl, Agree E Eq (toExpr { options := o, package, decl } d.type 0)
    (toExpr { options := o', package, decl } d'.type 0)
  check : ∀ name, Agree E Eq (checkName name d.location) (checkName name d'.location)
  doc : ∀ depth, Comment.docBlock? o'.comments.hasDocs d'.doc depth o'.indent =
    Comment.docBlock? o.comments.hasDocs d.doc depth o.indent
  comment : Comment.inline? o'.comments.hasConstInline d'.comment =
    Comment.inline? o.comments.hasConstInline d.comment

/-- Options that group constants, and indent, in the same way. -/
structure Options.GroupAlike (o o' : Options) : Prop where
  grouped : o'.groupConstants = o.groupConstants
  style : o'.aliasStyle = o.aliasStyle
  indent : o'.indent = o.indent

/-! ## Runs -/

section Runs

variable {α β : Type} {R : α → β → Prop} {r : α → α → Bool} {s : β → β → Bool}

theorem forall₂_splitByLoop (hrs : ∀ a a' b b', R a b → R a' b' → r a a' = s b b') {as : List α}
    {bs : List β} (h : List.Forall₂ R as bs) {a : α} {b : β} (hab : R a b) {g : List α}
    {g' : List β} (hg : List.Forall₂ R g g') {gs : List (List α)} {gs' : List (List β)}
    (hgs : List.Forall₂ (List.Forall₂ R) gs gs') :
    List.Forall₂ (List.Forall₂ R) (List.splitBy.loop r as a g gs)
      (List.splitBy.loop s bs b g' gs') := by
  induction h generalizing a b g g' gs gs' with
  | nil => exact List.rel_reverse (.cons (List.rel_reverse (.cons hab hg)) hgs)
  | @cons c d cs ds hcd _ ih =>
    rw [List.splitBy.loop, List.splitBy.loop, hrs a c b d hab hcd]
    cases s b d with
    | true => exact ih hcd (.cons hab hg) hgs
    | false => exact ih hcd .nil (.cons (List.rel_reverse (.cons hab hg)) hgs)

theorem forall₂_splitBy (hrs : ∀ a a' b b', R a b → R a' b' → r a a' = s b b') {as : List α}
    {bs : List β} (h : List.Forall₂ R as bs) :
    List.Forall₂ (List.Forall₂ R) (as.splitBy r) (bs.splitBy s) := by
  cases h with
  | nil => exact .nil
  | cons hab h => exact forall₂_splitByLoop hrs h hab .nil .nil

end Runs

theorem ConstDecl.Alike.typeName {d d' : ConstDecl} (h : ConstDecl.Alike E o o' package d d') :
    d'.typeName = d.typeName := by
  unfold ConstDecl.typeName
  rcases h.type with htype | ⟨hd, hd'⟩
  · rw [htype]
  · rw [hd, hd']

theorem runs_alike {ds ds' : List ConstDecl}
    (h : List.Forall₂ (ConstDecl.Alike E o o' package) ds ds') :
    List.Forall₂ (List.Forall₂ (ConstDecl.Alike E o o' package)) (runs ds) (runs ds') := by
  refine forall₂_splitBy (fun a a' b b' hab hab' => ?_) h
  rw [hab.typeName, hab'.typeName]

/-! ## Families -/

/-- Families of the same name and backing, with constants alike. -/
structure Family.Alike (E : Error → Error → Prop) (o o' : Options) (package : String)
    (f f' : Family) : Prop where
  name : f'.name = f.name
  backing : f'.backing = f.backing
  backed : ∀ b, f.backing = some b → ∀ decl, Agree E Eq
    (toExpr { options := o, package, decl } b 0) (toExpr { options := o', package, decl } b 0)
  first : ConstDecl.Alike E o o' package f.first f'.first
  others : List.Forall₂ (ConstDecl.Alike E o o' package) f.others f'.others

theorem Family.Alike.members {f f' : Family} (h : f.Alike E o o' package f') :
    List.Forall₂ (ConstDecl.Alike E o o' package) f.members f'.members :=
  .cons h.first h.others

theorem map_alike {γ : Type} {g g' : ConstDecl → γ}
    (hg : ∀ d d', ConstDecl.Alike E o o' package d d' → g' d' = g d) {ds ds' : List ConstDecl}
    (h : List.Forall₂ (ConstDecl.Alike E o o' package) ds ds') : ds'.map g' = ds.map g := by
  induction h with
  | nil => rfl
  | cons hd _ ih => rw [List.map_cons, List.map_cons, hg _ _ hd, ih]

/-- The default type of a value never is what the fallback stands for. -/
theorem toExpr_defaultType (ctx ctx' : Context) (value : Package.Literal) :
    toExpr ctx (.primitive value.defaultType) 0 = toExpr ctx' (.primitive value.defaultType) 0 := by
  cases value <;> rfl

/-- The alias and the backing of a run: all that becomes of its types, values and names. -/
def aliasOfRun? (taken : TakenNames) (type : Shape) (value : Package.Literal)
    (names : List String) : Option (String × Option Shape) :=
  match type with
  | .named name =>
    some (name, if taken.contains name then none else some (.primitive value.defaultType))
  | .primitive _ | .unresolved _ =>
    match sharedWords? names with
    | some name => if taken.contains name then none else some (name, some type)
    | none => none
  | _ => none

theorem ofRun?_eq (taken : TakenNames) (first second : ConstDecl) (rest : List ConstDecl) :
    Family.ofRun? taken (first :: second :: rest) =
      (aliasOfRun? taken first.type first.value
        ((first :: second :: rest).map ConstDecl.name)).map fun (name, backing) =>
          { name, backing, first, others := second :: rest } := by
  obtain ⟨constName, type, value, doc, comment, location⟩ := first
  cases type with
  | primitive _ | unresolved _ =>
    simp only [Family.ofRun?, aliasOfRun?]
    cases sharedWords? _ with
    | none => rfl
    | some name =>
      simp only
      cases taken.contains name with
      | false => rfl
      | true => rfl
  | _ => rfl

theorem aliasOfRun?_of_composite {taken : TakenNames} {type : Shape} (h : type.typeName? = none)
    (value : Package.Literal) (names : List String) :
    aliasOfRun? taken type value names = none := by
  cases type with
  | primitive _ | named _ | unresolved _ => cases h
  | _ => rfl

theorem aliasOfRun?_alike {d d' : ConstDecl} (h : ConstDecl.Alike E o o' package d d')
    (taken : TakenNames) (names : List String) :
    aliasOfRun? taken d'.type d'.value names = aliasOfRun? taken d.type d.value names := by
  rw [h.value]
  rcases h.type with htype | ⟨hnone, hnone'⟩
  · rw [htype]
  · rw [aliasOfRun?_of_composite hnone, aliasOfRun?_of_composite hnone']

/-- What backs an alias is the type of the first constant, or that of its value. -/
theorem aliasOfRun?_backing {taken : TakenNames} {type : Shape} {value : Package.Literal}
    {names : List String} {name : String} {b : Shape}
    (h : aliasOfRun? taken type value names = some (name, some b)) :
    b = .primitive value.defaultType ∨ b = type := by
  unfold aliasOfRun? at h
  split at h
  case h_1 =>
    split at h
    · cases h
    · cases h
      exact .inl rfl
  case h_2 | h_3 =>
    split at h
    · split at h
      · cases h
      · cases h
        exact .inr rfl
    · cases h
  case h_4 => cases h

theorem backed_alike (hE : ∀ e, E e e) {d d' : ConstDecl}
    (h : ConstDecl.Alike E o o' package d d') {taken : TakenNames} {names : List String}
    {name : String} {b : Shape}
    (ha : aliasOfRun? taken d.type d.value names = some (name, some b)) (decl : String) :
    Agree E Eq (toExpr { options := o, package, decl } b 0)
      (toExpr { options := o', package, decl } b 0) := by
  have hexpr := h.expr decl
  rcases aliasOfRun?_backing ha with rfl | rfl
  · exact .of_eq hE (toExpr_defaultType _ _ d.value)
  · rcases h.type with htype | ⟨hnone, -⟩
    · rwa [htype] at hexpr
    · rw [aliasOfRun?_of_composite hnone] at ha
      cases ha

theorem ofRun?_alike (hE : ∀ e, E e e) (taken : TakenNames) {run run' : List ConstDecl}
    (h : List.Forall₂ (ConstDecl.Alike E o o' package) run run') :
    Option.Rel (Family.Alike E o o' package) (Family.ofRun? taken run)
      (Family.ofRun? taken run') := by
  have hnames := map_alike (fun _ _ hd => hd.name) h
  cases h with
  | nil => exact .none
  | @cons d d' _ _ hd h =>
    cases h with
    | nil => exact .none
    | @cons d₂ d₂' rest rest' hd₂ h =>
      rw [ofRun?_eq, ofRun?_eq, hnames, aliasOfRun?_alike hd]
      cases ha : aliasOfRun? taken d.type d.value ((d :: d₂ :: rest).map ConstDecl.name) with
      | none => exact .none
      | some p =>
        obtain ⟨name, backing⟩ := p
        refine .some ⟨rfl, rfl, fun b hb decl => ?_, hd, .cons hd₂ h⟩
        cases hb
        exact backed_alike hE hd ha decl

/-! ## Texts -/

theorem renderConst_agree {d d' : ConstDecl} (h : ConstDecl.Alike E o o' package d d')
    (typeText : Option String) :
    Agree E Eq (renderConst o typeText d) (renderConst o' typeText d') := by
  unfold renderConst
  rw [h.name, h.value, h.doc 0, h.comment]
  exact (h.check d.name).bind fun _ _ _ => .ok rfl

theorem renderConsts_agree {ds ds' : List ConstDecl}
    (h : List.Forall₂ (ConstDecl.Alike E o o' package) ds ds') (typeText : Option String) :
    Agree E Eq (renderConsts o typeText ds) (renderConsts o' typeText ds') := by
  refine (Agree.mapM (h.imp fun d d' hd => renderConst_agree hd typeText)).bind ?_
  intro lines lines' hlines
  rw [List.forall₂_eq_eq_eq] at hlines
  rw [hlines]
  exact .ok rfl

theorem renderSingle_of_not_primitive {ctx : Context} {d : ConstDecl}
    (h : ∀ p, d.type ≠ .primitive p) :
    renderSingle ctx d = (do
      let e ← toExpr { ctx with decl := d.name } d.type 0
      renderConst ctx.options (some e.text) d) := by
  unfold renderSingle
  split
  · rename_i p hd
    exact absurd hd (h p)
  · cases toExpr { ctx with decl := d.name } d.type 0 with
    | error e => rfl
    | ok e => rfl

theorem renderSingle_agree {d d' : ConstDecl} (h : ConstDecl.Alike E o o' package d d')
    (decl : String) : Agree E Eq (renderSingle { options := o, package, decl } d)
      (renderSingle { options := o', package, decl } d') := by
  by_cases hd : ∃ p, d.type = .primitive p
  · obtain ⟨p, hp⟩ := hd
    have hp' : d'.type = .primitive p := by
      rcases h.type with htype | ⟨hnone, -⟩
      · exact htype.trans hp
      · rw [hp] at hnone
        cases hnone
    unfold renderSingle
    rw [hp, hp']
    exact renderConst_agree h none
  · have hd' : ¬∃ p, d'.type = .primitive p := by
      rintro ⟨p, hp⟩
      rcases h.type with htype | ⟨-, hnone⟩
      · exact hd ⟨p, htype.symm.trans hp⟩
      · rw [hp] at hnone
        cases hnone
    rw [renderSingle_of_not_primitive (not_exists.1 hd),
      renderSingle_of_not_primitive (not_exists.1 hd'), h.name]
    refine (h.expr d.name).bind fun e e' he => ?_
    rw [he]
    exact renderConst_agree h (some e'.text)

theorem replacedType?_agree {f f' : Family} (h : f.Alike E o o' package f') (hE : ∀ e, E e e)
    (decl : String) : Agree E Eq (replacedType? { options := o, package, decl } f)
      (replacedType? { options := o', package, decl } f') := by
  have hexpr := h.first.expr f.first.name
  unfold replacedType?
  rw [h.first.name]
  rcases h.first.type with htype | ⟨hnone, hnone'⟩
  · rw [htype] at hexpr ⊢
    cases hf : f.first.type with
    | named name =>
      rw [hf] at hexpr
      refine hexpr.bind fun e e' he => ?_
      rw [he]
      exact .refl hE (fun _ => rfl) _
    | _ => exact .ok rfl
  · -- neither type is a name, so that no rule replaces it
    cases hf : f.first.type with
    | primitive _ | named _ | unresolved _ => rw [hf] at hnone; cases hnone
    | _ =>
      cases hf' : f'.first.type with
      | primitive _ | named _ | unresolved _ => rw [hf'] at hnone'; cases hnone'
      | _ => exact .ok rfl

variable {f f' : Family}

theorem renderAliased_agree (h : f.Alike E o o' package f') {backing : Shape}
    (hb : f.backing = some backing) (decl : String) :
    Agree E Eq (renderAliased { options := o, package, decl } f backing)
      (renderAliased { options := o', package, decl } f' backing) := by
  unfold renderAliased
  rw [h.name]
  refine (h.first.check f.name).bind fun _ _ _ => ?_
  refine (h.backed backing hb f.name).bind fun type type' htype => ?_
  refine (renderConsts_agree h.members (some f.name)).bind fun text text' htext => ?_
  rw [htype, htext]
  exact .ok rfl

theorem renderTypeofUnion_agree (h : f.Alike E o o' package f') (decl : String) :
    Agree E Eq (renderTypeofUnion { options := o, package, decl } f)
      (renderTypeofUnion { options := o', package, decl } f') := by
  have hnames : (f'.members.map fun d => "typeof " ++ d.name) =
      f.members.map fun d => "typeof " ++ d.name :=
    map_alike (fun d d' hd => by rw [hd.name]) h.members
  unfold renderTypeofUnion
  rw [h.name, hnames]
  refine (h.first.check f.name).bind fun _ _ _ => ?_
  refine (renderConsts_agree h.members none).bind fun text text' htext => ?_
  rw [htext]
  exact .ok rfl

theorem renderCase_alike (ho : Options.GroupAlike o o') (family : String) {d d' : ConstDecl}
    (h : ConstDecl.Alike E o o' package d d') :
    renderCase o' family d' = renderCase o family d := by
  unfold renderCase
  rw [h.doc 1, h.comment, h.name, h.value, ho.indent]

theorem renderEnumeration_agree (ho : Options.GroupAlike o o') (h : f.Alike E o o' package f')
    (decl : String) : Agree E Eq (renderEnumeration { options := o, package, decl } f)
      (renderEnumeration { options := o', package, decl } f') := by
  have hcases : f'.members.map (renderCase o' f.name) = f.members.map (renderCase o f.name) :=
    map_alike (fun d d' hd => renderCase_alike ho f.name hd) h.members
  unfold renderEnumeration
  rw [h.name]
  refine (h.first.check f.name).bind fun _ _ _ => .ok ?_
  rw [hcases]

theorem isEnumerable_alike (h : f.Alike E o o' package f') :
    f'.isEnumerable = f.isEnumerable := by
  have hall (ds : List ConstDecl) (p : ConstDecl → Bool) : ds.all p = (ds.map p).all id := by
    rw [List.all_map, Function.id_comp]
  unfold Family.isEnumerable
  rw [hall, hall, map_alike (fun d d' hd => by rw [hd.value]) h.members]

theorem renderFamily_agree (ho : Options.GroupAlike o o') (hE : ∀ e, E e e)
    (h : f.Alike E o o' package f') (decl : String) :
    Agree E Eq (renderFamily { options := o, package, decl } f)
      (renderFamily { options := o', package, decl } f') := by
  unfold renderFamily
  refine (replacedType?_agree h hE decl).bind fun type type' htype => ?_
  rw [htype, h.name, h.backing, isEnumerable_alike h]
  cases type' with
  | some type => exact renderConsts_agree h.members _
  | none =>
    cases hb : f.backing with
    | none => exact renderConsts_agree h.members _
    | some backing =>
      simp only [ho.style]
      split
      · exact renderTypeofUnion_agree h decl
      · split
        · exact renderEnumeration_agree ho h decl
        · exact renderAliased_agree h hb decl
      · exact renderAliased_agree h hb decl

/-! ## Layouts -/

/-- The pieces of related runs agree one by one. -/
theorem piecesOfRuns_agree (ho : Options.GroupAlike o o') (hE : ∀ e, E e e)
    {rs rs' : List (List ConstDecl)}
    (h : List.Forall₂ (List.Forall₂ (ConstDecl.Alike E o o' package)) rs rs')
    (taken : TakenNames) (decl : String) :
    List.Forall₂ (fun p p' => Agree E Eq (p.render { options := o, package, decl })
        (p'.render { options := o', package, decl }))
      (piecesOfRuns o.groupConstants taken rs).1 (piecesOfRuns o'.groupConstants taken rs').1 ∧
    (piecesOfRuns o'.groupConstants taken rs').2 = (piecesOfRuns o.groupConstants taken rs).2 := by
  rw [ho.grouped]
  induction h generalizing taken with
  | nil => exact ⟨.nil, rfl⟩
  | @cons run run' rest rest' hrun _ ih =>
    have hfamily : Option.Rel (Family.Alike E o o' package)
        (if o.groupConstants then Family.ofRun? taken run else none)
        (if o.groupConstants then Family.ofRun? taken run' else none) := by
      split
      · exact ofRun?_alike hE taken hrun
      · exact .none
    rw [piecesOfRuns, piecesOfRuns]
    generalize (if o.groupConstants then Family.ofRun? taken run else none) = found at hfamily ⊢
    generalize (if o.groupConstants then Family.ofRun? taken run' else none) = found' at hfamily ⊢
    cases hfamily with
    | none =>
      obtain ⟨hpieces, htaken⟩ := ih taken
      refine ⟨List.rel_append ?_ hpieces, htaken⟩
      rw [List.forall₂_map_left_iff, List.forall₂_map_right_iff]
      exact hrun.imp fun _ _ hd => renderSingle_agree hd decl
    | @some f f' hf =>
      have hafter : taken.after f' = taken.after f := by
        unfold TakenNames.after
        rw [hf.backing, hf.name]
      obtain ⟨hpieces, htaken⟩ := ih (taken.after f)
      simp only [hafter]
      exact ⟨.cons (renderFamily_agree ho hE hf decl) hpieces, htaken⟩

/-- Constants that are related only if they go alike are laid out in step. -/
theorem constsInStep_of_alike (ho : Options.GroupAlike o o') (hE : ∀ e, E e e)
    {C : ConstDecl → ConstDecl → Prop}
    (hC : ∀ d d', C d d' → ConstDecl.Alike E o o' package d d') (declared : List String) :
    ConstsInStep E o o' package declared C := by
  intro taken ds ds' _ h
  obtain ⟨hpieces, htaken⟩ := piecesOfRuns_agree ho hE (runs_alike (h.imp hC)) taken ""
  refine ⟨?_, htaken⟩
  have hblocks : List.Forall₂
      (fun b b' => Agree E Eq (Block.render o package b) (Block.render o' package b'))
      (constLayout o.groupConstants taken ds).1 (constLayout o'.groupConstants taken ds').1 := by
    unfold constLayout
    rw [List.forall₂_map_left_iff, List.forall₂_map_right_iff]
    exact hpieces
  refine (Agree.mapM hblocks).bind fun texts texts' htexts => ?_
  rw [List.forall₂_eq_eq_eq] at htexts
  rw [htexts]
  exact .ok rfl

end WireTypes.Code
