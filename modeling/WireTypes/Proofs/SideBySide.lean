import WireTypes.Code.Emit
import WireTypes.Proofs.Agreement
import WireTypes.Proofs.Layout

/-!
# Outputs side by side

Two outputs are compared item by item. `Section.Beside C T` puts two sections side by side: the
same package and file, and items of the same kinds in the same order, where `C` relates the
constants and `T` the types.

* `layoutAfter_inStep`: if constants that follow each other agree, and types agree, so do whole
  layouts, and the same names are taken after them (`InStep`).
* `generate_agree`: then the outputs agree.

How constants are cut into pieces is left to whoever compares: it need not be the same on both
sides.
-/

set_option autoImplicit false

namespace WireTypes

/-- Items side by side: two types, two constants, or one text that is copied. -/
inductive Item.Beside (C : ConstDecl → ConstDecl → Prop) (T : TypeDecl → TypeDecl → Prop) :
    Item → Item → Prop
  | type {d d' : TypeDecl} (h : T d d') : Beside C T (.type d) (.type d')
  | const {d d' : ConstDecl} (h : C d d') : Beside C T (.const d) (.const d')
  | emit (text : String) : Beside C T (.emit text) (.emit text)

/-- Sections side by side, with relations between declarations of a package. -/
structure Section.Beside (C : String → ConstDecl → ConstDecl → Prop)
    (T : String → TypeDecl → TypeDecl → Prop) (s s' : Section) : Prop where
  package : s'.package = s.package
  file : s'.file = s.file
  items : List.Forall₂ (Item.Beside (C s.package) (T s.package)) s.items s'.items

theorem Section.beside_self {C : String → ConstDecl → ConstDecl → Prop}
    {T : String → TypeDecl → TypeDecl → Prop} {sections : List Section}
    (hC : ∀ s ∈ sections, ∀ d, .const d ∈ s.items → C s.package d d)
    (hT : ∀ package d, T package d d) : List.Forall₂ (Section.Beside C T) sections sections := by
  rw [List.forall₂_same]
  refine fun s hs => ⟨rfl, rfl, ?_⟩
  rw [List.forall₂_same]
  intro item hitem
  cases item with
  | type d => exact .type (hT s.package d)
  | const d => exact .const (hC s hs d hitem)
  | emit text => exact .emit text

/-- Sections whose items are changed one by one. -/
theorem Section.beside_map {C : String → ConstDecl → ConstDecl → Prop}
    {T : String → TypeDecl → TypeDecl → Prop} {sections : List Section} {change : Section → Section}
    {f : Item → Item} (hchange : ∀ s, change s = { s with items := s.items.map f })
    (h : ∀ s ∈ sections, ∀ item ∈ s.items,
      Item.Beside (C s.package) (T s.package) item (f item)) :
    List.Forall₂ (Section.Beside C T) sections (sections.map change) := by
  rw [List.forall₂_map_right_iff, List.forall₂_same]
  intro s hs
  rw [hchange]
  refine ⟨rfl, rfl, ?_⟩
  rw [List.forall₂_map_right_iff, List.forall₂_same]
  exact h s hs

end WireTypes

namespace WireTypes.Code

variable {E : Error → Error → Prop} {o o' : Options} {package : String}

/-! ## Texts of blocks -/

theorem renderBlocks_cons (b : Block) (bs : List Block) :
    renderBlocks o package (b :: bs) = (do
      let text ← b.render o package
      let more ← renderBlocks o package bs
      pure (text ++ more)) := by
  unfold renderBlocks
  rw [List.mapM_cons]
  cases b.render o package with
  | error e => rfl
  | ok text =>
    cases bs.mapM (Block.render o package) with
    | error e => rfl
    | ok texts =>
      show Except.ok (String.join (text :: texts)) = Except.ok (text ++ String.join texts)
      rw [String.join_cons]

theorem renderBlocks_append (bs cs : List Block) :
    renderBlocks o package (bs ++ cs) = (do
      let text ← renderBlocks o package bs
      let more ← renderBlocks o package cs
      pure (text ++ more)) := by
  induction bs with
  | nil =>
    show renderBlocks o package cs = _
    cases renderBlocks o package cs with
    | error e => rfl
    | ok text => exact congrArg Except.ok (String.empty_append).symm
  | cons b bs ih =>
    rw [List.cons_append, renderBlocks_cons, renderBlocks_cons, ih]
    cases b.render o package with
    | error e => rfl
    | ok first =>
      cases renderBlocks o package bs with
      | error e => rfl
      | ok text =>
        cases renderBlocks o package cs with
        | error e => rfl
        | ok more => exact congrArg Except.ok (String.append_assoc ..).symm

/-! ## Layouts -/

/-- Two layouts in step: their texts agree, and the same names are taken after them. -/
structure InStep (E : Error → Error → Prop) (o o' : Options) (package : String)
    (x x' : List Block × TakenNames) : Prop where
  text : Agree E Eq (renderBlocks o package x.1) (renderBlocks o' package x'.1)
  taken : x'.2 = x.2

/-- The pieces of constants that follow each other, as a layout. -/
def constLayout (grouped : Bool) (taken : TakenNames) (consts : List ConstDecl) :
    List Block × TakenNames :=
  ((constPieces grouped taken consts).1.map .consts, (constPieces grouped taken consts).2)

theorem agree_append {bs bs' cs cs' : List Block}
    (hb : Agree E Eq (renderBlocks o package bs) (renderBlocks o' package bs'))
    (hc : Agree E Eq (renderBlocks o package cs) (renderBlocks o' package cs')) :
    Agree E Eq (renderBlocks o package (bs ++ cs)) (renderBlocks o' package (bs' ++ cs')) := by
  rw [renderBlocks_append, renderBlocks_append]
  refine hb.bind fun text text' ht => hc.bind fun more more' hm => .ok ?_
  rw [ht, hm]

theorem agree_cons {b b' : Block} {bs bs' : List Block}
    (hb : Agree E Eq (b.render o package) (b'.render o' package))
    (hbs : Agree E Eq (renderBlocks o package bs) (renderBlocks o' package bs')) :
    Agree E Eq (renderBlocks o package (b :: bs)) (renderBlocks o' package (b' :: bs')) := by
  rw [renderBlocks_cons, renderBlocks_cons]
  refine hb.bind fun text text' ht => hbs.bind fun more more' hm => .ok ?_
  rw [ht, hm]

variable {declared : List String} {C : ConstDecl → ConstDecl → Prop}
  {T : TypeDecl → TypeDecl → Prop}

/-- Constants that follow each other are in step, provided the names in `declared` are taken. -/
def ConstsInStep (E : Error → Error → Prop) (o o' : Options) (package : String)
    (declared : List String) (C : ConstDecl → ConstDecl → Prop) : Prop :=
  ∀ (taken : TakenNames) (ds ds' : List ConstDecl), declared ⊆ taken.names → List.Forall₂ C ds ds' →
    InStep E o o' package (constLayout o.groupConstants taken ds)
      (constLayout o'.groupConstants taken ds')

/-- Types agree. -/
def TypesAgree (E : Error → Error → Prop) (o o' : Options) (package : String)
    (T : TypeDecl → TypeDecl → Prop) : Prop :=
  ∀ d d', T d d' → Agree E Eq (renderType o package d) (renderType o' package d')

/-- A type or a copied text between two parts of a layout. -/
theorem inStep_between (b b' : Block) {x x' y y' : List Block × TakenNames}
    (hx : InStep E o o' package x x') (hb : Agree E Eq (b.render o package) (b'.render o' package))
    (hy : InStep E o o' package y y') :
    InStep E o o' package (x.1 ++ b :: y.1, y.2) (x'.1 ++ b' :: y'.1, y'.2) :=
  ⟨agree_append hx.text (agree_cons hb hy.text), hy.taken⟩

theorem layoutAfter_inStep (hC : ConstsInStep E o o' package declared C)
    (hT : TypesAgree E o o' package T) (hE : ∀ e, E e e) {items items' : List Item}
    (h : List.Forall₂ (Item.Beside C T) items items') {taken : TakenNames}
    (hsub : declared ⊆ taken.names) {pending pending' : List ConstDecl}
    (hp : List.Forall₂ C pending pending') :
    InStep E o o' package (layoutAfter o.groupConstants taken pending items)
      (layoutAfter o'.groupConstants taken pending' items') := by
  induction h generalizing taken pending pending' with
  | nil => exact hC taken pending pending' hsub hp
  | @cons item item' rest rest' hitem _ ih =>
    have hconsts := hC taken pending pending' hsub hp
    -- what follows a type or a copied text goes on with the names that the constants took
    have hrest : InStep E o o' package
        (layoutAfter o.groupConstants (constLayout o.groupConstants taken pending).2 [] rest)
        (layoutAfter o'.groupConstants (constLayout o'.groupConstants taken pending').2 []
          rest') := by
      rw [hconsts.taken]
      exact ih (List.Subset.trans hsub (subset_piecesOfRuns _)) .nil
    cases hitem with
    | const hd => exact ih hsub (List.rel_append hp (.cons hd .nil))
    | type hd => exact inStep_between (.type _) (.type _) hconsts (hT _ _ hd) hrest
    | emit text =>
      exact inStep_between (.emit text) (.emit text) hconsts (.refl hE (fun _ => rfl) _) hrest

/-! ## Outputs -/

section Outputs

variable {C : String → ConstDecl → ConstDecl → Prop} {T : String → TypeDecl → TypeDecl → Prop}
  {sections sections' : List Section}

theorem renderSection_agree {s s' : Section} (hs : s.Beside C T s') {blocks blocks' : List Block}
    (h : Agree E Eq (renderBlocks o s.package blocks) (renderBlocks o' s.package blocks')) :
    Agree E Eq (renderSection o s blocks) (renderSection o' s' blocks') := by
  unfold renderSection
  rw [hs.package, hs.file]
  refine h.bind fun body body' hbody => .ok ?_
  rw [hbody]

theorem layoutSections_agree
    (hC : ∀ package, ConstsInStep E o o' package declared (C package))
    (hT : ∀ package, TypesAgree E o o' package (T package)) (hE : ∀ e, E e e)
    (h : List.Forall₂ (Section.Beside C T) sections sections') {taken : TakenNames}
    (hsub : declared ⊆ taken.names) :
    List.Forall₂ (fun p p' => Agree E Eq (renderSection o p.1 p.2) (renderSection o' p'.1 p'.2))
      (layoutSections o.groupConstants taken sections).1
      (layoutSections o'.groupConstants taken sections').1 := by
  induction h generalizing taken with
  | nil => exact .nil
  | @cons s s' rest rest' hs _ ih =>
    have hstep : InStep E o o' s.package (layout o.groupConstants taken s.items)
        (layout o'.groupConstants taken s'.items) :=
      layoutAfter_inStep (hC s.package) (hT s.package) hE hs.items hsub .nil
    rw [layoutSections, layoutSections]
    refine .cons (renderSection_agree hs hstep.text) ?_
    simp only [hstep.taken]
    exact ih (List.Subset.trans hsub (subset_layoutAfter _ _))

/-- Declarations that go side by side declare the same names. -/
theorem ofSections_eq (hC : ∀ package d d', C package d d' → d'.name = d.name)
    (hT : ∀ package d d', T package d d' → d'.name = d.name)
    (h : List.Forall₂ (Section.Beside C T) sections sections') :
    TakenNames.ofSections sections' = TakenNames.ofSections sections := by
  have names {C : ConstDecl → ConstDecl → Prop} {T : TypeDecl → TypeDecl → Prop}
      (hC : ∀ d d', C d d' → d'.name = d.name) (hT : ∀ d d', T d d' → d'.name = d.name)
      {items items' : List Item} (h : List.Forall₂ (Item.Beside C T) items items') :
      (Section.declarations items').map Prod.fst = (Section.declarations items).map Prod.fst := by
    induction h with
    | nil => rfl
    | cons hitem _ ih =>
      cases hitem with
      | type hd => exact congrArg₂ List.cons (hT _ _ hd) ih
      | const hd => exact congrArg₂ List.cons (hC _ _ hd) ih
      | emit text => exact ih
  unfold TakenNames.ofSections
  congr 1
  induction h with
  | nil => rfl
  | @cons s s' _ _ hs _ ih =>
    rw [List.flatMap_cons, List.flatMap_cons, ih, names (hC s.package) (hT s.package) hs.items]

/-- Sections side by side have outputs that agree, provided the options are equally valid, what
precedes the sections is the same, and constants and types agree. -/
theorem generate_agree (hE : ∀ e, E e e) (hvalid : o'.validate = o.validate)
    (hfront : renderFront o' = renderFront o)
    (htaken : TakenNames.ofSections sections' = TakenNames.ofSections sections)
    (hC : ∀ package,
      ConstsInStep E o o' package (TakenNames.ofSections sections).names (C package))
    (hT : ∀ package, TypesAgree E o o' package (T package))
    (h : List.Forall₂ (Section.Beside C T) sections sections') :
    Agree E Eq (generate o sections) (generate o' sections') := by
  unfold generate
  rw [hvalid, hfront, htaken]
  refine (Agree.refl hE (fun _ => rfl) o.validate).bind fun _ _ _ => ?_
  refine (Agree.refl hE (fun _ => rfl) (renderFront o)).bind fun front front' hfront => ?_
  have hsections := layoutSections_agree hC hT hE h
    (List.Subset.refl (TakenNames.ofSections sections).names)
  refine (Agree.mapM hsections).bind fun parts parts' hparts => .ok ?_
  rw [List.forall₂_eq_eq_eq] at hparts
  rw [hfront, hparts]

end Outputs

end WireTypes.Code
