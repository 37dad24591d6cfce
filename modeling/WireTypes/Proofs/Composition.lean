import WireTypes.Proofs.SideBySide

/-!
# Texts part by part

`itemsText` writes items with the names taken before them, and answers the names taken after them.
Items in two parts may be written part by part, unless constants of one type meet at the seam
(`Touch`) while constants are grouped.

* `layoutAfter_append`: the layout of two parts is that of the first, followed by that of the second
  at the names which the first has taken.
* `itemsText_append`: hence texts, names and errors are those of the parts.
* `generate_eq_sectionsText`: an output is written section by section in the same way.
-/

set_option autoImplicit false

namespace WireTypes.Code

variable {grouped : Bool} {taken : TakenNames} {o : Options} {package : String}

/-- The items `xs` end with a constant and `ys` start with one, of the same type name. -/
def Touch (xs ys : List Item) : Prop :=
  ∃ c d, xs.getLast? = some (.const c) ∧ ys.head? = some (.const d) ∧ c.typeName = d.typeName

/-- Layouts one after the other. -/
def joined (x y : List Block × TakenNames) : List Block × TakenNames :=
  (x.1 ++ y.1, y.2)

/-! ## Constants -/

theorem piecesOfRuns_append (rs rs' : List (List ConstDecl)) :
    piecesOfRuns grouped taken (rs ++ rs') =
      ((piecesOfRuns grouped taken rs).1 ++
          (piecesOfRuns grouped (piecesOfRuns grouped taken rs).2 rs').1,
        (piecesOfRuns grouped (piecesOfRuns grouped taken rs).2 rs').2) := by
  induction rs generalizing taken with
  | nil => rfl
  | cons run rest ih =>
    rw [List.cons_append, piecesOfRuns, piecesOfRuns]
    split
    · rw [ih]
      rfl
    · rw [ih]
      simp only [List.append_assoc]

/-- Without groups every constant stands on its own. -/
theorem piecesOfRuns_ungrouped (rs : List (List ConstDecl)) :
    piecesOfRuns false taken rs = (rs.flatten.map .single, taken) := by
  induction rs with
  | nil => rfl
  | cons run rest ih =>
    rw [piecesOfRuns, ih]
    simp

theorem constPieces_ungrouped (ds : List ConstDecl) :
    constPieces false taken ds = (ds.map .single, taken) := by
  rw [constPieces, piecesOfRuns_ungrouped, runs, List.flatten_splitBy]

theorem constLayout_append (taken : TakenNames) {cs ds : List ConstDecl}
    (h : grouped = false ∨ ¬Touch (cs.map .const) (ds.map .const)) :
    constLayout grouped taken (cs ++ ds) =
      joined (constLayout grouped taken cs)
        (constLayout grouped (constLayout grouped taken cs).2 ds) := by
  cases grouped with
  | false => simp [constLayout, joined, constPieces_ungrouped]
  | true =>
    have hruns : runs (cs ++ ds) = runs cs ++ runs ds := by
      refine List.splitBy_append fun c hc d hd => ?_
      rw [beq_eq_false_iff_ne]
      intro hname
      refine h.resolve_left (by simp) ⟨c, d, ?_, ?_, hname⟩
      · rw [List.getLast?_map, hc]
        rfl
      · rw [List.head?_map, hd]
        rfl
    simp only [constLayout, constPieces, hruns, piecesOfRuns_append, joined, List.map_append]

/-! ## Items -/

theorem Touch.prepend {xs ys : List Item} (h : Touch xs ys) (before : List Item) :
    Touch (before ++ xs) ys := by
  obtain ⟨c, d, hc, hd, hname⟩ := h
  refine ⟨c, d, ?_, hd, hname⟩
  rw [List.getLast?_append, hc]
  rfl

/-- Pending constants are laid out on their own, unless the next constant is one of theirs. -/
theorem layoutAfter_pending (taken : TakenNames) {cs ds : List ConstDecl} {ys : List Item}
    (h : grouped = false ∨ ¬Touch (cs.map .const) (ds.map .const ++ ys)) :
    layoutAfter grouped taken (cs ++ ds) ys =
      joined (constLayout grouped taken cs)
        (layoutAfter grouped (constLayout grouped taken cs).2 ds ys) := by
  induction ys generalizing ds with
  | nil =>
    rw [List.append_nil] at h
    exact constLayout_append taken h
  | cons item rest ih =>
    -- a type and a copied text both end the constants that wait
    have hends : (∀ d, item ≠ .const d) →
        grouped = false ∨ ¬Touch (cs.map .const) (ds.map .const) := by
      intro hitem
      refine h.imp_right fun hnot htouch => hnot ?_
      obtain ⟨c, d, hc, hd, hname⟩ := htouch
      refine ⟨c, d, hc, ?_, hname⟩
      rw [List.head?_append, hd]
      rfl
    cases item with
    | const d =>
      rw [layoutAfter, layoutAfter, List.append_assoc]
      refine ih ?_
      simpa using h
    | type d =>
      have hconsts := constLayout_append taken (hends (by simp))
      simp only [constLayout, joined, Prod.mk.injEq] at hconsts
      rw [layoutAfter, layoutAfter]
      simp only [joined, constLayout, hconsts.1, hconsts.2, List.append_assoc]
    | emit text =>
      have hconsts := constLayout_append taken (hends (by simp))
      simp only [constLayout, joined, Prod.mk.injEq] at hconsts
      rw [layoutAfter, layoutAfter]
      simp only [joined, constLayout, hconsts.1, hconsts.2, List.append_assoc]

theorem layoutAfter_append {pending : List ConstDecl} {xs ys : List Item}
    (h : grouped = false ∨ ¬Touch (pending.map .const ++ xs) ys) :
    layoutAfter grouped taken pending (xs ++ ys) =
      joined (layoutAfter grouped taken pending xs)
        (layoutAfter grouped (layoutAfter grouped taken pending xs).2 [] ys) := by
  induction xs generalizing taken pending with
  | nil =>
    rw [List.append_nil] at h
    have hpending : layoutAfter grouped taken (pending ++ []) ys = _ := layoutAfter_pending taken h
    rwa [List.append_nil] at hpending
  | cons item rest ih =>
    rw [List.cons_append]
    cases item with
    | const d =>
      rw [layoutAfter, layoutAfter]
      refine ih ?_
      simpa using h
    | type d =>
      have hrest : grouped = false ∨ ¬Touch ([].map .const ++ rest) ys :=
        h.imp_right fun hnot htouch =>
          hnot ((htouch.prepend [.type d]).prepend (pending.map .const))
      rw [layoutAfter, layoutAfter]
      simp only [ih hrest, joined, List.append_assoc, List.cons_append]
    | emit text =>
      have hrest : grouped = false ∨ ¬Touch ([].map .const ++ rest) ys :=
        h.imp_right fun hnot htouch =>
          hnot ((htouch.prepend [.emit text]).prepend (pending.map .const))
      rw [layoutAfter, layoutAfter]
      simp only [ih hrest, joined, List.append_assoc, List.cons_append]

/-! ## Texts -/

/-- The text of items of a package, with the names taken before and after them. -/
def itemsText (o : Options) (package : String) (taken : TakenNames) (items : List Item) :
    Except Error (String × TakenNames) := do
  let laidOut := layout o.groupConstants taken items
  let text ← renderBlocks o package laidOut.1
  pure (text, laidOut.2)

/-- The text of sections, each under its banner unless it is empty. -/
def sectionsText (o : Options) (taken : TakenNames) : List Section → Except Error String
  | [] => pure ""
  | s :: rest => do
    let (body, taken) ← itemsText o s.package taken s.items
    let more ← sectionsText o taken rest
    pure ((if body.isEmpty then "" else "\n//////////\n// source: " ++ s.file ++ "\n\n" ++ body) ++
      more)

theorem renderSections_eq (sections : List Section) :
    (do
      let parts ← (layoutSections o.groupConstants taken sections).1.mapM fun p =>
        renderSection o p.1 p.2
      pure (String.join parts)) = sectionsText o taken sections := by
  induction sections generalizing taken with
  | nil => rfl
  | cons s rest ih =>
    have hrest := @ih (layout o.groupConstants taken s.items).2
    rw [layoutSections, sectionsText, itemsText]
    dsimp only
    rw [List.mapM_cons]
    generalize (layoutSections o.groupConstants
      (layout o.groupConstants taken s.items).2 rest).1.mapM
        (fun p => renderSection o p.1 p.2) = more at hrest ⊢
    unfold renderSection
    cases renderBlocks o s.package (layout o.groupConstants taken s.items).1 with
    | error e => rfl
    | ok body =>
      show _ = (do
        let more ← sectionsText o (layout o.groupConstants taken s.items).2 rest
        pure _)
      rw [← hrest]
      cases more with
      | error e => rfl
      | ok parts => exact congrArg Except.ok String.join_cons

/-- An output is written section by section, each with the names taken by then. -/
theorem generate_eq_sectionsText (sections : List Section) :
    generate o sections = (do
      o.validate
      let front ← renderFront o
      let text ← sectionsText o (.ofSections sections) sections
      pure (front ++ text)) := by
  rw [← renderSections_eq]
  unfold generate
  refine congrArg (o.validate >>= ·) (funext fun _ => ?_)
  refine congrArg (renderFront o >>= ·) (funext fun front => ?_)
  dsimp only
  cases (layoutSections o.groupConstants (.ofSections sections) sections).1.mapM
      (fun p => renderSection o p.1 p.2) with
  | error e => rfl
  | ok parts => rfl

/-- Items in two parts, with no constants of one type at the seam where constants are grouped, are
written as the first part and then the second: with the names that the first part leaves, and with
the error of the first part that fails. -/
theorem itemsText_append (package : String) (taken : TakenNames) {xs ys : List Item}
    (h : o.groupConstants = false ∨ ¬Touch xs ys) :
    itemsText o package taken (xs ++ ys) = (do
      let (text, taken) ← itemsText o package taken xs
      let (more, taken) ← itemsText o package taken ys
      pure (text ++ more, taken)) := by
  have hlayout : layout o.groupConstants taken (xs ++ ys) =
      joined (layout o.groupConstants taken xs)
        (layout o.groupConstants (layout o.groupConstants taken xs).2 ys) :=
    layoutAfter_append h
  simp only [itemsText, hlayout, joined, renderBlocks_append]
  cases renderBlocks o package (layout o.groupConstants taken xs).1 with
  | error e => rfl
  | ok text =>
    show _ = (do
      let (more, taken) ← itemsText o package (layout o.groupConstants taken xs).2 ys
      pure (text ++ more, taken))
    simp only [itemsText]
    cases renderBlocks o package
        (layout o.groupConstants (layout o.groupConstants taken xs).2 ys).1 with
    | error e => rfl
    | ok more => rfl

/-- Two constants whose names share the word `Role`. -/
def roleItems (type : Package.Primitive) (first second : String) (value : Package.Literal) :
    List Item :=
  [.const ⟨first, .primitive type, value, none, none, ⟨"a.go", none, 1⟩⟩,
    .const ⟨second, .primitive type, value, none, none, ⟨"a.go", none, 2⟩⟩]

/-- The alias of the first two constants is not free for the two that follow. -/
theorem roleItems_text :
    let texts := roleItems .string "RoleViewer" "RoleEditor" (.string "r")
    let numbers := roleItems .int "RoleFirst" "RoleLast" (.int 1)
    ¬Touch texts numbers ∧
      itemsText {} "p" ⟨[]⟩ (texts ++ numbers) = (do
        let (text, taken) ← itemsText {} "p" ⟨[]⟩ texts
        let (more, taken) ← itemsText {} "p" taken numbers
        pure (text ++ more, taken)) ∧
      (itemsText {} "p" ⟨[]⟩ (texts ++ numbers)).toOption =
        some ("export type Role = string;\nexport const RoleViewer: Role = \"r\";\n" ++
          "export const RoleEditor: Role = \"r\";\nexport const RoleFirst = 1;\n" ++
          "export const RoleLast = 1;\n", ⟨["Role"]⟩) := by
  intro texts numbers
  have happart : ¬Touch texts numbers := by
    rintro ⟨c, d, hc, hd, hname⟩
    cases hc
    cases hd
    exact absurd hname (by decide)
  exact ⟨happart, itemsText_append "p" ⟨[]⟩ (.inr happart), by decide +kernel⟩

end WireTypes.Code
