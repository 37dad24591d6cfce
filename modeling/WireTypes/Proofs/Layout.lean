import Mathlib.Data.List.SplitBy
import WireTypes.Code.Layout

/-!
# What a layout keeps

A layout rearranges nothing: the declarations of its blocks are the items of the section, in order
(`flatMap_items_layout`). Names that are taken stay taken, and every family of a layout comes from
one run of its constants, at names that were taken by then (`exists_run_of_mem_layout`).
-/

set_option autoImplicit false

namespace WireTypes.Code

variable {grouped : Bool} {taken : TakenNames}

/-! ## Families -/

/-- What makes a run a family. -/
theorem Family.ofRun?_cases {run : List ConstDecl} {f : Family}
    (h : Family.ofRun? taken run = some f) :
    f.members = run ∧ f.others ≠ [] ∧
      ((f.first.type = .named f.name ∧
          f.backing =
            if taken.contains f.name then none else some (.primitive f.first.value.defaultType)) ∨
        (((∃ p, f.first.type = .primitive p) ∨ ∃ name, f.first.type = .unresolved name) ∧
          sharedWords? (run.map ConstDecl.name) = some f.name ∧
          taken.contains f.name = false ∧ f.backing = some f.first.type)) := by
  unfold Family.ofRun? at h
  split at h
  · rename_i first second rest
    simp only at h
    split at h
    case h_1 name htype =>
      cases h
      exact ⟨rfl, by simp, .inl ⟨htype, rfl⟩⟩
    -- an alias made of shared words, whichever of the two kinds of type it backs
    case h_2 | h_3 =>
      rename_i htype
      split at h
      · rename_i name hwords
        split at h
        · cases h
        · rename_i hfree
          cases h
          exact ⟨rfl, by simp, .inr ⟨by simp [htype], hwords, by simpa using hfree, rfl⟩⟩
      · cases h
    case h_4 => cases h
  · cases h

/-! ## Names that are taken -/

theorem subset_after (f : Family) : taken.names ⊆ (taken.after f).names := by
  unfold TakenNames.after
  split
  · exact List.subset_cons_self _ _
  · exact List.Subset.refl _

theorem subset_piecesOfRuns (rs : List (List ConstDecl)) :
    taken.names ⊆ (piecesOfRuns grouped taken rs).2.names := by
  induction rs generalizing taken with
  | nil => exact List.Subset.refl _
  | cons run rest ih =>
    rw [piecesOfRuns]
    split
    · exact List.Subset.trans (subset_after _) ih
    · exact ih

theorem subset_layoutAfter (items : List Item) (pending : List ConstDecl) :
    taken.names ⊆ (layoutAfter grouped taken pending items).2.names := by
  induction items generalizing taken pending with
  | nil => exact subset_piecesOfRuns _
  | cons item rest ih =>
    cases item with
    | const decl => exact ih _
    | type decl => exact List.Subset.trans (subset_piecesOfRuns _) (ih [])
    | emit text => exact List.Subset.trans (subset_piecesOfRuns _) (ih [])

/-! ## Declarations -/

/-- The items that a block writes. -/
def Block.items : Block → List Item
  | .type decl => [.type decl]
  | .consts piece => piece.members.map .const
  | .emit text => [.emit text]

theorem flatMap_members_piecesOfRuns (rs : List (List ConstDecl)) :
    (piecesOfRuns grouped taken rs).1.flatMap ConstPiece.members = rs.flatten := by
  induction rs generalizing taken with
  | nil => rfl
  | cons run rest ih =>
    rw [piecesOfRuns]
    split
    · rename_i f hf
      have hrun : Family.ofRun? taken run = some f := by
        cases grouped
        · cases hf
        · exact hf
      rw [List.flatMap_cons, ih, ConstPiece.members, (Family.ofRun?_cases hrun).1,
        List.flatten_cons]
    · have hsingle : (run.map ConstPiece.single).flatMap ConstPiece.members = run := by
        rw [List.flatMap_map]
        exact List.flatMap_singleton' run
      rw [List.flatMap_append, ih, hsingle, List.flatten_cons]

theorem flatMap_members_constPieces (consts : List ConstDecl) :
    (constPieces grouped taken consts).1.flatMap ConstPiece.members = consts := by
  rw [constPieces, flatMap_members_piecesOfRuns, runs, List.flatten_splitBy]

theorem flatMap_items_consts (pieces : List ConstPiece) :
    (pieces.map Block.consts).flatMap Block.items =
      (pieces.flatMap ConstPiece.members).map .const := by
  rw [List.flatMap_map, List.map_flatMap]
  rfl

theorem flatMap_items_layoutAfter (items : List Item) (pending : List ConstDecl) :
    (layoutAfter grouped taken pending items).1.flatMap Block.items =
      pending.map .const ++ items := by
  induction items generalizing taken pending with
  | nil =>
    rw [layoutAfter]
    simp only [flatMap_items_consts, flatMap_members_constPieces, List.append_nil]
  | cons item rest ih =>
    cases item with
    | const decl => rw [layoutAfter, ih]; simp
    | type decl =>
      rw [layoutAfter]
      simp only [List.flatMap_append, List.flatMap_cons, flatMap_items_consts,
        flatMap_members_constPieces, ih]
      rfl
    | emit text =>
      rw [layoutAfter]
      simp only [List.flatMap_append, List.flatMap_cons, flatMap_items_consts,
        flatMap_members_constPieces, ih]
      rfl

/-- The blocks of a layout write its items, in order. -/
theorem flatMap_items_layout (items : List Item) :
    (layout grouped taken items).1.flatMap Block.items = items :=
  flatMap_items_layoutAfter items []

/-! ## Where families come from -/

/-- A family of pieces is that of a run, at names that were taken by then. -/
theorem exists_run_of_mem_piecesOfRuns {rs : List (List ConstDecl)} {f : Family}
    (h : .family f ∈ (piecesOfRuns grouped taken rs).1) :
    grouped = true ∧ ∃ taken' : TakenNames, taken.names ⊆ taken'.names ∧
      Family.ofRun? taken' f.members = some f := by
  induction rs generalizing taken with
  | nil => cases h
  | cons run rest ih =>
    rw [piecesOfRuns] at h
    split at h
    · rename_i g hg
      rcases List.mem_cons.1 h with hfg | h
      · cases hfg
        cases grouped with
        | false => cases hg
        | true =>
          refine ⟨rfl, taken, List.Subset.refl _, ?_⟩
          rw [(Family.ofRun?_cases hg).1]
          exact hg
      · obtain ⟨hgr, taken', hsub, hrun⟩ := ih h
        exact ⟨hgr, taken', List.Subset.trans (subset_after _) hsub, hrun⟩
    · rcases List.mem_append.1 h with h | h
      · simp at h
      · exact ih h

theorem mem_consts_append {piece : ConstPiece} {pieces : List ConstPiece} {b : Block}
    {more : List Block} (hb : ∀ q, b ≠ .consts q)
    (h : .consts piece ∈ pieces.map Block.consts ++ b :: more) :
    piece ∈ pieces ∨ .consts piece ∈ more := by
  rcases List.mem_append.1 h with h | h
  · simp only [List.mem_map, Block.consts.injEq, exists_eq_right] at h
    exact .inl h
  · rcases List.mem_cons.1 h with h | h
    · exact absurd h.symm (hb piece)
    · exact .inr h

theorem exists_run_of_mem_layoutAfter {items : List Item} {pending : List ConstDecl} {f : Family}
    (h : .consts (.family f) ∈ (layoutAfter grouped taken pending items).1) :
    grouped = true ∧ ∃ taken' : TakenNames, taken.names ⊆ taken'.names ∧
      Family.ofRun? taken' f.members = some f := by
  induction items generalizing taken pending with
  | nil =>
    simp only [layoutAfter, List.mem_map, Block.consts.injEq, exists_eq_right] at h
    exact exists_run_of_mem_piecesOfRuns h
  | cons item rest ih =>
    -- a type and a copied text both end the pending constants
    have ended : ∀ b : Block, (∀ q, b ≠ .consts q) →
        .consts (.family f) ∈ (constPieces grouped taken pending).1.map Block.consts ++
          b :: (layoutAfter grouped (constPieces grouped taken pending).2 [] rest).1 →
        grouped = true ∧ ∃ taken' : TakenNames, taken.names ⊆ taken'.names ∧
          Family.ofRun? taken' f.members = some f := by
      intro b hb h
      rcases mem_consts_append hb h with h | h
      · exact exists_run_of_mem_piecesOfRuns h
      · obtain ⟨hgr, taken', hsub, hrun⟩ := ih h
        exact ⟨hgr, taken', List.Subset.trans (subset_piecesOfRuns _) hsub, hrun⟩
    cases item with
    | const decl => exact ih h
    | type decl => exact ended (.type decl) (fun _ h => nomatch h) h
    | emit text => exact ended (.emit text) (fun _ h => nomatch h) h

/-- A family of a layout is that of a run, at names that were taken by then. -/
theorem exists_run_of_mem_layout {items : List Item} {f : Family}
    (h : .consts (.family f) ∈ (layout grouped taken items).1) :
    grouped = true ∧ ∃ taken' : TakenNames, taken.names ⊆ taken'.names ∧
      Family.ofRun? taken' f.members = some f :=
  exists_run_of_mem_layoutAfter h

/-! ## Sections -/

theorem map_fst_layoutSections (sections : List Section) :
    (layoutSections grouped taken sections).1.map Prod.fst = sections := by
  induction sections generalizing taken with
  | nil => rfl
  | cons s rest ih =>
    rw [layoutSections, List.map_cons, ih]

/-- The blocks of a section are its layout, at names that were taken by then. -/
theorem exists_layout_of_mem {sections : List Section} {s : Section} {blocks : List Block}
    (h : (s, blocks) ∈ (layoutSections grouped taken sections).1) :
    ∃ taken' : TakenNames, taken.names ⊆ taken'.names ∧
      blocks = (layout grouped taken' s.items).1 := by
  induction sections generalizing taken with
  | nil => cases h
  | cons r rest ih =>
    rw [layoutSections] at h
    rcases List.mem_cons.1 h with h | h
    · cases h
      exact ⟨taken, List.Subset.refl _, rfl⟩
    · obtain ⟨taken', hsub, hb⟩ := ih h
      exact ⟨taken', List.Subset.trans (subset_layoutAfter _ _) hsub, hb⟩

/-- The blocks of a section write its items, in order. -/
theorem flatMap_items_layoutSections {sections : List Section} {s : Section} {blocks : List Block}
    (h : (s, blocks) ∈ (layoutSections grouped taken sections).1) :
    blocks.flatMap Block.items = s.items := by
  obtain ⟨taken', -, rfl⟩ := exists_layout_of_mem h
  exact flatMap_items_layout s.items

end WireTypes.Code
