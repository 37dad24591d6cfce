import WireTypes.Options
import WireTypes.Proofs.Layout

/-!
# Aliases of families

A family either brings an alias of its own along or goes by a name that is there already. Which of
the two depends on the names taken by then, and these change with every family before it.

* `Claims taken fs taken'`: one after the other, each of the families `fs` brings an alias along
  exactly when its name is free, and takes that name. Every loop of a layout does this
  (`piecesOfRuns_claims`, `layoutAfter_claims`, `layoutSections_claims`).
* `ownAliases_nodup`: in an output no alias is brought along twice or declared as well, and every
  family goes by an alias of the output or by a declared name.
-/

set_option autoImplicit false

namespace WireTypes.Code

/-! ## Families of an output -/

/-- The family of a piece, if it is one. -/
def ConstPiece.family? : ConstPiece → Option Family
  | .single _ => none
  | .family f => some f

/-- The family of a block, if it is one. -/
def Block.family? : Block → Option Family
  | .consts piece => piece.family?
  | .type _ | .emit _ => none

/-- The families of blocks, in order. -/
def familiesOf (blocks : List Block) : List Family :=
  blocks.filterMap Block.family?

/-- The families of an output, in order. -/
def families (options : Options) (sections : List Section) : List Family :=
  (layoutSections options.groupConstants (.ofSections sections) sections).1.flatMap fun p =>
    familiesOf p.2

/-- The aliases that families bring along, in order. -/
def ownAliases (fs : List Family) : List String :=
  (fs.filter (·.backing.isSome)).map Family.name

theorem familiesOf_append (bs cs : List Block) :
    familiesOf (bs ++ cs) = familiesOf bs ++ familiesOf cs :=
  List.filterMap_append

theorem familiesOf_consts (pieces : List ConstPiece) :
    familiesOf (pieces.map .consts) = pieces.filterMap ConstPiece.family? :=
  List.filterMap_map ..

theorem families_singles (run : List ConstDecl) :
    (run.map ConstPiece.single).filterMap ConstPiece.family? = [] := by
  rw [List.filterMap_map]
  exact List.filterMap_eq_nil_iff.2 fun _ _ => rfl

theorem ownAliases_cons (f : Family) (fs : List Family) :
    ownAliases (f :: fs) = if f.backing.isSome then f.name :: ownAliases fs else ownAliases fs := by
  rw [ownAliases, List.filter_cons]
  split
  · rfl
  · rfl

/-! ## Claims -/

/-- The families bring aliases along one after the other, each exactly when its name is free, and
the names taken change from `taken` to `taken'`. -/
inductive Claims : TakenNames → List Family → TakenNames → Prop
  | nil (taken : TakenNames) : Claims taken [] taken
  | cons {taken taken' : TakenNames} {f : Family} {fs : List Family}
      (own : f.backing.isSome ↔ f.name ∉ taken.names) (rest : Claims (taken.after f) fs taken') :
      Claims taken (f :: fs) taken'

/-- After a family its name is taken, whoever took it. -/
theorem mem_after {taken : TakenNames} {f : Family} (own : f.backing.isSome ↔ f.name ∉ taken.names)
    {name : String} : name ∈ (taken.after f).names ↔ name = f.name ∨ name ∈ taken.names := by
  unfold TakenNames.after
  split
  · exact List.mem_cons
  · rename_i hb
    have hf : f.name ∈ taken.names := not_not.1 fun h => hb (own.2 h)
    exact ⟨.inr, fun h => h.elim (fun he => he ▸ hf) id⟩

namespace Claims

variable {taken taken' taken'' : TakenNames} {f : Family} {fs gs : List Family} {name : String}

theorem append (h : Claims taken fs taken') (h' : Claims taken' gs taken'') :
    Claims taken (fs ++ gs) taken'' := by
  induction h with
  | nil => exact h'
  | cons own _ ih => exact .cons own (ih h')

/-- An alias that is brought along was free. -/
theorem not_mem_taken (h : Claims taken fs taken') (hn : name ∈ ownAliases fs) :
    name ∉ taken.names := by
  induction h with
  | nil => cases hn
  | cons own _ ih =>
    rw [ownAliases_cons] at hn
    split at hn
    · rename_i hb
      rcases List.mem_cons.1 hn with rfl | hn
      · exact own.1 hb
      · exact fun hm => ih hn ((mem_after own).2 (.inr hm))
    · exact fun hm => ih hn ((mem_after own).2 (.inr hm))

theorem nodup (h : Claims taken fs taken') : (ownAliases fs).Nodup := by
  induction h with
  | nil => exact .nil
  | cons own rest ih =>
    rw [ownAliases_cons]
    split
    · -- the name is taken while the families after this one bring theirs along
      refine List.nodup_cons.2 ⟨fun hm => ?_, ih⟩
      exact rest.not_mem_taken hm ((mem_after own).2 (.inl rfl))
    · exact ih

/-- A family goes by an alias that is brought along, or by a name that was taken before all. -/
theorem name_mem (h : Claims taken fs taken') (hf : f ∈ fs) :
    f.name ∈ ownAliases fs ∨ f.name ∈ taken.names := by
  induction h with
  | nil => cases hf
  | @cons taken _ g gs own _ ih =>
    have hg : g.name ∈ ownAliases (g :: gs) ∨ g.name ∈ taken.names := by
      rw [ownAliases_cons]
      split
      · exact .inl List.mem_cons_self
      · rename_i hb
        exact .inr (not_not.1 fun hm => hb (own.2 hm))
    rcases List.mem_cons.1 hf with rfl | hf
    · exact hg
    · rcases ih hf with hn | hn
      · refine .inl ?_
        rw [ownAliases_cons]
        split
        · exact List.mem_cons_of_mem _ hn
        · exact hn
      · rcases (mem_after own).1 hn with he | hn
        · exact he ▸ hg
        · exact .inr hn

end Claims

/-! ## Layouts -/

variable {grouped : Bool} {taken : TakenNames}

/-- A run that becomes a family brings an alias along exactly when its name is free. -/
theorem ofRun?_own {run : List ConstDecl} {f : Family} (h : Family.ofRun? taken run = some f) :
    f.backing.isSome ↔ f.name ∉ taken.names := by
  have hiff : taken.contains f.name = true ↔ f.name ∈ taken.names := List.contains_iff_mem
  rw [← hiff]
  obtain ⟨-, -, ⟨-, hbacking⟩ | ⟨-, -, hfree, hbacking⟩⟩ := Family.ofRun?_cases h
  · rw [hbacking]
    split
    · rename_i hc
      simp [hc]
    · rename_i hc
      simp [hc]
  · simp [hbacking, hfree]

theorem piecesOfRuns_claims (rs : List (List ConstDecl)) :
    Claims taken ((piecesOfRuns grouped taken rs).1.filterMap ConstPiece.family?)
      (piecesOfRuns grouped taken rs).2 := by
  induction rs generalizing taken with
  | nil => exact .nil taken
  | cons run rest ih =>
    rw [piecesOfRuns]
    split
    · rename_i f hf
      cases grouped with
      | false => cases hf
      | true => exact .cons (ofRun?_own hf) ih
    · simp only [List.filterMap_append, families_singles, List.nil_append]
      exact ih

theorem constPieces_claims (consts : List ConstDecl) :
    Claims taken (familiesOf ((constPieces grouped taken consts).1.map .consts))
      (constPieces grouped taken consts).2 := by
  rw [familiesOf_consts]
  exact piecesOfRuns_claims _

theorem layoutAfter_claims (items : List Item) (pending : List ConstDecl) :
    Claims taken (familiesOf (layoutAfter grouped taken pending items).1)
      (layoutAfter grouped taken pending items).2 := by
  induction items generalizing taken pending with
  | nil => exact constPieces_claims pending
  | cons item rest ih =>
    -- a type and a copied text come after the families of the pending constants, and are none
    cases item with
    | const decl => exact ih _
    | type decl =>
      rw [layoutAfter, familiesOf_append]
      exact (constPieces_claims pending).append (ih [])
    | emit text =>
      rw [layoutAfter, familiesOf_append]
      exact (constPieces_claims pending).append (ih [])

theorem layoutSections_claims (sections : List Section) :
    Claims taken ((layoutSections grouped taken sections).1.flatMap fun p => familiesOf p.2)
      (layoutSections grouped taken sections).2 := by
  induction sections generalizing taken with
  | nil => exact .nil taken
  | cons s rest ih =>
    rw [layoutSections, List.flatMap_cons]
    exact (layoutAfter_claims s.items []).append ih

/-! ## Outputs -/

theorem mem_ofSections {sections : List Section} {name : String} :
    name ∈ (TakenNames.ofSections sections).names ↔
      ∃ s ∈ sections, ∃ item ∈ s.items, ∃ location, item.declared? = some (name, location) := by
  simp only [TakenNames.ofSections, Section.declarations, List.mem_flatMap, List.mem_map,
    List.mem_filterMap, Prod.exists, exists_and_right, exists_eq_right]
  constructor
  · rintro ⟨s, hs, location, item, hitem, h⟩
    exact ⟨s, hs, item, hitem, location, h⟩
  · rintro ⟨s, hs, item, hitem, location, h⟩
    exact ⟨s, hs, location, item, hitem, h⟩

/-- Over all sections of an output, the aliases that families bring along are distinct, and none of
them is the name of a type or constant that any of the sections declares. Every family goes by one
of these aliases or by a declared name. -/
theorem ownAliases_nodup (options : Options) (sections : List Section) :
    (ownAliases (families options sections)).Nodup ∧
    (∀ s ∈ sections, ∀ item ∈ s.items, ∀ name location,
      item.declared? = some (name, location) →
        name ∉ ownAliases (families options sections)) ∧
    ∀ f ∈ families options sections, f.name ∈ ownAliases (families options sections) ∨
      ∃ s ∈ sections, ∃ item ∈ s.items, ∃ location, item.declared? = some (f.name, location) := by
  have hclaims : Claims (.ofSections sections) (families options sections)
      (layoutSections options.groupConstants (.ofSections sections) sections).2 :=
    layoutSections_claims sections
  refine ⟨hclaims.nodup, ?_, ?_⟩
  · intro s hs item hitem name location hname halias
    exact hclaims.not_mem_taken halias (mem_ofSections.2 ⟨s, hs, item, hitem, location, hname⟩)
  · intro f hf
    rw [← mem_ofSections]
    exact hclaims.name_mem hf

/-- Two sections with a family each of a type that neither declares, and a family whose words a type
of the other section has for its name. -/
def rankSections : List Section :=
  let rank (name type : String) (index : Nat) : Item :=
    .const ⟨name, .named type, .int index, none, none, ⟨"a.go", none, index⟩⟩
  let role (name : String) (index : Nat) : Item :=
    .const ⟨name, .primitive .int, .int index, none, none, ⟨"a.go", none, index⟩⟩
  [⟨"p", "a.go", [rank "Low" "Rank" 1, rank "High" "Rank" 2, role "RoleA" 3, role "RoleB" 4]⟩,
    ⟨"p", "b.go", [rank "Top" "Rank" 1, rank "Last" "Rank" 2,
      .type ⟨"Role", .alias, .primitive .int, [], none, none, ⟨"b.go", none, 3⟩⟩]⟩]

theorem rankSections_aliases :
    (families {} rankSections).map Family.name = ["Rank", "Rank"] ∧
      ownAliases (families {} rankSections) = ["Rank"] ∧
      "Role" ∉ ownAliases (families {} rankSections) := by
  refine ⟨by decide +kernel, by decide +kernel, ?_⟩
  obtain ⟨-, hdeclared, -⟩ := ownAliases_nodup {} rankSections
  exact hdeclared _ (.tail _ (.head _)) _ (.tail _ (.tail _ (.head _))) "Role" _ rfl

end WireTypes.Code
