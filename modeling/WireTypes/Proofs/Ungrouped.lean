import WireTypes.Proofs.Dependence
import WireTypes.Proofs.Runs

/-!
# Constants of declared types

A run of constants of a declared type goes by the name of that type, which is taken from the start.

* `piecesOfRuns_declared`: hence it brings no alias along, and its constants are written as they are
  one by one, also when a rule replaces the type (`renderFamily_declared`).
* `generate_ungrouped`: an output in which all constants are of such types does not show whether
  constants are grouped, and how.
-/

set_option autoImplicit false

namespace WireTypes.Code

variable {package : String} {declared : List String} {taken : TakenNames}

/-! ## Runs -/

/-- A constant of a type that goes by one of the names. -/
def OfDeclared (declared : List String) (d : ConstDecl) : Prop :=
  ∃ name ∈ declared, d.type = .named name

theorem typeName_of_named {d : ConstDecl} {name : String} (h : d.type = .named name) :
    d.typeName = name := by
  unfold ConstDecl.typeName
  rw [h]
  rfl

/-- The constants of a run are of one and the same declared type. -/
theorem exists_type_of_run {ds run : List ConstDecl} (h : run ∈ runs ds)
    (hds : ∀ d ∈ ds, OfDeclared declared d) :
    ∃ name ∈ declared, ∀ d ∈ run, d.type = .named name := by
  obtain ⟨hflatten, hne, halike, -⟩ := areRuns_iff.2 (Eq.refl (runs ds))
  have hmem : ∀ d ∈ run, d ∈ ds := by
    intro d hd
    rw [← hflatten]
    exact List.mem_flatten.2 ⟨run, h, hd⟩
  obtain ⟨first, hfirst⟩ := List.exists_mem_of_ne_nil run (hne run h)
  obtain ⟨name, hname, htype⟩ := hds first (hmem first hfirst)
  refine ⟨name, hname, fun d hd => ?_⟩
  obtain ⟨name', -, htype'⟩ := hds d (hmem d hd)
  have hsame := halike run h d hd first hfirst
  rw [typeName_of_named htype, typeName_of_named htype'] at hsame
  rw [htype', hsame]

/-- Such a run is a family of that name without an alias of its own, unless it is too short. -/
theorem ofRun?_declared {run : List ConstDecl} {name : String} (hname : name ∈ taken.names)
    (hrun : ∀ d ∈ run, d.type = .named name) {f : Family} (h : Family.ofRun? taken run = some f) :
    f.members = run ∧ f.name = name ∧ f.backing = none := by
  obtain ⟨hmembers, -, hcases⟩ := Family.ofRun?_cases h
  have hfirst : f.first.type = .named name := by
    refine hrun f.first ?_
    rw [← hmembers]
    exact List.mem_cons_self
  rcases hcases with ⟨htype, hbacking⟩ | ⟨hother, -⟩
  · rw [hfirst] at htype
    cases htype
    have hc : taken.contains f.name = true := List.contains_iff_mem.2 hname
    refine ⟨hmembers, rfl, ?_⟩
    rw [hbacking, if_pos hc]
  · simp [hfirst] at hother

/-! ## Texts -/

section Texts

variable {ctx : Context}

theorem mapM_congr {ε α β : Type} {f g : α → Except ε β} {xs : List α}
    (h : ∀ x ∈ xs, f x = g x) : xs.mapM f = xs.mapM g := by
  have hmap : (xs.map f).mapM id = (xs.map g).mapM id := by rw [List.map_congr_left h]
  rw [List.mapM_map, List.mapM_map] at hmap
  exact hmap

theorem kindOfWord_ne_named (word : String) : Expr.kindOfWord word ≠ .named := by
  unfold Expr.kindOfWord
  split
  · exact fun h => nomatch h
  · split
    · exact fun h => nomatch h
    · exact fun h => nomatch h

theorem kind_ofText_ne_named (text : String) : (Expr.ofText text).kind ≠ .named := by
  unfold Expr.ofText
  simp only
  split
  · exact fun h => nomatch h
  · exact kindOfWord_ne_named _

/-- The expression of a reference does not depend on who refers, and it is that of a declaration
only if it is the name itself. -/
theorem namedExpr_eq_ok {name : String} {e : Expr} (h : namedExpr ctx name = .ok e) :
    (∀ decl, namedExpr { ctx with decl } name = .ok e) ∧ (e.kind = .named → e.text = name) := by
  unfold namedExpr at h ⊢
  split at h
  · cases h
  · rename_i hne
    refine ⟨fun decl => ?_, ?_⟩
    · rw [if_neg hne]
      exact h
    · split at h
      · cases h
        exact fun hkind => absurd hkind (kind_ofText_ne_named _)
      · cases h
        exact fun _ => rfl

theorem renderSingle_named {d : ConstDecl} {name : String} (h : d.type = .named name) :
    renderSingle ctx d = (do
      let e ← namedExpr { ctx with decl := d.name } name
      renderConst ctx.options (some e.text) d) := by
  rw [renderSingle_of_not_primitive (fun p hp => by rw [h] at hp; cases hp), h, toExpr]

/-- A family without an alias of its own is written with the expression of its type. -/
theorem renderFamily_named {f : Family} (h : f.first.type = .named f.name) (hb : f.backing = none) :
    renderFamily ctx f = (do
      let e ← namedExpr { ctx with decl := f.first.name } f.name
      renderConsts ctx.options (some e.text) f.members) := by
  have hreplaced : replacedType? ctx f = (do
      let e ← namedExpr { ctx with decl := f.first.name } f.name
      pure (if e.kind = .named then none else some e)) := by
    unfold replacedType?
    rw [h]
  unfold renderFamily
  rw [hb]
  cases he : namedExpr { ctx with decl := f.first.name } f.name with
  | error reason =>
    rw [he] at hreplaced
    rw [hreplaced]
    rfl
  | ok e =>
    rw [he] at hreplaced
    by_cases hkind : e.kind = .named
    · have hnone : replacedType? ctx f = .ok none :=
        hreplaced.trans (congrArg Except.ok (if_pos hkind))
      rw [hnone, ← (namedExpr_eq_ok he).2 hkind]
      rfl
    · have hsome : replacedType? ctx f = .ok (some e) :=
        hreplaced.trans (congrArg Except.ok (if_neg hkind))
      rw [hsome]
      rfl

theorem renderFamily_declared {f : Family} (h : ∀ d ∈ f.members, d.type = .named f.name)
    (hb : f.backing = none) :
    renderFamily ctx f = (do
      let texts ← f.members.mapM (renderSingle ctx)
      pure (String.join texts)) := by
  have hfirst : f.first.type = .named f.name := h f.first List.mem_cons_self
  rw [renderFamily_named hfirst hb]
  cases he : namedExpr { ctx with decl := f.first.name } f.name with
  | error reason =>
    -- the first constant on its own fails for the same reason
    unfold Family.members
    rw [List.mapM_cons, renderSingle_named hfirst, he]
    rfl
  | ok e =>
    have hsingle : ∀ d ∈ f.members,
        renderSingle ctx d = renderConst ctx.options (some e.text) d := by
      intro d hd
      have hd' : namedExpr { ctx with decl := d.name } f.name = .ok e :=
        (namedExpr_eq_ok he).1 d.name
      rw [renderSingle_named (h d hd), hd']
      rfl
    rw [mapM_congr hsingle]
    rfl

end Texts

/-! ## Layouts -/

/-- Constants that are written one by one. -/
def singles (ds : List ConstDecl) : List Block :=
  ds.map fun d => .consts (.single d)

theorem renderBlocks_singles (o : Options) (ds : List ConstDecl) :
    renderBlocks o package (singles ds) = (do
      let texts ← ds.mapM (renderSingle { options := o, package, decl := "" })
      pure (String.join texts)) := by
  unfold renderBlocks singles
  rw [List.mapM_map]
  rfl

/-- Runs of declared types take no names and are written one by one. -/
theorem piecesOfRuns_declared (package : String) (o : Options) (grouped : Bool)
    {rs : List (List ConstDecl)}
    (h : ∀ run ∈ rs, ∃ name ∈ taken.names, ∀ d ∈ run, d.type = .named name) :
    (piecesOfRuns grouped taken rs).2 = taken ∧
      renderBlocks o package ((piecesOfRuns grouped taken rs).1.map .consts) =
        renderBlocks o package (singles rs.flatten) := by
  induction rs with
  | nil => exact ⟨rfl, rfl⟩
  | cons run rest ih =>
    obtain ⟨htaken, htext⟩ := ih fun run hrun => h run (List.mem_cons_of_mem _ hrun)
    obtain ⟨name, hname, hrun⟩ := h run List.mem_cons_self
    have hflatten : singles (run :: rest).flatten = singles run ++ singles rest.flatten := by
      unfold singles
      rw [List.flatten_cons, List.map_append]
    rw [piecesOfRuns, hflatten, renderBlocks_append]
    split
    · rename_i f hf
      have hf : Family.ofRun? taken run = some f := by
        cases grouped with
        | false => cases hf
        | true => exact hf
      obtain ⟨hmembers, hfname, hbacking⟩ := ofRun?_declared hname hrun hf
      have hafter : taken.after f = taken := by
        unfold TakenNames.after
        rw [hbacking]
        rfl
      have hfamily : Block.render o package (.consts (.family f)) =
          renderBlocks o package (singles run) := by
        rw [renderBlocks_singles, ← hmembers]
        refine renderFamily_declared (fun d hd => ?_) hbacking
        rw [hmembers] at hd
        rw [hfname]
        exact hrun d hd
      rw [hafter]
      refine ⟨htaken, ?_⟩
      rw [List.map_cons, renderBlocks_cons, hfamily, htext]
    · refine ⟨htaken, ?_⟩
      simp only [List.map_append, List.map_map]
      rw [renderBlocks_append, htext]
      rfl

theorem renderBlocks_singles_congr {o o' : Options} (ho : Options.MapAlike id o o')
    (hrules : o'.overrides = o.overrides)
    (hinline : o'.comments.hasConstInline = o.comments.hasConstInline) (ds : List ConstDecl) :
    renderBlocks o' package (singles ds) = renderBlocks o package (singles ds) := by
  have hsingle : ∀ d ∈ ds, renderSingle { options := o', package, decl := "" } d =
      renderSingle { options := o, package, decl := "" } d := by
    intro d _
    have halike : ConstDecl.Alike Eq o o' package d (d.mapComments id id) := by
      refine alike_mapComments ho (by rw [hinline]; rfl) fun _ _ => ?_
      rw [hrules]
    rw [d.mapComments_id] at halike
    exact (renderSingle_agree halike "").eq.symm
  rw [renderBlocks_singles, renderBlocks_singles, mapM_congr hsingle]

theorem constsInStep_declared {o o' : Options} (ho : Options.MapAlike id o o')
    (hrules : o'.overrides = o.overrides)
    (hinline : o'.comments.hasConstInline = o.comments.hasConstInline) :
    ConstsInStep Eq o o' package declared fun d d' => OfDeclared declared d ∧ d = d' := by
  intro taken ds ds' hsub h
  obtain ⟨hds, hsame⟩ := (List.forall₂_and_left ..).1 h
  rw [List.forall₂_eq_eq_eq] at hsame
  subst hsame
  have hruns : ∀ run ∈ runs ds, ∃ name ∈ taken.names, ∀ d ∈ run, d.type = .named name := by
    intro run hrun
    obtain ⟨name, hname, htype⟩ := exists_type_of_run hrun hds
    exact ⟨name, hsub hname, htype⟩
  obtain ⟨htaken, htext⟩ := piecesOfRuns_declared package o o.groupConstants hruns
  obtain ⟨htaken', htext'⟩ := piecesOfRuns_declared package o' o'.groupConstants hruns
  refine ⟨.of_eq (fun _ => rfl) ?_, htaken'.trans htaken.symm⟩
  calc renderBlocks o package (constLayout o.groupConstants taken ds).1
      = renderBlocks o package (singles (runs ds).flatten) := htext
    _ = renderBlocks o' package (singles (runs ds).flatten) :=
        (renderBlocks_singles_congr ho hrules hinline _).symm
    _ = renderBlocks o' package (constLayout o'.groupConstants taken ds).1 := htext'.symm

/-! ## Outputs -/

/-- Where the type of every constant is declared in one of the sections, grouping is not to be
seen: not in any style, and also not when rules replace these types. -/
theorem generate_ungrouped {sections : List Section}
    (h : ∀ s ∈ sections, ∀ d, .const d ∈ s.items → ∃ name, d.type = .named name ∧
      ∃ r ∈ sections, ∃ item ∈ r.items, ∃ location, item.declared? = some (name, location))
    (options : Options) (style : AliasStyle) :
    generate { options with groupConstants := true, aliasStyle := style } sections =
      generate { options with groupConstants := false } sections := by
  have halike : Options.MapAlike id { options with groupConstants := false }
      { options with groupConstants := true, aliasStyle := style } :=
    ⟨rfl, rfl, rfl, fun _ => rfl, fun _ => rfl⟩
  have hsections : List.Forall₂ (Section.Beside
      (fun _ d d' => OfDeclared (TakenNames.ofSections sections).names d ∧ d = d')
      (fun _ d d' => d = d')) sections sections := by
    refine Section.beside_self (fun s hs d hd => ?_) fun _ _ => rfl
    obtain ⟨name, htype, hname⟩ := h s hs d hd
    exact ⟨⟨name, mem_ofSections.2 hname, htype⟩, rfl⟩
  have hagree : Agree Eq Eq (generate { options with groupConstants := false } sections)
      (generate { options with groupConstants := true, aliasStyle := style } sections) := by
    refine generate_agree (fun _ => rfl) rfl rfl rfl (fun _ => ?_) (fun package => ?_) hsections
    · exact constsInStep_declared halike rfl rfl
    · rintro d _ rfl
      have hrules : SameRules { options with groupConstants := false }
          { options with groupConstants := true, aliasStyle := style }
          ((Item.type d).lookups package) := fun _ _ => rfl
      have htype := renderType_congr halike hrules
      rw [d.mapComments_id] at htype
      exact .of_eq (fun _ => rfl) htype.symm
  exact hagree.eq.symm

/-- Constants in one section, and the declaration of their type in another. -/
def gradeSections : List Section :=
  let grade (name : String) (index : Nat) : Item :=
    .const ⟨name, .named "Grade", .int index, none, none, ⟨"a.go", none, index⟩⟩
  [⟨"school", "a.go", [grade "Pass" 1, grade "Fail" 2, .emit "", grade "Absent" 3]⟩,
    ⟨"school", "b.go", [.type ⟨"Grade", .alias, .primitive .int, [], none, none,
      ⟨"b.go", none, 1⟩⟩]⟩]

/-- A rule for the declared type, under its qualified name. -/
def gradeOptions : Options :=
  { overrides := ⟨[("school.Grade", "1 | 2 | 3")], by decide⟩ }

theorem gradeSections_ungrouped :
    generate { gradeOptions with groupConstants := true, aliasStyle := .enum } gradeSections =
      generate { gradeOptions with groupConstants := false } gradeSections ∧
    (generate { groupConstants := true, aliasStyle := .enum } (gradeSections.take 1)).toOption ≠
      (generate { groupConstants := false } (gradeSections.take 1)).toOption := by
  have htype : ∀ s ∈ gradeSections, ∀ d, .const d ∈ s.items → d.type = .named "Grade" := by
    intro s hs d hd
    rcases List.mem_cons.1 hs with rfl | hs
    · simp only [List.mem_cons, Item.const.injEq, reduceCtorEq, List.not_mem_nil, or_false,
        false_or] at hd
      rcases hd with rfl | rfl | rfl
      · rfl
      · rfl
      · rfl
    · rw [List.mem_singleton.1 hs] at hd
      cases List.mem_singleton.1 hd
  refine ⟨generate_ungrouped (fun s hs d hd => ⟨"Grade", htype s hs d hd, ?_⟩) gradeOptions .enum,
    by decide +kernel⟩
  exact ⟨_, .tail _ (.head _), _, .head _, _, rfl⟩

end WireTypes.Code
