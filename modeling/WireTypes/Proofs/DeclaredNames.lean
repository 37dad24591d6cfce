import WireTypes.Proofs.Failure
import WireTypes.Proofs.Layout
import WireTypes.Code.Emit

/-!
# Names that an output declares

Every path that writes a declaration checks its name first, but an enumeration checks its own name
only and never those of its constants (`Family.IsEnumerated`):

* `renderFamily_of_isEnumerated`: an enumeration is written whatever its constants are called.
* `renderFamily_names`: the constants of any other family are checked.
* `declarable_iff_of_generate`: in an output all declared names can be declared exactly when those
  of the constants of its enumerations can.
-/

set_option autoImplicit false

namespace WireTypes.Code

variable {ctx : Context} {options : Options} {package : String}

theorem checkName_eq_ok {name : String} {location : Location} {u : PUnit} :
    checkName name location = .ok u ↔ isDeclarable name := by
  unfold checkName
  split
  · rename_i h
    exact ⟨fun _ => h, fun _ => rfl⟩
  · rename_i hn
    exact ⟨fun h => (nomatch h), fun h => absurd h hn⟩

/-! ## Types and bindings -/

theorem renderType_name {d : TypeDecl} {text : String}
    (h : renderType options package d = .ok text) : isDeclarable d.name := by
  obtain ⟨_, hname, -⟩ := bind_eq_ok.1 h
  exact checkName_eq_ok.1 hname

theorem renderConst_name {type : Option String} {d : ConstDecl} {text : String}
    (h : renderConst options type d = .ok text) : isDeclarable d.name := by
  obtain ⟨_, hname, -⟩ := bind_eq_ok.1 h
  exact checkName_eq_ok.1 hname

theorem renderConsts_names {type : Option String} {ds : List ConstDecl} {text : String}
    (h : renderConsts options type ds = .ok text) : ∀ d ∈ ds, isDeclarable d.name := by
  intro d hd
  obtain ⟨lines, hlines, -⟩ := bind_eq_ok.1 h
  obtain ⟨line, -, hline⟩ := exists_of_mem_left hlines hd
  exact renderConst_name hline

theorem renderSingle_name {d : ConstDecl} {text : String} (h : renderSingle ctx d = .ok text) :
    isDeclarable d.name := by
  unfold renderSingle at h
  split at h
  · obtain ⟨_, -, h⟩ := bind_eq_ok.1 h
    exact renderConst_name h
  · obtain ⟨_, -, h⟩ := bind_eq_ok.1 h
    obtain ⟨_, -, h⟩ := bind_eq_ok.1 h
    exact renderConst_name h

/-! ## Families -/

theorem renderAliased_names {f : Family} {backing : Shape} {text : String}
    (h : renderAliased ctx f backing = .ok text) : ∀ d ∈ f.members, isDeclarable d.name := by
  obtain ⟨_, -, h⟩ := bind_eq_ok.1 h
  obtain ⟨_, -, h⟩ := bind_eq_ok.1 h
  obtain ⟨_, hbindings, -⟩ := bind_eq_ok.1 h
  exact renderConsts_names hbindings

theorem renderTypeofUnion_names {f : Family} {text : String}
    (h : renderTypeofUnion ctx f = .ok text) : ∀ d ∈ f.members, isDeclarable d.name := by
  obtain ⟨_, -, h⟩ := bind_eq_ok.1 h
  obtain ⟨_, hbindings, -⟩ := bind_eq_ok.1 h
  exact renderConsts_names hbindings

/-- A family is written as an enumeration: no rule replaces its type, it has an alias of its own,
and the options ask for enumerations of values that an enumeration can hold. -/
structure Family.IsEnumerated (ctx : Context) (f : Family) : Prop where
  kept : replacedType? ctx f = .ok none
  ownAlias : f.backing.isSome
  style : ctx.options.aliasStyle = .enum
  enumerable : f.isEnumerable

theorem renderFamily_of_isEnumerated {f : Family} (h : f.IsEnumerated ctx) :
    renderFamily ctx f = renderEnumeration ctx f := by
  obtain ⟨backing, hbacking⟩ := Option.isSome_iff_exists.1 h.ownAlias
  unfold renderFamily
  rw [h.kept, hbacking]
  show (Except.ok none >>= _ : Except Error String) = _
  simp only [bind, Except.bind, h.style]
  exact if_pos h.enumerable

theorem renderFamily_names {f : Family} {text : String} (h : renderFamily ctx f = .ok text) :
    f.IsEnumerated ctx ∨ ∀ d ∈ f.members, isDeclarable d.name := by
  unfold renderFamily at h
  obtain ⟨replaced, hreplaced, h⟩ := bind_eq_ok.1 h
  cases replaced with
  | some type => exact .inr (renderConsts_names h)
  | none =>
    cases hbacking : f.backing with
    | none =>
      rw [hbacking] at h
      exact .inr (renderConsts_names h)
    | some backing =>
      rw [hbacking] at h
      simp only at h
      split at h
      · exact .inr (renderTypeofUnion_names h)
      · rename_i hstyle
        split at h
        · rename_i henum
          exact .inl ⟨hreplaced, by rw [hbacking]; rfl, hstyle, henum⟩
        · exact .inr (renderAliased_names h)
      · exact .inr (renderAliased_names h)

/-! ## Outputs -/

/-- An output writes the family of one of its sections as an enumeration. -/
def Enumerates (options : Options) (sections : List Section) (f : Family) : Prop :=
  ∃ s blocks,
    (s, blocks) ∈ (layoutSections options.groupConstants (.ofSections sections) sections).1 ∧
      .consts (.family f) ∈ blocks ∧ f.IsEnumerated { options, package := s.package, decl := "" }

variable {sections : List Section} {code : String}

theorem exists_block_of_mem_items {items : List Item} {blocks : List Block}
    (h : blocks.flatMap Block.items = items) {item : Item} (hi : item ∈ items) :
    ∃ b ∈ blocks, item ∈ b.items := by
  rw [← h] at hi
  exact List.mem_flatMap.1 hi

theorem exists_render_of_generate (h : generate options sections = .ok code) {s : Section}
    {blocks : List Block}
    (hs : (s, blocks) ∈ (layoutSections options.groupConstants (.ofSections sections) sections).1)
    {b : Block} (hb : b ∈ blocks) : ∃ text, b.render options s.package = .ok text := by
  obtain ⟨_, -, h⟩ := bind_eq_ok.1 h
  obtain ⟨_, -, h⟩ := bind_eq_ok.1 h
  obtain ⟨parts, hparts, -⟩ := bind_eq_ok.1 h
  obtain ⟨part, -, hpart⟩ := exists_of_mem_left hparts hs
  obtain ⟨body, hbody, -⟩ := bind_eq_ok.1 hpart
  obtain ⟨texts, htexts, -⟩ := bind_eq_ok.1 hbody
  obtain ⟨text, -, htext⟩ := exists_of_mem_left htexts hb
  exact ⟨text, htext⟩

theorem exists_blocks_of_mem {grouped : Bool} {taken : TakenNames} {s : Section}
    (hs : s ∈ sections) : ∃ blocks, (s, blocks) ∈ (layoutSections grouped taken sections).1 := by
  have hmap : (layoutSections grouped taken sections).1.map Prod.fst = sections :=
    map_fst_layoutSections sections
  rw [← hmap] at hs
  obtain ⟨⟨_, blocks⟩, hmem, rfl⟩ := List.mem_map.1 hs
  exact ⟨blocks, hmem⟩

theorem type_declarable_of_generate (h : generate options sections = .ok code) {s : Section}
    (hs : s ∈ sections) {d : TypeDecl} (hd : .type d ∈ s.items) : isDeclarable d.name := by
  obtain ⟨blocks, hblocks⟩ := exists_blocks_of_mem hs
  obtain ⟨b, hb, hdb⟩ := exists_block_of_mem_items (flatMap_items_layoutSections hblocks) hd
  obtain ⟨text, htext⟩ := exists_render_of_generate h hblocks hb
  cases b with
  | type d' =>
    cases List.mem_singleton.1 hdb
    exact renderType_name htext
  | consts piece =>
    obtain ⟨_, -, he⟩ := List.mem_map.1 hdb
    cases he
  | emit text => cases List.mem_singleton.1 hdb

theorem const_declarable_of_generate (h : generate options sections = .ok code) {s : Section}
    (hs : s ∈ sections) {d : ConstDecl} (hd : .const d ∈ s.items) :
    isDeclarable d.name ∨ ∃ f, Enumerates options sections f ∧ d ∈ f.members := by
  obtain ⟨blocks, hblocks⟩ := exists_blocks_of_mem hs
  obtain ⟨b, hb, hdb⟩ := exists_block_of_mem_items (flatMap_items_layoutSections hblocks) hd
  obtain ⟨text, htext⟩ := exists_render_of_generate h hblocks hb
  cases b with
  | type d' => cases List.mem_singleton.1 hdb
  | emit text => cases List.mem_singleton.1 hdb
  | consts piece =>
    obtain ⟨_, hd, he⟩ := List.mem_map.1 hdb
    cases he
    cases piece with
    | single d' =>
      cases List.mem_singleton.1 hd
      exact .inl (renderSingle_name htext)
    | family f =>
      rcases renderFamily_names htext with henum | hnames
      · exact .inr ⟨f, ⟨s, blocks, hblocks, hb, henum⟩, hd⟩
      · exact .inl (hnames d hd)

theorem mem_items_of_enumerates {f : Family} (h : Enumerates options sections f) {d : ConstDecl}
    (hd : d ∈ f.members) : ∃ s ∈ sections, .const d ∈ s.items := by
  obtain ⟨s, blocks, hblocks, hf, -⟩ := h
  refine ⟨s, ?_, ?_⟩
  · rw [← map_fst_layoutSections sections]
    exact List.mem_map_of_mem hblocks
  · rw [← flatMap_items_layoutSections hblocks]
    exact List.mem_flatMap.2 ⟨_, hf, List.mem_map_of_mem hd⟩

theorem grouped_of_enumerates {f : Family} (h : Enumerates options sections f) :
    options.groupConstants = true ∧ options.aliasStyle = .enum := by
  obtain ⟨s, blocks, hblocks, hf, henum⟩ := h
  obtain ⟨_, -, rfl⟩ := exists_layout_of_mem hblocks
  exact ⟨(exists_run_of_mem_layout hf).1, henum.style⟩

/-- In an output the names of types can be declared, and those of constants too unless they are
members of an enumeration. All declared names are fit exactly when the members of enumerations are,
of which there are none unless constants are grouped and written as enumerations. -/
theorem declarable_iff_of_generate (h : generate options sections = .ok code) :
    (∀ s ∈ sections, ∀ d, .type d ∈ s.items → isDeclarable d.name) ∧
    (∀ f, Enumerates options sections f →
      options.groupConstants = true ∧ options.aliasStyle = .enum) ∧
    ((∀ s ∈ sections, ∀ d, .const d ∈ s.items → isDeclarable d.name) ↔
      ∀ f, Enumerates options sections f → ∀ d ∈ f.members, isDeclarable d.name) := by
  refine ⟨fun s hs d => type_declarable_of_generate h hs, fun f => grouped_of_enumerates, ?_, ?_⟩
  · intro hall f hf d hd
    obtain ⟨s, hs, hd⟩ := mem_items_of_enumerates hf hd
    exact hall s hs d hd
  · intro hall s hs d hd
    rcases const_declarable_of_generate h hs hd with hname | ⟨f, hf, hd⟩
    · exact hname
    · exact hall f hf d hd

/-- An untyped text constant of a file. -/
def textConst (name value : String) (index : Nat) : ConstDecl :=
  ⟨name, .primitive .string, .string value, none, none, ⟨"a.go", none, index⟩⟩

/-- Two constants, of which one has a name that is no identifier. -/
def hyphenated : List Section :=
  [⟨"p", "a.go", [.const (textConst "RoleA-B" "x" 1), .const (textConst "RoleC" "y" 2)]⟩]

theorem hyphenated_generates :
    ∃ code, generate { aliasStyle := .enum } hyphenated = .ok code ∧
      ¬ ∀ s ∈ hyphenated, ∀ d, .const d ∈ s.items → isDeclarable d.name := by
  obtain ⟨code, hcode⟩ := exists_of_isOk
    (x := generate { aliasStyle := .enum } hyphenated) (by decide +kernel)
  refine ⟨code, hcode, fun h => ?_⟩
  have hname := h _ (List.mem_singleton_self _) (textConst "RoleA-B" "x" 1) List.mem_cons_self
  exact absurd hname (by decide +kernel)

theorem hyphenated_enumerated :
    ∃ f, Enumerates { aliasStyle := .enum } hyphenated f ∧
      ∃ d ∈ f.members, isDeclarable d.name = false := by
  obtain ⟨code, hcode⟩ := exists_of_isOk
    (x := generate { aliasStyle := .enum } hyphenated) (by decide +kernel)
  by_contra hnone
  push Not at hnone
  have hall := (declarable_iff_of_generate hcode).2.2.2 fun f hf d hd => by
    simpa using hnone f hf d hd
  have hname := hall _ (List.mem_singleton_self _) (textConst "RoleA-B" "x" 1) List.mem_cons_self
  exact absurd hname (by decide +kernel)

end WireTypes.Code
