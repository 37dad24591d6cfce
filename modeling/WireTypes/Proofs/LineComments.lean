import WireTypes.Proofs.Layout
import WireTypes.Proofs.ShownComments

/-!
# Line comments of an output

`lineNotes options sections` lists what the line comments of an output have after their slashes, in
order: the lines of the header, the banners, and the comments at ends of lines.

* `generate_annotated`: an output is the one without header, names of files and comments, with
  exactly these line comments put in; and they all stay on their lines if and only if the header,
  the names of files and the comments have no ends of lines but those that are taken out of them
  (`StaysOnLines`).
* `carriageReturn_splits`: a carriage return inside of a line is one that is not taken out.
-/

set_option autoImplicit false

namespace WireTypes

/-- A section without the name of its file. -/
def Section.withoutFile (s : Section) : Section :=
  { s with file := "" }

namespace Code

variable {o : Options} {package : String}

/-! ## Blocks -/

theorem append_ne_empty {t u : String} (h : u ≠ "") : t ++ u ≠ "" :=
  fun he => h (String.append_eq_empty_iff.1 he).2

theorem renderConst_ne_empty {typeText : Option String} {d : ConstDecl} {t : String}
    (h : renderConst o typeText d = .ok t) : t ≠ "" := by
  obtain ⟨-, -, h⟩ := bind_eq_ok.1 h
  cases h
  exact append_ne_empty (by decide)

theorem renderConsts_ne_empty {typeText : Option String} {d : ConstDecl} {ds : List ConstDecl}
    {t : String} (h : renderConsts o typeText (d :: ds) = .ok t) : t ≠ "" := by
  obtain ⟨lines, hlines, h⟩ := bind_eq_ok.1 h
  obtain ⟨line, rest, hline, -, rfl⟩ := List.forall₂_cons_left_iff.1 (mapM_eq_ok.1 hlines)
  cases h
  rw [String.join_cons]
  exact fun he => renderConst_ne_empty hline (String.append_eq_empty_iff.1 he).1

theorem renderSingle_ne_empty {ctx : Context} {d : ConstDecl} {t : String}
    (h : renderSingle ctx d = .ok t) : t ≠ "" := by
  by_cases hd : ∃ p, d.type = .primitive p
  · obtain ⟨p, hp⟩ := hd
    rw [renderSingle_of_primitive hp] at h
    exact renderConst_ne_empty h
  · rw [renderSingle_of_not_primitive (not_exists.1 hd)] at h
    obtain ⟨e, -, h⟩ := bind_eq_ok.1 h
    exact renderConst_ne_empty h

theorem renderFamily_ne_empty {ctx : Context} {f : Family} {t : String}
    (h : renderFamily ctx f = .ok t) : t ≠ "" := by
  have haliased {backing : Shape} (h : renderAliased ctx f backing = .ok t) : t ≠ "" := by
    obtain ⟨-, -, h⟩ := bind_eq_ok.1 h
    obtain ⟨type, -, h⟩ := bind_eq_ok.1 h
    obtain ⟨text, htext, h⟩ := bind_eq_ok.1 h
    cases h
    exact append_ne_empty (renderConsts_ne_empty htext)
  obtain ⟨type, -, h⟩ := bind_eq_ok.1 h
  split at h
  · exact renderConsts_ne_empty h
  · exact renderConsts_ne_empty h
  · split at h
    · obtain ⟨-, -, h⟩ := bind_eq_ok.1 h
      obtain ⟨text, -, h⟩ := bind_eq_ok.1 h
      cases h
      exact append_ne_empty (by decide)
    · split at h
      · obtain ⟨-, -, h⟩ := bind_eq_ok.1 h
        cases h
        exact append_ne_empty (by decide)
      · exact haliased h
    · exact haliased h

theorem Block.render_ne_empty {b : Block} {t : String} (h : b.render o package = .ok t) :
    t ≠ "" := by
  cases b with
  | type d =>
    obtain ⟨-, -, h⟩ := bind_eq_ok.1 h
    obtain ⟨body, -, h⟩ := bind_eq_ok.1 h
    cases h
    exact append_ne_empty (by decide)
  | consts piece =>
    cases piece with
    | single d => exact renderSingle_ne_empty h
    | family f => exact renderFamily_ne_empty h
  | emit text =>
    cases h
    unfold Text.asLine
    split
    · rename_i hends
      rintro rfl
      exact absurd hends (by decide)
    · exact append_ne_empty (by decide)

theorem renderBlocks_eq_empty {blocks : List Block} {t : String}
    (h : renderBlocks o package blocks = .ok t) : t.isEmpty = blocks.isEmpty := by
  cases blocks with
  | nil =>
    cases h
    rfl
  | cons b bs =>
    rw [renderBlocks_cons] at h
    obtain ⟨text, htext, h⟩ := bind_eq_ok.1 h
    obtain ⟨more, -, h⟩ := bind_eq_ok.1 h
    cases h
    have hne := Block.render_ne_empty htext
    simp [String.append_eq_empty_iff, hne]

/-- A block with comments put in. -/
theorem Block.render_shows {b : Block} (hb : ∀ f, b = .consts (.family f) → f.IsNamed) :
    Agree Eq (Shows (b.lineComments o.comments)) (b.render o.uncommented package)
      (b.render o package) := by
  cases b with
  | type d => exact renderType_shows d
  | consts piece =>
    cases piece with
    | single d => exact renderSingle_shows ⟨o, package, ""⟩ d
    | family f => exact renderFamily_shows ⟨o, package, ""⟩ (hb f rfl)
  | emit text => exact .ok (.refl _)

theorem renderBlocks_shows {blocks : List Block}
    (hb : ∀ f, .consts (.family f) ∈ blocks → f.IsNamed) :
    Agree Eq (Shows (blocks.flatMap (Block.lineComments o.comments)))
      (renderBlocks o.uncommented package blocks) (renderBlocks o package blocks) := by
  refine (Shows.joinM fun b hmem => Block.render_shows ?_).bind fun ts us hts => .ok hts
  rintro f rfl
  exact hb f hmem

/-- What backs the alias of a family of a layout is a name. -/
theorem isNamed_of_mem_layout {grouped : Bool} {taken : TakenNames} {items : List Item} {f : Family}
    (h : .consts (.family f) ∈ (layout grouped taken items).1) : f.IsNamed := by
  obtain ⟨-, taken', -, hrun⟩ := exists_run_of_mem_layout h
  intro backing hbacking
  obtain ⟨-, -, ⟨-, hb⟩ | ⟨htype, -, -, hb⟩⟩ := Family.ofRun?_cases hrun
  · rw [hb] at hbacking
    split at hbacking
    · cases hbacking
    · cases hbacking
      rfl
  · rw [hb] at hbacking
    cases hbacking
    obtain ⟨p, hp⟩ | ⟨name, hp⟩ := htype
    · rw [hp]
      rfl
    · rw [hp]
      rfl

/-! ## Sections -/

/-- What the line comments of a section have after their slashes, in order. -/
def sectionNotes (l : CommentLevel) (s : Section) (blocks : List Block) : List String :=
  if blocks.isEmpty then []
  else (" source: " ++ s.file) ::
    (blocks.flatMap (Block.lineComments l)).filterMap Comment.note?

theorem renderSection_annotated {s : Section} {blocks : List Block}
    (hb : ∀ f, .consts (.family f) ∈ blocks → f.IsNamed) :
    Agree Eq (Annotated (sectionNotes o.comments s blocks))
      (renderSection o.uncommented s.withoutFile blocks) (renderSection o s blocks) := by
  have hblocks : Agree Eq (Shows (blocks.flatMap (Block.lineComments o.comments)))
      (renderBlocks o.uncommented s.package blocks) (renderBlocks o s.package blocks) :=
    renderBlocks_shows hb
  have hempty {o : Options} {t : String} (h : renderBlocks o s.package blocks = .ok t) :
      t.isEmpty = blocks.isEmpty := renderBlocks_eq_empty h
  unfold renderSection sectionNotes
  show Agree Eq _ (renderBlocks o.uncommented s.package blocks >>= _)
    (renderBlocks o s.package blocks >>= _)
  generalize hx : renderBlocks o.uncommented s.package blocks = x at hblocks ⊢
  generalize hy : renderBlocks o s.package blocks = y at hblocks ⊢
  cases hblocks with
  | error h => exact .error h
  | ok h =>
    refine .ok ?_
    -- whether there is a banner depends on the blocks only, so both texts have one or none has
    rw [hempty hx, hempty hy]
    split
    · exact .nil
    · have hopening : "\n//////////\n// source: " = "\n//////////\n" ++ "// source: " := rfl
      have hbare : "// source: \n" = "// source: " ++ "\n" := rfl
      have hgap : "\n\n" = "\n" ++ "\n" := rfl
      have hbanner := Annotated.code "\n//////////\n" (.banner s.file (.code "\n" h))
      simpa only [hopening, hbare, hgap, Section.withoutFile, String.append_assoc,
        String.empty_append] using hbanner

/-! ## Headers -/

/-- What a line of the header has after its slashes. -/
def headerNote (line : List Char) : String :=
  if line.isEmpty then "" else " " ++ .ofList line

/-- What the lines of the header have after their slashes. -/
def headerNotes (o : Options) : List String :=
  match Options.expand o.header o.header.toList with
  | .ok text => (Text.lines text).map headerNote
  | .error _ => []

theorem headerLine_eq (line : List Char) :
    Options.headerLine line = "//" ++ headerNote line ++ "\n" := by
  unfold Options.headerLine headerNote
  split
  · rfl
  · rw [← String.append_assoc]
    rfl

theorem headerLines_annotated (lines : List (List Char)) :
    Annotated (lines.map headerNote) "" (String.join (lines.map Options.headerLine)) := by
  induction lines with
  | nil => exact .nil
  | cons line rest ih =>
    rw [List.map_cons, List.map_cons, String.join_cons, headerLine_eq]
    exact .line (headerNote line) ih

theorem renderHeader_annotated {text : String} (h : o.renderHeader = .ok text) :
    Annotated (headerNotes o) "" text := by
  unfold Options.renderHeader at h
  unfold headerNotes
  cases hexpand : Options.expand o.header o.header.toList with
  | error e =>
    rw [hexpand] at h
    cases h
  | ok expanded =>
    rw [hexpand] at h
    cases h
    exact headerLines_annotated (Text.lines expanded)

theorem expand_nil (whole : String) : Options.expand whole [] = .ok [] := by
  rw [Options.expand]
  rfl

theorem renderHeader_uncommented : o.uncommented.renderHeader = .ok "" := by
  unfold Options.renderHeader
  have hheader : Options.expand o.uncommented.header o.uncommented.header.toList = .ok [] :=
    expand_nil ""
  rw [hheader]
  rfl

theorem validate_uncommented (h : o.validate = .ok ⟨⟩) : o.uncommented.validate = .ok ⟨⟩ := by
  have hfault : o.uncommented.fault? = o.fault? := rfl
  unfold Options.validate at h ⊢
  rw [hfault, renderHeader_uncommented]
  split
  · rename_i hsome
    rw [hsome] at h
    cases h
  · rfl

theorem renderFront_annotated {front : String} (h : renderFront o = .ok front) :
    ∃ bare, renderFront o.uncommented = .ok bare ∧ Annotated (headerNotes o) bare front := by
  obtain ⟨header, hheader, h⟩ := bind_eq_ok.1 h
  have hnotes := renderHeader_annotated hheader
  have hfront : o.uncommented.frontmatter = o.frontmatter := rfl
  refine ⟨_, bind_eq_ok.2 ⟨"", renderHeader_uncommented, rfl⟩, ?_⟩
  cases h
  rw [hfront]
  cases o.frontmatter with
  | none => exact hnotes
  | some text => exact (hnotes.before "\n").before _

/-! ## Outputs -/

/-- The blocks do not depend on the names of files. -/
theorem layoutSections_withoutFile (grouped : Bool) (taken : TakenNames) (sections : List Section) :
    (layoutSections grouped taken (sections.map Section.withoutFile)).1 =
      (layoutSections grouped taken sections).1.map fun (s, blocks) => (s.withoutFile, blocks) := by
  induction sections generalizing taken with
  | nil => rfl
  | cons s rest ih =>
    rw [List.map_cons, layoutSections, layoutSections, List.map_cons]
    exact congrArg _ (ih _)

theorem ofSections_withoutFile (sections : List Section) :
    TakenNames.ofSections (sections.map Section.withoutFile) = .ofSections sections := by
  unfold TakenNames.ofSections
  rw [List.flatMap_map]
  rfl

/-- The sections of an output with their blocks. -/
def laidOut (options : Options) (sections : List Section) : List (Section × List Block) :=
  (layoutSections options.groupConstants (.ofSections sections) sections).1

theorem map_fst_laidOut (options : Options) (sections : List Section) :
    (laidOut options sections).map Prod.fst = sections :=
  map_fst_layoutSections sections

theorem mem_of_mem_laidOut {options : Options} {sections : List Section} {s : Section}
    {blocks : List Block} (h : (s, blocks) ∈ laidOut options sections) : s ∈ sections := by
  rw [← map_fst_laidOut options sections]
  exact List.mem_map_of_mem h

theorem exists_mem_laidOut (options : Options) {sections : List Section} {s : Section}
    (h : s ∈ sections) : ∃ blocks, (s, blocks) ∈ laidOut options sections := by
  rw [← map_fst_laidOut options sections] at h
  obtain ⟨⟨s, blocks⟩, hmem, rfl⟩ := List.mem_map.1 h
  exact ⟨blocks, hmem⟩

theorem laidOut_withoutFile (options : Options) (sections : List Section) :
    laidOut options.uncommented (sections.map Section.withoutFile) =
      (laidOut options sections).map fun (s, blocks) => (s.withoutFile, blocks) := by
  unfold laidOut
  rw [ofSections_withoutFile]
  exact layoutSections_withoutFile ..

/-- What the line comments of an output have after their slashes, in order. -/
def lineNotes (options : Options) (sections : List Section) : List String :=
  headerNotes options ++ (laidOut options sections).flatMap fun (s, blocks) =>
    sectionNotes options.comments s blocks

theorem renderSections_annotated (options : Options) (sections : List Section) :
    Agree Eq
      (fun ts us => Annotated
        ((laidOut options sections).flatMap fun (s, blocks) =>
          sectionNotes options.comments s blocks)
        (String.join ts) (String.join us))
      ((laidOut options.uncommented (sections.map Section.withoutFile)).mapM
        fun (s, blocks) => renderSection options.uncommented s blocks)
      ((laidOut options sections).mapM fun (s, blocks) => renderSection options s blocks) := by
  rw [laidOut_withoutFile, List.mapM_map]
  refine Annotated.joinM ?_
  rintro ⟨s, blocks⟩ hmem
  refine renderSection_annotated fun f hf => ?_
  obtain ⟨taken, -, rfl⟩ := exists_layout_of_mem hmem
  exact isNamed_of_mem_layout hf

/-- An output is the one without header, names of files and comments, with these put in. -/
theorem exists_annotated {options : Options} {sections : List Section} {out : String}
    (h : generate options sections = .ok out) :
    ∃ code, generate options.uncommented (sections.map Section.withoutFile) = .ok code ∧
      Annotated (lineNotes options sections) code out := by
  obtain ⟨_, hvalid, h⟩ := bind_eq_ok.1 h
  obtain ⟨front, hfront, h⟩ := bind_eq_ok.1 h
  obtain ⟨texts, htexts, h⟩ := bind_eq_ok.1 h
  cases h
  obtain ⟨bare, hbare, hheader⟩ := renderFront_annotated hfront
  have hsections := renderSections_annotated options sections
  obtain ⟨codes, hcodes, hjoined⟩ := Agree.exists_of_right_ok hsections htexts
  refine ⟨bare ++ String.join codes, ?_, hheader.append hjoined⟩
  refine bind_eq_ok.2 ⟨⟨⟩, validate_uncommented hvalid, bind_eq_ok.2 ⟨bare, hbare, ?_⟩⟩
  exact bind_eq_ok.2 ⟨codes, hcodes, rfl⟩

/-! ## Line ends -/

/-- A text without ends of lines. -/
def OnOneLine (text : List Char) : Prop :=
  ∀ c, Text.isLineEnd c → c ∉ text

theorem onOneLine_iff (text : List Char) :
    (text.all fun c => !Text.isLineEnd c) ↔ OnOneLine text := by
  simp only [List.all_eq_true, Bool.not_eq_true', OnOneLine]
  constructor
  · exact fun h c hc hmem => Bool.false_ne_true ((h c hmem).symm.trans hc)
  · exact fun h c hmem => Bool.eq_false_iff.2 fun hc => h c hc hmem

instance (text : List Char) : Decidable (OnOneLine text) :=
  decidable_of_iff _ (onOneLine_iff text)

/-- The comments that an output shows at ends of lines. -/
def shownComments (options : Options) (sections : List Section) : List String :=
  (laidOut options sections).flatMap fun (_, blocks) =>
    blocks.flatMap (Block.lineComments options.comments)

/-- The header, the names of files and the comments have no ends of lines but those that are taken
out of them: line feeds between lines, and blanks around lines of comments. -/
structure StaysOnLines (options : Options) (sections : List Section) : Prop where
  header : ∀ text, Options.expand options.header options.header.toList = .ok text →
    ∀ line ∈ Text.lines text, OnOneLine line
  files : ∀ s ∈ sections, s.items ≠ [] → OnOneLine s.file.toList
  comments : ∀ text ∈ shownComments options sections, ∀ line ∈ Text.lines text.toList,
    ∀ c, Text.isLineEnd c → ¬ Text.Encloses line c

theorem mem_headerNote {c : Char} (hc : Text.isLineEnd c) (line : List Char) :
    c ∈ (headerNote line).toList ↔ c ∈ line := by
  have hblank : c ≠ ' ' := by
    rintro rfl
    cases hc
  unfold headerNote
  cases line with
  | nil => simp
  | cons first rest => simp [String.toList_append, hblank]

theorem onOneLine_headerNote (line : List Char) :
    OnOneLine (headerNote line).toList ↔ OnOneLine line :=
  forall₂_congr fun _ hc => not_congr (mem_headerNote hc line)

theorem onOneLine_headerNotes (o : Options) :
    (∀ n ∈ headerNotes o, OnOneLine n.toList) ↔
      ∀ text, Options.expand o.header o.header.toList = .ok text →
        ∀ line ∈ Text.lines text, OnOneLine line := by
  unfold headerNotes
  cases Options.expand o.header o.header.toList with
  | error e => simp
  | ok text => simp [onOneLine_headerNote]

theorem onOneLine_banner (file : String) :
    OnOneLine (" source: " ++ file).toList ↔ OnOneLine file.toList := by
  refine forall₂_congr fun c hc => not_congr ?_
  have hplain : OnOneLine " source: ".toList := by decide
  rw [String.toList_append, List.mem_append, or_iff_right (hplain c hc)]

theorem onOneLine_note (text : String) :
    (∀ n, Comment.note? text = some n → OnOneLine n.toList) ↔
      ∀ line ∈ Text.lines text.toList, ∀ c, Text.isLineEnd c → ¬ Text.Encloses line c := by
  constructor
  · intro h line hline c hc hencloses
    obtain ⟨n, hn, hmem⟩ := (Comment.exists_mem_note_iff hc text).2 ⟨line, hline, hencloses⟩
    exact h n hn c hc hmem
  · intro h n hn c hc hmem
    obtain ⟨line, hline, hencloses⟩ := (Comment.exists_mem_note_iff hc text).1 ⟨n, hn, hmem⟩
    exact h line hline c hc hencloses

theorem onOneLine_sectionNotes (l : CommentLevel) (s : Section) (blocks : List Block) :
    (∀ n ∈ sectionNotes l s blocks, OnOneLine n.toList) ↔
      (blocks ≠ [] → OnOneLine s.file.toList) ∧
      ∀ text ∈ blocks.flatMap (Block.lineComments l), ∀ line ∈ Text.lines text.toList,
        ∀ c, Text.isLineEnd c → ¬ Text.Encloses line c := by
  unfold sectionNotes
  cases blocks with
  | nil => simp
  | cons b bs =>
    rw [List.isEmpty_cons, if_neg Bool.false_ne_true, List.forall_mem_cons, onOneLine_banner,
      List.forall_mem_filterMap]
    simp only [onOneLine_note, ne_eq, reduceCtorEq, not_false_eq_true, forall_const]

theorem layout_eq_nil {grouped : Bool} {taken : TakenNames} {items : List Item} :
    (layout grouped taken items).1 = [] ↔ items = [] := by
  have hitems : (layout grouped taken items).1.flatMap Block.items = items :=
    flatMap_items_layout items
  constructor
  · intro h
    rw [← hitems, h, List.flatMap_nil]
  · rintro rfl
    unfold layout layoutAfter constPieces
    cases grouped with
    | _ => rfl

theorem onOneLine_lineNotes (options : Options) (sections : List Section) :
    (∀ n ∈ lineNotes options sections, OnOneLine n.toList) ↔ StaysOnLines options sections := by
  have hfiles : (∀ p ∈ laidOut options sections, p.2 ≠ [] → OnOneLine p.1.file.toList) ↔
      ∀ s ∈ sections, s.items ≠ [] → OnOneLine s.file.toList := by
    constructor
    · intro h s hs hitems
      obtain ⟨blocks, hmem⟩ := exists_mem_laidOut options hs
      obtain ⟨taken, -, hb⟩ := exists_layout_of_mem hmem
      exact h _ hmem fun hnil => hitems (layout_eq_nil.1 (hb.symm.trans hnil))
    · rintro h ⟨s, blocks⟩ hmem hne
      obtain ⟨taken, -, hb⟩ := exists_layout_of_mem hmem
      exact h s (mem_of_mem_laidOut hmem) fun hnil => hne (hb.trans (layout_eq_nil.2 hnil))
  unfold lineNotes
  rw [List.forall_mem_append, List.forall_mem_flatMap, onOneLine_headerNotes]
  simp only [onOneLine_sectionNotes]
  constructor
  · rintro ⟨hheader, hsections⟩
    refine ⟨hheader, hfiles.1 fun p hp => (hsections p hp).1, fun text htext => ?_⟩
    obtain ⟨p, hp, htext⟩ := List.mem_flatMap.1 htext
    exact (hsections p hp).2 text htext
  · intro h
    refine ⟨h.header, fun p hp => ⟨hfiles.2 h.files p hp, fun text htext => ?_⟩⟩
    exact h.comments text (List.mem_flatMap.2 ⟨p, hp, htext⟩)

/-- Line feeds are taken out of headers and comments, but not out of the names of files. -/
theorem lineFeed_mem_lineNotes {options : Options} {sections : List Section} {n : String}
    (hn : n ∈ lineNotes options sections) (hmem : '\n' ∈ n.toList) :
    ∃ s ∈ sections, n = " source: " ++ s.file := by
  rcases List.mem_append.1 hn with hn | hn
  · unfold headerNotes at hn
    split at hn
    · obtain ⟨line, hline, rfl⟩ := List.mem_map.1 hn
      exact absurd ((mem_headerNote rfl line).1 hmem) (Text.lineFeed_not_mem hline)
    · cases hn
  · obtain ⟨⟨s, blocks⟩, hs, hn⟩ := List.mem_flatMap.1 hn
    change n ∈ sectionNotes options.comments s blocks at hn
    unfold sectionNotes at hn
    split at hn
    · cases hn
    · rcases List.mem_cons.1 hn with rfl | hn
      · exact ⟨s, mem_of_mem_laidOut hs, rfl⟩
      · obtain ⟨text, -, hnote⟩ := List.mem_filterMap.1 hn
        obtain ⟨line, hline, before, rest, rfl, -⟩ :=
          (Comment.exists_mem_note_iff rfl text).1 ⟨n, hnote, hmem⟩
        exact absurd (List.mem_append_right _ List.mem_cons_self) (Text.lineFeed_not_mem hline)

/-- An output is the one without header, names of files and comments, with line comments put in.
Ends of lines are left in these exactly where the input has them inside of lines; line feeds are
left in names of files only. -/
theorem generate_annotated {options : Options} {sections : List Section} {out : String}
    (h : generate options sections = .ok out) :
    (∃ code, generate options.uncommented (sections.map Section.withoutFile) = .ok code ∧
      Annotated (lineNotes options sections) code out) ∧
    ((∀ n ∈ lineNotes options sections, OnOneLine n.toList) ↔ StaysOnLines options sections) ∧
    ∀ n ∈ lineNotes options sections, '\n' ∈ n.toList → ∃ s ∈ sections, n = " source: " ++ s.file :=
  ⟨exists_annotated h, onOneLine_lineNotes options sections, fun _ => lineFeed_mem_lineNotes⟩

/-- A type with comments, and a constant with the comment `text`. -/
def portSections (text : String) : List Section :=
  let host := { Member.plain "Host" (.primitive .string) with comment := some "name" }
  let comment := "one\n  of  \r\nmany"
  [⟨"net", "net.go", [
    .type ⟨"Config", .struct, .record [host], [], none, some comment, ⟨"net.go", none, 1⟩⟩,
    .const ⟨"Port", .primitive .int, .int 80, none, some text, ⟨"net.go", none, 2⟩⟩]⟩]

/-- The text of `portSections` with `note` as the comment of the constant. -/
def portOutput (note : String) : String :=
  "// Made by gots.\n//\n// Do not edit.\n\n//////////\n// source: net.go\n\n" ++
  "export interface Config \x7b\n  Host: string; // name\n\x7d // one of many\n" ++
  "export const Port = 80;" ++ note ++ "\n"

theorem portSections_annotated :
    let options : Options := { header := "Made by gots.\n\nDo not edit." }
    let sections := portSections "first\n  second  "
    let notes := [" Made by gots.", "", " Do not edit.", " source: net.go", " name",
      " one of many", " first second"]
    generate options sections = .ok (portOutput " // first second") ∧
      StaysOnLines options sections ∧ lineNotes options sections = notes ∧
      ∃ code, generate options.uncommented (sections.map Section.withoutFile) = .ok code ∧
        Annotated notes code (portOutput " // first second") := by
  intro options sections notes
  have hout : generate options sections = .ok (portOutput " // first second") :=
    eq_ok_of_toOption (by decide +kernel)
  have hnotes : lineNotes options sections = notes := by decide +kernel
  obtain ⟨hcode, hstays, -⟩ := generate_annotated hout
  refine ⟨hout, hstays.1 ?_, hnotes, hnotes ▸ hcode⟩
  rw [hnotes]
  decide

/-- A carriage return inside of a line is left in its comment, where it ends the line of code. -/
theorem carriageReturn_splits :
    let options : Options := { header := "Made by gots.\n\nDo not edit." }
    generate options (portSections "first\rsecond") = .ok (portOutput " // first\rsecond") ∧
      " first\rsecond" ∈ lineNotes options (portSections "first\rsecond") ∧
      ¬ OnOneLine " first\rsecond".toList :=
  ⟨eq_ok_of_toOption (by decide +kernel), by decide +kernel, by decide +kernel⟩

end Code

end WireTypes
