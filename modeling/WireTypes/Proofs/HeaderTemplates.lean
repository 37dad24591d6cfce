import WireTypes.Options
import WireTypes.Proofs.Failure
import WireTypes.Proofs.Lines

/-!
# Header templates

A template is cut at its placeholders into pieces (`exists_pieces`): either the pieces have no
opening braces and are all there is, or after some of them comes a brace that does not begin the
placeholder, which is the fault of the template.

* `renderHeader_template`: a header is rendered exactly if every opening brace begins the
  placeholder, and then it is the lines of the template, with the version for all placeholders, as
  comments.
-/

set_option autoImplicit false

namespace WireTypes.Options

variable {o : Options} {whole : String} {cs rest p : List Char} {pieces : List (List Char)}

/-- The placeholder of a header template. -/
def placeholder : List Char :=
  '\x7b' :: ("version".toList ++ ['\x7d'])

/-- A template: every opening brace in it begins the placeholder. -/
def IsTemplate (cs : List Char) : Prop :=
  ∀ rest, '\x7b' :: rest <:+ cs → placeholder <+: '\x7b' :: rest

/-- Pieces of a template, one at least, without opening braces. -/
inductive ArePieces : List (List Char) → Prop
  | single {p : List Char} (hp : '\x7b' ∉ p) : ArePieces [p]
  | cons {p : List Char} {pieces : List (List Char)} (hp : '\x7b' ∉ p) (h : ArePieces pieces) :
      ArePieces (p :: pieces)

/-- A line as a comment. -/
def commented (line : List Char) : List Char :=
  "//".toList ++ if line = [] then [] else ' ' :: line

/-- What is wrong with an opening brace that does not begin the placeholder: there is no closing one
after it, or another name than that of the placeholder before the closing one. -/
def fault (whole : String) (rest : List Char) : InvalidOption :=
  match Text.splitAtFirst '\x7d' rest with
  | none => .unclosedPlaceholder whole
  | some (name, _) => .unknownPlaceholder (.ofList name)

/-! ## Pieces -/

theorem placeholder_append (after : List Char) :
    placeholder ++ after = '\x7b' :: ("version".toList ++ '\x7d' :: after) := by
  rw [placeholder, List.cons_append, List.append_assoc, List.singleton_append]

theorem placeholder_prefix_iff : placeholder <+: '\x7b' :: rest ↔
    ∃ after, Text.splitAtFirst '\x7d' rest = some ("version".toList, after) := by
  have hname : '\x7d' ∉ "version".toList := by decide
  refine exists_congr fun after => ?_
  rw [placeholder_append, List.cons.injEq, Text.splitAtFirst_eq_some_iff, and_iff_left hname,
    and_iff_right rfl, eq_comm]

theorem ArePieces.ne_nil (h : ArePieces pieces) : pieces ≠ [] := by
  cases h <;> exact List.cons_ne_nil _ _

theorem ArePieces.intercalate_cons (h : ArePieces pieces) (sep p : List Char) :
    sep.intercalate (p :: pieces) = p ++ (sep ++ sep.intercalate pieces) := by
  obtain ⟨next, more, rfl⟩ := List.exists_cons_of_ne_nil h.ne_nil
  rw [List.intercalate_cons_cons, List.append_assoc]

/-- From one opening brace to the next, as long as they begin the placeholder. -/
theorem exists_pieces (cs : List Char) : ∃ pieces, ArePieces pieces ∧
    (cs = placeholder.intercalate pieces ∨
      ∃ rest, cs = placeholder.intercalate pieces ++ '\x7b' :: rest ∧
        ¬placeholder <+: '\x7b' :: rest) := by
  induction hlength : cs.length using Nat.strongRecOn generalizing cs with
  | ind n ih =>
    cases hsplit : Text.splitAtFirst '\x7b' cs with
    | none =>
      exact ⟨[cs], .single (Text.splitAtFirst_eq_none_iff.1 hsplit), .inl (by simp)⟩
    | some parts =>
      obtain ⟨p, rest⟩ := parts
      obtain ⟨rfl, hp⟩ := Text.splitAtFirst_eq_some_iff.1 hsplit
      by_cases hprefix : placeholder <+: '\x7b' :: rest
      · obtain ⟨after, hafter⟩ := hprefix
        have hshort : after.length < n := by
          rw [← hafter, List.length_append, List.length_append] at hlength
          have hpos : 0 < placeholder.length := Nat.succ_pos _
          omega
        obtain ⟨pieces, hpieces, hrest⟩ := ih after.length hshort after rfl
        refine ⟨p :: pieces, .cons hp hpieces, ?_⟩
        rw [← hafter, hpieces.intercalate_cons]
        rcases hrest with rfl | ⟨rest, rfl, hillegal⟩
        · exact .inl (by simp)
        · exact .inr ⟨rest, by simp, hillegal⟩
      · exact ⟨[p], .single hp, .inr ⟨rest, by simp, hprefix⟩⟩

/-! ## Braces -/

theorem isTemplate_nil : IsTemplate [] := by
  intro rest h
  simp at h

theorem isTemplate_cons {c : Char} :
    IsTemplate (c :: cs) ↔ (c = '\x7b' → placeholder <+: '\x7b' :: cs) ∧ IsTemplate cs := by
  constructor
  · intro h
    refine ⟨?_, fun rest hrest => h rest (hrest.trans (List.suffix_cons c cs))⟩
    rintro rfl
    exact h cs (List.suffix_refl _)
  · rintro ⟨hc, hcs⟩ rest hrest
    rcases List.suffix_cons_iff.1 hrest with heq | hrest
    · cases heq
      exact hc rfl
    · exact hcs rest hrest

theorem isTemplate_append (h : '\x7b' ∉ p) (rest : List Char) :
    IsTemplate (p ++ rest) ↔ IsTemplate rest := by
  induction p with
  | nil => rfl
  | cons c p ih =>
    rw [List.mem_cons, not_or] at h
    rw [List.cons_append, isTemplate_cons, ih h.2]
    exact and_iff_right fun hc => absurd hc.symm h.1

theorem isTemplate_placeholder (after : List Char) :
    IsTemplate (placeholder ++ after) ↔ IsTemplate after := by
  have hbegins : placeholder <+: placeholder ++ after := List.prefix_append _ _
  have hname : '\x7b' ∉ "version".toList ++ ['\x7d'] := by decide
  rw [placeholder, List.cons_append] at hbegins ⊢
  rw [isTemplate_cons, isTemplate_append hname]
  exact and_iff_right fun _ => hbegins

theorem isTemplate_pieces (h : ArePieces pieces) (rest : List Char) :
    IsTemplate (placeholder.intercalate pieces ++ rest) ↔ IsTemplate rest := by
  induction h with
  | single hp => rw [List.intercalate_singleton, isTemplate_append hp]
  | cons hp h ih =>
    rw [h.intercalate_cons, List.append_assoc, List.append_assoc, isTemplate_append hp,
      isTemplate_placeholder, ih]

/-! ## Expansion -/

theorem expand_append (h : '\x7b' ∉ p) (rest : List Char) :
    expand whole (p ++ rest) = (p ++ ·) <$> expand whole rest := by
  induction p with
  | nil => simp
  | cons c p ih =>
    rw [List.mem_cons, not_or] at h
    rw [List.cons_append, expand, if_neg (Ne.symm h.1), ih h.2]
    cases expand whole rest <;> rfl

theorem expand_placeholder (after : List Char) :
    expand whole (placeholder ++ after) = (version.toList ++ ·) <$> expand whole after := by
  have hname : '\x7d' ∉ "version".toList := by decide
  have hsplit := Text.splitAtFirst_append hname after
  rw [placeholder_append, expand, if_pos rfl]
  split
  · rename_i hnone
    rw [hsplit] at hnone
    cases hnone
  · rename_i name after' hsome
    rw [hsplit] at hsome
    cases hsome
    rw [if_pos rfl]
    cases expand whole after <;> rfl

theorem expand_fault (h : ¬placeholder <+: '\x7b' :: rest) :
    expand whole ('\x7b' :: rest) = .error (fault whole rest) := by
  rw [placeholder_prefix_iff, not_exists] at h
  rw [expand, if_pos rfl]
  split
  · rename_i hsplit
    rw [fault, hsplit]
    rfl
  · rename_i name after hsplit
    rw [if_neg fun hname => h after (by rw [hsplit, hname]), fault, hsplit]
    rfl

theorem expand_pieces (h : ArePieces pieces) (rest : List Char) :
    expand whole (placeholder.intercalate pieces ++ rest) =
      (version.toList.intercalate pieces ++ ·) <$> expand whole rest := by
  induction h with
  | single hp => rw [List.intercalate_singleton, List.intercalate_singleton, expand_append hp]
  | cons hp h ih =>
    rw [h.intercalate_cons, h.intercalate_cons, List.append_assoc, List.append_assoc,
      expand_append hp, expand_placeholder, ih]
    cases expand whole rest <;> simp [Functor.map, Except.map]

theorem expand_intercalate (whole : String) (h : ArePieces pieces) :
    expand whole (placeholder.intercalate pieces) = .ok (version.toList.intercalate pieces) := by
  have hpieces := @expand_pieces whole _ h []
  have hnil : expand whole [] = .ok [] := by
    rw [expand]
    rfl
  rw [List.append_nil, hnil] at hpieces
  rw [hpieces]
  exact congrArg Except.ok (List.append_nil _)

theorem expand_illegal (whole : String) (h : ArePieces pieces)
    (hbrace : ¬placeholder <+: '\x7b' :: rest) :
    expand whole (placeholder.intercalate pieces ++ '\x7b' :: rest) =
      .error (fault whole rest) := by
  rw [expand_pieces h, expand_fault hbrace]
  rfl

theorem expand_eq_ok_iff {text : List Char} : expand whole cs = .ok text ↔
    ∃ pieces, ArePieces pieces ∧ cs = placeholder.intercalate pieces ∧
      text = version.toList.intercalate pieces := by
  constructor
  · intro h
    obtain ⟨pieces, hpieces, rfl | ⟨rest, rfl, hbrace⟩⟩ := exists_pieces cs
    · rw [expand_intercalate whole hpieces] at h
      exact ⟨pieces, hpieces, rfl, (Except.ok.inj h).symm⟩
    · rw [expand_illegal whole hpieces hbrace] at h
      cases h
  · rintro ⟨pieces, hpieces, rfl, rfl⟩
    exact expand_intercalate whole hpieces

theorem expand_eq_error_iff {reason : InvalidOption} : expand whole cs = .error reason ↔
    ∃ pieces rest, ArePieces pieces ∧ cs = placeholder.intercalate pieces ++ '\x7b' :: rest ∧
      ¬placeholder <+: '\x7b' :: rest ∧ reason = fault whole rest := by
  constructor
  · intro h
    obtain ⟨pieces, hpieces, rfl | ⟨rest, rfl, hbrace⟩⟩ := exists_pieces cs
    · rw [expand_intercalate whole hpieces] at h
      cases h
    · rw [expand_illegal whole hpieces hbrace] at h
      exact ⟨pieces, rest, hpieces, rfl, hbrace, (Except.error.inj h).symm⟩
  · rintro ⟨pieces, rest, hpieces, rfl, hbrace, rfl⟩
    exact expand_illegal whole hpieces hbrace

theorem exists_expand_iff (whole : String) :
    (∃ text, expand whole cs = .ok text) ↔ IsTemplate cs := by
  obtain ⟨pieces, hpieces, rfl | ⟨rest, rfl, hbrace⟩⟩ := exists_pieces cs
  · have htemplate := (isTemplate_pieces hpieces []).2 isTemplate_nil
    rw [List.append_nil] at htemplate
    exact iff_of_true ⟨_, expand_intercalate whole hpieces⟩ htemplate
  · refine iff_of_false ?_ fun h => hbrace ?_
    · rw [expand_illegal whole hpieces hbrace]
      rintro ⟨text, h⟩
      cases h
    · exact ((isTemplate_cons.1 ((isTemplate_pieces hpieces _).1 h)).1 rfl)

/-! ## Headers -/

theorem headerLine_toList (line : List Char) :
    (headerLine line).toList = commented line ++ ['\n'] := by
  unfold headerLine commented
  by_cases h : line = [] <;> simp [h]

theorem renderHeader_eq_ok_iff {text : String} : o.renderHeader = .ok text ↔
    ∃ expanded, expand o.header o.header.toList = .ok expanded ∧
      text.toList = (Text.lines expanded).flatMap fun line => commented line ++ ['\n'] := by
  have hjoin (lines : List (List Char)) : (String.join (lines.map headerLine)).toList =
      lines.flatMap fun line => commented line ++ ['\n'] := by
    simp only [String.toList_join, List.flatMap_map, headerLine_toList]
  unfold renderHeader
  cases expand o.header o.header.toList with
  | error reason =>
    refine iff_of_false (fun h => nomatch h) ?_
    rintro ⟨expanded, h, -⟩
    cases h
  | ok expanded =>
    simp only [pure, Except.pure, Except.ok.injEq, exists_eq_left', ← hjoin, String.toList_inj]
    exact eq_comm

theorem renderHeader_eq_error_iff {e : Error} : o.renderHeader = .error e ↔
    ∃ reason, expand o.header o.header.toList = .error reason ∧ e = .invalidOptions reason := by
  unfold renderHeader
  cases expand o.header o.header.toList with
  | error reason =>
    simp only [throw, throwThe, MonadExceptOf.throw, Except.error.injEq, exists_eq_left']
    exact eq_comm
  | ok expanded =>
    refine iff_of_false (fun h => nomatch h) ?_
    rintro ⟨reason, h, -⟩
    cases h

/-- A comment has no line feed but the one that ends it. -/
theorem lineFeed_not_mem_commented {line : List Char} (h : '\n' ∉ line) :
    '\n' ∉ commented line := by
  unfold commented
  by_cases hline : line = []
  · rw [if_pos hline]
    decide
  · simp [hline, h]

/-- A header is rendered exactly if every opening brace of its template begins the placeholder. Then
it is the lines of the template, with the version in place of all placeholders, each of them as a
comment that a line feed ends. So there is no other line in it than comments. Otherwise the first
brace that does not begin the placeholder is at fault. -/
theorem renderHeader_template (o : Options) :
    ((∃ text, o.renderHeader = .ok text) ↔ IsTemplate o.header.toList) ∧
    (∀ text, o.renderHeader = .ok text ↔ ∃ pieces, ArePieces pieces ∧
      o.header.toList = placeholder.intercalate pieces ∧
      text.toList = (Text.lines (version.toList.intercalate pieces)).flatMap
        fun line => commented line ++ ['\n']) ∧
    (∀ text, o.renderHeader = .ok text → ∃ lines : List (List Char),
      text.toList = lines.flatMap (· ++ ['\n']) ∧
      ∀ line ∈ lines, '\n' ∉ line ∧ "//".toList <+: line) ∧
    ∀ e, o.renderHeader = .error e ↔ ∃ pieces rest, ArePieces pieces ∧
      o.header.toList = placeholder.intercalate pieces ++ '\x7b' :: rest ∧
      ¬placeholder <+: '\x7b' :: rest ∧ e = .invalidOptions (fault o.header rest) := by
  refine ⟨?_, fun text => ?_, fun text h => ?_, fun e => ?_⟩
  · rw [← exists_expand_iff o.header]
    simp only [renderHeader_eq_ok_iff]
    constructor
    · rintro ⟨-, expanded, hexpanded, -⟩
      exact ⟨expanded, hexpanded⟩
    · rintro ⟨expanded, hexpanded⟩
      exact ⟨_, expanded, hexpanded, String.toList_ofList⟩
  · simp only [renderHeader_eq_ok_iff, expand_eq_ok_iff]
    constructor
    · rintro ⟨_, ⟨pieces, hpieces, hheader, rfl⟩, htext⟩
      exact ⟨pieces, hpieces, hheader, htext⟩
    · rintro ⟨pieces, hpieces, hheader, htext⟩
      exact ⟨_, ⟨pieces, hpieces, hheader, rfl⟩, htext⟩
  · obtain ⟨expanded, -, htext⟩ := renderHeader_eq_ok_iff.1 h
    refine ⟨(Text.lines expanded).map commented, by rw [htext, List.flatMap_map], ?_⟩
    refine List.forall_mem_map.2 fun line hline => ⟨?_, List.prefix_append _ _⟩
    exact lineFeed_not_mem_commented (Text.lineFeed_not_mem hline)
  · simp only [renderHeader_eq_error_iff, expand_eq_error_iff]
    constructor
    · rintro ⟨_, ⟨pieces, rest, hpieces, hheader, hbrace, rfl⟩, rfl⟩
      exact ⟨pieces, rest, hpieces, hheader, hbrace, rfl⟩
    · rintro ⟨pieces, rest, hpieces, hheader, hbrace, rfl⟩
      exact ⟨_, ⟨pieces, rest, hpieces, hheader, hbrace, rfl⟩, rfl⟩

theorem renderHeader_template_version :
    { header := "gots \x7bversion\x7d\n\n\x7d" : Options }.renderHeader =
      .ok "// gots 0.1.0\n//\n// \x7d\n" ∧
    ∃ lines : List (List Char),
      "// gots 0.1.0\n//\n// \x7d\n".toList = lines.flatMap (· ++ ['\n']) ∧
      ∀ line ∈ lines, '\n' ∉ line ∧ "//".toList <+: line := by
  have h : { header := "gots \x7bversion\x7d\n\n\x7d" : Options }.renderHeader =
      .ok "// gots 0.1.0\n//\n// \x7d\n" := eq_ok_of_toOption (by decide +kernel)
  exact ⟨h, (renderHeader_template _).2.2.1 _ h⟩

end WireTypes.Options
