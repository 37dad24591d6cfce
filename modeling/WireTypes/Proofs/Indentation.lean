import WireTypes.Proofs.Annotated
import WireTypes.Proofs.Mapping

/-!
# Indentation

The expression of a shape at a deeper level is the one at the level above with more blanks at the
start of each of its lines (`Text.indented`, `toExpr_deeper`), provided that no text that is copied
into it has lines of its own. Comments may: they are cut into lines and each line is written at its
level.
-/

set_option autoImplicit false

namespace WireTypes

namespace Text

/-- `n` blanks after every line feed. -/
def indentLines (n : Nat) (cs : List Char) : List Char :=
  cs.flatMap fun c => if c = '\n' then '\n' :: List.replicate n ' ' else [c]

/-- `indentLines` on strings. -/
def indented (n : Nat) (s : String) : String :=
  .ofList (indentLines n s.toList)

/-- A text without line feeds. -/
def IsLine (s : String) : Prop := '\n' ∉ s.toList

instance : DecidablePred IsLine := fun _ => inferInstanceAs (Decidable (¬_))

theorem indented_append (n : Nat) (s t : String) :
    indented n (s ++ t) = indented n s ++ indented n t := by
  rw [indented, String.toList_append, indentLines, List.flatMap_append, String.ofList_append]
  rfl

theorem indented_of_isLine {s : String} (h : IsLine s) (n : Nat) : indented n s = s := by
  have hcs : ∀ cs : List Char, '\n' ∉ cs → indentLines n cs = cs := by
    intro cs hcs
    induction cs with
    | nil => rfl
    | cons c cs ih =>
      rw [List.mem_cons, not_or] at hcs
      rw [indentLines, List.flatMap_cons, if_neg (Ne.symm hcs.1)]
      exact congrArg (c :: ·) (ih hcs.2)
  rw [indented, hcs _ h, String.ofList_toList]

theorem indented_lineFeed (n : Nat) : indented n "\n" = "\n" ++ spaces n :=
  String.toList_inj.1 (by simp [indented, indentLines, spaces])

theorem isLine_append {s t : String} (hs : IsLine s) (ht : IsLine t) : IsLine (s ++ t) := by
  rw [IsLine, String.toList_append, List.mem_append, not_or]
  exact ⟨hs, ht⟩

theorem isLine_spaces (n : Nat) : IsLine (spaces n) := by
  rw [IsLine, spaces, String.toList_ofList]
  exact fun h => absurd (List.eq_of_mem_replicate h) (by decide)

theorem spaces_add (n m : Nat) : spaces (n + m) = spaces n ++ spaces m := by
  rw [spaces, List.replicate_add, String.ofList_append]
  rfl

/-! ## Hanging texts -/

/-- `t` and `u` consist of whole lines, and those of `u` have `n` blanks more at their start. -/
def Hangs (n : Nat) (t u : String) : Prop := spaces n ++ indented n t = u ++ spaces n

namespace Hangs

variable {n : Nat} {t t' u u' : String}

theorem empty : Hangs n "" "" := by
  rw [Hangs, indented_of_isLine (by decide), String.append_empty, String.empty_append]

theorem append (h : Hangs n t u) (h' : Hangs n t' u') : Hangs n (t ++ t') (u ++ u') := by
  rw [Hangs, indented_append, ← String.append_assoc, h, String.append_assoc, h',
    ← String.append_assoc]

theorem join {α : Type} {f g : α → String} {xs : List α} (h : ∀ x ∈ xs, Hangs n (f x) (g x)) :
    Hangs n (String.join (xs.map f)) (String.join (xs.map g)) := by
  induction xs with
  | nil => exact empty
  | cons x xs ih =>
    obtain ⟨hx, hxs⟩ := List.forall_mem_cons.1 h
    rw [List.map_cons, List.map_cons, String.join_cons, String.join_cons]
    exact hx.append (ih hxs)

/-- A line, or several of them of which the first one starts at `margin`. -/
theorem line (n margin : Nat) (text : String) :
    Hangs n (spaces margin ++ text ++ "\n") (spaces (margin + n) ++ indented n text ++ "\n") := by
  rw [Hangs, indented_append, indented_append, indented_of_isLine (isLine_spaces _),
    indented_lineFeed, Nat.add_comm, spaces_add]
  simp only [String.append_assoc]

end Hangs

/-! ## Lower case -/

theorem eq_of_ofNat_eq {n : Nat} {c : Char} (hc : c ≠ '\x00') (h : Char.ofNat n = c) :
    n = c.toNat := by
  subst h
  by_cases hn : n.isValidChar
  · have hchar : Char.ofNat n = Char.ofNatAux n hn := dif_pos hn
    rw [hchar]
    rfl
  · exact absurd (dif_neg hn) hc

/-- No capital letter has a line feed for its small letter. -/
theorem lineFeed_not_mem_lowerChar {c : Char} (h : c ≠ '\n') : '\n' ∉ lowerChar c := by
  have hshifts : ∀ s ∈ caseShifts, 10 < s.capitals.first + s.shift := by decide +kernel
  unfold lowerChar
  split
  · decide
  · split
    · rename_i s hs
      intro hmem
      have hshift := hshifts s (List.mem_of_find?_eq_some hs)
      have hcapital := List.find?_some hs
      simp only [Stride.contains, Bool.and_eq_true, decide_eq_true_eq] at hcapital
      have hcode := eq_of_ofNat_eq (by decide) (List.mem_singleton.1 hmem).symm
      have hfeed : '\n'.toNat = 10 := rfl
      omega
    · rw [List.mem_singleton]
      exact Ne.symm h

theorem isLine_toLower {s : String} (h : IsLine s) : IsLine (toLower s) := by
  have hcs : ∀ cs before : List Char, '\n' ∉ cs → '\n' ∉ lowerAfter before cs := by
    intro cs
    induction cs with
    | nil => exact fun _ _ h => nomatch h
    | cons c cs ih =>
      intro before hcs
      rw [List.mem_cons, not_or] at hcs
      have hrest := ih (c :: before) hcs.2
      rw [lowerAfter]
      split
      · rw [List.mem_cons, not_or]
        refine ⟨?_, hrest⟩
        split <;> decide
      · rw [List.mem_append, not_or]
        exact ⟨lineFeed_not_mem_lowerChar (Ne.symm hcs.1), hrest⟩
  rw [IsLine, toLower, String.toList_ofList]
  exact hcs _ _ h

end Text

/-- No expression that the options ask for has lines of its own. -/
structure Options.SingleLine (o : Options) : Prop where
  fallback : Text.IsLine o.fallback
  rules : ∀ rule ∈ o.overrides.rules, Text.IsLine rule.2

/-- The names in a node of a shape, and the expressions that its members ask for, are lines. -/
def Shape.IsLineNode : Shape → Prop
  | .named name | .unresolved name => Text.IsLine name
  | .record members => ∀ m ∈ members, Text.IsLine m.goName ∧
      (∀ name ∈ m.rename, Text.IsLine name) ∧ ∀ expr ∈ m.override, Text.IsLine expr
  | _ => True

instance : DecidablePred Shape.IsLineNode
  | .named name | .unresolved name => inferInstanceAs (Decidable (Text.IsLine name))
  | .record members => inferInstanceAs (Decidable (∀ m ∈ members, Text.IsLine m.goName ∧
      (∀ name ∈ m.rename, Text.IsLine name) ∧ ∀ expr ∈ m.override, Text.IsLine expr))
  | .primitive _ | .map _ _ | .sequence _ | .optional _ | .pointer _ =>
    inferInstanceAs (Decidable True)

/-- No name in a shape and no expression that it asks for has lines of its own. Its comments may. -/
def Shape.SingleLine (s : Shape) : Prop := ∀ n ∈ s.nodes, n.IsLineNode

instance : DecidablePred Shape.SingleLine := fun s =>
  inferInstanceAs (Decidable (∀ n ∈ s.nodes, n.IsLineNode))

theorem Shape.SingleLine.member {members : List (Member Shape)}
    (h : (Shape.record members).SingleLine) {m : Member Shape} (hm : m ∈ members) :
    m.type.SingleLine :=
  fun n hn => h n (Shape.nodes_subset_of_mem hm hn)

namespace Code

/-! ## Comments -/

namespace Comment

theorem escapeClosing_cons (c : Char) (cs : List Char) :
    escapeClosing (c :: cs) = c :: escapeClosing cs ∨
      escapeClosing (c :: cs) = c :: '\\' :: escapeClosing cs := by
  by_cases h : c = '*' ∧ cs.head? = some '/'
  · obtain ⟨rfl, hhead⟩ := h
    cases cs with
    | nil => cases hhead
    | cons d cs =>
      cases hhead
      exact .inr rfl
  · left
    rw [escapeClosing]
    rintro rest rfl rfl
    exact h ⟨rfl, rfl⟩

/-- Escaping puts in backslashes only. -/
theorem mem_of_mem_escapeClosing {c : Char} {cs : List Char} (h : c ∈ escapeClosing cs)
    (hc : c ≠ '\\') : c ∈ cs := by
  induction cs with
  | nil => exact h
  | cons d cs ih =>
    rcases escapeClosing_cons d cs with heq | heq
    · rw [heq, List.mem_cons] at h
      exact List.mem_cons.2 (h.imp_right ih)
    · rw [heq, List.mem_cons, List.mem_cons] at h
      exact List.mem_cons.2 (h.imp_right fun h => ih (h.resolve_left hc))

theorem indentation_add (width d k : Nat) :
    indentation (d + k) width = Text.spaces (d * width + k * width) := by
  rw [indentation, Nat.add_mul]

/-- A line of its own level. -/
theorem line_hangs (text : String) (h : Text.IsLine text) (width d k : Nat) :
    Text.Hangs (k * width) (indentation d width ++ (text ++ "\n"))
      (indentation (d + k) width ++ (text ++ "\n")) := by
  have hline := Text.Hangs.line (k * width) (d * width) text
  rwa [Text.indented_of_isLine h, ← indentation_add, String.append_assoc,
    String.append_assoc] at hline

theorem docBlock_hangs (text : String) (width d k : Nat) :
    Text.Hangs (k * width) (docBlock text d width) (docBlock text (d + k) width) := by
  unfold docBlock
  cases hbody : (Text.lines text.toList).filter (!·.all Text.isBlank) with
  | nil => exact .empty
  | cons first rest =>
    have hlines : ∀ cs ∈ first :: rest,
        Text.IsLine (" * " ++ .ofList (escapeClosing (Text.trimEnd cs))) := by
      intro cs hcs
      have hline : '\n' ∉ cs := by
        rw [← hbody] at hcs
        exact Text.lineFeed_not_mem (List.mem_filter.1 hcs).1
      refine Text.isLine_append (by decide) ?_
      rw [Text.IsLine, String.toList_ofList]
      intro hmem
      have htrim := mem_of_mem_escapeClosing hmem (by decide)
      exact hline ((Text.dropEndWhile_isPrefix _ _).subset htrim)
    have hopen : Text.Hangs (k * width) (indentation d width ++ "/**\n")
        (indentation (d + k) width ++ "/**\n") := line_hangs "/**" (by decide) width d k
    have hclose : Text.Hangs (k * width) (indentation d width ++ " */\n")
        (indentation (d + k) width ++ " */\n") := line_hangs " */" (by decide) width d k
    have hinner := Text.Hangs.join fun cs hcs => line_hangs _ (hlines cs hcs) width d k
    simpa only [String.append_assoc] using (hopen.append hinner).append hclose

theorem isLine_inline (text : String) : Text.IsLine (inline text) := by
  rw [inline_eq]
  split
  · rename_i n hn
    refine Text.isLine_append (by decide) fun hmem => ?_
    obtain ⟨line, hline, before, rest, rfl, -⟩ := (exists_mem_note_iff rfl text).1 ⟨n, hn, hmem⟩
    exact Text.lineFeed_not_mem hline (List.mem_append_right _ List.mem_cons_self)
  · decide

theorem docBlock?_hangs (keep : Bool) (doc : Option String) (width d k : Nat) :
    Text.Hangs (k * width) (docBlock? keep doc d width) (docBlock? keep doc (d + k) width) := by
  unfold docBlock?
  split
  · split
    · exact docBlock_hangs _ width d k
    · exact .empty
  · exact .empty

theorem isLine_inline? (keep : Bool) (comment : Option String) :
    Text.IsLine (inline? keep comment) := by
  unfold inline?
  split
  · split
    · exact isLine_inline _
    · decide
  · decide

end Comment

/-! ## Expressions -/

/-- The expression with `n` blanks more at the start of each of its lines but the first. -/
def Expr.indented (n : Nat) (e : Expr) : Expr := { e with text := Text.indented n e.text }

namespace Expr

variable {n : Nat}

theorem indented_of_isLine {e : Expr} (h : Text.IsLine e.text) : e.indented n = e := by
  rw [indented, Text.indented_of_isLine h]

theorem indented_orElse (e : Expr) {alternative : String} (h : Text.IsLine alternative) :
    (e.orElse alternative).indented n = (e.indented n).orElse alternative := by
  have hbar : Text.IsLine " | " := by decide
  simp only [indented, orElse, Text.indented_append, Text.indented_of_isLine h,
    Text.indented_of_isLine hbar]

theorem operand_indented (e : Expr) : (e.indented n).operand = Text.indented n e.operand := by
  have hopen : Text.IsLine "(" := by decide
  have hclose : Text.IsLine ")" := by decide
  unfold operand
  rw [apply_ite (Text.indented n), Text.indented_append, Text.indented_append,
    Text.indented_of_isLine hopen, Text.indented_of_isLine hclose]
  rfl

theorem indented_sequence (e : Expr) :
    (simple (e.operand ++ "[]") .other).indented n =
      simple ((e.indented n).operand ++ "[]") .other := by
  have hend : Text.IsLine "[]" := by decide
  rw [operand_indented, indented, simple, Text.indented_append, Text.indented_of_isLine hend]
  rfl

end Expr

variable {n : Nat}

theorem indented_pointerExpr (e : Expr) :
    (pointerExpr e).indented n = pointerExpr (e.indented n) := by
  unfold pointerExpr
  rw [apply_ite (Expr.indented n), Expr.indented_orElse _ (by decide)]
  rfl

theorem indented_mapExpr (key value : Expr) :
    (mapExpr key value).indented n = mapExpr (key.indented n) (value.indented n) := by
  have hopen : Text.IsLine "\x7b [key: " := by decide
  have hstring : Text.IsLine "string" := by decide
  have hmid : Text.IsLine "]: " := by decide
  have hclose : Text.IsLine " \x7d" := by decide
  unfold mapExpr
  rw [← Expr.indented_orElse _ (by decide)]
  simp only [Expr.indented, Expr.simple, Text.indented_append, apply_ite (Text.indented n),
    Text.indented_of_isLine hopen, Text.indented_of_isLine hstring, Text.indented_of_isLine hmid,
    Text.indented_of_isLine hclose]
  rfl

/-! ## Properties -/

/-- `Expr.indented` for the type of a property. -/
def Property.indented (n : Nat) (p : Property) : Property := { p with type := p.type.indented n }

variable {o : Options}

theorem render_hangs {p : Property} (hname : Text.IsLine p.name) (d k : Nat) :
    Text.Hangs (k * o.indent) (p.render o d) ((p.indented (k * o.indent)).render o (d + k)) := by
  -- of what stands on the line of a property only the type may have lines of its own
  let head := (if p.readonly then "readonly " else "") ++ p.name ++
    (if p.optional then "?" else "") ++ ": "
  let tail := ";" ++ Comment.inline? o.comments.hasInline p.comment
  have hhead : Text.IsLine head := by
    refine Text.isLine_append (Text.isLine_append (Text.isLine_append ?_ hname) ?_) (by decide)
    · split <;> decide
    · split <;> decide
  have htail : Text.IsLine tail := Text.isLine_append (by decide) (Comment.isLine_inline? _ _)
  have hline := Text.Hangs.line (k * o.indent) (d * o.indent) (head ++ p.type.text ++ tail)
  rw [Text.indented_append, Text.indented_append, Text.indented_of_isLine hhead,
    Text.indented_of_isLine htail, ← Comment.indentation_add] at hline
  have hblock := Comment.docBlock?_hangs o.comments.hasDocs p.doc o.indent d k
  have h := hblock.append hline
  simp only [head, tail, String.append_assoc] at h
  simp only [Property.render, Property.indented, Expr.indented, String.append_assoc]
  exact h

theorem renderProperties_hangs {ps : List Property} (hnames : ∀ p ∈ ps, Text.IsLine p.name)
    (d k : Nat) :
    Text.Hangs (k * o.indent) (renderProperties o d ps)
      (renderProperties o (d + k) (ps.map (·.indented (k * o.indent)))) := by
  rw [renderProperties, renderProperties, List.map_map]
  exact Text.Hangs.join fun p hp => render_hangs (hnames p hp) d k

theorem indented_recordExpr {ps : List Property} (hnames : ∀ p ∈ ps, Text.IsLine p.name)
    (d k : Nat) :
    (recordExpr o d ps).indented (k * o.indent) =
      recordExpr o (d + k) (ps.map (·.indented (k * o.indent))) := by
  have hopen : Text.indented (k * o.indent) "\x7b\n" = "\x7b\n" ++ Text.spaces (k * o.indent) :=
    (Text.indented_append _ "\x7b" "\n").trans <| by
      rw [Text.indented_of_isLine (by decide), Text.indented_lineFeed, ← String.append_assoc]
      rfl
  have hmargin : Text.IsLine (Comment.indentation d o.indent) := Text.isLine_spaces _
  have hclose : Text.IsLine "\x7d" := by decide
  have htext : Text.indented (k * o.indent) (recordExpr o d ps).text =
      (recordExpr o (d + k) (ps.map (·.indented (k * o.indent)))).text := by
    -- the blanks after the last line feed of the members belong to the closing brace
    have hmembers : Text.spaces (k * o.indent) ++
          Text.indented (k * o.indent) (renderProperties o (d + 1) ps) =
        renderProperties o (d + k + 1) (ps.map (·.indented (k * o.indent))) ++
          Text.spaces (k * o.indent) := by
      rw [Nat.add_right_comm]
      exact renderProperties_hangs hnames (d + 1) k
    simp only [recordExpr, Expr.simple, Text.indented_append, hopen,
      Text.indented_of_isLine hmargin, Text.indented_of_isLine hclose]
    rw [@String.append_assoc "\x7b\n", hmembers, Comment.indentation_add,
      Nat.add_comm (d * _), Text.spaces_add]
    simp only [Comment.indentation, String.append_assoc]
  rw [Expr.indented, htext]
  rfl

/-! ## Shapes -/

variable {ctx : Context}

theorem isLine_get? (h : o.SingleLine) {name expr : String}
    (hrule : o.overrides.get? name = some expr) : Text.IsLine expr :=
  h.rules (name, expr) (Overrides.mem_of_get? hrule)

theorem isLine_localRule? (h : ctx.options.SingleLine) {name expr : String}
    (hrule : ctx.localRule? name = some expr) : Text.IsLine expr := by
  rcases Option.or_eq_some_iff.1 hrule with hrule | ⟨-, hrule⟩
  · exact isLine_get? h hrule
  · exact isLine_get? h hrule

theorem isLine_primitiveExpr (h : o.SingleLine) (p : Package.Primitive) :
    Text.IsLine (primitiveExpr o p).text := by
  cases p with
  | any => exact h.fallback
  | _ =>
    simp only [primitiveExpr, Expr.simple]
    decide

theorem isLine_fallbackExpr (h : o.SingleLine) {name : String} (hname : Text.IsLine name) :
    Text.IsLine (fallbackExpr o name).text := by
  have hnote : Text.IsLine (.ofList (Comment.escapeClosing name.toList)) := by
    rw [Text.IsLine, String.toList_ofList]
    exact fun hmem => hname (Comment.mem_of_mem_escapeClosing hmem (by decide))
  exact Text.isLine_append (Text.isLine_append (Text.isLine_append h.fallback (by decide)) hnote)
    (by decide)

theorem isLine_namedExpr (h : ctx.options.SingleLine) {name : String} (hname : Text.IsLine name)
    {e : Expr} (he : namedExpr ctx name = .ok e) : Text.IsLine e.text := by
  unfold namedExpr at he
  split at he
  · cases he
  · split at he
    · rename_i expr hrule
      cases he
      exact isLine_localRule? h hrule
    · cases he
      exact hname

theorem isLine_unresolvedExpr (h : ctx.options.SingleLine) {name : String}
    (hname : Text.IsLine name) {e : Expr} (he : unresolvedExpr ctx name = .ok e) :
    Text.IsLine e.text := by
  unfold unresolvedExpr at he
  split at he
  · cases he
  · split at he
    · rename_i expr hrule
      cases he
      exact isLine_get? h hrule
    · cases he
      exact isLine_fallbackExpr h hname

theorem isLine_propertyName {name : String} (h : Text.IsLine name) :
    Text.IsLine (propertyName name) :=
  fun hmem => h ((mem_propertyName_iff (by decide) (by decide)).1 hmem)

theorem isLine_memberName {m : Member Shape} (hgo : Text.IsLine m.goName)
    (hrename : ∀ name ∈ m.rename, Text.IsLine name) :
    Text.IsLine (memberName o m.rename m.goName) := by
  have happly : Text.IsLine (o.nameStyle.apply m.goName) := by
    cases o.nameStyle with
    | asWritten => exact hgo
    | lowerCase => exact Text.isLine_toLower hgo
  unfold memberName
  split
  · rename_i name hname
    split
    · exact happly
    · exact hrename name hname
  · exact happly

theorem map_indented_of_isLine {x : Except Error Expr} (h : ∀ e, x = .ok e → Text.IsLine e.text)
    (n : Nat) : x.map (Expr.indented n) = x := by
  cases x with
  | error e => rfl
  | ok e => exact congrArg Except.ok (Expr.indented_of_isLine (h e rfl))

theorem toProperty?_deeper {m : Member Shape} {d k : Nat}
    (h : toExpr ctx m.type (d + k) =
      (toExpr ctx m.type d).map (Expr.indented (k * ctx.options.indent)))
    (hoverride : ∀ expr ∈ m.override, Text.IsLine expr) :
    toProperty? ctx m (d + k) =
      (toProperty? ctx m d).map (Option.map (·.indented (k * ctx.options.indent))) := by
  have htype : memberType ctx m (d + k) =
      (memberType ctx m d).map (Expr.indented (k * ctx.options.indent)) := by
    unfold memberType
    split
    · rename_i expr hexpr
      exact (map_indented_of_isLine (fun e he => by cases he; exact hoverride expr hexpr) _).symm
    · exact h
  rw [toProperty?_eq, toProperty?_eq, htype]
  split
  · rfl
  · cases memberType ctx m d <;> rfl

theorem toProperties_deeper {ms : List (Member Shape)} {d k : Nat}
    (h : ∀ m ∈ ms, toExpr ctx m.type (d + k) =
      (toExpr ctx m.type d).map (Expr.indented (k * ctx.options.indent)))
    (hoverrides : ∀ m ∈ ms, ∀ expr ∈ m.override, Text.IsLine expr) :
    toProperties ctx ms (d + k) =
      (toProperties ctx ms d).map (List.map (·.indented (k * ctx.options.indent))) := by
  induction ms with
  | nil => rfl
  | cons m rest ih =>
    obtain ⟨hm, hrest⟩ := List.forall_mem_cons.1 h
    obtain ⟨hmo, hresto⟩ := List.forall_mem_cons.1 hoverrides
    rw [toProperties_cons, toProperties_cons, toProperty?_deeper hm hmo, ih hrest hresto]
    cases toProperty? ctx m d with
    | error e => rfl
    | ok p? =>
      cases toProperties ctx rest d with
      | error e => rfl
      | ok ps => cases p? <;> rfl

/-- The properties of members without lines of their own have names without. -/
theorem isLine_name_of_mem {ms : List (Member Shape)} (hms : (Shape.record ms).IsLineNode)
    {depth : Nat} {ps : List Property} (h : toProperties ctx ms depth = .ok ps) :
    ∀ p ∈ ps, Text.IsLine p.name := by
  intro p hp
  obtain ⟨m, hm, hp⟩ := exists_member_of_mem h hp
  obtain ⟨hgo, hrename, -⟩ := hms m hm
  obtain ⟨-, type, -, rfl⟩ := toProperty?_eq_some_iff.1 hp
  exact isLine_propertyName (isLine_memberName hgo hrename)

/-- The expression of a shape `k` levels deeper is the one of its level, with the blanks of `k`
levels after every line feed, or the same failure. -/
theorem toExpr_deeper (ho : ctx.options.SingleLine) {s : Shape} (hs : s.SingleLine) (d k : Nat) :
    toExpr ctx s (d + k) = (toExpr ctx s d).map (Expr.indented (k * ctx.options.indent)) := by
  induction s generalizing d with
  | primitive p =>
    rw [toExpr, toExpr]
    exact congrArg Except.ok (Expr.indented_of_isLine (isLine_primitiveExpr ho p)).symm
  | named name =>
    have hname : Text.IsLine name := hs _ (Shape.self_mem_nodes _)
    rw [toExpr, toExpr]
    exact (map_indented_of_isLine (fun e he => isLine_namedExpr ho hname he) _).symm
  | unresolved name =>
    have hname : Text.IsLine name := hs _ (Shape.self_mem_nodes _)
    rw [toExpr, toExpr]
    exact (map_indented_of_isLine (fun e he => isLine_unresolvedExpr ho hname he) _).symm
  | map key value ihk ihv =>
    have hsub := (List.forall_mem_cons.1 hs).2
    rw [toExpr, toExpr, ihk (fun n hn => hsub n (List.mem_append_left _ hn)) d,
      ihv (fun n hn => hsub n (List.mem_append_right _ hn)) d]
    cases toExpr ctx key d with
    | error e => rfl
    | ok key =>
      cases toExpr ctx value d with
      | error e => rfl
      | ok value => exact congrArg Except.ok (indented_mapExpr key value).symm
  | sequence elem ih =>
    rw [toExpr, toExpr, ih (List.forall_mem_cons.1 hs).2 d]
    split
    · rfl
    · cases toExpr ctx elem d with
      | error e => rfl
      | ok elem => exact congrArg Except.ok elem.indented_sequence.symm
  | pointer inner ih =>
    rw [toExpr, toExpr, ih (List.forall_mem_cons.1 hs).2 d]
    cases toExpr ctx inner d with
    | error e => rfl
    | ok inner => exact congrArg Except.ok (indented_pointerExpr inner).symm
  | optional inner ih =>
    rw [toExpr, toExpr, ih (List.forall_mem_cons.1 hs).2 d]
    cases toExpr ctx inner d with
    | error e => rfl
    | ok inner => exact congrArg Except.ok (inner.indented_orElse (by decide)).symm
  | record members ih =>
    have hnode : (Shape.record members).IsLineNode := hs _ (Shape.self_mem_nodes _)
    have hdeeper : toProperties ctx members (d + 1 + k) = (toProperties ctx members (d + 1)).map
        (List.map (·.indented (k * ctx.options.indent))) :=
      toProperties_deeper (fun m hm => ih m hm (hs.member hm) (d + 1)) fun m hm => (hnode m hm).2.2
    rw [Nat.add_right_comm] at hdeeper
    rw [toExpr, toExpr, hdeeper]
    cases hps : toProperties ctx members (d + 1) with
    | error e => rfl
    | ok ps =>
      exact congrArg Except.ok (indented_recordExpr (isLine_name_of_mem hnode hps) d k).symm

/-- The stock by shop: a record whose documentation has two lines, inside a sequence, inside a
record with a comment. -/
def stockShape : Shape :=
  let count := { Member.plain "Count" (.primitive .int) with doc := some "How many\nare left." }
  let items := { Member.plain "Items" (.sequence (.pointer (.record [count]))) with
    comment := some "by shelf" }
  .map (.named "Shop") (.record [items])

theorem stockShape_deeper :
    let ctx : Context := { options := {}, package := "shop", decl := "Stock" }
    ctx.options.SingleLine ∧ stockShape.SingleLine ∧
      (toExpr ctx stockShape 1).toOption.map Expr.text = some
        ("\x7b [key: Shop]: \x7b\n    Items: (\x7b\n      /**\n       * How many\n" ++
          "       * are left.\n       */\n      Count: number /* int */;\n    \x7d | null)[];" ++
          " // by shelf\n  \x7d | undefined \x7d") ∧
      toExpr ctx stockShape (1 + 2) = (toExpr ctx stockShape 1).map (Expr.indented 4) := by
  intro ctx
  have ho : ctx.options.SingleLine := ⟨by decide, fun _ h => nomatch h⟩
  have hs : stockShape.SingleLine := by decide
  exact ⟨ho, hs, by decide +kernel, toExpr_deeper ho hs 1 2⟩

end Code

end WireTypes
