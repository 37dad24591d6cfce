import WireTypes.Proofs.Mapping

/-!
# Where block comments close

`ClosesOnlyBefore tail t`: the pair that closes a block comment stands in `t` in one place, in front
of `tail`. `closings t` lists what follows each such pair. The text of a comment is read from its
front: a part that closes nothing, whatever follows it (`Harmless`), leaves the closings of the
rest.

* `harmless_escapeClosing`: escaped text closes nothing once a blank or a line feed ends it.
* `blockComments_close_at_end`: a documentation block, and the note with a name that nothing
  answers, close at their ends and nowhere else.
-/

set_option autoImplicit false

namespace WireTypes.Code

namespace Comment

/-! ## Closing pairs -/

/-- The pair that closes a block comment stands in the text once, in front of `tail`. -/
def ClosesOnlyBefore (tail t : List Char) : Prop :=
  ∀ rest, (∃ before, t = before ++ '*' :: '/' :: rest) ↔ rest = tail

/-- What follows each pair that closes a block comment, in order. -/
def closings : List Char → List (List Char)
  | [] => []
  | '*' :: '/' :: rest => rest :: closings rest
  | _ :: rest => closings rest

theorem mem_closings_iff {t rest : List Char} :
    rest ∈ closings t ↔ ∃ before, t = before ++ '*' :: '/' :: rest := by
  fun_induction closings t with
  | case1 => simp
  | case2 more ih =>
    rw [List.mem_cons, ih]
    constructor
    · rintro (rfl | ⟨before, rfl⟩)
      · exact ⟨[], rfl⟩
      · exact ⟨'*' :: '/' :: before, rfl⟩
    · rintro ⟨before, h⟩
      rcases before with _ | ⟨c, _ | ⟨d, before⟩⟩
      · exact .inl (by simpa using h.symm)
      · simp at h
      · exact .inr ⟨before, (List.cons.inj (List.cons.inj h).2).2⟩
  | case3 c more hpair ih =>
    rw [ih]
    constructor
    · rintro ⟨before, rfl⟩
      exact ⟨c :: before, rfl⟩
    · rintro ⟨before, h⟩
      rcases before with _ | ⟨d, before⟩
      · obtain ⟨rfl, rfl⟩ := List.cons.inj h
        exact (hpair rest rfl rfl).elim
      · exact ⟨before, (List.cons.inj h).2⟩

theorem closesOnlyBefore_of_closings {tail t : List Char} (h : closings t = [tail]) :
    ClosesOnlyBefore tail t := by
  intro rest
  rw [← mem_closings_iff, h, List.mem_singleton]

theorem closings_cons {c : Char} {rest : List Char} (h : c = '*' → rest.head? ≠ some '/') :
    closings (c :: rest) = closings rest := by
  rw [closings]
  rintro after rfl rfl
  exact h rfl rfl

/-- A text in which no block comment closes, whatever follows it. -/
def Harmless (t : List Char) : Prop :=
  ∀ u, closings (t ++ u) = closings u

namespace Harmless

variable {t u : List Char}

theorem append (ht : Harmless t) (hu : Harmless u) : Harmless (t ++ u) := by
  intro v
  rw [List.append_assoc, ht, hu]

theorem of_star_not_mem (h : '*' ∉ t) : Harmless t := by
  intro u
  induction t with
  | nil => rfl
  | cons c t ih =>
    rw [List.mem_cons, not_or] at h
    rw [List.cons_append, closings_cons fun hc => absurd hc.symm h.1, ih h.2]

theorem join {texts : List String} (h : ∀ text ∈ texts, Harmless text.toList) :
    Harmless (String.join texts).toList := by
  induction texts with
  | nil => exact fun u => rfl
  | cons text rest ih =>
    rw [String.join_cons, String.toList_append]
    exact (h text List.mem_cons_self).append (ih fun t ht => h t (List.mem_cons_of_mem _ ht))

end Harmless

/-! ## Escaped text -/

theorem head?_escapeClosing (cs : List Char) : (escapeClosing cs).head? = cs.head? := by
  fun_cases escapeClosing cs with
  | _ => rfl

/-- Escaping breaks each closing pair, and no new one comes about: not by what it inserts, and not
at the end of the text. -/
theorem harmless_escapeClosing (cs : List Char) {stop : Char} (hstar : stop ≠ '*')
    (hslash : stop ≠ '/') : Harmless (escapeClosing cs ++ [stop]) := by
  intro u
  rw [List.append_assoc, List.singleton_append]
  fun_induction escapeClosing cs with
  | case1 => exact closings_cons fun h => absurd h hstar
  | case2 rest ih =>
    rw [List.cons_append, List.cons_append, List.cons_append, closings_cons, closings_cons,
      closings_cons, ih]
    · exact fun h => nomatch h
    · exact fun h => nomatch h
    · exact fun _ h => nomatch h
  | case3 c rest hpair ih =>
    rw [List.cons_append, closings_cons, ih]
    -- what stands behind a star is the first character of the rest, or the one that ends the text
    rintro rfl
    rw [List.head?_append, head?_escapeClosing]
    cases rest with
    | nil => simpa using hslash
    | cons d rest =>
      rintro h
      cases h
      exact hpair rest rfl rfl

/-! ## Comments -/

theorem harmless_indentation (depth width : Nat) :
    Harmless (indentation depth width).toList := by
  refine .of_star_not_mem ?_
  rw [indentation, Text.spaces, String.toList_ofList]
  intro h
  cases List.eq_of_mem_replicate h

theorem harmless_lines {margin : String} (h : Harmless margin.toList) (body : List (List Char)) :
    Harmless (String.join (body.map fun cs =>
      margin ++ " * " ++ .ofList (escapeClosing (Text.trimEnd cs)) ++ "\n")).toList := by
  refine .join fun line hline => ?_
  obtain ⟨cs, -, rfl⟩ := List.mem_map.1 hline
  have hbullet : Harmless " * ".toList := fun _ => rfl
  have hend : "\n".toList = ['\n'] := rfl
  have hescaped : Harmless (escapeClosing (Text.trimEnd cs) ++ ['\n']) :=
    harmless_escapeClosing _ (by decide) (by decide)
  simp only [String.toList_append, String.toList_ofList, List.append_assoc, hend]
  exact h.append (hbullet.append hescaped)

/-- A documentation block is not there, or closes in front of its last line feed only. -/
theorem docBlock_closes (text : String) (depth width : Nat) :
    docBlock text depth width = "" ∨
      (∃ inside, docBlock text depth width = indentation depth width ++ "/**" ++ inside) ∧
      ClosesOnlyBefore ['\n'] (docBlock text depth width).toList := by
  have hmargin := harmless_indentation depth width
  have hopening : Harmless "/**\n".toList := fun _ => rfl
  unfold docBlock
  split
  · exact .inl rfl
  · refine .inr ⟨?_, ?_⟩
    · have hopens : "/**\n" = "/**" ++ "\n" := rfl
      simp only [hopens, String.append_assoc]
      exact ⟨_, rfl⟩
    · refine closesOnlyBefore_of_closings ?_
      simp only [String.toList_append, List.append_assoc]
      rw [hmargin, hopening, harmless_lines hmargin, hmargin]
      rfl

/-- A note in a line closes at its end only. -/
theorem note_closes (text : String) :
    ClosesOnlyBefore []
      ("/*" ++ (" " ++ .ofList (escapeClosing text.toList) ++ " */")).toList := by
  refine closesOnlyBefore_of_closings ?_
  -- without the blank, a slash behind it would close what it opens
  have hopening : Harmless ("/*".toList ++ " ".toList) := fun _ => rfl
  have hend : " */".toList = [' '] ++ '*' :: '/' :: [] := rfl
  have hescaped : Harmless (escapeClosing text.toList ++ [' ']) :=
    harmless_escapeClosing _ (by decide) (by decide)
  simp only [String.toList_append, String.toList_ofList, List.append_assoc]
  rw [← List.append_assoc, hopening, hend, ← List.append_assoc, hescaped]
  rfl

end Comment

theorem fallbackExpr_eq (options : Options) (name : String) :
    fallbackExpr options name = .simple (options.fallback ++ " /*" ++
      (" " ++ .ofList (Comment.escapeClosing name.toList) ++ " */")) .other := by
  have hopening : " /* " = " /*" ++ " " := rfl
  unfold fallbackExpr
  simp only [hopening, String.append_assoc]

/-- Block comments close at their ends and nowhere else, whatever the documentation is and whatever
the name is that nothing answers. -/
theorem blockComments_close_at_end :
    (∀ (text : String) (depth width : Nat), Comment.docBlock text depth width = "" ∨
      (∃ inside,
        Comment.docBlock text depth width = Comment.indentation depth width ++ "/**" ++ inside) ∧
      Comment.ClosesOnlyBefore ['\n'] (Comment.docBlock text depth width).toList) ∧
    ∀ (ctx : Context) (name : String) (depth : Nat), ctx.options.overrides.get? name = none →
      if name = "" then
        toExpr ctx (.unresolved name) depth =
          .error (.malformedDeclaration ctx.decl .emptyUnresolved)
      else
        ∃ inside, toExpr ctx (.unresolved name) depth =
            .ok (.simple (ctx.options.fallback ++ " /*" ++ inside) .other) ∧
          Comment.ClosesOnlyBefore [] ("/*" ++ inside).toList := by
  refine ⟨Comment.docBlock_closes, fun ctx name depth hnone => ?_⟩
  split
  · rename_i hempty
    subst hempty
    rfl
  · rename_i hne
    refine ⟨_, ?_, Comment.note_closes name⟩
    rw [toExpr_unresolved_fallback hne hnone, fallbackExpr_eq]

theorem slashes_close_at_end :
    let ctx := fallbackContext "string /* */"
    Comment.docBlock "**//\n\n */ " 0 2 = "/**\n * **\\//\n *  *\\/\n */\n" ∧
      Comment.ClosesOnlyBefore ['\n'] (Comment.docBlock "**//\n\n */ " 0 2).toList ∧
      ctx.options.overrides.get? "a/**//*/" = none ∧
      toExpr ctx (.unresolved "a/**//*/") 0 =
        .ok (.simple "string /* */ /* a/**\\//*\\/ */" .other) ∧
      ∃ inside, toExpr ctx (.unresolved "a/**//*/") 0 =
          .ok (.simple ("string /* */" ++ " /*" ++ inside) .other) ∧
        Comment.ClosesOnlyBefore [] ("/*" ++ inside).toList := by
  intro ctx
  obtain ⟨hdocs, hnotes⟩ := blockComments_close_at_end
  have hrule : ctx.options.overrides.get? "a/**//*/" = none := rfl
  have hdoc := (hdocs "**//\n\n */ " 0 2).resolve_left (by decide +kernel)
  refine ⟨by decide +kernel, hdoc.2, hrule, ?_, hnotes ctx "a/**//*/" 0 hrule⟩
  exact eq_ok_of_toOption (by decide +kernel)

end WireTypes.Code
