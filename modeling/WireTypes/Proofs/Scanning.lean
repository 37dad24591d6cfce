import Mathlib.Data.List.Basic
import WireTypes.Code.Alternatives
import WireTypes.Text.Quoted

/-!
# Scanning type expressions

Where the scanner of alternatives stands after a text (`after`), and what it sees without comments
(`bareIn`).

* `scan_append`: a text that ends in code is scanned independently of what follows it.
* `IsBalanced`: a text that leaves every depth of brackets as it finds it. Inside brackets such a
  text is never cut (`IsBalanced.spans`).
* `spans_plain`, `spans_comment`, `spans_singleQuoted`: the texts of which expressions are made.
-/

set_option autoImplicit false

namespace WireTypes.Code

/-! ## Pieces -/

/-- Pieces followed by pieces, where the last of the first and the first of the others are one. -/
def glue : List (List Char) → List (List Char) → List (List Char)
  | [], qs => qs
  | [p], [] => [p]
  | [p], q :: qs => (p ++ q) :: qs
  | p :: p' :: ps, qs => p :: glue (p' :: ps) qs

@[simp] theorem consHead_ne_nil (c : Char) (ps : List (List Char)) : Text.consHead c ps ≠ [] := by
  cases ps <;> simp [Text.consHead]

@[simp] theorem alternativesIn_ne_nil (s : Scope) (t : List Char) : alternativesIn s t ≠ [] := by
  fun_cases alternativesIn s t <;> simp

theorem glue_consHead (c : Char) {ps : List (List Char)} (h : ps ≠ []) (qs : List (List Char)) :
    glue (Text.consHead c ps) qs = Text.consHead c (glue ps qs) := by
  cases ps with
  | nil => exact absurd rfl h
  | cons p ps =>
    cases ps with
    | nil => cases qs <;> rfl
    | cons p' ps => rfl

theorem glue_cons (p : List Char) {ps : List (List Char)} (h : ps ≠ []) (qs : List (List Char)) :
    glue (p :: ps) qs = p :: glue ps qs := by
  cases ps with
  | nil => exact absurd rfl h
  | cons p' ps => rfl

theorem length_glue {ps qs : List (List Char)} (hp : ps ≠ []) (hq : qs ≠ []) :
    (glue ps qs).length + 1 = ps.length + qs.length := by
  induction ps with
  | nil => exact absurd rfl hp
  | cons p ps ih =>
    cases ps with
    | nil =>
      obtain ⟨q, qs, rfl⟩ := List.exists_cons_of_ne_nil hq
      simp only [glue, List.length_cons, List.length_nil]
      omega
    | cons p' ps =>
      have hrest := ih (List.cons_ne_nil _ _)
      rw [glue, List.length_cons, List.length_cons]
      omega

theorem intercalate_consHead (c : Char) {ps : List (List Char)} (h : ps ≠ []) :
    List.intercalate ['|'] (Text.consHead c ps) = c :: List.intercalate ['|'] ps := by
  cases ps with
  | nil => exact absurd rfl h
  | cons p ps => cases ps <;> rfl

/-- The alternatives of a text, with bars between them, are the text. -/
theorem intercalate_alternativesIn (s : Scope) (t : List Char) :
    List.intercalate ['|'] (alternativesIn s t) = t := by
  fun_induction alternativesIn s t with
  | case1 => rfl
  | case2 depth rest ih => simp [intercalate_consHead, ih]
  | case3 depth c rest _ hbar ih =>
    obtain ⟨p, ps, hp⟩ := List.exists_cons_of_ne_nil (alternativesIn_ne_nil (.code 0) rest)
    rw [hp] at ih ⊢
    rw [hbar.1, ← ih]
    rfl
  | case4 depth c rest _ _ ih => simp [intercalate_consHead, ih]
  | case5 quote depth c rest ih => simp [intercalate_consHead, ih]
  | case6 quote depth c rest _ ih => rw [intercalate_consHead _ (alternativesIn_ne_nil _ _), ih]
  | case7 depth rest ih => simp [intercalate_consHead, ih]
  | case8 depth c rest _ ih => simp [intercalate_consHead, ih]

theorem eq_of_alternativesIn_eq {s : Scope} {t p : List Char} (h : alternativesIn s t = [p]) :
    p = t := by
  have hjoin := intercalate_alternativesIn s t
  rw [h] at hjoin
  simpa using hjoin

/-! ## Scopes -/

/-- The scope after a text, of which `scope` says where it starts. -/
def after : Scope → List Char → Scope
  | scope, [] => scope
  | .code depth, '/' :: '*' :: rest => after (.comment depth) rest
  | .code depth, c :: rest => after (afterCode depth c) rest
  | .string quote depth, '\\' :: _ :: rest => after (.string quote depth) rest
  | .string quote depth, c :: rest =>
    after (if c = quote then .code depth else .string quote depth) rest
  | .comment depth, '*' :: '/' :: rest => after (.code depth) rest
  | .comment depth, _ :: rest => after (.comment depth) rest

/-- A text without its comments. -/
def bareIn : Scope → List Char → List Char
  | _, [] => []
  | .code depth, '/' :: '*' :: rest => bareIn (.comment depth) rest
  | .code depth, c :: rest => c :: bareIn (afterCode depth c) rest
  | .string quote depth, '\\' :: c :: rest => '\\' :: c :: bareIn (.string quote depth) rest
  | .string quote depth, c :: rest =>
    c :: bareIn (if c = quote then .code depth else .string quote depth) rest
  | .comment depth, '*' :: '/' :: rest => bareIn (.code depth) rest
  | .comment depth, _ :: rest => bareIn (.comment depth) rest

/-- No string is closed by a backslash. -/
def Scope.IsProper : Scope → Prop
  | .string quote _ => quote ≠ '\\'
  | _ => True

theorem isProper_afterCode (depth : Nat) (c : Char) : (afterCode depth c).IsProper := by
  unfold afterCode
  split
  · trivial
  · split
    · trivial
    · split
      · rename_i hq
        rintro rfl
        exact absurd hq (by decide)
      · trivial

theorem isProper_closed {quote : Char} {depth : Nat} (h : quote ≠ '\\') (c : Char) :
    (if c = quote then Scope.code depth else .string quote depth).IsProper := by
  split
  · trivial
  · exact h

/-! ## Texts one after the other -/

/-- Two texts do not open a comment where they meet. -/
def Meet (t u : List Char) : Prop := t.getLast? = some '/' → u.head? ≠ some '*'

theorem Meet.tail {c : Char} {t u : List Char} (h : Meet (c :: t) u) : Meet t u := by
  cases t with
  | nil => exact fun h => nomatch h
  | cons d t => exact fun hl => h (by rwa [List.getLast?_cons_cons])

/-- What is no pair of characters stays none when a text is continued. -/
theorem no_pair_append {a b c : Char} {t u : List Char} (h : ∀ r, c = a → t = b :: r → False)
    (hu : t = [] → c = a → u.head? ≠ some b) : ∀ r, c = a → t ++ u = b :: r → False := by
  intro r hc he
  cases t with
  | nil =>
    rw [List.nil_append] at he
    exact hu rfl hc (by rw [he]; rfl)
  | cons d t =>
    rw [List.cons_append, List.cons.injEq] at he
    exact h t hc (by rw [he.1])

theorem no_escape_append {c : Char} {t u : List Char}
    (h : ∀ b r, c = '\\' → t = b :: r → False) (hu : t = [] → c ≠ '\\') :
    ∀ b r, c = '\\' → t ++ u = b :: r → False := by
  intro b r hc he
  cases t with
  | nil => exact hu rfl hc
  | cons d t => exact h d t hc rfl

variable {s s' : Scope} {t u : List Char} {d : Nat}

/-- A text that ends in code is scanned independently of what follows it. -/
theorem scan_append (hs : s.IsProper) (h : after s t = .code d) (hm : Meet t u) :
    after s (t ++ u) = after (.code d) u ∧
      bareIn s (t ++ u) = bareIn s t ++ bareIn (.code d) u ∧
      alternativesIn s (t ++ u) = glue (alternativesIn s t) (alternativesIn (.code d) u) := by
  -- the scope varies along the text, so the induction follows the cases of the scanner
  induction s, t using after.induct with
  | case1 s =>
    rw [after] at h
    subst h
    obtain ⟨q, qs, hq⟩ := List.exists_cons_of_ne_nil (alternativesIn_ne_nil (.code d) u)
    refine ⟨rfl, rfl, ?_⟩
    rw [List.nil_append, alternativesIn, hq]
    rfl
  | case2 depth rest ih =>
    rw [after] at h
    obtain ⟨ha, hb, hc⟩ := ih trivial h hm.tail.tail
    simp only [List.cons_append, after, bareIn, alternativesIn, ha, hb, hc]
    simp [glue_consHead]
  | case3 depth c rest hpair ih =>
    rw [after.eq_3 _ _ _ hpair] at h
    obtain ⟨ha, hb, hc⟩ := ih (isProper_afterCode depth c) h hm.tail
    have hpair' := no_pair_append (u := u) hpair fun hnil hc => hm (by rw [hnil, hc]; rfl)
    rw [List.cons_append, after.eq_3 _ _ _ hpair', bareIn.eq_3 _ _ _ hpair',
      bareIn.eq_3 _ _ _ hpair, alternativesIn.eq_3 _ _ _ hpair, alternativesIn.eq_3 _ _ _ hpair']
    refine ⟨ha, by rw [hb]; rfl, ?_⟩
    split
    · rename_i hbar
      rw [hbar.1, hbar.2] at hc
      rw [glue_cons _ (alternativesIn_ne_nil _ _)]
      exact congrArg (List.cons []) hc
    · rw [glue_consHead _ (alternativesIn_ne_nil _ _), hc]
  | case4 quote depth c rest ih =>
    rw [after] at h
    obtain ⟨ha, hb, hc⟩ := ih hs h hm.tail.tail
    simp only [List.cons_append, after, bareIn, alternativesIn, ha, hb, hc]
    simp [glue_consHead]
  | case5 quote depth c rest hescape ih =>
    rw [after.eq_5 _ _ _ _ hescape] at h
    obtain ⟨ha, hb, hc⟩ := ih (isProper_closed hs c) h hm.tail
    have hescape' : ∀ b r, c = '\\' → rest ++ u = b :: r → False := by
      refine no_escape_append hescape fun hnil hslash => ?_
      rw [hnil, after, hslash, if_neg (Ne.symm hs)] at h
      cases h
    rw [List.cons_append, after.eq_5 _ _ _ _ hescape', bareIn.eq_5 _ _ _ _ hescape',
      bareIn.eq_5 _ _ _ _ hescape, alternativesIn.eq_5 _ _ _ _ hescape,
      alternativesIn.eq_5 _ _ _ _ hescape']
    exact ⟨ha, by rw [hb]; rfl, by rw [glue_consHead _ (alternativesIn_ne_nil _ _), hc]⟩
  | case6 depth rest ih =>
    rw [after] at h
    obtain ⟨ha, hb, hc⟩ := ih trivial h hm.tail.tail
    simp only [List.cons_append, after, bareIn, alternativesIn, ha, hb, hc]
    simp [glue_consHead]
  | case7 depth c rest hpair ih =>
    rw [after.eq_7 _ _ _ hpair] at h
    obtain ⟨ha, hb, hc⟩ := ih trivial h hm.tail
    have hpair' : ∀ r, c = '*' → rest ++ u = '/' :: r → False := by
      refine no_pair_append hpair fun hnil _ => ?_
      rw [hnil, after] at h
      cases h
    rw [List.cons_append, after.eq_7 _ _ _ hpair', bareIn.eq_7 _ _ _ hpair',
      bareIn.eq_7 _ _ _ hpair, alternativesIn.eq_7 _ _ _ hpair, alternativesIn.eq_7 _ _ _ hpair']
    exact ⟨ha, hb, by rw [glue_consHead _ (alternativesIn_ne_nil _ _), hc]⟩

theorem after_append (hs : s.IsProper) (h : after s t = .code d) (hm : Meet t u) :
    after s (t ++ u) = after (.code d) u := (scan_append hs h hm).1

theorem bareIn_append (hs : s.IsProper) (h : after s t = .code d) (hm : Meet t u) :
    bareIn s (t ++ u) = bareIn s t ++ bareIn (.code d) u := (scan_append hs h hm).2.1

theorem alternativesIn_append (hs : s.IsProper) (h : after s t = .code d) (hm : Meet t u) :
    alternativesIn s (t ++ u) = glue (alternativesIn s t) (alternativesIn (.code d) u) :=
  (scan_append hs h hm).2.2

/-- A blank at the end of a text, whatever it is in, is kept or belongs to a comment. -/
theorem bareIn_append_blank (s : Scope) (t : List Char) :
    bareIn s (t ++ [' ']) = bareIn s t ∨ bareIn s (t ++ [' ']) = bareIn s t ++ [' '] := by
  induction s, t using after.induct with
  | case1 s =>
    cases s with
    | comment depth => exact .inl rfl
    | _ => exact .inr rfl
  | case2 depth rest ih => exact ih
  | case3 depth c rest hpair ih =>
    have hpair' := no_pair_append (u := [' ']) hpair fun _ _ => by decide
    rw [List.cons_append, bareIn.eq_3 _ _ _ hpair', bareIn.eq_3 _ _ _ hpair]
    exact ih.imp (congrArg (c :: ·)) (congrArg (c :: ·))
  | case4 quote depth c rest ih =>
    exact ih.imp (congrArg ('\\' :: c :: ·)) (congrArg ('\\' :: c :: ·))
  | case5 quote depth c rest hescape ih =>
    cases rest with
    | nil =>
      -- the blank follows a lone backslash, or any other character of the string
      refine .inr ?_
      by_cases hc : c = '\\'
      · rw [hc]
        simp [bareIn]
      · show bareIn (.string quote depth) [c, ' '] = bareIn (.string quote depth) [c] ++ [' ']
        rw [bareIn.eq_5 _ _ _ _ hescape, bareIn.eq_5 _ _ _ _ fun _ _ h => absurd h hc]
        split <;> rfl
    | cons b rest =>
      have hescape' : ∀ b' r, c = '\\' → b :: rest ++ [' '] = b' :: r → False :=
        no_escape_append hescape fun h => nomatch h
      rw [List.cons_append, bareIn.eq_5 _ _ _ _ hescape', bareIn.eq_5 _ _ _ _ hescape]
      exact ih.imp (congrArg (c :: ·)) (congrArg (c :: ·))
  | case6 depth rest ih => exact ih
  | case7 depth c rest hpair ih =>
    have hpair' := no_pair_append (u := [' ']) hpair fun _ _ => by decide
    rw [List.cons_append, bareIn.eq_7 _ _ _ hpair', bareIn.eq_7 _ _ _ hpair]
    exact ih

/-! ## Texts in one piece -/

/-- A text leads from one scope to another and is not cut on the way. -/
structure Spans (s : Scope) (t : List Char) (s' : Scope) : Prop where
  after : after s t = s'
  whole : alternativesIn s t = [t]

theorem Spans.nil (s : Scope) : Spans s [] s := ⟨by rw [Code.after], by rw [alternativesIn]⟩

theorem Spans.append (hs : s.IsProper) (h : Spans s t (.code d)) (hu : Spans (.code d) u s')
    (hm : Meet t u) : Spans s (t ++ u) s' := by
  refine ⟨(after_append hs h.after hm).trans hu.after, ?_⟩
  rw [alternativesIn_append hs h.after hm, h.whole, hu.whole]
  rfl

theorem Spans.cons_code {c : Char} (h : Spans (afterCode d c) t s')
    (hpair : ∀ r, c = '/' → t = '*' :: r → False) (hbar : ¬(c = '|' ∧ d = 0)) :
    Spans (.code d) (c :: t) s' := by
  refine ⟨(Code.after.eq_3 _ _ _ hpair).trans h.after, ?_⟩
  rw [alternativesIn.eq_3 _ _ _ hpair, if_neg hbar, h.whole]
  rfl

theorem Spans.cons_string {quote c : Char}
    (h : Spans (if c = quote then .code d else .string quote d) t s') (hc : c ≠ '\\') :
    Spans (.string quote d) (c :: t) s' := by
  have hescape : ∀ b r, c = '\\' → t = b :: r → False := fun _ _ h => absurd h hc
  refine ⟨(Code.after.eq_5 _ _ _ _ hescape).trans h.after, ?_⟩
  rw [alternativesIn.eq_5 _ _ _ _ hescape, h.whole]
  rfl

theorem Spans.cons_escape {quote c : Char} (h : Spans (.string quote d) t s') :
    Spans (.string quote d) ('\\' :: c :: t) s' := by
  refine ⟨by rw [Code.after, h.after], ?_⟩
  rw [alternativesIn, h.whole]
  rfl

/-! ## Balanced texts -/

/-- A text that leaves every depth of brackets as it finds it, with its strings and comments
closed. -/
def IsBalanced (t : List Char) : Prop := ∀ depth, after (.code depth) t = .code depth

/-- The scope with one bracket more around it. -/
def Scope.up : Scope → Scope
  | .code depth => .code (depth + 1)
  | .string quote depth => .string quote (depth + 1)
  | .comment depth => .comment (depth + 1)

theorem afterCode_succ (depth : Nat) (c : Char) :
    afterCode (depth + 1) c = afterCode depth c ∨
      afterCode (depth + 1) c = (afterCode depth c).up := by
  unfold afterCode
  split
  · exact .inr rfl
  · split
    · cases depth with
      | zero => exact .inl rfl
      | succ depth => exact .inr rfl
    · split
      · exact .inr rfl
      · exact .inr rfl

theorem up_closed (c quote : Char) (depth : Nat) :
    (if c = quote then Scope.code (depth + 1) else .string quote (depth + 1)) =
      (if c = quote then Scope.code depth else .string quote depth).up := by
  split <;> rfl

/-- A bracket around a text either makes up for one that the text closes without having opened it,
or it stays open and the text is not cut. -/
theorem after_up (s : Scope) (t : List Char) :
    after s.up t = after s t ∨ Spans s.up t (after s t).up := by
  induction s, t using after.induct with
  | case1 s => exact .inr (by rw [after]; exact .nil _)
  | case2 depth rest ih =>
    simp only [Scope.up, after] at ih ⊢
    refine ih.imp_right fun h => ⟨by rw [after, h.after], ?_⟩
    rw [alternativesIn, h.whole]
    rfl
  | case3 depth c rest hpair ih =>
    simp only [Scope.up]
    rw [after.eq_3 _ _ _ hpair, after.eq_3 _ _ _ hpair]
    rcases afterCode_succ depth c with hc | hc
    · exact .inl (by rw [hc])
    · rw [hc]
      refine ih.imp_right fun h => Spans.cons_code (by rw [hc]; exact h) hpair ?_
      exact fun hbar => absurd hbar.2 (Nat.succ_ne_zero _)
  | case4 quote depth c rest ih =>
    simp only [Scope.up, after] at ih ⊢
    exact ih.imp_right .cons_escape
  | case5 quote depth c rest hescape ih =>
    show after (.string quote (depth + 1)) (c :: rest) = _ ∨
      Spans (.string quote (depth + 1)) (c :: rest) _
    rw [after.eq_5 _ _ _ _ hescape, after.eq_5 _ _ _ _ hescape, up_closed]
    refine ih.imp_right fun h => ⟨?_, ?_⟩
    · rw [after.eq_5 _ _ _ _ hescape, up_closed, h.after]
    · rw [alternativesIn.eq_5 _ _ _ _ hescape, up_closed, h.whole]
      rfl
  | case6 depth rest ih =>
    simp only [Scope.up, after] at ih ⊢
    refine ih.imp_right fun h => ⟨by rw [after, h.after], ?_⟩
    rw [alternativesIn, h.whole]
    rfl
  | case7 depth c rest hpair ih =>
    simp only [Scope.up] at ih ⊢
    rw [after.eq_7 _ _ _ hpair, after.eq_7 _ _ _ hpair]
    refine ih.imp_right fun h => ⟨?_, ?_⟩
    · rw [after.eq_7 _ _ _ hpair, h.after]
    · rw [alternativesIn.eq_7 _ _ _ hpair, h.whole]
      rfl

namespace IsBalanced

/-- Inside brackets a balanced text is not cut. -/
theorem spans (h : IsBalanced t) (d : Nat) : Spans (.code (d + 1)) t (.code (d + 1)) := by
  rcases after_up (.code d) t with hup | hup
  · rw [h d] at hup
    have heq : after (.code (d + 1)) t = .code d := hup
    rw [h (d + 1)] at heq
    cases heq
  · rw [h d] at hup
    exact hup

theorem of_spans (h : ∀ d, Spans (.code d) t (.code d)) : IsBalanced t := fun d => (h d).after

theorem append (h : IsBalanced t) (hu : IsBalanced u) (hm : Meet t u) : IsBalanced (t ++ u) :=
  fun d => (after_append (s := .code d) trivial (h d) hm).trans (hu d)

end IsBalanced

/-! ## Texts that expressions are made of -/

/-- The characters that mean something to the scanner. -/
def specialChars : List Char :=
  ['(', '[', '\x7b', '<', ')', ']', '\x7d', '>', '\x27', '\x22', '\x60', '|', '/']

/-- A character that means nothing to the scanner. -/
def isPlain (c : Char) : Bool :=
  !specialChars.contains c

theorem afterCode_plain {c : Char} (h : isPlain c) : afterCode d c = .code d := by
  have hmem : c ∉ specialChars := by simpa [isPlain] using h
  simp only [specialChars, List.mem_cons, not_or] at hmem
  simp [afterCode, isOpening, isClosing, isQuote, hmem]

theorem spans_plain (h : t.all isPlain) (d : Nat) : Spans (.code d) t (.code d) := by
  induction t with
  | nil => exact .nil _
  | cons c t ih =>
    rw [List.all_cons, Bool.and_eq_true] at h
    obtain ⟨hc, ht⟩ := h
    refine Spans.cons_code (by rw [afterCode_plain hc]; exact ih ht) ?_ ?_
    · rintro r rfl
      exact absurd hc (by decide)
    · rintro ⟨rfl, -⟩
      exact absurd hc (by decide)

/-- A text without slashes has no comments. -/
theorem bareIn_of_not_mem (h : '/' ∉ t) (hs : ∀ depth, s ≠ .comment depth) : bareIn s t = t := by
  induction s, t using after.induct with
  | case1 s => rfl
  | case2 depth rest ih => exact absurd List.mem_cons_self h
  | case3 depth c rest hpair ih =>
    rw [List.mem_cons, not_or] at h
    rw [bareIn.eq_3 _ _ _ hpair, ih h.2]
    unfold afterCode
    grind
  | case4 quote depth c rest ih =>
    rw [List.mem_cons, List.mem_cons, not_or, not_or] at h
    rw [bareIn, ih h.2.2 fun _ h => nomatch h]
  | case5 quote depth c rest hescape ih =>
    rw [List.mem_cons, not_or] at h
    rw [bareIn.eq_5 _ _ _ _ hescape, ih h.2]
    grind
  | case6 depth rest ih => exact absurd rfl (hs depth)
  | case7 depth c rest hpair ih => exact absurd rfl (hs depth)

/-- What ends a comment. -/
def commentEnd : List Char := ['*', '/']

theorem not_commentEnd_of_not_mem (h : '*' ∉ t) : ¬commentEnd <:+: t :=
  fun hsub => h (hsub.subset List.mem_cons_self)

/-- The rest of a comment, in which the end of a comment does not occur, and what follows it. -/
theorem scan_commentRest (h : ¬commentEnd <:+: t) (d : Nat) (u : List Char) :
    after (.comment d) (t ++ commentEnd ++ u) = after (.code d) u ∧
      bareIn (.comment d) (t ++ commentEnd ++ u) = bareIn (.code d) u ∧
      alternativesIn (.comment d) (t ++ commentEnd ++ u) =
        glue [t ++ commentEnd] (alternativesIn (.code d) u) := by
  induction t with
  | nil =>
    obtain ⟨q, qs, hq⟩ := List.exists_cons_of_ne_nil (alternativesIn_ne_nil (.code d) u)
    refine ⟨rfl, rfl, ?_⟩
    rw [List.nil_append, commentEnd, List.cons_append, List.singleton_append, alternativesIn, hq]
    rfl
  | cons c t ih =>
    obtain ⟨hafter, hbare, hcut⟩ := ih fun hsub => h (hsub.trans (List.suffix_cons c t).isInfix)
    have hpair : ∀ r, c = '*' → t ++ commentEnd ++ u = '/' :: r → False := by
      rintro r rfl hr
      cases t with
      | nil => cases hr
      | cons b t =>
        rw [List.cons_append, List.cons_append, List.cons.injEq] at hr
        exact h (hr.1 ▸ (List.prefix_append commentEnd t).isInfix)
    refine ⟨?_, ?_, ?_⟩
    · rw [List.cons_append, List.cons_append, after.eq_7 _ _ _ hpair, hafter]
    · rw [List.cons_append, List.cons_append, bareIn.eq_7 _ _ _ hpair, hbare]
    · rw [List.cons_append, List.cons_append, alternativesIn.eq_7 _ _ _ hpair, hcut,
        ← glue_consHead _ (List.cons_ne_nil _ _)]
      rfl

/-- A comment and what follows it. -/
theorem scan_comment (h : ¬commentEnd <:+: t) (d : Nat) (u : List Char) :
    after (.code d) ('/' :: '*' :: (t ++ commentEnd) ++ u) = after (.code d) u ∧
      bareIn (.code d) ('/' :: '*' :: (t ++ commentEnd) ++ u) = bareIn (.code d) u ∧
      alternativesIn (.code d) ('/' :: '*' :: (t ++ commentEnd) ++ u) =
        glue ['/' :: '*' :: (t ++ commentEnd)] (alternativesIn (.code d) u) := by
  obtain ⟨hafter, hbare, hcut⟩ := scan_commentRest h d u
  refine ⟨by rw [← hafter]; rfl, by rw [← hbare]; rfl, ?_⟩
  rw [List.cons_append, List.cons_append, alternativesIn, hcut,
    ← glue_consHead _ (List.cons_ne_nil _ _), ← glue_consHead _ (consHead_ne_nil _ _)]
  rfl

/-- A comment is in one piece, and nothing apart from comments. -/
theorem spans_comment (h : ¬commentEnd <:+: t) (d : Nat) :
    Spans (.code d) ('/' :: '*' :: (t ++ commentEnd)) (.code d) ∧
      bareIn (.code d) ('/' :: '*' :: (t ++ commentEnd)) = [] := by
  obtain ⟨hafter, hbare, hcut⟩ := scan_comment h d []
  rw [List.append_nil] at hafter hbare hcut
  refine ⟨⟨hafter, hcut.trans ?_⟩, hbare⟩
  simp [alternativesIn, glue]

theorem spans_singleQuoted (name : String) (d : Nat) :
    Spans (.code d) (Text.singleQuoted name).toList (.code d) := by
  have body : ∀ cs : List Char, Spans (.string '\x27' d)
      (cs.flatMap Text.escapeSingle ++ ['\x27']) (.code d) := by
    intro cs
    induction cs with
    | nil => exact ⟨rfl, rfl⟩
    | cons c cs ih =>
      rw [List.flatMap_cons, List.append_assoc, Text.escapeSingle]
      split
      · exact .cons_escape ih
      · rename_i hc
        rw [not_or] at hc
        exact .cons_string (by rw [if_neg hc.2]; exact ih) hc.1
  rw [Text.singleQuoted, String.toList_ofList]
  exact Spans.cons_code (body name.toList) (fun _ h => nomatch h) fun h => nomatch h.1

end WireTypes.Code
