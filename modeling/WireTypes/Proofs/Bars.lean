import Mathlib.Algebra.GroupWithZero.Nat
import Mathlib.Algebra.Order.BigOperators.Group.List
import WireTypes.Proofs.ExprFlags

/-!
# Bars between alternatives

A type text as its grammar has it (`TypeText`): brackets around texts, string literals, comments,
arrows, bars, and characters that mean nothing. A bar separates alternatives when no bracket is
around it (`Bar.isTop`). The scanner takes the `>` of an arrow for a closing bracket, so it counts a
bar as outside all brackets when each `n` brackets around it, from the inside out, have at least `n`
arrows between them and the bar (`Bar.exposed`). `alternatives_exposed` says that a text is cut
exactly at its exposed bars, and when these are the right ones.
-/

set_option autoImplicit false

namespace WireTypes.Code

/-! ## Type texts -/

/-- A type expression by its nesting. -/
inductive TypeText where
  | nil
  /-- A character without a meaning for nesting. -/
  | char (c : Char) (rest : TypeText)
  | bar (rest : TypeText)
  | arrow (rest : TypeText)
  | quoted (quote : Char) (body : List Char) (rest : TypeText)
  | comment (body : List Char) (rest : TypeText)
  | group (opening closing : Char) (inner rest : TypeText)
deriving Repr, DecidableEq

/-- The brackets that belong together. -/
def bracketPairs : List (Char × Char) :=
  [('(', ')'), ('[', ']'), ('\x7b', '\x7d'), ('<', '>')]

/-- What can stand between quotes: the quote itself only behind a backslash, and a backslash only
with a character behind it. -/
def isQuotable (quote : Char) : List Char → Bool
  | [] => true
  | '\\' :: _ :: rest => isQuotable quote rest
  | c :: rest => c != '\\' && c != quote && isQuotable quote rest

namespace TypeText

/-- Characters without a meaning for nesting, one after the other. -/
def word (cs : String) (rest : TypeText) : TypeText := cs.toList.foldr .char rest

/-- The characters of a text. -/
def chars : TypeText → List Char
  | nil => []
  | char c rest => c :: rest.chars
  | bar rest => '|' :: rest.chars
  | arrow rest => '=' :: '>' :: rest.chars
  | quoted quote body rest => quote :: (body ++ [quote]) ++ rest.chars
  | comment body rest => '/' :: '*' :: (body ++ commentEnd) ++ rest.chars
  | group opening closing inner rest => opening :: (inner.chars ++ closing :: rest.chars)

/-- The text as a string. -/
def text (x : TypeText) : String := .ofList x.chars

/-- A text says what its characters say: brackets match, strings and comments end where they are
said to, and no character is taken for itself that opens a comment or makes an arrow with the next
one. -/
def WellFormed : TypeText → Prop
  | nil => True
  | char c rest =>
    (isOpening c = false ∧ isClosing c = false ∧ isQuote c = false ∧ c ≠ '|') ∧
      (c = '/' → rest.chars.head? ≠ some '*') ∧ rest.WellFormed
  | bar rest | arrow rest => rest.WellFormed
  | quoted quote body rest => isQuote quote ∧ isQuotable quote body ∧ rest.WellFormed
  | comment body rest => ¬commentEnd <:+: body ∧ rest.WellFormed
  | group opening closing inner rest =>
    (opening, closing) ∈ bracketPairs ∧ (closing = '>' → inner.chars.getLast? ≠ some '=') ∧
      inner.WellFormed ∧ rest.WellFormed

instance decidableWellFormed : (x : TypeText) → Decidable x.WellFormed
  | .nil => inferInstanceAs (Decidable True)
  | .char c rest =>
    have := decidableWellFormed rest
    inferInstanceAs (Decidable ((isOpening c = false ∧ isClosing c = false ∧ isQuote c = false ∧
      c ≠ '|') ∧ (c = '/' → rest.chars.head? ≠ some '*') ∧ rest.WellFormed))
  | .bar rest => decidableWellFormed rest
  | .arrow rest => decidableWellFormed rest
  | .quoted quote body rest =>
    have := decidableWellFormed rest
    inferInstanceAs (Decidable (isQuote quote ∧ isQuotable quote body ∧ rest.WellFormed))
  | .comment body rest =>
    have := decidableWellFormed rest
    inferInstanceAs (Decidable (¬commentEnd <:+: body ∧ rest.WellFormed))
  | .group opening closing inner rest =>
    have := decidableWellFormed inner
    have := decidableWellFormed rest
    inferInstanceAs (Decidable ((opening, closing) ∈ bracketPairs ∧
      (closing = '>' → inner.chars.getLast? ≠ some '=') ∧ inner.WellFormed ∧ rest.WellFormed))

/-- The arrows of a text, inside brackets or not. -/
def arrows : TypeText → Nat
  | nil => 0
  | char _ rest | bar rest | quoted _ _ rest | comment _ rest => rest.arrows
  | arrow rest => rest.arrows + 1
  | group _ _ inner rest => inner.arrows + rest.arrows

end TypeText

/-! ## Bars -/

/-- What is around a bar. -/
structure Bar where
  /-- For each bracket around the bar, from the inside out, the arrows between it and the bracket
  before it, or the bar. -/
  gaps : List Nat
  /-- The arrows in front of all of these brackets, or of a bar without any. -/
  outside : Nat
deriving Repr, DecidableEq

namespace Bar

/-- The bar with more arrows in front of it. -/
def afterArrows (n : Nat) (b : Bar) : Bar := { b with outside := b.outside + n }

/-- The bar with a bracket around all that is in front of it. -/
def inBracket (b : Bar) : Bar := { gaps := b.gaps ++ [b.outside], outside := 0 }

/-- No bracket is around the bar. -/
def isTop (b : Bar) : Bool := b.gaps.isEmpty

/-- Each `n` brackets around the bar, counted from the inside, have `n` arrows or more between them
and the bar. -/
def exposed (b : Bar) : Bool :=
  decide (∀ n ≤ b.gaps.length, n ≤ (b.gaps.take n).sum)

/-- `exposed` for a text that starts inside brackets: there are arrows for these too. -/
def exposedFrom (depth : Nat) (b : Bar) : Bool :=
  b.exposed && decide (b.gaps.length + depth ≤ b.gaps.sum + b.outside)

end Bar

namespace TypeText

/-- The bars of a text, in order. -/
def bars : TypeText → List Bar
  | nil => []
  | char _ rest | quoted _ _ rest | comment _ rest => rest.bars
  | bar rest => ⟨[], 0⟩ :: rest.bars
  | arrow rest => rest.bars.map (·.afterArrows 1)
  | group _ _ inner rest =>
    inner.bars.map Bar.inBracket ++ rest.bars.map (·.afterArrows inner.arrows)

/-- A text cut at the bars that satisfy `p`. -/
def cutAt (p : Bar → Bool) : TypeText → List (List Char)
  | nil => [[]]
  | char c rest => Text.consHead c (rest.cutAt p)
  | bar rest => if p ⟨[], 0⟩ then [] :: rest.cutAt p else Text.consHead '|' (rest.cutAt p)
  | arrow rest =>
    Text.consHead '=' (Text.consHead '>' (rest.cutAt fun b => p (b.afterArrows 1)))
  | quoted quote body rest => glue [quote :: (body ++ [quote])] (rest.cutAt p)
  | comment body rest => glue ['/' :: '*' :: (body ++ commentEnd)] (rest.cutAt p)
  | group opening closing inner rest =>
    Text.consHead opening (glue (inner.cutAt fun b => p b.inBracket)
      (Text.consHead closing (rest.cutAt fun b => p (b.afterArrows inner.arrows))))

end TypeText

/-! ## Cuts -/

namespace TypeText

@[simp] theorem cutAt_ne_nil (p : Bar → Bool) (x : TypeText) : x.cutAt p ≠ [] := by
  have hglue : ∀ (t : List Char) (ps : List (List Char)), glue [t] ps ≠ [] := by
    intro t ps
    cases ps <;> exact List.cons_ne_nil _ _
  cases x with
  | nil => exact List.cons_ne_nil _ _
  | bar rest =>
    rw [cutAt]
    split
    · exact List.cons_ne_nil _ _
    · exact consHead_ne_nil _ _
  | quoted quote body rest => exact hglue _ _
  | comment body rest => exact hglue _ _
  | _ => exact consHead_ne_nil _ _

/-- Cuts are the same when they are made at the same bars. -/
theorem cutAt_congr {p q : Bar → Bool} {x : TypeText} (h : ∀ b ∈ x.bars, p b = q b) :
    x.cutAt p = x.cutAt q := by
  induction x generalizing p q with
  | nil => rfl
  | char c rest ih => rw [cutAt, cutAt, ih h]
  | bar rest ih =>
    obtain ⟨hbar, hrest⟩ := List.forall_mem_cons.1 h
    rw [cutAt, cutAt, hbar, ih hrest]
  | arrow rest ih => rw [cutAt, cutAt, ih fun b hb => h _ (List.mem_map_of_mem hb)]
  | quoted quote body rest ih => rw [cutAt, cutAt, ih h]
  | comment body rest ih => rw [cutAt, cutAt, ih h]
  | group opening closing inner rest ihi ihr =>
    obtain ⟨hinner, hrest⟩ := List.forall_mem_append.1 h
    rw [cutAt, cutAt, ihi fun b hb => hinner _ (List.mem_map_of_mem hb),
      ihr fun b hb => hrest _ (List.mem_map_of_mem hb)]

theorem length_consHead (c : Char) {ps : List (List Char)} (h : ps ≠ []) :
    (Text.consHead c ps).length = ps.length := by
  cases ps with
  | nil => exact absurd rfl h
  | cons p ps => rfl

/-- There is one piece more than there are bars at which the text is cut. -/
theorem length_cutAt (p : Bar → Bool) (x : TypeText) :
    (x.cutAt p).length = x.bars.countP p + 1 := by
  have hglue : ∀ (t : List Char) (ps : List (List Char)), ps ≠ [] →
      (glue [t] ps).length = ps.length := by
    intro t ps hne
    have h := length_glue (List.cons_ne_nil t []) hne
    rw [List.length_singleton] at h
    omega
  induction x generalizing p with
  | nil => rfl
  | char c rest ih => rw [cutAt, length_consHead _ (cutAt_ne_nil _ _), ih, bars]
  | bar rest ih =>
    rw [cutAt, bars, List.countP_cons]
    split
    · rw [List.length_cons, ih]
    · rw [length_consHead _ (cutAt_ne_nil _ _), ih, Nat.add_zero]
  | arrow rest ih =>
    rw [cutAt, length_consHead _ (consHead_ne_nil _ _), length_consHead _ (cutAt_ne_nil _ _), ih,
      bars, List.countP_map]
    rfl
  | quoted quote body rest ih => rw [cutAt, hglue _ _ (cutAt_ne_nil _ _), ih, bars]
  | comment body rest ih => rw [cutAt, hglue _ _ (cutAt_ne_nil _ _), ih, bars]
  | group opening closing inner rest ihi ihr =>
    have hi := ihi fun b => p b.inBracket
    have hr := ihr fun b => p (b.afterArrows inner.arrows)
    have hlength := length_glue (cutAt_ne_nil (fun b => p b.inBracket) inner)
      (consHead_ne_nil closing (rest.cutAt fun b => p (b.afterArrows inner.arrows)))
    rw [length_consHead _ (cutAt_ne_nil _ _)] at hlength
    have hne : glue (inner.cutAt fun b => p b.inBracket) (Text.consHead closing
        (rest.cutAt fun b => p (b.afterArrows inner.arrows))) ≠ [] := by
      intro hnil
      rw [hnil, List.length_nil] at hlength
      omega
    rw [cutAt, length_consHead _ hne, bars, List.countP_append, List.countP_map, List.countP_map]
    simp only [Function.comp_def]
    omega

/-- Cuts at fewer bars are the same cuts exactly when no bar is missed. -/
theorem cutAt_eq_iff {p q : Bar → Bool} {x : TypeText} (hsub : ∀ b ∈ x.bars, q b → p b) :
    x.cutAt p = x.cutAt q ↔ ∀ b ∈ x.bars, p b → q b := by
  constructor
  · intro h
    have hlength := congrArg List.length h
    rw [length_cutAt, length_cutAt, Nat.add_right_cancel_iff, List.countP_eq_length_filter,
      List.countP_eq_length_filter] at hlength
    have hfilter : x.bars.filter q = (x.bars.filter p).filter q := by
      rw [List.filter_filter]
      refine List.filter_congr fun b hb => ?_
      cases hq : q b with
      | false => rfl
      | true => exact (hsub b hb hq).symm
    rw [hfilter, eq_comm, List.length_filter_eq_length_iff] at hlength
    exact fun b hb hp => hlength b (List.mem_filter.2 ⟨hb, hp⟩)
  · intro h
    exact cutAt_congr fun b hb => Bool.eq_iff_iff.2 ⟨h b hb, hsub b hb⟩

end TypeText

/-! ## Exposed bars -/

namespace Bar

variable {b : Bar}

theorem exposed_iff : b.exposed ↔ ∀ n ≤ b.gaps.length, n ≤ (b.gaps.take n).sum := by
  rw [exposed, decide_eq_true_eq]

theorem length_le_of_exposed (h : b.exposed) : b.gaps.length ≤ b.gaps.sum := by
  have hall := exposed_iff.1 h b.gaps.length (Nat.le_refl _)
  rwa [List.take_length] at hall

theorem exposed_of_isTop (h : b.isTop) : b.exposed := by
  rw [exposed_iff, List.isEmpty_iff.1 h]
  exact fun n hn => Nat.le_trans hn (Nat.zero_le _)

/-- The innermost bracket around an exposed bar has an arrow before the bar. -/
theorem isTop_of_exposed (h : b.exposed) (hgaps : ∀ n ∈ b.gaps, n = 0) : b.isTop := by
  have hle := length_le_of_exposed h
  rw [List.sum_eq_zero hgaps, Nat.le_zero] at hle
  exact List.isEmpty_iff.2 (List.length_eq_zero_iff.1 hle)

theorem exposedFrom_iff {d : Nat} :
    b.exposedFrom d ↔ b.exposed ∧ b.gaps.length + d ≤ b.gaps.sum + b.outside := by
  rw [exposedFrom, Bool.and_eq_true, decide_eq_true_eq]

theorem exposedFrom_zero (b : Bar) : b.exposedFrom 0 = b.exposed := by
  rw [Bool.eq_iff_iff, exposedFrom_iff]
  refine and_iff_left_of_imp fun h => ?_
  have hle := length_le_of_exposed h
  omega

theorem exposedFrom_bar (d : Nat) : exposedFrom d ⟨[], 0⟩ ↔ d = 0 := by
  simp [exposedFrom, exposed]

/-- Arrows in front of a bar make up for brackets around the text. -/
theorem exposedFrom_afterArrows (d n : Nat) (b : Bar) :
    (b.afterArrows n).exposedFrom d = b.exposedFrom (d - n) := by
  rw [Bool.eq_iff_iff, exposedFrom_iff, exposedFrom_iff]
  refine and_congr_right fun h => ?_
  have hle := length_le_of_exposed (b := b) h
  simp only [afterArrows]
  omega

theorem exposed_inBracket :
    b.inBracket.exposed ↔ b.exposed ∧ b.gaps.length + 1 ≤ b.gaps.sum + b.outside := by
  have hsum : (b.gaps ++ [b.outside]).sum = b.gaps.sum + b.outside := by
    rw [List.sum_append, List.sum_singleton]
  simp only [exposed_iff, inBracket, List.length_append, List.length_singleton]
  constructor
  · intro h
    refine ⟨fun n hn => ?_, ?_⟩
    · have hall := h n (by omega)
      rwa [List.take_append_of_le_length hn] at hall
    · have hall := h (b.gaps.length + 1) (Nat.le_refl _)
      rwa [List.take_of_length_le (by rw [List.length_append]; rfl), hsum] at hall
  · rintro ⟨h, hall⟩ n hn
    rcases Nat.lt_or_ge b.gaps.length n with hlt | hge
    · rw [List.take_of_length_le (by rw [List.length_append]; exact hlt), hsum]
      omega
    · rw [List.take_append_of_le_length hge]
      exact h n hge

/-- A bracket of the text is like one around it. -/
theorem exposedFrom_inBracket (d : Nat) (b : Bar) :
    b.inBracket.exposedFrom d = b.exposedFrom (d + 1) := by
  rw [Bool.eq_iff_iff, exposedFrom_iff, exposedFrom_iff, exposed_inBracket, and_assoc]
  refine and_congr_right fun _ => ?_
  simp only [inBracket, List.length_append, List.length_singleton, List.sum_append,
    List.sum_singleton]
  omega

end Bar

/-! ## Scanning -/

variable {c : Char} {d : Nat}

/-- The scope after a character that is neither a bracket nor a quote. -/
theorem afterCode_neutral (hopen : isOpening c = false) (hclose : isClosing c = false)
    (hquote : isQuote c = false) : afterCode d c = .code d := by
  simp [afterCode, hopen, hclose, hquote]

theorem afterCode_quote (h : isQuote c) :
    afterCode d c = .string c d ∧ c ∉ ['/', '|', '\\'] := by
  simp only [isQuote, Bool.or_eq_true, decide_eq_true_eq] at h
  rcases h with (rfl | rfl) | rfl <;> exact ⟨rfl, by decide⟩

theorem afterCode_brackets {opening closing : Char} (h : (opening, closing) ∈ bracketPairs) :
    (afterCode d opening = .code (d + 1) ∧ opening ∉ ['/', '|']) ∧
      afterCode d closing = .code (d - 1) ∧ closing ∉ ['/', '|', '*'] := by
  simp only [bracketPairs, List.mem_cons, Prod.mk.injEq, List.not_mem_nil, or_false] at h
  rcases h with ⟨rfl, rfl⟩ | ⟨rfl, rfl⟩ | ⟨rfl, rfl⟩ | ⟨rfl, rfl⟩ <;>
    exact ⟨⟨rfl, by decide⟩, rfl, by decide⟩

/-- A character of code that opens no comment and separates nothing. -/
theorem scan_cons {t : List Char} (hpair : c = '/' → t.head? ≠ some '*')
    (hbar : ¬(c = '|' ∧ d = 0)) :
    after (.code d) (c :: t) = after (afterCode d c) t ∧
      alternativesIn (.code d) (c :: t) = Text.consHead c (alternativesIn (afterCode d c) t) := by
  have hcomment : ∀ r, c = '/' → t = '*' :: r → False := fun r hc ht => hpair hc (by rw [ht]; rfl)
  exact ⟨after.eq_3 _ _ _ hcomment, by rw [alternativesIn.eq_3 _ _ _ hcomment, if_neg hbar]⟩

/-- `scan_cons` for a character that is neither a slash nor a bar. -/
theorem scan_cons_of_not_mem {t : List Char} (h : c ∉ ['/', '|']) :
    after (.code d) (c :: t) = after (afterCode d c) t ∧
      alternativesIn (.code d) (c :: t) = Text.consHead c (alternativesIn (afterCode d c) t) := by
  rw [List.mem_pair, not_or] at h
  exact scan_cons (fun hc => absurd hc h.1) fun hc => h.2 hc.1

/-- What stands between quotes, with the closing one. -/
theorem spans_quotable {quote : Char} {body : List Char} (hne : quote ≠ '\\')
    (h : isQuotable quote body) : Spans (.string quote d) (body ++ [quote]) (.code d) := by
  fun_induction isQuotable quote body with
  | case1 => exact .cons_string (by rw [if_pos rfl]; exact .nil _) hne
  | case2 c rest ih => exact .cons_escape (ih h)
  | case3 c rest _ ih =>
    simp only [Bool.and_eq_true, bne_iff_ne] at h
    exact .cons_string (by rw [if_neg h.1.2]; exact ih h.2) h.1.1

/-- A string literal is in one piece. -/
theorem spans_quoted {quote : Char} {body : List Char} (hquote : isQuote quote)
    (h : isQuotable quote body) (d : Nat) :
    Spans (.code d) (quote :: (body ++ [quote])) (.code d) := by
  obtain ⟨hafter, hne⟩ := afterCode_quote (d := d) hquote
  simp only [List.mem_cons, not_or] at hne
  have hbody := spans_quotable (d := d) hne.2.2.1 h
  refine .cons_code ?_ (fun _ hc => absurd hc hne.1) fun hc => hne.2.1 hc.1
  rw [hafter]
  exact hbody

theorem meet_concat {t u : List Char} (h : c ≠ '/') : Meet (t ++ [c]) u := by
  intro hlast
  rw [List.getLast?_concat, Option.some.injEq] at hlast
  exact absurd hlast h

namespace TypeText

variable {x : TypeText}

/-- A piece of text in front of another text. -/
theorem scan_piece {t u : List Char} (hspans : Spans (.code d) t (.code d)) (hmeet : Meet t u) :
    after (.code d) (t ++ u) = after (.code d) u ∧
      alternativesIn (.code d) (t ++ u) = glue [t] (alternativesIn (.code d) u) := by
  obtain ⟨hafter, -, hcut⟩ := scan_append (s := .code d) trivial hspans.after hmeet
  exact ⟨hafter, by rw [hcut, hspans.whole]⟩

/-- A text from inside brackets: every arrow takes one of them away, and a bar is a cut when none
is left around it. -/
theorem scan_chars (h : x.WellFormed) (d : Nat) :
    after (.code d) x.chars = .code (d - x.arrows) ∧
      alternativesIn (.code d) x.chars = x.cutAt (Bar.exposedFrom d) := by
  induction x generalizing d with
  | nil => exact ⟨rfl, rfl⟩
  | char c rest ih =>
    obtain ⟨⟨hopen, hclose, hquote, hbar⟩, hpair, hrest⟩ := h
    obtain ⟨hafter, hcut⟩ := scan_cons (d := d) hpair fun hc => hbar hc.1
    obtain ⟨iha, ihc⟩ := ih hrest d
    rw [afterCode_neutral hopen hclose hquote] at hafter hcut
    exact ⟨hafter.trans iha, hcut.trans (congrArg _ ihc)⟩
  | bar rest ih =>
    obtain ⟨iha, ihc⟩ := ih h d
    have hcomment : ∀ r, '|' = '/' → rest.chars = '*' :: r → False := fun _ hc => nomatch hc
    refine ⟨(after.eq_3 _ _ _ hcomment).trans iha, ?_⟩
    rw [chars, alternativesIn.eq_3 _ _ _ hcomment, cutAt]
    by_cases hd : d = 0
    · subst hd
      rw [if_pos ⟨rfl, rfl⟩, if_pos ((Bar.exposedFrom_bar 0).2 rfl), ihc]
    · rw [if_neg fun hc => hd hc.2, if_neg fun hc => hd ((Bar.exposedFrom_bar d).1 hc)]
      exact congrArg _ ihc
  | arrow rest ih =>
    obtain ⟨iha, ihc⟩ := ih h (d - 1)
    obtain ⟨ha, hc⟩ := scan_cons_of_not_mem (c := '=') (d := d) (t := '>' :: rest.chars) (by decide)
    obtain ⟨ha', hc'⟩ := scan_cons_of_not_mem (c := '>') (d := d) (t := rest.chars) (by decide)
    have hp : (fun b : Bar => (b.afterArrows 1).exposedFrom d) = Bar.exposedFrom (d - 1) :=
      funext (Bar.exposedFrom_afterArrows d 1)
    refine ⟨?_, ?_⟩
    · rw [chars, ha, arrows, Nat.add_comm, ← Nat.sub_sub]
      exact ha'.trans iha
    · rw [chars, hc, cutAt, hp, ← ihc]
      exact congrArg _ hc'
  | quoted quote body rest ih =>
    obtain ⟨hquote, hbody, hrest⟩ := h
    obtain ⟨iha, ihc⟩ := ih hrest d
    have hslash : quote ≠ '/' := by
      rintro rfl
      exact absurd hquote (by decide)
    obtain ⟨ha, hc⟩ := scan_piece (spans_quoted hquote hbody d)
      (meet_concat (t := quote :: body) (u := rest.chars) hslash)
    exact ⟨ha.trans iha, hc.trans (congrArg _ ihc)⟩
  | comment body rest ih =>
    obtain ⟨hbody, hrest⟩ := h
    obtain ⟨iha, ihc⟩ := ih hrest d
    obtain ⟨ha, -, hc⟩ := scan_comment hbody d rest.chars
    exact ⟨ha.trans iha, hc.trans (congrArg _ ihc)⟩
  | group opening closing inner rest ihi ihr =>
    obtain ⟨hpair, -, hinner, hrest⟩ := h
    obtain ⟨⟨hopen, hne⟩, -⟩ := afterCode_brackets (d := d) hpair
    obtain ⟨-, hclose, hne'⟩ := afterCode_brackets (d := d + 1 - inner.arrows) hpair
    rw [List.mem_cons, List.mem_pair, not_or, not_or] at hne'
    have hdepth : d + 1 - inner.arrows - 1 = d - inner.arrows := by omega
    obtain ⟨iha, ihc⟩ := ihi hinner (d + 1)
    obtain ⟨iha', ihc'⟩ := ihr hrest (d - inner.arrows)
    -- the opening bracket, the text inside, the closing bracket, the rest
    obtain ⟨ha₁, hc₁⟩ :=
      scan_cons_of_not_mem (d := d) (t := inner.chars ++ closing :: rest.chars) hne
    have hmeet : Meet inner.chars (closing :: rest.chars) := fun _ hstar =>
      hne'.2.2 (Option.some.inj hstar)
    obtain ⟨ha₂, -, hc₂⟩ := scan_append (s := .code (d + 1)) trivial iha hmeet
    obtain ⟨ha₃, hc₃⟩ := scan_cons (c := closing) (d := d + 1 - inner.arrows) (t := rest.chars)
      (fun hc => absurd hc hne'.1) fun hc => hne'.2.1 hc.1
    rw [hopen] at ha₁ hc₁
    rw [hclose, hdepth] at ha₃ hc₃
    have hp : (fun b : Bar => b.inBracket.exposedFrom d) = Bar.exposedFrom (d + 1) :=
      funext (Bar.exposedFrom_inBracket d)
    have hp' : (fun b : Bar => (b.afterArrows inner.arrows).exposedFrom d) =
        Bar.exposedFrom (d - inner.arrows) := funext (Bar.exposedFrom_afterArrows d inner.arrows)
    refine ⟨?_, ?_⟩
    · rw [chars, ha₁, ha₂, ha₃, iha', arrows, Nat.sub_sub]
    · rw [chars, hc₁, hc₂, hc₃, ihc, ihc', cutAt, hp, hp']

theorem alternatives_text (h : x.WellFormed) : alternatives x.text = x.cutAt Bar.exposed := by
  rw [alternatives, text, String.toList_ofList, (scan_chars h 0).2]
  exact congrArg (x.cutAt ·) (funext Bar.exposedFrom_zero)

theorem gaps_eq_zero (h : x.arrows = 0) :
    ∀ b ∈ x.bars, b.outside = 0 ∧ ∀ n ∈ b.gaps, n = 0 := by
  induction x with
  | nil => exact fun _ hb => nomatch hb
  | char c rest ih => exact ih h
  | bar rest ih => exact List.forall_mem_cons.2 ⟨⟨rfl, fun _ hn => nomatch hn⟩, ih h⟩
  | arrow rest ih => cases h
  | quoted quote body rest ih => exact ih h
  | comment body rest ih => exact ih h
  | group opening closing inner rest ihi ihr =>
    obtain ⟨hinner, hrest⟩ := Nat.add_eq_zero_iff.1 h
    rw [bars, List.forall_mem_append, List.forall_mem_map, List.forall_mem_map]
    refine ⟨fun b hb => ⟨rfl, ?_⟩, fun b hb => ?_⟩
    · obtain ⟨houtside, hgaps⟩ := ihi hinner b hb
      simp only [Bar.inBracket, List.forall_mem_append, List.forall_mem_singleton]
      exact ⟨hgaps, houtside⟩
    · obtain ⟨houtside, hgaps⟩ := ihr hrest b hb
      exact ⟨by rw [Bar.afterArrows, houtside, hinner], hgaps⟩

/-- There is a cut exactly if there is a bar at which the text is cut. -/
theorem one_lt_length_cutAt {p : Bar → Bool} : 1 < (x.cutAt p).length ↔ ∃ b ∈ x.bars, p b := by
  rw [length_cutAt, Nat.lt_add_left_iff_pos, List.countP_pos_iff]

end TypeText

/-- A type text is cut exactly at its exposed bars. These are the bars outside all brackets exactly
when no other bar is exposed, as in texts without arrows; the flags of the expression are then those
that the bars outside all brackets give. -/
theorem alternatives_exposed {x : TypeText} (h : x.WellFormed) :
    alternatives x.text = x.cutAt Bar.exposed ∧
      (alternatives x.text = x.cutAt Bar.isTop ↔ ∀ b ∈ x.bars, b.exposed → b.isTop) ∧
      (x.arrows = 0 → alternatives x.text = x.cutAt Bar.isTop) ∧
      ((Expr.ofText x.text).kind = .union ↔ ∃ b ∈ x.bars, b.exposed) ∧
      ((Expr.ofText x.text).nullable ↔
        ∃ p ∈ x.cutAt Bar.exposed, Text.trim p = "null".toList) ∧
      (alternatives x.text = x.cutAt Bar.isTop →
        ((Expr.ofText x.text).kind = .union ↔ ∃ b ∈ x.bars, b.isTop) ∧
        ((Expr.ofText x.text).nullable ↔
          ∃ p ∈ x.cutAt Bar.isTop, Text.trim p = "null".toList)) := by
  have hcut := TypeText.alternatives_text h
  have hiff : alternatives x.text = x.cutAt Bar.isTop ↔ ∀ b ∈ x.bars, b.exposed → b.isTop := by
    rw [hcut]
    exact TypeText.cutAt_eq_iff fun b _ => Bar.exposed_of_isTop
  have hkind := kind_ofText_iff x.text
  have hnullable := nullable_ofText_iff x.text
  refine ⟨hcut, hiff, fun harrows => ?_, ?_, ?_, fun htop => ⟨?_, ?_⟩⟩
  · exact hiff.2 fun b hb hb' =>
      Bar.isTop_of_exposed hb' (TypeText.gaps_eq_zero harrows b hb).2
  · rw [hkind, hcut, TypeText.one_lt_length_cutAt]
  · rw [hnullable, hcut]
  · rw [hkind, htop, TypeText.one_lt_length_cutAt]
  · rw [hnullable, htop]

/-- A function type with a union inside brackets and one outside. -/
def optionalHandler : TypeText :=
  .group '(' ')' (.word "a: A " (.bar (.word " B" .nil)))
    (.word " " (.arrow (.word " void " (.bar (.word " null" .nil)))))

theorem optionalHandler_alternatives :
    optionalHandler.WellFormed ∧ optionalHandler.text = "(a: A | B) => void | null" ∧
      alternatives optionalHandler.text = ["(a: A | B) => void ".toList, " null".toList] ∧
      (Expr.ofText optionalHandler.text).kind = .union ∧
      (Expr.ofText optionalHandler.text).nullable = true := by
  have hw : optionalHandler.WellFormed := by decide
  obtain ⟨-, hiff, -, -, -, hflags⟩ := alternatives_exposed hw
  have htop := hiff.2 (by decide)
  exact ⟨hw, by decide +kernel, htop.trans (by decide), (hflags htop).1.2 (by decide),
    (hflags htop).2.2 (by decide)⟩

/-- A type with a function for its argument. -/
def listOfHandlers : TypeText :=
  .word "Array" (.group '<' '>' (.group '(' ')' .nil
    (.word " " (.arrow (.word " B " (.bar (.word " null " (.bar (.word " C" .nil)))))))) .nil)

/-- The arrow makes the scanner forget the bracket in front of it: bars inside are taken for bars
between alternatives, and one of these is `null`. -/
theorem listOfHandlers_cut :
    listOfHandlers.WellFormed ∧ listOfHandlers.text = "Array<() => B | null | C>" ∧
      (∀ b ∈ listOfHandlers.bars, ¬b.isTop) ∧
      alternatives listOfHandlers.text = ["Array<() => B ".toList, " null ".toList, " C>".toList] ∧
      (Expr.ofText listOfHandlers.text).kind = .union ∧
      (Expr.ofText listOfHandlers.text).nullable = true := by
  decide +kernel

end WireTypes.Code
