import WireTypes.Code.BarCursor
import WireTypes.Proofs.Bytes
import WireTypes.Proofs.Scanning

/-!
# Alternatives by offsets

The scan by offsets is followed by the scan by characters. `Scanned` is what holds of its cursor in
every round, also while the offset is inside of a character: what is in front of it, and that the
alternatives it has, with those of the text that is left, are the alternatives of the whole text.
`Ends` says that a computation comes to its result unless it has too few rounds, and in particular
that no slice is a fault.

* `next_ends`: a round keeps `Scanned`, and moves the offset forward.
* `run_ends`: a scan comes to the alternatives if there is a round for each byte that is left and
  one more.
* `alternativesBy_lossless`: no slice of any scan is a fault, a scan with a round more than there
  are bytes finds the alternatives, and these with bars between them are the text.
-/

set_option autoImplicit false

namespace WireTypes.Code

open Text (ahead)

/-! ## Ways through a text without a cut -/

theorem glue_nil {qs : List (List Char)} (h : qs ≠ []) : glue [[]] qs = qs := by
  cases qs with
  | nil => exact absurd rfl h
  | cons q qs => rfl

theorem glue_char (c : Char) {qs : List (List Char)} (h : qs ≠ []) :
    glue [[c]] qs = Text.consHead c qs := by
  cases qs with
  | nil => exact absurd rfl h
  | cons q qs => rfl

theorem glue_append (p q : List Char) {qs : List (List Char)} (h : qs ≠ []) :
    glue [p ++ q] qs = glue [p] (glue [q] qs) := by
  cases qs with
  | nil => exact absurd rfl h
  | cons r qs => simp [glue]

/-- A character that is not below 128 means nothing to the scanner. -/
theorem isPlain_of_le {c : Char} (h : 128 ≤ c.toNat) : isPlain c := by
  have hspecial : specialChars.all (·.toNat < 128) = true := by decide
  have hmem : c ∉ specialChars := by
    intro hc
    have hlt := of_decide_eq_true (List.all_eq_true.1 hspecial c hc)
    omega
  simpa [isPlain] using hmem

theorem isQuote_ascii {quote : Char} (h : isQuote quote) : quote.toNat < 128 ∧ quote ≠ '\\' := by
  simp only [isQuote, Bool.or_eq_true, decide_eq_true_eq] at h
  rcases h with (rfl | rfl) | rfl <;> decide

/-- The scan of `t` in scope `s` comes to `u` in scope `s'` and cuts nothing on the way. -/
def Passes (s : Scope) (t : List Char) (s' : Scope) (u : List Char) : Prop :=
  ∃ passed, t = passed ++ u ∧ alternativesIn s t = glue [passed] (alternativesIn s' u)

namespace Passes

variable {s s' s'' : Scope} {t u v passed : List Char} {c quote : Char} {d : Nat}

theorem refl (s : Scope) (t : List Char) : Passes s t s t :=
  ⟨[], rfl, (glue_nil (alternativesIn_ne_nil s t)).symm⟩

/-- At the end of a text the scope does not matter. -/
theorem nil (s s' : Scope) : Passes s [] s' [] :=
  ⟨[], rfl, by rw [alternativesIn, alternativesIn]; rfl⟩

theorem trans (h : Passes s t s' u) (h' : Passes s' u s'' v) : Passes s t s'' v := by
  obtain ⟨p, rfl, hp⟩ := h
  obtain ⟨q, rfl, hq⟩ := h'
  refine ⟨p ++ q, (List.append_assoc p q v).symm, ?_⟩
  rw [hp, hq, glue_append _ _ (alternativesIn_ne_nil _ _)]

theorem one (h : alternativesIn s (c :: t) = Text.consHead c (alternativesIn s' t)) :
    Passes s (c :: t) s' t :=
  ⟨[c], rfl, by rw [h, glue_char _ (alternativesIn_ne_nil _ _)]⟩

theorem two {b : Char} (h : alternativesIn s (b :: c :: t) =
    Text.consHead b (Text.consHead c (alternativesIn s' t))) : Passes s (b :: c :: t) s' t := by
  refine ⟨[b, c], rfl, ?_⟩
  rw [h, ← glue_char c (alternativesIn_ne_nil _ _), ← glue_consHead _ (List.cons_ne_nil _ _)]
  rfl

theorem code (hpair : c = '/' → t.head? ≠ some '*') (hbar : ¬(c = '|' ∧ d = 0)) :
    Passes (.code d) (c :: t) (afterCode d c) t := by
  apply one
  rw [alternativesIn.eq_3 _ _ _ fun r hc hr => hpair hc (by rw [hr]; rfl), if_neg hbar]

theorem string (hescape : c ≠ '\\') :
    Passes (.string quote d) (c :: t) (if c = quote then .code d else .string quote d) t := by
  apply one
  rw [alternativesIn.eq_5 _ _ _ _ fun _ _ hc => absurd hc hescape]

/-- A backslash takes the next character along, if there is one, however many bytes it has. -/
theorem escape (hquote : quote ≠ '\\') :
    Passes (.string quote d) ('\\' :: t) (.string quote d) (ahead 1 t) := by
  cases t with
  | nil =>
    have hescape : ∀ b r, '\\' = '\\' → ([] : List Char) = b :: r → False :=
      fun _ _ _ hr => nomatch hr
    apply one
    rw [alternativesIn.eq_5 _ _ _ _ hescape, if_neg (Ne.symm hquote)]
  | cons c t =>
    rw [Text.ahead_inside (by omega) c.utf8Size_pos]
    apply two
    rw [alternativesIn]

/-- A comment goes to the first place where it can end, or to the end of the text. -/
theorem comment (d : Nat) (t : List Char) : Passes (.comment d) t (.code d)
    (((Text.findText? ['*', '/'] t).map fun offset => ahead (offset + 2) t).getD []) := by
  induction t with
  | nil => exact nil _ _
  | cons c t ih =>
    rw [Text.findText?]
    by_cases hend : ['*', '/'].isPrefixOf (c :: t)
    · obtain ⟨rest, hrest⟩ := List.isPrefixOf_iff_prefix.1 hend
      have hahead : ahead 2 (['*', '/'] ++ rest) = rest := Text.ahead_at (by decide)
      rw [if_pos hend, ← hrest, Option.map_some, Option.getD_some, Nat.zero_add, hahead]
      apply two
      rw [alternativesIn]
    · have hpair : ∀ r, c = '*' → t = '/' :: r → False := by
        rintro r rfl rfl
        exact hend rfl
      have hstep : Passes (.comment d) (c :: t) (.comment d) t :=
        one (alternativesIn.eq_7 _ _ _ hpair)
      rw [if_neg hend]
      cases hfind : Text.findText? ['*', '/'] t with
      | none =>
        rw [hfind] at ih
        exact hstep.trans ih
      | some offset =>
        have hahead : ahead (c.utf8Size + offset + 2) (c :: t) = ahead (offset + 2) t := by
          rw [Text.ahead_cons (by omega)]
          congr 1
          omega
        rw [hfind] at ih
        rw [Option.map_some, Option.map_some, Option.getD_some, hahead]
        exact hstep.trans ih

/-- Characters that do not change the scope, one after the other. -/
theorem many (h : ∀ c ∈ passed, ∀ t, Passes s (c :: t) s t) (t : List Char) :
    Passes s (passed ++ t) s t := by
  induction passed with
  | nil => exact refl _ _
  | cons c passed ih =>
    rw [List.forall_mem_cons] at h
    exact (h.1 _).trans (ih h.2)

theorem wide_code (h : ∀ c ∈ passed, 128 ≤ c.toNat) :
    Passes (.code d) (passed ++ t) (.code d) t := by
  refine many (fun c hc t => ?_) t
  have hwide := h c hc
  have hstep : Passes (.code d) (c :: t) (afterCode d c) t := by
    apply code
    · rintro rfl
      exact absurd hwide (by decide)
    · rintro ⟨rfl, -⟩
      exact absurd hwide (by decide)
  rwa [afterCode_plain (isPlain_of_le hwide)] at hstep

theorem wide_string (hq : isQuote quote) (h : ∀ c ∈ passed, 128 ≤ c.toNat) :
    Passes (.string quote d) (passed ++ t) (.string quote d) t := by
  refine many (fun c hc t => ?_) t
  have hwide := h c hc
  have hascii := (isQuote_ascii hq).1
  have hescape : c ≠ '\\' := by
    rintro rfl
    exact absurd hwide (by decide)
  have hquote : c ≠ quote := by
    rintro rfl
    omega
  have hstep : Passes (.string quote d) (c :: t) _ t := string hescape
  rwa [if_neg hquote] at hstep

end Passes

/-! ## Ways over a byte -/

variable {text : List Char} {b : UInt8} {quote : Char} {d i : Nat}

namespace Passes

/-- A byte of code that starts no comment and is no bar between alternatives. -/
theorem code_byte (hb : (Text.bytes text)[i]? = some b)
    (hpair : ¬(Char.ofUInt8 b = '/' ∧ (Text.bytes text)[i + 1]?.map Char.ofUInt8 = some '*'))
    (hbar : ¬(Char.ofUInt8 b = '|' ∧ d = 0)) :
    Passes (.code d) (ahead i text) (afterCode d (Char.ofUInt8 b)) (ahead (i + 1) text) := by
  rcases Text.byte_cases hb with ⟨before, rest, rfl, hi, hone⟩ | ⟨hcode, passed, hpassed, heq⟩
  · rw [Text.bytes_behind hi hone, Text.head_byte_iff (by decide)] at hpair
    rw [Text.ahead_at hi, Text.ahead_behind hi hone 0, Text.ahead_zero]
    exact code (fun hc hstar => hpair ⟨hc, hstar⟩) hbar
  · rw [afterCode_plain (isPlain_of_le hcode), heq]
    exact wide_code hpassed

/-- The byte of a bracket or a quote. -/
theorem mark_byte (hb : (Text.bytes text)[i]? = some b)
    (hmark : isOpening (Char.ofUInt8 b) ∨ isClosing (Char.ofUInt8 b) ∨ isQuote (Char.ofUInt8 b)) :
    Passes (.code d) (ahead i text) (afterCode d (Char.ofUInt8 b)) (ahead (i + 1) text) := by
  apply code_byte hb
  · rintro ⟨hslash, -⟩
    rw [hslash] at hmark
    exact absurd hmark (by decide)
  · rintro ⟨hbar, -⟩
    rw [hbar] at hmark
    exact absurd hmark (by decide)

/-- The byte of the quote that closes a string. -/
theorem quote_byte (hq : isQuote quote) (hb : (Text.bytes text)[i]? = some b)
    (hquote : Char.ofUInt8 b = quote) :
    Passes (.string quote d) (ahead i text) (.code d) (ahead (i + 1) text) := by
  have hascii := isQuote_ascii hq
  rcases Text.byte_cases hb with ⟨before, rest, rfl, hi, hone⟩ | ⟨hcode, -⟩
  · have hstep : Passes (.string quote d) (quote :: rest) _ rest := string hascii.2
    rw [Text.ahead_at hi, Text.ahead_behind hi hone 0, Text.ahead_zero, hquote]
    rwa [if_pos rfl] at hstep
  · rw [hquote] at hcode
    omega

/-- Any other byte of a string, with the byte that a backslash takes along. -/
theorem string_byte (hq : isQuote quote) (hb : (Text.bytes text)[i]? = some b)
    (hquote : Char.ofUInt8 b ≠ quote) :
    Passes (.string quote d) (ahead i text) (.string quote d)
      (ahead (if Char.ofUInt8 b = '\\' then i + 2 else i + 1) text) := by
  rcases Text.byte_cases hb with ⟨before, rest, rfl, hi, hone⟩ | ⟨hcode, passed, hpassed, heq⟩
  · rw [Text.ahead_at hi]
    by_cases hescape : Char.ofUInt8 b = '\\'
    · rw [if_pos hescape, Text.ahead_behind hi hone 1, hescape]
      exact escape (isQuote_ascii hq).2
    · have hstep : Passes (.string quote d) (Char.ofUInt8 b :: rest) _ rest := string hescape
      rw [if_neg hescape, Text.ahead_behind hi hone 0, Text.ahead_zero]
      rwa [if_neg hquote] at hstep
  · have hescape : Char.ofUInt8 b ≠ '\\' := by
      intro hescape
      rw [hescape] at hcode
      exact absurd hcode (by decide)
    rw [if_neg hescape, heq]
    exact wide_string hq hpassed

end Passes

/-! ## Results -/

/-- A result has a property, or it is missing because there were too few rounds. -/
inductive Ends {α : Type} (P : α → Prop) (short : Prop) : Except ScanFault α → Prop
  | ok {a : α} : P a → Ends P short (.ok a)
  | endless : short → Ends P short (.error .endless)

namespace Ends

variable {α β : Type} {P P' : α → Prop} {Q : β → Prop} {short short' : Prop}
  {x : Except ScanFault α} {f : α → Except ScanFault β}

theorem mono (h : Ends P short x) (hp : ∀ a, P a → P' a) (hs : short → short') :
    Ends P' short' x := by
  cases h with
  | ok ha => exact .ok (hp _ ha)
  | endless hshort => exact .endless (hs hshort)

theorem bind (h : Ends P short x) (hf : ∀ a, P a → Ends Q short (f a)) :
    Ends Q short (x >>= f) := by
  cases h with
  | ok ha => exact hf _ ha
  | endless hshort => exact .endless hshort

theorem ne_slice (h : Ends P short x) (start stop : Nat) : x ≠ .error (.slice start stop) := by
  rintro rfl
  cases h

theorem eq_ok (h : Ends P short x) (hs : ¬short) : ∃ a, x = .ok a ∧ P a := by
  cases h with
  | ok ha => exact ⟨_, rfl, ha⟩
  | endless hshort => exact absurd hshort hs

end Ends

/-- A text can be sliced between the sizes of two of its beginnings. -/
theorem sliceOf_append (before part rest : List Char) :
    sliceOf (before ++ part ++ rest) (Text.byteSize before) (Text.byteSize (before ++ part)) =
      .ok part := by
  have hslice : Text.slice? (Text.byteSize before) (Text.byteSize (before ++ part))
      (before ++ part ++ rest) = some part :=
    Text.slice?_eq_some_iff.2 ⟨before, rest, rfl, rfl, rfl⟩
  rw [sliceOf, hslice]
  rfl

/-- The loop over a string comes to its end in a round for each byte that is left and one more. -/
theorem quoteOffset_ends (hq : isQuote quote) (d rounds i : Nat) :
    Ends (fun j => i ≤ j ∧ Passes (.string quote d) (ahead i text) (.code d) (ahead (j + 1) text))
      (rounds ≤ Text.byteSize text - i) (quoteOffset text quote rounds i) := by
  induction rounds generalizing i with
  | zero => exact .endless (Nat.zero_le _)
  | succ rounds ih =>
    rw [quoteOffset]
    cases hb : (Text.bytes text)[i]? with
    | none =>
      have hnil := Text.ahead_of_getElem?_bytes hb
      refine .ok ⟨Nat.le_refl i, ?_⟩
      rw [hnil 1, show ahead i text = [] from hnil 0]
      exact .nil _ _
    | some b =>
      have hlt := Text.lt_of_getElem?_bytes hb
      dsimp only
      by_cases hquote : Char.ofUInt8 b = quote
      · rw [if_pos hquote]
        exact .ok ⟨Nat.le_refl i, .quote_byte hq hb hquote⟩
      · have hstep := Passes.string_byte (d := d) hq hb hquote
        have hmove : i < if Char.ofUInt8 b = '\\' then i + 2 else i + 1 := by split <;> omega
        rw [if_neg hquote]
        generalize (if Char.ofUInt8 b = '\\' then i + 2 else i + 1) = i' at hstep hmove
        refine (ih i').mono (fun j hj => ?_) (fun hshort => ?_)
        · exact ⟨by omega, hstep.trans hj.2⟩
        · omega

/-- The bytes of a slash and a star, one after the other, are these characters of the text. -/
theorem exists_comment (hb : (Text.bytes text)[i]? = some b)
    (hpair : Char.ofUInt8 b = '/' ∧ (Text.bytes text)[i + 1]?.map Char.ofUInt8 = some '*') :
    ∃ before body, text = before ++ ['/', '*'] ++ body ∧ Text.byteSize before = i := by
  obtain ⟨hslash, hstar⟩ := hpair
  rcases Text.byte_cases hb with ⟨before, rest, rfl, hi, hone⟩ | ⟨hcode, -⟩
  · rw [Text.bytes_behind hi hone, Text.head_byte_iff (by decide)] at hstar
    obtain ⟨body, rfl⟩ := List.head?_eq_some_iff.1 hstar
    exact ⟨before, body, by rw [hslash, List.append_assoc]; rfl, hi⟩
  · rw [hslash] at hcode
    exact absurd hcode (by decide)

theorem commentOffset_eq {body : List Char}
    (hslice : sliceOf text (i + 2) (Text.byteSize text) = .ok body) :
    commentOffset text i = .ok (((Text.findText? ['*', '/'] body).map fun offset =>
      i + 2 + offset + 1).getD (Text.byteSize text)) := by
  rw [commentOffset, hslice]
  simp only [bind, Except.bind]
  cases Text.findText? ['*', '/'] body with
  | none => rfl
  | some offset => rfl

/-- A comment is passed over. The text behind its first two characters can be sliced. -/
theorem commentOffset_passes (hb : (Text.bytes text)[i]? = some b)
    (hpair : Char.ofUInt8 b = '/' ∧ (Text.bytes text)[i + 1]?.map Char.ofUInt8 = some '*')
    (d : Nat) : ∃ j, commentOffset text i = .ok j ∧ i ≤ j ∧
      Passes (.code d) (ahead i text) (.code d) (ahead (j + 1) text) := by
  have hlt := Text.lt_of_getElem?_bytes hb
  obtain ⟨before, body, rfl, hi⟩ := exists_comment hb hpair
  have hfront : Text.byteSize (before ++ ['/', '*']) = i + 2 := by
    rw [Text.byteSize_append, hi]
    rfl
  have hslice := sliceOf_append (before ++ ['/', '*']) body []
  have hopen : Passes (.code d) ('/' :: '*' :: body) (.comment d) body :=
    .two (by rw [alternativesIn])
  have hcomment := hopen.trans (.comment d body)
  have hbefore : ahead i (before ++ ['/', '*'] ++ body) = '/' :: '*' :: body := by
    rw [List.append_assoc]
    exact Text.ahead_at hi
  rw [List.append_nil, hfront] at hslice
  rw [commentOffset_eq hslice, hbefore]
  refine ⟨_, rfl, ?_⟩
  cases hfind : Text.findText? ['*', '/'] body with
  | none =>
    rw [hfind] at hcomment
    refine ⟨Nat.le_of_lt hlt, ?_⟩
    rw [Option.map_none, Option.getD_none, Text.ahead_eq_nil (Nat.le_succ _)]
    exact hcomment
  | some offset =>
    rw [hfind] at hcomment
    have hle : i ≤ i + 2 + offset + 1 := by omega
    refine ⟨hle, ?_⟩
    rw [Option.map_some, Option.getD_some, Nat.add_assoc, Nat.add_assoc, ← hfront,
      Text.ahead_append]
    exact hcomment

/-! ## Rounds -/

/-- Where a cursor is: `before` is the text in front of its alternative, and `part` is what it has
passed of the alternative. The characters ahead are still to be scanned, as code. -/
structure Scanned (text before part : List Char) (s : BarCursor) : Prop where
  split : text = before ++ (part ++ ahead s.index text)
  start : Text.byteSize before = s.start
  parts : s.parts ++ glue [part] (alternativesIn (.code s.depth) (ahead s.index text)) =
    alternativesIn (.code 0) text

namespace Scanned

variable {before part : List Char} {s : BarCursor}

theorem init (text : List Char) :
    Scanned text [] [] { index := 0, start := 0, depth := 0, parts := [] } := by
  refine ⟨by simp, rfl, ?_⟩
  show [] ++ glue [[]] (alternativesIn (.code 0) (ahead 0 text)) = alternativesIn (.code 0) text
  rw [List.nil_append, glue_nil (alternativesIn_ne_nil _ _), Text.ahead_zero]

/-- At a bar between alternatives the passed part is the slice of the text up to there. -/
theorem cut (h : Scanned text before part s) (hb : (Text.bytes text)[s.index]? = some b)
    (hbar : Char.ofUInt8 b = '|' ∧ s.depth = 0) :
    sliceOf text s.start s.index = .ok part ∧
      Scanned text (before ++ part ++ ['|']) []
        { s with parts := s.parts ++ [part], start := s.index + 1, index := s.index + 1 } := by
  obtain ⟨hc, hdepth⟩ := hbar
  rcases Text.byte_cases hb with ⟨front, rest, htext, hfront, hone⟩ | ⟨hcode, -⟩
  · rw [hc] at htext hone
    have hahead : ahead s.index text = '|' :: rest := by rw [htext, Text.ahead_at hfront]
    have hnext : ahead (s.index + 1) text = rest := by
      rw [htext, Text.ahead_behind hfront hone 0, Text.ahead_zero]
    have hsplit := h.split
    have hparts := h.parts
    rw [hahead, ← List.append_assoc] at hsplit
    have hsame : front = before ++ part := List.append_cancel_right (htext.symm.trans hsplit)
    rw [hsame] at hfront
    refine ⟨?_, ?_, ?_, ?_⟩
    · rw [← h.start, ← hfront, hsplit]
      exact sliceOf_append before part ('|' :: rest)
    · show text = before ++ part ++ ['|'] ++ ([] ++ ahead (s.index + 1) text)
      rw [hnext, hsplit]
      simp
    · rw [Text.byteSize_append, hfront]
      rfl
    · have hpair : ∀ r, '|' = '/' → rest = '*' :: r → False := fun _ hc => absurd hc (by decide)
      have hcut : alternativesIn (.code 0) ('|' :: rest) = [] :: alternativesIn (.code 0) rest := by
        rw [alternativesIn.eq_3 _ _ _ hpair, if_pos ⟨rfl, rfl⟩]
      rw [hahead, hdepth, hcut] at hparts
      show s.parts ++ [part] ++
        glue [[]] (alternativesIn (.code s.depth) (ahead (s.index + 1) text)) = _
      rw [glue_nil (alternativesIn_ne_nil _ _), hnext, hdepth, ← hparts]
      simp [glue]
  · rw [hc] at hcode
    exact absurd hcode (by decide)

/-- At the end of the text the passed part is the slice up to there, and the last alternative. -/
theorem last (h : Scanned text before part s) (hb : (Text.bytes text)[s.index]? = none) :
    sliceOf text s.start (Text.byteSize text) = .ok part ∧
      s.parts ++ [part] = alternativesIn (.code 0) text := by
  have hnil : ahead s.index text = [] := Text.ahead_of_getElem?_bytes hb 0
  have hsplit := h.split
  have hparts := h.parts
  rw [hnil, List.append_nil] at hsplit
  rw [hnil, alternativesIn] at hparts
  constructor
  · have hslice := sliceOf_append before part []
    rwa [List.append_nil, ← hsplit, h.start] at hslice
  · rw [← hparts]
    simp [glue]

end Scanned

/-- A cursor is behind another one, and in the text as `Scanned` says. -/
def MovesFrom (text : List Char) (s s' : BarCursor) : Prop :=
  s.index < s'.index ∧ ∃ before part, Scanned text before part s'

/-- What is passed of the text is passed of the alternative. -/
theorem Scanned.moves {before part : List Char} {s : BarCursor} (h : Scanned text before part s)
    (hi : s.index < i)
    (hp : Passes (.code s.depth) (ahead s.index text) (.code d) (ahead i text)) :
    MovesFrom text s { s with index := i, depth := d } := by
  obtain ⟨passed, hsplit, hcut⟩ := hp
  refine ⟨hi, before, part ++ passed, ?_, h.start, ?_⟩
  · rw [List.append_assoc, ← hsplit]
    exact h.split
  · rw [glue_append _ _ (alternativesIn_ne_nil _ _), ← hcut]
    exact h.parts

/-- A round moves the cursor forward. -/
theorem next_ends {before part : List Char} {s : BarCursor} (h : Scanned text before part s)
    (hb : (Text.bytes text)[s.index]? = some b) (rounds : Nat) :
    Ends (MovesFrom text s) (rounds ≤ Text.byteSize text - (s.index + 1))
      (s.next text rounds b) := by
  unfold BarCursor.next
  dsimp only
  -- one case for each branch of the round, in their order; only a string can lack rounds
  by_cases hopen : isOpening (Char.ofUInt8 b)
  · have hscope : afterCode s.depth (Char.ofUInt8 b) = .code (s.depth + 1) := by
      simp [afterCode, hopen]
    rw [if_pos hopen]
    refine .ok (h.moves (Nat.lt_succ_self _) ?_)
    rw [← hscope]
    exact .mark_byte hb (.inl hopen)
  rw [if_neg hopen]
  by_cases hclose : isClosing (Char.ofUInt8 b)
  · have hscope : afterCode s.depth (Char.ofUInt8 b) = .code (s.depth - 1) := by
      simp [afterCode, hopen, hclose]
    rw [if_pos hclose]
    refine .ok (h.moves (Nat.lt_succ_self _) ?_)
    rw [← hscope]
    exact .mark_byte hb (.inr (.inl hclose))
  rw [if_neg hclose]
  by_cases hquote : isQuote (Char.ofUInt8 b)
  · have hscope : afterCode s.depth (Char.ofUInt8 b) = .string (Char.ofUInt8 b) s.depth := by
      simp [afterCode, hopen, hclose, hquote]
    have hin := Passes.mark_byte (d := s.depth) hb (.inr (.inr hquote))
    rw [hscope] at hin
    rw [if_pos hquote]
    apply (quoteOffset_ends hquote s.depth rounds (s.index + 1)).bind
    rintro j ⟨hle, hout⟩
    exact .ok (h.moves (show s.index < j + 1 by omega) (hin.trans hout))
  rw [if_neg hquote]
  by_cases hpair : Char.ofUInt8 b = '/' ∧
      (Text.bytes text)[s.index + 1]?.map Char.ofUInt8 = some '*'
  · obtain ⟨j, hj, hle, hp⟩ := commentOffset_passes hb hpair s.depth
    rw [if_pos hpair, hj]
    exact .ok (h.moves (show s.index < j + 1 by omega) hp)
  rw [if_neg hpair]
  by_cases hbar : Char.ofUInt8 b = '|' ∧ s.depth = 0
  · obtain ⟨hslice, hcut⟩ := h.cut hb hbar
    rw [if_pos hbar, hslice]
    exact .ok ⟨Nat.lt_succ_self _, _, _, hcut⟩
  · have hscope : afterCode s.depth (Char.ofUInt8 b) = .code s.depth := by
      simp [afterCode, hopen, hclose, hquote]
    have hp := Passes.code_byte hb hpair hbar
    rw [hscope] at hp
    rw [if_neg hbar]
    exact .ok (h.moves (Nat.lt_succ_self _) hp)

/-- A scan comes to the alternatives of the text in a round for each byte that is left and one
more. -/
theorem run_ends {before part : List Char} {s : BarCursor} (h : Scanned text before part s)
    (rounds : Nat) :
    Ends (· = alternativesIn (.code 0) text) (rounds ≤ Text.byteSize text - s.index)
      (BarCursor.run text rounds s) := by
  induction rounds generalizing s before part with
  | zero => exact .endless (Nat.zero_le _)
  | succ rounds ih =>
    rw [BarCursor.run]
    cases hb : (Text.bytes text)[s.index]? with
    | none =>
      obtain ⟨hslice, hparts⟩ := h.last hb
      rw [hslice]
      exact .ok hparts
    | some b =>
      have hlt := Text.lt_of_getElem?_bytes hb
      have hnext : Ends (MovesFrom text s) (rounds + 1 ≤ Text.byteSize text - s.index)
          (s.next text rounds b) :=
        (next_ends h hb rounds).mono (fun _ hs' => hs') (by omega)
      apply hnext.bind
      rintro s' ⟨hmove, before', part', h'⟩
      exact (ih h').mono (fun _ hresult => hresult) (by omega)

/-! ## Texts -/

/-- The alternatives of a text with bars between them are the text. -/
theorem intercalate_alternatives (text : String) :
    "|".intercalate ((alternatives text).map String.ofList) = text := by
  apply String.toList_inj.1
  have hparts : ((alternatives text).map String.ofList).map String.toList = alternatives text := by
    simp
  rw [String.toList_intercalate, hparts]
  exact intercalate_alternativesIn (.code 0) text.toList

/-- However many rounds a scan by offsets has, no slice that it takes begins or ends inside of a
character or beyond the end of the text. A scan with more rounds than the text has bytes comes to
its end, and finds the alternatives; with bars between them, these are the text. -/
theorem alternativesBy_lossless (text : String) :
    (∀ rounds start stop, alternativesBy rounds text ≠ .error (.slice start stop)) ∧
    (∀ rounds, Text.byteSize text.toList < rounds →
      alternativesBy rounds text = .ok (alternatives text)) ∧
    "|".intercalate ((alternatives text).map String.ofList) = text := by
  have hends (rounds : Nat) := run_ends (Scanned.init text.toList) rounds
  refine ⟨fun rounds => (hends rounds).ne_slice, fun rounds hrounds => ?_,
    intercalate_alternatives text⟩
  obtain ⟨parts, hrun, hparts⟩ := (hends rounds).eq_ok (Nat.not_le.2 hrounds)
  rw [alternativesBy, hrun, hparts, alternatives]

/-- A text with a bracket that was not opened, and a string without an end in which one backslash is
in front of a character of two bytes, and another at the end of the text. -/
def brokenText : String := "é|>|\x27\\ü|\\"

theorem brokenText_alternatives :
    let parts := [['é'], ['>'], ['\x27', '\\', 'ü', '|', '\\']]
    Text.byteSize brokenText.toList < 12 ∧ alternativesBy 12 brokenText = .ok parts ∧
      "|".intercalate (parts.map String.ofList) = brokenText := by
  intro parts
  have hrounds : Text.byteSize brokenText.toList < 12 := by decide
  have halternatives : alternatives brokenText = parts := by decide
  obtain ⟨-, hscan, hjoin⟩ := alternativesBy_lossless brokenText
  rw [halternatives] at hscan hjoin
  exact ⟨hrounds, hscan 12 hrounds, hjoin⟩

end WireTypes.Code
