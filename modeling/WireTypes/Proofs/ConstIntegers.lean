import WireTypes.Code.Constant.Value
import WireTypes.Proofs.Digits
import WireTypes.Proofs.Trimming
import WireTypes.Text.Pieces

/-!
# Integers in constant expressions

Go and strict TypeScript share most notations for integers (`goValue?`, `strictValue?`). Two are
Go's alone: a bare zero in front of octal digits, and an underscore between the letter of a base and
the digits.

* `literal_integers`: the integers of a constant expression keep their values where it is written,
  unless there is one of these notations among them. Then the integer has no value at all. A bare
  octal number is written otherwise if it is all there is.
* `minusOctal_bare`: a minus sign before it is enough to keep it as it is.
-/

set_option autoImplicit false

namespace WireTypes.Code

variable {c : Char} {cs ds t : List Char} {base n : Nat}

/-! ## Notations -/

/-- Digits in groups, with single underscores between the groups. -/
def grouped? (base : Nat) (cs : List Char) : Option Nat :=
  if (Text.splitAtEach '_' cs).all (!·.isEmpty) then Decimal.natOfDigits? base (cs.filter (· ≠ '_'))
  else none

/-- The base that a letter after a zero announces. -/
def base? : Char → Option Nat
  | 'x' | 'X' => some 16
  | 'o' | 'O' => some 8
  | 'b' | 'B' => some 2
  | _ => none

/-- A text without the underscore with which it may start. -/
def dropUnderscore : List Char → List Char
  | '_' :: cs => cs
  | cs => cs

/-- The value of an integer in Go. Digits after a zero are octal, and what stands for the base may
be followed by an underscore. -/
def goValue? : List Char → Option Nat
  | ['0'] => some 0
  | '0' :: c :: cs =>
    match base? c with
    | some base => grouped? base (dropUnderscore cs)
    | none => grouped? 8 (dropUnderscore (c :: cs))
  | cs => grouped? 10 cs

/-- The value that an integer denotes in strict TypeScript, before it is rounded to a number of the
language. Nothing but the letter of a base may follow a zero, and nothing but a digit may follow
that letter. -/
def strictValue? : List Char → Option Nat
  | ['0'] => some 0
  | '0' :: c :: cs => (base? c).bind (grouped? · cs)
  | cs => grouped? 10 cs

/-- An octal digit or an underscore. -/
def isOctalPart (c : Char) : Bool :=
  '0' ≤ c && c ≤ '7' || c = '_'

/-- A zero directly followed by an octal digit or an underscore. -/
def isBareOctal : List Char → Bool
  | '0' :: c :: _ => isOctalPart c
  | _ => false

/-- An underscore directly after the letter of a base. -/
def gapsAfterBase : List Char → Bool
  | '0' :: c :: '_' :: _ => (base? c).isSome
  | _ => false

/-- An integer of the expression `whole` that has no value where it is written. -/
def isLost (whole t : List Char) : Bool :=
  gapsAfterBase t || isBareOctal t && t != whole

/-! ## Expressions -/

/-- A character of an integer or of a name. -/
def isWordPart (c : Char) : Bool :=
  c.isAlphanum || c = '_'

/-- The integers in a text, in order: the longest words in it that start with a digit. -/
def integers (cs : List Char) : List (List Char) :=
  (cs.splitOnP (!isWordPart ·)).filter fun word => word.head?.any Char.isDigit

/-- The operators that stand in front of an operand. -/
def unaryOps : List (List Char) :=
  ["+", "-", "!", "^"].map String.toList

/-- The operators that stand between two operands. -/
def binaryOps : List (List Char) :=
  ["||", "&&", "==", "!=", "<", "<=", ">", ">=", "+", "-", "|", "^", "*", "/", "%", "<<", ">>", "&",
    "&^"].map String.toList

/-- The texts of constant expressions over integers. Which operator comes first makes no difference
to them. -/
inductive IsConstExpr : List Char → Prop
  | integer {cs : List Char} (h : (goValue? cs).isSome) : IsConstExpr cs
  | spaced {gap cs gap' : List Char} (hgap : gap ++ gap' ⊆ " \t\n\r".toList)
      (h : IsConstExpr cs) : IsConstExpr (gap ++ cs ++ gap')
  | unary {op cs : List Char} (hop : op ∈ unaryOps) (h : IsConstExpr cs) : IsConstExpr (op ++ cs)
  | binary {op cs ds : List Char} (hop : op ∈ binaryOps) (hl : IsConstExpr cs)
      (hr : IsConstExpr ds) : IsConstExpr (cs ++ op ++ ds)
  | parens {cs : List Char} (h : IsConstExpr cs) : IsConstExpr ('(' :: cs ++ [')'])

/-! ## Digits -/

theorem grouped?_underscore (base : Nat) (cs : List Char) : grouped? base ('_' :: cs) = none := by
  simp [grouped?, Text.splitAtEach]

theorem exists_digit_of_grouped? (h : (grouped? base cs).isSome) (hc : c ∈ cs) :
    c = '_' ∨ ∃ d < base, Decimal.digit? c = some d := by
  unfold grouped? at h
  split at h
  · by_cases hunderscore : c = '_'
    · exact .inl hunderscore
    · have hkept : c ∈ cs.filter (· ≠ '_') := List.mem_filter.2 ⟨hc, decide_eq_true hunderscore⟩
      exact .inr (Decimal.exists_digit_of_mem h hkept)
  · cases h

theorem isOctalPart_of_grouped? (h : (grouped? 8 cs).isSome) (hc : c ∈ cs) : isOctalPart c := by
  rcases exists_digit_of_grouped? h hc with rfl | ⟨d, hd, hdigit⟩
  · decide
  · have := Decimal.octal_of_digit? hdigit hd
    simp [isOctalPart, this]

theorem isWordPart_of_grouped? (h : (grouped? base cs).isSome) (hc : c ∈ cs) : isWordPart c := by
  rcases exists_digit_of_grouped? h hc with rfl | ⟨d, -, hdigit⟩
  · decide
  · simp [isWordPart, Decimal.isAlphanum_of_digit? hdigit]

theorem mem_dropUnderscore (h : c ∈ cs) : c = '_' ∨ c ∈ dropUnderscore cs := by
  unfold dropUnderscore
  split
  · exact List.mem_cons.1 h
  · exact .inr h

/-- Digits do not start with an underscore. -/
theorem dropUnderscore_of_grouped? (h : (grouped? base cs).isSome) : dropUnderscore cs = cs := by
  unfold dropUnderscore
  split
  · rw [grouped?_underscore] at h
    cases h
  · rfl

/-- Where digits come after at most one underscore, there are no more underscores before them. -/
theorem dropWhile_underscore (h : (grouped? base (dropUnderscore cs)).isSome) :
    cs.dropWhile (· = '_') = dropUnderscore cs := by
  have hhead : ∀ c ∈ (dropUnderscore cs).head?, decide (c = '_') = false := by
    intro c hc
    rw [decide_eq_false_iff_not]
    rintro rfl
    obtain ⟨rest, hrest⟩ := List.head?_eq_some_iff.1 hc
    rw [hrest, grouped?_underscore] at h
    cases h
  rw [← Text.dropWhile_of_head hhead]
  unfold dropUnderscore
  split
  · exact List.dropWhile_cons_of_pos (by decide)
  · rfl

theorem isWordPart_of_mem (h : (grouped? base (dropUnderscore cs)).isSome) (hc : c ∈ cs) :
    isWordPart c := by
  rcases mem_dropUnderscore hc with rfl | hc
  · decide
  · exact isWordPart_of_grouped? h hc

theorem isDigit_of_grouped? (h : (grouped? 10 (c :: cs)).isSome) : c.isDigit := by
  rcases exists_digit_of_grouped? h List.mem_cons_self with rfl | ⟨d, hd, hdigit⟩
  · rw [grouped?_underscore] at h
    cases h
  · exact Decimal.isDigit_of_digit? hdigit hd

theorem isWordPart_of_isOctalPart (h : isOctalPart c) : isWordPart c := by
  simp only [isOctalPart, Bool.or_eq_true, Bool.and_eq_true, decide_eq_true_eq] at h
  rcases h with ⟨hlow, hhigh⟩ | rfl
  · have hdigit : c.isDigit := Char.isDigit_iff_toNat.2 ⟨hlow, Nat.le_trans hhigh (by decide)⟩
    simp [isWordPart, Char.isAlphanum, hdigit]
  · decide

theorem isWordPart_of_base? (h : base? c = some base) : isWordPart c := by
  unfold base? at h
  split at h
  iterate 6 decide
  cases h

theorem base?_of_isOctalPart (h : isOctalPart c) : base? c = none := by
  unfold base?
  split
  iterate 6 exact absurd h (by decide)
  rfl

/-! ## Integers of Go -/

theorem head_of_goValue? (h : (goValue? t).isSome) : ∃ c ∈ t.head?, c.isDigit := by
  unfold goValue? at h
  split at h
  · exact ⟨'0', rfl, by decide⟩
  · exact ⟨'0', rfl, by decide⟩
  · cases t with
    | nil => cases h
    | cons c cs => exact ⟨c, rfl, isDigit_of_grouped? h⟩

theorem isWordPart_of_goValue? (h : (goValue? t).isSome) (hc : c ∈ t) : isWordPart c := by
  unfold goValue? at h
  split at h
  · rw [List.mem_singleton.1 hc]
    decide
  · rename_i b cs
    rcases List.mem_cons.1 hc with rfl | hc
    · decide
    · split at h
      · rename_i base hbase
        rcases List.mem_cons.1 hc with rfl | hc
        · exact isWordPart_of_base? hbase
        · exact isWordPart_of_mem h hc
      · exact isWordPart_of_mem h hc
  · exact isWordPart_of_grouped? h hc

/-- A notation that Go and strict TypeScript do not share has no value in the latter. -/
theorem strictValue?_eq_none (h : isBareOctal t ∨ gapsAfterBase t) : strictValue? t = none := by
  rcases h with hbare | hgap
  · unfold isBareOctal at hbare
    split at hbare
    · rename_i c cs
      rw [strictValue?, base?_of_isOctalPart hbare]
      rfl
    · cases hbare
  · unfold gapsAfterBase at hgap
    split at hgap
    · rename_i c cs
      obtain ⟨base, hbase⟩ := Option.isSome_iff_exists.1 hgap
      rw [strictValue?, hbase]
      exact grouped?_underscore base cs
    · cases hgap

theorem gapsAfterBase_of_isBareOctal (h : isBareOctal t) : gapsAfterBase t = false := by
  unfold gapsAfterBase
  split
  · rw [base?_of_isOctalPart h]
    rfl
  · rfl

theorem dropUnderscore_of_not_gap (hbase : base? c = some base)
    (h : gapsAfterBase ('0' :: c :: cs) = false) : dropUnderscore cs = cs := by
  unfold dropUnderscore
  split
  · simp [gapsAfterBase, hbase] at h
  · rfl

/-- Digits that nothing announces but a zero are octal, so that the zero is a bare one. -/
theorem isBareOctal_of_grouped? (h : (grouped? 8 (dropUnderscore (c :: cs))).isSome) :
    isBareOctal ('0' :: c :: cs) := by
  have hc : c ∈ c :: cs := List.mem_cons_self
  rcases mem_dropUnderscore hc with rfl | hc
  · rfl
  · exact isOctalPart_of_grouped? h hc

theorem strictValue?_eq (h : (goValue? t).isSome) (hbare : isBareOctal t = false)
    (hgap : gapsAfterBase t = false) : strictValue? t = goValue? t := by
  unfold goValue? at h ⊢
  split at h
  · rfl
  · rename_i c cs
    cases hbase : base? c with
    | some base =>
      simp only [strictValue?, hbase, dropUnderscore_of_not_gap hbase hgap, Option.bind_some]
    | none =>
      rw [hbase] at h
      rw [isBareOctal_of_grouped? h] at hbare
      cases hbare
  · rename_i hzero hmore
    unfold strictValue?
    split
    · exact absurd rfl hzero
    · exact absurd rfl (hmore _ _)
    · rfl

theorem modernOctal_of_isBareOctal (h : (goValue? t).isSome) (hbare : isBareOctal t) :
    ∃ digits, modernOctal t = '0' :: 'o' :: digits ∧ grouped? 8 digits = goValue? t := by
  unfold isBareOctal at hbare
  split at hbare
  · rename_i c cs
    have hvalue : goValue? ('0' :: c :: cs) = grouped? 8 (dropUnderscore (c :: cs)) := by
      rw [goValue?, base?_of_isOctalPart hbare]
    rw [hvalue] at h ⊢
    have hoctal : (c :: cs).all isOctalPart := by
      refine List.all_eq_true.2 fun d hd => ?_
      rcases mem_dropUnderscore hd with rfl | hd
      · decide
      · exact isOctalPart_of_grouped? h hd
    refine ⟨dropUnderscore (c :: cs), ?_, rfl⟩
    rw [← dropWhile_underscore h]
    exact if_pos hoctal
  · cases hbare

theorem modernOctal_of_not_isBareOctal (h : isBareOctal t = false) : modernOctal t = t := by
  unfold modernOctal
  split
  · rename_i digits
    cases digits with
    | nil => rfl
    | cons c cs =>
      have hc : isOctalPart c = false := h
      have hoctal : ¬(c :: cs).all isOctalPart := by simp [hc]
      exact if_neg hoctal
  · rfl

/-! ## Integers in texts -/

theorem integers_append (hc : isWordPart c = false) (cs ds : List Char) :
    integers (cs ++ c :: ds) = integers cs ++ integers ds := by
  rw [integers, List.splitOnP_append_cons _ _ (by simpa using hc), List.filter_append]
  rfl

theorem integers_nil : integers [] = [] := rfl

theorem integers_gap_append {gap : List Char} (h : ∀ c ∈ gap, isWordPart c = false)
    (cs : List Char) : integers (gap ++ cs) = integers cs := by
  induction gap with
  | nil => rfl
  | cons c gap ih =>
    rw [List.forall_mem_cons] at h
    have hcons := integers_append h.1 [] (gap ++ cs)
    rw [List.nil_append, integers_nil, List.nil_append] at hcons
    rw [List.cons_append, hcons, ih h.2]

/-- Characters that are no part of a word do not matter at either end. -/
theorem integers_gap {gap gap' : List Char} (h : ∀ c ∈ gap ++ gap', isWordPart c = false)
    (cs : List Char) : integers (gap ++ cs ++ gap') = integers cs := by
  rw [List.forall_mem_append] at h
  rw [List.append_assoc, integers_gap_append h.1]
  cases gap' with
  | nil => rw [List.append_nil]
  | cons c gap' =>
    rw [List.forall_mem_cons] at h
    have hgap := integers_gap_append h.2.2 []
    rw [List.append_nil, integers_nil] at hgap
    rw [integers_append h.2.1, hgap, List.append_nil]

theorem integers_goValue? (h : (goValue? t).isSome) : integers t = [t] := by
  obtain ⟨c, hc, hdigit⟩ := head_of_goValue? h
  have hword : ∀ d ∈ t, (!isWordPart d) = false := fun d hd => by
    rw [isWordPart_of_goValue? h hd]
    rfl
  rw [integers, List.splitOnP_eq_singleton hword, List.filter_cons_of_pos, List.filter_nil]
  rw [Option.mem_def.1 hc]
  exact hdigit

/-! ## Integers in expressions -/

theorem mark_of_mem_op {op : List Char} (hop : op ∈ unaryOps ++ binaryOps) (hc : c ∈ op) :
    isWordPart c = false ∧ Text.isBlank c = false := by
  have hall : (unaryOps ++ binaryOps).all (·.all fun c => !isWordPart c && !Text.isBlank c) := by
    decide
  simpa using List.all_eq_true.1 (List.all_eq_true.1 hall op hop) c hc

/-- An operator starts with a character that is neither blank nor part of a word, and goes on with
no parts of words. -/
theorem exists_cons_of_mem_op {op : List Char} (hop : op ∈ unaryOps ++ binaryOps) :
    ∃ c rest, op = c :: rest ∧ (isWordPart c = false ∧ Text.isBlank c = false) ∧
      ∀ d ∈ rest, isWordPart d = false := by
  have hall : ∀ op ∈ unaryOps ++ binaryOps, op ≠ [] := by decide
  obtain ⟨c, rest, rfl⟩ := List.exists_cons_of_ne_nil (hall op hop)
  exact ⟨c, rest, rfl, mark_of_mem_op hop List.mem_cons_self, fun d hd =>
    (mark_of_mem_op hop (List.mem_cons_of_mem c hd)).1⟩

theorem gap_of_mem (hc : c ∈ " \t\n\r".toList) : isWordPart c = false ∧ Text.isBlank c := by
  have hall : " \t\n\r".toList.all fun c => !isWordPart c && Text.isBlank c := by decide
  simpa using List.all_eq_true.1 hall c hc

/-- All integers of an expression have values in Go. -/
theorem IsConstExpr.isSome_goValue? (h : IsConstExpr cs) :
    ∀ t ∈ integers cs, (goValue? t).isSome := by
  induction h with
  | integer h =>
    rw [integers_goValue? h]
    simpa using h
  | spaced hgap _ ih =>
    rwa [integers_gap fun c hc => (gap_of_mem (hgap hc)).1]
  | unary hop _ ih =>
    rwa [integers_gap_append fun c hc => (mark_of_mem_op (List.mem_append_left _ hop) hc).1]
  | binary hop _ _ ihl ihr =>
    obtain ⟨c, op, rfl, hc, hrest⟩ := exists_cons_of_mem_op (List.mem_append_right _ hop)
    rw [List.append_assoc, List.cons_append, integers_append hc.1, integers_gap_append hrest,
      List.forall_mem_append]
    exact ⟨ihl, ihr⟩
  | @parens cs _ ih =>
    have hparens : ∀ c ∈ ['('] ++ [')'], isWordPart c = false := by
      intro c hc
      rcases List.mem_pair.1 hc with rfl | rfl <;> decide
    have hgap := integers_gap hparens cs
    rw [List.singleton_append] at hgap
    rwa [hgap]

theorem isBlank_of_isWordPart (h : isWordPart c) : Text.isBlank c = false := by
  rw [isWordPart, Bool.or_eq_true, decide_eq_true_eq] at h
  rcases h with h | rfl
  · exact Text.isBlank_of_isAlphanum h
  · decide

/-- An expression is an integer between blanks, or it has an operator or a parenthesis. -/
theorem IsConstExpr.integer_or_mark (h : IsConstExpr cs) :
    (goValue? (Text.trim cs)).isSome ∨ ∃ c ∈ cs, isWordPart c = false ∧ Text.isBlank c = false := by
  induction h with
  | integer h =>
    rw [Text.trim_eq_self fun c hc => isBlank_of_isWordPart (isWordPart_of_goValue? h hc)]
    exact .inl h
  | @spaced gap cs gap' hgap _ ih =>
    rw [Text.trim_blanks fun c hc => (gap_of_mem (hgap hc)).2]
    refine ih.imp_right ?_
    rintro ⟨c, hc, hmark⟩
    exact ⟨c, by simp [hc], hmark⟩
  | unary hop _ _ =>
    obtain ⟨c, op, rfl, hmark, -⟩ := exists_cons_of_mem_op (List.mem_append_left _ hop)
    exact .inr ⟨c, List.mem_cons_self, hmark⟩
  | binary hop _ _ _ _ =>
    obtain ⟨c, op, rfl, hmark, -⟩ := exists_cons_of_mem_op (List.mem_append_right _ hop)
    exact .inr ⟨c, by simp, hmark⟩
  | parens _ _ =>
    exact .inr ⟨'(', List.mem_cons_self, by decide⟩

theorem integers_trim (cs : List Char) : integers (Text.trim cs) = integers cs := by
  obtain ⟨before, after, hcs, hblank, -⟩ := Text.trimmed_eq_iff.1 (Text.trim_eq cs).symm
  have hgap : ∀ c ∈ before ++ after, isWordPart c = false := by
    intro c hc
    rw [← Bool.not_eq_true]
    intro hword
    have hnot := isBlank_of_isWordPart hword
    rw [hblank c hc] at hnot
    cases hnot
  conv_rhs => rw [hcs, integers_gap hgap]

/-! ## Integers as they are written -/

/-- What is no integer is no octal number, and is written as it is. -/
theorem modernOctal_of_mem (hc : c ∈ t) (hmark : isWordPart c = false) : modernOctal t = t := by
  unfold modernOctal
  split
  · rename_i digits
    refine if_neg fun hoctal => ?_
    have hdigit : isOctalPart c := by
      rcases List.mem_cons.1 hc with rfl | hc
      · rfl
      · exact List.all_eq_true.1 (Bool.and_eq_true_iff.1 hoctal).2 c hc
    rw [isWordPart_of_isOctalPart hdigit] at hmark
    cases hmark
  · rfl

/-- The integer that is a whole expression is an integer again where it is written, and none with a
bare zero. -/
theorem integers_modernOctal (h : (goValue? t).isSome) :
    integers (modernOctal t) = [modernOctal t] ∧ isBareOctal (modernOctal t) = false ∧
      strictValue? (modernOctal t) = if gapsAfterBase t then none else goValue? t := by
  cases hbare : isBareOctal t with
  | true =>
    obtain ⟨digits, hmodern, hvalue⟩ := modernOctal_of_isBareOctal h hbare
    rw [← hvalue] at h ⊢
    have hgo : goValue? ('0' :: 'o' :: digits) = grouped? 8 (dropUnderscore digits) := rfl
    rw [dropUnderscore_of_grouped? h] at hgo
    rw [hmodern]
    refine ⟨integers_goValue? (hgo ▸ h), rfl, ?_⟩
    rw [gapsAfterBase_of_isBareOctal hbare]
    rfl
  | false =>
    rw [modernOctal_of_not_isBareOctal hbare]
    refine ⟨integers_goValue? h, hbare, ?_⟩
    split
    · rename_i hgap
      exact strictValue?_eq_none (.inr hgap)
    · rename_i hgap
      exact strictValue?_eq h hbare (Bool.eq_false_iff.2 hgap)

theorem strictValue?_eq_ite {whole : List Char} (h : (goValue? t).isSome) (hpart : t ≠ whole) :
    strictValue? t = if isLost whole t then none else goValue? t := by
  have hlost : isLost whole t = (gapsAfterBase t || isBareOctal t) := by
    rw [isLost, bne_iff_ne.2 hpart, Bool.and_true]
  rw [hlost]
  split
  · rename_i hnotation
    rw [Bool.or_eq_true, or_comm] at hnotation
    exact strictValue?_eq_none hnotation
  · rename_i hnotation
    rw [Bool.or_eq_true, not_or, Bool.not_eq_true, Bool.not_eq_true] at hnotation
    exact strictValue?_eq h hnotation.2 hnotation.1

/-- An expression that is no more than an integer is written as that integer. Any other has the same
integers where it is written, and itself is not one of them. -/
theorem IsConstExpr.integers_literal {text : String} (h : IsConstExpr text.toList) :
    ((goValue? (Text.trim text.toList)).isSome ∧
      integers text.toList = [Text.trim text.toList] ∧
      integers (literal (.expr text)).toList = [modernOctal (Text.trim text.toList)]) ∨
    (integers (literal (.expr text)).toList = integers text.toList ∧
      ∀ t ∈ integers text.toList, t ≠ Text.trim text.toList) := by
  rw [literal, String.toList_ofList, ← integers_trim text.toList]
  rcases h.integer_or_mark with hinteger | ⟨c, hc, hword, hblank⟩
  · exact .inl ⟨hinteger, integers_goValue? hinteger, (integers_modernOctal hinteger).1⟩
  · have hmem := Text.mem_trim hc hblank
    refine .inr ⟨by rw [modernOctal_of_mem hmem hword], ?_⟩
    rintro t ht rfl
    rw [integers_trim] at ht
    rw [isWordPart_of_goValue? (h.isSome_goValue? _ ht) hmem] at hword
    cases hword

/-- The integers of a constant expression have values in Go. Where the expression is written, those
that are not lost have the same values, and the others none at all. The bare octal numbers stay as
they are, but for one that is the whole expression. So all integers keep their values if and only if
none of them is lost. -/
theorem literal_integers {text : String} (h : IsConstExpr text.toList) :
    (∀ t ∈ integers text.toList, (goValue? t).isSome) ∧
    (integers (literal (.expr text)).toList).map strictValue? =
      (integers text.toList).map (fun t =>
        if isLost (Text.trim text.toList) t then none else goValue? t) ∧
    (integers (literal (.expr text)).toList).filter isBareOctal =
      (integers text.toList).filter (fun t => isBareOctal t && t != Text.trim text.toList) ∧
    ((integers (literal (.expr text)).toList).map strictValue? =
        (integers text.toList).map goValue? ↔
      ∀ t ∈ integers text.toList, isLost (Text.trim text.toList) t = false) := by
  have hgo := h.isSome_goValue?
  have hvalues : (integers (literal (.expr text)).toList).map strictValue? =
      (integers text.toList).map fun t =>
        if isLost (Text.trim text.toList) t then none else goValue? t := by
    rcases h.integers_literal with ⟨hinteger, hsource, hwritten⟩ | ⟨hwritten, hpart⟩
    · rw [hwritten, hsource, List.map_singleton, List.map_singleton,
        (integers_modernOctal hinteger).2.2]
      simp [isLost]
    · rw [hwritten]
      exact List.map_congr_left fun t ht => strictValue?_eq_ite (hgo t ht) (hpart t ht)
  refine ⟨hgo, hvalues, ?_, ?_⟩
  · rcases h.integers_literal with ⟨hinteger, hsource, hwritten⟩ | ⟨hwritten, hpart⟩
    · rw [hwritten, hsource]
      simp [(integers_modernOctal hinteger).2.1]
    · rw [hwritten]
      refine List.filter_congr fun t ht => ?_
      rw [bne_iff_ne.2 (hpart t ht), Bool.and_true]
  · rw [hvalues, List.map_inj_left]
    refine forall₂_congr fun t ht => ?_
    cases isLost (Text.trim text.toList) t with
    | false => exact iff_of_true rfl rfl
    | true =>
      refine iff_of_false (fun hnone => ?_) (by decide)
      have := hgo t ht
      rw [← hnone] at this
      cases this

theorem literal_integers_minusMask : IsConstExpr "-(0644 | 0x1F)".toList ∧
    (integers (literal (.expr "-(0644 | 0x1F)")).toList).map strictValue? = [none, some 31] ∧
    (integers "-(0644 | 0x1F)".toList).map goValue? = [some 420, some 31] := by
  have hoctal : IsConstExpr "0644".toList := .integer (by decide)
  have hhex : IsConstExpr "0x1F".toList := .integer (by decide)
  have hmask : IsConstExpr ("0644".toList ++ " | ".toList ++ "0x1F".toList) :=
    @IsConstExpr.binary ['|'] _ _ (by decide) (@IsConstExpr.spaced [] _ [' '] (by decide) hoctal)
      (@IsConstExpr.spaced [' '] _ [] (by decide) hhex)
  have h : IsConstExpr "-(0644 | 0x1F)".toList :=
    @IsConstExpr.unary ['-'] _ (by decide) (.parens hmask)
  refine ⟨h, ?_, by decide +kernel⟩
  rw [(literal_integers h).2.1]
  decide +kernel

/-- In `-0755` the octal number keeps its bare zero, and so has no value in strict TypeScript. -/
theorem minusOctal_bare : IsConstExpr "-0755".toList ∧ literal (.expr "-0755") = "-0755" ∧
    integers "-0755".toList = ["0755".toList] ∧ goValue? "0755".toList = some 493 ∧
    isBareOctal "0755".toList ∧ strictValue? "0755".toList = none := by
  refine ⟨@IsConstExpr.unary ['-'] _ (by decide) (.integer ?_), ?_⟩
  · decide
  · decide +kernel

end WireTypes.Code
