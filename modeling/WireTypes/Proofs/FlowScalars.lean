import WireTypes.Document.Yaml.Scalar
import WireTypes.Proofs.Digits

/-!
# Scalars in flow style

A way to write every text as a scalar that is read as that text: between double quotes, with every
character that is no letter or digit of ASCII escaped by its code (`quoted?_escaped`). A word of
such letters and digits is also read without quotes (`plain?_word`).
-/

set_option autoImplicit false

namespace WireTypes.Document.Yaml

/-! ## Letters and digits -/

/-- A letter or digit of ASCII is none of the other characters. -/
theorem ne_of_isAlphanum {c d : Char} (hc : c.isAlphanum) (hd : d.isAlphanum = false) : c ≠ d := by
  rintro rfl
  rw [hc] at hd
  cases hd

theorem isSpace_of_isAlphanum {c : Char} (hc : c.isAlphanum) : isSpace c = false := by
  have hblank : c ≠ ' ' := ne_of_isAlphanum hc (by decide)
  have htab : c ≠ '\t' := ne_of_isAlphanum hc (by decide)
  simp [isSpace, hblank, htab]

theorem isBreak_of_isAlphanum {c : Char} (hc : c.isAlphanum) : isBreak c = false := by
  have hfeed : c ≠ '\n' := ne_of_isAlphanum hc (by decide)
  have hline : c ≠ '\u2028' := ne_of_isAlphanum hc (by decide)
  have hparagraph : c ≠ '\u2029' := ne_of_isAlphanum hc (by decide)
  simp [isBreak, hfeed, hline, hparagraph]

theorem isAlphanum_of_mem_hexDigits {k n : Nat} {c : Char} (h : c ∈ Decimal.hexDigits k n) :
    c.isAlphanum := by
  have hdigit : ∀ d < 16, (Nat.digitChar d).isAlphanum := by decide
  induction k generalizing n with
  | zero => cases h
  | succ k ih =>
    rcases List.mem_append.1 h with h | h
    · exact ih h
    · rw [List.mem_singleton.1 h]
      exact hdigit _ (Nat.mod_lt n (by decide))

/-! ## Quoted scalars -/

/-- A character between double quotes. -/
def escape (c : Char) : List Char :=
  if c.isAlphanum then [c] else '\\' :: 'U' :: Decimal.hexDigits 8 c.toNat

theorem escaped?_escape (c : Char) (rest : List Char) :
    escaped? ('U' :: Decimal.hexDigits 8 c.toNat ++ rest) = some (c, 9) := by
  have hsmall : c.toNat < Nat.pow 16 8 := by
    have hvalid := c.valid
    unfold UInt32.isValidChar Nat.isValidChar at hvalid
    show c.val.toNat < 4294967296
    omega
  have hcode := Decimal.natOfDigits?_hexDigits (by decide) hsmall
  have hchar : charOfCode? c.toNat = some c := by
    have hvalid : c.toNat.isValidChar := c.valid
    rw [charOfCode?, if_pos hvalid, Char.ofNat_toNat]
  have htake : (Decimal.hexDigits 8 c.toNat ++ rest).take 8 = Decimal.hexDigits 8 c.toNat := by
    rw [List.take_left' (Decimal.length_hexDigits 8 _)]
  simp [escaped?, escapeDigits?, htake, hcode, hchar]

/-- A stretch of escaped characters goes up to the closing quote. -/
theorem stretch?_escaped (cs rest : List Char) {steps : Nat} (h : cs.length < steps) :
    stretch? true steps (cs.flatMap escape ++ '\x22' :: rest) = some (cs, .closed, rest) := by
  induction cs generalizing steps with
  | nil =>
    obtain ⟨steps, rfl⟩ : ∃ n, steps = n + 1 := ⟨steps - 1, by omega⟩
    rfl
  | cons c cs ih =>
    rw [List.length_cons] at h
    obtain ⟨steps, rfl⟩ : ∃ n, steps = n + 1 := ⟨steps - 1, by omega⟩
    have hrest : stretch? true steps (cs.flatMap escape ++ '\x22' :: rest) =
        some (cs, .closed, rest) := ih (by omega)
    rw [List.flatMap_cons, List.append_assoc]
    by_cases hc : c.isAlphanum
    · have hquote : c ≠ '\x22' := ne_of_isAlphanum hc (by decide)
      have hslash : c ≠ '\\' := ne_of_isAlphanum hc (by decide)
      simp [escape, hc, stretch?, isSpace_of_isAlphanum hc, isBreak_of_isAlphanum hc, hquote,
        hslash, hrest]
    · have hescaped := escaped?_escape c (cs.flatMap escape ++ '\x22' :: rest)
      have hdrop : ('U' :: Decimal.hexDigits 8 c.toNat ++
          (cs.flatMap escape ++ '\x22' :: rest)).drop 9 = cs.flatMap escape ++ '\x22' :: rest := by
        rw [List.drop_left' (by simp)]
      have hspace : (isSpace '\\' || isBreak '\\') = false := by decide
      have hbreak : isBreak 'U' = false := by decide
      simp only [escape, hc, Bool.false_eq_true, ↓reduceIte, List.cons_append] at hescaped hdrop ⊢
      simp [stretch?, hspace, hbreak, hescaped, hdrop, hrest]

theorem length_le_escaped (cs : List Char) : cs.length ≤ (cs.flatMap escape).length := by
  induction cs with
  | nil => exact Nat.le_refl _
  | cons c cs ih =>
    have hc : 1 ≤ (escape c).length := by
      unfold escape
      split <;> simp
    rw [List.flatMap_cons, List.length_append, List.length_cons]
    omega

/-- What is written between double quotes is read again. -/
theorem quoted?_escaped (cs rest : List Char) :
    quoted? true (cs.flatMap escape ++ '\x22' :: rest) = some ⟨cs, rest, false⟩ := by
  have hlength : cs.length < (cs.flatMap escape ++ '\x22' :: rest).length + 1 := by
    have hle := length_le_escaped cs
    rw [List.length_append]
    omega
  have hstretch := stretch?_escaped cs rest hlength
  have hnonempty : (cs.flatMap escape ++ '\x22' :: rest).isEmpty = false := by simp
  unfold quoted?
  rw [quotedAfter?, hstretch, hnonempty]
  rfl

/-! ## Plain scalars -/

/-- A text of letters and digits of ASCII, one at least. -/
structure IsWord (cs : List Char) : Prop where
  ne_nil : cs ≠ []
  alphanum : ∀ c ∈ cs, c.isAlphanum

/-- The text goes on with a mark that ends a plain scalar inside brackets. -/
def AtFlowMark (rest : List Char) : Prop :=
  ∃ mark more, rest = mark :: more ∧ isFlowMark mark

/-- A mark starts neither a word nor a gap. -/
theorem AtFlowMark.ends {rest : List Char} (h : AtFlowMark rest) :
    plainWord? true rest = some ([], rest) ∧ Gap.scan {} rest = ({}, rest) := by
  obtain ⟨mark, more, rfl, hmark⟩ := h
  have hcases : mark = ',' ∨ mark = '[' ∨ mark = ']' ∨ mark = '\x7b' ∨ mark = '\x7d' := by
    simpa [isFlowMark, or_assoc] using hmark
  rcases hcases with rfl | rfl | rfl | rfl | rfl <;> exact ⟨rfl, rfl⟩

theorem plainWord?_word {cs rest : List Char} (h : ∀ c ∈ cs, c.isAlphanum)
    (hrest : AtFlowMark rest) : plainWord? true (cs ++ rest) = some (cs, rest) := by
  induction cs with
  | nil => exact hrest.ends.1
  | cons c cs ih =>
    have hc := h c List.mem_cons_self
    have hcolon : c ≠ ':' := ne_of_isAlphanum hc (by decide)
    have hmark : isFlowMark c = false := by
      have hcomma : c ≠ ',' := ne_of_isAlphanum hc (by decide)
      have hopen : c ≠ '[' := ne_of_isAlphanum hc (by decide)
      have hclose : c ≠ ']' := ne_of_isAlphanum hc (by decide)
      have hopen' : c ≠ '\x7b' := ne_of_isAlphanum hc (by decide)
      have hclose' : c ≠ '\x7d' := ne_of_isAlphanum hc (by decide)
      simp [isFlowMark, hcomma, hopen, hclose, hopen', hclose']
    rw [List.cons_append, plainWord?, ih fun d hd => h d (List.mem_cons_of_mem _ hd)]
    simp [isSpace_of_isAlphanum hc, isBreak_of_isAlphanum hc, hcolon, hmark]

/-- A word inside brackets is read again. -/
theorem plain?_word {cs rest : List Char} (h : IsWord cs) (hrest : AtFlowMark rest) (indent : Nat) :
    plain? true indent (cs ++ rest) = some ⟨cs, rest, false⟩ := by
  have hword := plainWord?_word h.alphanum hrest
  have hgap := hrest.ends.2
  obtain ⟨c, more, rfl⟩ := List.exists_cons_of_ne_nil h.ne_nil
  have hcomment : c ≠ '#' := ne_of_isAlphanum (h.alphanum c List.mem_cons_self) (by decide)
  rw [List.cons_append] at hword
  unfold plain?
  rw [plainAfter?]
  simp [hcomment, hword, hgap, Gap.text]

end WireTypes.Document.Yaml
