import WireTypes.Document.Plain
import WireTypes.Text.CharClass

/-!
# Whole numbers as digits

What `natOfDigits?` reads, digit by digit: a digit at the end is the number's last
(`natOfDigits?_concat`). So the digits of a number are read as that number, the decimal ones
(`natOfDigits?_toDigits`, and `Plain.nat?_toDigits` for a whole scalar) as well as a fixed count of
hexadecimal ones (`natOfDigits?_hexDigits`).
-/

set_option autoImplicit false

namespace WireTypes.Decimal

theorem digit?_digitChar {d : Nat} (h : d < 16) : digit? d.digitChar = some d := by
  have hall : ∀ d < 16, digit? (Nat.digitChar d) = some d := by decide
  exact hall d h

/-- Decimal digits come first, and then small or capital letters. -/
theorem digit?_cases {c : Char} {d : Nat} (h : digit? c = some d) :
    (c.isDigit ∧ d = c.toNat - 48) ∨ (c.isAlpha ∧ 10 ≤ d) := by
  unfold digit? at h
  split at h
  · rename_i hdigit
    cases h
    exact .inl ⟨hdigit, rfl⟩
  · split at h
    · rename_i hsmall
      have hlow : 97 ≤ c.toNat := hsmall.1
      have hlower : c.isLower := Text.isLower_iff.2 ⟨hlow, Nat.le_trans hsmall.2 (by decide)⟩
      cases h
      exact .inr ⟨Text.isAlpha_iff.2 (.inr hlower), by omega⟩
    · split at h
      · rename_i hcapital
        have hlow : 65 ≤ c.toNat := hcapital.1
        have hupper : c.isUpper := Text.isUpper_iff.2 ⟨hlow, Nat.le_trans hcapital.2 (by decide)⟩
        cases h
        exact .inr ⟨Text.isAlpha_iff.2 (.inl hupper), by omega⟩
      · cases h

theorem isAlphanum_of_digit? {c : Char} {d : Nat} (h : digit? c = some d) : c.isAlphanum := by
  rcases digit?_cases h with ⟨hdigit, -⟩ | ⟨halpha, -⟩
  · exact Text.isAlphanum_iff.2 (.inr hdigit)
  · exact Text.isAlphanum_iff.2 (.inl halpha)

theorem isDigit_of_digit? {c : Char} {d : Nat} (h : digit? c = some d) (hd : d < 10) :
    c.isDigit := by
  rcases digit?_cases h with ⟨hdigit, -⟩ | ⟨-, hten⟩
  · exact hdigit
  · omega

theorem octal_of_digit? {c : Char} {d : Nat} (h : digit? c = some d) (hd : d < 8) :
    '0' ≤ c ∧ c ≤ '7' := by
  rcases digit?_cases h with ⟨hdigit, rfl⟩ | ⟨-, hten⟩
  · have hlow : '0'.toNat ≤ c.toNat := (Char.isDigit_iff_toNat.1 hdigit).1
    have hhigh : c.toNat ≤ 55 := by omega
    exact ⟨hlow, hhigh⟩
  · omega

/-- What is read as a number has digits only. -/
theorem exists_digit_of_mem {base : Nat} {c : Char} {cs : List Char}
    (h : (natOfDigits? base cs).isSome) (hc : c ∈ cs) : ∃ d < base, digit? c = some d := by
  have hmapM : ∀ digits, cs.mapM digit? = some digits → ∃ d ∈ digits, digit? c = some d := by
    clear h
    induction cs with
    | nil => cases hc
    | cons b cs ih =>
      intro digits hdigits
      rw [List.mapM_cons] at hdigits
      obtain ⟨d, hd, hdigits⟩ := Option.bind_eq_some_iff.1 hdigits
      obtain ⟨more, hmore, hdigits⟩ := Option.bind_eq_some_iff.1 hdigits
      cases hdigits
      rcases List.mem_cons.1 hc with rfl | hc
      · exact ⟨d, List.mem_cons_self, hd⟩
      · obtain ⟨d', hd', hdigit⟩ := ih hc more hmore
        exact ⟨d', List.mem_cons_of_mem _ hd', hdigit⟩
  obtain ⟨n, hn⟩ := Option.isSome_iff_exists.1 h
  unfold natOfDigits? at hn
  split at hn
  · cases hn
  · obtain ⟨digits, hdigits, hn⟩ := Option.bind_eq_some_iff.1 hn
    obtain ⟨hall, -⟩ := Option.ite_none_right_eq_some.1 hn
    obtain ⟨d, hd, hdigit⟩ := hmapM digits hdigits
    exact ⟨d, by simpa using List.all_eq_true.1 hall d hd, hdigit⟩

/-! ## Reading at the end -/

theorem natOfDigits?_digit {base d : Nat} (hd : d < base) (hbase : base ≤ 16) :
    natOfDigits? base [d.digitChar] = some d := by
  have hdigit := digit?_digitChar (Nat.lt_of_lt_of_le hd hbase)
  simp [natOfDigits?, hdigit, hd, digitsValue]

theorem natOfDigits?_concat {base d n : Nat} {cs : List Char} (hd : d < base) (hbase : base ≤ 16)
    (h : natOfDigits? base cs = some n) :
    natOfDigits? base (cs ++ [d.digitChar]) = some (n * base + d) := by
  have hdigit := digit?_digitChar (Nat.lt_of_lt_of_le hd hbase)
  unfold natOfDigits? at h ⊢
  split at h
  · cases h
  · obtain ⟨digits, hdigits, h⟩ := Option.bind_eq_some_iff.1 h
    obtain ⟨hall, hvalue⟩ := Option.ite_none_right_eq_some.1 h
    simp only [Option.some.injEq] at hvalue
    have hfits : ∀ d' ∈ digits, d' < base := by simpa using hall
    have hnew : digitsValue base (digits ++ [d]) = n * base + d := by
      rw [← hvalue, digitsValue, List.foldl_append]
      rfl
    simpa [List.mapM_append, hdigits, hdigit, hd, hnew] using hfits

/-! ## Digits of a number -/

theorem natOfDigits?_toDigits {base : Nat} (h : 1 < base) (hbase : base ≤ 16) (n : Nat) :
    natOfDigits? base (Nat.toDigits base n) = some n := by
  induction n using Nat.strongRecOn with
  | ind n ih =>
    rcases Nat.lt_or_ge n base with hlt | hge
    · rw [Nat.toDigits_of_lt_base hlt]
      exact natOfDigits?_digit hlt hbase
    · have hrest := ih (n / base) (Nat.div_lt_self (by omega) h)
      rw [Nat.toDigits_of_base_le h hge,
        natOfDigits?_concat (Nat.mod_lt n (by omega)) hbase hrest, Nat.div_add_mod']

/-- Only the number zero starts with a zero. -/
theorem head?_toDigits {base n : Nat} (h : 1 < base) (hbase : base ≤ 16) (hn : 0 < n) :
    (Nat.toDigits base n).head? ≠ some '0' := by
  have hdigit : ∀ d < 16, 0 < d → Nat.digitChar d ≠ '0' := by decide
  induction n using Nat.strongRecOn with
  | ind n ih =>
    rcases Nat.lt_or_ge n base with hlt | hge
    · rw [Nat.toDigits_of_lt_base hlt]
      exact fun he => hdigit n (by omega) hn (Option.some.inj he)
    · have hrest := ih (n / base) (Nat.div_lt_self hn h) (Nat.div_pos hge (by omega))
      rw [Nat.toDigits_of_base_le h hge]
      have hne : Nat.toDigits base (n / base) ≠ [] := Nat.toDigits_ne_nil
      obtain ⟨c, cs, hcons⟩ := List.exists_cons_of_ne_nil hne
      rw [hcons] at hrest ⊢
      exact hrest

/-- The last `k` hexadecimal digits of a number. -/
def hexDigits : Nat → Nat → List Char
  | 0, _ => []
  | k + 1, n => hexDigits k (n / 16) ++ [(n % 16).digitChar]

@[simp] theorem length_hexDigits (k n : Nat) : (hexDigits k n).length = k := by
  induction k generalizing n with
  | zero => rfl
  | succ k ih => simp [hexDigits, ih]

theorem natOfDigits?_hexDigits {k n : Nat} (hk : 0 < k) (hn : n < Nat.pow 16 k) :
    natOfDigits? 16 (hexDigits k n) = some n := by
  induction k generalizing n with
  | zero => cases hk
  | succ k ih =>
    have hlast : n % 16 < 16 := Nat.mod_lt n (by decide)
    rw [hexDigits]
    rcases Nat.eq_zero_or_pos k with rfl | hk
    · rw [hexDigits, List.nil_append, natOfDigits?_digit hlast (Nat.le_refl _),
        Nat.mod_eq_of_lt (by simpa [Nat.pow] using hn)]
    · have hbound : n < Nat.pow 16 k * 16 := hn
      have hrest := ih hk (n := n / 16) (by omega)
      rw [natOfDigits?_concat hlast (Nat.le_refl _) hrest, Nat.div_add_mod']

end WireTypes.Decimal

namespace WireTypes.Document

theorem Plain.magnitude?_of_head {limit n : Nat} {cs : List Char} (hzero : cs.head? ≠ some '0')
    (hsign : (Decimal.takeSign cs).2 = cs) (h : Decimal.natOfDigits? 10 cs = some n)
    (hn : n < limit) : Plain.magnitude? limit cs = some n := by
  have hbased : Plain.based? cs = none := by
    unfold Plain.based?
    split
    iterate 3 exact absurd rfl hzero
    rfl
  have hleading : Plain.hasLeadingZero cs = false := by
    unfold Plain.hasLeadingZero
    rw [hsign]
    split
    · exact absurd rfl hzero
    · rfl
  simp [Plain.magnitude?, hbased, hleading, h, hn]

/-- The decimal digits of a number, without quotes, are that number. -/
theorem Plain.nat?_toDigits {limit n : Nat} (h : n < limit) :
    Plain.nat? limit (Nat.toDigits 10 n) = some n := by
  have hdecimal := Decimal.natOfDigits?_toDigits (by decide : 1 < 10) (by decide) n
  have hdigit {c : Char} (hc : c ∈ Nat.toDigits 10 n) : c.isDigit :=
    Nat.isDigit_of_mem_toDigits (by decide) (by decide) hc
  obtain ⟨c, cs, hcons⟩ := List.exists_cons_of_ne_nil (Nat.toDigits_ne_nil (b := 10) (n := n))
  have hc : c.isDigit := hdigit (hcons ▸ List.mem_cons_self)
  have hplus : c ≠ '+' := by rintro rfl; cases hc
  have hminus : c ≠ '-' := by rintro rfl; cases hc
  have hunsigned : Plain.nat? limit (c :: cs) = Plain.magnitude? limit (c :: cs) := by
    unfold Plain.nat?
    split
    · rename_i he
      exact absurd (List.cons.inj he).1 hplus
    · rfl
  have hsign : (Decimal.takeSign (c :: cs)).2 = c :: cs := by
    unfold Decimal.takeSign
    split
    · rename_i he
      exact absurd (List.cons.inj he).1 hminus
    · rename_i he
      exact absurd (List.cons.inj he).1 hplus
    · rfl
  rcases Nat.eq_zero_or_pos n with rfl | hn
  · have hread : Decimal.natOfDigits? 10 ['0'] = some 0 := rfl
    have hleading : Plain.hasLeadingZero ['0'] = false := rfl
    have hbased : Plain.based? ['0'] = none := rfl
    show Plain.magnitude? limit ['0'] = some 0
    simp [Plain.magnitude?, hbased, hleading, hread, h]
  · have hzero := Decimal.head?_toDigits (by decide : 1 < 10) (by decide) hn
    rw [hcons] at hdecimal hzero ⊢
    rw [hunsigned]
    exact Plain.magnitude?_of_head hzero hsign hdecimal h

end WireTypes.Document
