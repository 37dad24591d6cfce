import Mathlib.Data.List.Basic
import WireTypes.Text.Slice

/-!
# Bytes of a text

What an offset of a byte says about the characters of a text. `ahead` are the characters that begin
at an offset or later, also if the offset is inside of a character or beyond the end.

* `byte_cases`: a byte below 128 is a character of its own, so the text can be cut at it; any other
  byte belongs to a character that is not below 128 either.
* `head_byte_iff`: the first byte tells whether a text begins with a given character below 128.
-/

set_option autoImplicit false

namespace WireTypes.Text

variable {before rest cs : List Char} {c : Char} {b : UInt8} {i : Nat}

/-! ## Bytes of a character -/

/-- A character below 128 is one byte, its code. -/
theorem utf8EncodeChar_ascii (h : c.toNat < 128) :
    String.utf8EncodeChar c = [c.toUInt8] ∧ Char.ofUInt8 c.toUInt8 = c := by
  have hval : c.val.toNat < 128 := h
  constructor
  · apply String.utf8EncodeChar_eq_singleton
    rw [Char.utf8Size_eq_one_iff, UInt32.le_iff_toNat_le]
    exact Nat.le_of_lt_succ hval
  · apply Char.ext
    apply UInt32.toNat_inj.1
    show c.val.toUInt8.toUInt32.toNat = c.val.toNat
    rw [UInt8.toNat_toUInt32, UInt32.toNat_toUInt8]
    omega

/-- No byte of another character is below 128. -/
theorem le_of_mem_utf8EncodeChar (h : 128 ≤ c.toNat) (hb : b ∈ String.utf8EncodeChar c) :
    128 ≤ (Char.ofUInt8 b).toNat := by
  have hval : 128 ≤ c.val.toNat := h
  show 128 ≤ b.toUInt32.toNat
  rw [UInt8.toNat_toUInt32]
  unfold String.utf8EncodeChar at hb
  dsimp only at hb
  rw [if_neg (by omega)] at hb
  -- the first byte is 192 or more, the others are 128 or more
  split at hb
  · simp only [List.mem_cons, List.not_mem_nil, or_false] at hb
    rcases hb with rfl | rfl <;> rw [UInt8.toNat_ofNat'] <;> omega
  · split at hb
    · simp only [List.mem_cons, List.not_mem_nil, or_false] at hb
      rcases hb with rfl | rfl | rfl <;> rw [UInt8.toNat_ofNat'] <;> omega
    · simp only [List.mem_cons, List.not_mem_nil, or_false] at hb
      rcases hb with rfl | rfl | rfl | rfl <;> rw [UInt8.toNat_ofNat'] <;> omega

/-! ## Characters behind an offset -/

/-- The characters of a text that begin at an offset or later. -/
def ahead : Nat → List Char → List Char
  | 0, cs => cs
  | _ + 1, [] => []
  | offset + 1, c :: cs => ahead (offset + 1 - c.utf8Size) cs

@[simp] theorem ahead_zero (cs : List Char) : ahead 0 cs = cs := by cases cs <;> rfl

@[simp] theorem ahead_nil (offset : Nat) : ahead offset [] = [] := by cases offset <;> rfl

theorem ahead_cons {offset : Nat} (h : 0 < offset) (c : Char) (cs : List Char) :
    ahead offset (c :: cs) = ahead (offset - c.utf8Size) cs := by
  obtain ⟨n, rfl⟩ := Nat.exists_eq_add_one.2 h
  rfl

/-- At an offset inside of the first character or at its end. -/
theorem ahead_inside {offset : Nat} (h : 0 < offset) (hle : offset ≤ c.utf8Size) :
    ahead offset (c :: cs) = cs := by
  rw [ahead_cons h, Nat.sub_eq_zero_of_le hle, ahead_zero]

theorem ahead_append (before rest : List Char) (offset : Nat) :
    ahead (byteSize before + offset) (before ++ rest) = ahead offset rest := by
  induction before with
  | nil => rw [byteSize_nil, Nat.zero_add, List.nil_append]
  | cons c before ih =>
    have hpos := c.utf8Size_pos
    rw [List.cons_append, byteSize_cons, ahead_cons (by omega), ← ih]
    congr 1
    omega

theorem ahead_at (hi : byteSize before = i) : ahead i (before ++ rest) = rest := by
  rw [← hi]
  exact (ahead_append before rest 0).trans (ahead_zero rest)

/-- Behind a character of one byte. -/
theorem ahead_behind (hi : byteSize before = i) (hc : c.utf8Size = 1) (offset : Nat) :
    ahead (i + 1 + offset) (before ++ c :: rest) = ahead offset rest := by
  have h := ahead_append (before ++ [c]) rest offset
  rw [byteSize_append, byteSize_cons, byteSize_nil, hc, hi, List.append_assoc] at h
  exact h

theorem ahead_eq_nil {offset : Nat} (h : byteSize cs ≤ offset) : ahead offset cs = [] := by
  have hall := ahead_append cs [] (offset - byteSize cs)
  rwa [List.append_nil, Nat.add_sub_cancel' h, ahead_nil] at hall

/-! ## Bytes of a text -/

theorem lt_of_getElem?_bytes (h : (bytes cs)[i]? = some b) : i < byteSize cs := by
  rw [← length_bytes]
  exact (List.getElem?_eq_some_iff.1 h).1

/-- Nothing is left behind the last byte. -/
theorem ahead_of_getElem?_bytes (h : (bytes cs)[i]? = none) (offset : Nat) :
    ahead (i + offset) cs = [] := by
  rw [List.getElem?_eq_none_iff, length_bytes] at h
  exact ahead_eq_nil (by omega)

/-- A byte is a character of its own, or it is not below 128. In the second case it begins or
continues a character that is not below 128 either, which is all that is passed with the byte. -/
theorem byte_cases (h : (bytes cs)[i]? = some b) :
    (∃ before rest, cs = before ++ Char.ofUInt8 b :: rest ∧ byteSize before = i ∧
      (Char.ofUInt8 b).utf8Size = 1) ∨
    128 ≤ (Char.ofUInt8 b).toNat ∧ ∃ passed, (∀ c ∈ passed, 128 ≤ c.toNat) ∧
      ahead i cs = passed ++ ahead (i + 1) cs := by
  induction cs generalizing i with
  | nil => simp [bytes] at h
  | cons c cs ih =>
    have hpos := c.utf8Size_pos
    have hlength := String.length_utf8EncodeChar c
    rw [bytes, List.flatMap_cons] at h
    by_cases hi : i < c.utf8Size
    · rw [List.getElem?_append_left (by omega)] at h
      by_cases hc : c.toNat < 128
      · left
        obtain ⟨hone, hcode⟩ := utf8EncodeChar_ascii hc
        rw [hone] at h hlength
        obtain rfl : i = 0 := by simp at hlength; omega
        obtain rfl : c.toUInt8 = b := by simpa using h
        rw [hcode]
        exact ⟨[], cs, rfl, rfl, hlength.symm⟩
      · right
        refine ⟨le_of_mem_utf8EncodeChar (by omega) (List.mem_of_getElem? h), ?_⟩
        rw [ahead_inside (Nat.succ_pos i) hi]
        by_cases hzero : i = 0
        · refine ⟨[c], by simpa using hc, ?_⟩
          rw [hzero, ahead_zero, List.singleton_append]
        · refine ⟨[], by simp, ?_⟩
          rw [ahead_inside (by omega) (by omega), List.nil_append]
    · -- the byte is one of the other characters, at an offset that is smaller by the first one
      rw [List.getElem?_append_right (by omega), hlength] at h
      rcases ih h with ⟨before, rest, rfl, hsize, hone⟩ | ⟨hcode, passed, hpassed, heq⟩
      · left
        refine ⟨c :: before, rest, rfl, ?_, hone⟩
        rw [byteSize_cons, hsize]
        omega
      · right
        refine ⟨hcode, passed, hpassed, ?_⟩
        rw [ahead_cons (by omega), ahead_cons (by omega), heq]
        congr 2
        omega

/-- The byte behind a character of one byte is the first one of what follows. -/
theorem bytes_behind (hi : byteSize before = i) (hc : c.utf8Size = 1) :
    (bytes (before ++ c :: rest))[i + 1]? = (bytes rest)[0]? := by
  have hfront : (bytes (before ++ [c])).length = i + 1 := by
    rw [length_bytes, byteSize_append, byteSize_cons, byteSize_nil, hi, hc]
  have happend : bytes (before ++ c :: rest) = bytes (before ++ [c]) ++ bytes rest := by
    simp [bytes]
  rw [happend, List.getElem?_append_right (by omega), hfront, Nat.sub_self]

theorem head_byte_iff (hc : c.toNat < 128) :
    (bytes cs)[0]?.map Char.ofUInt8 = some c ↔ cs.head? = some c := by
  cases cs with
  | nil => simp [bytes]
  | cons d cs =>
    have hpos := d.utf8Size_pos
    have hlt : 0 < (bytes (d :: cs)).length := by
      rw [length_bytes, byteSize_cons]
      omega
    obtain ⟨b, hb⟩ : ∃ b, (bytes (d :: cs))[0]? = some b := ⟨_, List.getElem?_eq_getElem hlt⟩
    rw [hb, Option.map_some, Option.some.injEq, List.head?_cons, Option.some.injEq]
    rcases byte_cases hb with ⟨before, rest, heq, hsize, -⟩ | ⟨hcode, passed, hpassed, heq⟩
    · cases before with
      | nil => rw [(List.cons.inj heq).1]
      | cons e before =>
        have hpos := e.utf8Size_pos
        rw [byteSize_cons] at hsize
        omega
    · have hd : 128 ≤ d.toNat := by
        rw [ahead_zero, ahead_inside (by omega) hpos] at heq
        cases passed with
        | nil => exact absurd (congrArg List.length heq) (by simp)
        | cons e passed =>
          rw [(List.cons.inj heq).1]
          exact hpassed e List.mem_cons_self
      constructor
      · rintro rfl
        omega
      · rintro rfl
        omega

end WireTypes.Text
