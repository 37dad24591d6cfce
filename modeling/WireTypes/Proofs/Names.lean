import WireTypes.Code.Ident
import WireTypes.Proofs.Scanning
import WireTypes.Proofs.Trimming

/-!
# Names in type expressions

The characters of identifiers mean nothing to the scanner and are no blanks, so that names pass it
as they are: names of types, with points in them (`IsDotted`), and names of properties, which are
quoted unless they are identifiers.
-/

set_option autoImplicit false

namespace WireTypes.Code

/-! ## Characters of identifiers -/

theorem isPlain_of_isIdentPart {c : Char} (h : isIdentPart c) : isPlain c := by
  have hspecial : specialChars.all fun c => !isIdentPart c := by decide +kernel
  by_contra hplain
  have hmem : c ∈ specialChars := by simpa [isPlain] using hplain
  have hc := List.all_eq_true.1 hspecial c hmem
  rw [h] at hc
  cases hc

/-- The code points of blanks. -/
def blankPoints : List Nat :=
  Text.whiteSpace.flatMap fun s => List.range' s.first (s.last - s.first + 1)

theorem mem_blankPoints {c : Char} (h : Text.isBlank c) : c.toNat ∈ blankPoints := by
  obtain ⟨s, hs, hc⟩ := List.any_eq_true.1 h
  simp only [Text.Stride.contains, Bool.and_eq_true, decide_eq_true_eq] at hc
  refine List.mem_flatMap.2 ⟨s, hs, ?_⟩
  rw [List.mem_range'_1]
  omega

theorem isBlank_of_isIdentPart {c : Char} (h : isIdentPart c) : Text.isBlank c = false := by
  have hpoints : ∀ n ∈ blankPoints, isIdentPart (Char.ofNat n) = false := by decide +kernel
  by_contra hblank
  rw [Bool.not_eq_false] at hblank
  have hc := hpoints _ (mem_blankPoints hblank)
  rw [Char.ofNat_toNat] at hc
  rw [hc] at h
  cases h

theorem isIdentPart_of_mem {cs : List Char} (h : isIdentChars cs) {c : Char} (hc : c ∈ cs) :
    isIdentPart c := by
  cases cs with
  | nil => cases hc
  | cons b cs =>
    simp only [isIdentChars, Bool.and_eq_true, List.all_eq_true] at h
    rcases List.mem_cons.1 hc with rfl | hc
    · have hstart := h.1
      simp only [isIdentStart, isIdentPart, Text.isAlphanumeric, Bool.or_eq_true] at hstart ⊢
      tauto
    · exact h.2 c hc

/-! ## Names of types -/

/-- Identifiers with points between them. -/
def IsDotted (name : String) : Prop :=
  ∀ piece ∈ Text.splitAtEach '.' name.toList, isIdentChars piece

theorem mem_splitAtEach {sep c : Char} {cs : List Char} (h : c ∈ cs) :
    c = sep ∨ ∃ piece ∈ Text.splitAtEach sep cs, c ∈ piece := by
  induction cs with
  | nil => cases h
  | cons b cs ih =>
    rw [Text.splitAtEach]
    by_cases hb : b = sep
    · rw [if_pos hb]
      rcases List.mem_cons.1 h with rfl | h
      · exact .inl hb
      · refine (ih h).imp_right ?_
        rintro ⟨piece, hpiece, hc⟩
        exact ⟨piece, List.mem_cons_of_mem _ hpiece, hc⟩
    · rw [if_neg hb]
      cases hsplit : Text.splitAtEach sep cs with
      | nil =>
        rcases List.mem_cons.1 h with rfl | h
        · exact .inr ⟨[c], List.mem_singleton_self _, List.mem_singleton_self _⟩
        · rw [hsplit] at ih
          rcases ih h with hc | ⟨_, hnil, -⟩
          · exact .inl hc
          · cases hnil
      | cons piece rest =>
        rw [hsplit] at ih
        rw [Text.consHead]
        rcases List.mem_cons.1 h with rfl | h
        · exact .inr ⟨_, List.mem_cons_self, List.mem_cons_self⟩
        · refine (ih h).imp_right ?_
          rintro ⟨p, hp, hc⟩
          rcases List.mem_cons.1 hp with rfl | hp
          · exact ⟨_, List.mem_cons_self, List.mem_cons_of_mem _ hc⟩
          · exact ⟨p, List.mem_cons_of_mem _ hp, hc⟩

namespace IsDotted

variable {name : String} {c : Char}

theorem ne_empty (h : IsDotted name) : name ≠ "" := by
  rintro rfl
  exact absurd (h [] (List.mem_singleton_self _)) (by decide)

theorem eq_or_isIdentPart (h : IsDotted name) (hc : c ∈ name.toList) : c = '.' ∨ isIdentPart c :=
  (mem_splitAtEach hc).imp_right fun ⟨_, hpiece, hc⟩ => isIdentPart_of_mem (h _ hpiece) hc

theorem isPlain (h : IsDotted name) (hc : c ∈ name.toList) : Code.isPlain c := by
  rcases h.eq_or_isIdentPart hc with rfl | hc
  · decide
  · exact isPlain_of_isIdentPart hc

theorem isBlank (h : IsDotted name) (hc : c ∈ name.toList) : Text.isBlank c = false := by
  rcases h.eq_or_isIdentPart hc with rfl | hc
  · decide
  · exact isBlank_of_isIdentPart hc

theorem star_not_mem (h : IsDotted name) : '*' ∉ name.toList := by
  intro hc
  rcases h.eq_or_isIdentPart hc with he | hpart
  · cases he
  · exact absurd hpart (by decide +kernel)

theorem slash_not_mem (h : IsDotted name) : '/' ∉ name.toList :=
  fun hc => absurd (h.isPlain hc) (by decide)

theorem spans (h : IsDotted name) (d : Nat) : Spans (.code d) name.toList (.code d) :=
  spans_plain (List.all_eq_true.2 fun _ => h.isPlain) d

end IsDotted

/-- There are names that are not in a given list. -/
theorem exists_fresh (names : List String) : ∃ name, IsDotted name ∧ name ∉ names := by
  let length := (names.map String.toList).flatten.length
  let name : String := .ofList (List.replicate (length + 1) 'a')
  have hsplit : ∀ n, Text.splitAtEach '.' (List.replicate n 'a') = [List.replicate n 'a'] := by
    intro n
    induction n with
    | zero => rfl
    | succ n ih => rw [List.replicate_succ, Text.splitAtEach, ih]; rfl
  refine ⟨name, ?_, fun hmem => ?_⟩
  · intro piece hpiece
    rw [String.toList_ofList, hsplit, List.mem_singleton] at hpiece
    rw [hpiece, List.replicate_succ, isIdentChars, Bool.and_eq_true, List.all_eq_true]
    refine ⟨by decide +kernel, fun c hc => ?_⟩
    rw [List.eq_of_mem_replicate hc]
    decide +kernel
  · have hsub := List.sublist_flatten_of_mem (List.mem_map_of_mem (f := String.toList) hmem)
    have hle := hsub.length_le
    simp only [name, String.toList_ofList, List.length_replicate] at hle
    omega

/-! ## Names of properties -/

theorem spans_propertyName (name : String) (d : Nat) :
    Spans (.code d) (propertyName name).toList (.code d) := by
  unfold propertyName
  split
  · rename_i hid
    have hplain : name.toList.all isPlain :=
      List.all_eq_true.2 fun _ hc => isPlain_of_isIdentPart (isIdentPart_of_mem hid hc)
    exact spans_plain hplain d
  · exact spans_singleQuoted name d

theorem toList_propertyName {name : String} (h : isIdentifier name = false) :
    (propertyName name).toList = '\x27' :: (name.toList.flatMap Text.escapeSingle ++ ['\x27']) := by
  rw [propertyName, h, if_neg Bool.false_ne_true, Text.singleQuoted, String.toList_ofList,
    List.cons_append]

/-- Quotes and backslashes are all that is added to a name. -/
theorem mem_propertyName_iff {name : String} {c : Char} (hquote : c ≠ '\x27')
    (hbackslash : c ≠ '\\') : c ∈ (propertyName name).toList ↔ c ∈ name.toList := by
  have hescape (d : Char) : c ∈ Text.escapeSingle d ↔ d = c := by
    unfold Text.escapeSingle
    split
    · simp [hbackslash, eq_comm]
    · simp [eq_comm]
  cases hid : isIdentifier name with
  | true => rw [propertyName, if_pos hid]
  | false =>
    simp only [toList_propertyName hid, List.mem_cons, List.mem_append, List.mem_flatMap, hescape,
      hquote, List.not_mem_nil, or_false, false_or, exists_eq_right]

end WireTypes.Code
