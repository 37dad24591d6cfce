/-!
# Slices

Texts cut at offsets in the bytes of their UTF-8 form. An offset that lies inside a character or
beyond the end of a text is none at which it can be cut.
-/

set_option autoImplicit false

namespace WireTypes.Text

/-- The number of bytes of a text in UTF-8. -/
def byteSize : List Char → Nat
  | [] => 0
  | c :: cs => c.utf8Size + byteSize cs

/-- What is before an offset and what is from there on; none if there is no cut at the offset. -/
def cut? : Nat → List Char → Option (List Char × List Char)
  | 0, cs => some ([], cs)
  | _ + 1, [] => none
  | offset + 1, c :: cs =>
    if c.utf8Size ≤ offset + 1 then
      (cut? (offset + 1 - c.utf8Size) cs).map fun (before, rest) => (c :: before, rest)
    else none

/-- The offset of the first character with a property. -/
def findOffset? (p : Char → Bool) : List Char → Option Nat
  | [] => none
  | c :: cs => if p c then some 0 else (findOffset? p cs).map (c.utf8Size + ·)

/-- What follows a character at the start of a text, if it is there. -/
def strip? (c : Char) : List Char → Option (List Char)
  | [] => none
  | d :: rest => if d = c then some rest else none

/-- The bytes of a text in UTF-8. -/
def bytes (cs : List Char) : List UInt8 :=
  cs.flatMap String.utf8EncodeChar

/-- What is between two offsets; none if there is no cut at both of them, or the first one is behind
the second. -/
def slice? (start stop : Nat) (cs : List Char) : Option (List Char) := do
  let (before, _) ← cut? stop cs
  let (_, part) ← cut? start before
  pure part

/-- The offset of the first place where a text occurs. -/
def findText? (text : List Char) : List Char → Option Nat
  | [] => if text.isEmpty then some 0 else none
  | c :: cs =>
    if text.isPrefixOf (c :: cs) then some 0 else (findText? text cs).map (c.utf8Size + ·)

@[simp] theorem byteSize_nil : byteSize [] = 0 := rfl

@[simp] theorem byteSize_cons (c : Char) (cs : List Char) :
    byteSize (c :: cs) = c.utf8Size + byteSize cs := rfl

theorem byteSize_append (cs ds : List Char) : byteSize (cs ++ ds) = byteSize cs + byteSize ds := by
  induction cs with
  | nil => exact (Nat.zero_add _).symm
  | cons c cs ih => rw [List.cons_append, byteSize_cons, byteSize_cons, ih, Nat.add_assoc]

theorem cut?_byteSize (before rest : List Char) :
    cut? (byteSize before) (before ++ rest) = some (before, rest) := by
  induction before with
  | nil => rw [byteSize_nil, cut?, List.nil_append]
  | cons c before ih =>
    obtain ⟨n, hn⟩ := Nat.exists_eq_add_one.2 c.utf8Size_pos
    rw [byteSize_cons, hn, Nat.add_right_comm, List.cons_append, cut?, hn, if_pos (by omega),
      Nat.add_right_comm, Nat.add_sub_cancel_left, ih]
    rfl

/-- The offsets at which a text can be cut are the sizes of what it starts with. -/
theorem cut?_eq_some_iff {offset : Nat} {cs before rest : List Char} :
    cut? offset cs = some (before, rest) ↔ cs = before ++ rest ∧ byteSize before = offset := by
  refine ⟨fun h => ?_, ?_⟩
  · fun_induction cut? offset cs generalizing before with
    | case1 cs =>
      cases h
      exact ⟨rfl, rfl⟩
    | case2 => cases h
    | case3 offset c cs hle ih =>
      obtain ⟨⟨before', rest'⟩, hcut, heq⟩ := Option.map_eq_some_iff.1 h
      cases heq
      obtain ⟨rfl, hsize⟩ := ih hcut
      exact ⟨rfl, by rw [byteSize_cons, hsize, Nat.add_sub_cancel' hle]⟩
    | case4 => cases h
  · rintro ⟨rfl, rfl⟩
    exact cut?_byteSize before rest

/-- A slice goes from one size of what the text starts with to another. -/
theorem slice?_eq_some_iff {start stop : Nat} {cs part : List Char} :
    slice? start stop cs = some part ↔ ∃ before rest, cs = before ++ part ++ rest ∧
      byteSize before = start ∧ byteSize (before ++ part) = stop := by
  simp only [slice?, Option.bind_eq_bind, Option.bind_eq_some_iff, Prod.exists, cut?_eq_some_iff]
  constructor
  · rintro ⟨front, rest, ⟨rfl, rfl⟩, before, _, ⟨rfl, rfl⟩, he⟩
    cases he
    exact ⟨before, rest, rfl, rfl, rfl⟩
  · rintro ⟨before, rest, rfl, rfl, rfl⟩
    exact ⟨before ++ part, rest, ⟨rfl, rfl⟩, before, part, ⟨rfl, rfl⟩, rfl⟩

/-- `'é'` has two bytes, and cannot be cut between them. -/
example : slice? 2 3 ['é', '|'] = some ['|'] ∧ slice? 1 3 ['é', '|'] = none := by decide

theorem length_bytes (cs : List Char) : (bytes cs).length = byteSize cs := by
  induction cs with
  | nil => rfl
  | cons c cs ih =>
    rw [bytes, List.flatMap_cons, List.length_append, String.length_utf8EncodeChar, byteSize_cons,
      ← ih, bytes]

/-- Where the first character with a property is, or the end of the text. -/
theorem findOffset?_getD (p : Char → Bool) (cs : List Char) :
    (findOffset? p cs).getD (byteSize cs) = byteSize (cs.takeWhile fun c => !p c) := by
  induction cs with
  | nil => rfl
  | cons c cs ih =>
    cases hp : p c with
    | true => simp [findOffset?, hp]
    | false =>
      rw [List.takeWhile_cons, hp, findOffset?, hp]
      cases hfind : findOffset? p cs with
      | none =>
        rw [hfind] at ih
        exact congrArg (c.utf8Size + ·) ih
      | some offset =>
        rw [hfind] at ih
        exact congrArg (c.utf8Size + ·) ih

theorem strip?_cons (c : Char) (rest : List Char) : strip? c (c :: rest) = some rest := if_pos rfl

theorem strip?_eq_none {c : Char} {cs : List Char} (h : ∀ rest, cs ≠ c :: rest) :
    strip? c cs = none := by
  cases cs with
  | nil => rfl
  | cons d rest => exact if_neg fun hd => h rest (by rw [hd])

end WireTypes.Text
