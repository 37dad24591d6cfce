import WireTypes.Code.Emit
import WireTypes.Decimal.Text
import WireTypes.Proofs.Names
import WireTypes.Resolution

/-!
# Property names as literals

What stands between single quotes denotes a text, as UTF-16 code units, by the grammar of string
literals in TypeScript (`Denotes`). The grammar has no line feed and no carriage return that stand
for themselves. A reader who allows for them otherwise follows the same rules.

* `propertyName_denotes`: a name in single quotes denotes the name itself, or nothing if it has a
  line feed or carriage return. These are all that keeps it from being a literal, and no other name
  is written in the same way.
* `feedPackage_broken`: the tag of a field can give it a name with a line feed.
-/

set_option autoImplicit false

namespace WireTypes.Code

variable {breaks : Bool} {c d : Char} {cs ds : List Char} {us vs : List Nat}

/-! ## String literals -/

/-- The UTF-16 code units of a code point. -/
def codeUnits (n : Nat) : List Nat :=
  if n < 0x10000 then [n]
  else [0xD800 + (n - 0x10000) / 0x400, 0xDC00 + (n - 0x10000) % 0x400]

/-- The UTF-16 code units of a text. -/
def textUnits (cs : List Char) : List Nat :=
  cs.flatMap fun c => codeUnits c.toNat

/-- What ends a line: line feed, carriage return, line separator and paragraph separator. -/
def endsLine (c : Char) : Bool :=
  c = '\n' || c = '\r' || c = '\u2028' || c = '\u2029'

/-- What a character stands for after a backslash. Some letters stand for control characters, and
others for themselves. Digits, the letters `u` and `x` and ends of lines are read in another way. -/
def escaped? (c : Char) : Option Char :=
  match c with
  | 'b' => some '\x08'
  | 't' => some '\t'
  | 'n' => some '\n'
  | 'v' => some '\x0b'
  | 'f' => some '\x0c'
  | 'r' => some '\r'
  | 'u' | 'x' => none
  | c => if c.isDigit || endsLine c then none else some c

/-- A character that stands for itself between single quotes; with `breaks`, line feeds and carriage
returns do as well. -/
def standsAlone (breaks : Bool) (c : Char) : Bool :=
  c ≠ '\x27' && c ≠ '\\' && (breaks || (c ≠ '\n' && c ≠ '\r'))

/-- What a text denotes between single quotes. With `breaks` it is read by someone who lets line
feeds and carriage returns stand there as they are, which they may not in a literal. -/
inductive Denotes (breaks : Bool) : List Char → List Nat → Prop
  | nil : Denotes breaks [] []
  | char {c : Char} {cs : List Char} {us : List Nat} (hc : standsAlone breaks c)
      (h : Denotes breaks cs us) : Denotes breaks (c :: cs) (codeUnits c.toNat ++ us)
  | escape {c d : Char} {cs : List Char} {us : List Nat} (hc : escaped? c = some d)
      (h : Denotes breaks cs us) : Denotes breaks ('\\' :: c :: cs) (codeUnits d.toNat ++ us)
  | zero {cs : List Char} {us : List Nat} (hnext : ∀ d ∈ cs.head?, d.isDigit = false)
      (h : Denotes breaks cs us) : Denotes breaks ('\\' :: '0' :: cs) (0 :: us)
  | twoDigits {a b : Char} {n : Nat} {cs : List Char} {us : List Nat}
      (hn : Decimal.natOfDigits? 16 [a, b] = some n) (h : Denotes breaks cs us) :
      Denotes breaks ('\\' :: 'x' :: a :: b :: cs) (n :: us)
  | fourDigits {a b c d : Char} {n : Nat} {cs : List Char} {us : List Nat}
      (hn : Decimal.natOfDigits? 16 [a, b, c, d] = some n) (h : Denotes breaks cs us) :
      Denotes breaks ('\\' :: 'u' :: a :: b :: c :: d :: cs) (n :: us)
  | codePoint {digits : List Char} {n : Nat} {cs : List Char} {us : List Nat}
      (hn : Decimal.natOfDigits? 16 digits = some n) (hle : n ≤ 0x10FFFF)
      (h : Denotes breaks cs us) :
      Denotes breaks ('\\' :: 'u' :: '\x7b' :: (digits ++ '\x7d' :: cs)) (codeUnits n ++ us)
  | nextLine {c : Char} {cs : List Char} {us : List Nat} (hc : endsLine c)
      (hpair : c = '\r' → cs.head? ≠ some '\n') (h : Denotes breaks cs us) :
      Denotes breaks ('\\' :: c :: cs) us
  | nextLinePair {cs : List Char} {us : List Nat} (h : Denotes breaks cs us) :
      Denotes breaks ('\\' :: '\r' :: '\n' :: cs) us

/-! ## Code units -/

/-- No character is half of a surrogate pair, so the units of the first character can be told from
those that follow. -/
theorem codeUnits_append_inj (h : codeUnits c.toNat ++ us = codeUnits d.toNat ++ vs) :
    c = d ∧ us = vs := by
  have hc : c.toNat < 0xD800 ∨ 0xDFFF < c.toNat ∧ c.toNat < 0x110000 := c.valid
  have hd : d.toNat < 0xD800 ∨ 0xDFFF < d.toNat ∧ d.toNat < 0x110000 := d.valid
  have hnat : c.toNat = d.toNat ∧ us = vs := by
    unfold codeUnits at h
    split at h <;> split at h <;>
      simp only [List.cons_append, List.nil_append, List.cons.injEq] at h
    · exact h
    · omega
    · omega
    · exact ⟨by omega, h.2.2⟩
  exact ⟨Char.toNat_inj.1 hnat.1, hnat.2⟩

theorem codeUnits_ne_nil (n : Nat) : codeUnits n ≠ [] := by
  unfold codeUnits
  split <;> exact List.cons_ne_nil _ _

theorem textUnits_injective : Function.Injective textUnits := by
  intro cs
  induction cs with
  | nil =>
    intro ds h
    cases ds with
    | nil => rfl
    | cons d ds => exact absurd (List.append_eq_nil_iff.1 h.symm).1 (codeUnits_ne_nil _)
  | cons c cs ih =>
    intro ds h
    cases ds with
    | nil => exact absurd (List.append_eq_nil_iff.1 h).1 (codeUnits_ne_nil _)
    | cons d ds =>
      obtain ⟨rfl, hrest⟩ := codeUnits_append_inj h
      rw [ih hrest]

/-! ## Names in single quotes -/

theorem denotes_nil_iff : Denotes breaks [] us ↔ us = [] := by
  constructor
  · rintro ⟨⟩
    rfl
  · rintro rfl
    exact .nil

theorem denotes_escapeSingle_iff : Denotes breaks (Text.escapeSingle c ++ cs) us ↔
    (breaks ∨ c ≠ '\n' ∧ c ≠ '\r') ∧ ∃ vs, us = codeUnits c.toNat ++ vs ∧ Denotes breaks cs vs := by
  unfold Text.escapeSingle
  split
  · rename_i hc
    have hescaped : escaped? c = some c := by rcases hc with rfl | rfl <;> decide
    have hbreak : c ≠ '\n' ∧ c ≠ '\r' := by rcases hc with rfl | rfl <;> decide
    constructor
    · intro h
      refine ⟨.inr hbreak, ?_⟩
      rcases hc with rfl | rfl <;> cases h with
      | char halone => simp [standsAlone] at halone
      | escape hd h =>
        cases hescaped.symm.trans hd
        exact ⟨_, rfl, h⟩
      | nextLine hend => exact absurd hend (by decide)
    · rintro ⟨-, vs, rfl, h⟩
      exact .escape hescaped h
  · rename_i hc
    rw [not_or] at hc
    constructor
    · intro h
      cases h with
      | char halone h =>
        refine ⟨?_, _, rfl, h⟩
        simpa [standsAlone, hc.1, hc.2] using halone
      | _ => exact absurd rfl hc.1
    · rintro ⟨hbreak, vs, rfl, h⟩
      exact .char (by simpa [standsAlone, hc.1, hc.2] using hbreak) h

/-- A text with its quotes and backslashes escaped denotes itself. Other units it does not denote,
and none at all for a reader who does not allow for its line feeds or carriage returns. -/
theorem denotes_escaped_iff : Denotes breaks (cs.flatMap Text.escapeSingle) us ↔
    us = textUnits cs ∧ (breaks ∨ '\n' ∉ cs ∧ '\r' ∉ cs) := by
  induction cs generalizing us with
  | nil => simp [denotes_nil_iff, textUnits]
  | cons c cs ih =>
    have hunits : textUnits (c :: cs) = codeUnits c.toNat ++ textUnits cs := rfl
    simp only [List.flatMap_cons, denotes_escapeSingle_iff, ih, hunits, List.mem_cons, not_or]
    constructor
    · rintro ⟨hc, _, rfl, rfl, hcs⟩
      refine ⟨rfl, ?_⟩
      tauto
    · rintro ⟨rfl, hbreaks⟩
      refine ⟨?_, _, rfl, rfl, ?_⟩ <;> tauto

/-- What is in quotes is no identifier. -/
theorem isIdentifier_propertyName (name : String) :
    isIdentifier (propertyName name) = isIdentifier name := by
  cases hid : isIdentifier name with
  | true => rw [propertyName, if_pos hid, hid]
  | false =>
    have hquote : isIdentStart '\x27' = false := by decide +kernel
    rw [isIdentifier, toList_propertyName hid, isIdentChars, hquote, Bool.false_and]

/-- Different names are written differently: a reader who lets line breaks stand can tell. -/
theorem propertyName_injective : Function.Injective propertyName := by
  intro name other h
  have hsame : isIdentifier name = isIdentifier other := by
    rw [← isIdentifier_propertyName name, h, isIdentifier_propertyName]
  cases hid : isIdentifier other with
  | true =>
    rw [hid] at hsame
    rwa [propertyName, propertyName, if_pos hsame, if_pos hid] at h
  | false =>
    rw [hid] at hsame
    have hbody := congrArg String.toList h
    rw [toList_propertyName hsame, toList_propertyName hid, List.cons.injEq,
      List.append_left_inj] at hbody
    have hread : Denotes true (name.toList.flatMap Text.escapeSingle) (textUnits other.toList) := by
      rw [hbody.2]
      exact denotes_escaped_iff.2 ⟨rfl, .inl rfl⟩
    exact String.toList_inj.1 (textUnits_injective (denotes_escaped_iff.1 hread).1.symm)

/-- An identifier is written as it is, and every other name in single quotes. For a reader who lets
line breaks stand between quotes that denotes the name and nothing else. It is a literal, and then
one of the name, exactly if there is neither a line feed nor a carriage return in the name; what is
written has those of the name and no others. Different names are never written in the same way. -/
theorem propertyName_denotes (name : String) :
    (isIdentifier name → propertyName name = name) ∧
    (isIdentifier name = false → ∃ body,
      (propertyName name).toList = '\x27' :: (body ++ ['\x27']) ∧
      (∀ us, Denotes true body us ↔ us = textUnits name.toList) ∧
      ∀ us, Denotes false body us ↔
        us = textUnits name.toList ∧ '\n' ∉ name.toList ∧ '\r' ∉ name.toList) ∧
    (∀ c ∈ ['\n', '\r'], c ∈ (propertyName name).toList ↔ c ∈ name.toList) ∧
    ∀ other, propertyName other = propertyName name → other = name := by
  refine ⟨fun h => if_pos h, fun h => ⟨_, toList_propertyName h, fun us => ?_, fun us => ?_⟩,
    fun c hc => ?_, fun other h => propertyName_injective h⟩
  · simp [denotes_escaped_iff]
  · simp [denotes_escaped_iff]
  · refine mem_propertyName_iff ?_ ?_ <;> rintro rfl <;> exact absurd hc (by decide)

theorem quotedName_denotes :
    let name := "it\x27s \\\x27n"
    isIdentifier name = false ∧ propertyName name = "\x27it\\\x27s \\\\\\\x27n\x27" ∧
    ∃ body, (propertyName name).toList = '\x27' :: (body ++ ['\x27']) ∧
      Denotes false body (textUnits name.toList) := by
  intro name
  have hid : isIdentifier name = false := by decide +kernel
  obtain ⟨-, hquoted, -, -⟩ := propertyName_denotes name
  obtain ⟨body, hbody, -, hliteral⟩ := hquoted hid
  exact ⟨hid, by decide +kernel, body, hbody, (hliteral _).2 ⟨rfl, by decide, by decide⟩⟩

/-- A package with a field of which the tag has the name, with a line feed as an escape. -/
def feedPackage : Package :=
  { name := "p"
    files := [⟨"a.go", [.type ⟨"T", .struct [{ type := .basic "string", name := some "F"
                                               tag := some "json:\"a\\nb\"", doc := none
                                               comment := none }], none, none, none⟩]⟩] }

/-- The member of the field takes two lines, and what is between the quotes denotes nothing. -/
theorem feedPackage_broken :
    ((Resolution.packageSections feedPackage).bind (generate {})).toOption =
        some ("// Code generated by gots. DO NOT EDIT.\n\n//////////\n// source: a.go\n\n" ++
          "export interface T \x7b\n  \x27a\nb\x27: string;\n\x7d\n") ∧
      isIdentifier "a\nb" = false ∧ propertyName "a\nb" = "\x27a\nb\x27" ∧
      ∀ body us, (propertyName "a\nb").toList = '\x27' :: (body ++ ['\x27']) →
        ¬Denotes false body us := by
  refine ⟨by decide +kernel, by decide +kernel, by decide +kernel, fun body us hbody h => ?_⟩
  have hid : isIdentifier "a\nb" = false := by decide +kernel
  rw [toList_propertyName hid, List.cons.injEq, List.append_left_inj] at hbody
  rw [← hbody.2, denotes_escaped_iff] at h
  exact absurd h.2 (by decide)

end WireTypes.Code
