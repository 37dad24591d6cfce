import Mathlib.Data.List.Basic
import WireTypes.Code.Expr
import WireTypes.Proofs.Scanning
import WireTypes.Proofs.Trimming

/-!
# What the flags of an expression say

The kind and the null flag of an expression describe its text (`Describes`) when it is a union
exactly if its text has several alternatives, and nullable exactly if one of them is `null` apart
from comments and blanks (`IsNull`). With a balanced text (`Sound`) this survives a further
alternative (`Sound.orElse`), and it holds of a single alternative other than `null`
(`sound_simple`) and of user text that spells its `null` without comments (`sound_ofText`).
-/

set_option autoImplicit false

namespace WireTypes.Code

/-! ## Null -/

/-- An alternative that is `null`, apart from comments and blanks. -/
def IsNull (p : List Char) : Prop := Text.trim (bareIn (.code 0) p) = "null".toList

instance : DecidablePred IsNull := fun _ => inferInstanceAs (Decidable (_ = _))

/-- How many alternatives of a text are `null`. -/
def nulls (text : String) : Nat := (alternatives text).countP (IsNull ·)

theorem nulls_pos {text : String} : 0 < nulls text ↔ ∃ p ∈ alternatives text, IsNull p := by
  simp [nulls, List.countP_pos_iff]

theorem isNull_append_blank (p : List Char) : IsNull (p ++ [' ']) ↔ IsNull p := by
  unfold IsNull
  rcases bareIn_append_blank (.code 0) p with h | h
  · rw [h]
  · rw [h, Text.trim_append_blank]

/-- A character other than those of `null` and blanks tells an alternative from `null`. -/
theorem not_isNull_of_mem {p : List Char} {c : Char} (h : c ∈ bareIn (.code 0) p)
    (hblank : Text.isBlank c = false) (hc : c ∉ "null".toList) : ¬IsNull p :=
  fun hnull => hc (hnull ▸ Text.mem_trim h hblank)

theorem not_isNull_of_head {p : List Char} {c : Char} (hslash : c ≠ '/')
    (hblank : Text.isBlank c = false) (hc : c ∉ "null".toList) : ¬IsNull (c :: p) := by
  refine not_isNull_of_mem ?_ hblank hc
  rw [bareIn.eq_3 _ _ _ fun _ h => absurd h hslash]
  exact List.mem_cons_self

theorem isNull_of_trim {p : List Char} (h : Text.trim p = "null".toList) : IsNull p := by
  have hslash : '/' ∉ p := fun hmem =>
    absurd (h ▸ Text.mem_trim hmem (by decide) : '/' ∈ "null".toList) (by decide)
  rw [IsNull, bareIn_of_not_mem hslash (fun _ => Scope.noConfusion)]
  exact h

/-! ## One more alternative -/

theorem countP_glue {ps : List (List Char)} (h : ps ≠ []) (q : List Char) :
    (glue ps [[' '], q]).countP (IsNull ·) =
      ps.countP (IsNull ·) + if IsNull q then 1 else 0 := by
  induction ps with
  | nil => exact absurd rfl h
  | cons a ps ih =>
    cases ps with
    | nil =>
      simp only [glue, List.countP_cons, List.countP_nil, isNull_append_blank, decide_eq_true_eq]
      omega
    | cons b ps =>
      rw [glue, List.countP_cons, ih (List.cons_ne_nil _ _), List.countP_cons (l := b :: ps)]
      omega

/-- An alternative as it is written after another one. -/
def IsAlternative (alt : String) : Prop :=
  alternativesIn (.code 0) (" | " ++ alt).toList = [[' '], ' ' :: alt.toList]

theorem isAlternative_undefined : IsAlternative "undefined" := rfl

theorem isAlternative_null : IsAlternative "null" := rfl

theorem alternatives_orElse {text alt : String} (hb : IsBalanced text.toList)
    (halt : IsAlternative alt) :
    alternatives (text ++ " | " ++ alt) = glue (alternatives text) [[' '], ' ' :: alt.toList] := by
  have hmeet : Meet text.toList (" | " ++ alt).toList := fun _ h => by
    rw [String.toList_append] at h
    cases h
  rw [alternatives, String.append_assoc, String.toList_append,
    alternativesIn_append (s := .code 0) trivial (hb 0) hmeet, halt]
  rfl

/-! ## Flags -/

/-- The flags of an expression describe its text. -/
structure Describes (e : Expr) : Prop where
  union : e.kind = .union ↔ 1 < (alternatives e.text).length
  nullable : e.nullable ↔ ∃ p ∈ alternatives e.text, IsNull p

/-- The flags of an expression describe its text, and the text is balanced. -/
structure Sound (e : Expr) : Prop extends Describes e where
  balanced : IsBalanced e.text.toList

theorem length_alternatives_pos (text : String) : 0 < (alternatives text).length :=
  List.length_pos_of_ne_nil (alternativesIn_ne_nil _ _)

/-- A text that is no union is its only alternative. -/
theorem alternatives_eq {text : String} (h : ¬1 < (alternatives text).length) :
    alternatives text = [text.toList] := by
  have hpos := length_alternatives_pos text
  obtain ⟨p, hp⟩ := List.length_eq_one_iff.1 (by omega : (alternatives text).length = 1)
  rw [hp, eq_of_alternativesIn_eq hp]

/-- A balanced text with a single alternative is in one piece at every depth. -/
theorem spans_of_isBalanced {text : String} (hb : IsBalanced text.toList)
    (h : alternatives text = [text.toList]) (d : Nat) :
    Spans (.code d) text.toList (.code d) := by
  cases d with
  | zero => exact ⟨hb 0, h⟩
  | succ d => exact hb.spans d

theorem sound_simple {text : String} {kind : ExprKind} (hkind : kind ≠ .union)
    (hs : ∀ d, Spans (.code d) text.toList (.code d)) (hn : ¬IsNull text.toList) :
    Sound (.simple text kind) := by
  have halts : alternatives text = [text.toList] := (hs 0).whole
  refine ⟨⟨⟨fun h => absurd h hkind, fun h => ?_⟩, ⟨fun h => (nomatch h), fun h => ?_⟩⟩,
    .of_spans hs⟩
  · rw [Expr.simple, halts] at h
    exact absurd h (Nat.lt_irrefl 1)
  · obtain ⟨p, hp, hnull⟩ := h
    rw [Expr.simple, halts, List.mem_singleton] at hp
    exact absurd (hp ▸ hnull) hn

/-- A text of the user spells `null` without comments if it has it for an alternative. -/
def SpellsNull (text : String) : Prop :=
  (∃ p ∈ alternatives text, IsNull p) →
    ∃ p ∈ alternatives text, Text.trim p = "null".toList

theorem kindOfWord_ne_union (word : String) : Expr.kindOfWord word ≠ .union := by
  unfold Expr.kindOfWord
  split
  · exact ExprKind.noConfusion
  · split
    · exact ExprKind.noConfusion
    · exact ExprKind.noConfusion

theorem kind_ofText_iff (text : String) :
    (Expr.ofText text).kind = .union ↔ 1 < (alternatives text).length := by
  simp only [Expr.ofText]
  split
  · rename_i hmany
    exact ⟨fun _ => hmany, fun _ => rfl⟩
  · rename_i hone
    exact ⟨fun hk => absurd hk (kindOfWord_ne_union _), fun hmany => absurd hmany hone⟩

theorem nullable_ofText_iff (text : String) :
    (Expr.ofText text).nullable ↔ ∃ p ∈ alternatives text, Text.trim p = "null".toList := by
  simp [Expr.ofText]

/-- The kind of a user's text is right, and its null flag is exactly if it spells its `null`. -/
theorem describes_ofText_iff (text : String) : Describes (.ofText text) ↔ SpellsNull text := by
  constructor
  · intro h hnull
    exact (nullable_ofText_iff text).1 (h.nullable.2 hnull)
  · intro h
    refine ⟨kind_ofText_iff text, (nullable_ofText_iff text).trans ⟨?_, h⟩⟩
    exact fun ⟨p, hp, htrim⟩ => ⟨p, hp, isNull_of_trim htrim⟩

theorem sound_ofText {text : String} (hb : IsBalanced text.toList) (h : SpellsNull text) :
    Sound (.ofText text) :=
  ⟨(describes_ofText_iff text).2 h, hb⟩

namespace Sound

variable {e : Expr}

/-- One more alternative makes a union, and adds to the `null`s if it is one. -/
theorem orElse (h : Sound e) {alt : String} (halt : IsAlternative alt)
    (hb : IsBalanced (" | " ++ alt).toList)
    (hnull : IsNull (' ' :: alt.toList) ↔ alt = "null") :
    Sound (e.orElse alt) ∧
      nulls (e.orElse alt).text = nulls e.text + if alt = "null" then 1 else 0 := by
  have halts := alternatives_orElse h.balanced halt
  have hne : alternatives e.text ≠ [] := alternativesIn_ne_nil _ _
  have hnulls : nulls (e.orElse alt).text = nulls e.text + if alt = "null" then 1 else 0 := by
    rw [nulls, Expr.orElse, halts, countP_glue hne, if_congr hnull rfl rfl]
    rfl
  refine ⟨⟨⟨⟨fun _ => ?_, fun _ => rfl⟩, ?_⟩, ?_⟩, hnulls⟩
  · have hlength := length_glue hne (List.cons_ne_nil [' '] [' ' :: alt.toList])
    have hpos := length_alternatives_pos e.text
    rw [Expr.orElse, halts]
    simp only [List.length_cons, List.length_nil] at hlength
    omega
  · rw [← nulls_pos, hnulls, Expr.orElse, Bool.or_eq_true, h.nullable, ← nulls_pos,
      decide_eq_true_eq]
    split <;> simp [*]
  · rw [Expr.orElse, String.append_assoc, String.toList_append]
    refine h.balanced.append hb fun _ hstar => ?_
    rw [String.toList_append] at hstar
    cases hstar

theorem orElse_undefined (h : Sound e) : Sound (e.orElse "undefined") :=
  (h.orElse isAlternative_undefined (fun _ => rfl) (by decide)).1

theorem orElse_null (h : Sound e) :
    Sound (e.orElse "null") ∧ nulls (e.orElse "null").text = nulls e.text + 1 :=
  h.orElse isAlternative_null (fun _ => rfl) (by decide)

end Sound

end WireTypes.Code
