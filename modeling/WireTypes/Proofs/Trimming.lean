import Mathlib.Data.List.DropRight
import WireTypes.Text.Blank

/-!
# Trimming

Taking members off the end of a list is the library's `List.rdropWhile`. Taking them off both ends
leaves the only part that has none of them at its ends (`trimmed_eq_iff`). Trimming a text keeps all
that is not blank (`mem_trim`).
-/

set_option autoImplicit false

namespace WireTypes.Text

theorem dropEndWhile_eq_rdropWhile {α : Type} (p : α → Bool) (l : List α) :
    dropEndWhile p l = l.rdropWhile p := by
  induction l with
  | nil => rfl
  | cons a rest ih =>
    rw [dropEndWhile, ih]
    simp only [List.rdropWhile, List.reverse_cons, List.dropWhile_append]
    cases h : rest.reverse.dropWhile p with
    | nil => by_cases ha : p a <;> simp [ha]
    | cons b kept =>
      cases hr : (b :: kept).reverse with
      | nil => simp at hr
      | cons c more => simp [← hr]

theorem dropEndWhile_isPrefix {α : Type} (p : α → Bool) (l : List α) : dropEndWhile p l <+: l := by
  rw [dropEndWhile_eq_rdropWhile]
  exact List.rdropWhile_prefix p l

/-- A list with a member that satisfies `p` at neither end. -/
structure IsTrimmed {α : Type} (p : α → Bool) (l : List α) : Prop where
  head : ∀ a ∈ l.head?, p a = false
  last : ∀ a ∈ l.getLast?, p a = false

theorem isTrimmed_of_forall {α : Type} {p : α → Bool} {l : List α} (h : ∀ a ∈ l, p a = false) :
    IsTrimmed p l :=
  ⟨fun a ha => h a (List.mem_of_head? ha), fun a ha => h a (List.mem_of_getLast? ha)⟩

theorem IsTrimmed.map {α β : Type} {p : β → Bool} {f : α → β} {l : List α}
    (h : IsTrimmed (p ∘ f) l) : IsTrimmed p (l.map f) := by
  constructor
  · rw [List.head?_map]
    rintro _ hb
    obtain ⟨a, ha, rfl⟩ := Option.map_eq_some_iff.1 hb
    exact h.head a ha
  · rw [List.getLast?_map]
    rintro _ hb
    obtain ⟨a, ha, rfl⟩ := Option.map_eq_some_iff.1 hb
    exact h.last a ha

theorem dropWhile_of_head {α : Type} {p : α → Bool} {l : List α} (h : ∀ a ∈ l.head?, p a = false) :
    l.dropWhile p = l := by
  cases l with
  | nil => rfl
  | cons a l => rw [List.dropWhile_cons, h a rfl, if_neg Bool.false_ne_true]

theorem rdropWhile_of_last {α : Type} {p : α → Bool} {l : List α}
    (h : ∀ a ∈ l.getLast?, p a = false) : l.rdropWhile p = l := by
  rw [List.rdropWhile_eq_self_iff]
  exact fun hne => by simp [h _ (List.getLast?_eq_some_getLast hne)]

theorem rdropWhile_append_of_all {α : Type} {p : α → Bool} {r : List α} (h : ∀ a ∈ r, p a)
    (l : List α) : (l ++ r).rdropWhile p = l.rdropWhile p := by
  unfold List.rdropWhile
  rw [List.reverse_append,
    List.dropWhile_append_of_pos fun a ha => h a (List.mem_reverse.1 ha)]

theorem rdropWhile_map {α β : Type} (p : β → Bool) (f : α → β) (l : List α) :
    (l.map f).rdropWhile p = (l.rdropWhile (p ∘ f)).map f := by
  simp only [List.rdropWhile, ← List.map_reverse, List.dropWhile_map]

theorem rdropWhile_append_cons {α : Type} {p : α → Bool} {a : α} (ha : p a = false) (l r : List α) :
    (l ++ a :: r).rdropWhile p = l ++ a :: r.rdropWhile p := by
  simp only [List.rdropWhile, List.reverse_append, List.reverse_cons, List.append_assoc,
    List.dropWhile_append]
  by_cases hr : (r.reverse.dropWhile p).isEmpty
  · simp [List.isEmpty_iff.1 hr, ha]
  · simp [hr]

theorem last_rdropWhile {α : Type} (p : α → Bool) (l : List α) :
    ∀ a ∈ (l.rdropWhile p).getLast?, p a = false := by
  intro a ha
  have hne := List.ne_nil_of_mem (List.mem_of_getLast? ha)
  rw [List.getLast?_eq_some_getLast hne] at ha
  cases ha
  simpa using List.rdropWhile_last_not p l hne

theorem isTrimmed_rdropWhile {α : Type} (p : α → Bool) (l : List α) :
    IsTrimmed p ((l.dropWhile p).rdropWhile p) := by
  refine ⟨fun a ha => ?_, last_rdropWhile p _⟩
  obtain ⟨rest, hrest⟩ := List.rdropWhile_prefix p (l.dropWhile p)
  have hhead := List.head?_dropWhile_not p l
  rw [← hrest, List.head?_append_of_ne_nil _ (List.ne_nil_of_mem (List.mem_of_head? ha)),
    Option.mem_def.1 ha] at hhead
  simpa using hhead

/-- What is left of a list is the part between members that satisfy `p` and that has no such member
at its ends. -/
theorem trimmed_eq_iff {α : Type} {p : α → Bool} {l body : List α} :
    (l.dropWhile p).rdropWhile p = body ↔ ∃ before after, l = before ++ body ++ after ∧
      (∀ a ∈ before ++ after, p a) ∧ IsTrimmed p body := by
  constructor
  · rintro rfl
    refine ⟨l.takeWhile p, (l.dropWhile p).rtakeWhile p, ?_, fun a ha => ?_,
      isTrimmed_rdropWhile p l⟩
    · rw [List.append_assoc, List.rdropWhile_append_rtakeWhile, List.takeWhile_append_dropWhile]
    · rcases List.mem_append.1 ha with ha | ha
      · exact List.mem_takeWhile_imp ha
      · exact List.mem_rtakeWhile_imp ha
  · rintro ⟨before, after, rfl, hall, hbody⟩
    cases body with
    | nil =>
      have hnone : (before ++ [] ++ after).dropWhile p = [] := by
        rw [List.append_nil, List.dropWhile_eq_nil_iff]
        exact hall
      rw [hnone, List.rdropWhile_nil]
    | cons a body =>
      rw [List.forall_mem_append] at hall
      have hhead : ∀ b ∈ (a :: body ++ after).head?, p b = false := hbody.head
      rw [List.append_assoc, List.dropWhile_append_of_pos hall.1, dropWhile_of_head hhead,
        rdropWhile_append_of_all hall.2, rdropWhile_of_last hbody.last]

theorem trimmed_eq_nil_iff {α : Type} {p : α → Bool} {l : List α} :
    (l.dropWhile p).rdropWhile p = [] ↔ ∀ a ∈ l, p a := by
  rw [trimmed_eq_iff]
  constructor
  · rintro ⟨before, after, rfl, hall, -⟩
    simpa using hall
  · exact fun h => ⟨l, [], by simp, by simpa using h, isTrimmed_of_forall (by simp)⟩

/-- The letters and digits of ASCII lie in a stretch of code points without blanks. -/
theorem isBlank_of_isAlphanum {c : Char} (h : c.isAlphanum) : isBlank c = false := by
  have hstretch : 48 ≤ c.toNat ∧ c.toNat ≤ 122 := by
    rw [isAlphanum_iff, isAlpha_iff, isUpper_iff, isLower_iff, Char.isDigit_iff_toNat] at h
    have hzero : '0'.toNat = 48 := rfl
    have hnine : '9'.toNat = 57 := rfl
    omega
  have houtside : ∀ s ∈ whiteSpace, s.last < 48 ∨ 122 < s.first := by decide
  rw [isBlank, CharClass.contains, List.any_eq_false]
  intro s hs hc
  simp only [Stride.contains, Bool.and_eq_true, decide_eq_true_eq] at hc
  have := houtside s hs
  omega

theorem trimEnd_eq (cs : List Char) : trimEnd cs = cs.rdropWhile isBlank :=
  dropEndWhile_eq_rdropWhile isBlank cs

theorem trimEnd_trimEnd (cs : List Char) : trimEnd (trimEnd cs) = trimEnd cs := by
  simp only [trimEnd_eq, List.rdropWhile_idempotent]

theorem trim_eq (cs : List Char) : trim cs = (cs.dropWhile isBlank).rdropWhile isBlank := by
  rw [trim, trimEnd, dropEndWhile_eq_rdropWhile]

theorem mem_dropWhile {α : Type} {p : α → Bool} {a : α} {l : List α} (h : a ∈ l)
    (ha : p a = false) : a ∈ l.dropWhile p := by
  rw [← List.takeWhile_append_dropWhile (p := p) (l := l)] at h
  rcases List.mem_append.1 h with h | h
  · rw [List.mem_takeWhile_imp h] at ha
    cases ha
  · exact h

theorem mem_trim {c : Char} {cs : List Char} (h : c ∈ cs) (hc : isBlank c = false) :
    c ∈ trim cs := by
  rw [trim_eq, List.rdropWhile, List.mem_reverse]
  exact mem_dropWhile (List.mem_reverse.2 (mem_dropWhile h hc)) hc

theorem trim_eq_self {cs : List Char} (h : ∀ c ∈ cs, isBlank c = false) : trim cs = cs := by
  rw [trim_eq, trimmed_eq_iff]
  exact ⟨[], [], by simp, by simp, isTrimmed_of_forall h⟩

/-- Blanks at either end go with those next to them. -/
theorem trim_blanks {before after : List Char} (h : ∀ c ∈ before ++ after, isBlank c)
    (cs : List Char) : trim (before ++ cs ++ after) = trim cs := by
  obtain ⟨left, right, hcs, hblank, htrimmed⟩ := trimmed_eq_iff.1 (trim_eq cs).symm
  rw [List.forall_mem_append] at h hblank
  rw [trim_eq, trimmed_eq_iff]
  refine ⟨before ++ left, right ++ after, ?_, fun c hc => ?_, htrimmed⟩
  · conv_lhs => rw [hcs]
    simp only [List.append_assoc]
  · simp only [List.mem_append] at hc
    rcases hc with (hc | hc) | (hc | hc)
    · exact h.1 c hc
    · exact hblank.1 c hc
    · exact hblank.2 c hc
    · exact h.2 c hc

theorem trim_append_blank (cs : List Char) : trim (cs ++ [' ']) = trim cs :=
  have hblank : ∀ c ∈ [] ++ [' '], isBlank c := by
    intro c hc
    rw [List.mem_singleton.1 hc]
    decide
  trim_blanks hblank cs

end WireTypes.Text
