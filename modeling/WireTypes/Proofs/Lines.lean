import WireTypes.Proofs.Trimming
import WireTypes.Text.Pieces

/-!
# Lines and their ends

TypeScript ends a line at more characters than a line feed (`isLineEnd`). Cutting a text into lines
takes away the line feeds only (`lineFeed_not_mem`), and trimming a line takes away a blank unless
it stands between characters that are not blank (`mem_trim_iff`). Lines that are joined by line
feeds are cut at these again, if they have no ends of lines of their own (`lines_intercalate`).
-/

set_option autoImplicit false

namespace WireTypes.Text

/-- A character with which a line of TypeScript ends. -/
def isLineEnd (c : Char) : Bool :=
  c = '\n' || c = '\r' || c = '\u2028' || c = '\u2029'

/-- A character of a line with something that is not blank before it and after it. -/
def Encloses (line : List Char) (c : Char) : Prop :=
  ∃ before rest, line = before ++ c :: rest ∧ (∃ x ∈ before, isBlank x = false) ∧
    ∃ y ∈ rest, isBlank y = false

theorem isBlank_of_isLineEnd {c : Char} (h : isLineEnd c) : isBlank c := by
  simp only [isLineEnd, Bool.or_eq_true, decide_eq_true_eq] at h
  rcases h with ((rfl | rfl) | rfl) | rfl <;> decide

theorem mem_consHead {c : Char} {piece : List Char} {pieces : List (List Char)}
    (h : piece ∈ consHead c pieces) :
    (∃ first, piece = c :: first ∧ (first = [] ∨ first ∈ pieces)) ∨ piece ∈ pieces := by
  cases pieces with
  | nil =>
    rw [consHead, List.mem_singleton] at h
    exact .inl ⟨[], h, .inl rfl⟩
  | cons first rest =>
    rcases List.mem_cons.1 h with h | h
    · exact .inl ⟨first, h, .inr List.mem_cons_self⟩
    · exact .inr (List.mem_cons_of_mem _ h)

theorem lineFeed_not_mem {t line : List Char} (h : line ∈ lines t) : '\n' ∉ line := by
  fun_induction lines t generalizing line with
  | case1 => cases h
  | case2 rest ih =>
    rcases List.mem_cons.1 h with rfl | h
    · exact List.not_mem_nil
    · exact ih h
  | case3 rest ih =>
    rcases List.mem_cons.1 h with rfl | h
    · exact List.not_mem_nil
    · exact ih h
  | case4 c rest hfeed _ ih =>
    rcases mem_consHead h with ⟨first, rfl, hfirst⟩ | h
    · rw [List.mem_cons, not_or]
      refine ⟨fun hc => hfeed hc.symm, ?_⟩
      rcases hfirst with rfl | hfirst
      · exact List.not_mem_nil
      · exact ih hfirst
    · exact ih h

/-! ## Joined lines -/

/-- A line without a line feed, and without a carriage return that a line feed would take along. -/
structure IsBareLine (line : List Char) : Prop where
  noFeed : '\n' ∉ line
  noReturn : '\r' ∉ line.getLast?

theorem lines_cons {c : Char} {cs : List Char} (hfeed : c ≠ '\n')
    (hpair : c = '\r' → '\n' ∉ cs.head?) : lines (c :: cs) = consHead c (lines cs) := by
  rw [lines]
  · exact hfeed
  · rintro rest rfl rfl
    exact hpair rfl rfl

theorem IsBareLine.tail {c : Char} {line : List Char} (h : IsBareLine (c :: line)) :
    IsBareLine line := by
  refine ⟨fun hmem => h.noFeed (List.mem_cons_of_mem _ hmem), fun hlast => h.noReturn ?_⟩
  rw [List.getLast?_cons, Option.mem_def.1 hlast]
  rfl

/-- A bare line, its own line feed put in behind it or not, starts with no pair that would be an end
of line. -/
theorem IsBareLine.head_ne {c : Char} {line : List Char} (h : IsBareLine (c :: line))
    (hc : c = '\r') (rest : List Char) : '\n' ∉ (line ++ '\n' :: rest).head? := by
  cases line with
  | nil => exact absurd rfl (hc ▸ h.noReturn)
  | cons d line =>
    intro hd
    cases hd
    exact h.noFeed (by simp)

theorem lines_append {line : List Char} (h : IsBareLine line) (rest : List Char) :
    lines (line ++ '\n' :: rest) = line :: lines rest := by
  induction line with
  | nil => rfl
  | cons c line ih =>
    have hfeed : c ≠ '\n' := fun hc => h.noFeed (hc ▸ List.mem_cons_self)
    rw [List.cons_append, lines_cons hfeed fun hc => h.head_ne hc rest, ih h.tail, consHead]

theorem lines_of_bare {line : List Char} (h : IsBareLine line) (hne : line ≠ []) :
    lines line = [line] := by
  induction line with
  | nil => exact absurd rfl hne
  | cons c line ih =>
    have hfeed : c ≠ '\n' := fun hc => h.noFeed (hc ▸ List.mem_cons_self)
    have hpair : c = '\r' → '\n' ∉ line.head? := fun _ hd =>
      h.noFeed (List.mem_cons_of_mem _ (List.mem_of_head? hd))
    rw [lines_cons hfeed hpair]
    cases line with
    | nil => rfl
    | cons d line => rw [ih h.tail (List.cons_ne_nil _ _), consHead]

/-- Bare lines that are joined by line feeds are the lines of the text, provided that the last one
can be seen. -/
theorem lines_intercalate {ls : List (List Char)} (h : ∀ line ∈ ls, IsBareLine line)
    (hlast : [] ∉ ls.getLast?) : lines (List.intercalate ['\n'] ls) = ls := by
  induction ls with
  | nil => rfl
  | cons line more ih =>
    have hline := h line List.mem_cons_self
    cases more with
    | nil =>
      rw [List.intercalate_singleton]
      exact lines_of_bare hline fun hnil => hlast (hnil ▸ rfl)
    | cons next more =>
      have hmore : ∀ l ∈ next :: more, IsBareLine l := fun l hl => h l (List.mem_cons_of_mem _ hl)
      rw [List.intercalate_cons_cons, List.append_assoc, List.singleton_append, lines_append hline,
        ih hmore hlast]

/-! ## Trimming -/

theorem dropWhile_append_of_mem {α : Type} {p : α → Bool} {a : α} {l : List α} (h : a ∈ l)
    (ha : p a = false) (r : List α) : (l ++ r).dropWhile p = l.dropWhile p ++ r := by
  have hne : l.dropWhile p ≠ [] := List.ne_nil_of_mem (mem_dropWhile h ha)
  rw [List.dropWhile_append, if_neg (by rwa [List.isEmpty_iff])]

theorem rdropWhile_append_of_mem {α : Type} {p : α → Bool} {a : α} {r : List α} (h : a ∈ r)
    (ha : p a = false) (l : List α) : (l ++ r).rdropWhile p = l ++ r.rdropWhile p := by
  obtain ⟨left, right, rfl⟩ := List.append_of_mem h
  rw [← List.append_assoc, rdropWhile_append_cons ha, rdropWhile_append_cons ha, List.append_assoc]

/-- A blank that trimming keeps is one between characters that are not blank. -/
theorem mem_trim_iff {c : Char} (hc : isBlank c) (line : List Char) :
    c ∈ trim line ↔ Encloses line c := by
  rw [trim_eq]
  constructor
  · intro h
    obtain ⟨q, hq⟩ := List.rdropWhile_prefix isBlank (line.dropWhile isBlank)
    have hlast := List.rdropWhile_last_not isBlank (line.dropWhile isBlank) (List.ne_nil_of_mem h)
    have hfirst := List.head?_dropWhile_not isBlank line
    obtain ⟨before, rest, hsplit⟩ := List.append_of_mem h
    have hdrop : line.dropWhile isBlank = before ++ c :: (rest ++ q) := by
      rw [← hq, hsplit, List.append_assoc, List.cons_append]
    simp only [hsplit] at hlast
    rw [hdrop] at hfirst
    refine ⟨line.takeWhile isBlank ++ before, rest ++ q, ?_, ?_, ?_⟩
    · rw [List.append_assoc, ← hdrop, List.takeWhile_append_dropWhile]
    · cases before with
      | nil => exact absurd hc (by simpa using hfirst)
      | cons x before =>
        exact ⟨x, List.mem_append_right _ List.mem_cons_self, by simpa using hfirst⟩
    · cases rest with
      | nil => exact absurd hc (by simpa using hlast)
      | cons y rest =>
        rw [List.getLast_append_of_ne_nil _ (List.cons_ne_nil _ _),
          List.getLast_cons (List.cons_ne_nil _ _)] at hlast
        exact ⟨_, List.mem_append_left _ (List.getLast_mem (List.cons_ne_nil y rest)),
          by simpa using hlast⟩
  · rintro ⟨before, rest, rfl, ⟨x, hx, hblankx⟩, y, hy, hblanky⟩
    have hy' : y ∈ c :: rest := List.mem_cons_of_mem _ hy
    rw [dropWhile_append_of_mem hx hblankx, rdropWhile_append_of_mem hy' hblanky,
      ← List.singleton_append, rdropWhile_append_of_mem hy hblanky]
    exact List.mem_append_right _ List.mem_cons_self

end WireTypes.Text
