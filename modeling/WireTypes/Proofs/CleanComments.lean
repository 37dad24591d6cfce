import WireTypes.Package.Comment
import WireTypes.Proofs.Lines

/-!
# Comments without directives

`clean` keeps the lines of a comment that are no directives (`IsDirective`), from the first to the
last of them that is not blank, without the blanks at their ends. The lines of what it gives are
such lines again, so there is nothing left to take away (`clean_cleaned`).

* `clean_lines`: what is left of a comment, when nothing is, and that a clean comment stays as it
  is.
-/

set_option autoImplicit false

namespace WireTypes.Package.Comment

variable {text cleaned : String} {line : List Char} {body : List (List Char)}

/-- A small letter or a digit, of ASCII. -/
def IsWordChar (c : Char) : Prop :=
  c.isLower ∨ c.isDigit

/-- A directive: a word at the start of the line, a colon, and one more character of a word right
after it. -/
def IsDirective (line : List Char) : Prop :=
  ∃ word c rest, line = word ++ ':' :: c :: rest ∧ word ≠ [] ∧ (∀ d ∈ word, IsWordChar d) ∧
    IsWordChar c

/-- A line of blanks only, or of nothing. -/
def isBlankLine (line : List Char) : Bool :=
  line.all Text.isBlank

/-- Lines as one text, without the blanks at their ends. -/
def joined (body : List (List Char)) : String :=
  .ofList (List.intercalate ['\n'] (body.map Text.trimEnd))

/-! ## Directives -/

theorem isDirective_iff : isDirective line ↔ IsDirective line := by
  constructor
  · intro h
    unfold isDirective at h
    cases hsplit : Text.splitAtFirst ':' line with
    | none => simp [hsplit] at h
    | some parts =>
      obtain ⟨word, rest⟩ := parts
      obtain ⟨rfl, -⟩ := Text.splitAtFirst_eq_some_iff.1 hsplit
      cases rest with
      | nil => simp [hsplit] at h
      | cons c rest =>
        have hparts : (¬word = [] ∧ ∀ d ∈ word, IsWordChar d) ∧ IsWordChar c := by
          simpa [hsplit, IsWordChar] using h
        exact ⟨word, c, rest, rfl, hparts.1.1, hparts.1.2, hparts.2⟩
  · rintro ⟨word, c, rest, rfl, hne, hword, hc⟩
    have hcolon : ':' ∉ word := fun hmem => absurd (hword ':' hmem) (by unfold IsWordChar; decide)
    have hsplit := Text.splitAtFirst_append hcolon (c :: rest)
    simpa [isDirective, hsplit, IsWordChar] using ⟨⟨hne, hword⟩, hc⟩

instance : DecidablePred IsDirective := fun _ => decidable_of_iff _ isDirective_iff

theorem IsWordChar.not_blank {c : Char} (h : IsWordChar c) : Text.isBlank c = false := by
  apply Text.isBlank_of_isAlphanum
  rw [Text.isAlphanum_iff, Text.isAlpha_iff]
  rcases h with h | h <;> simp [h]

/-- The blanks at the end of a line have no part in it. -/
theorem isDirective_trimEnd : IsDirective (Text.trimEnd line) ↔ IsDirective line := by
  constructor
  · rintro ⟨word, c, rest, h, hdirective⟩
    obtain ⟨blanks, hline⟩ := Text.dropEndWhile_isPrefix Text.isBlank line
    refine ⟨word, c, rest ++ blanks, ?_, hdirective⟩
    rw [← hline, ← List.cons_append, ← List.cons_append, ← List.append_assoc, ← h]
    rfl
  · rintro ⟨word, c, rest, rfl, hne, hword, hc⟩
    refine ⟨word, c, Text.trimEnd rest, ?_, hne, hword, hc⟩
    have hsplit : word ++ ':' :: c :: rest = (word ++ [':']) ++ c :: rest := by simp
    rw [Text.trimEnd_eq, hsplit, Text.rdropWhile_append_cons hc.not_blank, Text.trimEnd_eq,
      List.append_assoc, List.singleton_append]

/-! ## What is kept -/

/-- The lines of a comment that are no directives. -/
def keptLines (text : String) : List (List Char) :=
  (Text.lines text.toList).filter (¬IsDirective ·)

theorem isEmpty_trimEnd : (Text.trimEnd line).isEmpty = isBlankLine line := by
  rw [Bool.eq_iff_iff, List.isEmpty_iff, Text.trimEnd_eq, List.rdropWhile_eq_nil_iff, isBlankLine,
    List.all_eq_true]

theorem isBlankLine_trimEnd : isBlankLine (Text.trimEnd line) = isBlankLine line := by
  rw [← isEmpty_trimEnd, Text.trimEnd_trimEnd, isEmpty_trimEnd]

/-- The lines that are kept, without blank ones at either end. -/
def keptBlock (text : String) : List (List Char) :=
  ((keptLines text).dropWhile isBlankLine).rdropWhile isBlankLine

/-- Directives and blank lines stay what they are without the blanks at their ends, so these can be
taken off last. -/
theorem clean_eq (text : String) :
    clean text = if keptBlock text = [] then none else some (joined (keptBlock text)) := by
  have hkept : ((Text.lines text.toList).map Text.trimEnd).filter (!isDirective ·) =
      (keptLines text).map Text.trimEnd := by
    rw [List.filter_map, keptLines]
    congr 1
    refine List.filter_congr fun line _ => ?_
    have hdirective : isDirective (Text.trimEnd line) ↔ IsDirective line :=
      isDirective_iff.trans isDirective_trimEnd
    simp [← hdirective]
  have hempty : List.isEmpty ∘ Text.trimEnd = isBlankLine := funext fun _ => isEmpty_trimEnd
  have hblock : Text.dropEndWhile List.isEmpty ((((Text.lines text.toList).map
      Text.trimEnd).filter (!isDirective ·)).dropWhile List.isEmpty) =
      (keptBlock text).map Text.trimEnd := by
    rw [hkept, Text.dropEndWhile_eq_rdropWhile, List.dropWhile_map, Text.rdropWhile_map, hempty,
      keptBlock]
  simp only [clean, hblock]
  cases keptBlock text with
  | nil => rfl
  | cons line rest => rfl

theorem clean_eq_none_iff :
    clean text = none ↔ ∀ line ∈ Text.lines text.toList, isBlankLine line ∨ IsDirective line := by
  have hblank : keptBlock text = [] ↔ ∀ line ∈ keptLines text, isBlankLine line :=
    Text.trimmed_eq_nil_iff
  have hkept : (∀ line ∈ keptLines text, isBlankLine line) ↔
      ∀ line ∈ Text.lines text.toList, isBlankLine line ∨ IsDirective line := by
    simp only [keptLines, List.mem_filter, decide_eq_true_eq, and_imp, or_iff_not_imp_right]
  rw [clean_eq, ← hkept, ← hblank]
  simp

theorem clean_eq_some_iff :
    clean text = some cleaned ↔ ∃ before body after, keptLines text = before ++ body ++ after ∧
      (∀ line ∈ before ++ after, isBlankLine line) ∧ Text.IsTrimmed isBlankLine body ∧ body ≠ [] ∧
      cleaned = joined body := by
  have hblock : clean text = some cleaned ↔
      ∃ body, keptBlock text = body ∧ body ≠ [] ∧ cleaned = joined body := by
    rw [clean_eq]
    by_cases h : keptBlock text = []
    · simp [h]
    · simp [h, eq_comm]
  rw [hblock]
  simp only [keptBlock, Text.trimmed_eq_iff]
  constructor
  · rintro ⟨body, ⟨before, after, hsplit, hblank, hends⟩, hne, rfl⟩
    exact ⟨before, body, after, hsplit, hblank, hends, hne, rfl⟩
  · rintro ⟨before, body, after, hsplit, hblank, hends, hne, rfl⟩
    exact ⟨body, ⟨before, after, hsplit, hblank, hends⟩, hne, rfl⟩

/-! ## Clean comments -/

/-- What is left of a line without a line feed is one that stays a line when it is joined. -/
theorem isBareLine_trimEnd (h : '\n' ∉ line) : Text.IsBareLine (Text.trimEnd line) := by
  rw [Text.trimEnd_eq]
  refine ⟨fun hmem => h ((List.rdropWhile_prefix _ _).mem hmem), fun hlast => ?_⟩
  exact absurd (Text.last_rdropWhile _ _ _ hlast) (by decide)

/-- The lines of a clean comment are those that were kept, without the blanks at their ends. -/
theorem lines_joined (hbody : ∀ line ∈ body, '\n' ∉ line)
    (hends : Text.IsTrimmed isBlankLine body) :
    Text.lines (joined body).toList = body.map Text.trimEnd := by
  rw [joined, String.toList_ofList]
  refine Text.lines_intercalate (List.forall_mem_map.2 fun line hline => ?_) fun hlast => ?_
  · exact isBareLine_trimEnd (hbody line hline)
  · rw [List.getLast?_map] at hlast
    obtain ⟨line, hline, hnil⟩ := Option.map_eq_some_iff.1 hlast
    have hblank := hends.last line hline
    rw [← isEmpty_trimEnd, hnil] at hblank
    cases hblank

theorem clean_cleaned (h : clean text = some cleaned) : clean cleaned = some cleaned := by
  obtain ⟨before, body, after, hkept, -, hends, hne, rfl⟩ := clean_eq_some_iff.1 h
  have hline : ∀ line ∈ body, line ∈ Text.lines text.toList ∧ ¬IsDirective line := by
    intro line hmem
    have hmem : line ∈ keptLines text := by
      rw [hkept]
      simp [hmem]
    simpa [keptLines] using hmem
  have hlines := lines_joined (fun line hmem => Text.lineFeed_not_mem (hline line hmem).1) hends
  have hkept' : keptLines (joined body) = body.map Text.trimEnd := by
    rw [keptLines, hlines, List.filter_eq_self, List.forall_mem_map]
    intro line hmem
    simpa [isDirective_trimEnd] using (hline line hmem).2
  have hsame : isBlankLine ∘ Text.trimEnd = isBlankLine := funext fun _ => isBlankLine_trimEnd
  have hidem : Text.trimEnd ∘ Text.trimEnd = Text.trimEnd := funext Text.trimEnd_trimEnd
  have hends' : Text.IsTrimmed isBlankLine (body.map Text.trimEnd) := .map (by rwa [hsame])
  refine clean_eq_some_iff.2
    ⟨[], body.map Text.trimEnd, [], by simp [hkept'], by simp, hends', by simpa, ?_⟩
  rw [joined, joined, List.map_map, hidem]

/-- A comment is gone exactly if all of its lines are blank or directives. Otherwise its lines
without the directives are a block that neither starts nor ends with a blank line, with nothing but
blank lines before and after it, and the block is what is left, every line without the blanks at its
end. A comment that has been cleaned is left as it is. -/
theorem clean_lines (text : String) :
    (clean text = none ↔ ∀ line ∈ Text.lines text.toList, isBlankLine line ∨ IsDirective line) ∧
    (∀ cleaned, clean text = some cleaned ↔ ∃ before body after,
      (Text.lines text.toList).filter (¬IsDirective ·) = before ++ body ++ after ∧
      (∀ line ∈ before ++ after, isBlankLine line) ∧ Text.IsTrimmed isBlankLine body ∧ body ≠ [] ∧
      cleaned = joined body) ∧
    (clean text).bind clean = clean text := by
  refine ⟨clean_eq_none_iff, fun _ => clean_eq_some_iff, ?_⟩
  cases h : clean text with
  | none => rfl
  | some cleaned => exact clean_cleaned h

example : clean "\n  Kept  \r\n\nlint:ignore\n \n" = some "  Kept" := by decide +kernel

end WireTypes.Package.Comment
