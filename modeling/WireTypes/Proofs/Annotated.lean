import WireTypes.Proofs.Dependence
import WireTypes.Proofs.Lines

/-!
# Texts with comments put in

`Annotated ns t u`: the text `u` is the text `t` with comments put in where they are read as
comments, and `ns` has the texts of its line comments in order. Texts put together keep it
(`Annotated.append`, `Annotated.joinM`).

* `Comment.exists_mem_note_iff`: the line ends that are left in a comment at the end of a line are
  those that stand inside of a line of its text.
-/

set_option autoImplicit false

namespace WireTypes.Code

/-! ## Texts of comments -/

namespace Comment

/-- What a comment at the end of a line has after its slashes; none when its text is blank. -/
def note? (text : String) : Option String :=
  match ((Text.lines text.toList).map Text.trim).filter (!·.isEmpty) with
  | [] => none
  | parts => some (" " ++ .ofList (List.intercalate [' '] parts))

theorem inline_eq (text : String) :
    inline text = match note? text with
      | some n => " //" ++ n
      | none => "" := by
  unfold inline note?
  cases ((Text.lines text.toList).map Text.trim).filter (!·.isEmpty) with
  | nil => rfl
  | cons part rest =>
    show " // " ++ _ = " //" ++ (" " ++ _)
    rw [← String.append_assoc]
    rfl

theorem mem_intercalate {c sep : Char} (hc : c ≠ sep) (parts : List (List Char)) :
    c ∈ List.intercalate [sep] parts ↔ ∃ part ∈ parts, c ∈ part := by
  induction parts with
  | nil => simp [List.intercalate]
  | cons part rest ih =>
    cases rest with
    | nil => simp [List.intercalate]
    | cons part' rest =>
      rw [List.intercalate_cons_cons, List.mem_append, List.mem_append, ih]
      simp [hc]

/-- The line ends in a comment are those that its text has inside of a line. -/
theorem exists_mem_note_iff {c : Char} (hc : Text.isLineEnd c) (text : String) :
    (∃ n, note? text = some n ∧ c ∈ n.toList) ↔
      ∃ line ∈ Text.lines text.toList, Text.Encloses line c := by
  have hblank : c ≠ ' ' := by
    rintro rfl
    cases hc
  have hpart : (∃ part ∈ ((Text.lines text.toList).map Text.trim).filter (!·.isEmpty), c ∈ part) ↔
      ∃ line ∈ Text.lines text.toList, Text.Encloses line c := by
    simp only [List.mem_filter, List.mem_map, ← Text.mem_trim_iff (Text.isBlank_of_isLineEnd hc)]
    constructor
    · rintro ⟨_, ⟨⟨line, hline, rfl⟩, -⟩, hmem⟩
      exact ⟨line, hline, hmem⟩
    · rintro ⟨line, hline, hmem⟩
      exact ⟨_, ⟨⟨line, hline, rfl⟩, by simpa using List.ne_nil_of_mem hmem⟩, hmem⟩
  rw [← hpart, ← mem_intercalate hblank]
  unfold note?
  split
  · rename_i hnil
    simp [hnil, List.intercalate]
  · simp [String.toList_append, hblank]

end Comment

/-! ## Texts with comments put in -/

/-- The second text is the first one with comments put in: documentation blocks, lines that are
comments, comments in front of line feeds, and the names of files in banners. The list has the texts
of the line comments that are put in, in order. -/
inductive Annotated : List String → String → String → Prop
  | nil : Annotated [] "" ""
  | code {ns : List String} {t u : String} (common : String) (h : Annotated ns t u) :
      Annotated ns (common ++ t) (common ++ u)
  | block {ns : List String} {t u : String} (text : String) (depth width : Nat)
      (h : Annotated ns t u) : Annotated ns t (Comment.docBlock text depth width ++ u)
  | line {ns : List String} {t u : String} (n : String) (h : Annotated ns t u) :
      Annotated (n :: ns) t ("//" ++ n ++ "\n" ++ u)
  | atEnd {ns : List String} {t u : String} (n : String) (h : Annotated ns t u) :
      Annotated (n :: ns) ("\n" ++ t) (" //" ++ n ++ "\n" ++ u)
  | banner {ns : List String} {t u : String} (file : String) (h : Annotated ns t u) :
      Annotated ((" source: " ++ file) :: ns) ("// source: \n" ++ t)
        ("// source: " ++ file ++ "\n" ++ u)

namespace Annotated

variable {ns ms : List String} {t u t' u' : String}

theorem refl (t : String) : Annotated [] t t := by
  have h := Annotated.code t .nil
  rwa [String.append_empty] at h

theorem append (h : Annotated ns t u) (h' : Annotated ms t' u') :
    Annotated (ns ++ ms) (t ++ t') (u ++ u') := by
  induction h with
  | nil => rwa [String.empty_append, String.empty_append]
  | code common _ ih =>
    rw [String.append_assoc, String.append_assoc]
    exact .code common ih
  | block text depth width _ ih =>
    rw [String.append_assoc]
    exact .block text depth width ih
  | line n _ ih =>
    rw [String.append_assoc]
    exact .line n ih
  | atEnd n _ ih =>
    rw [String.append_assoc, String.append_assoc]
    exact .atEnd n ih
  | banner file _ ih =>
    rw [String.append_assoc, String.append_assoc]
    exact .banner file ih

/-- The same text behind both. -/
theorem before (h : Annotated ns t u) (common : String) :
    Annotated ns (t ++ common) (u ++ common) := by
  have h' := h.append (.refl common)
  rwa [List.append_nil] at h'

theorem join {α : Type} {notes : α → List String} {f g : α → String} {xs : List α}
    (h : ∀ x ∈ xs, Annotated (notes x) (f x) (g x)) :
    Annotated (xs.flatMap notes) (String.join (xs.map f)) (String.join (xs.map g)) := by
  induction xs with
  | nil => exact .nil
  | cons x rest ih =>
    rw [List.flatMap_cons, List.map_cons, List.map_cons, String.join_cons, String.join_cons]
    exact (h x List.mem_cons_self).append (ih fun x hx => h x (List.mem_cons_of_mem _ hx))

/-- Texts made one after the other and joined. -/
theorem joinM {α : Type} {notes : α → List String} {f g : α → Except Error String} {xs : List α}
    (h : ∀ x ∈ xs, Agree Eq (Annotated (notes x)) (f x) (g x)) :
    Agree Eq (fun ts us => Annotated (xs.flatMap notes) (String.join ts) (String.join us))
      (xs.mapM f) (xs.mapM g) := by
  induction xs with
  | nil => exact .ok .nil
  | cons x rest ih =>
    rw [List.mapM_cons, List.mapM_cons]
    refine (h x List.mem_cons_self).bind fun t u ht => ?_
    refine (ih fun x hx => h x (List.mem_cons_of_mem _ hx)).bind fun ts us hts => .ok ?_
    rw [List.flatMap_cons, String.join_cons, String.join_cons]
    exact ht.append hts

theorem docBlock? (keep : Bool) (doc : Option String) (depth width : Nat) (h : Annotated ns t u) :
    Annotated ns (Comment.docBlock? false doc depth width ++ t)
      (Comment.docBlock? keep doc depth width ++ u) := by
  cases doc with
  | none => exact .code "" h
  | some text =>
    cases keep with
    | false => exact .code "" h
    | true =>
      have h' := Annotated.block text depth width h
      have ht : "" ++ t = t := String.empty_append
      rwa [← ht] at h'

end Annotated

/-- The second text is the first one with comments put in, the line comments made of `texts`. -/
abbrev Shows (texts : List String) (t u : String) : Prop :=
  Annotated (texts.filterMap Comment.note?) t u

namespace Shows

variable {texts more : List String} {t u t' u' : String}

theorem append (h : Shows texts t u) (h' : Shows more t' u') :
    Shows (texts ++ more) (t ++ t') (u ++ u') := by
  unfold Shows
  rw [List.filterMap_append]
  exact Annotated.append h h'

/-- The end of a line, with its comment as far as it is shown. -/
theorem lineEnd (keep : Bool) (comment : Option String) :
    Shows (Comment.shown keep comment).toList (Comment.inline? false comment ++ "\n")
      (Comment.inline? keep comment ++ "\n") := by
  cases comment with
  | none => exact .refl "\n"
  | some text =>
    cases keep with
    | false => exact .refl "\n"
    | true =>
      show Annotated ([text].filterMap Comment.note?) ("" ++ "\n") (Comment.inline text ++ "\n")
      rw [Comment.inline_eq, String.empty_append, List.filterMap_cons]
      cases Comment.note? text with
      | none => exact .refl "\n"
      | some n =>
        have h := Annotated.atEnd n .nil
        rwa [String.append_empty, String.append_empty] at h

theorem join {α : Type} {shown : α → List String} {f g : α → String} {xs : List α}
    (h : ∀ x ∈ xs, Shows (shown x) (f x) (g x)) :
    Shows (xs.flatMap shown) (String.join (xs.map f)) (String.join (xs.map g)) := by
  unfold Shows
  rw [List.filterMap_flatMap]
  exact Annotated.join h

theorem joinM {α : Type} {shown : α → List String} {f g : α → Except Error String} {xs : List α}
    (h : ∀ x ∈ xs, Agree Eq (Shows (shown x)) (f x) (g x)) :
    Agree Eq (fun ts us => Shows (xs.flatMap shown) (String.join ts) (String.join us)) (xs.mapM f)
      (xs.mapM g) := by
  unfold Shows
  rw [List.filterMap_flatMap]
  exact Annotated.joinM h

end Shows

end WireTypes.Code
