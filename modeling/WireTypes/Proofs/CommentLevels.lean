import WireTypes.Proofs.Dependence

/-!
# Comment levels

A level is as good as taking the comments that it drops out of the input: what is written at a lower
level is what is written at the highest one without these comments, errors included. Nothing else
depends on the level.
-/

set_option autoImplicit false

namespace WireTypes

/-- A section without comments: none on types and constants, and none on members at any depth. -/
def Section.withoutComments (s : Section) : Section :=
  s.mapComments (fun _ => none) (fun _ => none)

/-- A section without the comments at the end of constants, and with all others. -/
def Section.withoutConstComments (s : Section) : Section :=
  s.mapComments id (fun _ => none)

namespace Code

variable {f g : Option String → Option String}

theorem Comment.shown_false (text : Option String) : shown false text = none := by
  cases text with
  | none => rfl
  | some text => rfl

/-- Changed comments make up for another level when the same ones are shown. -/
theorem generate_level (l l' : CommentLevel)
    (hdocs : ∀ text, Comment.shown l'.hasDocs (f text) = Comment.shown l.hasDocs text)
    (hinline : ∀ text, Comment.shown l'.hasInline (f text) = Comment.shown l.hasInline text)
    (hconst : ∀ text,
      Comment.shown l'.hasConstInline (g text) = Comment.shown l.hasConstInline text)
    (options : Options) (sections : List Section) :
    generate { options with comments := l } sections =
      generate { options with comments := l' } (sections.map (Section.mapComments f g)) := by
  have ho : Options.MapAlike f { options with comments := l } { options with comments := l' } :=
    ⟨rfl, rfl, rfl, hdocs, hinline⟩
  have hgroup : Options.GroupAlike { options with comments := l } { options with comments := l' } :=
    ⟨rfl, rfl, rfl⟩
  exact (generate_congr ho hgroup rfl rfl hconst fun _ _ _ _ _ _ => rfl).symm

theorem generate_commentLevels (options : Options) (sections : List Section) :
    generate { options with comments := .none } sections =
        generate { options with comments := .all } (sections.map Section.withoutComments) ∧
      generate { options with comments := .types } sections =
        generate { options with comments := .all } (sections.map Section.withoutConstComments) := by
  have hnone (keep : Bool) (text : Option String) :
      Comment.shown keep none = Comment.shown false text := (Comment.shown_false text).symm
  constructor
  · exact generate_level .none .all (hnone true) (hnone true) (hnone true) options
      sections
  · exact generate_level .types .all (fun _ => rfl) (fun _ => rfl) (hnone true)
      options sections

end Code

end WireTypes
