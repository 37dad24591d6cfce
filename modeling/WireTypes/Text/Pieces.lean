/-!
# Texts in pieces

Cutting a text at a character, at line ends, and putting pieces together again.
-/

set_option autoImplicit false

namespace WireTypes.Text

/-- Puts a character in front of the first piece. -/
def consHead (c : Char) : List (List Char) → List (List Char)
  | [] => [[c]]
  | piece :: rest => (c :: piece) :: rest

/-- Cuts at every `sep`. There is always one piece more than there are separators. -/
def splitAtEach (sep : Char) : List Char → List (List Char)
  | [] => [[]]
  | c :: rest => if c = sep then [] :: splitAtEach sep rest else consHead c (splitAtEach sep rest)

/-- Cuts at the first `sep`, if there is one. -/
def splitAtFirst (sep : Char) : List Char → Option (List Char × List Char)
  | [] => none
  | c :: rest =>
    if c = sep then some ([], rest)
    else (splitAtFirst sep rest).map fun (left, right) => (c :: left, right)

theorem splitAtFirst_eq_none_iff {sep : Char} {cs : List Char} :
    splitAtFirst sep cs = none ↔ sep ∉ cs := by
  induction cs with
  | nil => simp [splitAtFirst]
  | cons c rest ih =>
    rw [splitAtFirst, List.mem_cons, not_or]
    split
    · rename_i hc
      simp [hc]
    · rename_i hc
      rw [Option.map_eq_none_iff, ih, and_iff_right (Ne.symm hc)]

/-- What is in front of the first `sep` has none. -/
theorem splitAtFirst_eq_some_iff {sep : Char} {cs left right : List Char} :
    splitAtFirst sep cs = some (left, right) ↔ cs = left ++ sep :: right ∧ sep ∉ left := by
  induction cs generalizing left with
  | nil => simp [splitAtFirst]
  | cons c rest ih =>
    rw [splitAtFirst]
    split
    · rename_i hc
      cases left with
      | nil => simp [hc]
      | cons d left =>
        refine iff_of_false (by simp) ?_
        rintro ⟨he, hd⟩
        exact hd (List.mem_cons.2 (.inl (hc.symm.trans (List.cons.inj he).1)))
    · rename_i hc
      constructor
      · intro h
        obtain ⟨⟨l, r⟩, hsplit, he⟩ := Option.map_eq_some_iff.1 h
        cases he
        obtain ⟨rfl, hl⟩ := ih.1 hsplit
        exact ⟨rfl, by simpa [Ne.symm hc] using hl⟩
      · rintro ⟨he, hleft⟩
        cases left with
        | nil => exact absurd (List.cons.inj he).1 hc
        | cons d left =>
          obtain ⟨rfl, rfl⟩ := List.cons.inj he
          rw [ih.2 ⟨rfl, fun h => hleft (List.mem_cons_of_mem _ h)⟩]
          rfl

theorem splitAtFirst_append {sep : Char} {left : List Char} (h : sep ∉ left) (right : List Char) :
    splitAtFirst sep (left ++ sep :: right) = some (left, right) :=
  splitAtFirst_eq_some_iff.2 ⟨rfl, h⟩

theorem length_splitAtFirst {sep : Char} {cs left right : List Char}
    (h : splitAtFirst sep cs = some (left, right)) : right.length < cs.length := by
  rw [(splitAtFirst_eq_some_iff.1 h).1, List.length_append, List.length_cons]
  omega

/-- The lines of a text. A line ends at a line feed, which takes one carriage return before it
along; text after the last line feed is a line when it is not empty. -/
def lines : List Char → List (List Char)
  | [] => []
  | '\n' :: rest => [] :: lines rest
  | '\r' :: '\n' :: rest => [] :: lines rest
  | c :: rest => consHead c (lines rest)

/-- The text ends with a line feed. -/
def endsLine (s : String) : Bool :=
  s.toList.getLast? == some '\n'

/-- `s`, ended by a line feed unless it has one there. -/
def asLine (s : String) : String :=
  if endsLine s then s else s ++ "\n"

/-- `n` blanks. -/
def spaces (n : Nat) : String :=
  .ofList (List.replicate n ' ')

end WireTypes.Text
