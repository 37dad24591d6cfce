import WireTypes.Text.Blank
import WireTypes.Text.Pieces

/-!
# Struct tags

A tag is a sequence of pairs of a key and a quoted value, with spaces between and around them. The
value is a name followed by options, with commas between.
-/

set_option autoImplicit false

namespace WireTypes.Package

/-- A pair of a struct tag. -/
structure TagPair where
  key : String
  name : String
  options : List String
deriving Repr, DecidableEq, Inhabited

namespace TagPair

/-- Whether a pair has an option. -/
def has (p : TagPair) (option : String) : Bool :=
  p.options.contains option

/-- The name `-` on its own leaves the field out. -/
def leavesOut (p : TagPair) : Bool :=
  p.name = "-" && p.options.isEmpty

/-- Cuts an unquoted value at its commas. -/
def ofValue (key : String) (value : List Char) : TagPair :=
  match (Text.splitAtEach ',' value).map String.ofList with
  | [] => { key, name := "", options := [] }
  | name :: options => { key, name, options }

end TagPair

/-- A struct tag, as its pairs in order. -/
structure Tag where
  pairs : List TagPair
deriving Repr, DecidableEq, Inhabited

/-- Why a text is not a struct tag. -/
inductive TagError where
  | missingKey (rest : String)
  | missingColon (key : String)
  | unquoted (key : String)
  | unterminated (key : String)
  | duplicateKey (key : String)
deriving Repr, DecidableEq

/-- The wording of an error. -/
def TagError.message : TagError → String
  | .missingKey rest => s!"expected a key at `{rest}`"
  | .missingColon key => s!"missing `:` after key `{key}`"
  | .unquoted key => s!"value of `{key}` is not quoted"
  | .unterminated key => s!"unterminated value for `{key}`"
  | .duplicateKey key => s!"duplicate key `{key}`"

namespace Tag

/-- Characters of a key: above the space, and neither a colon, a double quote nor the delete
character. -/
def isKeyChar (c : Char) : Bool :=
  !(c ≤ ' ' || c = ':' || c = '\x22' || c = '\x7f')

/-- What a backslash and a character stand for. -/
def unescape : Char → Char
  | 'n' => '\n'
  | 't' => '\t'
  | 'r' => '\r'
  | c => c

/-- Reads up to the closing quote: the value without its escapes, and the rest after the quote. -/
def quoted? : List Char → Option (List Char × List Char)
  | [] => none
  | '\x22' :: rest => some ([], rest)
  | '\\' :: c :: rest => (quoted? rest).map fun (value, rest) => (unescape c :: value, rest)
  | '\\' :: [] => none
  | c :: rest => (quoted? rest).map fun (value, rest) => (c :: value, rest)

theorem length_quoted? {cs value rest : List Char} (h : quoted? cs = some (value, rest)) :
    rest.length < cs.length := by
  fun_induction quoted? cs generalizing value rest with
  | case1 => simp at h
  | case2 r => cases h; simp
  | case3 c r ih =>
    obtain ⟨⟨v, t⟩, hq, he⟩ := Option.map_eq_some_iff.mp h
    cases he
    have := ih hq
    simp only [List.length_cons]
    omega
  | case4 => simp at h
  | case5 c r _ _ _ ih =>
    obtain ⟨⟨v, t⟩, hq, he⟩ := Option.map_eq_some_iff.mp h
    cases he
    have := ih hq
    simp only [List.length_cons]
    omega

/-- Reads one pair at the start of a text: its key, its value and the rest. -/
def pair? (cs : List Char) : Except TagError (String × List Char × List Char) :=
  let key := String.ofList (cs.takeWhile isKeyChar)
  let rest := cs.dropWhile isKeyChar
  if key.isEmpty then throw (.missingKey (.ofList rest))
  else
    match rest with
    | ':' :: '\x22' :: rest =>
      match quoted? rest with
      | some (value, rest) => pure (key, value, rest)
      | none => throw (.unterminated key)
    | ':' :: _ => throw (.unquoted key)
    | _ => throw (.missingColon key)

theorem length_pair? {cs value rest : List Char} {key : String}
    (h : pair? cs = .ok (key, value, rest)) : rest.length < cs.length := by
  have hle : (cs.dropWhile isKeyChar).length ≤ cs.length := (List.dropWhile_sublist _).length_le
  unfold pair? at h
  simp only at h
  split at h
  · cases h
  · split at h
    · rename_i r hr
      split at h
      · rename_i v t hq
        cases h
        have := length_quoted? hq
        simp only [hr, List.length_cons] at hle
        omega
      · cases h
    · cases h
    · cases h

/-- Reads pairs up to the end, given the pairs before. -/
def readPairs (cs : List Char) (before : List TagPair) : Except TagError (List TagPair) :=
  let cs' := cs.dropWhile (· = ' ')
  if cs'.isEmpty then pure before
  else
    match h : pair? cs' with
    | .error e => throw e
    | .ok (key, value, rest) =>
      if before.any (·.key = key) then throw (.duplicateKey key)
      else readPairs rest (before ++ [.ofValue key value])
termination_by cs.length
decreasing_by
  have h₁ := length_pair? h
  have h₂ : cs'.length ≤ cs.length := (List.dropWhile_sublist _).length_le
  omega

/-- Takes off one pair of enclosing back quotes, if there is one. -/
def stripBackQuotes (cs : List Char) : List Char :=
  match cs with
  | '\x60' :: rest => if rest.getLast? = some '\x60' then rest.dropLast else cs
  | _ => cs

/-- Reads a tag. Blanks around it and the back quotes of the Go source do not count. -/
def read (raw : String) : Except TagError Tag :=
  (readPairs (stripBackQuotes (Text.trim raw.toList)) []).map Tag.mk

/-- The pair with a key. -/
def get? (t : Tag) (key : String) : Option TagPair :=
  t.pairs.find? (·.key = key)

end Tag

end WireTypes.Package
