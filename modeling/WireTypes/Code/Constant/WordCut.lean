import WireTypes.Code.Constant.SharedWords
import WireTypes.Text.Slice

/-!
# Shared words, by offsets

`sharedWords?` as a search over the byte offsets of the first name's characters, with names that are
cut at these offsets. A cut outside of a name or inside of one of its characters has no result
(`none`). `sharedWordsIn?_eq` in `Proofs/SharedWords` says that the search needs no such cut, and
finds the same.
-/

set_option autoImplicit false

namespace WireTypes.Code

/-- The offsets of characters of which the first one is at `offset`. -/
def charOffsets (offset : Nat) : List Char → List Nat
  | [] => []
  | c :: cs => offset :: charOffsets (offset + c.utf8Size) cs

/-- `breaksAt` by offset. -/
def breaksIn? (name : List Char) (offset : Nat) : Option Bool :=
  (Text.cut? offset name).map fun (start, rest) =>
    match start.getLast?, rest.head? with
    | some before, some after => isWordBreak before after
    | _, _ => false

/-- Whether a name starts like `first` up to an offset and splits into two words there. The texts
are compared only if the offset lies in the name, and not inside of a character. -/
def startsAlikeIn? (first : List Char) (offset : Nat) (name : List Char) : Option Bool :=
  if offset < Text.byteSize name ∧ (Text.cut? offset name).isSome then do
    let (start, _) ← Text.cut? offset name
    let (start', _) ← Text.cut? offset first
    if start = start' then breaksIn? name offset else pure false
  else pure false

/-- `longestCut?` by offsets, from the last one to the first. -/
def longestCutIn? (first : List Char) (names : List (List Char)) : Option (Option Nat) :=
  ((charOffsets 0 first).filter (0 < ·)).reverse.findM? fun offset =>
    names.allM (startsAlikeIn? first offset)

/-- `sharedWords?` by offsets. -/
def sharedWordsIn? (names : List String) : Option (Option String) :=
  match names.map String.toList with
  | [] => some none
  | first :: rest => do
    match ← longestCutIn? first (first :: rest) with
    | none => pure none
    | some offset => do
      let (start, _) ← Text.cut? offset first
      let shared := Text.dropEndWhile (· = '_') start
      pure (if shared.head?.any Text.isUppercase then some (.ofList shared) else none)

end WireTypes.Code
