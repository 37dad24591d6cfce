import WireTypes.Package.Tag
import WireTypes.Text.Slice

/-!
# Struct tags, read by offsets

`Tag.read` as a loop over a text that is cut at byte offsets. A cut inside a character, or beyond
the end of the text, and a loop that does not come to its end have no result (`none`). `Tag.read`
reads the same without offsets; `readIn?_eq` in `Proofs/TagGrammar` says that they agree.
-/

set_option autoImplicit false

namespace WireTypes.Package.Tag

/-- Goes over characters up to the closing quote: the value without its escapes, put after `value`,
and the offset of the quote, where the first character is at `offset`. -/
def closing? : List Char → Nat → List Char → Option (List Char × Nat)
  | [], _, _ => none
  | '\x22' :: _, offset, value => some (value, offset)
  | '\\' :: c :: rest, offset, value =>
    closing? rest (offset + '\\'.utf8Size + c.utf8Size) (value ++ [unescape c])
  | '\\' :: [], _, _ => none
  | c :: rest, offset, value => closing? rest (offset + c.utf8Size) (value ++ [c])

/-- `quoted?` by offsets: the text is cut behind the closing quote. -/
def quotedBy? (input : List Char) : Option (Option (List Char × List Char)) :=
  match closing? input 0 [] with
  | none => some none
  | some (value, offset) => (Text.cut? (offset + 1) input).map fun (_, rest) => some (value, rest)

/-- `pair?` by offsets: the text is cut where its key ends. -/
def pairBy? (cs : List Char) : Option (Except TagError (String × List Char × List Char)) := do
  let keyEnd := (Text.findOffset? (!isKeyChar ·) cs).getD (Text.byteSize cs)
  let (key, rest) ← Text.cut? keyEnd cs
  let key := String.ofList key
  if key.isEmpty then return throw (.missingKey (.ofList rest))
  let some rest := Text.strip? ':' rest | return throw (.missingColon key)
  let some input := Text.strip? '\x22' rest | return throw (.unquoted key)
  match ← quotedBy? input with
  | some (value, rest) => return pure (key, value, rest)
  | none => return throw (.unterminated key)

/-- `readPairs` in a number of rounds, by offsets. -/
def readPairsIn? : Nat → List Char → List TagPair → Option (Except TagError (List TagPair))
  | 0, _, _ => none
  | rounds + 1, cs, before =>
    let cs' := cs.dropWhile (· = ' ')
    if cs'.isEmpty then some (pure before)
    else do
      match ← pairBy? cs' with
      | .error e => return throw e
      | .ok (key, value, rest) =>
        if before.any (·.key = key) then return throw (.duplicateKey key)
        readPairsIn? rounds rest (before ++ [.ofValue key value])

/-- `read` in a number of rounds, by offsets. -/
def readIn? (rounds : Nat) (raw : String) : Option (Except TagError Tag) :=
  (readPairsIn? rounds (stripBackQuotes (Text.trim raw.toList)) []).map (·.map Tag.mk)

end WireTypes.Package.Tag
