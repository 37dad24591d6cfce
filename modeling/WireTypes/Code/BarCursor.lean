import WireTypes.Code.Alternatives
import WireTypes.Text.Slice

/-!
# Alternatives, by offsets

`alternatives` as a loop over the bytes of a text, in which an alternative is the slice from where
it starts to its bar. The loop goes on by one byte, by two behind a backslash, or to what it has
searched for, so it may come to stand inside of a character or beyond the end of the text. A slice
there, and a loop that does not come to its end, are faults. `run_ends` in `Proofs/BarOffsets` says
that no slice is one, and that a scan with enough rounds finds what `alternatives` finds.
-/

set_option autoImplicit false

namespace WireTypes.Code

/-- What can go wrong in a scan by offsets. -/
inductive ScanFault where
  /-- A slice begins or ends where the text cannot be cut, or ends before it begins. -/
  | slice (start stop : Nat)
  /-- A loop has not come to its end in its number of rounds. -/
  | endless
deriving Repr, DecidableEq

/-- The text between two offsets. -/
def sliceOf (text : List Char) (start stop : Nat) : Except ScanFault (List Char) :=
  match Text.slice? start stop text with
  | some part => pure part
  | none => throw (.slice start stop)

/-- The offset of the quote that closes a string, from an offset in the string on. In a string
without one it is the end of the text, or behind the end if the last byte is a backslash. -/
def quoteOffset (text : List Char) (quote : Char) : Nat → Nat → Except ScanFault Nat
  | 0, _ => throw .endless
  | rounds + 1, index =>
    match (Text.bytes text)[index]? with
    | none => pure index
    | some byte =>
      if Char.ofUInt8 byte = quote then pure index
      else quoteOffset text quote rounds
        (if Char.ofUInt8 byte = '\\' then index + 2 else index + 1)

/-- The offset of the last byte of the comment that starts at an offset, or the end of the text. -/
def commentOffset (text : List Char) (index : Nat) : Except ScanFault Nat := do
  let body ← sliceOf text (index + 2) (Text.byteSize text)
  match Text.findText? ['*', '/'] body with
  | none => pure (Text.byteSize text)
  | some offset => pure (index + 2 + offset + 1)

/-- Where a scan by offsets is. -/
structure BarCursor where
  /-- The offset of the byte that is read next. -/
  index : Nat
  /-- The offset at which the alternative around it starts. -/
  start : Nat
  /-- The number of brackets around it. -/
  depth : Nat
  /-- The alternatives before this one. -/
  parts : List (List Char)
deriving Repr, DecidableEq

namespace BarCursor

/-- A round of the scan, at a byte. A string is passed over in a loop of its own. -/
def next (text : List Char) (rounds : Nat) (s : BarCursor) (byte : UInt8) :
    Except ScanFault BarCursor :=
  let c := Char.ofUInt8 byte
  if isOpening c then pure { s with depth := s.depth + 1, index := s.index + 1 }
  else if isClosing c then pure { s with depth := s.depth - 1, index := s.index + 1 }
  else if isQuote c then do
    let index ← quoteOffset text c rounds (s.index + 1)
    pure { s with index := index + 1 }
  else if c = '/' ∧ (Text.bytes text)[s.index + 1]?.map Char.ofUInt8 = some '*' then do
    let index ← commentOffset text s.index
    pure { s with index := index + 1 }
  else if c = '|' ∧ s.depth = 0 then do
    let part ← sliceOf text s.start s.index
    pure { s with parts := s.parts ++ [part], start := s.index + 1, index := s.index + 1 }
  else pure { s with index := s.index + 1 }

/-- The scan from a cursor on. The last alternative goes to the end of the text. -/
def run (text : List Char) : Nat → BarCursor → Except ScanFault (List (List Char))
  | 0, _ => throw .endless
  | rounds + 1, s =>
    match (Text.bytes text)[s.index]? with
    | none => do
      let part ← sliceOf text s.start (Text.byteSize text)
      pure (s.parts ++ [part])
    | some byte => do
      let s' ← s.next text rounds byte
      run text rounds s'

end BarCursor

/-- `alternatives` by offsets, where no loop has more than a number of rounds. -/
def alternativesBy (rounds : Nat) (text : String) : Except ScanFault (List (List Char)) :=
  BarCursor.run text.toList rounds { index := 0, start := 0, depth := 0, parts := [] }

end WireTypes.Code
