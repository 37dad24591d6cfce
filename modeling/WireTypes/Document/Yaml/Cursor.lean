/-!
# Positions in YAML texts

The characters of a YAML text with line ends of one kind, and a position in them by line and column.
-/

set_option autoImplicit false

namespace WireTypes.Document.Yaml

/-- Characters that a YAML text may contain as they are. -/
def isPrintable (c : Char) : Bool :=
  c = '\t' || c = '\n' || c = '\r' || (' ' ≤ c && c ≤ '~') || c = '\u0085' ||
    ('\u00a0' ≤ c && c.toNat ≤ 0xFFFD) || 0x10000 ≤ c.toNat

/-- Turns carriage returns, with or without a line feed, and next-line characters into line feeds.
Fails on characters that are not printable. -/
def normalize? : List Char → Option (List Char)
  | [] => some []
  | '\r' :: '\n' :: rest => (normalize? rest).map ('\n' :: ·)
  | c :: rest =>
    if !isPrintable c then none
    else
      let c := if c = '\r' ∨ c = '\u0085' then '\n' else c
      (normalize? rest).map (c :: ·)

/-- A line end: a line feed, or a separator of lines or of paragraphs. -/
def isBreak (c : Char) : Bool :=
  c = '\n' || c = '\u2028' || c = '\u2029'

/-- A blank within a line. -/
def isSpace (c : Char) : Bool :=
  c = ' ' || c = '\t'

/-- A text that goes on with a blank or a line end, or does not go on. -/
def atGap : List Char → Bool
  | [] => true
  | c :: _ => isSpace c || isBreak c

/-- What is left of a text, and the line and the column where it starts, counted from zero. -/
structure Cursor where
  rest : List Char
  line : Nat
  column : Nat
deriving Repr

namespace Cursor

/-- The cursor after one character. -/
def step (c : Cursor) : Cursor :=
  match c.rest with
  | [] => c
  | x :: rest =>
    if isBreak x then ⟨rest, c.line + 1, 0⟩ else ⟨rest, c.line, c.column + 1⟩

/-- The cursor after `n` characters. -/
def skip (c : Cursor) : Nat → Cursor
  | 0 => c
  | n + 1 => c.step.skip n

/-- The cursor where the text goes on with `rest`, which must be the end of its text. -/
def moveTo (c : Cursor) (rest : List Char) : Cursor :=
  c.skip (c.rest.length - rest.length)

end Cursor

/-- Three dots or three dashes, with a gap after them, are the marks around documents at the start
of a line. -/
def startsWithMark (mark : Char) : List Char → Bool
  | a :: b :: c :: rest => a = mark && b = mark && c = mark && atGap rest
  | _ => false

/-- A mark of either kind. -/
def startsWithAnyMark (cs : List Char) : Bool :=
  startsWithMark '-' cs || startsWithMark '.' cs

end WireTypes.Document.Yaml
