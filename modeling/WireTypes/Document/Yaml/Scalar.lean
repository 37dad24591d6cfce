import WireTypes.Decimal.Text
import WireTypes.Document.Yaml.Cursor

/-!
# Scalars of YAML

Plain, quoted and block scalars. In plain and quoted scalars a line end counts as a blank, and
empty lines count as line ends; a block scalar keeps its line ends or folds them.
-/

set_option autoImplicit false

namespace WireTypes.Document.Yaml

/-! ## Gaps inside a scalar -/

/-- Blanks and line ends between the words of a scalar. -/
structure Gap where
  /-- The blanks before the first line end. -/
  blanks : List Char := []
  /-- There is a line end. -/
  broken : Bool := false
  /-- The first line end, unless it is escaped. -/
  first : Option Char := none
  /-- The line ends after the first. -/
  more : List Char := []
  /-- The blanks after the last line end. -/
  column : Nat := 0
  /-- The least column of a tab after a line end. -/
  tabColumn : Option Nat := none
deriving Repr

namespace Gap

/-- A gap with one more blank. -/
def addSpace (g : Gap) (c : Char) : Gap :=
  if g.broken then
    let least := min g.column (g.tabColumn.getD g.column)
    { g with column := g.column + 1, tabColumn := if c = '\t' then some least else g.tabColumn }
  else { g with blanks := g.blanks ++ [c] }

/-- A gap with one more line end. Blanks in front of a line end do not count. -/
def addBreak (g : Gap) (c : Char) : Gap :=
  if g.broken then { g with more := g.more ++ [c], column := 0 }
  else { g with blanks := [], broken := true, first := some c, column := 0 }

/-- Extends a gap as far as it goes. -/
def scan (g : Gap) : List Char → Gap × List Char
  | [] => (g, [])
  | c :: rest =>
    if isSpace c then (g.addSpace c).scan rest
    else if isBreak c then (g.addBreak c).scan rest
    else (g, c :: rest)

/-- What a gap contributes to the scalar: its blanks; or one blank for a single line feed, and the
further line ends otherwise. Separators of lines stay. -/
def text (g : Gap) : List Char :=
  if !g.broken then g.blanks
  else
    match g.first with
    | some '\n' => if g.more.isEmpty then [' '] else g.more
    | some c => c :: g.more
    | none => g.more

end Gap

/-! ## Plain scalars -/

/-- Characters that end a plain scalar inside brackets. -/
def isFlowMark (c : Char) : Bool :=
  c = ',' || c = '[' || c = ']' || c = '\x7b' || c = '\x7d'

/-- The characters of a plain scalar up to a gap or its end, and the rest. Inside brackets a colon
must not stand in front of a mark. -/
def plainWord? (flow : Bool) : List Char → Option (List Char × List Char)
  | [] => some ([], [])
  | c :: rest =>
    if isSpace c || isBreak c then some ([], c :: rest)
    else if flow && c = ':' && rest.head?.any (fun d => isFlowMark d || d = '?') then none
    else if c = ':' && atGap rest then some ([], c :: rest)
    else if flow && isFlowMark c then some ([], c :: rest)
    else (plainWord? flow rest).map fun (word, rest) => (c :: word, rest)

/-- A scalar that was read: its text, what follows it, and whether the gap after it has a line
end. -/
structure Scanned where
  text : List Char
  rest : List Char
  broken : Bool
deriving Repr

/-- A plain scalar that goes on after `before` and the gap `g`. It ends at a comment, at a mark of
a document, at a mark of its surroundings, or where a line is indented by less than `indent`. -/
def plainAfter? (flow : Bool) (indent : Nat) : Nat → List Char → Gap → List Char → Option Scanned
  | 0, _, _, _ => none
  | steps + 1, before, g, cs =>
    let ended : Scanned := ⟨before, cs, g.broken⟩
    if g.broken && g.column = 0 && startsWithAnyMark cs then some ended
    else if cs.head? = some '#' then some ended
    else do
      let (word, rest) ← plainWord? flow cs
      if word.isEmpty then some ended
      else
        let before := before ++ g.text ++ word
        let (g, rest') := Gap.scan {} rest
        if rest'.length = rest.length then some ⟨before, rest, false⟩
        else if g.tabColumn.any (· < indent) then none
        else if !flow && g.broken && g.column < indent then some ⟨before, rest', true⟩
        else plainAfter? flow indent steps before g rest'

/-- The plain scalar at the start of a text. -/
def plain? (flow : Bool) (indent : Nat) (cs : List Char) : Option Scanned :=
  plainAfter? flow indent (cs.length + 1) [] {} cs

/-! ## Quoted scalars -/

/-- What ends a stretch of a quoted scalar: the closing quote, a gap, or an escaped line end. -/
inductive Stop where
  | closed | gap | escapedBreak
deriving Repr, DecidableEq

/-- The character of a short escape between double quotes. -/
def escape? : Char → Option Char
  | '0' => some '\x00'
  | 'a' => some '\x07'
  | 'b' => some '\x08'
  | 't' => some '\t'
  | '\t' => some '\t'
  | 'n' => some '\n'
  | 'v' => some '\x0b'
  | 'f' => some '\x0c'
  | 'r' => some '\r'
  | 'e' => some '\x1b'
  | ' ' => some ' '
  | '\x22' => some '\x22'
  | '/' => some '/'
  | '\\' => some '\\'
  | 'N' => some '\u0085'
  | '_' => some '\u00a0'
  | 'L' => some '\u2028'
  | 'P' => some '\u2029'
  | _ => none

/-- The number of digits of a numeric escape. -/
def escapeDigits? : Char → Option Nat
  | 'x' => some 2
  | 'u' => some 4
  | 'U' => some 8
  | _ => none

/-- The character with a code, unless the code is that of half a pair or too large. -/
def charOfCode? (n : Nat) : Option Char :=
  if n.isValidChar then some (Char.ofNat n) else none

/-- The character of an escape after its backslash, and the number of characters it takes. -/
def escaped? : List Char → Option (Char × Nat)
  | [] => none
  | c :: rest =>
    match escapeDigits? c with
    | some n =>
      if rest.length < n then none
      else do
        let code ← Decimal.natOfDigits? 16 (rest.take n)
        let c ← charOfCode? code
        some (c, n + 1)
    | none => (escape? c).map fun c => (c, 1)

/-- A stretch of a quoted scalar: its characters, what ends it, and the rest. Between single quotes
the only escape is a quote written twice. -/
def stretch? (double : Bool) : Nat → List Char → Option (List Char × Stop × List Char)
  | 0, _ => none
  | _ + 1, [] => some ([], .gap, [])
  | steps + 1, c :: rest =>
    let after (c : Char) (rest : List Char) : Option (List Char × Stop × List Char) :=
      (stretch? double steps rest).map fun (cs, stop, rest) => (c :: cs, stop, rest)
    if isSpace c || isBreak c then some ([], .gap, c :: rest)
    else if !double && c = '\x27' then
      if rest.head? = some '\x27' then after c rest.tail else some ([], .closed, rest)
    else if double && c = '\x22' then some ([], .closed, rest)
    else if double && c = '\\' then
      if rest.head?.any isBreak then some ([], .escapedBreak, rest.tail)
      else do
        let (c, taken) ← escaped? rest
        after c (rest.drop taken)
    else after c rest

/-- A quoted scalar that goes on after `before`. It must be closed, and no line of it may start with
a mark of a document. -/
def quotedAfter? (double : Bool) (atLineStart : Bool) :
    Nat → List Char → List Char → Option Scanned
  | 0, _, _ => none
  | steps + 1, before, cs =>
    if cs.isEmpty || atLineStart && startsWithAnyMark cs then none
    else do
      let (part, stop, rest) ← stretch? double (cs.length + 1) cs
      let before := before ++ part
      match stop with
      | .closed => some ⟨before, rest, false⟩
      | .gap =>
        let (g, rest) := Gap.scan {} rest
        quotedAfter? double (g.broken && g.column = 0) steps (before ++ g.text) rest
      | .escapedBreak =>
        let (g, rest) := Gap.scan { broken := true } rest
        quotedAfter? double (g.column = 0) steps (before ++ g.text) rest

/-- The quoted scalar whose opening quote precedes a text. -/
def quoted? (double : Bool) (cs : List Char) : Option Scanned :=
  quotedAfter? double false (cs.length + 1) [] cs

/-! ## Block scalars -/

/-- What happens to the line ends at the end of a block scalar: one stays, none, or all. -/
inductive Chomp where
  | clip | strip | keep
deriving Repr, DecidableEq

/-- A chomping indicator. -/
def chomp? : Char → Option Chomp
  | '-' => some .strip
  | '+' => some .keep
  | _ => none

/-- An indentation indicator, from one to nine. -/
def increment? (c : Char) : Option Nat :=
  if c.isDigit && c ≠ '0' then some (c.toNat - 48) else none

/-- The indicators after the mark of a block scalar, in either order: the chomping, the increment
(zero if there is none), and the rest. -/
def indicators? (cs : List Char) : Option (Chomp × Nat × List Char) :=
  let digitAfter (chomp : Chomp) (cs : List Char) : Option (Chomp × Nat × List Char) :=
    match cs with
    | c :: rest =>
      if c.isDigit then (increment? c).map fun n => (chomp, n, rest) else some (chomp, 0, cs)
    | [] => some (chomp, 0, cs)
  match cs with
  | c :: rest =>
    match chomp? c with
    | some chomp => digitAfter chomp rest
    | none => do
      let (chomp, n, rest) ← digitAfter .clip cs
      match if n = 0 then none else rest.head?.bind chomp? with
      | some chomp => some (chomp, n, rest.tail)
      | none => some (chomp, n, rest)
  | [] => some (.clip, 0, [])

/-- The rest after the line of a block scalar's mark, on which a comment may follow. -/
def headerEnd? (cs : List Char) : Option (List Char) :=
  let cs := cs.dropWhile isSpace
  let cs := if cs.head? = some '#' then cs.dropWhile (!isBreak ·) else cs
  match cs with
  | [] => some []
  | c :: rest => if isBreak c then some rest else none

/-- Indentation and empty lines in front of a line of a block scalar. -/
structure Margin where
  /-- The line ends passed. -/
  breaks : List Char
  /-- The blanks before the line. -/
  column : Nat
  /-- The most blanks of a line passed, the line reached included. -/
  widest : Nat
  rest : List Char
deriving Repr

/-- Passes indentation up to `indent`, or all of it when `indent` is zero, and empty lines. A tab
must not take part in the indentation. -/
def margin? (indent : Nat) (breaks : List Char) (column widest : Nat) :
    List Char → Option Margin
  | [] => some ⟨breaks, column, max widest column, []⟩
  | c :: rest =>
    let inside := indent = 0 || column < indent
    if c = ' ' && inside then margin? indent breaks (column + 1) widest rest
    else if c = '\t' && inside then none
    else if isBreak c then margin? indent (breaks ++ [c]) 0 (max widest column) rest
    else some ⟨breaks, column, max widest column, c :: rest⟩

/-- The state between the lines of a block scalar. -/
structure Lines where
  text : List Char := []
  /-- The line end of the last line. -/
  ending : List Char := []
  /-- The last line started with a blank. -/
  spaced : Bool := false

/-- Appends what stands between the last line and the next one. Folding replaces a single line feed
between lines that do not start with a blank. -/
def Lines.joint (l : Lines) (folded : Bool) (breaks : List Char) (nextSpaced : Bool) : List Char :=
  if folded && l.ending = ['\n'] && !l.spaced && !nextSpaced then
    l.text ++ (if breaks.isEmpty then [' '] else []) ++ breaks
  else l.text ++ l.ending ++ breaks

/-- Reads the lines that are indented by `indent`. -/
def blockLines? (folded : Bool) (indent : Nat) : Nat → Lines → Margin → Option (Lines × Margin)
  | 0, _, _ => none
  | steps + 1, l, m =>
    if m.column ≠ indent || m.rest.isEmpty then some (l, m)
    else do
      let spaced := m.rest.head?.any isSpace
      let text := l.joint folded m.breaks spaced ++ m.rest.takeWhile (!isBreak ·)
      let rest := m.rest.dropWhile (!isBreak ·)
      let next ← margin? indent [] 0 0 rest.tail
      blockLines? folded indent steps { text, ending := rest.take 1, spaced } next

/-- The block scalar whose mark precedes a text, inside a collection at column `outer`. Without an
increment the first line that is not empty sets the indentation. -/
def block? (folded : Bool) (outer : Option Nat) (cs : List Char) : Option Scanned := do
  let (chomp, increment, cs) ← indicators? cs
  let cs ← headerEnd? cs
  let given := if increment = 0 then 0 else outer.getD 0 + increment
  let first ← margin? given [] 0 0 cs
  let least := match outer with
    | some column => column + 1
    | none => 1
  let indent := if given = 0 then max (max first.widest least) 1 else given
  let (l, m) ← blockLines? folded indent (cs.length + 2) {} first
  let text := match chomp with
    | .strip => l.text
    | .clip => l.text ++ l.ending
    | .keep => l.text ++ l.ending ++ m.breaks
  some ⟨text, m.rest, true⟩

end WireTypes.Document.Yaml
