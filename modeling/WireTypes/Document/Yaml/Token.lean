import WireTypes.Document.Tree
import WireTypes.Document.Yaml.Scalar

/-!
# Tokens of YAML

The tokens of a YAML text, with marks where block collections start and end. Indentation decides
about the latter. A scalar or collection in front of a colon becomes a key after the fact: where a
key may stand, its place among the tokens is remembered until a colon confirms it or it is too late.
-/

set_option autoImplicit false

namespace WireTypes.Document.Yaml

/-- A token. Anchors are told apart from each other nowhere, because nothing refers to them. -/
inductive Token where
  | documentStart | documentEnd
  | blockListStart | blockTableStart | blockEnd
  | flowListStart | flowListEnd | flowTableStart | flowTableEnd
  /-- A dash in front of an item. -/
  | item
  /-- A comma between brackets. -/
  | comma
  | key | value
  | anchor
  | tag (t : Tag)
  | scalar (text : String) (plain : Bool)
deriving Repr, DecidableEq

/-- A place where a key may have started. A required key must be confirmed: nothing but a key can
stand at that column. -/
structure PendingKey where
  /-- The number of tokens before it. -/
  position : Nat
  line : Nat
  column : Nat
  required : Bool
deriving Repr

/-- The state between two tokens. -/
structure Lexer where
  cursor : Cursor
  /-- The columns of the open block collections, innermost first. -/
  indents : List Nat
  /-- The pending keys of the brackets that are open, innermost first, and of the text around
  them. -/
  keys : List (Option PendingKey)
  /-- Whether a key may start here. -/
  keyAllowed : Bool
  /-- The tokens so far, last first. -/
  tokens : List Token
deriving Repr

namespace Lexer

/-- The lexer at the start of a text. A byte order mark takes up a column. -/
def start (cs : List Char) : Lexer :=
  let cursor : Cursor := ⟨cs, 0, 0⟩
  { cursor := if cs.head? = some '\ufeff' then cursor.step else cursor
    indents := [], keys := [none], keyAllowed := true, tokens := [] }

/-- Inside brackets. -/
def inFlow (l : Lexer) : Bool :=
  1 < l.keys.length

/-- Adds a token, and says whether a key may start after it. -/
def emit (l : Lexer) (t : Token) (keyAllowed : Bool) : Lexer :=
  { l with tokens := t :: l.tokens, keyAllowed }

/-- Puts tokens after the first `position` ones. -/
def insert (l : Lexer) (position : Nat) (ts : List Token) : Lexer :=
  let after := l.tokens.length - position
  { l with tokens := l.tokens.take after ++ ts.reverse ++ l.tokens.drop after }

/-- Consumes `n` characters. -/
def skip (l : Lexer) (n : Nat) : Lexer :=
  { l with cursor := l.cursor.skip n }

def moveTo (l : Lexer) (rest : List Char) : Lexer :=
  { l with cursor := l.cursor.moveTo rest }

/-! ## Pending keys -/

/-- Gives up the pending key of the innermost brackets. A required key cannot be given up. -/
def dropKey? (l : Lexer) : Option Lexer :=
  match l.keys with
  | some key :: rest => if key.required then none else some { l with keys := none :: rest }
  | _ => some l

/-- A key ends on its line, within 1024 characters. -/
def PendingKey.isStale (c : Cursor) (key : PendingKey) : Bool :=
  key.line < c.line || key.column + 1024 < c.column

/-- Gives up the pending keys for which it is too late. -/
def dropStaleKeys? (l : Lexer) : Option Lexer :=
  let isStale (key : Option PendingKey) : Bool := key.any (PendingKey.isStale l.cursor)
  if l.keys.any fun key => isStale key && key.any PendingKey.required then none
  else some { l with keys := l.keys.map fun key => if isStale key then none else key }

/-- Remembers that a key may start here, if one may. -/
def saveKey? (l : Lexer) : Option Lexer :=
  if !l.keyAllowed then some l
  else do
    let l ← l.dropKey?
    let key : PendingKey :=
      { position := l.tokens.length, line := l.cursor.line, column := l.cursor.column
        required := !l.inFlow && l.indents.head? = some l.cursor.column }
    some { l with keys := some key :: l.keys.tail }

/-! ## Block collections -/

/-- Whether a column is to the right of the innermost block collection. -/
def isDeeper (l : Lexer) (column : Nat) : Bool :=
  match l.indents with
  | [] => true
  | indent :: _ => indent < column

/-- Opens a block collection at a column to the right of the innermost one: `start` goes after the
first `position` tokens. -/
def openBlock (l : Lexer) (column position : Nat) (start : Token) : Lexer :=
  if l.inFlow || !l.isDeeper column then l
  else { l.insert position [start] with indents := column :: l.indents }

/-- Closes the block collections to the right of `column`; all of them when there is none. -/
def closeBlocks (l : Lexer) (column : Option Nat) : Lexer :=
  if l.inFlow then l
  else
    let isClosed (indent : Nat) : Bool :=
      match column with
      | some column => column < indent
      | none => true
    let closed := l.indents.takeWhile isClosed
    { l with
      indents := l.indents.dropWhile isClosed
      tokens := closed.map (fun _ => .blockEnd) ++ l.tokens }

/-! ## Between tokens -/

/-- Passes blanks, comments and line ends. A line end outside brackets allows a key; where a key
may start, a tab is no blank. -/
def toToken (flow : Bool) (inComment keyAllowed : Bool) : List Char → Bool × List Char
  | [] => (keyAllowed, [])
  | c :: rest =>
    if isBreak c then toToken flow false (keyAllowed || !flow) rest
    else if inComment then toToken flow true keyAllowed rest
    else if c = '#' then toToken flow true keyAllowed rest
    else if c = ' ' || (c = '\t' && (flow || !keyAllowed)) then toToken flow false keyAllowed rest
    else (keyAllowed, c :: rest)

/-- The lexer at the next token: block collections to the right of it are closed. -/
def advance? (l : Lexer) : Option Lexer := do
  let (keyAllowed, rest) := toToken l.inFlow false l.keyAllowed l.cursor.rest
  let l ← { l.moveTo rest with keyAllowed }.dropStaleKeys?
  some (l.closeBlocks (some l.cursor.column))

/-! ## Tokens -/

/-- A mark around documents. -/
def mark? (l : Lexer) (t : Token) : Option Lexer := do
  let l ← (l.closeBlocks none).dropKey?
  some ((l.skip 3).emit t false)

/-- An opening bracket. It may start a key, and so may what follows it. -/
def openFlow? (l : Lexer) (t : Token) : Option Lexer := do
  let l ← l.saveKey?
  some ({ l.skip 1 with keys := none :: l.keys }.emit t true)

/-- A closing bracket. -/
def closeFlow? (l : Lexer) (t : Token) : Option Lexer := do
  let l ← l.dropKey?
  let keys := if l.inFlow then l.keys.tail else l.keys
  some ({ l.skip 1 with keys }.emit t false)

/-- A comma. -/
def comma? (l : Lexer) : Option Lexer := do
  let l ← l.dropKey?
  some ((l.skip 1).emit .comma true)

/-- A dash in front of an item. -/
def item? (l : Lexer) : Option Lexer := do
  if !l.inFlow && !l.keyAllowed then none
  let l ← (l.openBlock l.cursor.column l.tokens.length .blockListStart).dropKey?
  some ((l.skip 1).emit .item true)

/-- A question mark in front of a key. -/
def key? (l : Lexer) : Option Lexer := do
  if !l.inFlow && !l.keyAllowed then none
  let l ← (l.openBlock l.cursor.column l.tokens.length .blockTableStart).dropKey?
  some ((l.skip 1).emit .key (!l.inFlow))

/-- A colon in front of a value. It confirms the pending key, if there is one. -/
def value? (l : Lexer) : Option Lexer :=
  match l.keys with
  | some key :: rest =>
    let l := (l.insert key.position [.key]).openBlock key.column key.position .blockTableStart
    some ({ l.skip 1 with keys := none :: rest }.emit .value false)
  | _ => do
    if !l.inFlow && !l.keyAllowed then none
    let l := l.openBlock l.cursor.column l.tokens.length .blockTableStart
    some ((l.skip 1).emit .value (!l.inFlow))

/-- A scalar that may be a key. -/
def scalar? (l : Lexer) (plain : Bool) (scan : List Char → Option Scanned) : Option Lexer := do
  let l ← l.saveKey?
  let s ← scan l.cursor.rest
  some ((l.moveTo s.rest).emit (.scalar (.ofList s.text) plain) (plain && s.broken))

/-- A block scalar. A key may follow it. -/
def block? (l : Lexer) (folded : Bool) : Option Lexer := do
  let l ← l.dropKey?
  let s ← Yaml.block? folded l.indents.head? l.cursor.rest.tail
  some ((l.moveTo s.rest).emit (.scalar (.ofList s.text) false) true)

/-! ## Properties -/

/-- Characters of the names of anchors and tags. -/
def isWordChar (c : Char) : Bool :=
  c.isAlphanum || c = '_' || c = '-'

/-- The name of an anchor, which a gap or one of a few marks must follow. -/
def anchor? (l : Lexer) : Option Lexer := do
  let l ← l.saveKey?
  let rest := l.cursor.rest.tail.dropWhile isWordChar
  let isEnd (c : Char) : Bool := "?:,]\x7d%@\x60".toList.contains c
  if rest.length = l.cursor.rest.tail.length || !(atGap rest || rest.head?.any isEnd) then none
  some ((l.moveTo rest).emit .anchor false)

/-- Characters of the address in a tag. -/
def isAddressChar (c : Char) : Bool :=
  isWordChar c || ";/?:@&=+$.%!~*\x27()".toList.contains c

/-- The tag with an address. -/
def tagOf (address : String) : Tag :=
  if address = "tag:yaml.org,2002:null" then .null
  else if address = "tag:yaml.org,2002:bool" then .bool
  else if address = "tag:yaml.org,2002:int" then .int
  else if address = "tag:yaml.org,2002:float" then .float
  else if address.toList.head? = some '!' then .own
  else .foreign

/-- The tag after its exclamation mark, and the rest: an address in angle brackets, a word of the
common schema after a second mark, or a word of the application's own. -/
def tagAfter? (cs : List Char) : Option (Tag × List Char) :=
  match cs with
  | '<' :: rest =>
    let isChar (c : Char) : Bool := isAddressChar c || c = ',' || c = '[' || c = ']'
    let address := rest.takeWhile isChar
    match rest.dropWhile isChar with
    | '>' :: rest => if address.isEmpty then none else some (tagOf (.ofList address), rest)
    | _ => none
  | '!' :: rest =>
    let word := rest.takeWhile isAddressChar
    if word.isEmpty then none
    else some (tagOf ("tag:yaml.org,2002:" ++ .ofList word), rest.dropWhile isAddressChar)
  | _ =>
    let rest := cs.dropWhile isWordChar
    if rest.length < cs.length && rest.head? = some '!' then none
    else some (.own, rest.dropWhile isAddressChar)

/-- A tag, which a gap must follow; inside brackets a comma will do. -/
def tag? (l : Lexer) : Option Lexer := do
  let l ← l.saveKey?
  let (t, rest) ← tagAfter? l.cursor.rest.tail
  if !(atGap rest || l.inFlow && rest.head? = some ',') then none
  some ((l.moveTo rest).emit (.tag t) false)

/-! ## All tokens -/

/-- Characters that cannot start a plain scalar, except where they are not marks. -/
def isIndicator (c : Char) : Bool :=
  "-?:,[]\x7b\x7d#&*!|>\x27\x22%@\x60".toList.contains c

/-- Whether a plain scalar starts with `c`, of which `rest` follows. -/
def startsPlain (flow : Bool) (c : Char) (rest : List Char) : Bool :=
  !isIndicator c || (c = '-' && !rest.head?.any isSpace) ||
    (!flow && (c = '?' || c = ':') && !atGap rest)

/-- Reads the token that starts with `c`. -/
def token? (l : Lexer) (c : Char) (rest : List Char) : Option Lexer :=
  let flow := l.inFlow
  let atStart := l.cursor.column = 0
  if atStart && c = '%' then none
  else if atStart && startsWithMark '-' (c :: rest) then l.mark? .documentStart
  else if atStart && startsWithMark '.' (c :: rest) then l.mark? .documentEnd
  else if c = '[' then l.openFlow? .flowListStart
  else if c = '\x7b' then l.openFlow? .flowTableStart
  else if c = ']' then l.closeFlow? .flowListEnd
  else if c = '\x7d' then l.closeFlow? .flowTableEnd
  else if c = ',' then l.comma?
  else if c = '-' && atGap rest then l.item?
  else if c = '?' && (flow || atGap rest) then l.key?
  else if c = ':' && (flow || atGap rest) then l.value?
  else if c = '*' then none
  else if c = '&' then l.anchor?
  else if c = '!' then l.tag?
  else if c = '|' && !flow then l.block? false
  else if c = '>' && !flow then l.block? true
  else if c = '\x27' then l.scalar? false fun cs => quoted? false cs.tail
  else if c = '\x22' then l.scalar? false fun cs => quoted? true cs.tail
  else if startsPlain flow c rest then
    let indent := match l.indents with
      | [] => 0
      | column :: _ => column + 1
    l.scalar? true (plain? flow indent)
  else none

/-- Reads tokens up to the end of the text. Every step consumes a character. -/
def run? : Nat → Lexer → Option (List Token)
  | 0, _ => none
  | steps + 1, l => do
    let l ← l.advance?
    match l.cursor.rest with
    | [] =>
      let l ← (l.closeBlocks none).dropKey?
      some l.tokens.reverse
    | c :: rest =>
      let l ← l.token? c rest
      run? steps l

end Lexer

/-- The tokens of a text. -/
def tokens? (text : String) : Option (List Token) := do
  let cs ← normalize? text.toList
  (Lexer.start cs).run? (cs.length + 1)

end WireTypes.Document.Yaml
