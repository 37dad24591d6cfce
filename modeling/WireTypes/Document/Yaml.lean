import WireTypes.Document.Yaml.Token

/-!
# YAML documents

From tokens to the node of the only document of a text. Directives, references to anchored nodes and
collections with tags of the application's own are refused.
-/

set_option autoImplicit false

namespace WireTypes.Document.Yaml

/-- Takes anchor and tag off the front, at most one of each. The answer says whether there was
any. -/
def properties (ts : List Token) : Bool × Option Tag × List Token :=
  match ts with
  | .anchor :: .tag t :: rest => (true, some t, rest)
  | .tag t :: .anchor :: rest => (true, some t, rest)
  | .anchor :: rest => (true, none, rest)
  | .tag t :: rest => (true, some t, rest)
  | _ => (false, none, ts)

/-- Whether the tokens go on with one of `ends`, so that a node in front of it is empty. -/
def startsWithOne (ends : List Token) (ts : List Token) : Bool :=
  ts.head?.any ends.contains

/-- A collection, unless it has a tag of the application's own. -/
def collection? {α : Type} (tag : Option Tag) (make : α → Node)
    (parsed : Option (α × List Token)) : Option (Node × List Token) :=
  if tag = some .own then none else parsed.map fun (a, rest) => (make a, rest)

mutual

/-- The node at the start of `ts`, and the rest. Block collections count only where `block` holds,
and items at the column of their key only where `items` holds. -/
def node? (block items : Bool) : Nat → List Token → Option (Node × List Token)
  | 0, _ => none
  | steps + 1, ts =>
    let (marked, tag, ts) := properties ts
    match ts with
    | .scalar s plain :: rest => some (.leaf (.text s plain tag), rest)
    | .flowListStart :: rest => collection? tag .list (flowItems? true steps rest)
    | .flowTableStart :: rest => collection? tag .table (flowEntries? true steps rest)
    | .blockListStart :: rest =>
      if block then collection? tag .list (blockItems? steps rest)
      else if marked then some (.leaf (.text "" true tag), ts) else none
    | .blockTableStart :: rest =>
      if block then collection? tag .table (blockEntries? steps rest)
      else if marked then some (.leaf (.text "" true tag), ts) else none
    | .item :: _ =>
      if items then collection? tag .list (bareItems? steps ts)
      else if marked then some (.leaf (.text "" true tag), ts) else none
    | _ => if marked then some (.leaf (.text "" true tag), ts) else none

/-- A node, or an empty one in front of one of `ends`. -/
def nodeBefore? (ends : List Token) (block items : Bool) :
    Nat → List Token → Option (Node × List Token)
  | 0, _ => none
  | steps + 1, ts =>
    if startsWithOne ends ts then some (.empty, ts) else node? block items steps ts

/-- The items of a block list up to its end. -/
def blockItems? : Nat → List Token → Option (List Node × List Token)
  | 0, _ => none
  | _ + 1, .blockEnd :: rest => some ([], rest)
  | steps + 1, .item :: rest => do
    let (n, rest) ← nodeBefore? [.item, .blockEnd] true false steps rest
    let (ns, rest) ← blockItems? steps rest
    some (n :: ns, rest)
  | _ + 1, _ => none

/-- Items at the column of their key, as far as they go. -/
def bareItems? : Nat → List Token → Option (List Node × List Token)
  | 0, _ => none
  | steps + 1, .item :: rest => do
    let (n, rest) ← nodeBefore? [.item, .key, .value, .blockEnd] true false steps rest
    let (ns, rest) ← bareItems? steps rest
    some (n :: ns, rest)
  | _ + 1, ts => some ([], ts)

/-- The entries of a block table up to its end. -/
def blockEntries? : Nat → List Token → Option (List (Node × Node) × List Token)
  | 0, _ => none
  | _ + 1, .blockEnd :: rest => some ([], rest)
  | steps + 1, .key :: rest => do
    let ends := [Token.key, .value, .blockEnd]
    let (key, rest) ← nodeBefore? ends true true steps rest
    let (value, rest) ←
      match rest with
      | .value :: rest => nodeBefore? ends true true steps rest
      | _ => some (.empty, rest)
    let (entries, rest) ← blockEntries? steps rest
    some ((key, value) :: entries, rest)
  | _ + 1, _ => none

/-- The items of a list in brackets up to its end. A key in it makes a table of one entry. -/
def flowItems? (first : Bool) : Nat → List Token → Option (List Node × List Token)
  | 0, _ => none
  | _ + 1, .flowListEnd :: rest => some ([], rest)
  | steps + 1, ts => do
    let ts ← if first then some ts else afterComma? ts
    match ts with
    | .flowListEnd :: rest => some ([], rest)
    | .key :: rest =>
      let ends := [Token.value, .comma, .flowListEnd]
      let (key, rest) ←
        if startsWithOne ends rest then some (.empty, rest.tail)
        else node? false false steps rest
      let (value, rest) ← flowValue? .flowListEnd steps rest
      let (ns, rest) ← flowItems? false steps rest
      some (.table [(key, value)] :: ns, rest)
    | ts =>
      let (n, rest) ← node? false false steps ts
      let (ns, rest) ← flowItems? false steps rest
      some (n :: ns, rest)

/-- The entries of a table in braces up to its end. A node without a colon is a key. -/
def flowEntries? (first : Bool) : Nat → List Token → Option (List (Node × Node) × List Token)
  | 0, _ => none
  | _ + 1, .flowTableEnd :: rest => some ([], rest)
  | steps + 1, ts => do
    let ts ← if first then some ts else afterComma? ts
    match ts with
    | .flowTableEnd :: rest => some ([], rest)
    | .key :: rest =>
      let (key, rest) ← nodeBefore? [.value, .comma, .flowTableEnd] false false steps rest
      let (value, rest) ← flowValue? .flowTableEnd steps rest
      let (entries, rest) ← flowEntries? false steps rest
      some ((key, value) :: entries, rest)
    | ts =>
      let (key, rest) ← node? false false steps ts
      let (entries, rest) ← flowEntries? false steps rest
      some ((key, .empty) :: entries, rest)

/-- The value after a key inside brackets that end with `close`. -/
def flowValue? (close : Token) : Nat → List Token → Option (Node × List Token)
  | 0, _ => none
  | steps + 1, .value :: rest => nodeBefore? [.comma, close] false false steps rest
  | _ + 1, ts => some (.empty, ts)

/-- The tokens after a comma, which must be there. -/
def afterComma? : List Token → Option (List Token)
  | .comma :: rest => some rest
  | _ => none

end

/-- The node of a document that is not empty. Every call consumes a token or is followed by one that
does. -/
def root? (ts : List Token) : Option (Node × List Token) :=
  node? true false (4 * ts.length + 4) ts

/-- The node of a YAML text, which has one document at most. A text without one is an empty node. -/
def parse? (text : String) : Option Node := do
  let ts ← tokens? text
  let (n, rest) ←
    match ts with
    | [] => some (.empty, [])
    | .documentStart :: rest =>
      if rest.isEmpty || startsWithOne [.documentStart, .documentEnd] rest then some (.empty, rest)
      else root? rest
    | ts => root? ts
  if rest.all (· = .documentEnd) then some n else none

end WireTypes.Document.Yaml
