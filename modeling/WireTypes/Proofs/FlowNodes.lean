import WireTypes.Proofs.FlowText

/-!
# Documents in flow style

`Flow` is a document of nested brackets whose keys are texts. Written token by token it is a YAML
text that is read as the document's tree (`parse?_text`).
-/

set_option autoImplicit false

namespace WireTypes.Document.Yaml

/-- A document of nested brackets: texts between quotes, words without, lists, and tables with texts
for keys. -/
inductive Flow where
  | text (s : String)
  | word (s : String) (isWord : IsWord s.toList)
  | list (items : List Flow)
  | table (entries : List (String × Flow))

namespace Flow

@[elab_as_elim, induction_eliminator]
theorem induct {motive : Flow → Prop} (text : ∀ s, motive (.text s))
    (word : ∀ s isWord, motive (.word s isWord))
    (list : ∀ items, (∀ d ∈ items, motive d) → motive (.list items))
    (table : ∀ entries, (∀ e ∈ entries, motive e.2) → motive (.table entries)) (d : Flow) :
    motive d :=
  @Flow.rec motive (fun items => ∀ d ∈ items, motive d) (fun entries => ∀ e ∈ entries, motive e.2)
    (fun e => motive e.2) text word list table
    (fun _ h => nomatch h) (fun _ _ hd hs => List.forall_mem_cons.2 ⟨hd, hs⟩)
    (fun _ h => nomatch h) (fun _ _ he hs => List.forall_mem_cons.2 ⟨he, hs⟩)
    (fun _ _ h => h) d

/-! ## Trees and tokens -/

theorem sizeOf_snd_lt {entries : List (String × Flow)} {e : String × Flow} (h : e ∈ entries) :
    sizeOf e.2 < sizeOf entries := by
  have hentry := List.sizeOf_lt_of_mem h
  have hsnd : sizeOf e = 1 + sizeOf e.1 + sizeOf e.2 := rfl
  omega

/-- The tree of a document. -/
def node : Flow → Node
  | .text s => .leaf (.text s false none)
  | .word s _ => .leaf (.text s true none)
  | .list items => .list (items.map node)
  | .table entries => .table (entries.map fun e => (.leaf (.text e.1 false none), e.2.node))
decreasing_by
  · have := List.sizeOf_lt_of_mem ‹_›
    simp only [Flow.list.sizeOf_spec]
    omega
  · have := sizeOf_snd_lt ‹_›
    simp only [Flow.table.sizeOf_spec]
    omega

/-- Groups of tokens with commas between them, and in front of the first unless it is at the
start. -/
def separated (first : Bool) : List (List Token) → List Token
  | [] => []
  | ts :: rest => (if first then [] else [.comma]) ++ ts ++ separated false rest

/-- The tokens of a document. -/
def tokens : Flow → List Token
  | .text s => [.scalar s false]
  | .word s _ => [.scalar s true]
  | .list items => .flowListStart :: (separated true (items.map tokens) ++ [.flowListEnd])
  | .table entries =>
    .flowTableStart :: (separated true (entries.map fun e =>
      [.key, .scalar e.1 false, .value] ++ e.2.tokens) ++ [.flowTableEnd])
decreasing_by
  · have := List.sizeOf_lt_of_mem ‹_›
    simp only [Flow.list.sizeOf_spec]
    omega
  · have := sizeOf_snd_lt ‹_›
    simp only [Flow.table.sizeOf_spec]
    omega

/-- The tokens of an entry of a table. -/
def entryTokens (e : String × Flow) : List Token :=
  [.key, .scalar e.1 false, .value] ++ e.2.tokens

theorem tokens_table (entries : List (String × Flow)) :
    (table entries).tokens =
      .flowTableStart :: (separated true (entries.map entryTokens) ++ [.flowTableEnd]) := by
  rw [tokens]
  rfl

/-! ## Reading tokens -/

open Lexer (Lexes)

variable {depth : Nat} {rest : List Char}

theorem atFlowMark_separated (tss : List (List Token)) (h : AtFlowMark rest) :
    AtFlowMark (spell (separated false tss) ++ rest) := by
  cases tss with
  | nil => exact h
  | cons ts tss =>
    exact ⟨',', spell (ts ++ separated false tss) ++ rest, by simp [separated, Token.spell], rfl⟩

/-- The tokens are read inside brackets in front of every mark. -/
def IsRead (ts : List Token) : Prop :=
  ∀ (depth : Nat) (rest : List Char), AtFlowMark rest → Lexes (depth + 1) (depth + 1) ts rest

theorem isRead_separated (first : Bool) {tss : List (List Token)} (h : ∀ ts ∈ tss, IsRead ts) :
    IsRead (separated first tss) := by
  intro depth rest hrest
  induction tss generalizing first with
  | nil => exact .nil _ _
  | cons ts tss ih =>
    have hts := h ts List.mem_cons_self depth _ (atFlowMark_separated tss hrest)
    have hmore := ih false fun ts hts => h ts (List.mem_cons_of_mem _ hts)
    rw [separated]
    cases first with
    | true => exact hts.append hmore
    | false => exact .append (.append (Lexer.lexes_comma _ _) hts) hmore

theorem lexes_table {entries : List (String × Flow)} (h : ∀ e ∈ entries, IsRead e.2.tokens)
    (depth : Nat) (rest : List Char) : Lexes depth depth (table entries).tokens rest := by
  have hentries : IsRead (separated true (entries.map entryTokens)) := by
    refine isRead_separated true fun ts hts => ?_
    obtain ⟨e, he, rfl⟩ := List.mem_map.1 hts
    exact fun depth rest hrest => (Lexer.lexes_key _ _ _).append (h e he depth rest hrest)
  rw [tokens_table]
  refine (Lexer.lexes_flowTableStart depth _).append ?_
  exact (hentries _ _ ⟨'\x7d', rest, rfl, rfl⟩).append (Lexer.lexes_flowTableEnd depth rest)

theorem isRead_tokens (d : Flow) : IsRead d.tokens := by
  induction d with
  | text s =>
    rw [tokens]
    exact fun depth rest _ => Lexer.lexes_quoted _ s rest
  | word s isWord =>
    rw [tokens]
    exact fun depth rest hrest => Lexer.lexes_word depth isWord hrest
  | list items ih =>
    have hitems : IsRead (separated true (items.map tokens)) := by
      refine isRead_separated true fun ts hts => ?_
      obtain ⟨d, hd, rfl⟩ := List.mem_map.1 hts
      exact ih d hd
    intro depth rest _
    rw [tokens]
    refine (Lexer.lexes_flowListStart _ _).append ?_
    exact (hitems _ _ ⟨']', rest, rfl, rfl⟩).append (Lexer.lexes_flowListEnd _ rest)
  | table entries ih => exact fun depth rest _ => lexes_table ih (depth + 1) rest

/-! ## From tokens to trees -/

/-- The tree of `d` is read from the tokens of `d`, given enough steps. -/
def IsParsed (d : Flow) : Prop :=
  ∀ (block items : Bool) (steps : Nat) (rest : List Token), 4 * d.tokens.length ≤ steps →
    node? block items steps (d.tokens ++ rest) = some (d.node, rest)

theorem flowItems?_succ (d : Flow) (first : Bool) (steps : Nat) (rest : List Token) :
    flowItems? first (steps + 1) ((if first then [] else [.comma]) ++ (d.tokens ++ rest)) =
      (node? false false steps (d.tokens ++ rest)).bind fun p =>
        (flowItems? false steps p.2).bind fun q => some (p.1 :: q.1, q.2) := by
  cases d with
  | text s => rw [tokens]; cases first <;> rfl
  | word s isWord => rw [tokens]; cases first <;> rfl
  | list items => rw [tokens]; cases first <;> rfl
  | table entries => rw [tokens]; cases first <;> rfl

theorem flowEntries?_succ (k : String) (d : Flow) (first : Bool) (steps : Nat)
    (rest : List Token) :
    flowEntries? first (steps + 3)
        ((if first then [] else [.comma]) ++
          ([.key, .scalar k false, .value] ++ d.tokens ++ rest)) =
      (node? false false steps (d.tokens ++ rest)).bind fun p =>
        (flowEntries? false (steps + 2) p.2).bind fun q =>
          some ((.leaf (.text k false none), p.1) :: q.1, q.2) := by
  cases d with
  | text s => rw [tokens]; cases first <;> rfl
  | word s isWord => rw [tokens]; cases first <;> rfl
  | list items => rw [tokens]; cases first <;> rfl
  | table entries => rw [tokens]; cases first <;> rfl

theorem length_tokens_pos (d : Flow) : 0 < d.tokens.length := by
  cases d <;> simp [tokens]

theorem flowItems?_separated {items : List Flow} (h : ∀ d ∈ items, IsParsed d) (first : Bool)
    (steps : Nat) (rest : List Token)
    (hsteps : 4 * (separated first (items.map tokens)).length < steps) :
    flowItems? first steps (separated first (items.map tokens) ++ .flowListEnd :: rest) =
      some (items.map node, rest) := by
  induction items generalizing first steps with
  | nil =>
    obtain ⟨steps, rfl⟩ : ∃ n, steps = n + 1 := ⟨steps - 1, by omega⟩
    cases first <;> rfl
  | cons d items ih =>
    obtain ⟨steps, rfl⟩ : ∃ n, steps = n + 1 := ⟨steps - 1, by omega⟩
    have hpos := d.length_tokens_pos
    rw [List.map_cons, separated] at hsteps ⊢
    simp only [List.length_append] at hsteps
    rw [List.append_assoc, List.append_assoc, flowItems?_succ,
      h d List.mem_cons_self _ _ _ _ (by omega), Option.bind_some,
      ih (fun d hd => h d (List.mem_cons_of_mem _ hd)) false _ (by omega)]
    rfl

theorem flowEntries?_separated {entries : List (String × Flow)} (h : ∀ e ∈ entries, IsParsed e.2)
    (first : Bool) (steps : Nat) (rest : List Token)
    (hsteps : 4 * (separated first (entries.map entryTokens)).length < steps) :
    flowEntries? first steps (separated first (entries.map entryTokens) ++ .flowTableEnd :: rest) =
      some (entries.map fun e => (.leaf (.text e.1 false none), e.2.node), rest) := by
  induction entries generalizing first steps with
  | nil =>
    obtain ⟨steps, rfl⟩ : ∃ n, steps = n + 1 := ⟨steps - 1, by omega⟩
    cases first <;> rfl
  | cons e entries ih =>
    rw [List.map_cons, separated, entryTokens] at hsteps ⊢
    simp only [List.length_append, List.length_cons] at hsteps
    obtain ⟨steps, rfl⟩ : ∃ n, steps = n + 3 := ⟨steps - 3, by omega⟩
    rw [List.append_assoc, List.append_assoc, flowEntries?_succ,
      h e List.mem_cons_self _ _ _ _ (by omega), Option.bind_some,
      ih (fun e he => h e (List.mem_cons_of_mem _ he)) false _ (by omega)]
    rfl

theorem isParsed (d : Flow) : IsParsed d := by
  induction d with
  | text s =>
    intro block items steps rest h
    obtain ⟨steps, rfl⟩ : ∃ n, steps = n + 1 := ⟨steps - 1, by simp [tokens] at h; omega⟩
    rw [tokens, node]
    rfl
  | word s isWord =>
    intro block items steps rest h
    obtain ⟨steps, rfl⟩ : ∃ n, steps = n + 1 := ⟨steps - 1, by simp [tokens] at h; omega⟩
    rw [tokens, node]
    rfl
  | list items ih =>
    intro block bare steps rest h
    rw [tokens] at h ⊢
    simp only [List.length_cons, List.length_append] at h
    obtain ⟨steps, rfl⟩ : ∃ n, steps = n + 1 := ⟨steps - 1, by omega⟩
    have hitems := flowItems?_separated ih true steps rest (by omega)
    rw [List.cons_append, List.append_assoc, node]
    show (flowItems? true steps _).map _ = _
    exact congrArg _ hitems
  | table entries ih =>
    intro block bare steps rest h
    rw [tokens_table] at h ⊢
    simp only [List.length_cons, List.length_append] at h
    obtain ⟨steps, rfl⟩ : ∃ n, steps = n + 1 := ⟨steps - 1, by omega⟩
    have hentries := flowEntries?_separated ih true steps rest (by omega)
    rw [List.cons_append, List.append_assoc, node]
    show (flowEntries? true steps _).map _ = _
    exact congrArg _ hentries

/-! ## From texts to trees -/

/-- A visible character of ASCII, or the blank. -/
def IsVisible (c : Char) : Prop := ' ' ≤ c ∧ c ≤ '~'

instance (c : Char) : Decidable (IsVisible c) :=
  inferInstanceAs (Decidable (_ ∧ _))

theorem isVisible_of_isAlphanum {c : Char} (h : c.isAlphanum) : IsVisible c := by
  change (decide (c.val ≥ 'A'.val ∧ c.val ≤ 'Z'.val) ||
    (decide (c.val ≥ 'a'.val) && decide (c.val ≤ 'z'.val)) ||
    (decide (c.val ≥ '0'.val) && decide (c.val ≤ '9'.val))) = true at h
  simp only [Bool.or_eq_true, Bool.and_eq_true, decide_eq_true_eq] at h
  have hranges : ((65 ≤ c.toNat ∧ c.toNat ≤ 90) ∨ 97 ≤ c.toNat ∧ c.toNat ≤ 122) ∨
      48 ≤ c.toNat ∧ c.toNat ≤ 57 := h
  show 32 ≤ c.toNat ∧ c.toNat ≤ 126
  omega

theorem isVisible_of_mem_escape {c d : Char} (h : d ∈ escape c) : IsVisible d := by
  unfold escape at h
  split at h
  · rename_i hc
    rw [List.mem_singleton.1 h]
    exact isVisible_of_isAlphanum hc
  · rcases List.mem_cons.1 h with rfl | h
    · decide
    · rcases List.mem_cons.1 h with rfl | h
      · decide
      · exact isVisible_of_isAlphanum (isAlphanum_of_mem_hexDigits h)

/-- The token is written in visible characters, one at least. -/
def IsSpelled (t : Token) : Prop := t.spell ≠ [] ∧ ∀ c ∈ t.spell, IsVisible c

instance (t : Token) : Decidable (IsSpelled t) :=
  @instDecidableAnd (t.spell ≠ []) _ _ (List.decidableBAll IsVisible t.spell)

theorem isSpelled_quoted (s : String) : IsSpelled (.scalar s false) := by
  refine ⟨nofun, fun c hc => ?_⟩
  simp only [Token.spell, Bool.false_eq_true, ↓reduceIte, List.cons_append, List.mem_cons,
    List.mem_append, List.mem_flatMap, List.not_mem_nil, or_false] at hc
  obtain rfl | ⟨d, -, hd⟩ | rfl := hc
  · decide
  · exact isVisible_of_mem_escape hd
  · decide

theorem mem_separated {first : Bool} {tss : List (List Token)} {t : Token}
    (h : t ∈ separated first tss) : t = .comma ∨ ∃ ts ∈ tss, t ∈ ts := by
  induction tss generalizing first with
  | nil => cases h
  | cons ts tss ih =>
    rw [separated] at h
    simp only [List.mem_append, or_assoc] at h
    obtain h | h | h := h
    · cases first with
      | true => cases h
      | false => exact .inl (List.mem_singleton.1 h)
    · exact .inr ⟨ts, List.mem_cons_self, h⟩
    · obtain rfl | ⟨ts', hts', h⟩ := ih h
      · exact .inl rfl
      · exact .inr ⟨ts', List.mem_cons_of_mem _ hts', h⟩

theorem isSpelled_tokens (d : Flow) : ∀ t ∈ d.tokens, IsSpelled t := by
  induction d with
  | text s =>
    rw [tokens, List.forall_mem_singleton]
    exact isSpelled_quoted s
  | word s isWord =>
    rw [tokens, List.forall_mem_singleton]
    exact ⟨isWord.ne_nil, fun c hc => isVisible_of_isAlphanum (isWord.alphanum c hc)⟩
  | list items ih =>
    rw [tokens, List.forall_mem_cons, List.forall_mem_append, List.forall_mem_singleton]
    refine ⟨by decide, fun t ht => ?_, by decide⟩
    obtain rfl | ⟨ts, hts, ht⟩ := mem_separated ht
    · decide
    · obtain ⟨d, hd, rfl⟩ := List.mem_map.1 hts
      exact ih d hd t ht
  | table entries ih =>
    rw [tokens_table, List.forall_mem_cons, List.forall_mem_append, List.forall_mem_singleton]
    refine ⟨by decide, fun t ht => ?_, by decide⟩
    obtain rfl | ⟨ts, hts, ht⟩ := mem_separated ht
    · decide
    · obtain ⟨e, he, rfl⟩ := List.mem_map.1 hts
      rcases List.mem_append.1 ht with ht | ht
      · simp only [List.mem_cons, List.not_mem_nil, or_false] at ht
        obtain rfl | rfl | rfl := ht
        · decide
        · exact isSpelled_quoted e.1
        · decide
      · exact ih e he t ht

theorem normalize?_eq_self {cs : List Char} (h : ∀ c ∈ cs, IsVisible c) :
    normalize? cs = some cs := by
  induction cs with
  | nil => rfl
  | cons c cs ih =>
    have hc := h c List.mem_cons_self
    have hreturn : c ≠ '\r' := by rintro rfl; exact absurd hc (by decide)
    have hnext : c ≠ '\u0085' := by rintro rfl; exact absurd hc (by decide)
    have hprintable : isPrintable c = true := by
      unfold IsVisible at hc
      simp [isPrintable, hc]
    rw [normalize?, ih fun d hd => h d (List.mem_cons_of_mem _ hd)]
    · simp [hprintable, hreturn, hnext]
    · intro rest he _
      exact hreturn he

/-- A document as text. -/
def write (d : Flow) : String :=
  .ofList (spell d.tokens)

theorem isVisible_of_mem_write {d : Flow} {c : Char} (h : c ∈ spell d.tokens) : IsVisible c := by
  obtain ⟨t, ht, hc⟩ := List.mem_flatMap.1 h
  exact (isSpelled_tokens d t ht).2 c hc

theorem length_le_spell {ts : List Token} (h : ∀ t ∈ ts, IsSpelled t) :
    ts.length ≤ (spell ts).length := by
  induction ts with
  | nil => exact Nat.le_refl _
  | cons t ts ih =>
    rw [List.forall_mem_cons] at h
    have ht := List.length_pos_iff.2 h.1.1
    have hts := ih h.2
    rw [spell_cons, List.length_append, List.length_cons]
    omega

/-- The tokens of a table that is written are those of the table. -/
theorem tokens?_write (entries : List (String × Flow)) :
    tokens? (table entries).write = some (table entries).tokens := by
  have hnormal := normalize?_eq_self fun c => isVisible_of_mem_write (d := table entries) (c := c)
  have hstart : (Lexer.start (spell (table entries).tokens)).Inside 0 []
      (spell (table entries).tokens ++ []) := by
    rw [List.append_nil, tokens_table]
    exact ⟨rfl, rfl, by simp [Lexer.start], rfl, rfl⟩
  obtain ⟨l, hrun, hend⟩ := lexes_table (fun e _ => isRead_tokens e.2) 0 [] _ _ hstart
  have hcount := length_le_spell (isSpelled_tokens (table entries))
  rw [tokens?, write, String.toList_ofList, hnormal, Option.bind_eq_bind, Option.bind_some]
  obtain ⟨extra, hextra⟩ := Nat.exists_eq_add_of_le hcount
  rw [hextra, Nat.add_comm (table entries).tokens.length, Nat.add_right_comm, hrun, hend.run?_end]
  simp

/-- A table that is written is read again. -/
theorem parse?_write (entries : List (String × Flow)) :
    parse? (table entries).write = some (table entries).node := by
  have hroot := isParsed (table entries) true false
    (4 * (table entries).tokens.length + 4) [] (by omega)
  rw [List.append_nil] at hroot
  rw [parse?, tokens?_write, Option.bind_eq_bind, Option.bind_some]
  rw [tokens_table] at hroot ⊢
  simp only [root?, hroot]
  rfl

end Flow

end WireTypes.Document.Yaml
