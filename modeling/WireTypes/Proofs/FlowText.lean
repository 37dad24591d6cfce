import WireTypes.Document.Yaml
import WireTypes.Proofs.FlowScalars

/-!
# Tokens in flow style

A YAML text of nested brackets, spelled token by token, is taken apart into these tokens again.
`Inside` is the state of the lexer between two such tokens: no block collection is open, and no
pending key is required. `Lexes` says that some tokens are read from there; it is proved for each
kind of token (`lexes_open` to `lexes_key`) and kept by sequencing (`Lexes.append`).
-/

set_option autoImplicit false

namespace WireTypes.Document.Yaml

/-! ## Spelling -/

/-- How a token of flow style is written. The other tokens have no spelling of their own. -/
def Token.spell : Token → List Char
  | .flowListStart => ['[']
  | .flowListEnd => [']']
  | .flowTableStart => ['\x7b']
  | .flowTableEnd => ['\x7d']
  | .comma => [',']
  | .key => ['?']
  | .value => [':']
  | .scalar text plain =>
    if plain then text.toList else '\x22' :: text.toList.flatMap escape ++ ['\x22']
  | .documentStart | .documentEnd | .blockListStart | .blockTableStart | .blockEnd | .item
  | .anchor | .tag _ => []

/-- Tokens one after the other, without gaps. -/
def spell (ts : List Token) : List Char :=
  ts.flatMap Token.spell

@[simp] theorem spell_nil : spell [] = [] := rfl

@[simp] theorem spell_cons (t : Token) (ts : List Token) : spell (t :: ts) = t.spell ++ spell ts :=
  List.flatMap_cons

@[simp] theorem spell_append (ts us : List Token) : spell (ts ++ us) = spell ts ++ spell us :=
  List.flatMap_append

/-! ## Cursors -/

theorem Cursor.rest_step (c : Cursor) : c.step.rest = c.rest.tail := by
  unfold step
  split
  · rename_i hrest
    rw [hrest]
    rfl
  · rename_i x rest hrest
    rw [hrest]
    split <;> rfl

theorem Cursor.rest_skip (c : Cursor) (n : Nat) : (c.skip n).rest = c.rest.drop n := by
  induction n generalizing c with
  | zero => rfl
  | succ n ih => rw [skip, ih, rest_step, List.drop_tail]

theorem Cursor.rest_moveTo {c : Cursor} {before rest : List Char} (h : c.rest = before ++ rest) :
    (c.moveTo rest).rest = rest := by
  rw [moveTo, rest_skip, h]
  exact List.drop_left' (by simp)

/-! ## States -/

namespace Lexer

/-- The lexer between two tokens of flow style: `depth` brackets are open and no block collection
is, `tokens` have been read, and `rest` is left. -/
structure Inside (l : Lexer) (depth : Nat) (tokens : List Token) (rest : List Char) : Prop where
  indents : l.indents = []
  depth : l.keys.length = depth + 1
  optional : ∀ key ∈ l.keys, key.any PendingKey.required = false
  tokens : l.tokens = tokens
  rest : l.cursor.rest = rest

/-- No key is pending in the innermost brackets. -/
def NoKey (l : Lexer) : Prop := l.keys.head? = some none

variable {l l' : Lexer} {depth : Nat} {ts : List Token} {c : Char} {rest : List Char}

namespace Inside

theorem inFlow (h : l.Inside (depth + 1) ts rest) : l.inFlow = true := by
  simp [Lexer.inFlow, h.depth]

theorem emit (h : l.Inside depth ts rest) (t : Token) (keyAllowed : Bool) :
    (l.emit t keyAllowed).Inside depth (t :: ts) rest :=
  ⟨h.indents, h.depth, h.optional, congrArg _ h.tokens, h.rest⟩

theorem skip (h : l.Inside depth ts (c :: rest)) : (l.skip 1).Inside depth ts rest := by
  refine ⟨h.indents, h.depth, h.optional, h.tokens, ?_⟩
  show (l.cursor.skip 1).rest = rest
  rw [Cursor.rest_skip, h.rest]
  rfl

theorem moveTo {before : List Char} (h : l.Inside depth ts (before ++ rest)) :
    (l.moveTo rest).Inside depth ts rest :=
  ⟨h.indents, h.depth, h.optional, h.tokens, Cursor.rest_moveTo h.rest⟩

/-- Other keys may be pending, as many as there were, if none of them is required. -/
theorem setKeys {depth' : Nat} (h : l.Inside depth ts rest) {keys : List (Option PendingKey)}
    (hdepth : keys.length = depth' + 1)
    (hkeys : ∀ key ∈ keys, key.any PendingKey.required = false) :
    ({ l with keys } : Lexer).Inside depth' ts rest :=
  ⟨h.indents, hdepth, hkeys, h.tokens, h.rest⟩

theorem exists_keys (h : l.Inside depth ts rest) :
    ∃ key keys, l.keys = key :: keys ∧ keys.length = depth :=
  ⟨l.keys.head (by simp [← List.length_pos_iff, h.depth]), l.keys.tail, by simp, by simp [h.depth]⟩

/-! ## What happens between tokens -/

theorem dropKey? (h : l.Inside depth ts rest) :
    ∃ l', l.dropKey? = some l' ∧ l'.Inside depth ts rest ∧ l'.NoKey := by
  obtain ⟨key, keys, hkeys, hdepth⟩ := h.exists_keys
  unfold Lexer.dropKey?
  cases key with
  | none => exact ⟨l, by rw [hkeys], h, by rw [NoKey, hkeys]; rfl⟩
  | some key =>
    have hkey : key.required = false := h.optional (some key) (by simp [hkeys])
    refine ⟨{ l with keys := none :: keys }, by simp [hkeys, hkey], ?_, rfl⟩
    refine h.setKeys (by simp [hdepth]) (List.forall_mem_cons.2 ⟨rfl, fun key hk => ?_⟩)
    exact h.optional key (by simp [hkeys, hk])

theorem saveKey? (h : l.Inside depth ts rest) :
    ∃ l', l.saveKey? = some l' ∧ l'.Inside depth ts rest ∧
      (l.keyAllowed = false → l.NoKey → l'.NoKey) := by
  unfold Lexer.saveKey?
  cases hallowed : l.keyAllowed with
  | false => exact ⟨l, rfl, h, fun _ hno => hno⟩
  | true =>
    obtain ⟨l', hdrop, h', -⟩ := h.dropKey?
    obtain ⟨key, keys, hkeys, hdepth⟩ := h'.exists_keys
    have hoptional : (!l'.inFlow && decide (l'.indents.head? = some l'.cursor.column)) = false := by
      simp [h'.indents]
    simp only [Bool.not_true, Bool.false_eq_true, ↓reduceIte, hdrop]
    refine ⟨_, rfl, h'.setKeys (by simp [hkeys, hdepth]) ?_, nofun⟩
    exact List.forall_mem_cons.2
      ⟨hoptional, fun key hk => h'.optional key (List.mem_of_mem_tail hk)⟩

end Inside

/-- The character ends a gap between tokens. -/
def EndsGap (c : Char) : Prop :=
  isBreak c = false ∧ c ≠ '#' ∧ c ≠ ' ' ∧ c ≠ '\t'

instance (c : Char) : Decidable (EndsGap c) :=
  inferInstanceAs (Decidable (_ ∧ _))

theorem toToken_of_endsGap (hc : EndsGap c) (flow keyAllowed : Bool) (rest : List Char) :
    toToken flow false keyAllowed (c :: rest) = (keyAllowed, c :: rest) := by
  obtain ⟨hbreak, hcomment, hblank, htab⟩ := hc
  simp [toToken, hbreak, hcomment, hblank, htab]

theorem closeBlocks_eq_self (h : l.indents = []) (column : Option Nat) :
    l.closeBlocks column = l := by
  unfold closeBlocks
  split
  · rfl
  · simp only [h, List.takeWhile_nil, List.dropWhile_nil, List.map_nil, List.nil_append]
    rw [← h]

namespace Inside

/-- Pending keys may be given up for their age. -/
theorem dropStaleKeys? (h : l.Inside depth ts rest) :
    ∃ l', l.dropStaleKeys? = some l' ∧ l'.Inside depth ts rest ∧ l'.keyAllowed = l.keyAllowed ∧
      (l.NoKey → l'.NoKey) := by
  obtain ⟨key, keys, hkeys, hdepth⟩ := h.exists_keys
  unfold Lexer.dropStaleKeys?
  rw [if_neg ?none]
  case none =>
    simp only [List.any_eq_true, Bool.and_eq_true, not_exists, not_and, Bool.not_eq_true]
    exact fun key hk _ => h.optional key hk
  refine ⟨_, rfl, h.setKeys (by simp [h.depth]) ?_, rfl, ?_⟩
  · simp only [List.forall_mem_map]
    intro key hk
    split
    · rfl
    · exact h.optional key hk
  · intro hno
    simp only [NoKey, List.head?_map] at hno ⊢
    rw [hno]
    rfl

/-- Where no gap is, the next token starts where the lexer is. -/
theorem advance?_of_toToken (h : l.Inside depth ts rest)
    (hgap : toToken l.inFlow false l.keyAllowed rest = (l.keyAllowed, rest)) :
    ∃ l', l.advance? = some l' ∧ l'.Inside depth ts rest ∧ l'.keyAllowed = l.keyAllowed ∧
      (l.NoKey → l'.NoKey) := by
  have hstay : l.cursor.moveTo rest = l.cursor := by
    rw [Cursor.moveTo, h.rest, Nat.sub_self]
    rfl
  obtain ⟨l', hstale, h', hallowed, hno⟩ := h.dropStaleKeys?
  refine ⟨l', ?_, h', hallowed, hno⟩
  unfold Lexer.advance?
  rw [h.rest, hgap]
  simp only [Lexer.moveTo, hstay, hstale, Option.bind_eq_bind, Option.bind_some]
  exact congrArg some (closeBlocks_eq_self h'.indents _)

/-- A step of the lexer reads the token at its start, after the pending keys have been looked
through. -/
theorem run?_succ (h : l.Inside depth ts (c :: rest)) (hc : EndsGap c) {Q : Lexer → Prop}
    (htoken : ∀ l₁ : Lexer, l₁.Inside depth ts (c :: rest) → l₁.keyAllowed = l.keyAllowed →
      (l.NoKey → l₁.NoKey) → ∃ l', l₁.token? c rest = some l' ∧ Q l') :
    ∃ l' : Lexer, (∀ steps, l.run? (steps + 1) = l'.run? steps) ∧ Q l' := by
  obtain ⟨l₁, hadvance, h₁, hallowed, hno⟩ :=
    h.advance?_of_toToken (toToken_of_endsGap hc _ _ _)
  obtain ⟨l', htoken, hQ⟩ := htoken l₁ h₁ hallowed hno
  refine ⟨l', fun steps => ?_, hQ⟩
  rw [run?, hadvance]
  simp only [Option.bind_eq_bind, Option.bind_some, h₁.rest, htoken]

/-- At the end of the text the tokens are complete. -/
theorem run?_end (h : l.Inside depth ts []) (steps : Nat) :
    l.run? (steps + 1) = some ts.reverse := by
  obtain ⟨l₁, hadvance, h₁, -⟩ := h.advance?_of_toToken rfl
  obtain ⟨l₂, hdrop, h₂, -⟩ := h₁.dropKey?
  rw [run?, hadvance]
  simp only [Option.bind_eq_bind, Option.bind_some, h₁.rest, closeBlocks_eq_self h₁.indents, hdrop,
    h₂.tokens]

end Inside

/-! ## Reading tokens -/

theorem startsWithMark_of_ne {mark : Char} (h : c ≠ mark) :
    startsWithMark mark (c :: rest) = false := by
  unfold startsWithMark
  split
  · rename_i he
    cases he
    simp [h]
  · rfl

/-- From every state inside brackets where the spelling of `new` is left in front of `rest`, the
lexer reads `new`, one token a step. -/
def Lexes (depth depth' : Nat) (new : List Token) (rest : List Char) : Prop :=
  ∀ (l : Lexer) (ts : List Token), l.Inside depth ts (spell new ++ rest) →
    ∃ l' : Lexer, (∀ steps, l.run? (steps + new.length) = l'.run? steps) ∧
      l'.Inside depth' (new.reverse ++ ts) rest

theorem Lexes.nil (depth : Nat) (rest : List Char) : Lexes depth depth [] rest :=
  fun l _ h => ⟨l, fun _ => rfl, h⟩

theorem Lexes.append {depth depth' depth'' : Nat} {new more : List Token}
    (h : Lexes depth depth' new (spell more ++ rest)) (h' : Lexes depth' depth'' more rest) :
    Lexes depth depth'' (new ++ more) rest := by
  intro l ts hl
  rw [spell_append, List.append_assoc] at hl
  obtain ⟨l₁, hrun₁, hl₁⟩ := h l ts hl
  obtain ⟨l₂, hrun₂, hl₂⟩ := h' l₁ _ hl₁
  refine ⟨l₂, fun steps => ?_, ?_⟩
  · rw [List.length_append, Nat.add_comm new.length, ← Nat.add_assoc, hrun₁, hrun₂]
  · rwa [List.reverse_append, List.append_assoc]

/-! ### Brackets and marks -/

theorem Inside.openFlow? (h : l.Inside depth ts (c :: rest)) (t : Token) :
    ∃ l', l.openFlow? t = some l' ∧ l'.Inside (depth + 1) (t :: ts) rest := by
  obtain ⟨l', hsave, h', -⟩ := h.saveKey?
  refine ⟨_, by rw [Lexer.openFlow?, hsave]; rfl, (h'.skip.setKeys ?_ ?_).emit t true⟩
  · exact congrArg (· + 1) h'.depth
  · exact List.forall_mem_cons.2 ⟨rfl, h'.optional⟩

theorem Inside.closeFlow? (h : l.Inside (depth + 1) ts (c :: rest)) (t : Token) :
    ∃ l', l.closeFlow? t = some l' ∧ l'.Inside depth (t :: ts) rest := by
  obtain ⟨l', hdrop, h', -⟩ := h.dropKey?
  obtain ⟨key, keys, hkeys, hdepth⟩ := h'.exists_keys
  have hinner : (if l'.inFlow then l'.keys.tail else l'.keys) = keys := by
    rw [if_pos h'.inFlow, hkeys, List.tail_cons]
  refine ⟨_, by rw [Lexer.closeFlow?, hdrop]; rfl, (h'.skip.setKeys ?_ ?_).emit t false⟩
  · rw [hinner, hdepth]
  · rw [hinner]
    exact fun key hk => h'.optional key (by simp [hkeys, hk])

/-- A token that is written as one character is read in one step. -/
theorem lexes_mark {depth' : Nat} {t : Token} (hspell : t.spell = [c]) (hc : EndsGap c)
    (h : ∀ (l : Lexer) (ts : List Token), l.Inside depth ts (c :: rest) →
      ∃ l', l.token? c rest = some l' ∧ l'.Inside depth' (t :: ts) rest) :
    Lexes depth depth' [t] rest := by
  intro l ts hl
  have hchars : spell [t] ++ rest = c :: rest := by simp [hspell]
  rw [hchars] at hl
  exact hl.run?_succ hc fun l₁ h₁ _ _ => h l₁ ts h₁

/-- A character that is read as an opening bracket. -/
theorem lexes_open {t : Token} (hspell : t.spell = [c]) (hc : EndsGap c)
    (htoken : ∀ l : Lexer, l.token? c rest = l.openFlow? t) : Lexes depth (depth + 1) [t] rest := by
  refine lexes_mark hspell hc fun l ts h => ?_
  rw [htoken]
  exact h.openFlow? t

/-- A character that is read as a closing bracket. -/
theorem lexes_close {t : Token} (hspell : t.spell = [c]) (hc : EndsGap c)
    (htoken : ∀ l : Lexer, l.token? c rest = l.closeFlow? t) :
    Lexes (depth + 1) depth [t] rest := by
  refine lexes_mark hspell hc fun l ts h => ?_
  rw [htoken]
  exact h.closeFlow? t

theorem lexes_flowListStart (depth : Nat) (rest : List Char) :
    Lexes depth (depth + 1) [.flowListStart] rest :=
  lexes_open rfl (by decide) fun l => by simp [token?, startsWithMark_of_ne]

theorem lexes_flowTableStart (depth : Nat) (rest : List Char) :
    Lexes depth (depth + 1) [.flowTableStart] rest :=
  lexes_open rfl (by decide) fun l => by simp [token?, startsWithMark_of_ne]

theorem lexes_flowListEnd (depth : Nat) (rest : List Char) :
    Lexes (depth + 1) depth [.flowListEnd] rest :=
  lexes_close rfl (by decide) fun l => by simp [token?, startsWithMark_of_ne]

theorem lexes_flowTableEnd (depth : Nat) (rest : List Char) :
    Lexes (depth + 1) depth [.flowTableEnd] rest :=
  lexes_close rfl (by decide) fun l => by simp [token?, startsWithMark_of_ne]

theorem lexes_comma (depth : Nat) (rest : List Char) : Lexes depth depth [.comma] rest := by
  refine lexes_mark (c := ',') rfl (by decide) fun l ts h => ?_
  have htoken : l.token? ',' rest = l.comma? := by
    simp [token?, startsWithMark_of_ne]
  obtain ⟨l', hdrop, h', -⟩ := h.dropKey?
  rw [htoken, Lexer.comma?, hdrop]
  exact ⟨_, rfl, h'.skip.emit _ _⟩

/-! ### Scalars -/

theorem Inside.scalar? {before text : List Char} (h : l.Inside depth ts (before ++ rest))
    (plain : Bool) (scan : List Char → Option Scanned)
    (hscan : scan (before ++ rest) = some ⟨text, rest, false⟩) :
    ∃ l', l.scalar? plain scan = some l' ∧
      l'.Inside depth (.scalar (.ofList text) plain :: ts) rest ∧
      (l.keyAllowed = false → l.NoKey → l'.keyAllowed = false ∧ l'.NoKey) := by
  obtain ⟨l', hsave, h', hno⟩ := h.saveKey?
  refine ⟨(l'.moveTo rest).emit (.scalar (.ofList text) plain) false, ?_, h'.moveTo.emit _ _,
    fun hallowed hnone => ⟨rfl, hno hallowed hnone⟩⟩
  simp [Lexer.scalar?, hsave, h'.rest, hscan]

/-- A quoted text. Where no key may start and none is pending, that stays so. -/
theorem Inside.quoted (s : String) (h : l.Inside depth ts (spell [.scalar s false] ++ rest)) :
    ∃ l' : Lexer, (∀ steps, l.run? (steps + 1) = l'.run? steps) ∧
      l'.Inside depth (.scalar s false :: ts) rest ∧
      (l.keyAllowed = false → l.NoKey → l'.keyAllowed = false ∧ l'.NoKey) := by
  have hspell : spell [.scalar s false] ++ rest =
      '\x22' :: (s.toList.flatMap escape ++ '\x22' :: rest) := by
    simp [Token.spell]
  rw [hspell] at h
  refine h.run?_succ (by decide) fun l₁ h₁ hallowed hno => ?_
  have htoken : l₁.token? '\x22' (s.toList.flatMap escape ++ '\x22' :: rest) =
      l₁.scalar? false fun cs => quoted? true cs.tail := by
    simp [token?, startsWithMark_of_ne]
  have hscan : quoted? true ('\x22' :: (s.toList.flatMap escape ++ '\x22' :: rest)).tail =
      some ⟨s.toList, rest, false⟩ := quoted?_escaped s.toList rest
  have hsplit : '\x22' :: (s.toList.flatMap escape ++ '\x22' :: rest) =
      ('\x22' :: s.toList.flatMap escape ++ ['\x22']) ++ rest := by simp
  rw [hsplit] at h₁ hscan
  obtain ⟨l', hl', hinside, hnone⟩ := h₁.scalar? false (fun cs => quoted? true cs.tail) hscan
  rw [String.ofList_toList] at hinside
  exact ⟨l', htoken.trans hl', hinside, fun ha hn => hnone (hallowed.trans ha) (hno hn)⟩

theorem lexes_quoted (depth : Nat) (s : String) (rest : List Char) :
    Lexes depth depth [.scalar s false] rest := by
  intro l ts h
  obtain ⟨l', hrun, h', -⟩ := h.quoted
  exact ⟨l', hrun, h'⟩

theorem Inside.token?_of_isAlphanum {cs : List Char} (h : l.Inside (depth + 1) ts cs)
    (hc : c.isAlphanum) (rest : List Char) : l.token? c rest = l.scalar? true (plain? true 0) := by
  have hne {d : Char} (hd : d.isAlphanum = false) : c ≠ d := ne_of_isAlphanum hc hd
  have hdash : c ≠ '-' := hne (by decide)
  have hdot : c ≠ '.' := hne (by decide)
  have hindicator : isIndicator c = false := by
    have hnone : "-?:,[]\x7b\x7d#&*!|>\x27\x22%@\x60".toList.all (!·.isAlphanum) := by decide
    rw [isIndicator, Bool.eq_false_iff, ne_eq, List.contains_iff_mem]
    exact fun hmem => hne (by simpa using List.all_eq_true.1 hnone c hmem) rfl
  have hplain : startsPlain true c rest = true := by simp [startsPlain, hindicator]
  simp (disch := decide) [token?, startsWithMark_of_ne hdash, startsWithMark_of_ne hdot, hne,
    hplain, h.indents, h.inFlow]

theorem lexes_word (depth : Nat) {s : String} (hs : IsWord s.toList) (hrest : AtFlowMark rest) :
    Lexes (depth + 1) (depth + 1) [.scalar s true] rest := by
  intro l ts h
  have hspell : spell [.scalar s true] ++ rest = s.toList ++ rest := by
    simp [Token.spell]
  rw [hspell] at h
  obtain ⟨c, more, hcons⟩ := List.exists_cons_of_ne_nil hs.ne_nil
  rw [hcons, List.cons_append] at h
  have hc : c.isAlphanum := hs.alphanum c (by rw [hcons]; exact List.mem_cons_self)
  refine h.run?_succ ?_ fun l₁ h₁ _ _ => ?_
  · exact ⟨isBreak_of_isAlphanum hc, ne_of_isAlphanum hc (by decide),
      ne_of_isAlphanum hc (by decide), ne_of_isAlphanum hc (by decide)⟩
  · have htoken := h₁.token?_of_isAlphanum hc (more ++ rest)
    rw [← List.cons_append, ← hcons] at h₁
    obtain ⟨l', hl', hinside, -⟩ := h₁.scalar? true _ (plain?_word hs hrest 0)
    rw [String.ofList_toList] at hinside
    exact ⟨l', htoken.trans hl', hinside⟩

/-! ### Keys -/

/-- A question mark inside brackets. No key may start after it, and none is pending. -/
theorem Inside.key (h : l.Inside (depth + 1) ts ('?' :: rest)) :
    ∃ l' : Lexer, (∀ steps, l.run? (steps + 1) = l'.run? steps) ∧
      l'.Inside (depth + 1) (.key :: ts) rest ∧ l'.keyAllowed = false ∧ l'.NoKey := by
  refine h.run?_succ (by decide) fun l₁ h₁ _ _ => ?_
  obtain ⟨l', hdrop, h', hno⟩ := h₁.dropKey?
  have htoken : l₁.token? '?' rest = l₁.key? := by
    simp [token?, startsWithMark_of_ne, h₁.inFlow]
  refine ⟨(l'.skip 1).emit .key false, ?_, h'.skip.emit _ _, rfl, hno⟩
  simp [htoken, Lexer.key?, openBlock, h₁.inFlow, hdrop, h'.inFlow]

/-- A colon inside brackets where no key is pending. -/
theorem Inside.value (h : l.Inside (depth + 1) ts (':' :: rest)) (hno : l.NoKey) :
    ∃ l' : Lexer, (∀ steps, l.run? (steps + 1) = l'.run? steps) ∧
      l'.Inside (depth + 1) (.value :: ts) rest := by
  refine h.run?_succ (by decide) fun l₁ h₁ _ hno₁ => ?_
  have htoken : l₁.token? ':' rest = l₁.value? := by
    simp [token?, startsWithMark_of_ne, h₁.inFlow]
  refine ⟨(l₁.skip 1).emit .value false, ?_, h₁.skip.emit _ _⟩
  have hflow : (l₁.skip 1).inFlow = true := h₁.inFlow
  obtain ⟨key, keys, hkeys, -⟩ := h₁.exists_keys
  have hkey : key = none := by
    have hhead := hno₁ hno
    rw [NoKey, hkeys] at hhead
    exact Option.some.inj hhead
  subst hkey
  unfold Lexer.value? at htoken
  rw [hkeys] at htoken
  simpa [openBlock, h₁.inFlow, hflow] using htoken

/-- An explicit key, its text, and the colon after it. -/
theorem lexes_key (depth : Nat) (s : String) (rest : List Char) :
    Lexes (depth + 1) (depth + 1) [.key, .scalar s false, .value] rest := by
  intro l ts h
  have hspell : spell [.key, .scalar s false, .value] ++ rest =
      '?' :: (spell [.scalar s false] ++ ':' :: rest) := by
    simp [Token.spell]
  rw [hspell] at h
  obtain ⟨l₁, hrun₁, h₁, hallowed, hno⟩ := h.key
  obtain ⟨l₂, hrun₂, h₂, hkept⟩ := h₁.quoted s
  obtain ⟨l₃, hrun₃, h₃⟩ := h₂.value (hkept hallowed hno).2
  refine ⟨l₃, fun steps => ?_, h₃⟩
  exact (hrun₁ _).trans ((hrun₂ _).trans (hrun₃ _))

end Lexer

end WireTypes.Document.Yaml
