import Mathlib.Data.List.TakeWhile
import WireTypes.Package.TagCursor
import WireTypes.Proofs.Failure
import WireTypes.Proofs.Trimming

/-!
# The grammar of struct tags

`IsTagText pairs cs`: the text `cs` consists of the given pairs of a key and a quoted body, with
spaces between and around them. It has no other pairs (`IsTagText.unique`). `IsEntry` says which
entry of a tag is that of a pair.

* `readPairs_eq_ok_iff`: the reader accepts the texts of the grammar in which no key comes twice.
* `readIn?_eq`: reading by offsets never cuts inside a character, and takes no more rounds than the
  text has characters and one.
* `read_grammar`: all of this about raw tags.
-/

set_option autoImplicit false

namespace WireTypes

/-! ## Pieces -/

namespace Text

theorem splitAtEach_eq_splitOn (sep : Char) (cs : List Char) :
    splitAtEach sep cs = cs.splitOn sep := by
  induction cs with
  | nil => rfl
  | cons c cs ih =>
    have hconsHead (pieces : List (List Char)) (h : pieces ≠ []) :
        consHead c pieces = pieces.modifyHead (c :: ·) := by
      cases pieces with
      | nil => exact absurd rfl h
      | cons piece rest => rfl
    simp only [splitAtEach, ih, List.splitOn_cons_eq_if_modifyHead, beq_iff_eq,
      hconsHead _ (List.splitOn_ne_nil sep cs)]

theorem not_mem_of_mem_splitAtEach {sep : Char} {cs piece : List Char}
    (h : piece ∈ splitAtEach sep cs) : sep ∉ piece := by
  induction cs generalizing piece with
  | nil =>
    rw [List.mem_singleton.1 h]
    exact List.not_mem_nil
  | cons c cs ih =>
    rw [splitAtEach] at h
    split at h
    · rcases List.mem_cons.1 h with rfl | h
      · exact List.not_mem_nil
      · exact ih h
    · rename_i hc
      cases hpieces : splitAtEach sep cs with
      | nil =>
        rw [hpieces] at h
        rw [List.mem_singleton.1 h]
        simpa using Ne.symm hc
      | cons first rest =>
        rw [hpieces] at h ih
        rcases List.mem_cons.1 h with rfl | h
        · rw [List.mem_cons, not_or]
          exact ⟨Ne.symm hc, ih List.mem_cons_self⟩
        · exact ih (List.mem_cons_of_mem _ h)

/-- The pieces of a text are those without separators that give the text again. -/
theorem splitAtEach_eq_iff {sep : Char} {cs : List Char} {pieces : List (List Char)} :
    splitAtEach sep cs = pieces ↔
      pieces ≠ [] ∧ (∀ piece ∈ pieces, sep ∉ piece) ∧ [sep].intercalate pieces = cs := by
  constructor
  · rintro rfl
    refine ⟨?_, fun piece h => not_mem_of_mem_splitAtEach h, ?_⟩
    · rw [splitAtEach_eq_splitOn]
      exact List.splitOn_ne_nil sep cs
    · rw [splitAtEach_eq_splitOn]
      exact List.intercalate_splitOn sep
  · rintro ⟨hne, hpieces, rfl⟩
    rw [splitAtEach_eq_splitOn]
    exact List.splitOn_intercalate sep hpieces hne

end Text

namespace Package

/-! ## The grammar -/

/-- The characters of a key, one at least. -/
structure IsKey (key : List Char) : Prop where
  ne_nil : key ≠ []
  chars : ∀ c ∈ key, Tag.isKeyChar c

/-- What stands between quotes: no quote and no backslash, unless a backslash precedes it. -/
inductive IsBody : List Char → Prop
  | nil : IsBody []
  | char {c : Char} {body : List Char} (hquote : c ≠ '\x22') (hbackslash : c ≠ '\\')
      (h : IsBody body) : IsBody (c :: body)
  | escape (c : Char) {body : List Char} (h : IsBody body) : IsBody ('\\' :: c :: body)

/-- A text that consists of pairs of a key and a body. -/
inductive IsTagText : List (List Char × List Char) → List Char → Prop
  | blank {blanks : List Char} (h : ∀ c ∈ blanks, c = ' ') : IsTagText [] blanks
  | pair {blanks key body rest : List Char} {pairs : List (List Char × List Char)}
      (hblanks : ∀ c ∈ blanks, c = ' ') (hkey : IsKey key) (hbody : IsBody body)
      (h : IsTagText pairs rest) :
      IsTagText ((key, body) :: pairs)
        (blanks ++ (key ++ ':' :: '\x22' :: (body ++ '\x22' :: rest)))

/-- A body with what its escapes stand for. -/
def unescaped : List Char → List Char
  | '\\' :: c :: rest => Tag.unescape c :: unescaped rest
  | c :: rest => c :: unescaped rest
  | [] => []

theorem unescaped_char {c : Char} (h : c ≠ '\\') (rest : List Char) :
    unescaped (c :: rest) = c :: unescaped rest := by
  rw [unescaped]
  exact fun _ _ hc => absurd hc h

/-- A text without one pair of enclosing back quotes, or as it is if it has none. -/
inductive IsUnquoted : List Char → List Char → Prop
  | quoted (text : List Char) : IsUnquoted text ('\x60' :: (text ++ ['\x60']))
  | bare {text : List Char} (h : ∀ inner, text ≠ '\x60' :: (inner ++ ['\x60'])) :
      IsUnquoted text text

/-- An entry is that of a pair: it has its key, and its name and options are the unescaped body, cut
at every comma. -/
structure IsEntry (pair : List Char × List Char) (e : TagPair) : Prop where
  key : e.key.toList = pair.1
  value : [','].intercalate ((e.name :: e.options).map String.toList) = unescaped pair.2
  noComma : ∀ part ∈ e.name :: e.options, ',' ∉ part.toList

/-- The entry of a pair. -/
def entryOf (pair : List Char × List Char) : TagPair :=
  .ofValue (.ofList pair.1) (unescaped pair.2)

theorem isEntry_iff {pair : List Char × List Char} {e : TagPair} :
    IsEntry pair e ↔ e = entryOf pair := by
  have hpieces : IsEntry pair e ↔ e.key = .ofList pair.1 ∧
      Text.splitAtEach ',' (unescaped pair.2) = (e.name :: e.options).map String.toList := by
    rw [Text.splitAtEach_eq_iff, List.forall_mem_map, ← String.toList_inj, String.toList_ofList]
    exact ⟨fun ⟨hkey, hvalue, hcomma⟩ => ⟨hkey, List.cons_ne_nil _ _, hcomma, hvalue⟩,
      fun ⟨hkey, _, hcomma, hvalue⟩ => ⟨hkey, hvalue, hcomma⟩⟩
  rw [hpieces, entryOf, TagPair.ofValue]
  constructor
  · rintro ⟨hkey, hvalue⟩
    have hparts : ((e.name :: e.options).map String.toList).map String.ofList =
        e.name :: e.options := by simp
    rw [hvalue, hparts, ← hkey]
  · intro h
    cases hsplit : Text.splitAtEach ',' (unescaped pair.2) with
    | nil => exact absurd rfl (Text.splitAtEach_eq_iff.1 hsplit).1
    | cons first rest =>
      rw [hsplit] at h
      rw [h]
      simp

theorem forall₂_isEntry_iff {pairs : List (List Char × List Char)} {entries : List TagPair} :
    List.Forall₂ IsEntry pairs entries ↔ entries = pairs.map entryOf := by
  induction pairs generalizing entries with
  | nil => exact List.forall₂_nil_left_iff
  | cons pair pairs ih =>
    rw [List.forall₂_cons_left_iff, List.map_cons]
    simp only [isEntry_iff, ih]
    constructor
    · rintro ⟨_, _, rfl, rfl, rfl⟩
      rfl
    · rintro rfl
      exact ⟨_, _, rfl, rfl, rfl⟩

/-! ## Bodies -/

/-- A body ends at its quote, so a text has one body at most at its start. -/
theorem IsBody.unique {body body' rest rest' : List Char} (h : IsBody body) (h' : IsBody body')
    (heq : body ++ '\x22' :: rest = body' ++ '\x22' :: rest') : body = body' ∧ rest = rest' := by
  induction h generalizing body' with
  | nil =>
    cases h' with
    | nil => exact ⟨rfl, (List.cons.inj heq).2⟩
    | char hquote => exact absurd (List.cons.inj heq).1.symm hquote
    | escape => cases (List.cons.inj heq).1
  | char hquote hbackslash _ ih =>
    cases h' with
    | nil => exact absurd (List.cons.inj heq).1 hquote
    | char _ _ h' =>
      simp only [List.cons_append, List.cons.injEq] at heq
      obtain ⟨rfl, heq⟩ := heq
      obtain ⟨rfl, hrest⟩ := ih h' heq
      exact ⟨rfl, hrest⟩
    | escape => exact absurd (List.cons.inj heq).1 hbackslash
  | escape c _ ih =>
    cases h' with
    | nil => cases (List.cons.inj heq).1
    | char _ hbackslash => exact absurd (List.cons.inj heq).1.symm hbackslash
    | escape c' h' =>
      simp only [List.cons_append, List.cons.injEq, true_and] at heq
      obtain ⟨rfl, heq⟩ := heq
      obtain ⟨rfl, hrest⟩ := ih h' heq
      exact ⟨rfl, hrest⟩

namespace Tag

theorem quoted?_char {c : Char} (hquote : c ≠ '\x22') (hbackslash : c ≠ '\\')
    (rest : List Char) :
    quoted? (c :: rest) = (quoted? rest).map fun (value, rest) => (c :: value, rest) := by
  rw [quoted?]
  · exact hquote
  · exact fun _ _ hc => absurd hc hbackslash
  · exact fun hc => absurd hc hbackslash

theorem quoted?_body {body : List Char} (h : IsBody body) (rest : List Char) :
    quoted? (body ++ '\x22' :: rest) = some (unescaped body, rest) := by
  induction h with
  | nil => rfl
  | char hquote hbackslash _ ih =>
    rw [List.cons_append, quoted?_char hquote hbackslash, ih, unescaped_char hbackslash]
    rfl
  | escape c _ ih =>
    rw [List.cons_append, List.cons_append, quoted?, ih]
    rfl

/-- A character that neither escapes another one nor is the last is no backslash. -/
theorem ne_backslash {c : Char} {cs : List Char}
    (hescape : ∀ d rest, c = '\\' → cs = d :: rest → False)
    (hend : c = '\\' → cs = [] → False) : c ≠ '\\' := by
  intro hc
  cases cs with
  | nil => exact hend hc rfl
  | cons d cs => exact hescape d cs hc rfl

/-- The reader of values stops at the first quote that ends a body. -/
theorem exists_body_of_quoted? {cs value rest : List Char} (h : quoted? cs = some (value, rest)) :
    ∃ body, IsBody body ∧ cs = body ++ '\x22' :: rest ∧ value = unescaped body := by
  fun_induction quoted? cs generalizing value with
  | case1 => cases h
  | case2 rest =>
    cases h
    exact ⟨[], .nil, rfl, rfl⟩
  | case3 c cs ih =>
    obtain ⟨⟨value, rest⟩, hq, heq⟩ := Option.map_eq_some_iff.1 h
    cases heq
    obtain ⟨body, hbody, rfl, rfl⟩ := ih hq
    exact ⟨'\\' :: c :: body, .escape c hbody, rfl, rfl⟩
  | case4 => cases h
  | case5 c cs hquote hescape hend ih =>
    have hbackslash := ne_backslash hescape hend
    obtain ⟨⟨value, rest⟩, hq, heq⟩ := Option.map_eq_some_iff.1 h
    cases heq
    obtain ⟨body, hbody, rfl, rfl⟩ := ih hq
    exact ⟨c :: body, .char hquote hbackslash hbody, rfl, (unescaped_char hbackslash body).symm⟩

end Tag

/-! ## Keys -/

theorem IsKey.takeWhile_append {key : List Char} (h : IsKey key) (rest : List Char) :
    (key ++ ':' :: rest).takeWhile Tag.isKeyChar = key := by
  rw [List.takeWhile_append_of_pos h.chars]
  exact List.append_nil key

theorem IsKey.dropWhile_append {key : List Char} (h : IsKey key) (rest : List Char) :
    (key ++ ':' :: rest).dropWhile Tag.isKeyChar = ':' :: rest := by
  rw [List.dropWhile_append_of_pos h.chars]
  rfl

/-- Spaces end where a key begins. -/
theorem IsKey.dropWhile_blanks {blanks key : List Char} (h : IsKey key)
    (hblanks : ∀ c ∈ blanks, c = ' ') (rest : List Char) :
    (blanks ++ (key ++ rest)).dropWhile (· = ' ') = key ++ rest := by
  rw [List.dropWhile_append_of_pos fun c hc => decide_eq_true (hblanks c hc)]
  cases key with
  | nil => exact absurd rfl h.ne_nil
  | cons c key =>
    have hc : c ≠ ' ' := by
      rintro rfl
      exact absurd (h.chars ' ' List.mem_cons_self) (by decide)
    rw [List.cons_append, List.dropWhile_cons_of_neg (by simpa using hc)]

theorem dropWhile_blanks {blanks : List Char} (h : ∀ c ∈ blanks, c = ' ') :
    blanks.dropWhile (· = ' ') = [] :=
  List.dropWhile_eq_nil_iff.2 fun c hc => decide_eq_true (h c hc)

/-- A text with a pair where its spaces end. -/
theorem IsTagText.of_dropWhile {cs key body rest : List Char}
    {pairs : List (List Char × List Char)} (hkey : IsKey key) (hbody : IsBody body)
    (h : IsTagText pairs rest)
    (hcs : cs.dropWhile (· = ' ') = key ++ ':' :: '\x22' :: (body ++ '\x22' :: rest)) :
    IsTagText ((key, body) :: pairs) cs := by
  have hblanks : ∀ c ∈ cs.takeWhile (· = ' '), c = ' ' := by
    intro c hc
    simpa using List.mem_takeWhile_imp hc
  rw [← List.takeWhile_append_dropWhile (p := (· = ' ')) (l := cs), hcs]
  exact .pair hblanks hkey hbody h

namespace Tag

theorem pair?_append {key body : List Char} (hkey : IsKey key) (hbody : IsBody body)
    (rest : List Char) :
    pair? (key ++ ':' :: '\x22' :: (body ++ '\x22' :: rest)) =
      .ok (.ofList key, unescaped body, rest) := by
  have hne : (String.ofList key).isEmpty = false := by
    simpa using hkey.ne_nil
  unfold pair?
  simp only [hkey.takeWhile_append, hkey.dropWhile_append, hne, quoted?_body hbody]
  rfl

/-- What is read as a pair is a pair. -/
theorem exists_pair_of_pair? {cs value rest : List Char} {key : String}
    (h : pair? cs = .ok (key, value, rest)) :
    ∃ k body, IsKey k ∧ IsBody body ∧ cs = k ++ ':' :: '\x22' :: (body ++ '\x22' :: rest) ∧
      key = .ofList k ∧ value = unescaped body := by
  unfold pair? at h
  simp only at h
  split at h
  · cases h
  · rename_i hne
    split at h
    · rename_i input hinput
      split at h
      · rename_i value' rest' hq
        cases h
        obtain ⟨body, hbody, rfl, rfl⟩ := exists_body_of_quoted? hq
        refine ⟨cs.takeWhile isKeyChar, body, ⟨?_, ?_⟩, hbody, ?_, rfl, rfl⟩
        · intro hnil
          rw [hnil] at hne
          exact hne rfl
        · exact fun c hc => List.mem_takeWhile_imp hc
        · rw [← hinput, List.takeWhile_append_dropWhile]
      · cases h
    · cases h
    · cases h

theorem key_ofValue (key : String) (value : List Char) :
    (TagPair.ofValue key value).key = key := by
  unfold TagPair.ofValue
  split <;> rfl

/-- One round of the reader, by the pair at its start. -/
theorem readPairs_eq (cs : List Char) (before : List TagPair) :
    readPairs cs before =
      if (cs.dropWhile (· = ' ')).isEmpty then pure before
      else (pair? (cs.dropWhile (· = ' '))).bind fun (key, value, rest) =>
        if before.any (·.key = key) then throw (.duplicateKey key)
        else readPairs rest (before ++ [.ofValue key value]) := by
  rw [readPairs]
  simp only
  split
  · rfl
  · split
    · rename_i h
      rw [h]
      rfl
    · rename_i h
      rw [h]
      rfl

theorem readPairs_blank {blanks : List Char} (h : ∀ c ∈ blanks, c = ' ')
    (before : List TagPair) : readPairs blanks before = .ok before := by
  rw [readPairs_eq, dropWhile_blanks h]
  rfl

theorem readPairs_pair {blanks key body : List Char} (hblanks : ∀ c ∈ blanks, c = ' ')
    (hkey : IsKey key) (hbody : IsBody body) (rest : List Char) (before : List TagPair) :
    readPairs (blanks ++ (key ++ ':' :: '\x22' :: (body ++ '\x22' :: rest))) before =
      if before.any (·.key = .ofList key) then throw (.duplicateKey (.ofList key))
      else readPairs rest (before ++ [entryOf (key, body)]) := by
  rw [readPairs_eq, hkey.dropWhile_blanks hblanks, if_neg (by simp), pair?_append hkey hbody]
  rfl

/-- What the reader accepts is a text of the grammar, and its keys are new. -/
theorem exists_pairs_of_readPairs {cs : List Char} {before found : List TagPair}
    (h : readPairs cs before = .ok found) :
    ∃ pairs, IsTagText pairs cs ∧ (pairs.map Prod.fst).Nodup ∧
      (∀ pair ∈ pairs, ∀ e ∈ before, e.key ≠ .ofList pair.1) ∧
      found = before ++ pairs.map entryOf := by
  fun_induction readPairs cs before with
  | case1 cs before cs' hempty =>
    cases h
    have hblank : ∀ c ∈ cs, c = ' ' := by
      simpa [cs', List.dropWhile_eq_nil_iff] using hempty
    exact ⟨[], .blank hblank, .nil, fun _ h => (nomatch h), (List.append_nil _).symm⟩
  | case2 => cases h
  | case3 => cases h
  | case4 cs before cs' _ key value rest hpair hfresh ih =>
    obtain ⟨pairs, htext, hnodup, hbefore, rfl⟩ := ih h
    obtain ⟨k, body, hkey, hbody, hcs, rfl, rfl⟩ := exists_pair_of_pair? hpair
    refine ⟨(k, body) :: pairs, .of_dropWhile hkey hbody htext hcs, ?_, ?_, ?_⟩
    -- the later pairs have other keys because this one is then among those before
    · rw [List.map_cons, List.nodup_cons]
      refine ⟨fun hmem => ?_, hnodup⟩
      obtain ⟨pair, hp, rfl⟩ := List.mem_map.1 hmem
      exact hbefore pair hp _ List.mem_concat_self (key_ofValue _ _)
    · refine List.forall_mem_cons.2 ⟨fun e he hk => hfresh ?_, fun pair hp e he => ?_⟩
      · exact List.any_eq_true.2 ⟨e, he, decide_eq_true hk⟩
      · exact hbefore pair hp e (List.mem_append_left _ he)
    · rw [List.append_assoc]
      rfl

/-- Texts of the grammar with new keys are accepted. -/
theorem readPairs_of_pairs {pairs : List (List Char × List Char)} {cs : List Char}
    (h : IsTagText pairs cs) {before : List TagPair} (hnodup : (pairs.map Prod.fst).Nodup)
    (hbefore : ∀ pair ∈ pairs, ∀ e ∈ before, e.key ≠ .ofList pair.1) :
    readPairs cs before = .ok (before ++ pairs.map entryOf) := by
  induction h generalizing before with
  | blank h => rw [readPairs_blank h, List.map_nil, List.append_nil]
  | @pair blanks key body rest pairs hblanks hkey hbody _ ih =>
    rw [List.map_cons, List.nodup_cons] at hnodup
    obtain ⟨hfirst, hrest⟩ := List.forall_mem_cons.1 hbefore
    have hfresh : before.any (·.key = .ofList key) = false := by
      simpa using hfirst
    have hbefore' : ∀ pair ∈ pairs, ∀ e ∈ before ++ [entryOf (key, body)],
        e.key ≠ .ofList pair.1 := by
      intro pair hp e he
      rcases List.mem_append.1 he with he | he
      · exact hrest pair hp e he
      · rw [List.mem_singleton.1 he, entryOf, key_ofValue]
        intro hk
        exact hnodup.1 (List.mem_map.2 ⟨pair, hp, (String.ofList_inj.1 hk).symm⟩)
    rw [readPairs_pair hblanks hkey hbody, hfresh, if_neg Bool.false_ne_true,
      ih hnodup.2 hbefore', List.append_assoc]
    rfl

/-- The reader accepts the texts of the grammar in which no key comes twice. -/
theorem readPairs_eq_ok_iff {cs : List Char} {found : List TagPair} :
    readPairs cs [] = .ok found ↔ ∃ pairs, IsTagText pairs cs ∧ (pairs.map Prod.fst).Nodup ∧
      found = pairs.map entryOf := by
  constructor
  · intro h
    obtain ⟨pairs, htext, hnodup, -, rfl⟩ := exists_pairs_of_readPairs h
    exact ⟨pairs, htext, hnodup, rfl⟩
  · rintro ⟨pairs, htext, hnodup, rfl⟩
    exact readPairs_of_pairs htext hnodup fun _ _ _ he => (nomatch he)

end Tag

/-- Where the pairs of a text begin. -/
theorem IsTagText.dropWhile {pairs : List (List Char × List Char)} {cs : List Char}
    (h : IsTagText pairs cs) :
    pairs = [] ∧ cs.dropWhile (· = ' ') = [] ∨
      ∃ key body rest more, pairs = (key, body) :: more ∧ IsKey key ∧ IsBody body ∧
        IsTagText more rest ∧
        cs.dropWhile (· = ' ') = key ++ ':' :: '\x22' :: (body ++ '\x22' :: rest) := by
  cases h with
  | blank h => exact .inl ⟨rfl, dropWhile_blanks h⟩
  | pair hblanks hkey hbody h =>
    exact .inr ⟨_, _, _, _, rfl, hkey, hbody, h, hkey.dropWhile_blanks hblanks _⟩

/-- A text has its pairs in one way only. -/
theorem IsTagText.unique {pairs pairs' : List (List Char × List Char)} {cs : List Char}
    (h : IsTagText pairs cs) (h' : IsTagText pairs' cs) : pairs = pairs' := by
  induction h generalizing pairs' with
  | blank h =>
    obtain ⟨rfl, -⟩ | ⟨key, body, rest, more, -, -, -, -, heq⟩ := h'.dropWhile
    · rfl
    · rw [dropWhile_blanks h] at heq
      simp at heq
  | pair hblanks hkey hbody _ ih =>
    have hdrop := hkey.dropWhile_blanks hblanks
    obtain ⟨-, heq⟩ | ⟨key', body', rest', more, rfl, hkey', hbody', h', heq⟩ := h'.dropWhile
    · rw [hdrop] at heq
      simp at heq
    · rw [hdrop] at heq
      have hk := congrArg (List.takeWhile Tag.isKeyChar) heq
      have hd := congrArg (List.dropWhile Tag.isKeyChar) heq
      rw [hkey.takeWhile_append, hkey'.takeWhile_append] at hk
      rw [hkey.dropWhile_append, hkey'.dropWhile_append] at hd
      simp only [List.cons.injEq, true_and] at hd
      obtain ⟨rfl, rfl⟩ := hbody.unique hbody' hd
      rw [hk, ih h']

namespace Tag

/-! ## Offsets -/

theorem closing?_char {c : Char} (hquote : c ≠ '\x22') (hbackslash : c ≠ '\\')
    (rest : List Char) (offset : Nat) (value : List Char) :
    closing? (c :: rest) offset value = closing? rest (offset + c.utf8Size) (value ++ [c]) := by
  rw [closing?]
  · exact hquote
  · exact fun _ _ hc => absurd hc hbackslash
  · exact fun hc => absurd hc hbackslash

/-- The quote is found at the size of the body. -/
theorem closing?_body {body : List Char} (h : IsBody body) (rest : List Char) (offset : Nat)
    (value : List Char) :
    closing? (body ++ '\x22' :: rest) offset value =
      some (value ++ unescaped body, offset + Text.byteSize body) := by
  induction h generalizing offset value with
  | nil =>
    rw [List.nil_append, closing?, unescaped, List.append_nil]
    rfl
  | char hquote hbackslash _ ih =>
    rw [List.cons_append, closing?_char hquote hbackslash, ih, unescaped_char hbackslash,
      List.append_assoc, Nat.add_assoc]
    rfl
  | escape c _ ih =>
    rw [List.cons_append, List.cons_append, closing?, ih, List.append_assoc, Nat.add_assoc,
      Nat.add_assoc]
    rfl

theorem closing?_eq_none {cs : List Char} (h : quoted? cs = none) (offset : Nat)
    (value : List Char) : closing? cs offset value = none := by
  fun_induction closing? cs offset value with
  | case1 => rfl
  | case2 => cases h
  | case3 c rest offset value ih =>
    rw [quoted?, Option.map_eq_none_iff] at h
    exact ih h
  | case4 => rfl
  | case5 c rest offset value hquote hescape hend ih =>
    rw [quoted?_char hquote (ne_backslash hescape hend), Option.map_eq_none_iff] at h
    exact ih h

theorem quotedBy?_eq (cs : List Char) : quotedBy? cs = some (quoted? cs) := by
  unfold quotedBy?
  cases hq : quoted? cs with
  | none => rw [closing?_eq_none hq]
  | some found =>
    obtain ⟨value, rest⟩ := found
    obtain ⟨body, hbody, rfl, rfl⟩ := exists_body_of_quoted? hq
    have hsize : 0 + Text.byteSize body + 1 = Text.byteSize (body ++ ['\x22']) := by
      rw [Text.byteSize_append, Nat.zero_add]
      rfl
    have hcut := Text.cut?_byteSize (body ++ ['\x22']) rest
    rw [← hsize, List.append_assoc, List.singleton_append] at hcut
    rw [closing?_body hbody]
    simp only [hcut]
    rfl

/-- A pair by its parts: the key, the colon, the quote and the value. -/
theorem pair?_eq (cs : List Char) :
    pair? cs =
      let key := String.ofList (cs.takeWhile isKeyChar)
      if key.isEmpty then throw (.missingKey (.ofList (cs.dropWhile isKeyChar)))
      else match Text.strip? ':' (cs.dropWhile isKeyChar) with
        | none => throw (.missingColon key)
        | some rest => match Text.strip? '\x22' rest with
          | none => throw (.unquoted key)
          | some input => match quoted? input with
            | none => throw (.unterminated key)
            | some (value, rest) => pure (key, value, rest) := by
  unfold pair?
  simp only
  split
  · rfl
  · split
    · rename_i input hrest
      rw [hrest, Text.strip?_cons]
      simp only [Text.strip?_cons]
      cases quoted? input <;> rfl
    · rename_i tail hquote hrest
      rw [hrest, Text.strip?_cons]
      simp only [Text.strip?_eq_none hquote]
    · rename_i hquote hcolon
      rw [Text.strip?_eq_none hcolon]

/-- A pair is cut where its key ends, which is not inside a character. -/
theorem pairBy?_eq (cs : List Char) : pairBy? cs = some (pair? cs) := by
  have hend := Text.findOffset?_getD (!isKeyChar ·) cs
  simp only [Bool.not_not] at hend
  have hcut := Text.cut?_byteSize (cs.takeWhile isKeyChar) (cs.dropWhile isKeyChar)
  rw [List.takeWhile_append_dropWhile] at hcut
  rw [pair?_eq]
  unfold pairBy?
  simp only [hend, hcut, quotedBy?_eq, bind, Option.bind]
  cases (String.ofList (cs.takeWhile isKeyChar)).isEmpty with
  | true => rfl
  | false =>
    cases Text.strip? ':' (cs.dropWhile isKeyChar) with
    | none => rfl
    | some rest =>
      dsimp only
      cases Text.strip? '\x22' rest with
      | none => rfl
      | some input =>
        dsimp only
        cases quoted? input <;> rfl

/-- Every round takes characters away, and none fails. -/
theorem readPairsIn?_eq {rounds : Nat} {cs : List Char} (h : cs.length < rounds)
    (before : List TagPair) : readPairsIn? rounds cs before = some (readPairs cs before) := by
  induction rounds generalizing cs before with
  | zero => omega
  | succ rounds ih =>
    have hblanks := (List.dropWhile_sublist (l := cs) (· = ' ')).length_le
    rw [readPairsIn?, readPairs_eq]
    simp only [pairBy?_eq]
    split
    · rfl
    · cases hpair : pair? (cs.dropWhile (· = ' ')) with
      | error e => rfl
      | ok found =>
        obtain ⟨key, value, rest⟩ := found
        have hrest := length_pair? hpair
        simp only [bind, Option.bind, Except.bind]
        split
        · rfl
        · exact ih (by omega) _

/-! ## Raw tags -/

theorem isUnquoted_iff {text cs : List Char} : IsUnquoted text cs ↔ text = stripBackQuotes cs := by
  constructor
  · rintro (_ | h)
    · simp [stripBackQuotes]
    · unfold stripBackQuotes
      split
      · rename_i rest
        rw [if_neg]
        intro hlast
        obtain ⟨inner, rfl⟩ := List.getLast?_eq_some_iff.1 hlast
        exact h inner rfl
      · rfl
  · rintro rfl
    unfold stripBackQuotes
    split
    · rename_i rest
      split
      · rename_i hlast
        obtain ⟨inner, rfl⟩ := List.getLast?_eq_some_iff.1 hlast
        rw [List.dropLast_concat]
        exact .quoted inner
      · rename_i hlast
        refine .bare fun inner heq => hlast ?_
        rw [(List.cons.inj heq).2, List.getLast?_concat]
    · rename_i hquote
      exact .bare fun inner heq => hquote _ heq

theorem length_stripBackQuotes_le (cs : List Char) : (stripBackQuotes cs).length ≤ cs.length := by
  generalize htext : stripBackQuotes cs = text
  cases isUnquoted_iff.2 htext.symm with
  | quoted =>
    rw [List.length_cons, List.length_append]
    omega
  | bare => exact Nat.le_refl _

/-- Reading by offsets is reading. -/
theorem readIn?_eq {rounds : Nat} {raw : String} (h : raw.length < rounds) :
    readIn? rounds raw = some (read raw) := by
  have hstrip := length_stripBackQuotes_le (Text.trim raw.toList)
  have htrim : (Text.trim raw.toList).length ≤ raw.toList.length :=
    (Text.dropEndWhile_isPrefix _ _).length_le.trans (List.dropWhile_sublist _).length_le
  rw [String.length_toList] at htrim
  rw [readIn?, readPairsIn?_eq (by omega)]
  rfl

/-- A raw tag is accepted exactly if it is a text of the grammar in which no key comes twice, apart
from blanks around it and from one pair of back quotes. Its pairs are then unique, and its entries
are theirs. Reading it by offsets comes to the same end, and never cuts inside a character. -/
theorem read_grammar (raw : String) :
    (∀ tag, read raw = .ok tag ↔ ∃ text pairs, IsUnquoted text (Text.trim raw.toList) ∧
      IsTagText pairs text ∧ (pairs.map Prod.fst).Nodup ∧ List.Forall₂ IsEntry pairs tag.pairs) ∧
    (∀ text pairs pairs', IsTagText pairs text → IsTagText pairs' text → pairs = pairs') ∧
    ∀ rounds, raw.length < rounds → readIn? rounds raw = some (read raw) := by
  refine ⟨fun tag => ?_, fun _ _ _ => IsTagText.unique, fun _ => readIn?_eq⟩
  have hread : read raw = .ok tag ↔
      readPairs (stripBackQuotes (Text.trim raw.toList)) [] = .ok tag.pairs := by
    rw [read]
    cases readPairs (stripBackQuotes (Text.trim raw.toList)) [] with
    | error e => exact ⟨fun h => (nomatch h), fun h => (nomatch h)⟩
    | ok found =>
      constructor
      · rintro ⟨⟩
        rfl
      · rintro ⟨⟩
        rfl
  rw [hread, readPairs_eq_ok_iff]
  constructor
  · rintro ⟨pairs, htext, hnodup, hfound⟩
    exact ⟨_, pairs, isUnquoted_iff.2 rfl, htext, hnodup, forall₂_isEntry_iff.2 hfound⟩
  · rintro ⟨text, pairs, hunquoted, htext, hnodup, hentries⟩
    obtain rfl := isUnquoted_iff.1 hunquoted
    exact ⟨pairs, htext, hnodup, forall₂_isEntry_iff.1 hentries⟩

/-- A tag in back quotes with escapes, with characters of several bytes, and without a space between
its pairs. -/
def greekTag : String := "\x60json:\"\\\"é,\"λ:\"\\n\" \x60"

theorem greekTag_read :
    let pairs := [(['j', 's', 'o', 'n'], ['\\', '\x22', 'é', ',']), (['λ'], ['\\', 'n'])]
    let tag : Tag := ⟨[⟨"json", "\"é", [""]⟩, ⟨"λ", "\n", []⟩]⟩
    IsTagText pairs "json:\"\\\"é,\"λ:\"\\n\" ".toList ∧ List.Forall₂ IsEntry pairs tag.pairs ∧
      read greekTag = .ok tag ∧ readIn? 30 greekTag = some (.ok tag) := by
  intro pairs tag
  have htext : IsTagText pairs "json:\"\\\"é,\"λ:\"\\n\" ".toList := by
    have hnil : ∀ c ∈ ([] : List Char), c = ' ' := List.forall_mem_nil _
    have hjson : IsKey ['j', 's', 'o', 'n'] := ⟨by decide, List.all_eq_true.1 (by decide)⟩
    have hgreek : IsKey ['λ'] := ⟨by decide, List.all_eq_true.1 (by decide)⟩
    refine .pair hnil hjson ?_ (.pair hnil hgreek (.escape 'n' .nil) ?_)
    · exact .escape '\x22' (.char (by decide) (by decide) (.char (by decide) (by decide) .nil))
    · exact .blank fun c hc => List.mem_singleton.1 hc
  have hentries : List.Forall₂ IsEntry pairs tag.pairs := forall₂_isEntry_iff.2 (by decide)
  obtain ⟨hread, -, hoffsets⟩ := read_grammar greekTag
  have htag : read greekTag = .ok tag :=
    (hread tag).2 ⟨_, pairs, isUnquoted_iff.2 (by decide +kernel), htext, by decide, hentries⟩
  exact ⟨htext, hentries, htag, (hoffsets 30 (by decide)).trans (congrArg some htag)⟩

end Tag

end Package

end WireTypes
