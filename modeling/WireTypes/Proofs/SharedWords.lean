import Mathlib.Data.List.Find
import WireTypes.Code.Constant.WordCut
import WireTypes.Proofs.Trimming

/-!
# Longest cuts

What is searched for in `sharedWords?` and in `sharedWordsIn?` is the longest cut of the names: an
offset strictly inside of each of them at which all can be cut, with the same text in front of it
and with two words around it (`IsCut`, `IsLongestCut`). The search goes through the characters of
the first name only, but neither a first name nor an order of names is part of what a cut is.

* `sharedWordsIn?_eq`: the search by offsets slices every name at offsets only where it can be cut,
  and finds the same.
* `sharedWords?_longest`: what is found is the text in front of the longest cut.
-/

set_option autoImplicit false

namespace WireTypes.Code

variable {first name start start' rest : List Char} {names more : List (List Char)}
  {offset offset' k n : Nat}

/-- There are two words on the two sides: one with which `start` ends, and one with which `rest`
starts. -/
def Splits (start rest : List Char) : Prop :=
  ∃ before ∈ start.getLast?, ∃ after ∈ rest.head?, isWordBreak before after

/-- An offset strictly inside of a name at which it can be cut into two words, with `start` in front
of the cut. -/
structure CutsBehind (start : List Char) (offset : Nat) (name : List Char) : Prop where
  pos : 0 < offset
  lt : offset < Text.byteSize name
  words : ∃ rest, Text.cut? offset name = some (start, rest) ∧ Splits start rest

/-- A cut of all names, in front of which they have the same text. -/
def IsCut (names : List (List Char)) (offset : Nat) (start : List Char) : Prop :=
  ∀ name ∈ names, CutsBehind start offset name

/-- The text in front of the longest cut of names. -/
def IsLongestCut (names : List (List Char)) (start : List Char) : Prop :=
  ∃ offset, IsCut names offset start ∧
    ∀ offset' start', IsCut names offset' start' → offset' ≤ offset

/-- A text starts with a capital letter. -/
def StartsUpper (cs : List Char) : Prop :=
  ∃ c ∈ cs.head?, Text.isUppercase c

/-! ## Cuts by characters -/

theorem Splits.ne_nil (h : Splits start rest) : start ≠ [] ∧ rest ≠ [] := by
  obtain ⟨before, hbefore, after, hafter, -⟩ := h
  exact ⟨List.ne_nil_of_mem (List.mem_of_getLast? hbefore),
    List.ne_nil_of_mem (List.mem_of_head? hafter)⟩

theorem breaksAt_append_iff : breaksAt (start ++ rest) start.length ↔ Splits start rest := by
  rcases List.eq_nil_or_concat start with rfl | ⟨init, before, rfl⟩
  · have hleft : breaksAt rest 0 = false := by rcases rest with _ | ⟨_, _ | _⟩ <;> rfl
    simp [hleft, Splits]
  · have hdrop : (init ++ [before] ++ rest).drop ((init ++ [before]).length - 1) =
        before :: rest := by simp
    cases rest with
    | nil => simp [breaksAt, Splits]
    | cons after rest => simp [breaksAt, Splits]

theorem byteSize_pos (h : start ≠ []) : 0 < Text.byteSize start := by
  obtain ⟨c, cs, rfl⟩ := List.exists_cons_of_ne_nil h
  have hpos := c.utf8Size_pos
  rw [Text.byteSize_cons]
  omega

theorem cutsBehind_iff : CutsBehind start offset name ↔
    Text.byteSize start = offset ∧ ∃ rest, name = start ++ rest ∧ Splits start rest := by
  constructor
  · rintro ⟨-, -, rest, hcut, hsplits⟩
    obtain ⟨rfl, hsize⟩ := Text.cut?_eq_some_iff.1 hcut
    exact ⟨hsize, rest, rfl, hsplits⟩
  · rintro ⟨rfl, rest, rfl, hsplits⟩
    have hpos := byteSize_pos hsplits.ne_nil.1
    have hrest := byteSize_pos hsplits.ne_nil.2
    refine ⟨hpos, ?_, rest, Text.cut?_byteSize _ _, hsplits⟩
    rw [Text.byteSize_append]
    omega

theorem cutsBehind_byteSize_iff : CutsBehind start (Text.byteSize start) name ↔
    name.take start.length = start ∧ breaksAt name start.length := by
  rw [cutsBehind_iff]
  constructor
  · rintro ⟨-, rest, rfl, hsplits⟩
    exact ⟨List.take_left, breaksAt_append_iff.2 hsplits⟩
  · rintro ⟨htake, hbreaks⟩
    obtain ⟨rest, rfl⟩ := List.prefix_iff_eq_take.2 htake.symm
    exact ⟨rfl, rest, rfl, breaksAt_append_iff.1 hbreaks⟩

theorem isCommonCut_iff (hk : k ≤ first.length) : isCommonCut first names k ↔
    IsCut names (Text.byteSize (first.take k)) (first.take k) := by
  have hlength : (first.take k).length = k := List.length_take_of_le hk
  simp only [isCommonCut, IsCut, cutsBehind_byteSize_iff, hlength, List.all_eq_true,
    Bool.and_eq_true, decide_eq_true_eq]

/-- Every cut is one of the first name's. -/
theorem IsCut.exists_take (h : IsCut (first :: more) offset start) :
    ∃ k < first.length, first.take k = start ∧ Text.byteSize start = offset ∧
      isCommonCut first (first :: more) k := by
  obtain ⟨hsize, rest, hfirst, hsplits⟩ := cutsBehind_iff.1 (h first List.mem_cons_self)
  have htake : first.take start.length = start := by rw [hfirst, List.take_left]
  have hrest := List.length_pos_of_ne_nil hsplits.ne_nil.2
  have hlt : start.length < first.length := by
    rw [hfirst, List.length_append]
    omega
  refine ⟨start.length, hlt, htake, hsize, (isCommonCut_iff hlt.le).2 ?_⟩
  rw [htake, hsize]
  exact h

/-! ## The longest cut -/

theorem find?_reverse_range {p : Nat → Bool} : (List.range n).reverse.find? p = some k ↔
    k < n ∧ p k ∧ ∀ j < n, p j → j ≤ k := by
  induction n with
  | zero => simp
  | succ n ih =>
    rw [List.range_succ, List.reverse_append, List.reverse_singleton, List.singleton_append,
      List.find?_cons]
    cases hp : p n with
    | true =>
      simp only [Option.some.injEq]
      constructor
      · rintro rfl
        exact ⟨Nat.lt_succ_self _, hp, fun j hj _ => Nat.le_of_lt_succ hj⟩
      · rintro ⟨hk, -, hlast⟩
        exact Nat.le_antisymm (hlast n (Nat.lt_succ_self n) hp) (Nat.le_of_lt_succ hk)
    | false =>
      have hne (j : Nat) (hj : p j) : j ≠ n := by
        rintro rfl
        rw [hp] at hj
        cases hj
      simp only [ih]
      constructor
      · rintro ⟨hk, hpk, hlast⟩
        exact ⟨Nat.lt_succ_of_lt hk, hpk, fun j hj hpj =>
          hlast j (Nat.lt_of_le_of_ne (Nat.le_of_lt_succ hj) (hne j hpj)) hpj⟩
      · rintro ⟨hk, hpk, hlast⟩
        exact ⟨Nat.lt_of_le_of_ne (Nat.le_of_lt_succ hk) (hne k hpk), hpk, fun j hj hpj =>
          hlast j (Nat.lt_succ_of_lt hj) hpj⟩

theorem byteSize_take_le {j : Nat} (h : j ≤ k) :
    Text.byteSize (first.take j) ≤ Text.byteSize (first.take k) := by
  obtain ⟨rest, hrest⟩ := List.take_prefix_take_left (l := first) h
  rw [← hrest, Text.byteSize_append]
  omega

theorem longestCut?_some (h : longestCut? first (first :: more) = some k) :
    IsLongestCut (first :: more) (first.take k) := by
  obtain ⟨hk, hcut, hlast⟩ := find?_reverse_range.1 h
  refine ⟨_, (isCommonCut_iff hk.le).1 hcut, fun offset' start' h' => ?_⟩
  obtain ⟨j, hj, rfl, rfl, hcommon⟩ := h'.exists_take
  exact byteSize_take_le (hlast j hj hcommon)

theorem longestCut?_none (h : longestCut? first (first :: more) = none) :
    ¬IsCut (first :: more) offset start := by
  intro hcut
  obtain ⟨k, hk, -, -, hcommon⟩ := hcut.exists_take
  exact List.find?_eq_none.1 h k (List.mem_reverse.2 (List.mem_range.2 hk)) hcommon

theorem IsLongestCut.unique (hne : names ≠ []) (h : IsLongestCut names start)
    (h' : IsLongestCut names start') : start = start' := by
  obtain ⟨offset, hcut, hlongest⟩ := h
  obtain ⟨offset', hcut', hlongest'⟩ := h'
  have hoffset : offset = offset' := Nat.le_antisymm (hlongest' _ _ hcut) (hlongest _ _ hcut')
  obtain ⟨name, hname⟩ := List.exists_mem_of_ne_nil _ hne
  obtain ⟨rest, hrest, -⟩ := (hcut name hname).words
  obtain ⟨rest', hrest', -⟩ := (hcut' name hname).words
  rw [hoffset, hrest'] at hrest
  cases hrest
  rfl

/-- What is found, by the longest cut: without one, and where it is not behind a capital letter,
nothing is. -/
theorem sharedStart?_cases (hne : names ≠ []) :
    (∃ start, IsLongestCut names start ∧
      (StartsUpper (start.rdropWhile (· = '_')) ∧
          sharedStart? names = some (start.rdropWhile (· = '_')) ∨
        ¬StartsUpper (start.rdropWhile (· = '_')) ∧ sharedStart? names = none)) ∨
    (∀ offset start, ¬IsCut names offset start) ∧ sharedStart? names = none := by
  obtain ⟨first, more, rfl⟩ := List.exists_cons_of_ne_nil hne
  cases hcut : longestCut? first (first :: more) with
  | none => exact .inr ⟨fun _ _ => longestCut?_none hcut, by simp [sharedStart?, hcut]⟩
  | some k =>
    refine .inl ⟨first.take k, longestCut?_some hcut, ?_⟩
    have hupper : StartsUpper ((first.take k).rdropWhile (· = '_')) ↔
        ((first.take k).rdropWhile (· = '_')).head?.any Text.isUppercase := by
      simp only [StartsUpper, Option.any_eq_true, Option.mem_def]
    simp only [sharedStart?, hcut, Option.bind_eq_bind, Option.bind_some,
      Text.dropEndWhile_eq_rdropWhile, hupper]
    split
    · rename_i h
      exact .inl ⟨h, rfl⟩
    · rename_i h
      exact .inr ⟨h, rfl⟩

theorem sharedStart?_eq_some_iff (hne : names ≠ []) {shared : List Char} :
    sharedStart? names = some shared ↔ ∃ start, IsLongestCut names start ∧
      StartsUpper (start.rdropWhile (· = '_')) ∧ shared = start.rdropWhile (· = '_') := by
  obtain ⟨start, hstart, ⟨hupper, heq⟩ | ⟨hupper, heq⟩⟩ | ⟨hnone, heq⟩ := sharedStart?_cases hne
  · rw [heq]
    constructor
    · rintro ⟨⟩
      exact ⟨start, hstart, hupper, rfl⟩
    · rintro ⟨start', hstart', -, rfl⟩
      rw [hstart.unique hne hstart']
  · rw [heq]
    constructor
    · rintro ⟨⟩
    · rintro ⟨start', hstart', hupper', -⟩
      rw [← hstart.unique hne hstart'] at hupper'
      exact absurd hupper' hupper
  · rw [heq]
    constructor
    · rintro ⟨⟩
    · rintro ⟨start, ⟨offset, hcut, -⟩, -⟩
      exact absurd hcut (hnone offset start)

theorem sharedStart?_eq_none_iff (hne : names ≠ []) : sharedStart? names = none ↔
    (∀ offset start, ¬IsCut names offset start) ∨
      ∃ start, IsLongestCut names start ∧ ¬StartsUpper (start.rdropWhile (· = '_')) := by
  constructor
  · intro h
    obtain ⟨start, hstart, ⟨hupper, heq⟩ | ⟨hupper, -⟩⟩ | ⟨hnone, -⟩ := sharedStart?_cases hne
    · rw [h] at heq
      cases heq
    · exact .inr ⟨start, hstart, hupper⟩
    · exact .inl hnone
  · intro h
    refine Option.eq_none_iff_forall_ne_some.2 fun shared hshared => ?_
    obtain ⟨start, hstart, hupper, -⟩ := (sharedStart?_eq_some_iff hne).1 hshared
    obtain hnone | ⟨start', hstart', hupper'⟩ := h
    · obtain ⟨offset, hcut, -⟩ := hstart
      exact hnone offset start hcut
    · rw [hstart.unique hne hstart'] at hupper
      exact hupper' hupper

/-- A longest cut is one of the names in whichever order, and however often each is listed. -/
theorem sharedStart?_congr {names' : List (List Char)} (hne : names ≠ [])
    (h : ∀ name, name ∈ names ↔ name ∈ names') : sharedStart? names = sharedStart? names' := by
  have hne' : names' ≠ [] := by
    obtain ⟨name, hname⟩ := List.exists_mem_of_ne_nil _ hne
    exact List.ne_nil_of_mem ((h name).1 hname)
  have hcut (offset : Nat) (start : List Char) :
      IsCut names offset start ↔ IsCut names' offset start := by
    simp only [IsCut, h]
  refine Option.ext fun shared => ?_
  rw [sharedStart?_eq_some_iff hne, sharedStart?_eq_some_iff hne']
  simp only [IsLongestCut, hcut]

/-- What is found is not empty, and something follows it in every name. -/
theorem sharedStart?_proper (hne : names ≠ []) {shared : List Char}
    (h : sharedStart? names = some shared) (hname : name ∈ names) :
    shared ≠ [] ∧ ∃ rest ≠ [], name = shared ++ rest := by
  obtain ⟨start, ⟨offset, hcut, -⟩, hupper, rfl⟩ := (sharedStart?_eq_some_iff hne).1 h
  obtain ⟨-, rest, rfl, hsplits⟩ := cutsBehind_iff.1 (hcut name hname)
  obtain ⟨c, hc, -⟩ := hupper
  obtain ⟨underscores, hstart⟩ := List.rdropWhile_prefix (· = '_') start
  refine ⟨List.ne_nil_of_mem (List.mem_of_head? hc), underscores ++ rest, ?_, ?_⟩
  · exact List.append_ne_nil_of_right_ne_nil _ hsplits.ne_nil.2
  · rw [← List.append_assoc, hstart]

/-! ## The search by offsets -/

theorem charOffsets_eq (offset : Nat) (cs : List Char) : charOffsets offset cs =
    (List.range cs.length).map fun k => offset + Text.byteSize (cs.take k) := by
  induction cs generalizing offset with
  | nil => rfl
  | cons c cs ih =>
    rw [charOffsets, ih, List.length_cons, List.range_succ_eq_map, List.map_cons, List.map_map]
    refine congrArg (offset :: ·) (List.map_congr_left fun k _ => ?_)
    simp only [Function.comp_apply, Nat.succ_eq_add_one, List.take_succ_cons, Text.byteSize_cons,
      Nat.add_assoc]

theorem findM?_map_eq_some {α β : Type} {f : α → β} {g : β → Option Bool} {p : α → Bool}
    {l : List α} (h : ∀ a ∈ l, g (f a) = some (p a)) :
    (l.map f).findM? g = some ((l.find? p).map f) := by
  induction l with
  | nil => rfl
  | cons a l ih =>
    rw [List.map_cons, List.findM?, h a List.mem_cons_self, List.find?_cons]
    cases p a with
    | true => rfl
    | false => exact ih fun b hb => h b (List.mem_cons_of_mem _ hb)

theorem allM_eq_some {α : Type} {g : α → Option Bool} {p : α → Bool} {l : List α}
    (h : ∀ a ∈ l, g a = some (p a)) : l.allM g = some (l.all p) := by
  induction l with
  | nil => rfl
  | cons a l ih =>
    rw [List.allM, h a List.mem_cons_self, List.all_cons]
    cases p a with
    | true => exact ih fun b hb => h b (List.mem_cons_of_mem _ hb)
    | false => rfl

theorem breaksIn?_byteSize (start rest : List Char) :
    breaksIn? (start ++ rest) (Text.byteSize start) =
      some (breaksAt (start ++ rest) start.length) := by
  rw [breaksIn?, Text.cut?_byteSize, Option.map_some, Option.some.injEq, Bool.eq_iff_iff,
    breaksAt_append_iff, Splits]
  cases hlast : start.getLast? <;> cases hhead : rest.head? <;> simp [hlast, hhead]

/-- Texts are compared at offsets only at which both can be cut. -/
theorem startsAlikeIn?_byteSize (start rest name : List Char) :
    startsAlikeIn? (start ++ rest) (Text.byteSize start) name =
      some (name.take start.length = start && breaksAt name start.length) := by
  by_cases htake : name.take start.length = start
  · obtain ⟨tail, rfl⟩ := List.prefix_iff_eq_take.2 htake.symm
    rw [startsAlikeIn?, Text.byteSize_append]
    cases tail with
    | nil =>
      have hbreaks : ¬breaksAt (start ++ []) start.length :=
        fun h => (breaksAt_append_iff.1 h).ne_nil.2 rfl
      rw [List.append_nil] at hbreaks
      simp [hbreaks]
    | cons c tail =>
      have hpos := c.utf8Size_pos
      simp [Text.cut?_byteSize, breaksIn?_byteSize]
      omega
  · have hstart (tail : List Char) : name ≠ start ++ tail := by
      rintro rfl
      exact htake List.take_left
    rw [startsAlikeIn?]
    cases hcut : Text.cut? (Text.byteSize start) name with
    | none => simp [htake]
    | some cut =>
      obtain ⟨before, tail⟩ := cut
      have hbefore : before ≠ start := by
        rintro rfl
        exact hstart tail (Text.cut?_eq_some_iff.1 hcut).1
      simp [htake, hbefore, Text.cut?_byteSize]

theorem startsAlikeIn?_all (hk : k ≤ first.length) (names : List (List Char)) :
    names.allM (startsAlikeIn? first (Text.byteSize (first.take k))) =
      some (isCommonCut first names k) := by
  refine allM_eq_some fun name _ => ?_
  have h := startsAlikeIn?_byteSize (first.take k) (first.drop k) name
  rw [List.take_append_drop, List.length_take_of_le hk] at h
  exact h

theorem longestCutIn?_eq (hne : names ≠ []) : longestCutIn? first names =
    some ((longestCut? first names).map fun k => Text.byteSize (first.take k)) := by
  have hoffsets : charOffsets 0 first =
      (List.range first.length).map fun k => Text.byteSize (first.take k) := by
    simp only [charOffsets_eq, Nat.zero_add]
  rw [longestCutIn?, hoffsets, List.filter_map, ← List.map_reverse, ← List.filter_reverse,
    findM?_map_eq_some (p := isCommonCut first names), List.find?_filter]
  · refine congrArg (fun k => some (Option.map _ k)) (List.find?_congr fun k hk => ?_)
    have hk : k < first.length := List.mem_range.1 (List.mem_reverse.1 hk)
    -- there is no cut at the start of a name: that the start is left out does not matter
    have hpos (h : isCommonCut first names k) : 0 < Text.byteSize (first.take k) := by
      obtain ⟨name, hname⟩ := List.exists_mem_of_ne_nil _ hne
      exact ((isCommonCut_iff hk.le).1 h name hname).pos
    rw [Bool.eq_iff_iff, decide_eq_true_iff, Function.comp_apply, decide_eq_true_iff]
    exact and_iff_right_of_imp hpos
  · intro k hk
    have hk := (List.mem_filter.1 hk).1
    exact startsAlikeIn?_all (List.mem_range.1 (List.mem_reverse.1 hk)).le names

/-- Names are sliced only where they can be cut, and the search by offsets finds the same as the one
by characters. -/
theorem sharedWordsIn?_eq (names : List String) :
    sharedWordsIn? names = some (sharedWords? names) := by
  rw [sharedWordsIn?, sharedWords?]
  cases names.map String.toList with
  | nil => rfl
  | cons first more =>
    simp only [sharedStart?, longestCutIn?_eq (List.cons_ne_nil _ _), Option.bind_eq_bind,
      Option.bind_some]
    cases longestCut? first (first :: more) with
    | none => rfl
    | some k =>
      have hcut := Text.cut?_byteSize (first.take k) (first.drop k)
      rw [List.take_append_drop] at hcut
      simp only [Option.map_some, hcut, Option.bind_some]
      split <;> rfl

/-- The words shared by names are the text in front of their longest cut, without underscores at its
end. There are none if the names have no cut, or if that text does not start with a capital letter.
The words are not empty and stop before the end of every name, they do not depend on the order of
the names, and the search by offsets finds them without slicing outside of a name or inside of a
character. -/
theorem sharedWords?_longest {names : List String} (hne : names ≠ []) :
    (∀ words, sharedWords? names = some words ↔
      ∃ start, IsLongestCut (names.map String.toList) start ∧
        StartsUpper (start.rdropWhile (· = '_')) ∧ words = .ofList (start.rdropWhile (· = '_'))) ∧
    (sharedWords? names = none ↔
      (∀ offset start, ¬IsCut (names.map String.toList) offset start) ∨
        ∃ start, IsLongestCut (names.map String.toList) start ∧
          ¬StartsUpper (start.rdropWhile (· = '_'))) ∧
    (∀ words, sharedWords? names = some words →
      words ≠ "" ∧ ∀ name ∈ names, ∃ rest ≠ "", name = words ++ rest) ∧
    (∀ names', names.Perm names' → sharedWords? names' = sharedWords? names) ∧
    sharedWordsIn? names = some (sharedWords? names) := by
  have htexts : names.map String.toList ≠ [] := by simpa using hne
  refine ⟨fun words => ?_, ?_, fun words h => ?_, fun names' h => ?_, sharedWordsIn?_eq names⟩
  · simp only [sharedWords?, Option.map_eq_some_iff, sharedStart?_eq_some_iff htexts]
    constructor
    · rintro ⟨_, ⟨start, hstart, hupper, rfl⟩, rfl⟩
      exact ⟨start, hstart, hupper, rfl⟩
    · rintro ⟨start, hstart, hupper, rfl⟩
      exact ⟨_, ⟨start, hstart, hupper, rfl⟩, rfl⟩
  · rw [sharedWords?, Option.map_eq_none_iff, sharedStart?_eq_none_iff htexts]
  · obtain ⟨shared, hshared, rfl⟩ := Option.map_eq_some_iff.1 h
    have hproper (name : String) (hname : name ∈ names) :=
      sharedStart?_proper htexts hshared (List.mem_map_of_mem (f := String.toList) hname)
    refine ⟨?_, fun name hname => ?_⟩
    · obtain ⟨name, hname⟩ := List.exists_mem_of_ne_nil _ hne
      simpa using (hproper name hname).1
    · obtain ⟨-, rest, hrest, heq⟩ := hproper name hname
      refine ⟨.ofList rest, by simpa using hrest, String.toList_inj.1 ?_⟩
      rw [heq, String.toList_append, String.toList_ofList, String.toList_ofList]
  · have hmem (text : List Char) :
        text ∈ names.map String.toList ↔ text ∈ names'.map String.toList :=
      (h.map String.toList).mem_iff
    rw [sharedWords?, sharedWords?, sharedStart?_congr htexts hmem]

theorem sharedWords?_accented :
    let names := ["RôleÉlu", "Rôle_9", "RôleÉditeur"]
    names ≠ [] ∧ sharedWords? names = some "Rôle" ∧
    (∃ start, IsLongestCut (names.map String.toList) start ∧
      StartsUpper (start.rdropWhile (· = '_')) ∧ "Rôle" = .ofList (start.rdropWhile (· = '_'))) ∧
    (∀ name ∈ names, ∃ rest ≠ "", name = "Rôle" ++ rest) ∧
    sharedWords? names.reverse = some "Rôle" ∧ sharedWordsIn? names = some (some "Rôle") := by
  intro names
  have hne : names ≠ [] := List.cons_ne_nil _ _
  have hwords : sharedWords? names = some "Rôle" := by decide +kernel
  obtain ⟨hsome, -, hproper, hperm, hoffsets⟩ := sharedWords?_longest hne
  exact ⟨hne, hwords, (hsome _).1 hwords, (hproper _ hwords).2,
    (hperm _ names.reverse_perm.symm).trans hwords, hoffsets.trans (congrArg some hwords)⟩

end WireTypes.Code
