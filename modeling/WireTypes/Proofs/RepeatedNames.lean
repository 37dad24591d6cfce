import Mathlib.Data.List.Nodup
import WireTypes.Section

/-!
# Names that are declared twice

The walk over the declarations of a section remembers the names that it has seen, no name twice
(`nodup_seen`). So it comes to its end exactly if there is no repetition
(`firstRepeated?_eq_none_iff`), and otherwise stops at the first one (`firstRepeated?_eq_some_iff`).

* `ofItems_repeats`: a list of items is a section unless a name is declared twice in it, and then
  the error has the first declaration that repeats a name and the one that it repeats.
-/

set_option autoImplicit false

namespace WireTypes.Section

variable {seen ds : List (String × Location)} {items : List Item} {name : String}
  {first second location : Location}

/-- The names that items declare, in order. Types and constants share one space of names. -/
def declaredNames (items : List Item) : List String :=
  (declarations items).map Prod.fst

/-- The first repetition of a name: an item declares it at `second`, an item before it has done so
at `first`, and the items before it all declare different names. So there is no repetition before
this one, and nothing else that it could repeat. -/
def Repeats (items : List Item) (name : String) (first second : Location) : Prop :=
  ∃ before original between repetition after,
    items = (before ++ original :: between) ++ repetition :: after ∧
    original.declared? = some (name, first) ∧ repetition.declared? = some (name, second) ∧
    (declaredNames (before ++ original :: between)).Nodup

/-! ## The walk -/

theorem not_mem_of_lookup (h : seen.lookup name = none) : name ∉ seen.map Prod.fst := by
  rw [List.mem_map]
  rintro ⟨d, hd, rfl⟩
  simpa using List.lookup_eq_none_iff.1 h d hd

/-- Where no name is declared twice, a name is found where it is declared. -/
theorem lookup_of_mem (hseen : (seen.map Prod.fst).Nodup) (h : (name, first) ∈ seen) :
    seen.lookup name = some first := by
  obtain ⟨left, right, rfl⟩ := List.append_of_mem h
  rw [List.map_append, List.map_cons, List.nodup_append] at hseen
  refine List.lookup_eq_some_iff.2 ⟨left, right, rfl, fun d hd => ?_⟩
  have hne := hseen.2.2 d.1 (List.mem_map_of_mem hd) name List.mem_cons_self
  exact bne_iff_ne.2 hne.symm

/-- A name that was not seen is remembered, and then still no name twice. -/
theorem nodup_seen (hseen : (seen.map Prod.fst).Nodup) (hnew : seen.lookup name = none) :
    ((seen ++ [(name, location)]).map Prod.fst).Nodup := by
  rw [List.map_append, List.map_singleton, ← List.concat_eq_append]
  exact hseen.concat (not_mem_of_lookup hnew)

/-- A name that was seen cannot be declared once more without a repetition. -/
theorem not_nodup_of_lookup (h : seen.lookup name = some first) (location : Location)
    (ds : List (String × Location)) : ¬((seen ++ (name, location) :: ds).map Prod.fst).Nodup := by
  obtain ⟨left, right, rfl, -⟩ := List.lookup_eq_some_iff.1 h
  simp [List.nodup_append]

theorem firstRepeated?_eq_none_iff (hseen : (seen.map Prod.fst).Nodup) :
    firstRepeated? seen ds = none ↔ ((seen ++ ds).map Prod.fst).Nodup := by
  induction ds generalizing seen with
  | nil => simpa [firstRepeated?] using hseen
  | cons d rest ih =>
    obtain ⟨name, location⟩ := d
    rw [firstRepeated?]
    cases hlookup : seen.lookup name with
    | some first => simpa using not_nodup_of_lookup hlookup location rest
    | none => rw [ih (nodup_seen hseen hlookup), List.append_assoc, List.singleton_append]

theorem firstRepeated?_nil_eq_none_iff :
    firstRepeated? [] ds = none ↔ (ds.map Prod.fst).Nodup :=
  @firstRepeated?_eq_none_iff [] _ List.nodup_nil

/-- The walk stops at a declaration of a name that is declared by what was seen at its start or by
what it has come past, and there is no repetition among these. -/
theorem firstRepeated?_eq_some_iff (hseen : (seen.map Prod.fst).Nodup) :
    firstRepeated? seen ds = some (name, first, second) ↔
      ∃ before after, ds = before ++ (name, second) :: after ∧
        ((seen ++ before).map Prod.fst).Nodup ∧ (name, first) ∈ seen ++ before := by
  induction ds generalizing seen with
  | nil => simp [firstRepeated?]
  | cons d rest ih =>
    obtain ⟨name', location⟩ := d
    rw [firstRepeated?]
    cases hlookup : seen.lookup name' with
    | some first' =>
      constructor
      · rintro ⟨⟩
        obtain ⟨left, right, hsplit, -⟩ := List.lookup_eq_some_iff.1 hlookup
        exact ⟨[], rest, rfl, by simpa using hseen, by simp [hsplit]⟩
      · rintro ⟨before, after, hds, hnodup, hmem⟩
        cases before with
        | nil =>
          cases hds
          rw [List.append_nil] at hmem
          rw [lookup_of_mem hseen hmem] at hlookup
          cases hlookup
          rfl
        | cons d before =>
          cases hds
          exact absurd hnodup (not_nodup_of_lookup hlookup location before)
    | none =>
      rw [ih (nodup_seen hseen hlookup)]
      constructor
      · rintro ⟨before, after, rfl, hbefore⟩
        exact ⟨(name', location) :: before, after, rfl, by simpa using hbefore⟩
      · rintro ⟨before, after, hds, hbefore⟩
        cases before with
        | nil =>
          cases hds
          rw [List.append_nil] at hbefore
          exact absurd (List.mem_map_of_mem hbefore.2) (not_mem_of_lookup hlookup)
        | cons d before =>
          cases hds
          exact ⟨before, after, rfl, by simpa using hbefore⟩

example (l : Nat → Location) :
    firstRepeated? [] [("A", l 1), ("B", l 2), ("B", l 3), ("A", l 4)] = some ("B", l 2, l 3) := rfl

/-! ## Sections -/

theorem declarations_append (items items' : List Item) :
    declarations (items ++ items') = declarations items ++ declarations items' :=
  List.filterMap_append

theorem declarations_cons {item : Item} (h : item.declared? = some (name, location))
    (items : List Item) : declarations (item :: items) = (name, location) :: declarations items :=
  List.filterMap_cons_some h

/-- Each declaration of a list of items is one of its items, which the items without declarations
around it leave in its place. -/
theorem exists_item_of_declarations {left right : List (String × Location)}
    (h : declarations items = left ++ (name, location) :: right) :
    ∃ before item after, items = before ++ item :: after ∧ declarations before = left ∧
      item.declared? = some (name, location) ∧ declarations after = right := by
  obtain ⟨start, rest, rfl, hstart, hrest⟩ := List.filterMap_eq_append_iff.1 h
  obtain ⟨skipped, item, after, rfl, hskipped, hitem, hafter⟩ := List.filterMap_eq_cons_iff.1 hrest
  have hnone : declarations skipped = [] := List.filterMap_eq_nil_iff.2 hskipped
  refine ⟨start ++ skipped, item, after, by simp, ?_, hitem, hafter⟩
  rw [declarations_append, hnone, List.append_nil]
  exact hstart

theorem firstRepeated?_declarations_iff :
    firstRepeated? [] (declarations items) = some (name, first, second) ↔
      Repeats items name first second := by
  have hnil : (List.map Prod.fst ([] : List (String × Location))).Nodup := List.nodup_nil
  rw [firstRepeated?_eq_some_iff hnil]
  constructor
  · rintro ⟨earlier, later, hds, hnodup, hmem⟩
    rw [List.nil_append] at hnodup hmem
    obtain ⟨start, repetition, after, rfl, rfl, hrepetition, -⟩ := exists_item_of_declarations hds
    obtain ⟨left, right, hstart⟩ := List.append_of_mem hmem
    obtain ⟨before, original, between, rfl, -, horiginal, -⟩ := exists_item_of_declarations hstart
    exact ⟨before, original, between, repetition, after, rfl, horiginal, hrepetition, hnodup⟩
  · rintro ⟨before, original, between, repetition, after, rfl, horiginal, hrepetition, hnodup⟩
    refine ⟨declarations (before ++ original :: between), declarations after, ?_, hnodup, ?_⟩
    · rw [declarations_append, declarations_cons hrepetition]
    · rw [List.nil_append, declarations_append, declarations_cons horiginal]
      exact List.mem_append_right _ List.mem_cons_self

/-- Items are a section exactly if they declare no name twice, and the section has these items. If
they do, the error names the first declaration that repeats a name, and the one that it repeats. -/
theorem ofItems_repeats (package file : String) (items : List Item) :
    (∀ s, ofItems package file items = .ok s ↔
      (declaredNames items).Nodup ∧ s = { package, file, items }) ∧
    (∀ e, ofItems package file items = .error e ↔ ∃ name first second,
      Repeats items name first second ∧ e = .duplicateDeclaration name first second) := by
  have hnone : firstRepeated? [] (declarations items) = none ↔ (declaredNames items).Nodup :=
    firstRepeated?_nil_eq_none_iff
  unfold ofItems
  simp only [← hnone, ← firstRepeated?_declarations_iff]
  cases firstRepeated? [] (declarations items) with
  | none =>
    refine ⟨fun s => ?_, fun e => ?_⟩
    · simp [pure, Except.pure, eq_comm]
    · simp [pure, Except.pure]
  | some found =>
    obtain ⟨name, first, second⟩ := found
    refine ⟨fun s => ?_, fun e => ?_⟩
    · simp [throw, throwThe, MonadExceptOf.throw]
    · constructor
      · rintro ⟨⟩
        exact ⟨name, first, second, rfl, rfl⟩
      · rintro ⟨_, _, _, ⟨⟩, rfl⟩
        rfl

end WireTypes.Section
