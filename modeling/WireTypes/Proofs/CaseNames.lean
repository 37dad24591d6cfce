import Mathlib.Data.List.Nodup
import Mathlib.Data.List.TakeWhile
import WireTypes.Code.Emit

/-!
# Names inside an enumeration

Inside the enumeration of its family a constant goes by what is left of its name after the name of
the family and the underscores that follow (`Leaves`), or by its whole name where that is no
identifier. Two constants may end up with one name (`Clash`): when underscores are all they differ
in, or when one keeps its whole name and that is left of the other.

* `leaves_iff`: what is left of a name is determined.
* `caseName_eq_iff`: two identifiers get one name exactly when they clash.
* `caseNames_nodup_iff`: the names in an enumeration are distinct exactly when no two clash.
-/

set_option autoImplicit false

namespace WireTypes.Code

variable {family a b rest : List Char}

/-! ## What is left of a name -/

/-- `rest` is left of a name without the name of its family and the underscores after it. -/
inductive Leaves (family : List Char) : List Char → List Char → Prop
  | cut (k : Nat) {rest : List Char} (h : rest.head? ≠ some '_') :
      Leaves family (family ++ (List.replicate k '_' ++ rest)) rest
  /-- The name does not start with that of the family. -/
  | uncut (k : Nat) {rest : List Char} (h : rest.head? ≠ some '_')
      (hp : ¬family <+: List.replicate k '_' ++ rest) :
      Leaves family (List.replicate k '_' ++ rest) rest

/-- What is left of a name. -/
def leftOver (family name : List Char) : List Char :=
  (if family.isPrefixOf name then name.drop family.length else name).dropWhile (· = '_')

theorem dropWhile_underscores (k : Nat) (h : rest.head? ≠ some '_') :
    (List.replicate k '_' ++ rest).dropWhile (· = '_') = rest := by
  rw [List.dropWhile_append_of_pos (by simp +contextual [List.mem_replicate])]
  cases rest with
  | nil => rfl
  | cons c rest => exact List.dropWhile_cons_of_neg (by simpa using h)

theorem exists_underscores (cs : List Char) :
    ∃ k, cs = List.replicate k '_' ++ cs.dropWhile (· = '_') ∧
      (cs.dropWhile (· = '_')).head? ≠ some '_' := by
  refine ⟨(cs.takeWhile (· = '_')).length, ?_, ?_⟩
  · have hall : cs.takeWhile (· = '_') = List.replicate (cs.takeWhile (· = '_')).length '_' := by
      rw [List.eq_replicate_iff]
      exact ⟨rfl, fun c hc => by simpa using List.mem_takeWhile_imp hc⟩
    rw [← hall, List.takeWhile_append_dropWhile]
  · have hhead := List.head?_dropWhile_not (· = '_') cs
    cases h : (cs.dropWhile (· = '_')).head? with
    | none => simp
    | some c =>
      rw [h] at hhead
      simpa using hhead

theorem leaves_iff : Leaves family a rest ↔ leftOver family a = rest := by
  constructor
  · intro h
    cases h with
    | cut k h =>
      have hp : family.isPrefixOf (family ++ (List.replicate k '_' ++ rest)) := by simp
      rw [leftOver, if_pos hp, List.drop_left]
      exact dropWhile_underscores k h
    | uncut k h hp =>
      rw [leftOver, if_neg (by rwa [List.isPrefixOf_iff_prefix])]
      exact dropWhile_underscores k h
  · rintro rfl
    unfold leftOver
    split
    · rename_i hp
      obtain ⟨more, rfl⟩ := List.isPrefixOf_iff_prefix.1 hp
      rw [List.drop_left]
      obtain ⟨k, hk, hhead⟩ := exists_underscores more
      have hcut : Leaves family _ _ := .cut k hhead
      rwa [← hk] at hcut
    · rename_i hp
      rw [List.isPrefixOf_iff_prefix] at hp
      obtain ⟨k, hk, hhead⟩ := exists_underscores a
      have huncut : Leaves family _ _ := .uncut k hhead (by rwa [← hk])
      rwa [← hk] at huncut

/-- What is left of an identifier consists of what an identifier may go on with. -/
theorem isIdentPart_of_mem_leftOver (h : isIdentChars a) {c : Char}
    (hc : c ∈ leftOver family a) : isIdentPart c := by
  have hsub : c ∈ a := by
    unfold leftOver at hc
    have hc' := (List.dropWhile_sublist _).subset hc
    split at hc'
    · exact List.mem_of_mem_drop hc'
    · exact hc'
  cases a with
  | nil => cases hsub
  | cons d ds =>
    simp only [isIdentChars, Bool.and_eq_true, List.all_eq_true] at h
    rcases List.mem_cons.1 hsub with rfl | hds
    · simp only [isIdentStart, isIdentPart, Bool.or_eq_true, Text.isAlphanumeric] at h ⊢
      tauto
    · exact h.2 c hds

/-! ## Names that clash -/

/-- A text that starts like an identifier. -/
def opensName (cs : List Char) : Bool :=
  cs.head?.any isIdentStart

theorem opensName_of_isIdentChars (h : isIdentChars a) : opensName a := by
  cases a with
  | nil => cases h
  | cons c cs =>
    simp only [isIdentChars, Bool.and_eq_true] at h
    exact h.1

theorem isIdentChars_leftOver (h : isIdentChars a) :
    isIdentChars (leftOver family a) = opensName (leftOver family a) := by
  have hparts : ∀ c ∈ leftOver family a, isIdentPart c := fun c =>
    isIdentPart_of_mem_leftOver h
  cases hl : leftOver family a with
  | nil => rfl
  | cons c cs =>
    rw [hl] at hparts
    have hall : cs.all isIdentPart :=
      List.all_eq_true.2 fun d hd => hparts d (List.mem_cons_of_mem _ hd)
    simp [isIdentChars, opensName, hall]

/-- Two names of a family that get one name in its enumeration. -/
inductive Clash (family : List Char) : List Char → List Char → Prop
  /-- Underscores are all they differ in. -/
  | underscores {a b rest : List Char} (ha : Leaves family a rest) (hb : Leaves family b rest)
      (h : opensName rest) : Clash family a b
  /-- Nothing or a digit is left of the first, which is kept and is left of the second. -/
  | whole {a b rest : List Char} (ha : Leaves family a rest) (h : opensName rest = false)
      (hb : Leaves family b a) : Clash family a b

theorem caseName_eq {name family : String} (h : isIdentifier name) :
    (caseName name family).toList =
      if opensName (leftOver family.toList name.toList) then leftOver family.toList name.toList
      else name.toList := by
  have hshort : isIdentifier (.ofList (leftOver family.toList name.toList)) =
      opensName (leftOver family.toList name.toList) := by
    rw [isIdentifier, String.toList_ofList]
    exact isIdentChars_leftOver h
  show (if isIdentifier (.ofList (leftOver family.toList name.toList)) then
    String.ofList (leftOver family.toList name.toList) else name).toList = _
  rw [hshort]
  split
  · exact String.toList_ofList
  · rfl

/-- Two identifiers get one name exactly when they clash, in one order or the other. -/
theorem caseName_eq_iff {a b family : String} (ha : isIdentifier a) (hb : isIdentifier b)
    (hne : a ≠ b) :
    caseName a family = caseName b family ↔
      Clash family.toList a.toList b.toList ∨ Clash family.toList b.toList a.toList := by
  have hcase (x : String) (hx : isIdentifier x) : (caseName x family).toList = _ := caseName_eq hx
  rw [← String.toList_inj, hcase a ha, hcase b hb]
  constructor
  · intro h
    split at h
    · rename_i hopen
      split at h
      · exact .inl (.underscores (leaves_iff.2 rfl) (leaves_iff.2 h.symm) hopen)
      · rename_i hclosed
        exact .inr (.whole (leaves_iff.2 rfl) (by simpa using hclosed) (leaves_iff.2 h))
    · rename_i hclosed
      split at h
      · exact .inl (.whole (leaves_iff.2 rfl) (by simpa using hclosed) (leaves_iff.2 h.symm))
      · exact absurd (String.toList_inj.1 h) hne
  · -- what is left of the one decides what is left of the other
    have clash (x y : String) (hx : isIdentifier x)
        (h : Clash family.toList x.toList y.toList) :
        (if opensName (leftOver family.toList x.toList) then leftOver family.toList x.toList
          else x.toList) =
        if opensName (leftOver family.toList y.toList) then leftOver family.toList y.toList
          else y.toList := by
      cases h with
      | underscores hleft hright hopen =>
        rw [leaves_iff.1 hleft, leaves_iff.1 hright, if_pos hopen, if_pos hopen]
      | whole hleft hclosed hright =>
        rw [leaves_iff.1 hleft, leaves_iff.1 hright, if_neg (by simp [hclosed]),
          if_pos (opensName_of_isIdentChars hx)]
    rintro (h | h)
    · exact clash a b ha h
    · exact (clash b a hb h).symm

/-! ## Enumerations -/

/-- The names of the constants inside the enumeration of a family. -/
def Family.caseNames (f : Family) : List String :=
  f.members.map fun d => caseName d.name f.name

/-- A name that goes on after the name of its family with the start of an identifier, and not with
an underscore. -/
def GoesOn (family name : List Char) : Prop :=
  ∃ c rest, name = family ++ c :: rest ∧ isIdentStart c ∧ c ≠ '_'

theorem GoesOn.leftOver_eq (h : GoesOn family a) :
    a = family ++ leftOver family a ∧ opensName (leftOver family a) := by
  obtain ⟨c, rest, rfl, hstart, hc⟩ := h
  have hleft : leftOver family (family ++ c :: rest) = c :: rest :=
    leaves_iff.1 (.cut 0 (by simpa using hc))
  rw [hleft]
  exact ⟨rfl, by simpa [opensName] using hstart⟩

theorem not_clash_of_goesOn (ha : GoesOn family a) (hb : GoesOn family b) (hne : a ≠ b) :
    ¬Clash family a b := by
  obtain ⟨ha, hopen⟩ := ha.leftOver_eq
  obtain ⟨hb, -⟩ := hb.leftOver_eq
  intro h
  cases h with
  | underscores hleft hright _ =>
    rw [leaves_iff.1 hleft] at ha
    rw [leaves_iff.1 hright] at hb
    exact hne (ha.trans hb.symm)
  | whole hleft hclosed _ =>
    rw [leaves_iff.1 hleft, hclosed] at hopen
    cases hopen

/-- With distinct identifiers for names, the names inside the enumeration of a family are distinct
exactly when no two constants clash; they are so when every name goes on after that of the family
with neither underscore nor digit. -/
theorem caseNames_nodup_iff {f : Family} (hids : ∀ d ∈ f.members, isIdentifier d.name)
    (hnames : (f.members.map ConstDecl.name).Nodup) :
    (f.caseNames.Nodup ↔
      ∀ d ∈ f.members, ∀ d' ∈ f.members, d.name ≠ d'.name →
        ¬Clash f.name.toList d.name.toList d'.name.toList) ∧
    ((∀ d ∈ f.members, GoesOn f.name.toList d.name.toList) → f.caseNames.Nodup) := by
  have hmap : f.caseNames = (f.members.map ConstDecl.name).map (caseName · f.name) := by
    rw [List.map_map]
    rfl
  have hiff : f.caseNames.Nodup ↔
      ∀ d ∈ f.members, ∀ d' ∈ f.members, d.name ≠ d'.name →
        ¬Clash f.name.toList d.name.toList d'.name.toList := by
    rw [hmap, List.nodup_map_iff_inj_on hnames]
    simp only [List.forall_mem_map]
    constructor
    · intro hinj d hd d' hd' hne hclash
      exact hne (hinj d hd d' hd' ((caseName_eq_iff (hids d hd) (hids d' hd') hne).2 (.inl hclash)))
    · intro hclear d hd d' hd' heq
      by_contra hne
      rcases (caseName_eq_iff (hids d hd) (hids d' hd') hne).1 heq with h | h
      · exact hclear d hd d' hd' hne h
      · exact hclear d' hd' d hd (Ne.symm hne) h
  refine ⟨hiff, fun hgoes => hiff.2 fun d hd d' hd' hne => ?_⟩
  exact not_clash_of_goesOn (hgoes d hd) (hgoes d' hd') fun h => hne (String.toList_inj.1 h)

/-- The constants of a family of whole numbers. -/
def numbersOf (name first second : String) : Family :=
  let constant (name : String) (index : Nat) : ConstDecl :=
    ⟨name, .primitive .int, .int index, none, none, ⟨"a.go", none, index⟩⟩
  ⟨name, some (.primitive .int), constant first 1, [constant second 2]⟩

theorem numbersOf_caseNames :
    (numbersOf "Role" "RoleViewer" "RoleEditor").caseNames.Nodup ∧
      ¬(numbersOf "Role" "RoleA" "Role_A").caseNames.Nodup := by
  constructor
  · refine (caseNames_nodup_iff (by decide +kernel) (by decide +kernel)).2 fun d hd => ?_
    rcases List.mem_cons.1 hd with rfl | hd
    · exact ⟨'V', "iewer".toList, by decide +kernel⟩
    · cases List.mem_singleton.1 hd
      exact ⟨'E', "ditor".toList, by decide +kernel⟩
  · intro h
    have hclear := (caseNames_nodup_iff (by decide +kernel) (by decide +kernel)).1.1 h
    refine hclear _ (.head _) _ (.tail _ (.head _)) (by decide +kernel) ?_
    have hleft : Leaves "Role".toList "RoleA".toList ['A'] := .cut 0 (by decide)
    have hright : Leaves "Role".toList "Role_A".toList ['A'] := .cut 1 (by decide)
    exact .underscores hleft hright (by decide +kernel)

/-- The section of the constants of a family. -/
def sectionOf (f : Family) : Section :=
  ⟨"p", "a.go", f.members.map .const⟩

/-- Constants with distinct names that share words are written under one name: two that differ in an
underscore, and two of which one is kept whole. -/
theorem numbersOf_repeats :
    let underscores := numbersOf "Role" "RoleA" "Role_A"
    let whole := numbersOf "Aa" "Aa1" "AaAa1"
    (∀ f ∈ [underscores, whole], (f.members.map ConstDecl.name).Nodup ∧
      (∀ d ∈ f.members, isIdentifier d.name) ∧ ¬f.caseNames.Nodup) ∧
    (generate { aliasStyle := .enum } [sectionOf underscores]).toOption =
      some ("// Code generated by gots. DO NOT EDIT.\n\n//////////\n// source: a.go\n\n" ++
        "export enum Role \x7b\n  A = 1,\n  A = 2,\n\x7d\n") ∧
    (generate { aliasStyle := .enum } [sectionOf whole]).toOption =
      some ("// Code generated by gots. DO NOT EDIT.\n\n//////////\n// source: a.go\n\n" ++
        "export enum Aa \x7b\n  Aa1 = 1,\n  Aa1 = 2,\n\x7d\n") := by
  decide +kernel

end WireTypes.Code
