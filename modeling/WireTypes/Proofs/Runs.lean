import WireTypes.Proofs.Aliases
import WireTypes.Proofs.Composition

/-!
# Runs and what becomes of them

Constants are cut into the longest runs of one type name (`AreRuns`, `areRuns_iff`). Run by run they
are turned into pieces: `Becomes` says when a run is a family, and that it falls apart into single
constants otherwise. Whether shared words are free depends on the names taken by then, and these are
the names at the start and the aliases that earlier runs have brought along (`Claims.mem_iff`).

* `constPieces_runs`: every run becomes what it has to at the names that the runs before it leave,
  and no constant is lost or moved.
-/

set_option autoImplicit false

namespace WireTypes.Code

variable {taken taken' : TakenNames} {consts run : List ConstDecl} {f : Family} {name : String}

/-! ## Runs -/

/-- The longest runs of constants of one type name: neighbouring runs differ in it. -/
structure AreRuns (consts : List ConstDecl) (rs : List (List ConstDecl)) : Prop where
  flatten : rs.flatten = consts
  ne_nil : ∀ run ∈ rs, run ≠ []
  alike : ∀ run ∈ rs, ∀ d ∈ run, ∀ d' ∈ run, d.typeName = d'.typeName
  apart : rs.IsChain fun run next => ∀ d ∈ run, ∀ d' ∈ next, d.typeName ≠ d'.typeName

/-- Neighbours have one type name throughout exactly if all constants have. -/
theorem isChain_typeName_iff :
    run.IsChain (fun d d' => d.typeName == d'.typeName) ↔
      ∀ d ∈ run, ∀ d' ∈ run, d.typeName = d'.typeName := by
  have hmap : run.IsChain (fun d d' => d.typeName == d'.typeName) ↔
      (run.map ConstDecl.typeName).Pairwise Eq := by
    rw [← List.isChain_iff_pairwise, List.isChain_map]
    simp only [beq_iff_eq]
  rw [hmap]
  constructor
  · intro h d hd d' hd'
    exact h.forall_of_forall (fun _ _ => rfl) (List.mem_map_of_mem hd) (List.mem_map_of_mem hd')
  · exact fun h => List.pairwise_map.2 (List.pairwise_of_forall_mem_list h)

theorem areRuns_iff {rs : List (List ConstDecl)} : AreRuns consts rs ↔ runs consts = rs := by
  -- where runs are of one type name, it does not matter at which of their constants they differ
  have hends (hnil : [] ∉ rs)
      (halike : ∀ run ∈ rs, ∀ d ∈ run, ∀ d' ∈ run, d.typeName = d'.typeName) :
      (rs.IsChain fun run next => ∀ d ∈ run, ∀ d' ∈ next, d.typeName ≠ d'.typeName) ↔
        rs.IsChain fun run next => ∃ hrun hnext,
          ((run.getLast hrun).typeName == (next.head hnext).typeName) = false := by
    refine List.IsChain.iff_of_mem_imp fun run next hrun hnext => ?_
    have hrun' : run ≠ [] := fun h => hnil (h ▸ hrun)
    have hnext' : next ≠ [] := fun h => hnil (h ▸ hnext)
    simp only [beq_eq_false_iff_ne]
    constructor
    · exact fun h => ⟨hrun', hnext', h _ (List.getLast_mem hrun') _ (List.head_mem hnext')⟩
    · rintro ⟨_, _, h⟩ d hd d' hd' heq
      rw [halike run hrun _ (List.getLast_mem hrun') d hd,
        halike next hnext _ (List.head_mem hnext') d' hd'] at h
      exact h heq
  rw [runs, List.splitBy_eq_iff]
  simp only [isChain_typeName_iff]
  constructor
  · rintro ⟨hflatten, hne, halike, hapart⟩
    have hnil : [] ∉ rs := fun h => hne [] h rfl
    exact ⟨hflatten.symm, hnil, halike, (hends hnil halike).1 hapart⟩
  · rintro ⟨hflatten, hnil, halike, hapart⟩
    have hne : ∀ run ∈ rs, run ≠ [] := fun run hrun hrun' => hnil (hrun' ▸ hrun)
    exact ⟨hflatten.symm, hne, halike, (hends hnil halike).2 hapart⟩

/-! ## What becomes of a run -/

/-- The name for constants of which the first has the given type: a declared type goes by its own
name; for a predeclared or unresolved type it is the words that the names of all of them share,
provided that they are free. -/
inductive SharedName (taken : TakenNames) (run : List ConstDecl) : Shape → String → Prop
  | declared (name : String) : SharedName taken run (.named name) name
  | predeclared (p : Package.Primitive) {words : String}
      (h : sharedWords? (run.map ConstDecl.name) = some words) (hfree : words ∉ taken.names) :
      SharedName taken run (.primitive p) words
  | unresolved (typeName : String) {words : String}
      (h : sharedWords? (run.map ConstDecl.name) = some words) (hfree : words ∉ taken.names) :
      SharedName taken run (.unresolved typeName) words

/-- A run may be a family of a name: it has two constants at least, and they share the name. -/
structure MayForm (taken : TakenNames) (run : List ConstDecl) (name : String) : Prop where
  two_le : 2 ≤ run.length
  name : ∃ first ∈ run.head?, SharedName taken run first.type name

/-- The pieces that a run becomes: one family of all its constants if it may be a family, which
brings the name along exactly if it is free; else every constant on its own. -/
inductive Becomes (taken : TakenNames) (run : List ConstDecl) : List ConstPiece → Prop
  | family (f : Family) (hmembers : f.members = run) (h : MayForm taken run f.name)
      (own : f.backing.isSome ↔ f.name ∉ taken.names) : Becomes taken run [.family f]
  | singles (h : ∀ name, ¬MayForm taken run name) : Becomes taken run (run.map .single)

theorem mayForm_of_ofRun? (h : Family.ofRun? taken run = some f) : MayForm taken run f.name := by
  obtain ⟨rfl, hothers, hcases⟩ := Family.ofRun?_cases h
  refine ⟨?_, f.first, rfl, ?_⟩
  · have hpos := List.length_pos_of_ne_nil hothers
    rw [Family.members, List.length_cons]
    omega
  · obtain ⟨htype, -⟩ | ⟨⟨p, htype⟩ | ⟨name, htype⟩, hwords, hfree, -⟩ := hcases
    · rw [htype]
      exact .declared _
    · rw [htype]
      exact .predeclared p hwords (by simpa [TakenNames.contains] using hfree)
    · rw [htype]
      exact .unresolved name hwords (by simpa [TakenNames.contains] using hfree)

theorem exists_ofRun? (h : MayForm taken run name) : ∃ f, Family.ofRun? taken run = some f := by
  obtain ⟨htwo, first, hfirst, hname⟩ := h
  obtain ⟨rest, rfl⟩ := List.head?_eq_some_iff.1 hfirst
  cases rest with
  | nil => simp at htwo
  | cons second rest =>
    generalize htype : first.type = type at hname
    cases hname with
    | declared => simp [Family.ofRun?, htype]
    | predeclared _ hwords hfree | unresolved _ hwords hfree =>
      have hcontains : taken.contains name = false := by simpa [TakenNames.contains] using hfree
      simp only [Family.ofRun?, htype, hwords, hcontains]
      exact ⟨_, rfl⟩

/-- The pieces of a first run, followed by those of the others. -/
theorem piecesOfRuns_cons (run : List ConstDecl) (rest : List (List ConstDecl)) :
    ∃ here later, (piecesOfRuns true taken (run :: rest)).1 = here ++ later ∧
      Becomes taken run here ∧ later.flatMap ConstPiece.members = rest.flatten := by
  rw [piecesOfRuns, if_pos rfl]
  cases hf : Family.ofRun? taken run with
  | some f =>
    exact ⟨_, _, rfl, .family f (Family.ofRun?_cases hf).1 (mayForm_of_ofRun? hf) (ofRun?_own hf),
      flatMap_members_piecesOfRuns rest⟩
  | none =>
    refine ⟨_, _, rfl, .singles fun name h => ?_, flatMap_members_piecesOfRuns rest⟩
    obtain ⟨f, hsome⟩ := exists_ofRun? h
    rw [hf] at hsome
    cases hsome

/-! ## Names that are taken -/

/-- After families the names are taken that were taken before, and the aliases that they bring
along. -/
theorem Claims.mem_iff {fs : List Family} (h : Claims taken fs taken') :
    name ∈ taken'.names ↔ name ∈ taken.names ∨ name ∈ ownAliases fs := by
  induction h with
  | nil => simp [ownAliases]
  | cons own _ ih =>
    rw [ih, mem_after own, ownAliases_cons]
    split
    · rw [List.mem_cons]
      tauto
    · rename_i hb
      have htaken := not_not.1 fun h => hb (own.2 h)
      constructor
      · rintro ((rfl | h) | h)
        · exact .inl htaken
        · exact .inl h
        · exact .inr h
      · rintro (h | h)
        · exact .inl (.inr h)
        · exact .inr h

/-- Constants are cut into their longest runs of one type name. Every run becomes a family or single
constants, whichever it has to at the names taken by then: those taken at the start, and the aliases
that families of earlier runs have brought along. The constants of the pieces, grouped or not, are
the constants in order. -/
theorem constPieces_runs (taken : TakenNames) (consts : List ConstDecl) :
    (∀ rs, runs consts = rs ↔ AreRuns consts rs) ∧
    (∀ grouped, (constPieces grouped taken consts).1.flatMap ConstPiece.members = consts) ∧
    ∀ before run after, runs consts = before ++ run :: after → ∃ earlier here later,
      (constPieces true taken consts).1 = earlier ++ here ++ later ∧
      earlier.flatMap ConstPiece.members = before.flatten ∧
      later.flatMap ConstPiece.members = after.flatten ∧
      ∃ taken' : TakenNames,
        (∀ name, name ∈ taken'.names ↔
          name ∈ taken.names ∨ name ∈ ownAliases (earlier.filterMap ConstPiece.family?)) ∧
        Becomes taken' run here := by
  refine ⟨fun _ => areRuns_iff.symm, fun _ => flatMap_members_constPieces consts, ?_⟩
  intro before run after hruns
  obtain ⟨here, later, hpieces, hbecomes, hlater⟩ :=
    @piecesOfRuns_cons (piecesOfRuns true taken before).2 run after
  refine ⟨(piecesOfRuns true taken before).1, here, later, ?_, flatMap_members_piecesOfRuns before,
    hlater, (piecesOfRuns true taken before).2, fun _ => ?_, hbecomes⟩
  · rw [constPieces, hruns, piecesOfRuns_append, hpieces, List.append_assoc]
  · exact (piecesOfRuns_claims before).mem_iff

/-- Numbers and texts whose names share a word, constants of a declared type, and one on its own. -/
def shiftConsts : List ConstDecl :=
  let constant (name : String) (type : Shape) (index : Nat) : ConstDecl :=
    ⟨name, type, .int index, none, none, ⟨"a.go", none, index⟩⟩
  [constant "RoleCook" (.primitive .int) 1, constant "RoleHost" (.primitive .int) 2,
    constant "RoleGuest" (.unresolved "hr.Role") 3, constant "RoleOwner" (.unresolved "hr.Role") 4,
    constant "Early" (.named "Shift") 5, constant "Late" (.named "Shift") 6,
    constant "Seats" (.primitive .int) 7]

theorem shiftConsts_runs :
    let taken : TakenNames := ⟨["Shift"]⟩
    let run (start length : Nat) := (shiftConsts.drop start).take length
    runs shiftConsts = [run 0 2] ++ run 2 2 :: [run 4 2, run 6 1] ∧
    (constPieces true taken shiftConsts).1.map (·.members.map ConstDecl.name) =
      [["RoleCook", "RoleHost"], ["RoleGuest"], ["RoleOwner"], ["Early", "Late"], ["Seats"]] ∧
    ∃ earlier here later,
      (constPieces true taken shiftConsts).1 = earlier ++ here ++ later ∧
      earlier.flatMap ConstPiece.members = [run 0 2].flatten ∧
      later.flatMap ConstPiece.members = [run 4 2, run 6 1].flatten ∧
      ∃ taken' : TakenNames,
        (∀ name, name ∈ taken'.names ↔
          name ∈ taken.names ∨ name ∈ ownAliases (earlier.filterMap ConstPiece.family?)) ∧
        Becomes taken' (run 2 2) here := by
  intro taken run
  obtain ⟨hruns, -, hbecomes⟩ := constPieces_runs taken shiftConsts
  have hshifts : runs shiftConsts = [run 0 2] ++ run 2 2 :: [run 4 2, run 6 1] := by
    refine (hruns _).2 ⟨rfl, by simp [run, shiftConsts], ?_, ?_⟩
    · decide +kernel
    · decide +kernel
  exact ⟨hshifts, by decide +kernel, hbecomes _ _ _ hshifts⟩

end WireTypes.Code
