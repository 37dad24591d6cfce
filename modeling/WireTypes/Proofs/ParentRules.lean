import WireTypes.Proofs.Dependence
import WireTypes.Proofs.Mapping

/-!
# Rules for parents and for members

A reference is looked up under several names, and the first one with a rule decides
(`Overrides.first?`). `Shape.lookups` has these names for the shape of a member. A parent is a name
only, so it is looked up as if its package declared it (`renderParent_eq`).

* `parentRule_eq_iff`: a parent and a member with one reference get the same rule exactly if the
  package declares the type, or there is a rule for its spelling, or none for its spelling with the
  package in front.
* `holderPackage_differs`: else the parent gets a rule and the member does not.
-/

set_option autoImplicit false

namespace WireTypes

/-- The rule for the first of some names that has one. -/
def Overrides.first? (o : Overrides) (names : List String) : Option (String × String) :=
  names.findSome? fun name => (o.get? name).map (name, ·)

namespace Overrides

variable {o : Overrides}

theorem first?_mem {names : List String} {rule : String × String} (h : o.first? names = some rule) :
    rule ∈ o.rules := by
  obtain ⟨name, -, h⟩ := List.exists_of_findSome?_eq_some h
  obtain ⟨expr, hexpr, rfl⟩ := Option.map_eq_some_iff.1 h
  exact mem_of_get? hexpr

theorem first?_pair (key key' : String) :
    o.first? [key, key'] = ((o.get? key).map (key, ·)).or ((o.get? key').map (key', ·)) := by
  unfold first?
  cases h : (o.get? key).map (key, ·) with
  | none => simp [h]
  | some rule => simp [h]

theorem first?_single (key : String) : o.first? [key] = (o.get? key).map (key, ·) := by
  simp [first?]

end Overrides

namespace Code

variable {ctx : Context}

/-! ## Rules for references -/

theorem lookups_named (package name : String) :
    (Shape.named name).lookups package = [name, package ++ "." ++ name] := rfl

theorem lookups_unresolved (package name : String) :
    (Shape.unresolved name).lookups package = [name] := rfl

/-- The rule that a reference to a declaration of the package gets. -/
theorem localRule?_eq (ctx : Context) (name : String) :
    ctx.localRule? name =
      (ctx.options.overrides.first? ((Shape.named name).lookups ctx.package)).map Prod.snd := by
  rw [lookups_named, Overrides.first?_pair]
  unfold Context.localRule?
  cases ctx.options.overrides.get? name with
  | some expr => rfl
  | none =>
    rw [Option.none_or, Option.map_none, Option.none_or, Option.map_map]
    exact Option.map_id'.symm

/-- A parent in an `extends` clause is looked up as a declaration of the package. -/
theorem renderParent_eq (ctx : Context) (p : Parent) :
    renderParent ctx p =
      let rule := ctx.options.overrides.first? ((Shape.named p.name).lookups ctx.package)
      let name := (rule.map Prod.snd).getD p.name
      if p.partly then "Partial<" ++ name ++ ">" else name := by
  unfold renderParent
  rw [localRule?_eq]

/-- What a reference becomes when no rule answers it. -/
def unruledExpr (options : Options) : Shape → Expr
  | .unresolved name => fallbackExpr options name
  | s => .simple (s.typeName?.getD "") .named

theorem toExpr_named {name : String} (h : name ≠ "") (depth : Nat) :
    toExpr ctx (.named name) depth = .ok
      (((ctx.options.overrides.first? ((Shape.named name).lookups ctx.package)).map
        fun rule => Expr.ofText rule.2).getD (unruledExpr ctx.options (.named name))) := by
  have hrule := localRule?_eq ctx name
  cases hfirst : ctx.options.overrides.first? ((Shape.named name).lookups ctx.package) with
  | none =>
    have hempty : name.isEmpty = false := by simpa using h
    rw [hfirst] at hrule
    rw [toExpr, namedExpr, hempty, hrule]
    rfl
  | some rule =>
    rw [hfirst] at hrule
    exact toExpr_named_rule h hrule depth

theorem toExpr_unresolved {name : String} (h : name ≠ "") (depth : Nat) :
    toExpr ctx (.unresolved name) depth = .ok
      (((ctx.options.overrides.first? ((Shape.unresolved name).lookups ctx.package)).map
        fun rule => Expr.ofText rule.2).getD (unruledExpr ctx.options (.unresolved name))) := by
  rw [lookups_unresolved, Overrides.first?_single]
  cases hrule : ctx.options.overrides.get? name with
  | none => exact toExpr_unresolved_fallback h hrule depth
  | some expr => exact toExpr_unresolved_rule h hrule depth

end Code

/-! ## Parents and members -/

namespace Resolution

/-- A reference leads to an exported type of the package itself. -/
def LeadsHere (p : Package) (package : Option String) (name : String) : Prop :=
  (package = none ∨ package = some p.name) ∧ p.DeclaresType name

theorem reference_cases (p : Package) (package : Option String) (name : String) :
    let s := Scope.ofPackage p
    (LeadsHere p package name ∧ s.reference package name = .named (s.spelling package name)) ∨
      (¬LeadsHere p package name ∧
        s.reference package name = .unresolved (s.spelling package name)) := by
  intro s
  have hforeign : s.foreign? package = none ↔ package = none ∨ package = some p.name := by
    cases package with
    | none => exact ⟨fun _ => .inl rfl, fun _ => rfl⟩
    | some package => simp [s, Scope.foreign?, Scope.ofPackage]
  unfold Scope.reference LeadsHere
  rw [← hforeign, ← mem_exported]
  split
  · rename_i h
    rw [Bool.and_eq_true, Option.isNone_iff_eq_none, List.contains_iff_mem] at h
    refine .inl ⟨h, ?_⟩
    rw [Scope.spelling, h.1]
  · rename_i h
    rw [Bool.and_eq_true, Option.isNone_iff_eq_none, List.contains_iff_mem] at h
    exact .inr ⟨h, rfl⟩

/-- The name of a parent is the spelling of what is embedded. -/
theorem parent_name {s : Scope} {decl : String} {f : Package.Field Package.TypeExpr} {P : Parent}
    {e : Embedded} (he : embedded? f.type = some e) (h : outcome s decl f = .ok (.parent P)) :
    P.name = s.spelling e.package e.name := by
  obtain ⟨goName, embeds, tag, hname, -, hcases⟩ := outcome_cases h
  obtain ⟨e', rfl, -, hP⟩ | ⟨-, -, hP⟩ | ⟨-, -, hP⟩ | ⟨-, -, type, -, hP⟩ := hcases
  · cases hP
    unfold fieldName at hname
    split at hname
    · cases hname
    · rw [he] at hname
      cases hname
      rfl
  · cases hP
  · cases hP
  · cases hP

/-- The type of a member with a reference for its type. -/
theorem member_type {s : Scope} {decl : String} {f : Package.Field Package.TypeExpr}
    {m : Member Shape} {package : Option String} {name : String}
    (hf : f.type = .named package name) (h : outcome s decl f = .ok (.member m)) :
    name ≠ "" ∧ m.type = s.reference package name := by
  obtain ⟨-, m', hm, hshape⟩ | ⟨-, hnot⟩ := outcome_member_iff h
  · cases hm
    rw [hf, shape] at hshape
    split at hshape
    · cases hshape
    · rename_i hne
      exact ⟨by simpa using hne, (Except.ok.inj hshape).symm⟩
  · exact absurd rfl (hnot m)

end Resolution

namespace Code

open Resolution (LeadsHere embedded? outcome)

theorem toExpr_reference (p : Package) (o : Options) (decl : String) (package : Option String)
    {name : String} (h : name ≠ "") (depth : Nat) :
    let t := (Resolution.Scope.ofPackage p).reference package name
    toExpr ⟨o, p.name, decl⟩ t depth = .ok
      (((o.overrides.first? (t.lookups p.name)).map fun rule => Expr.ofText rule.2).getD
        (unruledExpr o t)) := by
  intro t
  have hne : (Resolution.Scope.ofPackage p).spelling package name ≠ "" :=
    Resolution.spelling_ne_empty h
  obtain ⟨-, ht⟩ | ⟨-, ht⟩ := Resolution.reference_cases p package name
  · simp only [t, ht]
    exact toExpr_named hne depth
  · simp only [t, ht]
    exact toExpr_unresolved hne depth

theorem first?_lookups_iff (p : Package) (o : Overrides) (package : Option String) (name : String) :
    let s := Resolution.Scope.ofPackage p
    let spelling := s.spelling package name
    o.first? ((s.reference package name).lookups p.name) =
        o.first? ((Shape.named spelling).lookups p.name) ↔
      LeadsHere p package name ∨ (o.get? spelling).isSome ∨
        o.get? (p.name ++ "." ++ spelling) = none := by
  intro s spelling
  obtain ⟨hleads, ht⟩ | ⟨hleads, ht⟩ := Resolution.reference_cases p package name
  · simp only [s, spelling, ht]
    exact iff_of_true trivial (.inl hleads)
  · -- the member is looked up under its spelling only
    simp only [s, spelling, ht, lookups_named, lookups_unresolved, Overrides.first?_pair,
      Overrides.first?_single, hleads, false_or]
    cases o.get? (s.spelling package name) with
    | some expr => simp
    | none =>
      simp only [Option.map_none, Option.none_or, Option.isSome_none, Bool.false_eq_true, false_or]
      rw [eq_comm, Option.map_eq_none_iff]

/-- A parent and a member with one reference. Each one is mapped by the first rule for the names it
is looked up under, and these rules are the same unless the reference leads out of what the package
declares, there is no rule for its spelling, and one for its spelling with the package in front. -/
theorem parentRule_eq_iff {p : Package} {f g : Package.Field Package.TypeExpr} {P : Parent}
    {m : Member Shape} {e : Resolution.Embedded} {decl decl' : String}
    (he : embedded? f.type = some e) (hg : g.type = .named e.package e.name)
    (hf : outcome (.ofPackage p) decl f = .ok (.parent P))
    (hm : outcome (.ofPackage p) decl' g = .ok (.member m)) (o : Options) (depth : Nat) :
    let rule := o.overrides.first? ((Shape.named P.name).lookups p.name)
    let rule' := o.overrides.first? (m.type.lookups p.name)
    (renderParent ⟨o, p.name, decl⟩ P =
      let name := (rule.map Prod.snd).getD P.name
      if P.partly then "Partial<" ++ name ++ ">" else name) ∧
    toExpr ⟨o, p.name, decl'⟩ m.type depth =
      .ok ((rule'.map fun r => Expr.ofText r.2).getD (unruledExpr o m.type)) ∧
    (∀ r, rule = some r ∨ rule' = some r → r ∈ o.overrides.rules) ∧
    (rule' = rule ↔ LeadsHere p e.package e.name ∨ (o.overrides.get? P.name).isSome ∨
      o.overrides.get? (p.name ++ "." ++ P.name) = none) := by
  intro rule rule'
  have hname := Resolution.parent_name he hf
  obtain ⟨hne, htype⟩ := Resolution.member_type hg hm
  refine ⟨renderParent_eq _ P, ?_, ?_, ?_⟩
  · simp only [rule', htype]
    exact toExpr_reference p o decl' e.package hne depth
  · rintro r (h | h)
    · exact Overrides.first?_mem h
    · exact Overrides.first?_mem h
  · simp only [rule, rule', htype, hname]
    exact first?_lookups_iff p o.overrides e.package e.name

/-- An embedded field that becomes a parent. -/
def embeddedBase : Package.Field Package.TypeExpr :=
  { type := .named none "base", name := none, tag := some "tstype:\",extends\"", doc := none,
    comment := none }

/-- A field with the type that `embeddedBase` embeds. -/
def baseField : Package.Field Package.TypeExpr :=
  { type := .named none "base", name := some "F", tag := none, doc := none, comment := none }

/-- A package with a type that is not exported, and with a type that embeds it and has a field of
it. -/
def holderPackage : Package :=
  { name := "p"
    files := [⟨"a.go", [.type ⟨"base", .struct [], none, none, none⟩,
      .type ⟨"Holder", .struct [embeddedBase, baseField], none, none, none⟩]⟩] }

/-- Options with one rule. -/
def optionsWithRule (name expr : String) : Options :=
  { overrides := ⟨[(name, expr)], by simp⟩ }

theorem holderPackage_sameRule :
    let o := optionsWithRule "base" "Shared"
    let m := Resolution.memberOf "F" ⟨[]⟩ none none (.unresolved "base")
    outcome (.ofPackage holderPackage) "Holder" embeddedBase = .ok (.parent ⟨"base", false⟩) ∧
      outcome (.ofPackage holderPackage) "Holder" baseField = .ok (.member m) ∧
      o.overrides.first? (m.type.lookups "p") = o.overrides.first? ["base", "p.base"] ∧
      renderParent ⟨o, "p", "Holder"⟩ ⟨"base", false⟩ = "Shared" ∧
      toExpr ⟨o, "p", "Holder"⟩ m.type 1 = .ok (.ofText "Shared") := by
  intro o m
  have hparent : outcome (.ofPackage holderPackage) "Holder" embeddedBase =
      .ok (.parent ⟨"base", false⟩) := by cbv
  have hmember : outcome (.ofPackage holderPackage) "Holder" baseField = .ok (.member m) := rfl
  have hembeds : embedded? embeddedBase.type = some ⟨none, "base", false⟩ := rfl
  obtain ⟨htext, hexpr, -, hsame⟩ := parentRule_eq_iff hembeds rfl hparent hmember o 1
  exact ⟨hparent, hmember, hsame.2 (.inr (.inl rfl)), htext, hexpr⟩

/-- With a rule for the name in the package, the parent is replaced and the member is not. -/
theorem holderPackage_differs :
    let o := optionsWithRule "p.base" "Shared"
    ((Resolution.packageSections holderPackage).bind (generate o)).toOption =
        some ("// Code generated by gots. DO NOT EDIT.\n\n//////////\n// source: a.go\n\n" ++
          "export interface Holder extends Shared \x7b\n  F: unknown /* base */;\n\x7d\n") ∧
      o.overrides.first? ((Shape.named "base").lookups "p") = some ("p.base", "Shared") ∧
      o.overrides.first? ((Shape.unresolved "base").lookups "p") = none := by
  decide +kernel

end Code

end WireTypes
