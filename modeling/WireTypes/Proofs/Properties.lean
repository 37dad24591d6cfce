import Mathlib.Data.List.ReduceOption
import WireTypes.Code.Mapping
import WireTypes.Proofs.Failure

/-!
# Properties of members

What the property of a member is made of (`toProperty?_eq`, `toProperty?_eq_some_iff`), and
properties as a traversal of the members (`toProperties_eq_mapM`).
-/

set_option autoImplicit false

namespace WireTypes.Code

/-- The expression that a member asks for, or that of its type. -/
def memberType (ctx : Context) (m : Member Shape) (depth : Nat) : Except Error Expr :=
  match m.override with
  | some expr => pure (.ofText expr)
  | none => toExpr ctx m.type depth

/-- The property of a member whose type has the expression `type`. -/
def propertyOf (options : Options) (m : Member Shape) (type : Expr) : Property :=
  { name := propertyName (memberName options m.rename m.goName)
    optional := m.optional
    readonly := m.readonly
    type
    doc := m.doc
    comment := m.comment }

theorem toProperty?_eq (ctx : Context) (m : Member Shape) (depth : Nat) :
    toProperty? ctx m depth =
      if m.skip then pure none
      else (memberType ctx m depth).map fun type => some (propertyOf ctx.options m type) := by
  obtain ⟨type, goName, rename, optional, readonly, skip, override, doc, comment⟩ := m
  rw [toProperty?.eq_def]
  cases skip with
  | true => rfl
  | false =>
    cases override with
    | some expr => rfl
    | none =>
      simp only [memberType]
      cases toExpr ctx type depth <;> rfl

theorem toProperty?_eq_some_iff {ctx : Context} {m : Member Shape} {depth : Nat} {p : Property} :
    toProperty? ctx m depth = .ok (some p) ↔
      m.skip = false ∧ ∃ type, memberType ctx m depth = .ok type ∧
        p = propertyOf ctx.options m type := by
  rw [toProperty?_eq]
  cases m.skip with
  | true => exact ⟨fun h => (nomatch h), fun h => (nomatch h.1)⟩
  | false =>
    cases memberType ctx m depth with
    | error e => exact ⟨fun h => (nomatch h), fun ⟨_, _, h, _⟩ => (nomatch h)⟩
    | ok type =>
      constructor
      · rintro ⟨⟩
        exact ⟨rfl, type, rfl, rfl⟩
      · rintro ⟨-, _, ⟨⟩, rfl⟩
        rfl

theorem toProperties_cons (ctx : Context) (m : Member Shape) (rest : List (Member Shape))
    (depth : Nat) :
    toProperties ctx (m :: rest) depth = (do
      let p ← toProperty? ctx m depth
      let ps ← toProperties ctx rest depth
      pure (p.toList ++ ps)) := by
  rw [toProperties]
  cases toProperty? ctx m depth with
  | error e => rfl
  | ok p =>
    cases p with
    | none => exact (bind_pure _).symm
    | some p => rfl

theorem toProperties_eq_mapM (ctx : Context) (ms : List (Member Shape)) (depth : Nat) :
    toProperties ctx ms depth =
      (ms.mapM (toProperty? ctx · depth)).map List.reduceOption := by
  induction ms with
  | nil => rfl
  | cons m rest ih =>
    rw [toProperties_cons, List.mapM_cons, ih]
    cases toProperty? ctx m depth with
    | error e => rfl
    | ok p? =>
      cases rest.mapM (toProperty? ctx · depth) with
      | error e => rfl
      | ok ps? => cases p? <;> rfl

theorem exists_member_of_mem {ctx : Context} {ms : List (Member Shape)} {depth : Nat}
    {ps : List Property} (h : toProperties ctx ms depth = .ok ps) {p : Property} (hp : p ∈ ps) :
    ∃ m ∈ ms, toProperty? ctx m depth = .ok (some p) := by
  rw [toProperties_eq_mapM] at h
  cases hps? : ms.mapM (toProperty? ctx · depth) with
  | error e =>
    rw [hps?] at h
    cases h
  | ok ps? =>
    rw [hps?] at h
    cases h
    exact exists_of_mem_right hps? (List.reduceOption_mem_iff.1 hp)

end WireTypes.Code
