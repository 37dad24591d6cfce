import WireTypes.Error

/-!
# Override rules

Rules that put a TypeScript expression in place of a Go type name. They keep the order in which they
were added, and no name has two of them.
-/

set_option autoImplicit false

namespace WireTypes

/-- Rules as pairs of a name and an expression, no name twice. -/
structure Overrides where
  rules : List (String × String)
  nodup : (rules.map Prod.fst).Nodup
deriving Repr

namespace Overrides

instance : Inhabited Overrides := ⟨⟨[], by simp⟩⟩

/-- No rules. -/
def empty : Overrides := default

/-- The expression for a name. -/
def get? (o : Overrides) (name : String) : Option String :=
  o.rules.lookup name

theorem mem_of_get? {o : Overrides} {name expr : String} (h : o.get? name = some expr) :
    (name, expr) ∈ o.rules := by
  obtain ⟨before, after, hrules, -⟩ := List.lookup_eq_some_iff.1 h
  rw [hrules]
  exact List.mem_append_right _ List.mem_cons_self

/-- Whether a name has a rule. -/
def contains (o : Overrides) (name : String) : Bool :=
  (o.rules.map Prod.fst).contains name

/-- Adds a rule at the end. A second rule for a name is a conflict, also with an equal one. -/
def insert (o : Overrides) (name expr : String) : Except Error Overrides :=
  if h : name ∈ o.rules.map Prod.fst then throw (.conflictingRules name)
  else
    pure ⟨o.rules ++ [(name, expr)], by
      simp only [List.map_append, List.map_cons, List.map_nil]
      refine List.nodup_append.mpr ⟨o.nodup, by simp, ?_⟩
      intro a ha b hb
      simp only [List.mem_singleton] at hb
      exact fun hab => h (hb ▸ hab ▸ ha)⟩

/-- Adds rules one after the other. -/
def ofRules (rules : List (String × String)) : Except Error Overrides :=
  rules.foldlM (fun o (name, expr) => o.insert name expr) empty

/-- Takes the rule of a name away, if there is one. -/
def erase (o : Overrides) (name : String) : Overrides :=
  ⟨o.rules.filter (·.1 ≠ name), o.nodup.sublist (List.filter_sublist.map _)⟩

end Overrides

end WireTypes
