import WireTypes.Proofs.Dependence
import WireTypes.Target

/-!
# Added rules

An acceptable rule changes no answer but that for its own name, and the check of options passes or
fails as before. Hence an output in which nothing is looked up under that name (`Item.lookups`) is
the same with the rule and without it.
-/

set_option autoImplicit false

namespace WireTypes

variable {rules rules' : Overrides} {key expr : String}

namespace Overrides

theorem exists_insert (h : rules.contains key = false) (expr : String) :
    ∃ rules', rules.insert key expr = .ok rules' ∧ rules'.rules = rules.rules ++ [(key, expr)] := by
  have hnew : key ∉ rules.rules.map Prod.fst := by
    intro hmem
    have hcontains : rules.contains key = true := List.contains_iff_mem.2 hmem
    rw [h] at hcontains
    cases hcontains
  unfold insert
  rw [dif_neg hnew]
  exact ⟨_, rfl, rfl⟩

theorem get?_append_of_ne (h : rules'.rules = rules.rules ++ [(key, expr)]) {name : String}
    (hne : name ≠ key) : rules'.get? name = rules.get? name := by
  have hlast : List.lookup name [(key, expr)] = none := by
    rw [List.lookup_cons, beq_eq_false_iff_ne.2 hne]
    rfl
  unfold get?
  rw [h, List.lookup_append, hlast, Option.or_none]

end Overrides

theorem Options.validate_append {o : Options}
    (h : rules'.rules = o.overrides.rules ++ [(key, expr)]) (hkey : Text.isBlankText key = false)
    (hexpr : Text.isBlankText expr = false) :
    ({ o with overrides := rules' } : Options).validate = o.validate := by
  have hrule : [(key, expr)].findSome? ruleError? = none := by
    unfold ruleError?
    simp only [List.findSome?, hkey, hexpr, Bool.false_eq_true, ↓reduceIte]
  have hrules : rules'.rules.findSome? ruleError? = o.overrides.rules.findSome? ruleError? := by
    rw [h, List.findSome?_append, hrule, Option.or_none]
  have hfault : ({ o with overrides := rules' } : Options).fault? = o.fault? := by
    unfold fault?
    simp only [hrules]
  have hheader : ({ o with overrides := rules' } : Options).renderHeader = o.renderHeader := rfl
  unfold validate
  rw [hfault, hheader]

open Code in
/-- A rule that can be added leaves the output as it is when nothing in it is looked up under the
name of the rule. -/
theorem Target.generate_addRule {target : Target}
    (hnew : target.options.overrides.contains key = false)
    (hkey : Text.isBlankText key = false) (hexpr : Text.isBlankText expr = false)
    (h : ∀ s ∈ target.sections, ∀ item ∈ s.items, key ∉ item.lookups s.package) :
    ∃ extended, target.addRule key expr = .ok extended ∧ extended.generate = target.generate := by
  obtain ⟨rules', hinsert, hrules⟩ := Overrides.exists_insert hnew expr
  refine ⟨{ target with options := { target.options with overrides := rules' } }, ?_, ?_⟩
  · unfold addRule
    rw [hinsert]
    rfl
  · have hsame : ∀ s ∈ target.sections, ∀ item ∈ s.items,
        SameRules target.options { target.options with overrides := rules' }
          (item.lookups s.package) := by
      intro s hs item hitem name hname
      refine Overrides.get?_append_of_ne hrules ?_
      rintro rfl
      exact h s hs item hitem hname
    have halike : Options.MapAlike id target.options
        { target.options with overrides := rules' } :=
      ⟨rfl, rfl, rfl, fun _ => rfl, fun _ => rfl⟩
    have hgenerate := generate_congr (g := id) halike ⟨rfl, rfl, rfl⟩
      (Options.validate_append hrules hkey hexpr) rfl (fun _ => rfl) hsame
    rwa [List.map_id'' Section.mapComments_id] at hgenerate

/-- An output with a reference of each kind, one of them in a nested record, and a parent. -/
def cartTarget : Target :=
  let line : Shape :=
    .record [.plain "Item" (.named "Item"), .plain "Added" (.unresolved "time.Time")]
  { options := {}
    sections := [⟨"shop", "cart.go", [
      .type ⟨"Item", .struct, .record [], [], none, none, ⟨"cart.go", none, 1⟩⟩,
      .type ⟨"Cart", .struct, .record [.plain "Lines" (.sequence line)], [⟨"Base", true⟩], none,
        none, ⟨"cart.go", none, 2⟩⟩,
      .const ⟨"Empty", .named "State", .int 0, none, none, ⟨"cart.go", none, 3⟩⟩]⟩] }

theorem cartTarget_addRule :
    (∃ extended, cartTarget.addRule "Time" "Date" = .ok extended ∧
      extended.generate = cartTarget.generate) ∧
    ((cartTarget.addRule "shop.Item" "Product").bind Target.generate).toOption ≠
      cartTarget.generate.toOption := by
  refine ⟨?_, by decide +kernel⟩
  exact Target.generate_addRule (by decide) (by decide +kernel) (by decide +kernel)
    (by decide +kernel)

end WireTypes
