import WireTypes.Proofs.Failure

/-!
# Runs that agree

`Agree E R x y`: two computations both succeed, with results that `R` relates, or both fail, with
errors that `E` relates. Sequencing and traversals keep it (`Agree.bind`, `Agree.mapM`); with `Eq`
for both relations it is equality (`Agree.eq`).
-/

set_option autoImplicit false

namespace WireTypes

variable {ε α β γ δ : Type}

/-- Both succeed with related results, or both fail with related errors. -/
inductive Agree (E : ε → ε → Prop) (R : α → β → Prop) : Except ε α → Except ε β → Prop
  | ok {a : α} {b : β} (h : R a b) : Agree E R (.ok a) (.ok b)
  | error {e e' : ε} (h : E e e') : Agree E R (.error e) (.error e')

namespace Agree

variable {E : ε → ε → Prop} {R : α → β → Prop} {S : γ → δ → Prop} {x : Except ε α}
  {y : Except ε β}

theorem refl {R : α → α → Prop} (hE : ∀ e, E e e) (hR : ∀ a, R a a) (x : Except ε α) :
    Agree E R x x := by
  cases x with
  | ok a => exact .ok (hR a)
  | error e => exact .error (hE e)

theorem of_eq {x y : Except ε α} (hE : ∀ e, E e e) (h : x = y) : Agree E Eq x y := by
  subst h
  exact .refl hE (fun _ => rfl) x

theorem eq {x y : Except ε α} (h : Agree Eq Eq x y) : x = y := by
  cases h with
  | ok h => rw [h]
  | error h => rw [h]

theorem mono {E' : ε → ε → Prop} {R' : α → β → Prop} (h : Agree E R x y)
    (hE : ∀ e e', E e e' → E' e e') (hR : ∀ a b, R a b → R' a b) : Agree E' R' x y := by
  cases h with
  | ok h => exact .ok (hR _ _ h)
  | error h => exact .error (hE _ _ h)

theorem exists_of_right_ok (h : Agree E R x y) {b : β} (hy : y = .ok b) :
    ∃ a, x = .ok a ∧ R a b := by
  cases h with
  | ok h =>
    cases hy
    exact ⟨_, rfl, h⟩
  | error h => cases hy

theorem bind {f : α → Except ε γ} {g : β → Except ε δ} (h : Agree E R x y)
    (hfg : ∀ a b, R a b → Agree E S (f a) (g b)) : Agree E S (x >>= f) (y >>= g) := by
  cases h with
  | ok h => exact hfg _ _ h
  | error h => exact .error h

theorem mapM {f : α → Except ε γ} {g : β → Except ε δ} {xs : List α} {ys : List β}
    (h : List.Forall₂ (fun a b => Agree E S (f a) (g b)) xs ys) :
    Agree E (List.Forall₂ S) (xs.mapM f) (ys.mapM g) := by
  induction h with
  | nil => exact .ok .nil
  | cons h _ ih =>
    rw [List.mapM_cons, List.mapM_cons]
    exact h.bind fun _ _ hc => ih.bind fun _ _ hcs => .ok (.cons hc hcs)

end Agree

end WireTypes
