import WireTypes.InPlace

/-!
# Steps one after the other

What a sequence of steps does, from what each of them does (`runAt_bind`). Steps that work something
out without touching the state are told by what they come to (`runAt_lift`, `runAt_get`).
-/

set_option autoImplicit false

namespace WireTypes.InPlace

variable {σ ε α β : Type}

theorem runAt_lift (s : σ) (x : Except ε α) : runAt s (liftM x : InPlace σ ε α) = (s, x) := by
  cases x with
  | ok a => rfl
  | error e => rfl

theorem runAt_get (s : σ) : runAt s (get : InPlace σ ε σ) = (s, .ok s) := rfl

theorem runAt_modify (s : σ) (f : σ → σ) :
    runAt s (modify f : InPlace σ ε PUnit) = (f s, .ok ⟨⟩) := rfl

theorem runAt_bind (s : σ) (x : InPlace σ ε α) (f : α → InPlace σ ε β) :
    runAt s (x >>= f) =
      match runAt s x with
      | (s', .ok a) => runAt s' (f a)
      | (s', .error e) => (s', .error e) := by
  simp only [runAt, ExceptT.run_bind, StateT.run_bind]
  rcases StateT.run (ExceptT.run x) s with ⟨a | e, s'⟩
  · rfl
  · rfl

end WireTypes.InPlace
