/-!
# Steps in place

Programs that change a state step by step and may fail. A failure ends them, and what they have done
by then stays done.
-/

set_option autoImplicit false

namespace WireTypes

/-- Steps on a state of type `σ` that may fail with an error of type `ε`. -/
abbrev InPlace (σ ε : Type) := ExceptT ε (StateM σ)

/-- The state after steps that start at `s`, and what they come to. -/
def InPlace.runAt {σ ε α : Type} (s : σ) (steps : InPlace σ ε α) : σ × Except ε α :=
  (steps.run.run s).swap

end WireTypes
