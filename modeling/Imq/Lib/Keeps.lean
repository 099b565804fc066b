import Mathlib.Init

/-! # What code with state and exceptions keeps

A property of the state that code keeps, whether it returns or throws.
-/

namespace Imq.Lib

variable {ε σ α β : Type}

/-- If the property holds before the code, it holds after it. -/
def Keeps (P : σ → Prop) (x : EStateM ε σ α) : Prop :=
  ∀ s, P s →
    match x.run s with
    | .ok _ s' | .error _ s' => P s'

variable {P : σ → Prop}

theorem Keeps.bind {x : EStateM ε σ α} {f : α → EStateM ε σ β} (hx : Keeps P x)
    (hf : ∀ a, Keeps P (f a)) : Keeps P (x >>= f) := by
  intro s hs
  have hx := hx s hs
  rw [EStateM.run_bind]
  cases h : x.run s with
  | ok a s' =>
    rw [h] at hx
    exact hf a s' hx
  | error e s' =>
    rw [h] at hx
    exact hx

theorem Keeps.pure (a : α) : Keeps P (Pure.pure a : EStateM ε σ α) := fun _ hs => hs

theorem Keeps.throw (e : ε) : Keeps P (MonadExcept.throw e : EStateM ε σ α) := fun _ hs => hs

theorem Keeps.get : Keeps P (MonadState.get : EStateM ε σ σ) := fun _ hs => hs

theorem Keeps.modify {f : σ → σ} (h : ∀ s, P s → P (f s)) :
    Keeps P (modifyGet (fun s => (PUnit.unit, f s)) : EStateM ε σ PUnit) := fun s hs => h s hs

theorem Keeps.ite {c : Prop} [Decidable c] {x y : EStateM ε σ α} (hx : Keeps P x)
    (hy : Keeps P y) : Keeps P (if c then x else y) := by
  split
  · exact hx
  · exact hy

end Imq.Lib
