import Mathlib.Data.List.Basic

/-!
# What a computation preserves

A computation on a state that may be left by an exception preserves a condition on the state if
the condition holds at its end, however it ends.
-/

namespace SipXRouter.Effects

universe u

variable {ε σ α β : Type u}

/-- The state in which a computation ends. -/
def final : EStateM.Result ε σ α → σ
  | .ok _ s => s
  | .error _ s => s

/-- The condition is kept. -/
def Preserves (P : σ → Prop) (x : EStateM ε σ α) : Prop := ∀ s, P s → P (final (x s))

/-- What `bind` does to a result. -/
theorem bind_eq (x : EStateM ε σ α) (f : α → EStateM ε σ β) (s : σ) :
    (x >>= f) s = match x s with
      | .ok a s' => f a s'
      | .error e s' => .error e s' := rfl

theorem get_bind (f : σ → EStateM ε σ α) (s : σ) :
    ((MonadState.get : EStateM ε σ σ) >>= f) s = f s s := rfl

namespace Preserves

variable {P : σ → Prop}

theorem pure (a : α) : Preserves P (Pure.pure a : EStateM ε σ α) := fun _ h => h

theorem get : Preserves P (MonadState.get : EStateM ε σ σ) := fun _ h => h

theorem bind {x : EStateM ε σ α} {f : α → EStateM ε σ β} (hx : Preserves P x)
    (hf : ∀ a, Preserves P (f a)) : Preserves P (x >>= f) := by
  intro s hs
  have hend := hx s hs
  rw [bind_eq]
  cases hresult : x s with
  | ok a s' =>
    rw [hresult] at hend
    exact hf a s' hend
  | error e s' =>
    rw [hresult] at hend
    exact hend

theorem ite {x y : EStateM ε σ α} {c : Prop} [Decidable c] (hx : Preserves P x)
    (hy : Preserves P y) : Preserves P (if c then x else y) := by
  by_cases h : c
  · rwa [if_pos h]
  · rwa [if_neg h]

theorem forM {l : List α} {f : α → EStateM ε σ PUnit} (hf : ∀ a, Preserves P (f a)) :
    Preserves P (l.forM f) := by
  induction l with
  | nil => exact pure _
  | cons a l ih => exact bind (hf a) fun _ => ih

end Preserves

end SipXRouter.Effects
