import Mathlib.Logic.Relation

/-!
# Runs of event driven systems

A system that handles one event after another, where each event has to meet a
condition that may depend on the state.  What holds at the start and is kept by
every step holds in every state that a run reaches.
-/

namespace SipXRouter.Run

variable {σ ε : Type*}

/-- One step of a run, with an event that is allowed in the state. -/
def Step (step : σ → ε → σ) (allowed : σ → ε → Prop) (s s' : σ) : Prop :=
  ∃ e, allowed s e ∧ step s e = s'

/-- The states that a run from `s` leads to. -/
def Reaches (step : σ → ε → σ) (allowed : σ → ε → Prop) : σ → σ → Prop :=
  Relation.ReflTransGen (Step step allowed)

/-- Each event of the list is allowed when its turn comes. -/
def AllAllowed (step : σ → ε → σ) (allowed : σ → ε → Prop) : σ → List ε → Prop
  | _, [] => True
  | s, e :: es => allowed s e ∧ AllAllowed step allowed (step s e) es

instance decidableAllAllowed (step : σ → ε → σ) (allowed : σ → ε → Prop)
    [∀ s e, Decidable (allowed s e)] :
    ∀ (s : σ) (es : List ε), Decidable (AllAllowed step allowed s es)
  | _, [] => inferInstanceAs (Decidable True)
  | s, e :: es =>
    have := decidableAllAllowed step allowed (step s e) es
    inferInstanceAs (Decidable (allowed s e ∧ AllAllowed step allowed (step s e) es))

variable {step : σ → ε → σ} {allowed : σ → ε → Prop} {s s' : σ}

theorem Reaches.invariant {Inv : σ → Prop} (h : Reaches step allowed s s') (hs : Inv s)
    (hstep : ∀ s e, Inv s → allowed s e → Inv (step s e)) : Inv s' := by
  induction h with
  | refl => exact hs
  | tail _ hlast ih =>
    obtain ⟨e, hallowed, rfl⟩ := hlast
    exact hstep _ e ih hallowed

theorem AllAllowed.reaches {es : List ε} (h : AllAllowed step allowed s es) :
    Reaches step allowed s (es.foldl step s) := by
  induction es generalizing s with
  | nil => exact Relation.ReflTransGen.refl
  | cons e es ih => exact Relation.ReflTransGen.head ⟨e, h.1, rfl⟩ (ih h.2)

theorem allAllowed_append {es es' : List ε} : AllAllowed step allowed s (es ++ es') ↔
    AllAllowed step allowed s es ∧ AllAllowed step allowed (es.foldl step s) es' := by
  induction es generalizing s with
  | nil => exact ⟨fun h => ⟨trivial, h⟩, And.right⟩
  | cons e es ih =>
    show allowed s e ∧ AllAllowed step allowed (step s e) (es ++ es') ↔ _
    rw [ih, ← and_assoc]
    rfl

theorem AllAllowed.simulates {τ : Type*} {step' : τ → ε → τ} {R : σ → τ → Prop} {t : τ} {es : List ε}
    (h : AllAllowed step allowed s es) (hs : R s t)
    (hstep : ∀ s t e, R s t → allowed s e → R (step s e) (step' t e)) :
    R (es.foldl step s) (es.foldl step' t) := by
  induction es generalizing s t with
  | nil => exact hs
  | cons e es ih => exact ih h.2 (hstep s t e hs h.1)

end SipXRouter.Run
