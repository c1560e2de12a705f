import Mathlib.Data.Nat.Basic
import Mathlib.Tactic

/-!
# Loops that may not end

A loop is a step function on the values of its variables: one turn either goes on with
new values or ends the loop with a result.  Nothing says that it ends.
-/

namespace SipXRouter.Loop

variable {σ β : Type*} {step : σ → σ ⊕ β} {s s' : σ} {b b' : β}

/-- The loop ends with a result. -/
inductive Returns (step : σ → σ ⊕ β) : σ → β → Prop
  | done {s : σ} {b : β} (h : step s = .inr b) : Returns step s b
  | next {s s' : σ} {b : β} (h : step s = .inl s') (hrest : Returns step s' b) : Returns step s b

/-- The values of the variables that are reached at the begin of a turn. -/
def Reaches (step : σ → σ ⊕ β) : σ → σ → Prop := Relation.ReflTransGen fun s s' => step s = .inl s'

/-- The loop for at most a number of turns. -/
def run (step : σ → σ ⊕ β) : Nat → σ → Option β
  | 0, _ => none
  | fuel + 1, s => (step s).elim (run step fuel) some

theorem Reaches.invariant {Inv : σ → Prop} (h : Reaches step s s') (hs : Inv s)
    (hnext : ∀ s s', Inv s → step s = .inl s' → Inv s') : Inv s' := by
  induction h with
  | refl => exact hs
  | tail _ hlast ih => exact hnext _ _ ih hlast

theorem Returns.of_next (h : Returns step s b) (hs : step s = .inl s') : Returns step s' b := by
  cases h with
  | done h => exact absurd (hs.symm.trans h) Sum.inl_ne_inr
  | next h hrest => exact Sum.inl.inj (hs.symm.trans h) ▸ hrest

theorem returns_iff_of_next (h : step s = .inl s') : Returns step s b ↔ Returns step s' b :=
  ⟨fun hs => hs.of_next h, .next h⟩

theorem returns_iff_of_done (h : step s = .inr b') : Returns step s b ↔ b = b' := by
  constructor
  · intro hs
    cases hs with
    | done hb => exact Sum.inr.inj (hb.symm.trans h)
    | next hs' _ => exact absurd (hs'.symm.trans h) Sum.inl_ne_inr
  · rintro rfl
    exact .done h

/-- **Total correctness.**  The loop ends if, besides, every turn makes a measure smaller. -/
theorem exists_returns {Inv : σ → Prop} {Q : β → Prop} (μ : σ → Nat) (hs : Inv s)
    (hnext : ∀ s s', Inv s → step s = .inl s' → Inv s' ∧ μ s' < μ s)
    (hdone : ∀ s b, Inv s → step s = .inr b → Q b) : ∃ b, Returns step s b ∧ Q b := by
  induction hμ : μ s using Nat.strong_induction_on generalizing s with
  | h n ih =>
    cases hstep : step s with
    | inr b => exact ⟨b, .done hstep, hdone s b hs hstep⟩
    | inl s' =>
      obtain ⟨hs', hlt⟩ := hnext s s' hs hstep
      obtain ⟨b, hb, hQ⟩ := ih (μ s') (hμ ▸ hlt) hs' rfl
      exact ⟨b, .next hstep hb, hQ⟩

theorem not_returns_of_kept (Inv : σ → Prop) (hs : Inv s)
    (hkept : ∀ s, Inv s → ∃ s', step s = .inl s' ∧ Inv s') : ¬ Returns step s b := by
  intro h
  induction h with
  | done h =>
    obtain ⟨s', hs', -⟩ := hkept _ hs
    exact absurd (hs'.symm.trans h) Sum.inl_ne_inr
  | next h _ ih =>
    obtain ⟨s'', hs', hinv⟩ := hkept _ hs
    exact ih (Sum.inl.inj (hs'.symm.trans h) ▸ hinv)

theorem returns_of_run {fuel : Nat} (h : run step fuel s = some b) : Returns step s b := by
  induction fuel generalizing s with
  | zero => simp [run] at h
  | succ fuel ih =>
    cases hstep : step s with
    | inr b' =>
      rw [run, hstep] at h
      exact .done (hstep.trans (congrArg Sum.inr (Option.some.inj h)))
    | inl s' =>
      rw [run, hstep] at h
      exact .next hstep (ih h)

end SipXRouter.Loop
