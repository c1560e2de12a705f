import Mathlib.Logic.Basic

/-!
# How an operation ends

An operation on an object changes its state, may be left by an exception on the way, and
may not be defined at all.
-/

namespace SipXRouter

/-- The state that an operation leaves, and whether it raised an exception. -/
structure Left (σ : Type*) where
  state : σ
  raised : Bool := false
deriving DecidableEq

/-- What an operation leaves; nothing where it is not defined. -/
abbrev Outcome (σ : Type*) := Option (Left σ)

namespace Outcome

variable {σ τ : Type*}

/-- The operation is over. -/
def done (s : σ) : Outcome σ := some { state := s }

/-- The operation raises an exception. -/
def raise (s : σ) : Outcome σ := some { state := s, raised := true }

/-- Go on with another operation, unless an exception has been raised. -/
def andThen (o : Outcome σ) (next : σ → Outcome σ) : Outcome σ :=
  match o with
  | none => none
  | some left => if left.raised then some left else next left.state

/-- Go on with the object that another operation has made.  An exception in there leaves
the state as it was. -/
def making (made : Outcome τ) (s : σ) (next : τ → Outcome σ) : Outcome σ :=
  match made with
  | none => none
  | some left => if left.raised then raise s else next left.state

/-- The operation is defined; what it leaves has the property `P`, or `E` where it has
raised an exception. -/
def Ends (P E : σ → Prop) (o : Outcome σ) : Prop :=
  ∃ left, o = some left ∧ if left.raised then E left.state else P left.state

variable {P Q E : σ → Prop} {o : Outcome σ} {s : σ}

theorem ends_done (h : P s) : Ends P E (done s) := ⟨_, rfl, h⟩

theorem ends_raise (h : E s) : Ends P E (raise s) := ⟨_, rfl, h⟩

theorem Ends.imp (h : Ends P E o) (hPQ : ∀ s, P s → Q s) : Ends Q E o := by
  obtain ⟨left, rfl, hleft⟩ := h
  refine ⟨left, rfl, ?_⟩
  cases hraised : left.raised with
  | true => simpa [hraised] using hleft
  | false =>
    rw [hraised] at hleft
    exact hPQ _ hleft

/-- The rule for one operation after another. -/
theorem Ends.andThen {next : σ → Outcome σ} (h : Ends P E o)
    (hnext : ∀ s, P s → Ends Q E (next s)) : Ends Q E (o.andThen next) := by
  obtain ⟨left, rfl, hleft⟩ := h
  cases hraised : left.raised with
  | true =>
    rw [hraised] at hleft
    refine ⟨left, by simp [Outcome.andThen, hraised], ?_⟩
    rw [hraised]
    exact hleft
  | false =>
    rw [hraised] at hleft
    have hthen : Outcome.andThen (some left) next = next left.state := by
      simp [Outcome.andThen, hraised]
    rw [hthen]
    exact hnext _ hleft

theorem Ends.making {made : Outcome τ} {R F : τ → Prop} {next : τ → Outcome σ} (h : Ends R F made)
    (hs : E s) (hnext : ∀ t, R t → Ends P E (next t)) : Ends P E (Outcome.making made s next) := by
  obtain ⟨left, rfl, hleft⟩ := h
  cases hraised : left.raised with
  | true =>
    have hraise : Outcome.making (some left) s next = raise s := by simp [Outcome.making, hraised]
    rw [hraise]
    exact ends_raise hs
  | false =>
    rw [hraised] at hleft
    have hthen : Outcome.making (some left) s next = next left.state := by
      simp [Outcome.making, hraised]
    rw [hthen]
    exact hnext _ hleft

/-! ## Runs -/

variable {ε : Type*} {step : σ → ε → Outcome σ} {safe : σ → ε → Prop}

/-- Each operation of the list is safe in the state that it starts from. -/
def AllSafe (step : σ → ε → Outcome σ) (safe : σ → ε → Prop) : σ → List ε → Prop
  | _, [] => True
  | s, e :: es => safe s e ∧ ∀ left, step s e = some left → AllSafe step safe left.state es

/-- Each operation of the list is defined, and every state on the way has the property. -/
def Sound (step : σ → ε → Outcome σ) (P : σ → Prop) : σ → List ε → Prop
  | s, [] => P s
  | s, e :: es => P s ∧ ∃ left, step s e = some left ∧ Sound step P left.state es

theorem AllSafe.sound {es : List ε} (h : AllSafe step safe s es) (hs : P s)
    (hstep : ∀ s e, P s → safe s e → Ends P P (step s e)) : Sound step P s es := by
  induction es generalizing s with
  | nil => exact hs
  | cons e es ih =>
    obtain ⟨hsafe, hrest⟩ := h
    obtain ⟨left, hleft, hP⟩ := hstep s e hs hsafe
    rw [ite_self] at hP
    exact ⟨hs, left, hleft, ih (hrest left hleft) hP⟩

theorem Sound.imp {es : List ε} (h : Sound step P s es) (hPQ : ∀ s, P s → Q s) :
    Sound step Q s es := by
  induction es generalizing s with
  | nil => exact hPQ s h
  | cons e es ih =>
    obtain ⟨hs, left, hleft, hrest⟩ := h
    exact ⟨hPQ s hs, left, hleft, ih hrest⟩

end Outcome

end SipXRouter
