import SipXRouter.Proxy.RouteStateUpdate
import SipXRouter.Run

/-!
# Yielding before requests are dispatched

`SipRouter::preDispatch` drops requests while the router is slow.  Where the last request
took too long to dispatch, a yield period begins: the request at hand is dropped, and so
should be all others until the yield time has passed.  The yield time grows by a second
from one period to the next.

The period is measured from `_lastDispatchYieldTime`, which no code sets after the
constructor.  It therefore ends when as many seconds have passed since the start of the
system.

## Design notes

What `preDispatch` writes to the log, the alarm among it, is left out.
-/

namespace SipXRouter

open List

namespace PreDispatch

open RouteState HttpMessage

/-- `DISPATCH_MAX_YIELD_TIME_IN_SEC`. -/
def dispatchMaxYieldTimeInSec : Nat := 32

/-- `MAX_DISPATCH_DELAY_IN_MS`. -/
def maxDispatchDelayInMs : Int := 200

/-- The members and static variables that `preDispatch` works on. -/
structure Yielding where
  lastDispatchSpeed : Int := 0
  lastDispatchYieldTime : Nat := 0
  isDispatchYielding : Bool := false
  consecutiveYields : Nat := 0
  currentYieldTime : Nat := 1
deriving DecidableEq

/-- `preProcess`: the requests that may be dropped. -/
def preProcess (m : SipMessage) : Bool :=
  !isResponse m &&
    [text "INVITE", text "REGISTER", text "SUBSCRIBE"].contains (m.getFirstHeaderLinePart 0)

/-- `SipRouter::preDispatch` at a time in seconds since the system was started: what is
kept, and whether the request is dispatched. -/
def preDispatch (now : Nat) (m : SipMessage) (st : Yielding) : Yielding × Bool :=
  if preProcess m then
    if st.isDispatchYielding then
      let isDispatchYielding := decide (now < st.lastDispatchYieldTime + st.currentYieldTime)
      ({ st with isDispatchYielding := isDispatchYielding }, !isDispatchYielding)
    else if maxDispatchDelayInMs < st.lastDispatchSpeed then
      -- a yield period begins
      ({ st with
          isDispatchYielding := true
          consecutiveYields := st.consecutiveYields + 1
          currentYieldTime := min (st.currentYieldTime + 1) dispatchMaxYieldTimeInSec }, false)
    else
      ({ st with isDispatchYielding := false, consecutiveYields := 0, currentYieldTime := 1 }, true)
  else (st, true)

/-- What happens: a request comes in, or one has been handled between two times in
milliseconds. -/
inductive Event where
  | arrival (now : Nat) (m : SipMessage)
  | registerDispatchTimer (start stop : Int)

/-- What is kept after an event. -/
def step (st : Yielding) : Event → Yielding
  | .arrival now m => (preDispatch now m st).1
  | .registerDispatchTimer start stop => { st with lastDispatchSpeed := stop - start }

/-- The time of an arrival. -/
def Event.time : Event → Option Nat
  | .arrival now _ => some now
  | .registerDispatchTimer _ _ => none

/-- Requests come in at times that do not decrease. -/
def InOrder (es : List Event) : Prop := (es.filterMap Event.time).Pairwise (· ≤ ·)

instance (es : List Event) : Decidable (InOrder es) :=
  inferInstanceAs (Decidable (List.Pairwise _ _))

/-- A request begins a yield period. -/
def Begins (now : Nat) (m : SipMessage) (st : Yielding) : Prop :=
  st.isDispatchYielding = false ∧ (preDispatch now m st).1.isDispatchYielding = true

instance (now : Nat) (m : SipMessage) (st : Yielding) : Decidable (Begins now m st) :=
  inferInstanceAs (Decidable (_ ∧ _))

/-- Every request before the time `stop` is dropped, and the first one from then on is
dispatched. -/
def Lasts (stop : Nat) : Yielding → List Event → Prop
  | _, [] => True
  | st, .registerDispatchTimer start stop' :: es =>
    Lasts stop (step st (.registerDispatchTimer start stop')) es
  | st, .arrival now m :: es =>
    if preProcess m = false then Lasts stop (step st (.arrival now m)) es
    else if now < stop then
      (preDispatch now m st).2 = false ∧ Lasts stop (step st (.arrival now m)) es
    else (preDispatch now m st).2 = true

/-- A property of the state before each arrival of a run, the request and what comes in
behind it. -/
def AtArrivals (P : Yielding → Nat → SipMessage → List Event → Prop) :
    Yielding → List Event → Prop
  | _, [] => True
  | st, .registerDispatchTimer start stop :: es =>
    AtArrivals P (step st (.registerDispatchTimer start stop)) es
  | st, .arrival now m :: es => P st now m es ∧ AtArrivals P (step st (.arrival now m)) es

/-- **Yield periods last.**  Whenever a request begins a yield period it is dropped itself,
and the period lasts until the yield time has passed since then. -/
def YieldPeriodsLast : List Event → Prop :=
  AtArrivals (fun st now m rest => Begins now m st →
    (preDispatch now m st).2 = false ∧
      Lasts (now + (preDispatch now m st).1.currentYieldTime) (preDispatch now m st).1 rest) {}

/-- A request that may be dropped does not come in before the time `stop` once the yield
time has passed since the start of the system. -/
def NotLate (yieldTime stop : Nat) : Event → Prop
  | .arrival now m => preProcess m = true → now < stop → now < yieldTime
  | .registerDispatchTimer _ _ => True

/-- No request does so. -/
def NoneLate (yieldTime stop : Nat) (es : List Event) : Prop := ∀ e ∈ es, NotLate yieldTime stop e

/-- No request comes in too late within a yield period. -/
def Punctual : List Event → Prop :=
  AtArrivals (fun st now m rest => Begins now m st →
    NoneLate (preDispatch now m st).1.currentYieldTime
      (now + (preDispatch now m st).1.currentYieldTime) rest) {}

instance decidableLasts (stop : Nat) :
    ∀ (st : Yielding) (es : List Event), Decidable (Lasts stop st es)
  | _, [] => inferInstanceAs (Decidable True)
  | st, .registerDispatchTimer start stop' :: es =>
    decidableLasts stop (step st (.registerDispatchTimer start stop')) es
  | st, .arrival now m :: es =>
    have := decidableLasts stop (step st (.arrival now m)) es
    inferInstanceAs (Decidable (if preProcess m = false then _
      else if now < stop then (preDispatch now m st).2 = false ∧ _
      else (preDispatch now m st).2 = true))

instance decidableAtArrivals (P : Yielding → Nat → SipMessage → List Event → Prop)
    [∀ st now m rest, Decidable (P st now m rest)] :
    ∀ (st : Yielding) (es : List Event), Decidable (AtArrivals P st es)
  | _, [] => inferInstanceAs (Decidable True)
  | st, .registerDispatchTimer start stop :: es =>
    decidableAtArrivals P (step st (.registerDispatchTimer start stop)) es
  | st, .arrival now m :: es =>
    have := decidableAtArrivals P (step st (.arrival now m)) es
    inferInstanceAs (Decidable (_ ∧ _))

instance (yieldTime stop : Nat) (e : Event) : Decidable (NotLate yieldTime stop e) := by
  cases e <;> unfold NotLate <;> infer_instance

instance (yieldTime stop : Nat) (es : List Event) : Decidable (NoneLate yieldTime stop es) :=
  inferInstanceAs (Decidable (∀ e ∈ es, _))

instance (es : List Event) : Decidable (YieldPeriodsLast es) :=
  inferInstanceAs (Decidable (AtArrivals _ _ _))

instance (es : List Event) : Decidable (Punctual es) :=
  inferInstanceAs (Decidable (AtArrivals _ _ _))

/-! ## One event -/

section Step

variable {st : Yielding} {now : Nat} {m : SipMessage}

theorem preDispatch_other (hm : preProcess m = false) : preDispatch now m st = (st, true) := by
  rw [preDispatch, hm]
  rfl

theorem preDispatch_early (hm : preProcess m = true) (hyield : st.isDispatchYielding = true)
    (hnow : now < st.lastDispatchYieldTime + st.currentYieldTime) :
    preDispatch now m st = (st, false) := by
  have hsame : { st with isDispatchYielding := true } = st := by rw [← hyield]
  rw [preDispatch, if_pos hm, if_pos hyield]
  simp only [hnow, decide_true, hsame, Bool.not_true]

theorem preDispatch_late (hm : preProcess m = true) (hyield : st.isDispatchYielding = true)
    (hnow : ¬ now < st.lastDispatchYieldTime + st.currentYieldTime) :
    preDispatch now m st = ({ st with isDispatchYielding := false }, true) := by
  rw [preDispatch, if_pos hm, if_pos hyield]
  simp only [hnow, decide_false, Bool.not_false]

theorem Begins.dropped (h : Begins now m st) : (preDispatch now m st).2 = false := by
  obtain ⟨hnot, hthen⟩ := h
  unfold preDispatch at hthen ⊢
  split at hthen
  · next hm =>
      rw [if_pos hm]
      simp only [hnot, Bool.false_eq_true, if_false] at hthen ⊢
      split at hthen
      · next hslow => rw [if_pos hslow]
      · exact absurd hthen Bool.false_ne_true
  · exact absurd (hnot.symm.trans hthen) Bool.false_ne_true

/-- No event sets `_lastDispatchYieldTime`. -/
theorem lastDispatchYieldTime_step (st : Yielding) (e : Event) :
    (step st e).lastDispatchYieldTime = st.lastDispatchYieldTime := by
  cases e with
  | arrival now m =>
    show (preDispatch now m st).1.lastDispatchYieldTime = st.lastDispatchYieldTime
    unfold preDispatch
    by_cases hm : preProcess m = true
    · by_cases hyield : st.isDispatchYielding = true
      · simp only [hm, hyield, if_true]
      · by_cases hslow : maxDispatchDelayInMs < st.lastDispatchSpeed
        · simp only [hm, hyield, hslow, if_true, if_false, Bool.false_eq_true]
        · simp only [hm, hyield, hslow, if_true, if_false, Bool.false_eq_true]
    · rw [if_neg hm]
  | registerDispatchTimer start stop => rfl

end Step

/-! ## One period -/

/-- **What is left of a yield period** lasts up to a time exactly if no request comes in
before it once the yield time has passed since the start of the system. -/
theorem lasts_iff {stop : Nat} {es : List Event} {st : Yielding} (horder : InOrder es)
    (hyield : st.isDispatchYielding = true) (hstart : st.lastDispatchYieldTime = 0)
    (hstop : st.currentYieldTime ≤ stop) :
    Lasts stop st es ↔ NoneLate st.currentYieldTime stop es := by
  induction es generalizing st with
  | nil => exact ⟨fun _ _ hmem => absurd hmem not_mem_nil, fun _ => trivial⟩
  | cons e es ih =>
    rw [NoneLate, forall_mem_cons]
    change _ ↔ _ ∧ NoneLate st.currentYieldTime stop es
    cases e with
    | registerDispatchTimer start stop' =>
      rw [NotLate, true_and]
      exact ih horder hyield hstart hstop
    | arrival now m =>
      obtain ⟨hlater, hrest⟩ := pairwise_cons.mp horder
      have htime : st.lastDispatchYieldTime + st.currentYieldTime = st.currentYieldTime := by
        rw [hstart, Nat.zero_add]
      cases hm : preProcess m with
      | false =>
        rw [Lasts, if_pos hm, step, preDispatch_other hm, ih hrest hyield hstart hstop]
        simp [NotLate, hm]
      | true =>
        rw [Lasts, if_neg (by rw [hm]; exact Bool.noConfusion)]
        by_cases hearly : now < st.currentYieldTime
        · -- the router goes on yielding
          rw [if_pos (hearly.trans_le hstop), step,
            preDispatch_early hm hyield (htime.symm ▸ hearly), ih hrest hyield hstart hstop]
          simp [NotLate, hearly]
        · rw [preDispatch_late hm hyield (htime.symm ▸ hearly)]
          by_cases hbefore : now < stop
          · rw [if_pos hbefore]
            simp [NotLate, hm, hbefore, hearly]
          · rw [if_neg hbefore]
            -- nothing comes in before this request any more
            have hnone : NoneLate st.currentYieldTime stop es := by
              intro e he
              cases e with
              | registerDispatchTimer start stop' => trivial
              | arrival now' m' =>
                have hle : now ≤ now' :=
                  hlater now' (mem_filterMap.mpr ⟨.arrival now' m', he, rfl⟩)
                intro _ hlt
                omega
            simp [NotLate, hbefore, hnone]

/-! ## All periods -/

theorem atArrivals_congr {P Q : Yielding → Nat → SipMessage → List Event → Prop} {es : List Event}
    {st : Yielding} (horder : InOrder es) (hstart : st.lastDispatchYieldTime = 0)
    (h : ∀ st now m rest, st.lastDispatchYieldTime = 0 → InOrder rest →
      (P st now m rest ↔ Q st now m rest)) : AtArrivals P st es ↔ AtArrivals Q st es := by
  induction es generalizing st with
  | nil => exact Iff.rfl
  | cons e es ih =>
    have hnext := (lastDispatchYieldTime_step st e).trans hstart
    cases e with
    | registerDispatchTimer start stop => exact ih horder hnext
    | arrival now m =>
      have hrest : InOrder es := (pairwise_cons.mp horder).2
      exact and_congr (h st now m es hstart hrest) (ih hrest hnext)

/-- **When yield periods last.**  In a run with times that do not decrease every yield
period lasts exactly if no request comes in within one when its yield time has passed since
the start of the system. -/
theorem yieldPeriodsLast_iff {es : List Event} (horder : InOrder es) :
    YieldPeriodsLast es ↔ Punctual es := by
  apply atArrivals_congr horder rfl
  intro st now m rest hstart hrest
  refine forall_congr' fun hbegins => ?_
  have hkept : (preDispatch now m st).1.lastDispatchYieldTime = 0 :=
    (lastDispatchYieldTime_step st (.arrival now m)).trans hstart
  rw [lasts_iff hrest hbegins.2 hkept (Nat.le_add_left _ _)]
  exact and_iff_right hbegins.dropped

/-! ### A slow router -/

/-- A request that opens a dialog. -/
def invite : SipMessage where
  firstHeaderLine := text "INVITE sip:200@example.com SIP/2.0"
  nameValues := []

/-- One request took a second, and three come in later. -/
def slowRun (first second third : Nat) : List Event :=
  [.registerDispatchTimer 0 1000, .arrival first invite, .arrival second invite,
    .arrival third invite]

/-- A period that begins with the system. -/
theorem yieldPeriodsLast_atStart : YieldPeriodsLast (slowRun 0 1 2) :=
  (yieldPeriodsLast_iff (by decide)).mpr (by decide)

/-- Later on, the request that comes in a second after the start of a period of two seconds
ends it. -/
theorem not_yieldPeriodsLast_later :
    InOrder (slowRun 100 101 102) ∧ ¬ YieldPeriodsLast (slowRun 100 101 102) ∧
      Begins 100 invite (step {} (.registerDispatchTimer 0 1000)) ∧
      (step (step {} (.registerDispatchTimer 0 1000)) (.arrival 100 invite)).currentYieldTime = 2 ∧
      (preDispatch 101 invite (step (step {} (.registerDispatchTimer 0 1000))
        (.arrival 100 invite))).2 = true := by
  decide

end PreDispatch

end SipXRouter
