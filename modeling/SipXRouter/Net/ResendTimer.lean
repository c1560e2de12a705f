import SipXRouter.Bytes
import Mathlib.Data.Nat.Log

/-!
# Resending a NOTIFY

When a `NOTIFY` fails, `startResendTimer` starts a timer to send it again, unless the timer is set
to fire sooner, and doubles the interval for the next time.  The timer refuses to be started while
it runs, and so a timer that is set to fire later is left as it is.

## Design notes

* A call is taken at one instant, in microseconds; a timer that has expired and whose handler has
  not run yet is still running, with a negative remaining time.
* The interval is kept positive by the type; it is doubled up to a limit far below that of an
  `unsigned`.
-/

namespace SipXRouter

open List

/-- The timer, with the time at which it fires while it runs. -/
structure ResendTimer where
  isRunning : Bool := false
  expiresAt : Int := 0
deriving DecidableEq

namespace ResendTimer

/-- `TIMER_TIME_UNIT`: microseconds in a second. -/
def timeUnit : Int := 1000000

/-- `OsTimer::Timer::oneshotAfter`: a timer that runs is not started again. -/
def oneshotAfter (t : ResendTimer) (now offset : Int) : Bool × ResendTimer :=
  if t.isRunning then (false, t) else (true, ⟨true, offset + now⟩)

end ResendTimer

/-- What a subscription keeps for resending: `mNextResendInterval` in seconds, `mResendTimer`, and
`mFullContentForNextNotify`. -/
structure ResendState where
  nextResendInterval : Nat
  timer : ResendTimer := {}
  fullContentForNextNotify : Bool := false
  interval_pos : 0 < nextResendInterval
deriving DecidableEq

namespace ResendState

/-- `sInitialNextResendInterval`. -/
def initialNextResendInterval : Nat := 10

/-- `sMaxNextResendInterval`. -/
def maxNextResendInterval : Nat := 15 * 60

theorem initialNextResendInterval_pos : 0 < initialNextResendInterval := by decide

/-- The constructor. -/
def start : ResendState where
  nextResendInterval := initialNextResendInterval
  interval_pos := initialNextResendInterval_pos

/-- A new NOTIFY starts with the first interval again. -/
def newNotify (st : ResendState) : ResendState :=
  { st with
    nextResendInterval := initialNextResendInterval
    interval_pos := initialNextResendInterval_pos }

/-- The remaining time as the code compares it: microseconds, narrowed to an `unsigned`. -/
def currentInterval (st : ResendState) (now : Int) : Nat := toUInt32 (st.timer.expiresAt - now)

theorem double_pos (st : ResendState) : 0 < st.nextResendInterval * 2 :=
  Nat.mul_pos st.interval_pos (by decide)

/-- `startResendTimer`, for the subscription it has found. -/
def startResendTimer (st : ResendState) (now : Int) : ResendState :=
  let interval := st.nextResendInterval
  if interval ≤ maxNextResendInterval then
    { nextResendInterval := interval * 2
      interval_pos := st.double_pos
      fullContentForNextNotify := true
      timer :=
        if st.timer.isRunning = false ∨ interval < st.currentInterval now then
          (st.timer.oneshotAfter now (interval * ResendTimer.timeUnit)).2
        else st.timer }
  else { st with fullContentForNextNotify := true }

/-- The timer fires. -/
def fire (st : ResendState) : ResendState :=
  { st with timer := { st.timer with isRunning := false } }

/-! ## Runs -/

/-- What happens to a subscription while its `NOTIFY`s fail: a failure, which starts the timer, the
timer fires, and the `NOTIFY` is sent again; or a new `NOTIFY` is sent. -/
inductive Event where
  | failed (now : Int)
  | fired
  | newNotify
deriving DecidableEq

/-- What an event does to the state. -/
def step (st : ResendState) : Event → ResendState
  | .failed now => st.startResendTimer now
  | .fired => st.fire
  | .newNotify => st.newNotify

/-- Whether the timer sends the `NOTIFY` again in this step. -/
def resends (st : ResendState) (e : Event) : Bool := e == .fired && st.timer.isRunning

/-- The number of times that it is sent again in a run. -/
def countResends : ResendState → List Event → Nat
  | _, [] => 0
  | st, e :: events => (if st.resends e then 1 else 0) + countResends (st.step e) events

def Event.isFailure : Event → Bool
  | .failed _ => true
  | _ => false

/-- **The NOTIFY is resent in time**: after the call the timer runs, and it fires within the
interval, and not later than it did before. -/
structure NeverLate (st : ResendState) (now : Int) : Prop where
  runs : (st.startResendTimer now).timer.isRunning = true
  soon : (st.startResendTimer now).timer.expiresAt - now ≤
    st.nextResendInterval * ResendTimer.timeUnit
  sooner : st.timer.isRunning = true →
    (st.startResendTimer now).timer.expiresAt ≤ st.timer.expiresAt

/-- How often an interval can be doubled before it is over the maximum. -/
def doublings (interval : Nat) : Nat :=
  if interval ≤ maxNextResendInterval then Nat.log 2 (maxNextResendInterval / interval) + 1 else 0

/-- **Failures back off.**  In every run without a new `NOTIFY` each failure doubles the interval,
until it is over the maximum, and the number of resends is bounded. -/
structure BacksOff (st : ResendState) : Prop where
  doubles : ∀ events : List Event, .newNotify ∉ events →
    (events.foldl step st).nextResendInterval =
      st.nextResendInterval * 2 ^ min (events.countP Event.isFailure) (doublings st.nextResendInterval)
  bounded : ∀ events : List Event, .newNotify ∉ events →
    st.countResends events ≤ doublings st.nextResendInterval + 1

/-- A timer that does not run for longer than the interval. -/
def FiresWithin (st : ResendState) (now : Int) : Prop :=
  st.timer.isRunning = true →
    st.timer.expiresAt - now ≤ st.nextResendInterval * ResendTimer.timeUnit

/-! ## One call -/

theorem timer_startResendTimer (st : ResendState) (now : Int)
    (hinterval : st.nextResendInterval ≤ maxNextResendInterval) :
    (st.startResendTimer now).timer =
      if st.timer.isRunning = false then
        ⟨true, st.nextResendInterval * ResendTimer.timeUnit + now⟩
      else st.timer := by
  rw [startResendTimer]
  simp only [if_pos hinterval]
  by_cases hrunning : st.timer.isRunning = false
  · rw [if_pos (Or.inl hrunning), if_pos hrunning, ResendTimer.oneshotAfter, hrunning]
    rfl
  · rw [if_neg hrunning]
    split
    · -- the timer refuses, whatever was compared
      rw [ResendTimer.oneshotAfter, if_pos (Bool.eq_true_of_not_eq_false hrunning)]
    · rfl

theorem nextResendInterval_startResendTimer (st : ResendState) (now : Int) :
    (st.startResendTimer now).nextResendInterval =
      if st.nextResendInterval ≤ maxNextResendInterval then st.nextResendInterval * 2
      else st.nextResendInterval := by
  rw [startResendTimer]
  split <;> rfl

theorem neverLate_iff_firesWithin {st : ResendState}
    (hinterval : st.nextResendInterval ≤ maxNextResendInterval) (now : Int) :
    NeverLate st now ↔ FiresWithin st now := by
  have htimer := timer_startResendTimer st now hinterval
  by_cases hrunning : st.timer.isRunning = false
  · rw [if_pos hrunning] at htimer
    constructor
    · intro _ hstarted
      rw [hrunning] at hstarted
      cases hstarted
    · intro _
      refine ⟨by rw [htimer], ?_, fun hstarted => ?_⟩
      · rw [htimer]
        exact (Int.add_sub_cancel _ _).le
      · rw [hrunning] at hstarted
        cases hstarted
  · rw [if_neg hrunning] at htimer
    have hstarted := Bool.eq_true_of_not_eq_false hrunning
    constructor
    · intro hlate _
      have hsoon := hlate.soon
      rwa [htimer] at hsoon
    · intro hwithin
      exact ⟨by rw [htimer, hstarted], by rw [htimer]; exact hwithin hstarted,
        fun _ => by rw [htimer]⟩

/-! ## Runs of failures -/

theorem doublings_mul_two {interval : Nat} (hpos : 0 < interval)
    (hle : interval ≤ maxNextResendInterval) :
    doublings interval = doublings (interval * 2) + 1 := by
  have hdiv : maxNextResendInterval / (interval * 2) = maxNextResendInterval / interval / 2 :=
    (Nat.div_div_eq_div_mul _ _ _).symm
  have hone : 1 ≤ maxNextResendInterval / interval := (Nat.one_le_div_iff hpos).mpr hle
  rw [doublings, doublings, if_pos hle]
  split
  · next hle2 =>
      have htwo : 2 ≤ maxNextResendInterval / interval :=
        (Nat.le_div_iff_mul_le hpos).mpr (by omega)
      rw [hdiv, Nat.log_div_base, Nat.sub_add_cancel (Nat.log_pos (by decide) htwo)]
  · next hgt =>
      have hlt : maxNextResendInterval / interval < 2 := (Nat.div_lt_iff_lt_mul hpos).mpr (by omega)
      rw [show maxNextResendInterval / interval = 1 by omega]
      rfl

theorem doublings_startResendTimer (st : ResendState) (now : Int) :
    doublings (st.startResendTimer now).nextResendInterval =
      doublings st.nextResendInterval - 1 := by
  rw [nextResendInterval_startResendTimer]
  split
  · next hle => rw [doublings_mul_two st.interval_pos hle, Nat.add_sub_cancel]
  · next hgt => rw [doublings, if_neg hgt]

theorem interval_startResendTimer (st : ResendState) (now : Int) :
    (st.startResendTimer now).nextResendInterval =
      st.nextResendInterval * 2 ^ min 1 (doublings st.nextResendInterval) := by
  rw [nextResendInterval_startResendTimer]
  split
  · next hle =>
      rw [doublings_mul_two st.interval_pos hle, Nat.min_eq_left (Nat.le_add_left 1 _), pow_one]
  · next hgt => rw [doublings, if_neg hgt, Nat.min_zero, pow_zero, mul_one]

/-- The interval after a run is doubled by each failure, up to its bound. -/
theorem interval_run (events : List Event) : ∀ st : ResendState, .newNotify ∉ events →
    (events.foldl step st).nextResendInterval = st.nextResendInterval *
        2 ^ min (events.countP Event.isFailure) (doublings st.nextResendInterval) := by
  induction events with
  | nil =>
    intro st _
    rw [foldl_nil, countP_nil, Nat.zero_min, pow_zero, mul_one]
  | cons e events ih =>
    intro st hnew
    have hlater : Event.newNotify ∉ events := fun hmem => hnew (mem_cons_of_mem _ hmem)
    rw [foldl_cons, ih _ hlater]
    cases e with
    | failed now =>
      rw [countP_cons_of_pos rfl]
      show (st.startResendTimer now).nextResendInterval *
        2 ^ min _ (doublings (st.startResendTimer now).nextResendInterval) = _
      rw [doublings_startResendTimer, interval_startResendTimer, mul_assoc, ← pow_add]
      congr 2
      omega
    | fired => rfl
    | newNotify => exact absurd mem_cons_self hnew

/-- What is left of the resends: one for the timer that runs, and one for each doubling. -/
def budget (st : ResendState) : Nat :=
  doublings st.nextResendInterval + if st.timer.isRunning then 1 else 0

/-- A step without a new `NOTIFY` pays for its resend. -/
theorem budget_step (st : ResendState) {e : Event} (he : e ≠ .newNotify) :
    (if st.resends e then 1 else 0) + (st.step e).budget ≤ st.budget := by
  cases e with
  | failed now =>
    show 0 + (st.startResendTimer now).budget ≤ _
    rw [Nat.zero_add, budget, budget, doublings_startResendTimer]
    by_cases hle : st.nextResendInterval ≤ maxNextResendInterval
    · rw [doublings_mul_two st.interval_pos hle]
      split <;> omega
    · have htimer : (st.startResendTimer now).timer = st.timer := by
        rw [startResendTimer]
        simp only [if_neg hle]
      rw [htimer, doublings, if_neg hle]
  | fired =>
    show (if st.timer.isRunning then 1 else 0) + (doublings st.nextResendInterval + 0) ≤ _
    rw [budget]
    omega
  | newNotify => exact absurd rfl he

theorem countResends_le (events : List Event) : ∀ st : ResendState, .newNotify ∉ events →
    st.countResends events ≤ st.budget := by
  induction events with
  | nil => exact fun st _ => Nat.zero_le _
  | cons e events ih =>
    intro st hnew
    have hstep := budget_step st (show e ≠ .newNotify from fun heq => hnew (heq ▸ mem_cons_self))
    have hlater := ih (st.step e) fun hmem => hnew (mem_cons_of_mem _ hmem)
    rw [countResends]
    omega

theorem backsOff (st : ResendState) : BacksOff st where
  doubles events hnew := interval_run events st hnew
  bounded events hnew := by
    have hle := countResends_le events st hnew
    rw [budget] at hle
    split at hle <;> omega

/-! ## The timer and the runs -/

/-- **Which calls resend in time**: those with a timer that has stopped or fires within the
interval.  That failures back off holds of every state. -/
theorem neverLate_iff {st : ResendState}
    (hinterval : st.nextResendInterval ≤ maxNextResendInterval) (now : Int) :
    NeverLate st now ∧ BacksOff st ↔ FiresWithin st now := by
  rw [neverLate_iff_firesWithin hinterval]
  exact and_iff_left (backsOff st)

/-- The first failure starts the timer; at the next, two seconds later, it runs, and fires in
eight. -/
theorem neverLate_start :
    (NeverLate start 0 ∧ BacksOff start) ∧ (start.startResendTimer 0).timer.isRunning = true ∧
      NeverLate (start.startResendTimer 0) 2000000 ∧ BacksOff (start.startResendTimer 0) := by
  refine ⟨(@neverLate_iff start (by decide) 0).mpr fun hrunning => absurd hrunning (by decide),
    by decide, ?_⟩
  exact (@neverLate_iff (start.startResendTimer 0) (by decide) 2000000).mpr fun _ => by decide

/-- A `NOTIFY` fails twice, and its timer is set to twenty seconds; a new one is sent, and it fails
at once. -/
def failedAnew : ResendState :=
  [.failed 0, .fired, .failed 10000000, .newNotify].foldl step start

/-- It is to be sent again after ten seconds, and the timer fires after twenty. -/
theorem not_neverLate_failedAnew :
    failedAnew.nextResendInterval = 10 ∧
      (failedAnew.startResendTimer 10000000).timer = ⟨true, 10000000 + 20 * 1000000⟩ ∧
      ¬ NeverLate failedAnew 10000000 := by
  refine ⟨by decide, by decide, fun hlate => ?_⟩
  exact absurd hlate.soon (by decide)

end ResendState

end SipXRouter
