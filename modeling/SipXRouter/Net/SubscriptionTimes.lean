import SipXRouter.Net.SipSubscriptionMgr

/-!
# Granted subscription times

`updateDialogInfo` spreads the time of a subscription at random, between limits that depend on
what the `SUBSCRIBE` asks for and on the three times of the manager.  `setSubscriptionTimes` lets
two of these be the same, and then the range to draw from is empty.
-/

namespace SipXRouter.SipSubscriptionMgr

def setSubscriptionTimes (mgr : SipSubscriptionMgr)
    (minExpiration defaultExpiration maxExpiration : Int) : Bool × SipSubscriptionMgr :=
  if hordered : minExpiration ≤ defaultExpiration ∧ defaultExpiration ≤ maxExpiration then
    if hlimited : 32 ≤ minExpiration ∧ maxExpiration ≤ 86400 then
      (true, { mgr with
        times := ⟨minExpiration, defaultExpiration, maxExpiration, hordered, hlimited⟩ })
    else (false, mgr)
  else (false, mgr)

/-- The divisor of the remainder operation in `calculatedExpiration`, where there is one. -/
def expirationDivisor (times : SubscriptionTimes) (expires : Option Int32) : Option Int :=
  let spreadFloor := times.minExpiration * 2
  match expires with
  | none => some (times.maxExpiration - times.defaultExpiration)
  | some expires =>
    let expiration := expires.toInt
    if times.maxExpiration ≤ expiration then
      if spreadFloor < times.maxExpiration then some (times.maxExpiration - spreadFloor)
      else some (times.maxExpiration - times.minExpiration)
    else if spreadFloor < expiration then some (expiration - spreadFloor)
    else if times.minExpiration < expiration then some (expiration - times.minExpiration)
    else none

/-- **The granted time.**  It is computed without a division by zero; and where the subscription
is accepted it is zero, one, or within the limits, and not longer than what was asked for. -/
structure GrantsTime (mgr : SipSubscriptionMgr) (m : SubscribeRequest) : Prop where
  computed : expirationDivisor mgr.times m.expires ≠ some 0
  allowed : ∀ getKeys rand toTag now granted,
    (mgr.updateDialogInfo getKeys m rand toTag now).1.response = .accepted granted →
      granted = 0 ∨ granted = 1 ∨
        mgr.times.minExpiration ≤ granted ∧ granted ≤ mgr.times.maxExpiration
  asked : ∀ getKeys rand toTag now granted,
    (mgr.updateDialogInfo getKeys m rand toTag now).1.response = .accepted granted →
      ∀ expires ∈ m.expires, granted ≤ expires.toInt

/-- A range that is not empty: without an Expires field the maximum is not the default time, and
with one that reaches the maximum it is not the minimum. -/
structure HasRange (times : SubscriptionTimes) (expires : Option Int32) : Prop where
  unasked : expires = none → times.defaultExpiration ≠ times.maxExpiration
  asked : ∀ e ∈ expires, times.maxExpiration ≤ e.toInt → times.minExpiration ≠ times.maxExpiration

/-! ## The drawn time -/

theorem spread_mem {lo hi : Int} (hlt : lo < hi) (rand : Nat) :
    lo ≤ spread rand lo hi ∧ spread rand lo hi < hi := by
  have hnonneg := Int.emod_nonneg (rand : Int) (show hi - lo ≠ 0 by omega)
  have hsmall := Int.emod_lt_of_pos (rand : Int) (show 0 < hi - lo by omega)
  rw [spread]
  omega

/-- The divisor is not zero exactly when there is a range to spread over. -/
theorem expirationDivisor_ne_iff (times : SubscriptionTimes) (expires : Option Int32) :
    expirationDivisor times expires ≠ some 0 ↔ HasRange times expires := by
  have hordered := times.ordered
  have hlimited := times.limited
  cases expires with
  | none =>
    have hdivisor : expirationDivisor times none =
        some (times.maxExpiration - times.defaultExpiration) := rfl
    rw [hdivisor, Ne, Option.some_inj]
    constructor
    · intro hne
      exact ⟨fun _ => by omega, fun e he => absurd he (by simp)⟩
    · intro hrange
      have := hrange.unasked rfl
      omega
  | some e =>
    have hasked : HasRange times (some e) ↔
        (times.maxExpiration ≤ e.toInt → times.minExpiration ≠ times.maxExpiration) := by
      constructor
      · intro hrange
        exact hrange.asked e rfl
      · intro h
        refine ⟨fun hnone => absurd hnone (Option.some_ne_none e), fun e' he' => ?_⟩
        rw [← Option.some_inj.mp he']
        exact h
    rw [hasked, expirationDivisor]
    split_ifs
    · rw [Ne, Option.some_inj]
      omega
    · rw [Ne, Option.some_inj]
      omega
    · rw [Ne, Option.some_inj]
      omega
    · rw [Ne, Option.some_inj]
      omega
    · exact ⟨fun _ hle => by omega, fun _ => (Option.some_ne_none 0).symm⟩

/-- The time granted is within the limit and within what was asked for. -/
theorem calculatedExpiration_le {times : SubscriptionTimes} {expires : Option Int32}
    (hrange : HasRange times expires) (rand : Nat) :
    calculatedExpiration times expires rand ≤ times.maxExpiration ∧
      ∀ e ∈ expires, calculatedExpiration times expires rand ≤ e.toInt := by
  have hordered := times.ordered
  have hlimited := times.limited
  cases expires with
  | none =>
    have hne := hrange.unasked rfl
    have hspread := spread_mem (show times.defaultExpiration < times.maxExpiration by omega) rand
    exact ⟨hspread.2.le, fun e he => absurd he (by simp)⟩
  | some e =>
    have hne := hrange.asked e rfl
    have hle : calculatedExpiration times (some e) rand ≤ times.maxExpiration ∧
        calculatedExpiration times (some e) rand ≤ e.toInt := by
      rw [calculatedExpiration]
      split_ifs with hmax hfloor hfloor' hmin
      · have hspread := spread_mem hfloor rand
        omega
      · have hspread := spread_mem (show times.minExpiration < times.maxExpiration by
          have := hne hmax
          omega) rand
        omega
      · have hspread := spread_mem hfloor' rand
        omega
      · have hspread := spread_mem hmin rand
        omega
      · omega
    refine ⟨hle.1, fun e' he' => ?_⟩
    rw [← Option.some_inj.mp he']
    exact hle.2

/-! ## The answer -/

theorem eq_of_accepted {getKeys : SubscribeRequest → Text × Text × Text} {mgr : SipSubscriptionMgr}
    {m : SubscribeRequest} {rand : Nat} {toTag : Text} {now : UInt64} {granted : Int}
    (h : (mgr.updateDialogInfo getKeys m rand toTag now).1.response = .accepted granted) :
    granted = calculatedExpiration mgr.times m.expires rand ∧ opens mgr.times granted = true := by
  rw [updateDialogInfo] at h
  simp only at h
  split at h
  · split at h
    · next hopens =>
        have hgranted := SubscribeResponse.accepted.inj h
        exact ⟨hgranted.symm, hgranted ▸ hopens⟩
    · cases h
  split at h
  · next hrenews =>
      split at h
      · have hgranted := SubscribeResponse.accepted.inj h
        refine ⟨hgranted.symm, ?_⟩
        rw [renews, hgranted] at hrenews
        rw [opens, hrenews, Bool.true_or]
      · cases h
  · cases h

theorem grantsTime_of_hasRange {mgr : SipSubscriptionMgr} {m : SubscribeRequest}
    (hrange : HasRange mgr.times m.expires) : GrantsTime mgr m := by
  constructor
  · exact (expirationDivisor_ne_iff _ _).mpr hrange
  · intro getKeys rand toTag now granted h
    obtain ⟨hgranted, hopens⟩ := eq_of_accepted h
    have hle := (calculatedExpiration_le hrange rand).1
    rw [opens, Bool.or_eq_true, Bool.or_eq_true, decide_eq_true_iff, beq_iff_eq, beq_iff_eq]
      at hopens
    omega
  · intro getKeys rand toTag now granted h
    rw [(eq_of_accepted h).1]
    exact (calculatedExpiration_le hrange rand).2

/-- **Which requests are granted a time**, under times that the setter has accepted: those whose
range is not empty. -/
theorem grantsTime_iff {start mgr : SipSubscriptionMgr}
    {minExpiration defaultExpiration maxExpiration : Int}
    (hset : start.setSubscriptionTimes minExpiration defaultExpiration maxExpiration = (true, mgr))
    (m : SubscribeRequest) :
    GrantsTime mgr m ↔
      (m.expires = none → defaultExpiration ≠ maxExpiration) ∧
        ∀ e ∈ m.expires, maxExpiration ≤ e.toInt → minExpiration ≠ maxExpiration := by
  have htimes : mgr.times.minExpiration = minExpiration ∧
      mgr.times.defaultExpiration = defaultExpiration ∧
      mgr.times.maxExpiration = maxExpiration := by
    rw [setSubscriptionTimes] at hset
    split at hset
    · split at hset
      · rw [← (Prod.mk.inj hset).2]
        exact ⟨rfl, rfl, rfl⟩
      · exact absurd (Prod.mk.inj hset).1 (by decide)
    · exact absurd (Prod.mk.inj hset).1 (by decide)
  rw [← htimes.1, ← htimes.2.1, ← htimes.2.2]
  constructor
  · intro hgrants
    have hrange := (expirationDivisor_ne_iff _ _).mp hgrants.computed
    exact ⟨hrange.unasked, hrange.asked⟩
  · rintro ⟨hunasked, hasked⟩
    exact grantsTime_of_hasRange ⟨hunasked, hasked⟩

/-- A subscription to the dialog events of a phone. -/
def subscribeFor (expires : Option Int32) : SubscribeRequest where
  requestUri := text "sip:202@example.com"
  callId := text "1"
  fromField := text "<sip:201@example.com>;tag=a"
  toField := text "<sip:202@example.com>"
  cSeq := 1
  expires := expires

theorem grantsTime_hour :
    GrantsTime (setSubscriptionTimes {} 60 600 3600).2 (subscribeFor (some 7200)) :=
  (@grantsTime_iff {} (setSubscriptionTimes {} 60 600 3600).2 60 600 3600 rfl
    (subscribeFor (some 7200))).mpr
    ⟨fun hnone => absurd hnone (Option.some_ne_none _), fun _ _ _ => by decide⟩

/-- The setter accepts a default that is the maximum, and then a request without an Expires field
divides by zero. -/
theorem not_grantsTime_default_max :
    (setSubscriptionTimes {} 60 3600 3600).1 = true ∧
      expirationDivisor (setSubscriptionTimes {} 60 3600 3600).2.times none = some 0 ∧
      ¬ GrantsTime (setSubscriptionTimes {} 60 3600 3600).2 (subscribeFor none) :=
  ⟨rfl, rfl, fun hgrants => hgrants.computed rfl⟩

end SipXRouter.SipSubscriptionMgr
