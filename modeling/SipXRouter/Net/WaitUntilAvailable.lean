import Mathlib.Data.List.Nodup
import SipXRouter.Run

/-!
# Waiting for a transaction

A thread that finds a transaction tree busy puts an event into the waiting list of the
tree and waits for it.  Whoever releases the tree signals the first event of the list.
Both sides signal the event once, and the one that finds it signaled already frees it.

## Design notes

The steps are the parts of `waitUntilAvailable` and `markAvailable` between which other
threads can run.  `OsEvent::signal` takes no lock: its test of `mIsSignaled`, the
assignment and the release of the semaphore are steps of their own.  A release of the tree
runs under the mutex of the list, while the thread that waits signals its event without
it.  An event is known by a number that is used once.
-/

namespace SipXRouter

open List

namespace WaitUntilAvailable

/-! ## Events -/

/-- What the thread that has made an event has learned from its waits. -/
inductive Waiter where
  /-- It waits, after so many waits that timed out. -/
  | waiting (waitTime : Nat)
  /-- The last wait has returned `OS_SUCCESS`. -/
  | woken
  /-- The last wait has timed out, so that the thread will not take the transaction. -/
  | timedOut
deriving DecidableEq

def Waiter.isWaiting : Waiter → Bool
  | waiting _ => true
  | _ => false

/-- The two sides that signal an event. -/
inductive Side where
  | waiter
  | releaser
deriving DecidableEq

/-- The other of the two parties. -/
def Side.other : Side → Side
  | waiter => releaser
  | releaser => waiter

/-- How far one side has come in its call of `signal`. -/
inductive Progress where
  | idle
  /-- It has found `mIsSignaled` unset. -/
  | tested
  /-- It has set `mIsSignaled`, and has not released the semaphore yet. -/
  | assigned
  /-- The call is over, and the event deleted if it was signaled before. -/
  | done
deriving DecidableEq

/-- The side is in the middle of its call. -/
def Progress.isUnderWay (p : Progress) : Bool := p = tested || p = assigned

/-- An event, with the thread that waits for it, what both sides do, and how often it was
deleted. -/
structure OsEvent where
  isSignaled : Bool := false
  /-- Whether the semaphore can be acquired. -/
  signalSem : Bool := false
  waiter : Waiter := .waiting 0
  progress : Side → Progress := fun _ => .idle
  freed : Nat := 0

/-- `if (mIsSignaled) return OS_ALREADY_SIGNALED`, whereupon either side deletes the event. -/
def OsEvent.test (side : Side) (e : OsEvent) : OsEvent :=
  if e.isSignaled then
    { e with progress := Function.update e.progress side .done, freed := e.freed + 1 }
  else
    { e with progress := Function.update e.progress side .tested }

/-- `mIsSignaled = TRUE` -/
def OsEvent.assign (side : Side) (e : OsEvent) : OsEvent :=
  { e with isSignaled := true, progress := Function.update e.progress side .assigned }

/-- `mSignalSem.release()` -/
def OsEvent.release (side : Side) (e : OsEvent) : OsEvent :=
  { e with signalSem := true, progress := Function.update e.progress side .done }

/-- The second of two waits that time out is the last one. -/
def OsEvent.waitTimedOut (e : OsEvent) : OsEvent :=
  match e.waiter with
  | .waiting waitTime =>
    { e with waiter := if waitTime + 1 < 2 then .waiting (waitTime + 1) else .timedOut }
  | _ => e

def OsEvent.waitSucceeded (e : OsEvent) : OsEvent := { e with signalSem := false, waiter := .woken }

/-! ## The waiting list -/

/-- The waiting list of a transaction tree; `events` holds the events made so far. -/
structure State where
  isBusy : Bool := false
  waitingList : List Nat := []
  /-- The event that the thread with the mutex of the list is about to signal. -/
  signaling : Option Nat := none
  /-- Whether that thread empties the list, before the transaction is deleted. -/
  isClearing : Bool := false
  numEvents : Nat := 0
  events : Nat → OsEvent := fun _ => {}

/-- No thread has the mutex of the list. -/
def State.isUnlocked (s : State) : Bool := s.signaling.isNone && !s.isClearing

theorem State.signaling_eq_none (s : State) (h : s.isUnlocked = true) : s.signaling = none := by
  rw [State.isUnlocked, Bool.and_eq_true] at h
  exact Option.isNone_iff_eq_none.mp h.1

/-- Change one event. -/
def State.modify (s : State) (n : Nat) (f : OsEvent → OsEvent) : State :=
  { s with events := Function.update s.events n (f (s.events n)) }

/-- `notifyWhenAvailable`, for a new event. -/
def notifyWhenAvailable (s : State) : State :=
  { s with
    waitingList := s.waitingList ++ [s.numEvents]
    numEvents := s.numEvents + 1
    events := Function.update s.events s.numEvents {} }

/-- `signalNextAvailable`, up to the test in `signal`. -/
def signalNextAvailable (s : State) : State :=
  match s.waitingList with
  | [] => s
  | n :: rest =>
    { s.modify n (OsEvent.test .releaser) with
      waitingList := rest
      signaling := if (s.events n).isSignaled then none else some n }

/-- `markAvailable`, for a tree that is busy. -/
def markAvailable (s : State) : State := signalNextAvailable { s with isBusy := false }

/-- The loop of `signalAllAvailable`, up to the next test. -/
def clearNext (s : State) : State :=
  match s.waitingList with
  | [] => { s with isClearing := false }
  | _ :: _ => signalNextAvailable s

/-- The steps of the threads. -/
inductive Event where
  | markBusy
  | notifyWhenAvailable
  | waitTimedOut (n : Nat)
  | waitSucceeded (n : Nat)
  /-- The thread that has waited calls `signal(-1)`. -/
  | leave (n : Nat)
  | assign (side : Side) (n : Nat)
  | release (side : Side) (n : Nat)
  | markAvailable
  /-- Garbage collection, before it deletes the transaction. -/
  | signalAllAvailable
  | clearNext
deriving DecidableEq

/-- What an event does to the transaction and the events of its waiters. -/
def step (s : State) : Event → State
  | .markBusy => { s with isBusy := true }
  | .notifyWhenAvailable => notifyWhenAvailable s
  | .waitTimedOut n => s.modify n OsEvent.waitTimedOut
  | .waitSucceeded n => s.modify n OsEvent.waitSucceeded
  | .leave n => s.modify n (OsEvent.test .waiter)
  | .assign side n => s.modify n (OsEvent.assign side)
  | .release .waiter n => s.modify n (OsEvent.release .waiter)
  | .release .releaser n => { s.modify n (OsEvent.release .releaser) with signaling := none }
  | .markAvailable => markAvailable s
  | .signalAllAvailable => { s with isClearing := true }
  | .clearNext => clearNext s

/-- When a thread can take the step. -/
def Allowed (s : State) : Event → Prop
  | .markBusy => s.isUnlocked = true ∧ s.isBusy = false
  | .notifyWhenAvailable => s.isUnlocked = true ∧ s.isBusy = true
  | .waitTimedOut n =>
    n < s.numEvents ∧ (s.events n).waiter.isWaiting = true ∧ (s.events n).signalSem = false
  | .waitSucceeded n =>
    n < s.numEvents ∧ (s.events n).waiter.isWaiting = true ∧ (s.events n).signalSem = true
  | .leave n => n < s.numEvents ∧ (s.events n).waiter.isWaiting = false ∧
      (s.events n).progress .waiter = .idle
  | .assign side n => n < s.numEvents ∧ (s.events n).progress side = .tested
  | .release side n => n < s.numEvents ∧ (s.events n).progress side = .assigned
  | .markAvailable => s.isUnlocked = true ∧ s.isBusy = true
  | .signalAllAvailable => s.isUnlocked = true ∧ s.isBusy = false
  | .clearNext => s.signaling = none ∧ s.isClearing = true

instance (s : State) (e : Event) : Decidable (Allowed s e) := by
  cases e <;> unfold Allowed <;> infer_instance

/-- The thread has not given up. -/
def State.IsLive (s : State) (n : Nat) : Prop := (s.events n).waiter.isWaiting = true

instance (s : State) (n : Nat) : Decidable (s.IsLive n) :=
  inferInstanceAs (Decidable (_ = true))

/-- A thread that has not given up is in the list, or its event was just taken out of it. -/
def State.Awaits (s : State) (n : Nat) : Prop :=
  (s.signaling = some n ∨ n ∈ s.waitingList) ∧ s.IsLive n

/-- The step is the last one of a release of the tree on the waiting list. -/
def EndsRelease (s : State) : Event → Prop
  | .markAvailable => ∀ n ∈ s.waitingList.head?, (s.events n).isSignaled = true
  | .release .releaser _ => s.isClearing = false
  | _ => False

/-- What has to hold of a step. -/
structure NoLostWakeUp (s : State) (e : Event) : Prop where
  /-- An event is freed once, when both sides are done with it. -/
  freedOnce : ∀ n < (step s e).numEvents, ((step s e).events n).freed =
    if ((step s e).events n).progress .waiter = .done ∧
      ((step s e).events n).progress .releaser = .done then 1 else 0
  /-- A release wakes a thread that still waits, if there is one. -/
  wakesLive : EndsRelease s e → (∃ n, s.Awaits n) →
    ∃ n, s.Awaits n ∧ (s.events n).signalSem = false ∧ ((step s e).events n).signalSem = true

/-- Neither side tests an event while the other one is in the middle of its call, and where
a release ends with the event of a thread that has given up, no thread waits behind it. -/
def Orderly (s : State) : Event → Prop
  | .leave n => ((s.events n).progress .releaser).isUnderWay = false
  | .markAvailable => ∀ n ∈ s.waitingList.head?,
      ((s.events n).progress .waiter).isUnderWay = false ∧
      ((s.events n).isSignaled = true → ∀ m ∈ s.waitingList, ¬ s.IsLive m)
  | .clearNext => ∀ n ∈ s.waitingList.head?,
      ((s.events n).progress .waiter).isUnderWay = false
  | .release .releaser n => s.isClearing = false → ¬ s.IsLive n →
      ∀ m ∈ s.waitingList, ¬ s.IsLive m
  | _ => True

instance (s : State) (e : Event) : Decidable (Orderly s e) := by
  unfold Orderly
  split <;> infer_instance

/-! ## The handshake -/

/-- What both sides do to an event, as one of them sees it.  Their calls do not overlap:
the first one that is done has signaled the event, and the second one has freed it. -/
structure Handshake (e : OsEvent) (side : Side) : Prop where
  apart : (e.progress side).isUnderWay = true → e.progress side.other = .idle
  apart_other : (e.progress side.other).isUnderWay = true → e.progress side = .idle
  isSignaled : e.isSignaled = true ↔ (e.progress side = .assigned ∨ e.progress side = .done) ∨
    e.progress side.other = .assigned ∨ e.progress side.other = .done
  signalSem : e.signalSem = true → e.progress side = .done ∨ e.progress side.other = .done
  freed : e.freed = if e.progress side = .done ∧ e.progress side.other = .done then 1 else 0

namespace Handshake

variable {e : OsEvent} {side : Side}

theorem symm (h : Handshake e side) : Handshake e side.other := by
  have hother : side.other.other = side := by cases side <;> rfl
  obtain ⟨hapart, hapart_other, hsignaled, hsem, hfreed⟩ := h
  refine ⟨?_, ?_, ?_, ?_, ?_⟩
  · rwa [hother]
  · rwa [hother]
  · rwa [hother, or_comm]
  · rwa [hother, or_comm]
  · simpa only [hother, and_comm] using hfreed

theorem test (h : Handshake e side) (hidle : e.progress side = .idle)
    (hother : (e.progress side.other).isUnderWay = false) : Handshake (e.test side) side := by
  obtain ⟨-, -, hsignaled, hsem, hfreed⟩ := h
  have hne : side.other ≠ side := by cases side <;> exact Side.noConfusion
  have hcases : e.progress side.other = .idle ∨ e.progress side.other = .done := by
    cases hp : e.progress side.other <;> simp_all [Progress.isUnderWay]
  unfold OsEvent.test
  rcases hcases with hother | hother
  · have hset : e.isSignaled = false := by simpa [hidle, hother] using hsignaled
    have hsem : e.signalSem = false := by simpa [hidle, hother] using hsem
    rw [if_neg (by simp [hset])]
    constructor <;> simp [hother, hset, hsem, hne, hfreed, Progress.isUnderWay]
  · have hset : e.isSignaled = true := by simpa [hidle, hother] using hsignaled
    rw [if_pos hset]
    constructor <;> simp [hidle, hother, hset, hne, hfreed, Progress.isUnderWay]

theorem assign (h : Handshake e side) (htested : e.progress side = .tested) :
    Handshake (e.assign side) side := by
  obtain ⟨hapart, -, -, hsem, hfreed⟩ := h
  have hne : side.other ≠ side := by cases side <;> exact Side.noConfusion
  have hother : e.progress side.other = .idle := hapart (by simp [htested, Progress.isUnderWay])
  have hsem : e.signalSem = false := by simpa [htested, hother] using hsem
  constructor <;>
    simp [OsEvent.assign, htested, hother, hsem, hne, hfreed, Progress.isUnderWay]

theorem release (h : Handshake e side) (hassigned : e.progress side = .assigned) :
    Handshake (e.release side) side := by
  obtain ⟨hapart, -, hsignaled, -, hfreed⟩ := h
  have hne : side.other ≠ side := by cases side <;> exact Side.noConfusion
  have hother : e.progress side.other = .idle :=
    hapart (by simp [hassigned, Progress.isUnderWay])
  have hset : e.isSignaled = true := by simpa [hassigned] using hsignaled
  constructor <;>
    simp [OsEvent.release, hassigned, hother, hset, hne, hfreed, Progress.isUnderWay]

/-- A wait that has ended leaves the two calls alone. -/
theorem of_eq {e' : OsEvent} (h : Handshake e side) (hsignaled : e'.isSignaled = e.isSignaled)
    (hsem : e'.signalSem = true → e.signalSem = true) (hprogress : e'.progress = e.progress)
    (hfreed : e'.freed = e.freed) : Handshake e' side := by
  obtain ⟨hapart, hapart_other, hset, hpost, hfree⟩ := h
  rw [← hprogress] at hapart hapart_other hset hpost hfree
  rw [← hsignaled] at hset
  rw [← hfreed] at hfree
  exact ⟨hapart, hapart_other, hset, fun hnew => hpost (hsem hnew), hfree⟩

end Handshake

/-- The state of an event, by whether it is in the waiting list and whether the thread with
the mutex is signaling it. -/
structure EventInv (listed signaling : Prop) (e : OsEvent) : Prop where
  listed : listed ↔ e.progress .releaser = .idle
  signaling : (e.progress .releaser).isUnderWay = true → signaling
  waiting : e.waiter.isWaiting = true → e.progress .waiter = .idle
  handshake : Handshake e .waiter

/-- Each event on the list is one that was made, and every event is as its two parties have left it.
-/
structure Inv (s : State) : Prop where
  nodup : s.waitingList.Nodup
  made : ∀ n ∈ s.waitingList, n < s.numEvents
  event : ∀ n < s.numEvents,
    EventInv (n ∈ s.waitingList) (s.signaling = some n) (s.events n)

section Steps

variable {s : State} {listed signaling : Prop} {e : OsEvent}

namespace EventInv

/-- The side of the releaser, as it takes the event out of the list. -/
theorem take (h : EventInv listed signaling e) (hlisted : listed)
    (hapart : (e.progress .waiter).isUnderWay = false) :
    EventInv False (e.isSignaled = false) (e.test .releaser) := by
  obtain ⟨hidle, -, hwaiting, hhandshake⟩ := h
  have htest := (hhandshake.symm.test (hidle.mp hlisted) hapart).symm
  have hprogress : (e.test .releaser).progress =
      Function.update e.progress .releaser (if e.isSignaled then .done else .tested) := by
    unfold OsEvent.test
    split <;> rfl
  have hwaiter : (e.test .releaser).waiter = e.waiter := by
    unfold OsEvent.test
    split <;> rfl
  refine ⟨?_, ?_, ?_, htest⟩
  · rw [hprogress, Function.update_self, false_iff]
    split <;> exact Progress.noConfusion
  · rw [hprogress, Function.update_self]
    split
    next => exact fun hunderWay => absurd hunderWay (by decide)
    next hset => exact fun _ => by simpa using hset
  · rw [hprogress, hwaiter]
    exact hwaiting

theorem leave (h : EventInv listed signaling e) (hgone : e.waiter.isWaiting = false)
    (hidle : e.progress .waiter = .idle) (hapart : (e.progress .releaser).isUnderWay = false) :
    EventInv listed signaling (e.test .waiter) := by
  have htest := h.handshake.test hidle hapart
  have hprogress : (e.test .waiter).progress .releaser = e.progress .releaser := by
    unfold OsEvent.test
    split <;> rfl
  have hwaiter : (e.test .waiter).waiter = e.waiter := by
    unfold OsEvent.test
    split <;> rfl
  refine ⟨?_, ?_, ?_, htest⟩
  · rw [hprogress]
    exact h.listed
  · rw [hprogress]
    exact h.signaling
  · simp [hwaiter, hgone]

theorem assign {side : Side} (h : EventInv listed signaling e)
    (htested : e.progress side = .tested) : EventInv listed signaling (e.assign side) := by
  obtain ⟨hlisted, hsignaling, hwaiting, hhandshake⟩ := h
  cases side with
  | waiter =>
    refine ⟨hlisted, hsignaling, fun hwait => ?_, hhandshake.assign htested⟩
    rw [hwaiting hwait] at htested
    cases htested
  | releaser =>
    refine ⟨?_, fun _ => hsignaling (by rw [htested]; rfl), hwaiting,
      (hhandshake.symm.assign htested).symm⟩
    simpa [OsEvent.assign, htested] using hlisted

theorem release_waiter (h : EventInv listed signaling e)
    (hassigned : e.progress .waiter = .assigned) :
    EventInv listed signaling (e.release .waiter) := by
  refine ⟨h.listed, h.signaling, fun hwait => ?_, h.handshake.release hassigned⟩
  rw [h.waiting hwait] at hassigned
  cases hassigned

theorem release_releaser (h : EventInv listed signaling e)
    (hassigned : e.progress .releaser = .assigned) :
    EventInv listed False (e.release .releaser) := by
  refine ⟨?_, fun hunderWay => ?_, h.waiting, (h.handshake.symm.release hassigned).symm⟩
  · simpa [OsEvent.release, hassigned] using h.listed
  · simp [OsEvent.release, Progress.isUnderWay] at hunderWay

theorem waitTimedOut (h : EventInv listed signaling e) (hwaiting : e.waiter.isWaiting = true) :
    EventInv listed signaling e.waitTimedOut := by
  have hidle := h.waiting hwaiting
  unfold OsEvent.waitTimedOut
  split
  · exact ⟨h.listed, h.signaling, fun _ => hidle, h.handshake.of_eq rfl id rfl rfl⟩
  · exact h

theorem waitSucceeded (h : EventInv listed signaling e) :
    EventInv listed signaling e.waitSucceeded :=
  ⟨h.listed, h.signaling, fun hwait => by simp [OsEvent.waitSucceeded, Waiter.isWaiting] at hwait,
    h.handshake.of_eq rfl (fun hsem => by simp [OsEvent.waitSucceeded] at hsem) rfl rfl⟩

theorem imp {listed' signaling' : Prop} (h : EventInv listed signaling e)
    (hlisted : listed' ↔ listed) (hsignaling : signaling → signaling') :
    EventInv listed' signaling' e :=
  ⟨hlisted.trans h.listed, fun hunderWay => hsignaling (h.signaling hunderWay), h.waiting,
    h.handshake⟩

end EventInv

namespace Inv

theorem modify (h : Inv s) {n : Nat} {f : OsEvent → OsEvent}
    (hf : EventInv (n ∈ s.waitingList) (s.signaling = some n) (f (s.events n))) :
    Inv (s.modify n f) := by
  refine ⟨h.nodup, h.made, fun m hm => ?_⟩
  show EventInv _ _ (Function.update s.events n (f (s.events n)) m)
  by_cases hmn : m = n
  · subst hmn
    rw [Function.update_self]
    exact hf
  · rw [Function.update_of_ne hmn]
    exact h.event m hm

theorem release_releaser (h : Inv s) {n : Nat} (hn : n < s.numEvents)
    (hassigned : (s.events n).progress .releaser = .assigned) :
    Inv (step s (.release .releaser n)) := by
  have hsignaling : s.signaling = some n := (h.event n hn).signaling (by rw [hassigned]; rfl)
  refine ⟨h.nodup, h.made, fun m hm => ?_⟩
  show EventInv (m ∈ s.waitingList) (none = some m)
    (Function.update s.events n ((s.events n).release .releaser) m)
  by_cases hmn : m = n
  · subst hmn
    rw [Function.update_self]
    exact ((h.event m hm).release_releaser hassigned).imp Iff.rfl False.elim
  · rw [Function.update_of_ne hmn]
    refine (h.event m hm).imp Iff.rfl fun hm => absurd ?_ hmn
    exact Option.some_inj.mp (hm.symm.trans hsignaling)

theorem notifyWhenAvailable (h : Inv s) : Inv (notifyWhenAvailable s) := by
  have hfresh : s.numEvents ∉ s.waitingList := fun hmem => Nat.lt_irrefl _ (h.made _ hmem)
  refine ⟨?_, ?_, ?_⟩
  · show (s.waitingList ++ [s.numEvents]).Nodup
    rw [← concat_eq_append]
    exact h.nodup.concat hfresh
  · intro m hm
    rcases mem_append.mp hm with hm | hm
    · exact Nat.lt_succ_of_lt (h.made m hm)
    · exact Nat.lt_succ_of_le (Nat.le_of_eq (mem_singleton.mp hm))
  · intro m hm
    show EventInv (m ∈ s.waitingList ++ [s.numEvents]) (s.signaling = some m)
      (Function.update s.events s.numEvents {} m)
    by_cases hmn : m = s.numEvents
    · subst hmn
      rw [Function.update_self]
      refine ⟨by simp, by simp [Progress.isUnderWay], fun _ => rfl, ?_⟩
      constructor <;> simp [Progress.isUnderWay]
    · rw [Function.update_of_ne hmn]
      refine (h.event m (Nat.lt_of_le_of_ne (Nat.le_of_lt_succ hm) hmn)).imp ?_ id
      simp [hmn]

theorem signalNextAvailable (h : Inv s) (hnone : s.signaling = none)
    (hapart : ∀ n ∈ s.waitingList.head?, ((s.events n).progress .waiter).isUnderWay = false) :
    Inv (signalNextAvailable s) := by
  unfold WaitUntilAvailable.signalNextAvailable
  split
  next => exact h
  next n rest hlist =>
    have hnodup : (n :: rest).Nodup := hlist ▸ h.nodup
    have hn : n ∈ s.waitingList := by simp [hlist]
    refine ⟨hnodup.of_cons, fun m hm => h.made m (by simp [hlist, hm]), fun m hm => ?_⟩
    show EventInv (m ∈ rest) ((if (s.events n).isSignaled then none else some n) = some m)
      (Function.update s.events n ((s.events n).test .releaser) m)
    by_cases hmn : m = n
    · subst hmn
      rw [Function.update_self]
      refine ((h.event m (h.made m hn)).take hn (hapart m (by simp [hlist]))).imp ?_ ?_
      · simp [hnodup.notMem]
      · intro hset
        simp [hset]
    · rw [Function.update_of_ne hmn]
      refine (h.event m hm).imp ?_ fun hm => ?_
      · simp [hlist, hmn]
      · rw [hnone] at hm
        cases hm

/-- Every event that is orderly keeps the invariant. -/
theorem step (h : Inv s) (e : Event) (hallowed : Allowed s e) (horderly : Orderly s e) :
    Inv (step s e) := by
  cases e with
  | markBusy => exact ⟨h.nodup, h.made, h.event⟩
  | notifyWhenAvailable => exact h.notifyWhenAvailable
  | waitTimedOut n => exact h.modify ((h.event n hallowed.1).waitTimedOut hallowed.2.1)
  | waitSucceeded n => exact h.modify (h.event n hallowed.1).waitSucceeded
  | leave n =>
    obtain ⟨hn, hgone, hidle⟩ := hallowed
    exact h.modify ((h.event n hn).leave hgone hidle horderly)
  | assign side n => exact h.modify ((h.event n hallowed.1).assign hallowed.2)
  | release side n =>
    cases side with
    | waiter => exact h.modify ((h.event n hallowed.1).release_waiter hallowed.2)
    | releaser => exact h.release_releaser hallowed.1 hallowed.2
  | markAvailable =>
    have hnone := s.signaling_eq_none hallowed.1
    have hbusy : Inv { s with isBusy := false } := ⟨h.nodup, h.made, h.event⟩
    exact hbusy.signalNextAvailable hnone fun n hn => (horderly n hn).1
  | signalAllAvailable => exact ⟨h.nodup, h.made, h.event⟩
  | clearNext =>
    show Inv (clearNext s)
    unfold clearNext
    split
    next => exact ⟨h.nodup, h.made, h.event⟩
    next => exact h.signalNextAvailable hallowed.1 horderly

end Inv

end Steps

/-! ## Wake-ups -/

/-- A release that ends with an event that was signaled before has nobody to wake. -/
theorem not_awaits_of_endsRelease {s : State} (hnone : s.signaling = none)
    (horderly : Orderly s .markAvailable) (hends : EndsRelease s .markAvailable) :
    ¬ ∃ n, s.Awaits n := by
  rintro ⟨m, hlisted | hm, hlive⟩
  · rw [hnone] at hlisted
    cases hlisted
  · cases hlist : s.waitingList with
    | nil => simp [hlist] at hm
    | cons n rest =>
      have hhead : n ∈ s.waitingList.head? := by simp [hlist]
      exact (horderly n hhead).2 (hends n hhead) m hm hlive

/-- The event that is about to be signaled is that of a thread that waits, if one does. -/
theorem awaits_of_assigned {s : State} {n : Nat} (hinv : Inv s) (hn : n < s.numEvents)
    (hassigned : (s.events n).progress .releaser = .assigned)
    (horderly : s.IsLive n ∨ ∀ m ∈ s.waitingList, ¬ s.IsLive m) (hlive : ∃ m, s.Awaits m) :
    s.Awaits n ∧ (s.events n).signalSem = false := by
  have hevent := hinv.event n hn
  have hsignaling : s.signaling = some n := hevent.signaling (by rw [hassigned]; rfl)
  have hawaits : s.IsLive n := by
    obtain ⟨m, hsome | hm, hm'⟩ := hlive
    · obtain rfl : n = m := Option.some_inj.mp (hsignaling.symm.trans hsome)
      exact hm'
    · exact horderly.resolve_right fun hnone => hnone m hm hm'
  refine ⟨⟨Or.inl hsignaling, hawaits⟩, ?_⟩
  rw [Bool.eq_false_iff]
  intro hsem
  rcases hevent.handshake.signalSem hsem with hdone | hdone
  · rw [hevent.waiting hawaits] at hdone
    cases hdone
  · rw [show Side.waiter.other = .releaser from rfl, hassigned] at hdone
    cases hdone

/-- Two threads wait, and the tree is released while the second wait of the first one is
not over. -/
def twoWaiting : List Event :=
  [.markBusy, .notifyWhenAvailable, .notifyWhenAvailable, .waitTimedOut 0, .markAvailable,
    .assign .releaser 0]

/-- Two threads wait, and the first one has given up. -/
def firstGivesUp : List Event :=
  [.markBusy, .notifyWhenAvailable, .notifyWhenAvailable, .waitTimedOut 0, .waitTimedOut 0,
    .leave 0, .assign .waiter 0, .release .waiter 0]

/-- A thread that gives up and the one that releases the tree both find the event unset. -/
def bothTest : List Event :=
  [.markBusy, .notifyWhenAvailable, .waitTimedOut 0, .waitTimedOut 0, .leave 0,
    .markAvailable, .assign .waiter 0, .assign .releaser 0, .release .waiter 0]

end WaitUntilAvailable

end SipXRouter
