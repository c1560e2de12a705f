import SipXRouter.Run
import Mathlib.Data.List.Basic

/-!
# Timers

An `OsTimer` waits on a deadline; the completion of a wait, expired or aborted, is a message
that is handled some time later.  The handler knows its completions by nothing but the flag
`_isRunning`, and the flag `_periodic` decides whether it waits again.

## Design notes

* A start and a stop are taken in one step.  A handler goes through the phases between its
  locks: it takes the flag and notifies, asks for `_periodic`, sets a new deadline, and sets
  the flag again.
* An event routine that is committed may run after a stop; it counts where it is committed.
* A completion has the number of the start it belongs to, which the code cannot see.
-/

namespace SipXRouter

open List

namespace OsTimer

/-- The completion of a wait. -/
structure Completion where
  generation : Nat
  aborted : Bool
deriving DecidableEq

/-- What a handler does next: ask for `_periodic`, set a new deadline, or set the flag. -/
inductive Phase where
  | signalled
  | rearming
  | armed
deriving DecidableEq

/-- A handler at work. -/
structure Firing where
  generation : Nat
  phase : Phase
deriving DecidableEq

inductive Kind where
  | oneshot
  | periodic
deriving DecidableEq

end OsTimer

/-- A timer.  `generation` counts the starts that succeeded; `since` is the kind of the last
one, or `none` if a stop came after it, and `notified` counts the notifications since then. -/
structure OsTimer where
  isRunning : Bool
  periodic : Bool
  wait : Option Nat
  queue : List OsTimer.Completion
  firing : List OsTimer.Firing
  generation : Nat
  since : Option OsTimer.Kind
  notified : Nat
deriving DecidableEq

namespace OsTimer

/-- The constructor. -/
def new : OsTimer := ⟨false, false, none, [], [], 0, none, 0⟩

/-! ## Steps -/

/-- A pending wait is cancelled: its handler will be told. -/
def cancelWait (s : OsTimer) : OsTimer :=
  { s with wait := none, queue := s.queue ++ s.wait.toList.map fun g => ⟨g, true⟩ }

/-- `oneshotAt`, `oneshotAfter`; `past` says that the time is in the past. -/
def oneshot (kind : Kind) (past : Bool) (s : OsTimer) : OsTimer :=
  if s.isRunning || past then s
  else
    { s.cancelWait with
      isRunning := true
      wait := some (s.generation + 1)
      generation := s.generation + 1
      since := some kind
      notified := 0 }

/-- The start methods; the periodic ones set the flag first. -/
def start (s : OsTimer) (kind : Kind) (past : Bool) : OsTimer :=
  match kind with
  | .oneshot => s.oneshot .oneshot past
  | .periodic => { s with periodic := true }.oneshot .periodic past

/-- `stop`: a timer that does not run is left alone. -/
def stop (s : OsTimer) : OsTimer :=
  if s.isRunning then
    { s with isRunning := false, periodic := false, since := none, notified := 0 }.cancelWait
  else { s with since := none, notified := 0 }

/-- The deadline passes. -/
def expire (s : OsTimer) : OsTimer :=
  { s with wait := none, queue := s.queue ++ s.wait.toList.map fun g => ⟨g, false⟩ }

/-- The beginning of `onTimerFire`: the flag is taken.  A `Handler` is called with any code, a
notifier without one. -/
def fire (handler : Bool) (s : OsTimer) (c : Completion) : OsTimer :=
  if s.isRunning then
    { s with
      isRunning := false
      firing := s.firing ++ [⟨c.generation, .signalled⟩]
      notified := s.notified + if handler || !c.aborted then 1 else 0 }
  else s

/-- A completion is delivered. -/
def deliver (handler : Bool) (s : OsTimer) (i : Nat) : OsTimer :=
  match s.queue[i]? with
  | none => s
  | some c => { s with queue := s.queue.eraseIdx i }.fire handler c

/-- The rest of `onTimerFire`, phase by phase. -/
def advance (s : OsTimer) (i : Nat) : OsTimer :=
  match s.firing[i]? with
  | none => s
  | some ⟨_, .signalled⟩ =>
    if s.periodic then { s with firing := s.firing.modify i fun f => { f with phase := .rearming } }
    else { s with firing := s.firing.eraseIdx i }
  | some ⟨g, .rearming⟩ =>
    { s.cancelWait with
      wait := some g
      firing := s.firing.modify i fun f => { f with phase := .armed } }
  | some ⟨_, .armed⟩ => { s with isRunning := true, firing := s.firing.eraseIdx i }

/-- What may happen to a timer. -/
inductive Step where
  | start (kind : Kind) (past : Bool)
  | stop
  | expire
  | deliver (i : Nat)
  | advance (i : Nat)
deriving DecidableEq

def step (handler : Bool) (s : OsTimer) : Step → OsTimer
  | .start kind past => s.start kind past
  | .stop => s.stop
  | .expire => s.expire
  | .deliver i => s.deliver handler i
  | .advance i => s.advance i

/-! ## Exactness -/

/-- A one-shot start gives one notification, which has come when nothing is left on its way,
and a stop none. -/
def Exact (s : OsTimer) : Prop :=
  (s.since = none → s.notified = 0) ∧
    (s.since = some .oneshot →
      s.notified ≤ 1 ∧ (s.wait = none → s.queue = [] → s.firing = [] → s.notified = 1))

/-- The flags are taken for what they stand for: the handler takes the flag of its own start;
nothing is stopped or started while a periodic timer fires; and a periodic start sets no flag
for another one. -/
def Allowed (s : OsTimer) : Step → Prop
  | .start .oneshot _ => s.isRunning = false → s.periodic = false
  | .start .periodic past =>
    if s.isRunning then s.periodic = true else past = false ∧ s.firing = []
  | .stop => s.periodic = true → s.firing = []
  | .deliver i => ∀ c ∈ s.queue[i]?, s.isRunning = true → c.generation = s.generation
  | _ => True

instance decidableExact (s : OsTimer) : Decidable s.Exact :=
  inferInstanceAs (Decidable (_ ∧ _))

instance decidableAllowed (s : OsTimer) : ∀ e, Decidable (s.Allowed e)
  | .start .oneshot _ => inferInstanceAs (Decidable (s.isRunning = false → s.periodic = false))
  | .start .periodic past =>
    inferInstanceAs (Decidable (if s.isRunning then s.periodic = true
      else past = false ∧ s.firing = []))
  | .stop => inferInstanceAs (Decidable (s.periodic = true → s.firing = []))
  | .deliver i =>
    inferInstanceAs (Decidable (∀ c ∈ s.queue[i]?, s.isRunning = true →
      c.generation = s.generation))
  | .expire => isTrue trivial
  | .advance _ => isTrue trivial

/-- What the last start still has on its way. -/
def outstanding (s : OsTimer) : List Completion :=
  s.queue.filter (·.generation = s.generation) ++ s.wait.toList.map fun g => ⟨g, false⟩

/-- The invariant. -/
structure Sound (s : OsTimer) : Prop where
  wait_eq : ∀ g ∈ s.wait, g = s.generation
  queue_le : ∀ c ∈ s.queue, c.generation ≤ s.generation
  wait_of_idle : s.isRunning = false → s.periodic = false → s.wait = none
  busy : s.periodic = true → s.isRunning = true ∨ s.firing ≠ []
  phase : ∀ f ∈ s.firing, s.periodic = false → f.phase = .signalled
  alone : s.periodic = true → s.firing ≠ [] →
    s.isRunning = false ∧ ∃ phase, s.firing = [⟨s.generation, phase⟩]
  stopped : s.since = none → s.isRunning = false ∧ s.periodic = false ∧ s.notified = 0
  oneshot : s.since = some .oneshot → s.periodic = false ∧
    (s.isRunning = true ∧ s.notified = 0 ∧ s.outstanding = [⟨s.generation, false⟩] ∨
      s.isRunning = false ∧ s.notified = 1)
  periodic : s.since = some .periodic → s.periodic = true

variable {s : OsTimer} {handler : Bool}

theorem sound_new : Sound new := by
  constructor <;> simp [new]

theorem Sound.exact (h : Sound s) : s.Exact := by
  refine ⟨fun hsince => (h.stopped hsince).2.2, fun hsince => ?_⟩
  obtain ⟨-, ⟨-, hzero, hout⟩ | ⟨-, hone⟩⟩ := h.oneshot hsince
  · refine ⟨hzero ▸ Nat.zero_le 1, fun hwait hqueue _ => ?_⟩
    rw [outstanding, hwait, hqueue] at hout
    exact absurd hout (by simp)
  · exact ⟨Nat.le_of_eq hone, fun _ _ _ => hone⟩

/-! ### Starts and stops -/

theorem cancelWait_of_none (h : s.wait = none) : s.cancelWait = s := by
  obtain ⟨isRunning, periodic, wait, queue, firing, generation, since, notified⟩ := s
  obtain rfl : wait = none := h
  rw [cancelWait]
  simp

/-- Nothing that a timer has on its way is of its next start. -/
theorem Sound.filter_succ (h : Sound s) :
    s.queue.filter (·.generation = s.generation + 1) = [] := by
  refine filter_eq_nil_iff.mpr fun c hc => ?_
  have hle := h.queue_le c hc
  rw [decide_eq_true_iff]
  omega

theorem Sound.started (h : Sound s) (hperiodic : s.periodic = false) (kind : Kind)
    (hfiring : kind = .periodic → s.firing = []) :
    Sound { s with
      isRunning := true
      periodic := kind == .periodic
      wait := some (s.generation + 1)
      generation := s.generation + 1
      since := some kind
      notified := 0 } where
  wait_eq g hg := (Option.some_inj.mp hg).symm
  queue_le c hc := Nat.le_succ_of_le (h.queue_le c hc)
  wait_of_idle hfalse := absurd hfalse (by simp)
  busy _ := Or.inl rfl
  phase f hf _ := h.phase f hf hperiodic
  alone hkind hfalse := by
    cases kind with
    | oneshot => exact absurd hkind (by simp)
    | periodic => exact absurd (hfiring rfl) hfalse
  stopped hfalse := absurd hfalse (by simp)
  oneshot hsince := by
    obtain rfl := Option.some_inj.mp hsince
    refine ⟨rfl, Or.inl ⟨rfl, rfl, ?_⟩⟩
    show s.queue.filter _ ++ _ = _
    rw [h.filter_succ]
    rfl
  periodic hsince := by
    obtain rfl := Option.some_inj.mp hsince
    rfl

/-- Starting a timer keeps it sound. -/
theorem Sound.start (h : Sound s) {kind : Kind} {past : Bool} (hallowed : s.Allowed (.start kind past)) :
    Sound (s.start kind past) := by
  cases hrunning : s.isRunning with
  | true =>
    cases kind with
    | oneshot =>
      rw [OsTimer.start, OsTimer.oneshot, hrunning, Bool.true_or, if_pos rfl]
      exact h
    | periodic =>
      -- the flag that it sets is set already
      have hperiodic : s.periodic = true := by simpa [Allowed, hrunning] using hallowed
      have hsame : { s with periodic := true } = s := by
        rw [← hperiodic]
      rw [OsTimer.start, hsame, OsTimer.oneshot, hrunning, Bool.true_or, if_pos rfl]
      exact h
  | false =>
    cases kind with
    | oneshot =>
      have hperiodic : s.periodic = false := hallowed hrunning
      rw [OsTimer.start, OsTimer.oneshot, hrunning, Bool.false_or]
      cases past with
      | true => exact h
      | false =>
        rw [if_neg Bool.false_ne_true, cancelWait_of_none (h.wait_of_idle hrunning hperiodic)]
        have hstarted := h.started hperiodic .oneshot fun hkind => absurd hkind (by simp)
        rw [show (Kind.oneshot == Kind.periodic) = s.periodic from hperiodic.symm] at hstarted
        exact hstarted
    | periodic =>
      have hallowed' : past = false ∧ s.firing = [] := by simpa [Allowed, hrunning] using hallowed
      obtain ⟨rfl, hfiring⟩ := hallowed'
      have hperiodic : s.periodic = false := by
        rw [← Bool.not_eq_true]
        intro hperiodic
        rcases h.busy hperiodic with hbusy | hbusy
        · exact absurd hbusy (by simp [hrunning])
        · exact hbusy hfiring
      have hwait := h.wait_of_idle hrunning hperiodic
      have hcancel : { s with periodic := true }.cancelWait = { s with periodic := true } :=
        cancelWait_of_none hwait
      rw [OsTimer.start, OsTimer.oneshot, hcancel, hrunning, Bool.false_or,
        if_neg Bool.false_ne_true]
      exact h.started hperiodic .periodic fun _ => hfiring

theorem Sound.stop (h : Sound s) (hallowed : s.Allowed .stop) : Sound s.stop := by
  rw [OsTimer.stop]
  split
  · next hrunning =>
      refine Sound.mk (fun g hg => absurd hg (by simp [cancelWait])) (fun c hc => ?_)
        (fun _ _ => rfl) (fun hfalse => absurd hfalse (by simp [cancelWait])) (fun f hf _ => ?_)
        (fun hfalse => absurd hfalse (by simp [cancelWait])) (fun _ => ⟨rfl, rfl, rfl⟩)
        (fun hfalse => absurd hfalse (by simp [cancelWait]))
        (fun hfalse => absurd hfalse (by simp [cancelWait]))
      · rcases mem_append.mp hc with hc | hc
        · exact h.queue_le c hc
        · obtain ⟨g, hg, rfl⟩ := mem_map.mp hc
          exact Nat.le_of_eq (h.wait_eq g (Option.mem_toList.mp hg))
      · cases hperiodic : s.periodic with
        | false => exact h.phase f hf hperiodic
        | true =>
          have hnone : s.firing = [] := hallowed hperiodic
          rw [show s.firing = [] from hnone] at hf
          exact absurd hf not_mem_nil
  · next hrunning =>
      rw [Bool.not_eq_true] at hrunning
      have hperiodic : s.periodic = false := by
        rw [← Bool.not_eq_true]
        intro hperiodic
        rcases h.busy hperiodic with hbusy | hbusy
        · exact absurd hbusy (by simp [hrunning])
        · exact hbusy (hallowed hperiodic)
      exact ⟨h.wait_eq, h.queue_le, h.wait_of_idle, h.busy, h.phase, h.alone,
        fun _ => ⟨hrunning, hperiodic, rfl⟩, fun hfalse => absurd hfalse (by simp),
        fun hfalse => absurd hfalse (by simp)⟩

/-! ### Waits and their handlers -/

theorem outstanding_expire (h : Sound s) : s.expire.outstanding = s.outstanding := by
  obtain ⟨isRunning, periodic, wait, queue, firing, generation, since, notified⟩ := s
  cases wait with
  | none => simp [OsTimer.expire, outstanding]
  | some g =>
    obtain rfl := h.wait_eq g rfl
    simp [OsTimer.expire, outstanding, filter_append]

theorem Sound.expire (h : Sound s) : Sound s.expire where
  wait_eq g hg := absurd hg (by simp [OsTimer.expire])
  queue_le c hc := by
    rcases mem_append.mp hc with hc | hc
    · exact h.queue_le c hc
    · obtain ⟨g, hg, rfl⟩ := mem_map.mp hc
      exact Nat.le_of_eq (h.wait_eq g (Option.mem_toList.mp hg))
  wait_of_idle _ _ := rfl
  busy := h.busy
  phase := h.phase
  alone := h.alone
  stopped := h.stopped
  oneshot hsince := by
    rw [outstanding_expire h]
    exact h.oneshot hsince
  periodic := h.periodic

theorem aborted_of_outstanding (hout : s.outstanding = [⟨s.generation, false⟩]) {c : Completion}
    (hc : c ∈ s.queue) (hgeneration : c.generation = s.generation) : c.aborted = false := by
  have hmem : c ∈ s.outstanding :=
    mem_append_left _ (mem_filter.mpr ⟨hc, decide_eq_true hgeneration⟩)
  rw [hout] at hmem
  rw [mem_singleton.mp hmem]

theorem wait_of_outstanding (hout : s.outstanding = [⟨s.generation, false⟩]) {c : Completion}
    (hc : c ∈ s.queue) (hgeneration : c.generation = s.generation) : s.wait = none := by
  have hmem : c ∈ s.queue.filter (·.generation = s.generation) :=
    mem_filter.mpr ⟨hc, decide_eq_true hgeneration⟩
  have hlength := congrArg length hout
  rw [outstanding, length_append, length_map] at hlength
  have hpos := length_pos_of_mem hmem
  cases hwait : s.wait with
  | none => rfl
  | some g =>
    rw [hwait] at hlength
    simp only [Option.toList_some, length_singleton] at hlength
    omega

theorem Sound.dropped (h : Sound s) (hrunning : s.isRunning = false) (i : Nat) :
    Sound { s with queue := s.queue.eraseIdx i } where
  wait_eq := h.wait_eq
  queue_le c hc := h.queue_le c (mem_of_mem_eraseIdx hc)
  wait_of_idle := h.wait_of_idle
  busy := h.busy
  phase := h.phase
  alone := h.alone
  stopped := h.stopped
  oneshot hsince := by
    obtain ⟨hperiodic, ⟨hfalse, -⟩ | hdone⟩ := h.oneshot hsince
    · exact absurd hfalse (by simp [hrunning])
    · exact ⟨hperiodic, Or.inr hdone⟩
  periodic := h.periodic

theorem Sound.fired (h : Sound s) (hrunning : s.isRunning = true) {i : Nat} {c : Completion}
    (hc : s.queue[i]? = some c) (hgeneration : c.generation = s.generation) :
    Sound { s with
      queue := s.queue.eraseIdx i
      isRunning := false
      firing := s.firing ++ [⟨c.generation, .signalled⟩]
      notified := s.notified + if handler || !c.aborted then 1 else 0 } where
  wait_eq := h.wait_eq
  queue_le d hd := h.queue_le d (mem_of_mem_eraseIdx hd)
  wait_of_idle _ hperiodic := by
    -- a one-shot timer has nothing on its way but this completion
    cases hsince : s.since with
    | none => exact absurd hrunning (by simp [(h.stopped hsince).1])
    | some kind =>
      cases kind with
      | periodic => exact absurd (h.periodic hsince) (by simp [show s.periodic = false from hperiodic])
      | oneshot =>
        obtain ⟨-, ⟨-, -, hout⟩ | ⟨hfalse, -⟩⟩ := h.oneshot hsince
        · have hwait := wait_of_outstanding hout (mem_of_getElem? hc) hgeneration
          exact hwait
        · exact absurd hrunning (by simp [hfalse])
  busy _ := Or.inr (by simp)
  phase f hf hperiodic := by
    rcases mem_append.mp hf with hf | hf
    · exact h.phase f hf hperiodic
    · rw [mem_singleton.mp hf]
  alone hperiodic _ := by
    have hnone : s.firing = [] := by
      by_contra hfiring
      exact absurd hrunning (by simp [(h.alone hperiodic hfiring).1])
    exact ⟨rfl, .signalled, by rw [hnone, hgeneration]; rfl⟩
  stopped hsince := absurd hrunning (by simp [(h.stopped hsince).1])
  oneshot hsince := by
    obtain ⟨hperiodic, ⟨-, hzero, hout⟩ | ⟨hfalse, -⟩⟩ := h.oneshot hsince
    · refine ⟨hperiodic, Or.inr ⟨rfl, ?_⟩⟩
      have hexpired := aborted_of_outstanding hout (mem_of_getElem? hc) hgeneration
      show s.notified + _ = 1
      rw [hzero, hexpired, Bool.not_false, Bool.or_true, if_pos rfl]
    · exact absurd hrunning (by simp [hfalse])
  periodic := h.periodic

theorem Sound.deliver (h : Sound s) {i : Nat} (hallowed : s.Allowed (.deliver i)) :
    Sound (s.deliver handler i) := by
  rw [OsTimer.deliver]
  cases hc : s.queue[i]? with
  | none => exact h
  | some c =>
    show Sound ({ s with queue := s.queue.eraseIdx i }.fire handler c)
    rw [fire]
    split
    · next hrunning => exact h.fired hrunning hc (hallowed c hc hrunning)
    · next hrunning => exact h.dropped (Bool.not_eq_true _ ▸ hrunning) i

theorem Sound.finished (h : Sound s) (hperiodic : s.periodic = false) (i : Nat) :
    Sound { s with firing := s.firing.eraseIdx i } where
  wait_eq := h.wait_eq
  queue_le := h.queue_le
  wait_of_idle := h.wait_of_idle
  busy htrue := absurd htrue (by simp [hperiodic])
  phase f hf := h.phase f (mem_of_mem_eraseIdx hf)
  alone htrue := absurd htrue (by simp [hperiodic])
  stopped := h.stopped
  oneshot := h.oneshot
  periodic := h.periodic

theorem Sound.goesOn (h : Sound s) (hperiodic : s.periodic = true) (phase : Phase) {wait : Option Nat}
    {queue : List Completion} (hwait : ∀ g ∈ wait, g = s.generation)
    (hqueue : ∀ c ∈ queue, c.generation ≤ s.generation) (hrunning : s.isRunning = false) :
    Sound { s with wait, queue, firing := [⟨s.generation, phase⟩] } where
  wait_eq := hwait
  queue_le := hqueue
  wait_of_idle _ hfalse := absurd hfalse (by simp [hperiodic])
  busy _ := Or.inr (cons_ne_nil _ _)
  phase _ _ hfalse := absurd hfalse (by simp [hperiodic])
  alone _ _ := ⟨hrunning, phase, rfl⟩
  stopped hsince := absurd (h.stopped hsince).2.1 (by simp [hperiodic])
  oneshot hsince := absurd (h.oneshot hsince).1 (by simp [hperiodic])
  periodic := h.periodic

theorem Sound.rearmed (h : Sound s) (hperiodic : s.periodic = true) :
    Sound { s with isRunning := true, firing := [] } where
  wait_eq := h.wait_eq
  queue_le := h.queue_le
  wait_of_idle hfalse := absurd hfalse (by simp)
  busy _ := Or.inl rfl
  phase _ hf := absurd hf not_mem_nil
  alone _ hfalse := absurd rfl hfalse
  stopped hsince := absurd (h.stopped hsince).2.1 (by simp [hperiodic])
  oneshot hsince := absurd (h.oneshot hsince).1 (by simp [hperiodic])
  periodic := h.periodic

theorem Sound.advance (h : Sound s) (i : Nat) : Sound (s.advance i) := by
  rw [OsTimer.advance.eq_def]
  cases hf : s.firing[i]? with
  | none => exact h
  | some f =>
    obtain ⟨g, phase⟩ := f
    have hmem : ⟨g, phase⟩ ∈ s.firing := mem_of_getElem? hf
    by_cases hperiodic : s.periodic = true
    · -- the handler is the only one, and the last start's
      obtain ⟨hrunning, phase', hfiring⟩ := h.alone hperiodic (ne_nil_of_mem hmem)
      rw [hfiring] at hf hmem
      obtain ⟨rfl, rfl⟩ := Firing.mk.inj (mem_singleton.mp hmem)
      obtain rfl : i = 0 := by
        have hlt := (List.getElem?_eq_some_iff.mp hf).1
        simpa using hlt
      cases phase with
      | signalled =>
        have hgoes := h.goesOn hperiodic .rearming h.wait_eq h.queue_le hrunning
        simp only [hfiring, if_pos hperiodic]
        exact hgoes
      | rearming =>
        have hqueue : ∀ c ∈ s.cancelWait.queue, c.generation ≤ s.generation := by
          intro c hc
          rcases mem_append.mp hc with hc | hc
          · exact h.queue_le c hc
          · obtain ⟨g, hg, rfl⟩ := mem_map.mp hc
            exact Nat.le_of_eq (h.wait_eq g (Option.mem_toList.mp hg))
        have hwait : ∀ g ∈ some s.generation, g = s.generation :=
          fun g hg => (Option.some_inj.mp hg).symm
        have hgoes := h.goesOn hperiodic .armed hwait hqueue hrunning
        simp only [hfiring]
        exact hgoes
      | armed =>
        simp only [hfiring]
        exact h.rearmed hperiodic
    · have hfalse : s.periodic = false := Bool.eq_false_iff.mpr hperiodic
      obtain rfl : phase = .signalled := h.phase _ hmem hfalse
      simp only [if_neg hperiodic]
      exact h.finished hfalse i

/-! ### Runs -/

theorem Sound.step (h : Sound s) (handler : Bool) {e : Step} (hallowed : s.Allowed e) :
    Sound (s.step handler e) := by
  cases e with
  | start kind past => exact h.start hallowed
  | stop => exact h.stop hallowed
  | expire => exact h.expire
  | deliver i => exact h.deliver hallowed
  | advance i => exact h.advance i

/-- **Exact notifications**: in every run whose steps take the flags for what they stand for, a
one-shot start gives one notification and a stop none. -/
theorem exact_of_allAllowed (handler : Bool) (steps : List Step)
    (h : Run.AllAllowed (step handler) Allowed new steps) :
    Exact (steps.foldl (step handler) new) := by
  have hreaches := h.reaches
  exact (hreaches.invariant sound_new fun s e hs hallowed => hs.step handler hallowed).exact

/-- A timer is stopped before it fires, and started again when that has been handled; a
periodic one fires twice and is stopped. -/
theorem exact_of_allAllowed_restarted :
    Exact ([.start .oneshot false, .stop, .deliver 0, .start .oneshot false, .expire, .deliver 0,
      .advance 0, .start .periodic false, .expire, .deliver 0, .advance 0, .advance 0, .advance 0,
      .expire, .deliver 0, .advance 0, .advance 0, .advance 0, .stop, .deliver 0].foldl
        (step false) new) :=
  exact_of_allAllowed false _ (by decide)

/-- A restart takes the aborted wait of the first start for its own and gives no notification.
A periodic timer that fires cannot be stopped and fires again.  A periodic start that fails
makes the one-shot timer fire twice. -/
theorem not_exact_restarted :
    ¬Exact ([.start .oneshot false, .stop, .start .oneshot false, .deliver 0, .advance 0, .expire,
        .deliver 0].foldl (step false) new) ∧
      ¬Exact ([.start .periodic false, .expire, .deliver 0, .stop, .advance 0, .advance 0,
        .advance 0, .expire, .deliver 0].foldl (step false) new) ∧
      ¬Exact ([.start .oneshot false, .start .periodic false, .expire, .deliver 0, .advance 0,
        .advance 0, .advance 0, .expire, .deliver 0].foldl (step false) new) := by
  decide

end OsTimer

end SipXRouter
