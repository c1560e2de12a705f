import SipXRouter.Os.OsTimer

/-!
# Timer queues

An `OsTimerQueue` has a one-shot timer for each message that is scheduled, and keeps the
timers in the order of their times.  Every schedule first takes those whose time has passed
out of the queue, and stops them, whether or not they have fired.

## Design notes

* The clock is read before a timer is started, and may go on in between.
* A timer that is taken out is destroyed, and its destructor stops it once more.
* Of timers with the same time the one that was scheduled first comes first.
-/

namespace SipXRouter

open List

namespace OsTimerQueue

variable {M : Type*}

/-- A message, its timer, and when that is due.  `cancelled` says that the timer was in the
queue when the whole queue was stopped. -/
structure Entry (M : Type*) where
  msg : M
  deadline : Int
  timer : OsTimer
  cancelled : Bool
deriving DecidableEq

/-- `OsTimerData`: the time and the number of a timer. -/
structure OsTimerData where
  due : Int
  timer : Nat
deriving DecidableEq

end OsTimerQueue

/-- A timer queue: the clock, all timers that were scheduled, `_timers`, and the messages that
the consumer got, each with the number of its timer. -/
structure OsTimerQueue (M : Type*) where
  clock : Int
  scheduled : List (OsTimerQueue.Entry M)
  timers : List OsTimerQueue.OsTimerData
  consumer : List (Nat × M)
deriving DecidableEq

namespace OsTimerQueue

variable {M : Type*}

/-- The constructor. -/
def new (clock : Int) : OsTimerQueue M := ⟨clock, [], [], []⟩

/-! ## Steps -/

/-- A timer is put in front of the first one that is due later. -/
def push (data : OsTimerData) : List OsTimerData → List OsTimerData
  | [] => [data]
  | d :: timers => if data.due < d.due then data :: d :: timers else d :: push data timers

/-- A timer is stopped and destroyed. -/
def Entry.clear (cancel : Bool) (e : Entry M) : Entry M :=
  { e with timer := e.timer.stop.stop, cancelled := e.cancelled || cancel }

/-- `clearUntil`; there is no time for `OS_INFINITY`. -/
def clearUntil (time : Option Int) (cancel : Bool) :
    List OsTimerData → List (Entry M) → List OsTimerData × List (Entry M)
  | [], scheduled => ([], scheduled)
  | data :: timers, scheduled =>
    if time.all (data.due < ·) then
      clearUntil time cancel timers (scheduled.modify data.timer (Entry.clear cancel))
    else (data :: timers, scheduled)

/-- `scheduleOneshotAfter`, with the time that passes between reading the clock and starting the
timer. -/
def scheduleOneshotAfter (q : OsTimerQueue M) (msg : M) (offset : Int) (lag : Nat) :
    OsTimerQueue M :=
  let cleared := clearUntil (some q.clock) false q.timers q.scheduled
  { q with
    clock := q.clock + lag
    scheduled := cleared.2 ++
      [⟨msg, q.clock + lag + offset, OsTimer.new.start .oneshot false, false⟩]
    timers := push ⟨q.clock + offset, cleared.2.length⟩ cleared.1 }

/-- All timers are cancelled, whenever they are due. -/
def stop (q : OsTimerQueue M) : OsTimerQueue M :=
  let cleared := clearUntil none true q.timers q.scheduled
  { q with scheduled := cleared.2, timers := cleared.1 }

/-- A step of one timer: it sends its message for each of its notifications. -/
def timerStep (q : OsTimerQueue M) (k : Nat) (e : OsTimer.Step) : OsTimerQueue M :=
  match q.scheduled[k]? with
  | none => q
  | some entry =>
    let timer := entry.timer.step false e
    { q with
      scheduled := q.scheduled.set k { entry with timer }
      consumer := q.consumer ++
        replicate (timer.notified - entry.timer.notified) (k, entry.msg) }

/-- What may happen to a queue. -/
inductive Step (M : Type*) where
  | schedule (msg : M) (offset : Int) (lag : Nat)
  | stop
  | tick (duration : Nat)
  | expire (k : Nat)
  | deliver (k i : Nat)
  | advance (k i : Nat)

def step (q : OsTimerQueue M) : Step M → OsTimerQueue M
  | .schedule msg offset lag => q.scheduleOneshotAfter msg offset lag
  | .stop => q.stop
  | .tick duration => { q with clock := q.clock + duration }
  | .expire k =>
    -- a deadline passes when its time has come
    if q.scheduled[k]?.all (·.deadline ≤ q.clock) then q.timerStep k .expire else q
  | .deliver k i => q.timerStep k (.deliver i)
  | .advance k i => q.timerStep k (.advance i)

/-! ## Delivery -/

/-- The messages of one timer that the consumer got. -/
def handed (q : OsTimerQueue M) (k : Nat) : List (Nat × M) := q.consumer.filter (·.1 = k)

/-- No message is handed over twice, and one that was not cancelled has been handed over when
nothing of its timer is left on its way. -/
def Delivered (q : OsTimerQueue M) : Prop :=
  ∀ (k : Nat) e, q.scheduled[k]? = some e →
    (q.handed k = [] ∨ q.handed k = [(k, e.msg)]) ∧
      (e.cancelled = false → e.timer.wait = none → e.timer.queue = [] → e.timer.firing = [] →
        q.handed k = [(k, e.msg)])

/-- At a schedule, the timers of the queue whose time has passed have fired. -/
def Allowed (q : OsTimerQueue M) : Step M → Prop
  | .schedule _ _ _ =>
    ∀ data ∈ q.timers, data.due < q.clock →
      ∀ e ∈ q.scheduled[data.timer]?, e.timer.isRunning = false
  | _ => True

/-- A timer that was started and has not fired. -/
structure Pending (s : OsTimer) : Prop where
  isRunning : s.isRunning = true
  firing : s.firing = []
  way : s.wait = some 1 ∧ s.queue = [] ∨ s.wait = none ∧ s.queue = [⟨1, false⟩]

/-- A timer that has fired, or was stopped: its handlers find nothing to do. -/
structure Idle (s : OsTimer) : Prop where
  isRunning : s.isRunning = false
  periodic : s.periodic = false
  phase : ∀ f ∈ s.firing, f.phase = .signalled

/-- What may be said of a timer and of what the consumer got from it. -/
def Fate (e : Entry M) (k : Nat) (handed : List (Nat × M)) : Prop :=
  (Pending e.timer ∧ e.timer.periodic = false ∧ e.cancelled = false ∧ handed = []) ∨
    (Idle e.timer ∧
      (handed = [(k, e.msg)] ∨ e.cancelled = true ∧ handed = []))

variable {e : Entry M} {handed : List (Nat × M)} {k : Nat}

theorem Fate.delivered (h : Fate e k handed) : (handed = [] ∨ handed = [(k, e.msg)]) ∧
    (e.cancelled = false → e.timer.wait = none → e.timer.queue = [] → e.timer.firing = [] →
      handed = [(k, e.msg)]) := by
  rcases h with ⟨hpending, -, -, hnone⟩ | ⟨-, hone | ⟨hcancelled, hnone⟩⟩
  · refine ⟨Or.inl hnone, fun _ hwait hqueue _ => ?_⟩
    rcases hpending.way with ⟨hsome, -⟩ | ⟨-, hsome⟩
    · exact absurd hsome (by simp [hwait])
    · exact absurd hsome (by simp [hqueue])
  · exact ⟨Or.inr hone, fun _ _ _ _ => hone⟩
  · exact ⟨Or.inl hnone, fun hfalse => absurd hcancelled (by simp [hfalse])⟩

/-! ### Steps of a timer -/

variable {s : OsTimer}

theorem pending_started : Pending (OsTimer.new.start .oneshot false) where
  isRunning := rfl
  firing := rfl
  way := Or.inl ⟨rfl, rfl⟩

theorem Idle.expire (h : Idle s) : Idle s.expire := ⟨h.isRunning, h.periodic, h.phase⟩

theorem Idle.deliver (h : Idle s) (i : Nat) :
    Idle (s.deliver false i) ∧ (s.deliver false i).notified = s.notified := by
  rw [OsTimer.deliver]
  cases s.queue[i]? with
  | none => exact ⟨h, rfl⟩
  | some c =>
    show Idle ({ s with queue := s.queue.eraseIdx i }.fire false c) ∧
      ({ s with queue := s.queue.eraseIdx i }.fire false c).notified = s.notified
    rw [OsTimer.fire, if_neg (by simp [h.isRunning])]
    exact ⟨⟨h.isRunning, h.periodic, h.phase⟩, rfl⟩

theorem Idle.advance (h : Idle s) (i : Nat) :
    Idle (s.advance i) ∧ (s.advance i).notified = s.notified := by
  rw [OsTimer.advance.eq_def]
  cases hf : s.firing[i]? with
  | none => exact ⟨h, rfl⟩
  | some f =>
    obtain ⟨g, phase⟩ := f
    obtain rfl : phase = .signalled := h.phase _ (mem_of_getElem? hf)
    have hperiodic : ¬s.periodic = true := Bool.eq_false_iff.mp h.periodic
    simp only [if_neg hperiodic]
    exact ⟨⟨h.isRunning, h.periodic, fun f hf => h.phase f (mem_of_mem_eraseIdx hf)⟩, trivial⟩

theorem Idle.stop (h : Idle s) : Idle s.stop := by
  rw [OsTimer.stop, if_neg (by simp [h.isRunning])]
  exact ⟨h.isRunning, h.periodic, h.phase⟩

theorem Pending.stop (h : Pending s) : Idle s.stop := by
  rw [OsTimer.stop, if_pos h.isRunning]
  refine ⟨rfl, rfl, fun f hf => ?_⟩
  have hmem : f ∈ s.firing := hf
  rw [h.firing] at hmem
  exact absurd hmem not_mem_nil

theorem Pending.expire (h : Pending s) : Pending s.expire where
  isRunning := h.isRunning
  firing := h.firing
  way := by
    rcases h.way with ⟨hwait, hqueue⟩ | ⟨hwait, hqueue⟩
    · refine Or.inr ⟨rfl, ?_⟩
      rw [OsTimer.expire, hwait, hqueue]
      rfl
    · refine Or.inr ⟨rfl, ?_⟩
      rw [OsTimer.expire, hwait, hqueue]
      rfl

theorem Pending.advance (h : Pending s) (i : Nat) : s.advance i = s := by
  rw [OsTimer.advance.eq_def, h.firing]
  rfl

/-- A delivery does nothing or notifies once. -/
theorem Pending.deliver (h : Pending s) (hperiodic : s.periodic = false) (i : Nat) :
    s.deliver false i = s ∨
      (Idle (s.deliver false i) ∧ (s.deliver false i).notified = s.notified + 1) := by
  rw [OsTimer.deliver]
  cases hc : s.queue[i]? with
  | none => exact Or.inl rfl
  | some c =>
    right
    have hmem : c ∈ s.queue := mem_of_getElem? hc
    have hexpired : c.aborted = false := by
      rcases h.way with ⟨-, hqueue⟩ | ⟨-, hqueue⟩
      · exact absurd hmem (by simp [hqueue])
      · rw [hqueue] at hmem
        rw [mem_singleton.mp hmem]
    show Idle ({ s with queue := s.queue.eraseIdx i }.fire false c) ∧
      ({ s with queue := s.queue.eraseIdx i }.fire false c).notified = s.notified + 1
    rw [OsTimer.fire, if_pos h.isRunning, hexpired]
    refine ⟨⟨rfl, hperiodic, fun f hf => ?_⟩, rfl⟩
    have hfiring : f ∈ s.firing ++ [⟨c.generation, .signalled⟩] := hf
    rw [h.firing, nil_append] at hfiring
    rw [mem_singleton.mp hfiring]

/-- The parts of what becomes of a wait. -/
def OfWait : OsTimer.Step → Prop
  | .expire => True
  | .deliver _ => True
  | .advance _ => True
  | _ => False

theorem Fate.timerStep (h : Fate e k handed)
    {t : OsTimer.Step} (ht : OfWait t) :
    Fate { e with timer := e.timer.step false t } k
      (handed ++ replicate ((e.timer.step false t).notified - e.timer.notified) (k, e.msg)) := by
  have hsame : ∀ n : Nat, handed ++ replicate (n - n) (k, e.msg) = handed := by
    intro n
    rw [Nat.sub_self, replicate_zero, append_nil]
  rcases h with ⟨hpending, hperiodic, hcancelled, rfl⟩ | ⟨hidle, hhanded⟩
  · cases t with
    | start kind past => exact ht.elim
    | stop => exact ht.elim
    | expire => exact Or.inl ⟨hpending.expire, hperiodic, hcancelled, hsame _⟩
    | advance i =>
      show Fate { e with timer := e.timer.advance i } k
        (_ ++ replicate ((e.timer.advance i).notified - _) _)
      rw [hpending.advance, hsame]
      exact Or.inl ⟨hpending, hperiodic, hcancelled, rfl⟩
    | deliver i =>
      show Fate { e with timer := e.timer.deliver false i } k
        (_ ++ replicate ((e.timer.deliver false i).notified - _) _)
      rcases hpending.deliver hperiodic i with hunchanged | ⟨hidle, hnotified⟩
      · rw [hunchanged, hsame]
        exact Or.inl ⟨hpending, hperiodic, hcancelled, rfl⟩
      · rw [hnotified, Nat.add_sub_cancel_left]
        exact Or.inr ⟨hidle, Or.inl rfl⟩
  · cases t with
    | start kind past => exact ht.elim
    | stop => exact ht.elim
    | expire =>
      rw [show (e.timer.step false .expire).notified = e.timer.notified from rfl, hsame]
      exact Or.inr ⟨hidle.expire, hhanded⟩
    | advance i =>
      obtain ⟨hidle', hnotified⟩ := hidle.advance i
      rw [show (e.timer.step false (.advance i)).notified = e.timer.notified from hnotified, hsame]
      exact Or.inr ⟨hidle', hhanded⟩
    | deliver i =>
      obtain ⟨hidle', hnotified⟩ := hidle.deliver i
      rw [show (e.timer.step false (.deliver i)).notified = e.timer.notified from hnotified, hsame]
      exact Or.inr ⟨hidle', hhanded⟩

theorem Fate.clear_of_idle (h : Fate e k handed)
    (hrunning : e.timer.isRunning = false) : Fate (e.clear false) k handed := by
  rcases h with ⟨hpending, -⟩ | ⟨hidle, hhanded⟩
  · exact absurd hpending.isRunning (by simp [hrunning])
  · refine Or.inr ⟨hidle.stop.stop, ?_⟩
    rw [Entry.clear, Bool.or_false]
    exact hhanded

/-- A timer is taken out when the whole queue is stopped. -/
theorem Fate.cancel (h : Fate e k handed) : Fate (e.clear true) k handed := by
  rcases h with ⟨hpending, -, -, hnone⟩ | ⟨hidle, hone | ⟨-, hnone⟩⟩
  · exact Or.inr ⟨hpending.stop.stop, Or.inr ⟨Bool.or_true _, hnone⟩⟩
  · exact Or.inr ⟨hidle.stop.stop, Or.inl hone⟩
  · exact Or.inr ⟨hidle.stop.stop, Or.inr ⟨Bool.or_true _, hnone⟩⟩

/-! ### Steps of the queue -/

/-- The invariant: every message has its fate, and the consumer got no others. -/
structure Sound (q : OsTimerQueue M) : Prop where
  fate : ∀ (k : Nat) e, q.scheduled[k]? = some e → Fate e k (q.handed k)
  consumer_lt : ∀ c ∈ q.consumer, c.1 < q.scheduled.length

variable {q : OsTimerQueue M}

theorem sound_new (clock : Int) : Sound (new clock : OsTimerQueue M) where
  fate k e he := absurd he (by simp [new])
  consumer_lt c hc := absurd hc not_mem_nil

theorem Sound.delivered (h : Sound q) : q.Delivered := fun k e he => (h.fate k e he).delivered

theorem length_clearUntil (time : Option Int) (cancel : Bool) (timers : List OsTimerData)
    (scheduled : List (Entry M)) :
    (clearUntil time cancel timers scheduled).2.length = scheduled.length := by
  induction timers generalizing scheduled with
  | nil => rfl
  | cons data timers ih =>
    rw [clearUntil]
    split
    · rw [ih, length_modify]
    · rfl

theorem forall_clearUntil {P : Nat → Entry M → Prop} {time : Option Int} {cancel : Bool}
    {timers : List OsTimerData} {scheduled : List (Entry M)}
    (h : ∀ (k : Nat) e, scheduled[k]? = some e → P k e)
    (hclear : ∀ data ∈ timers, time.all (data.due < ·) = true →
      ∀ e, P data.timer e → P data.timer (e.clear cancel)) :
    ∀ (k : Nat) e, (clearUntil time cancel timers scheduled).2[k]? = some e → P k e := by
  induction timers generalizing scheduled with
  | nil => exact h
  | cons data timers ih =>
    rw [clearUntil]
    split
    · next hdue =>
        refine ih (fun k e he => ?_) fun d hd => hclear d (mem_cons_of_mem data hd)
        rw [getElem?_modify] at he
        obtain ⟨e', he', rfl⟩ := Option.map_eq_some_iff.mp he
        split
        · next heq =>
            rw [← heq] at he' ⊢
            exact hclear data mem_cons_self hdue e' (h _ e' he')
        · exact h k e' he'
    · exact h

theorem isRunning_stop (s : OsTimer) : s.stop.isRunning = false := by
  rw [OsTimer.stop]
  split
  · rfl
  · next hrunning => exact Bool.eq_false_iff.mpr hrunning

/-- Scheduling a message keeps the queue sound. -/
theorem Sound.schedule (h : Sound q) {msg : M} {offset : Int} {lag : Nat}
    (hallowed : q.Allowed (.schedule msg offset lag)) :
    Sound (q.scheduleOneshotAfter msg offset lag) := by
  -- a timer that is taken out has fired, and still has when it comes up again
  have hcleared : ∀ (k : Nat) e,
      (clearUntil (some q.clock) false q.timers q.scheduled).2[k]? = some e →
        Fate e k (q.handed k) ∧ ((∃ data ∈ q.timers, data.due < q.clock ∧ data.timer = k) →
          e.timer.isRunning = false) := by
    refine forall_clearUntil (fun k e he => ⟨h.fate k e he, ?_⟩) fun data hdata hdue e hP => ?_
    · rintro ⟨data, hdata, hdue, rfl⟩
      exact hallowed data hdata hdue e he
    · have hlt : data.due < q.clock := by simpa using hdue
      exact ⟨hP.1.clear_of_idle (hP.2 ⟨data, hdata, hlt, rfl⟩), fun _ => isRunning_stop _⟩
  have hlength := length_clearUntil (some q.clock) false q.timers q.scheduled
  refine ⟨fun k e he => ?_, fun c hc => ?_⟩
  · rcases Nat.lt_or_ge k q.scheduled.length with hk | hk
    · have hold : (clearUntil (some q.clock) false q.timers q.scheduled).2[k]? = some e := by
        rw [← getElem?_append_left (hlength ▸ hk)]
        exact he
      exact (hcleared k e hold).1
    · -- the consumer has got nothing from the new timer
      have hnone : q.handed k = [] := by
        refine filter_eq_nil_iff.mpr fun c hc => ?_
        have hlt := h.consumer_lt c hc
        rw [decide_eq_true_iff]
        omega
      have hnew : ([⟨msg, q.clock + lag + offset, OsTimer.new.start .oneshot false, false⟩] :
          List (Entry M))[k - q.scheduled.length]? = some e := by
        rw [← hlength, ← getElem?_append_right (hlength ▸ hk)]
        exact he
      obtain rfl := mem_singleton.mp (mem_of_getElem? hnew)
      exact Or.inl ⟨pending_started, rfl, rfl, hnone⟩
  · have hlt := h.consumer_lt c hc
    show c.1 < ((clearUntil _ _ _ _).2 ++ [_]).length
    rw [length_append, hlength]
    omega

theorem Sound.stop (h : Sound q) : Sound q.stop where
  fate := forall_clearUntil (P := fun k e => Fate e k (q.handed k)) h.fate
    fun _ _ _ _ hfate => hfate.cancel
  consumer_lt c hc := by
    show c.1 < (clearUntil _ _ _ _).2.length
    rw [length_clearUntil]
    exact h.consumer_lt c hc

theorem Sound.timerStep (h : Sound q) (k : Nat) {t : OsTimer.Step} (ht : OfWait t) :
    Sound (q.timerStep k t) := by
  rw [OsTimerQueue.timerStep]
  cases hk : q.scheduled[k]? with
  | none => exact h
  | some entry =>
    have hlt : k < q.scheduled.length := (List.getElem?_eq_some_iff.mp hk).1
    refine ⟨fun j e he => ?_, fun c hc => ?_⟩
    · show Fate e j ((q.consumer ++ replicate _ (k, entry.msg)).filter (·.1 = j))
      rw [filter_append]
      by_cases hjk : k = j
      · subst hjk
        have hentry : (q.scheduled.set k _)[k]? = some e := he
        rw [getElem?_set_self hlt] at hentry
        obtain rfl := Option.some_inj.mp hentry
        rw [filter_replicate_of_pos (by simp)]
        exact (h.fate k entry hk).timerStep ht
      · have hentry : (q.scheduled.set k _)[j]? = some e := he
        rw [getElem?_set_ne hjk] at hentry
        rw [filter_replicate_of_neg (by simpa using hjk), append_nil]
        exact h.fate j e hentry
    · show c.1 < (q.scheduled.set k _).length
      rw [length_set]
      rcases mem_append.mp hc with hc | hc
      · exact h.consumer_lt c hc
      · rw [eq_of_mem_replicate hc]
        exact hlt

theorem Sound.step (h : Sound q) {e : Step M} (hallowed : q.Allowed e) : Sound (q.step e) := by
  cases e with
  | schedule msg offset lag => exact h.schedule hallowed
  | stop => exact h.stop
  | tick duration => exact ⟨h.fate, h.consumer_lt⟩
  | expire k =>
    rw [OsTimerQueue.step]
    split
    · exact h.timerStep k trivial
    · exact h
  | deliver k i => exact h.timerStep k trivial
  | advance k i => exact h.timerStep k trivial

/-- **Delivery**: in every run in which, at each schedule, the timers whose time has passed have
fired, each message is handed over once unless the queue is stopped. -/
theorem delivered_of_allAllowed (clock : Int) (steps : List (Step M))
    (h : Run.AllAllowed step Allowed (new clock) steps) :
    Delivered (steps.foldl step (new clock)) :=
  (h.reaches.invariant (sound_new clock) fun _ _ hq hallowed => hq.step hallowed).delivered

/-! ### A timer that is late -/

instance decidableAllowed (q : OsTimerQueue M) : ∀ e, Decidable (q.Allowed e)
  | .schedule _ _ _ => inferInstanceAs (Decidable (∀ data ∈ q.timers, data.due < q.clock →
      ∀ e ∈ q.scheduled[data.timer]?, e.timer.isRunning = false))
  | .stop => isTrue trivial
  | .tick _ => isTrue trivial
  | .expire _ => isTrue trivial
  | .deliver _ _ => isTrue trivial
  | .advance _ _ => isTrue trivial

/-- Two messages, the second one scheduled after the first has fired. -/
theorem delivered_of_allAllowed_twoMessages :
    Delivered ([.schedule 7 10 0, .tick 11, .expire 0, .deliver 0 0, .schedule 8 10 2, .advance 0 0,
      .tick 20, .expire 1, .deliver 1 0, .advance 1 0].foldl step (new 0 : OsTimerQueue Nat)) :=
  delivered_of_allAllowed 0 _ (by decide)

/-- The time of the first message has passed, and its timer has not been handled yet, when the
second one is scheduled: the first message is lost. -/
theorem not_delivered_late :
    let q := [.schedule 7 10 0, .tick 11, .schedule 8 10 0, .expire 0, .deliver 0 0, .tick 20,
      .expire 1, .deliver 1 0, .advance 1 0].foldl step (new 0 : OsTimerQueue Nat)
    q.consumer = [(1, 8)] ∧ ¬q.Delivered := by
  intro q
  have hconsumer : q.consumer = [(1, 8)] := by decide
  refine ⟨hconsumer, fun hdelivered => ?_⟩
  have hentry : q.scheduled[0]?.map (fun e => (e.cancelled, e.timer.wait, e.timer.queue,
      e.timer.firing)) = some (false, none, [], []) := by decide
  obtain ⟨e, he, heq⟩ := Option.map_eq_some_iff.mp hentry
  obtain ⟨hcancelled, hwait, hqueue, hfiring⟩ : e.cancelled = false ∧ e.timer.wait = none ∧
      e.timer.queue = [] ∧ e.timer.firing = [] := by simpa using heq
  have hhanded := (hdelivered 0 e he).2 hcancelled hwait hqueue hfiring
  rw [handed, hconsumer] at hhanded
  exact absurd hhanded (by simp)

end OsTimerQueue

end SipXRouter
