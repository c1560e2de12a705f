import SipXRouter.Proxy.RouteStateUpdate
import SipXRouter.Run

/-!
# The permits of the router

`SipRouter` waits for a permit of a semaphore before it hands a request to its thread
pool, and `handleRequest` gives the permit back as its last act, on the pooled thread.
A request inside a dialog is handled at once on the thread of the router itself.

## Design notes

* What `proxyMessage` and `send` do to a request is left open: they come to an action or
  an exception.  `assert` stops on an action that is none of the three.
* The count of transactions only decides about an alarm and is left out.
-/

namespace SipXRouter

open List

namespace SipRouter

open RouteState

/-! ## Messages -/

/-- What `handleMessage` reads of a message event: whether it reports a transport error,
the message, and its properties. -/
structure SipMessageEvent where
  isTransportError : Bool := false
  message : Option SipMessage
  queueSize : Text := []
  maxQueueSize : Text := []

/-- The settings of the router. -/
structure Settings where
  maxConcurrentThreads : Int := 10
  rejectOnFilledQueue : Bool := false
  rejectOnFilledQueuePercent : Int := 75
  /-- `getMessageQueue()->maxMsgs()`. -/
  appMaxQueueSize : Int

/-- The permits that `readConfig` makes. -/
def Settings.permits (s : Settings) : Nat :=
  if s.maxConcurrentThreads < 5 then 10 else s.maxConcurrentThreads.toNat

/-- `boost::lexical_cast<int>`; `none` is an exception. -/
def lexicalCast (s : Text) : Option Int :=
  let digits := if s.head? = some (byte '-') ∨ s.head? = some (byte '+') then s.drop 1 else s
  let value : Int := digitsValue 10 digits
  let value := if s.head? = some (byte '-') then -value else value
  if digits ≠ [] ∧ digits.all isDigit ∧ -2 ^ 31 ≤ value ∧ value < 2 ^ 31 then some value
  else none

/-- The two counts read from the properties.  An exception leaves zero from where it is
raised on. -/
def queueCounts (e : SipMessageEvent) : Int × Int :=
  match lexicalCast e.maxQueueSize with
  | none => (0, 0)
  | some transportMaxQueueSize => (transportMaxQueueSize, (lexicalCast e.queueSize).getD 0)

/-- Whether the queues are too full for a new dialog. -/
def isFilled (s : Settings) (e : SipMessageEvent) : Bool :=
  let counts := queueCounts e
  s.rejectOnFilledQueue && e.queueSize != [] && e.maxQueueSize != [] &&
    (decide ((toInt32 (counts.1 * s.rejectOnFilledQueuePercent)).tdiv 100 < counts.2) ||
      decide ((toInt32 (s.appMaxQueueSize * s.rejectOnFilledQueuePercent)).tdiv 100 < counts.2))

/-- The request has both tags. -/
def isMidDialog (m : SipMessage) : Bool :=
  (tagOf m fromField).getD [] != [] && (tagOf m toField).getD [] != []

/-- The request that `handleMessage` goes on to handle.  It passes over responses, and
rejects new requests while the queues are filled. -/
def dispatched (s : Settings) (e : SipMessageEvent) : Option SipMessage :=
  if e.isTransportError then none
  else
    match e.message with
    | none => none
    | some m =>
      if isResponse m then none
      else if isFilled s e && !isMidDialog m then none
      else some m

/-! ## Permits -/

inductive ProxyAction where
  | sendRequest | sendResponse | doNothing
deriving DecidableEq

/-- How a run of `handleRequest` goes: the action of `proxyMessage`, or none where an
exception leaves it, and whether one leaves `send`. -/
structure Handling where
  action : Option ProxyAction
  sendRaises : Bool := false

/-- `handleRequest` comes to its end. -/
def Handling.returns (h : Handling) : Bool :=
  match h.action with
  | none => false
  | some .doNothing => true
  | some .sendRequest => !h.sendRaises
  | some .sendResponse => !h.sendRaises

/-- The semaphore, the requests handed to the thread pool, and the one that is handled on
the thread of the router. -/
structure Dispatch where
  free : Nat
  scheduled : List SipMessage := []
  midDialog : Option SipMessage := none

/-- The requests that are scheduled or running. -/
def Dispatch.inFlight (st : Dispatch) : Nat := st.scheduled.length + st.midDialog.toList.length

/-- Before the first message. -/
def start (s : Settings) : Dispatch where
  free := s.permits

/-- `Semaphore::set`, which does not go above the maximum. -/
def set (s : Settings) (free : Nat) : Nat := if free < s.permits then free + 1 else free

/-- The permits after a run of `handleRequest`. -/
def handled (s : Settings) (h : Handling) (free : Nat) : Nat :=
  if h.returns then set s free else free

/-- What happens: a message, where `started` is what the thread pool says to a task, and
the end of a run of `handleRequest`, by its place in the pool or on the router's thread. -/
inductive Event where
  | handleMessage (e : SipMessageEvent) (started : Bool)
  | handleScheduled (k : Nat) (h : Handling)
  | handleMidDialog (h : Handling)

/-- The router takes no message while it handles a request itself, and waits for a permit. -/
def enabled (s : Settings) (st : Dispatch) : Event → Prop
  | .handleMessage e _ => st.midDialog = none ∧ ((dispatched s e).isSome = true → 0 < st.free)
  | .handleScheduled k _ => k < st.scheduled.length
  | .handleMidDialog _ => st.midDialog.isSome = true

/-- What an event does to the dispatcher. -/
def step (s : Settings) (st : Dispatch) : Event → Dispatch
  | .handleMessage e started =>
    match dispatched s e with
    | none => st
    | some m =>
      let st := { st with free := st.free - 1 }
      if isMidDialog m then { st with midDialog := some m }
      else if started then { st with scheduled := st.scheduled ++ [m] }
      else st
  | .handleScheduled k h =>
    { st with scheduled := st.scheduled.eraseIdx k, free := handled s h st.free }
  | .handleMidDialog h => { st with midDialog := none, free := handled s h st.free }

/-- A new request that the thread pool refuses, or an exception in `handleRequest`. -/
def Leaks (s : Settings) : Event → Prop
  | .handleMessage e started =>
    ((dispatched s e).any fun m => !isMidDialog m) = true ∧ started = false
  | .handleScheduled _ h => h.returns = false
  | .handleMidDialog h => h.returns = false

instance (s : Settings) (e : Event) : Decidable (Leaks s e) := by
  cases e <;> unfold Leaks <;> infer_instance

instance (s : Settings) (st : Dispatch) (e : Event) : Decidable (enabled s st e) := by
  cases e <;> unfold enabled <;> infer_instance

/-! ## What happens to the permits -/

variable {s : Settings} {st : Dispatch}

theorem handled_of_returns {h : Handling} (hreturns : h.returns = true) {free : Nat}
    (hfree : free < s.permits) : handled s h free = free + 1 := by
  rw [handled, if_pos hreturns, set, if_pos hfree]

theorem handled_of_raises {h : Handling} (hraises : h.returns = false) (free : Nat) :
    handled s h free = free := by
  rw [handled, hraises, if_neg Bool.false_ne_true]

/-- The end of a run of `handleRequest` gives back the permit that the request held. -/
theorem handled_add (h : Handling) {free inFlight : Nat} (hbound : free + (inFlight + 1) ≤ s.permits) :
    handled s h free + inFlight + (if h.returns = false then 1 else 0) = free + (inFlight + 1) := by
  cases hreturns : h.returns with
  | true =>
    rw [handled_of_returns hreturns (by omega), if_neg Bool.noConfusion]
    omega
  | false =>
    rw [handled_of_raises hreturns, if_pos rfl]
    omega

/-- **One event** leaves the sum of the permits that are free and held as it was, and a
leak lowers it by one. -/
theorem balance_step {e : Event} (henabled : enabled s st e)
    (hbound : st.free + st.inFlight ≤ s.permits) :
    (step s st e).free + (step s st e).inFlight + (if Leaks s e then 1 else 0) =
      st.free + st.inFlight := by
  cases e with
  | handleMessage e started =>
    obtain ⟨hidle, hfree⟩ := henabled
    cases hdispatched : dispatched s e with
    | none => simp [step, Leaks, hdispatched]
    | some m =>
      have hpos : 0 < st.free := hfree (by rw [hdispatched]; rfl)
      cases hmid : isMidDialog m with
      | true =>
        simp only [step, hdispatched, hmid, if_true, Dispatch.inFlight, Leaks, Option.any_some,
          Bool.not_true, Bool.false_eq_true, false_and, if_false, hidle,
          Option.toList_some, Option.toList_none, length_singleton, length_nil]
        omega
      | false =>
        cases started with
        | true =>
          simp only [step, hdispatched, hmid, Bool.false_eq_true, if_false, if_true,
            Dispatch.inFlight, Leaks, Bool.true_eq_false, and_false,
            length_append, length_singleton]
          omega
        | false =>
          simp only [step, hdispatched, hmid, Bool.false_eq_true, if_false,
            Dispatch.inFlight, Leaks, Option.any_some, Bool.not_false, and_self, if_true]
          omega
  | handleScheduled k h =>
    have hlen := length_eraseIdx_add_one (henabled : k < st.scheduled.length)
    simp only [Dispatch.inFlight, step, Leaks] at hbound ⊢
    have hheld : st.free + ((st.scheduled.eraseIdx k).length + st.midDialog.toList.length + 1) ≤
        s.permits := by omega
    have hadd := handled_add h hheld
    omega
  | handleMidDialog h =>
    obtain ⟨m, hm⟩ := Option.isSome_iff_exists.mp henabled
    simp only [Dispatch.inFlight, step, Leaks, hm, Option.toList_some, Option.toList_none,
      length_singleton, length_nil] at hbound ⊢
    exact handled_add h hbound

/-- **A run of events**: every leak on the way is a permit less. -/
theorem balance {es : List Event} (h : Run.AllAllowed (step s) (enabled s) st es)
    (hbound : st.free + st.inFlight ≤ s.permits) :
    (es.foldl (step s) st).free + (es.foldl (step s) st).inFlight +
      es.countP (fun e => decide (Leaks s e)) = st.free + st.inFlight := by
  induction es generalizing st with
  | nil => rfl
  | cons e es ih =>
    have hstep := balance_step h.1 hbound
    have hrest := ih h.2 (by omega)
    rw [foldl_cons, countP_cons]
    simp only [decide_eq_true_eq]
    omega

/-- No permit is lost: each one is free, or held by a request that is scheduled or running. -/
def Conserved (s : Settings) (st : Dispatch) : Prop := st.free + st.inFlight = s.permits

instance (s : Settings) (st : Dispatch) : Decidable (Conserved s st) :=
  inferInstanceAs (Decidable (_ = _))

/-- **When permits are conserved**: they are in every state of a run exactly if the thread
pool refuses no new request and no run of `handleRequest` ends in an exception. -/
theorem conserved_iff {es : List Event} (h : Run.AllAllowed (step s) (enabled s) (start s) es) :
    (∀ run, run <+: es → Conserved s (run.foldl (step s) (start s))) ↔ ∀ e ∈ es, ¬ Leaks s e := by
  have hstart : (start s).free + (start s).inFlight = s.permits := rfl
  have hbalance {run rest : List Event} (hes : run ++ rest = es) :
      (run.foldl (step s) (start s)).free + (run.foldl (step s) (start s)).inFlight +
        run.countP (fun e => decide (Leaks s e)) = s.permits := by
    rw [← hes] at h
    exact balance (Run.allAllowed_append.mp h).1 hstart.le
  constructor
  · intro hruns
    have hend : _ = s.permits := hruns es (prefix_refl es)
    have hall := hbalance (append_nil es)
    have hzero : es.countP (fun e => decide (Leaks s e)) = 0 := by omega
    simpa using countP_eq_zero.mp hzero
  · rintro hes run ⟨rest, hrun⟩
    have hzero : run.countP (fun e => decide (Leaks s e)) = 0 := by
      refine countP_eq_zero.mpr fun e he => ?_
      simpa using hes e (by rw [← hrun]; exact mem_append_left _ he)
    have hall := hbalance hrun
    rw [hzero] at hall
    exact hall

/-! ### Two requests -/

def defaults : Settings := { appMaxQueueSize := 10000 }

/-- A request that opens a dialog. -/
def newRequest : SipMessageEvent where
  message := some
    { firstHeaderLine := text "INVITE sip:200@example.com SIP/2.0"
      nameValues :=
        [(fromField, text "<sip:201@example.com>;tag=a"), (toField, text "<sip:200@example.com>")] }

/-- A request of a dialog. -/
def laterRequest : SipMessageEvent where
  message := some
    { firstHeaderLine := text "BYE sip:200@example.com SIP/2.0"
      nameValues :=
        [(fromField, text "<sip:201@example.com>;tag=a"),
          (toField, text "<sip:200@example.com>;tag=b")] }

/-- Both are handled, one in the pool and one on the router's thread. -/
def bothHandled : List Event :=
  [.handleMessage newRequest true, .handleMessage laterRequest true,
    .handleMidDialog ⟨some .sendRequest, false⟩, .handleScheduled 0 ⟨some .sendResponse, false⟩]

theorem conserved_bothHandled :
    Conserved defaults (bothHandled.foldl (step defaults) (start defaults)) :=
  (conserved_iff (by decide +kernel)).mpr (by decide +kernel) bothHandled
    (prefix_refl bothHandled)

/-- The pool refuses one, and the other ends in an exception. -/
def bothLost : List Event :=
  [.handleMessage newRequest false, .handleMessage laterRequest true,
    .handleMidDialog ⟨none, false⟩]

/-- Two of ten permits are gone although nothing is scheduled or running. -/
theorem not_conserved_bothLost :
    Run.AllAllowed (step defaults) (enabled defaults) (start defaults) bothLost ∧
      ¬ Conserved defaults (bothLost.foldl (step defaults) (start defaults)) ∧
      (bothLost.foldl (step defaults) (start defaults)).inFlight = 0 := by
  decide +kernel

end SipRouter

end SipXRouter
