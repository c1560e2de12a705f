import SipXRouter.Proxy.CallStateEventBuilderDB
import SipXRouter.Utl.XmlContent
import SipXRouter.Run

/-!
# The order of the calls of an event builder

Both builders, the one for the database and the one for XML, ask `builderStateIsOk`
whether a call is in its turn.  The documentation of the class says when it is: a reset
at any time, and otherwise the start of an event, then the call data once and the Vias,
then the completion.  `Documented` is that order, together with the event that the calls
describe.

## Design notes

A rejected call fails an assertion.  Where assertions are compiled out it is logged and
nothing else happens; `step` takes it that way, so that a run may go on behind it.
-/

namespace SipXRouter.CallStateEventBuilder

open List

/-! ## The documented order -/

/-- The public methods, with their arguments. -/
inductive Call where
  | observerEvent (sequenceNumber : Int32) (timestamp : SqlTime) (eventMsg : Text)
  | startEvent (sequenceNumber : Int32) (timestamp : SqlTime) (event : CallEvent)
  | addCallData (data : CallData)
  | addEventVia (via : Text)
  | completeCallEvent
  | finishElement
deriving DecidableEq

/-- What a caller sees: whether the call was in its turn, and the element of
`finishElement` where it returns `true`. -/
inductive Outcome where
  | taken (accepted : Bool)
  | finished (element : Option Text)
deriving DecidableEq

/-- The start of an event. -/
structure Start where
  sequenceNumber : Int32
  timestamp : SqlTime
  event : CallEvent

/-- A complete event: of the observer, or one start with its call data and its Vias. -/
inductive Record where
  | observer (sequenceNumber : Int32) (timestamp : SqlTime) (eventMsg : Text)
  | call (start : Start) (data : CallData) (vias : List Text)

/-- Where the caller stands in the documented order. -/
inductive Phase where
  | initial
  | betweenEvents
  | building (start : Start) (data : Option CallData) (vias : List Text)

/-- The documented order, with the complete event that waits for `finishElement`. -/
structure Documented where
  phase : Phase := .initial
  waiting : Option Record := none

namespace Documented

/-- The calls that are in their turn. -/
def accepts (s : Documented) : Call → Bool
  | .observerEvent .. => true
  | .startEvent .. =>
    match s.phase with
    | .betweenEvents => true
    | _ => false
  | .addCallData _ =>
    match s.phase with
    | .building _ none _ => true
    | _ => false
  | .addEventVia _ =>
    match s.phase with
    | .building .. => true
    | _ => false
  | .completeCallEvent =>
    match s.phase with
    | .building _ (some _) (_ :: _) => true
    | _ => false
  | .finishElement => true

/-- A call in its turn; any other call changes nothing. -/
def step (s : Documented) : Call → Documented
  | .observerEvent sequenceNumber timestamp eventMsg =>
    ⟨.betweenEvents, some (.observer sequenceNumber timestamp eventMsg)⟩
  | .startEvent sequenceNumber timestamp event =>
    match s.phase with
    | .betweenEvents => { s with phase := .building ⟨sequenceNumber, timestamp, event⟩ none [] }
    | _ => s
  | .addCallData data =>
    match s.phase with
    | .building start none vias => { s with phase := .building start (some data) vias }
    | _ => s
  | .addEventVia via =>
    match s.phase with
    | .building start data vias => { s with phase := .building start data (vias ++ [via]) }
    | _ => s
  | .completeCallEvent =>
    match s.phase with
    | .building start (some data) (via :: vias) =>
      ⟨.betweenEvents, some (.call start data (via :: vias))⟩
    | _ => s
  | .finishElement => { s with waiting := none }

/-- What the caller should see, with the events written by `write`. -/
def outcome (write : Record → Text) (s : Documented) : Call → Outcome
  | .finishElement => .finished (s.waiting.map write)
  | c => .taken (s.accepts c)

end Documented

/-- The method that the start of an event passes to the state machine. -/
def CallEvent.method : CallEvent → BuilderMethod
  | request .. => .callRequestEvent
  | setup .. => .callSetupEvent
  | failure .. => .callFailureEvent
  | callEnd => .callEndEvent
  | transfer .. => .callTransferEvent

/-- The method that a call passes to the state machine. -/
def Call.method : Call → Option BuilderMethod
  | observerEvent .. => some .builderReset
  | startEvent _ _ event => some event.method
  | addCallData _ => some .addCallData
  | addEventVia _ => some .addVia
  | completeCallEvent => some .completeCallEvent
  | finishElement => none

/-! ## The builder for the database -/

namespace Builder

/-- The method as the builder runs it; a rejected call leaves it as it is. -/
def step (b : Builder) : Call → Builder
  | .observerEvent sequenceNumber timestamp eventMsg =>
    (b.observerEvent sequenceNumber timestamp (cString eventMsg)).getD b
  | .startEvent sequenceNumber timestamp event =>
    (b.startEvent sequenceNumber timestamp event).getD b
  | .addCallData data => (b.addCallData data).getD b
  | .addEventVia via => (b.addEventVia via).getD b
  | .completeCallEvent => b.completeCallEvent.getD b
  | .finishElement => b.finishElement.2.2

/-- What the caller sees. -/
def outcome (b : Builder) : Call → Outcome
  | .observerEvent .. => .taken (builderStateIsOk .builderReset b.buildState).1
  | .startEvent _ _ event => .taken (builderStateIsOk event.method b.buildState).1
  | .addCallData _ => .taken (builderStateIsOk .addCallData b.buildState).1
  | .addEventVia _ => .taken (builderStateIsOk .addVia b.buildState).1
  | .completeCallEvent => .taken (builderStateIsOk .completeCallEvent b.buildState).1
  | .finishElement => .finished (if b.finishElement.1 then some b.finishElement.2.1 else none)

end Builder

/-- The calls that stay clear of the missing `break`s, and of an element that has not been
collected: no part of an event between two events, no completion before the call data and a Via,
and no start while an event waits. -/
def InTurn (buildState : Nat) (eventComplete : Bool) : Call → Prop
  | .startEvent .. => buildState = betweenEvents → eventComplete = false
  | .addCallData _ => buildState ≠ betweenEvents
  | .addEventVia _ => buildState ≠ betweenEvents
  | .completeCallEvent =>
    buildState = 0 ∨ buildState = callEventStarted ||| callDataAdded ||| viaAdded
  | _ => True

instance decidableInTurn (buildState : Nat) (eventComplete : Bool) :
    ∀ c, Decidable (InTurn buildState eventComplete c)
  | .startEvent .. => inferInstanceAs (Decidable (buildState = betweenEvents → eventComplete = false))
  | .addCallData _ => inferInstanceAs (Decidable (buildState ≠ betweenEvents))
  | .addEventVia _ => inferInstanceAs (Decidable (buildState ≠ betweenEvents))
  | .completeCallEvent => inferInstanceAs (Decidable
      (buildState = 0 ∨ buildState = callEventStarted ||| callDataAdded ||| viaAdded))
  | .observerEvent .. => inferInstanceAs (Decidable True)
  | .finishElement => inferInstanceAs (Decidable True)

/-! ## The builder for XML -/

/-- The members of the class that `finishElement` uses. -/
structure BuilderXML where
  observer : ObserverName
  buildState : Nat := 0
  currentEvent : Text := []
  callInfo : Text := []
  viaHeader : Text := []
  laterElement : Text := []
  endElement : Text := []
  eventComplete : Bool := false

/-- `getIsoTimeStringZ`. -/
def SqlTime.isoText (t : SqlTime) : Text :=
  padded 4 ' ' t.year ++ text "-" ++ padded 2 '0' t.month ++ text "-" ++ padded 2 '0' t.day ++
    text "T" ++ padded 2 '0' t.hour ++ text ":" ++ padded 2 '0' t.minute ++ text ":" ++
    padded 2 '0' t.second ++ text "." ++ padded 3 '0' t.millisecond ++ text "Z"

/-- The start tag, `CallRequestElementStart` and so on.  A transfer is not logged. -/
def CallEvent.elementStart : CallEvent → Text
  | request .. => text "<call_request>"
  | setup .. => text "<call_setup>"
  | failure .. => text "<call_failure>"
  | callEnd => text "<call_end>"
  | transfer .. => []

/-- The end tag, `CallRequestElementEnd` and so on. -/
def CallEvent.elementEnd : CallEvent → Text
  | request .. => text "</call_request>"
  | setup .. => text "</call_setup>"
  | failure .. => text "</call_failure>"
  | callEnd => text "</call_end>"
  | transfer .. => []

/-- The element with the contact. -/
def contactText (contact : Text) : Text :=
  text "<contact>" ++ xmlEscape contact ++ text "</contact>"

/-- What the start of an event appends to `mLaterElement`. -/
def CallEvent.later : CallEvent → Text
  | request contact _ _ _ _ => contactText contact
  | setup contact _ _ _ => contactText contact
  | failure _ _ statusCode statusMsg =>
    text "<response><status>" ++ intText statusCode.toInt ++ text "</status><reason>" ++
      xmlEscape statusMsg ++ text "</reason></response>"
  | _ => []

/-- A tag of the dialog, which is left out when it is a null string. -/
def tagText (start : Text) (tag : Text) (stop : Text) : Text :=
  if tag = [] then [] else start ++ xmlEscape tag ++ stop

/-- What `addCallData` appends to `mCallInfo`. -/
def CallData.callText (d : CallData) : Text :=
  text "<call><dialog><call_id>" ++ xmlEscape d.callId ++ text "</call_id>" ++
    tagText (text "<from_tag>") d.fromTag (text "</from_tag>") ++
    tagText (text "<to_tag>") d.toTag (text "</to_tag>") ++
    text "</dialog><from>" ++ xmlEscape d.fromField ++ text "</from><to>" ++
    xmlEscape d.toField ++ text "</to></call>"

/-- The element of a Via. -/
def viaText (via : Text) : Text := text "<via>" ++ xmlEscape via ++ text "</via>"

namespace BuilderXML

/-- Take a step of the state machine; `none` is a failed assertion. -/
def proceed (b : BuilderXML) (method : BuilderMethod) : Option BuilderXML :=
  let r := builderStateIsOk method b.buildState
  if r.1 then some { b with buildState := r.2 } else none

def reset (b : BuilderXML) : BuilderXML :=
  { b with
    currentEvent := []
    callInfo := []
    viaHeader := []
    laterElement := []
    endElement := []
    eventComplete := false }

/-- `newEvent`.  The number is printed into a buffer of eleven bytes. -/
def newEvent (b : BuilderXML) (sequenceNumber : Int32) (timestamp : SqlTime) (elementStart : Text) :
    BuilderXML :=
  { b with
    currentEvent :=
      text "<call_event><observer>" ++ xmlEscape b.observer.name ++ text "</observer><obs_seq>" ++
        intText sequenceNumber.toInt ++ text "</obs_seq><obs_time>" ++ timestamp.isoText ++
        text "</obs_time>" ++ elementStart }

/-- `observerEvent` with `ObserverReset`. -/
def observerEvent (b : BuilderXML) (sequenceNumber : Int32) (timestamp : SqlTime)
    (eventMsg : Text) : Option BuilderXML := do
  let b ← b.reset.proceed .builderReset
  let b := b.newEvent sequenceNumber timestamp (text "<obs_msg><obs_status>")
  return { b with
    currentEvent := b.currentEvent ++ text "101" ++ text "</obs_status><obs_text>" ++
      xmlEscape (cString eventMsg) ++
      text "</obs_text><uri>http://www.sipfoundry.org/sipX/schema/xml/cse-01-00</uri></obs_msg>"
    eventComplete := true }

/-- `callRequestEvent`, `callSetupEvent`, `callFailureEvent` and `callEndEvent`.
`callTransferEvent` does nothing. -/
def startEvent (b : BuilderXML) (sequenceNumber : Int32) (timestamp : SqlTime) (e : CallEvent) :
    Option BuilderXML :=
  match e with
  | .transfer .. => some b
  | _ => do
      let b ← b.proceed e.method
      let b := b.newEvent sequenceNumber timestamp e.elementStart
      return { b with
        laterElement := b.laterElement ++ e.later
        endElement := e.elementEnd }

def addCallData (b : BuilderXML) (d : CallData) : Option BuilderXML := do
  let b ← b.proceed .addCallData
  return { b with callInfo := b.callInfo ++ d.callText }

def addEventVia (b : BuilderXML) (via : Text) : Option BuilderXML := do
  let b ← b.proceed .addVia
  return { b with viaHeader := viaText via ++ b.viaHeader }

def completeCallEvent (b : BuilderXML) : Option BuilderXML := do
  let b ← b.proceed .completeCallEvent
  return { b with eventComplete := true }

/-- The element, if the event is complete. -/
def finishElement (b : BuilderXML) : Bool × Text × BuilderXML :=
  if b.eventComplete then
    (true, b.currentEvent ++ b.callInfo ++ b.laterElement ++ b.viaHeader ++ b.endElement ++
      text "</call_event>" ++ text "\n", b.reset)
  else (false, [], b)

/-- The method as the builder runs it; a rejected call leaves it as it is. -/
def step (b : BuilderXML) : Call → BuilderXML
  | .observerEvent sequenceNumber timestamp eventMsg =>
    (b.observerEvent sequenceNumber timestamp eventMsg).getD b
  | .startEvent sequenceNumber timestamp event =>
    (b.startEvent sequenceNumber timestamp event).getD b
  | .addCallData data => (b.addCallData data).getD b
  | .addEventVia via => (b.addEventVia via).getD b
  | .completeCallEvent => b.completeCallEvent.getD b
  | .finishElement => b.finishElement.2.2

/-- What the caller sees.  `callTransferEvent` does not ask the state machine. -/
def outcome (b : BuilderXML) : Call → Outcome
  | .observerEvent .. => .taken (builderStateIsOk .builderReset b.buildState).1
  | .startEvent _ _ (.transfer ..) => .taken false
  | .startEvent _ _ event => .taken (builderStateIsOk event.method b.buildState).1
  | .addCallData _ => .taken (builderStateIsOk .addCallData b.buildState).1
  | .addEventVia _ => .taken (builderStateIsOk .addVia b.buildState).1
  | .completeCallEvent => .taken (builderStateIsOk .completeCallEvent b.buildState).1
  | .finishElement => .finished (if b.finishElement.1 then some b.finishElement.2.1 else none)

/-- The number fits into a buffer of eleven bytes. -/
def Fits (n : Int32) : Prop := (intText n.toInt).length ≤ 10

/-- The numbers of a call fit in the buffers they are printed to. -/
def NumbersFit : Call → Prop
  | .observerEvent sequenceNumber _ _ => Fits sequenceNumber
  | .startEvent sequenceNumber _ (.failure _ _ statusCode _) =>
    Fits sequenceNumber ∧ Fits statusCode
  | .startEvent sequenceNumber _ _ => Fits sequenceNumber
  | _ => True

/-- The calls that the builder for XML handles as documented: those in their turn whose numbers
fit, but for a transfer between two events. -/
def Allowed (b : BuilderXML) (c : Call) : Prop :=
  InTurn b.buildState b.eventComplete c ∧ NumbersFit c ∧
  (c.method = some .callTransferEvent → b.buildState ≠ betweenEvents)

instance decidableNumbersFit : ∀ c, Decidable (NumbersFit c)
  | .observerEvent sequenceNumber _ _ =>
    inferInstanceAs (Decidable ((intText sequenceNumber.toInt).length ≤ 10))
  | .startEvent sequenceNumber _ (.failure _ _ statusCode _) =>
    inferInstanceAs (Decidable ((intText sequenceNumber.toInt).length ≤ 10 ∧
      (intText statusCode.toInt).length ≤ 10))
  | .startEvent sequenceNumber _ (.request ..)
  | .startEvent sequenceNumber _ (.setup ..)
  | .startEvent sequenceNumber _ .callEnd
  | .startEvent sequenceNumber _ (.transfer ..) =>
    inferInstanceAs (Decidable ((intText sequenceNumber.toInt).length ≤ 10))
  | .addCallData _ | .addEventVia _ | .completeCallEvent | .finishElement =>
    inferInstanceAs (Decidable True)

instance (b : BuilderXML) (c : Call) : Decidable (b.Allowed c) :=
  inferInstanceAs (Decidable (_ ∧ _ ∧ (_ → _)))

end BuilderXML

/-! ## The builders along the documented order -/

/-- The state of the state machine while an event is built. -/
def flags (data via : Bool) : Nat :=
  callEventStarted ||| (if data then callDataAdded else 0) ||| (if via then viaAdded else 0)

/-- The state of the builder in a phase. -/
def Phase.buildState : Phase → Nat
  | initial => 0
  | betweenEvents => CallStateEventBuilder.betweenEvents
  | building _ data vias => flags data.isSome !vias.isEmpty

theorem builderStateIsOk_start (e : CallEvent) (phase : Phase) :
    builderStateIsOk e.method phase.buildState =
      match phase with
      | .betweenEvents => (true, callEventStarted)
      | _ => (false, phase.buildState) := by
  have hmethod : e.method.startsEvent = true := by cases e <;> rfl
  generalize e.method = m at hmethod
  have hinitial : builderStateIsOk m 0 = (false, 0) := by
    cases m <;> first | exact absurd hmethod Bool.false_ne_true | decide
  have hbetween : builderStateIsOk m betweenEvents = (true, callEventStarted) := by
    cases m <;> first | exact absurd hmethod Bool.false_ne_true | decide
  have hflags : ∀ data via, builderStateIsOk m (flags data via) = (false, flags data via) := by
    rintro (_ | _) (_ | _) <;>
      (cases m <;> first | exact absurd hmethod Bool.false_ne_true | decide)
  cases phase with
  | initial => exact hinitial
  | betweenEvents => exact hbetween
  | building start data vias => exact hflags _ _

theorem builderStateIsOk_addCallData (data via : Bool) :
    builderStateIsOk .addCallData (flags data via) = (!data, flags true via) := by
  cases data <;> cases via <;> decide

theorem builderStateIsOk_addVia (data via : Bool) :
    builderStateIsOk .addVia (flags data via) = (true, flags data true) := by
  cases data <;> cases via <;> decide

variable {c : Call} {m : BuilderMethod} {s : Documented}

/-- **A call in its turn** is accepted as documented. -/
theorem builderStateIsOk_of_inTurn
    (hm : c.method = some m) {eventComplete : Bool} (hc : InTurn s.phase.buildState eventComplete c) :
    builderStateIsOk m s.phase.buildState = (s.accepts c, (s.step c).phase.buildState) := by
  obtain ⟨phase, waiting⟩ := s
  cases c with
  | observerEvent _ _ _ =>
    obtain rfl : BuilderMethod.builderReset = m := Option.some.inj hm
    rfl
  | startEvent _ _ e =>
    obtain rfl : e.method = m := Option.some.inj hm
    cases phase <;> exact builderStateIsOk_start e _
  | addCallData _ =>
    obtain rfl : BuilderMethod.addCallData = m := Option.some.inj hm
    rcases phase with _ | _ | ⟨_, _ | _, vias⟩
    · exact (by decide : builderStateIsOk .addCallData 0 = (false, 0))
    · exact absurd rfl hc
    · exact builderStateIsOk_addCallData false _
    · exact builderStateIsOk_addCallData true _
  | addEventVia via =>
    obtain rfl : BuilderMethod.addVia = m := Option.some.inj hm
    rcases phase with _ | _ | ⟨_, data, vias⟩
    · exact (by decide : builderStateIsOk .addVia 0 = (false, 0))
    · exact absurd rfl hc
    · have hflag : (!(vias ++ [via]).isEmpty) = true := by simp
      refine (builderStateIsOk_addVia _ _).trans ?_
      simp only [Documented.accepts, Documented.step, Phase.buildState, hflag]
  | completeCallEvent =>
    obtain rfl : BuilderMethod.completeCallEvent = m := Option.some.inj hm
    rcases phase with _ | _ | ⟨_, data, vias⟩
    · exact (by decide : builderStateIsOk .completeCallEvent 0 = (false, 0))
    · exact absurd (show betweenEvents = 0 ∨ betweenEvents = _ from hc) (by decide)
    · -- the flags say that nothing is missing
      have hall : ∀ data via, (flags data via = 0 ∨
          flags data via = callEventStarted ||| callDataAdded ||| viaAdded) →
          data = true ∧ via = true := by decide
      obtain ⟨hdata, hvias⟩ := hall _ _ hc
      obtain ⟨data, rfl⟩ := Option.isSome_iff_exists.mp hdata
      cases vias with
      | nil => exact absurd hvias Bool.false_ne_true
      | cons via vias =>
        exact (by decide : builderStateIsOk .completeCallEvent (flags true true) =
          (true, betweenEvents))
  | finishElement => exact absurd hm (by simp [Call.method])

/-- An event waits only between two events. -/
def Documented.Sane (s : Documented) : Prop :=
  match s.phase with
  | .betweenEvents => True
  | _ => s.waiting = none

theorem Documented.Sane.step (hs : s.Sane)
    (hc : InTurn s.phase.buildState s.waiting.isSome c) : (s.step c).Sane := by
  obtain ⟨phase, waiting⟩ := s
  cases c with
  | observerEvent _ _ _ => trivial
  | startEvent _ _ _ =>
    cases phase with
    | betweenEvents =>
      have hwaiting : waiting.isSome = false := hc rfl
      exact Option.isSome_eq_false_iff.mp hwaiting |> Option.isNone_iff_eq_none.mp
    | _ => exact hs
  | addCallData _ =>
    rcases phase with _ | _ | ⟨_, _ | _, _⟩ <;> exact hs
  | addEventVia _ =>
    rcases phase with _ | _ | ⟨_, _, _⟩ <;> exact hs
  | completeCallEvent =>
    rcases phase with _ | _ | ⟨_, _ | _, _ | _⟩ <;> first | exact hs | trivial
  | finishElement =>
    cases phase <;> trivial

/-! ### XML -/

/-- The parts common to all events. -/
def eventHeader (o : ObserverName) (sequenceNumber : Int32) (timestamp : SqlTime) : Text :=
  text "<call_event><observer>" ++ xmlEscape o.name ++ text "</observer><obs_seq>" ++
    intText sequenceNumber.toInt ++ text "</obs_seq><obs_time>" ++ timestamp.isoText ++
    text "</obs_time>"

/-- The message of the observer. -/
def observerText (eventMsg : Text) : Text :=
  text "<obs_msg><obs_status>" ++ text "101" ++ text "</obs_status><obs_text>" ++
    xmlEscape (cString eventMsg) ++
    text "</obs_text><uri>http://www.sipfoundry.org/sipX/schema/xml/cse-01-00</uri></obs_msg>"

/-- The element of a complete event. -/
def Record.xml (o : ObserverName) : Record → Text
  | observer sequenceNumber timestamp eventMsg =>
    eventHeader o sequenceNumber timestamp ++ observerText eventMsg ++ text "</call_event>\n"
  | call start data vias =>
    eventHeader o start.sequenceNumber start.timestamp ++ start.event.elementStart ++
      data.callText ++ start.event.later ++ vias.reverse.flatMap viaText ++
      start.event.elementEnd ++ text "</call_event>\n"

variable {e : CallEvent} {o : ObserverName}

namespace BuilderXML

/-- The builder while an event is built. -/
def draft (o : ObserverName) (buildState : Nat) (start : Start) (data : Option CallData)
    (vias : List Text) : BuilderXML where
  observer := o
  buildState := buildState
  currentEvent := eventHeader o start.sequenceNumber start.timestamp ++ start.event.elementStart
  callInfo := data.elim [] CallData.callText
  viaHeader := vias.reverse.flatMap viaText
  laterElement := start.event.later
  endElement := start.event.elementEnd

def observing (o : ObserverName) (sequenceNumber : Int32) (timestamp : SqlTime) (eventMsg : Text) :
    BuilderXML where
  observer := o
  buildState := betweenEvents
  currentEvent := eventHeader o sequenceNumber timestamp ++ observerText eventMsg
  eventComplete := true

/-- The builder at a point of the documented order. -/
def expected (o : ObserverName) (s : Documented) : BuilderXML :=
  match s.phase, s.waiting with
  | .building start data vias, _ =>
    draft o (Phase.building start data vias).buildState start data vias
  | phase, some (.call start data vias) =>
    { draft o phase.buildState start (some data) vias with eventComplete := true }
  | phase, some (.observer sequenceNumber timestamp eventMsg) =>
    { observing o sequenceNumber timestamp eventMsg with buildState := phase.buildState }
  | phase, none => { observer := o, buildState := phase.buildState }

theorem expected_buildState (o : ObserverName) (s : Documented) :
    (expected o s).buildState = s.phase.buildState := by
  obtain ⟨_ | _ | _, _ | _ | _⟩ := s <;> rfl

theorem expected_observer (o : ObserverName) (s : Documented) : (expected o s).observer = o := by
  obtain ⟨_ | _ | _, _ | _ | _⟩ := s <;> rfl

theorem expected_eventComplete (o : ObserverName) (hs : s.Sane) :
    (expected o s).eventComplete = s.waiting.isSome := by
  obtain ⟨_ | _ | _, _ | _ | _⟩ := s <;> first | rfl | exact absurd hs (by simp [Documented.Sane])

theorem proceed_expected
    (hm : c.method = some m) (hc : (expected o s).Allowed c) :
    (expected o s).proceed m =
      if s.accepts c then
        some { expected o s with buildState := (s.step c).phase.buildState }
      else none := by
  have hturn := hc.1
  rw [expected_buildState] at hturn
  rw [proceed, expected_buildState, builderStateIsOk_of_inTurn hm hturn]

/-- Whatever was there before is cleared. -/
theorem observerEvent_eq (b : BuilderXML) (sequenceNumber : Int32) (timestamp : SqlTime)
    (eventMsg : Text) : b.observerEvent sequenceNumber timestamp eventMsg =
      some (observing b.observer sequenceNumber timestamp eventMsg) := by
  have hok : b.reset.proceed .builderReset =
      some { observer := b.observer, buildState := betweenEvents } := rfl
  simp only [observerEvent, hok, Option.bind_eq_bind, Option.bind_some, Option.pure_def, newEvent,
    observing, observerText, append_assoc, eventHeader]

theorem step_startEvent {sequenceNumber : Int32} {timestamp : SqlTime}
    (hc : (expected o s).Allowed (.startEvent sequenceNumber timestamp e)) :
    (expected o s).step (.startEvent sequenceNumber timestamp e) =
      expected o (s.step (.startEvent sequenceNumber timestamp e)) := by
  have hproceed := proceed_expected (m := e.method) rfl hc
  obtain ⟨phase, waiting⟩ := s
  cases phase with
  | betweenEvents =>
    cases waiting with
    | some r =>
      have hcomplete := expected_eventComplete o (s := ⟨.betweenEvents, some r⟩) trivial
      exact absurd (hcomplete.symm.trans (hc.1 (expected_buildState _ _))) (by simp)
    | none =>
      cases e with
      | transfer _ _ _ _ => exact absurd (expected_buildState _ _) (hc.2.2 rfl)
      | _ =>
        simp only [step, startEvent, hproceed]
        rfl
  | _ => cases e <;> first | rfl | (simp only [step, startEvent, hproceed]; rfl)

/-- **One call** of the builder for XML follows the documented order. -/
theorem step_expected (hs : s.Sane)
    (hc : (expected o s).Allowed c) : (expected o s).step c = expected o (s.step c) := by
  cases c with
  | observerEvent sequenceNumber timestamp eventMsg =>
    rw [step, observerEvent_eq, expected_observer]
    rfl
  | startEvent sequenceNumber timestamp event => exact step_startEvent hc
  | addCallData data =>
    rw [step, addCallData, proceed_expected rfl hc]
    obtain ⟨_ | _ | ⟨_, _ | _, _⟩, _⟩ := s <;> rfl
  | addEventVia via =>
    rw [step, addEventVia, proceed_expected rfl hc]
    rcases s with ⟨_ | _ | ⟨start, data, vias⟩, _⟩
    · rfl
    · rfl
    · simp only [Documented.step, expected, draft, reverse_append, reverse_singleton,
        singleton_append, flatMap_cons]
      rfl
  | completeCallEvent =>
    rw [step, completeCallEvent, proceed_expected rfl hc]
    obtain ⟨_ | _ | ⟨_, _ | _, _ | _⟩, _⟩ := s <;> rfl
  | finishElement =>
    rcases s with ⟨_ | _ | _, waiting⟩
    · obtain rfl : waiting = none := hs
      rfl
    · rcases waiting with _ | _ | _ <;> rfl
    · rfl

theorem accepts_expected (hm : c.method = some m) (hc : (expected o s).Allowed c) :
    (builderStateIsOk m (expected o s).buildState).1 = s.accepts c := by
  have hturn := hc.1
  rw [expected_buildState] at hturn
  rw [expected_buildState, builderStateIsOk_of_inTurn hm hturn]

theorem outcome_expected (hs : s.Sane)
    (hc : (expected o s).Allowed c) : (expected o s).outcome c = s.outcome (Record.xml o) c := by
  cases c with
  | observerEvent _ _ _ => rfl
  | startEvent _ _ e =>
    have haccepts := accepts_expected (m := e.method) rfl hc
    cases e with
    | transfer _ _ _ _ =>
      have hphase : s.phase.buildState ≠ betweenEvents := expected_buildState o s ▸ hc.2.2 rfl
      rcases s with ⟨_ | _ | _, _⟩
      · rfl
      · exact absurd rfl hphase
      · rfl
    | _ => exact congrArg Outcome.taken haccepts
  | addCallData _ => exact congrArg Outcome.taken (accepts_expected rfl hc)
  | addEventVia _ => exact congrArg Outcome.taken (accepts_expected rfl hc)
  | completeCallEvent => exact congrArg Outcome.taken (accepts_expected rfl hc)
  | finishElement =>
    rcases s with ⟨_ | _ | _, waiting⟩
    · obtain rfl : waiting = none := hs
      rfl
    · rcases waiting with _ | _ | _
      · rfl
      · simp only [outcome, finishElement, expected, observing, Documented.outcome, Option.map_some,
          Record.xml, if_true, append_nil, append_assoc]
        rfl
      · simp only [outcome, finishElement, expected, draft, Documented.outcome, Option.map_some,
          Record.xml, if_true, append_assoc, Option.elim_some]
        rfl
    · obtain rfl : waiting = none := hs
      rfl

end BuilderXML

/-! ### The database -/

/-- The statement of a complete event. -/
def Record.sql (o : ObserverName) : Record → Text
  | observer sequenceNumber timestamp eventMsg =>
    ((ready o).newEvent sequenceNumber timestamp observerEventTable none).currentEvent ++
      printed 256 (text "101,'" ++ cString eventMsg ++ [Sql.quote]) ++ text ");"
  | call start data _ => statement o start.sequenceNumber start.timestamp start.event data

namespace Builder

/-- The builder while an event is built. -/
def draft (o : ObserverName) (buildState : Nat) (start : Start) (data : Option CallData) : Builder :=
  { started o start.sequenceNumber start.timestamp start.event with
    buildState := buildState
    callInfo := data.elim defaultElement CallData.callInfo }

def observing (o : ObserverName) (sequenceNumber : Int32) (timestamp : SqlTime) (eventMsg : Text) :
    Builder where
  observer := o
  buildState := betweenEvents
  currentEvent := ((ready o).newEvent sequenceNumber timestamp observerEventTable none).currentEvent ++
    printed 256 (text "101,'" ++ cString eventMsg ++ [Sql.quote])
  eventComplete := true

/-- The builder at a point of the documented order. -/
def expected (o : ObserverName) (s : Documented) : Builder :=
  match s.phase, s.waiting with
  | .building start data vias, _ => draft o (Phase.building start data vias).buildState start data
  | .betweenEvents, some (.call start data _) =>
    { draft o betweenEvents start (some data) with eventComplete := true }
  | .betweenEvents, some (.observer sequenceNumber timestamp eventMsg) =>
    observing o sequenceNumber timestamp eventMsg
  | .betweenEvents, none => ready o
  | .initial, _ => { observer := o }

/-- The calls that the builder for the database handles as documented. -/
def Allowed (b : Builder) (c : Call) : Prop := InTurn b.buildState b.eventComplete c

instance (b : Builder) (c : Call) : Decidable (b.Allowed c) := decidableInTurn _ _ c

theorem expected_buildState (o : ObserverName) (s : Documented) :
    (expected o s).buildState = s.phase.buildState := by
  obtain ⟨_ | _ | _, _ | _ | _⟩ := s <;> rfl

theorem expected_observer (o : ObserverName) (s : Documented) : (expected o s).observer = o := by
  obtain ⟨_ | _ | _, _ | _ | _⟩ := s <;> rfl

theorem expected_eventComplete (o : ObserverName) (hs : s.Sane) :
    (expected o s).eventComplete = s.waiting.isSome := by
  obtain ⟨_ | _ | _, _ | _ | _⟩ := s <;> first | rfl | exact absurd hs (by simp [Documented.Sane])

theorem accepts_expected (hm : c.method = some m) (hc : (expected o s).Allowed c) :
    builderStateIsOk m (expected o s).buildState = (s.accepts c, (s.step c).phase.buildState) := by
  rw [Allowed, expected_buildState] at hc
  rw [expected_buildState, builderStateIsOk_of_inTurn hm hc]

theorem proceed_expected
    (hm : c.method = some m) (hc : (expected o s).Allowed c) :
    (expected o s).proceed m =
      if s.accepts c then
        some { expected o s with buildState := (s.step c).phase.buildState }
      else none := by
  rw [proceed, accepts_expected hm hc]

theorem observerEvent_eq (b : Builder) (sequenceNumber : Int32) (timestamp : SqlTime)
    (eventMsg : Text) :
    b.observerEvent sequenceNumber timestamp (cString eventMsg) =
      some (observing b.observer sequenceNumber timestamp eventMsg) := rfl

theorem startEvent_eq_none {b : Builder} (h : b.proceed e.method = none)
    (sequenceNumber : Int32) (timestamp : SqlTime) :
    b.startEvent sequenceNumber timestamp e = none := by
  cases e <;> exact congrArg (Option.bind · _) h

theorem step_startEvent {sequenceNumber : Int32} {timestamp : SqlTime}
    (hc : (expected o s).Allowed (.startEvent sequenceNumber timestamp e)) :
    (expected o s).step (.startEvent sequenceNumber timestamp e) =
      expected o (s.step (.startEvent sequenceNumber timestamp e)) := by
  have hproceed := proceed_expected (m := e.method) rfl hc
  obtain ⟨phase, waiting⟩ := s
  cases phase with
  | betweenEvents =>
    cases waiting with
    | some r =>
      have hcomplete := expected_eventComplete o (s := ⟨.betweenEvents, some r⟩) trivial
      exact absurd (hcomplete.symm.trans (hc (expected_buildState _ _))) (by simp)
    | none =>
      show ((ready o).startEvent sequenceNumber timestamp e).getD _ = _
      rw [startEvent_ready]
      rfl
  | _ =>
    rw [step, startEvent_eq_none hproceed]
    rfl

/-- **One call** of the builder for the database follows the documented order. -/
theorem step_expected (hs : s.Sane)
    (hc : (expected o s).Allowed c) : (expected o s).step c = expected o (s.step c) := by
  cases c with
  | observerEvent sequenceNumber timestamp eventMsg =>
    rw [step, observerEvent_eq, expected_observer]
    rfl
  | startEvent sequenceNumber timestamp event => exact step_startEvent hc
  | addCallData data =>
    rw [step, addCallData, proceed_expected rfl hc]
    obtain ⟨_ | _ | ⟨_, _ | _, _⟩, _ | _ | _⟩ := s <;> rfl
  | addEventVia via =>
    rw [step, addEventVia, proceed_expected rfl hc]
    obtain ⟨_ | _ | _, _ | _ | _⟩ := s <;> rfl
  | completeCallEvent =>
    rw [step, completeCallEvent, proceed_expected rfl hc]
    obtain ⟨_ | _ | ⟨_, _ | _, _ | _⟩, _ | _ | _⟩ := s <;> rfl
  | finishElement =>
    rcases s with ⟨_ | _ | _, waiting⟩
    · rfl
    · rcases waiting with _ | _ | _ <;> rfl
    · rfl

theorem outcome_expected (hs : s.Sane)
    (hc : (expected o s).Allowed c) : (expected o s).outcome c = s.outcome (Record.sql o) c := by
  have htaken : ∀ m, c.method = some m →
      (builderStateIsOk m (expected o s).buildState).1 = s.accepts c := fun m hm => by
    rw [accepts_expected hm hc]
  cases c with
  | observerEvent _ _ _ => rfl
  | startEvent _ _ e => exact congrArg Outcome.taken (htaken _ rfl)
  | addCallData _ => exact congrArg Outcome.taken (htaken _ rfl)
  | addEventVia _ => exact congrArg Outcome.taken (htaken _ rfl)
  | completeCallEvent => exact congrArg Outcome.taken (htaken _ rfl)
  | finishElement =>
    rcases s with ⟨_ | _ | _, waiting⟩
    · obtain rfl : waiting = none := hs
      rfl
    · rcases waiting with _ | _ | _
      · rfl
      · simp only [outcome, finishElement, expected, observing, Documented.outcome, Option.map_some,
          Record.sql, if_true, append_nil, append_assoc]
      · simp only [outcome, finishElement, expected, draft, Documented.outcome, Option.map_some,
          Record.sql, if_true, Option.elim_some, statement, started, newEvent, CallData.callInfo,
          append_assoc]
        rfl
    · obtain rfl : waiting = none := hs
      rfl

end Builder

/-! ## Balanced elements -/

open Xml (Content startTag closeTag)

theorem content_leaf (name : Text) (hname : Xml.isName name = true) (t : Text) :
    Content (startTag name ++ xmlEscape t ++ closeTag name) := by
  rw [xmlEscape_eq]
  exact (Content.escape t).element name hname

theorem isPlain_of_isTimeByte {c : Byte} (hc : isTimeByte c = true) : Xml.isPlain c = true := by
  have hall : ∀ c, isTimeByte c = true → Xml.isPlain c = true := by decide +kernel
  exact hall c hc

theorem content_intText (n : Int) : Content (intText n) := by
  have hdigits : ∀ n, ∀ c ∈ natText n, Xml.isPlain c = true := fun n c hc =>
    isPlain_of_isTimeByte (by simp [isTimeByte, isDigit_of_mem_natText c hc])
  cases n with
  | ofNat n => exact Content.plain (hdigits n)
  | negSucc n => exact Content.plain (forall_mem_cons.mpr ⟨by decide, hdigits _⟩)

theorem content_isoText (t : SqlTime) : Content t.isoText := by
  have hsep : ∀ s ∈ [text "-", text "T", text ":", text ".", text "Z"], ∀ c ∈ s,
      Xml.isPlain c = true := by decide
  have hnumber : ∀ width n, ∀ pad ∈ [' ', '0'], ∀ c ∈ padded width pad n, Xml.isPlain c = true := by
    intro width n pad hpad c hc
    have hpad' : isTimeByte (byte pad) = true := by
      simp only [mem_cons, not_mem_nil, or_false] at hpad
      rcases hpad with rfl | rfl <;> decide
    exact isPlain_of_isTimeByte (isTimeByte_padded width hpad' n c hc)
  refine Content.plain fun c hc => ?_
  simp only [SqlTime.isoText, mem_append] at hc
  rcases hc with ((((((((((((hc | hc) | hc) | hc) | hc) | hc) | hc) | hc) | hc) | hc) | hc) | hc) |
    hc) | hc
  all_goals first
    | exact hnumber _ _ _ (by simp) c hc
    | exact hsep _ (by simp) c hc

theorem content_contactText (contact : Text) : Content (contactText contact) :=
  content_leaf (text "contact") (by decide) contact

theorem content_viaText (via : Text) : Content (viaText via) :=
  content_leaf (text "via") (by decide) via

theorem content_later (e : CallEvent) : Content e.later := by
  cases e with
  | request contact _ _ _ _ => exact content_contactText contact
  | setup contact _ _ _ => exact content_contactText contact
  | failure _ _ statusCode statusMsg =>
    have hstatus := (content_intText statusCode.toInt).element (text "status") (by decide)
    have hreason := content_leaf (text "reason") (by decide) statusMsg
    have hresponse := (hstatus.append hreason).element (text "response") (by decide)
    simp only [append_assoc] at hresponse
    simp only [CallEvent.later, append_assoc]
    exact hresponse
  | callEnd => exact Content.nil
  | transfer _ _ _ _ => exact Content.nil

theorem content_tagText (name : Text) (hname : Xml.isName name = true) (tag : Text) :
    Content (tagText (startTag name) tag (closeTag name)) := by
  unfold tagText
  split
  · exact Content.nil
  · exact content_leaf name hname tag

theorem content_callText (d : CallData) : Content d.callText := by
  have hcallId := content_leaf (text "call_id") (by decide) d.callId
  have hfromTag := content_tagText (text "from_tag") (by decide) d.fromTag
  have htoTag := content_tagText (text "to_tag") (by decide) d.toTag
  have hdialog := ((hcallId.append hfromTag).append htoTag).element (text "dialog") (by decide)
  have hfrom := content_leaf (text "from") (by decide) d.fromField
  have hto := content_leaf (text "to") (by decide) d.toField
  have hcall := ((hdialog.append hfrom).append hto).element (text "call") (by decide)
  simp only [append_assoc] at hcall
  simp only [CallData.callText, append_assoc]
  exact hcall

theorem parse_eventHeader (o : ObserverName) (sequenceNumber : Int32) (timestamp : SqlTime)
    {piece : Text} (hpiece : Content piece) :
    ∃ children, Xml.parse (eventHeader o sequenceNumber timestamp ++ piece ++ text "</call_event>\n") =
      some [.element (text "call_event") children, .text (text "\n")] := by
  have hobserver := content_leaf (text "observer") (by decide) o.name
  have hseq := (content_intText sequenceNumber.toInt).element (text "obs_seq") (by decide)
  have htime := (content_isoText timestamp).element (text "obs_time") (by decide)
  obtain ⟨children, h⟩ := (((hobserver.append hseq).append htime).append hpiece).parse_element
    (text "call_event") (by decide) (byte '\n') (by decide)
  refine ⟨children, ?_⟩
  simp only [append_assoc] at h
  simp only [eventHeader, append_assoc]
  exact h

theorem content_callEvent (e : CallEvent) {piece : Text} (hpiece : Content piece) :
    Content (e.elementStart ++ piece ++ e.elementEnd) := by
  cases e with
  | request _ _ _ _ _ => exact hpiece.element (text "call_request") (by decide)
  | setup _ _ _ _ => exact hpiece.element (text "call_setup") (by decide)
  | failure _ _ _ _ => exact hpiece.element (text "call_failure") (by decide)
  | callEnd => exact hpiece.element (text "call_end") (by decide)
  | transfer _ _ _ _ =>
    rw [CallEvent.elementStart, CallEvent.elementEnd, nil_append, append_nil]
    exact hpiece

theorem content_observerText (eventMsg : Text) : Content (observerText eventMsg) := by
  have hstatus := (Content.plain (t := text "101") (by decide)).element (text "obs_status")
    (by decide)
  have htext := content_leaf (text "obs_text") (by decide) (cString eventMsg)
  have huri := (Content.plain (t := text "http://www.sipfoundry.org/sipX/schema/xml/cse-01-00")
    (by decide)).element (text "uri") (by decide)
  have hmsg := ((hstatus.append htext).append huri).element (text "obs_msg") (by decide)
  simp only [append_assoc] at hmsg
  simp only [observerText, append_assoc]
  exact hmsg

/-- **A complete event** is one balanced element. -/
theorem parse_xml (o : ObserverName) (r : Record) :
    ∃ children, Xml.parse (r.xml o) =
      some [.element (text "call_event") children, .text (text "\n")] := by
  cases r with
  | observer sequenceNumber timestamp eventMsg =>
    exact parse_eventHeader o _ _ (content_observerText eventMsg)
  | call start data vias =>
    have hvias : Content (vias.reverse.flatMap viaText) :=
      Content.flatMap fun via _ => content_viaText via
    have hbody := ((content_callText data).append (content_later start.event)).append hvias
    obtain ⟨children, h⟩ := parse_eventHeader o start.sequenceNumber start.timestamp
      (content_callEvent start.event hbody)
    refine ⟨children, ?_⟩
    simp only [append_assoc] at h
    simp only [Record.xml, append_assoc]
    exact h

/-! ## Runs -/

/-- The documented run of calls. -/
def Documented.run (calls : List Call) : Documented := calls.foldl Documented.step {}

def BuilderXML.run (o : ObserverName) (calls : List Call) : BuilderXML :=
  calls.foldl BuilderXML.step { observer := o }

/-- A builder behind a list of calls. -/
def Builder.run (o : ObserverName) (calls : List Call) : Builder :=
  calls.foldl Builder.step { observer := o }

/-- **What is documented, for XML**: behind a list of calls the next one is accepted when it is in
its turn, `finishElement` gives the element of the event that the calls describe, and that is one
balanced element. -/
def BuilderXML.AsDocumented (o : ObserverName) (calls : List Call) (c : Call) : Prop :=
  (run o calls).outcome c = (Documented.run calls).outcome (Record.xml o) c ∧
  ∀ t, (run o calls).outcome c = .finished (some t) →
    ∃ children, Xml.parse t = some [.element (text "call_event") children, .text (text "\n")]

/-- **What is documented, for the database**: the statement is that of the event that the calls
describe. -/
def Builder.AsDocumented (o : ObserverName) (calls : List Call) (c : Call) : Prop :=
  (run o calls).outcome c = (Documented.run calls).outcome (Record.sql o) c

variable {calls : List Call}

theorem BuilderXML.run_eq
    (h : Run.AllAllowed BuilderXML.step BuilderXML.Allowed { observer := o } calls) :
    run o calls = expected o (Documented.run calls) ∧ (Documented.run calls).Sane := by
  refine h.simulates (R := fun b s => b = expected o s ∧ s.Sane) (t := {}) ⟨rfl, rfl⟩ ?_
  rintro b s c ⟨rfl, hs⟩ hc
  refine ⟨step_expected hs hc, hs.step ?_⟩
  rw [← expected_buildState o, ← expected_eventComplete o hs]
  exact hc.1

theorem Builder.run_eq
    (h : Run.AllAllowed Builder.step Builder.Allowed { observer := o } calls) :
    run o calls = expected o (Documented.run calls) ∧ (Documented.run calls).Sane := by
  refine h.simulates (R := fun b s => b = expected o s ∧ s.Sane) (t := {}) ⟨rfl, rfl⟩ ?_
  rintro b s c ⟨rfl, hs⟩ hc
  refine ⟨step_expected hs hc, hs.step ?_⟩
  rw [← expected_buildState o, ← expected_eventComplete o hs]
  exact hc

theorem BuilderXML.asDocumented_of_run_eq
    (heq : run o calls = expected o (Documented.run calls)) (hs : (Documented.run calls).Sane)
    (hc : (run o calls).Allowed c) : AsDocumented o calls c := by
  have houtcome : (run o calls).outcome c = (Documented.run calls).outcome (Record.xml o) c := by
    rw [heq] at hc ⊢
    exact outcome_expected hs hc
  refine ⟨houtcome, fun t ht => ?_⟩
  rw [houtcome] at ht
  cases c with
  | finishElement =>
    obtain ⟨r, -, rfl⟩ := Option.map_eq_some_iff.mp (Outcome.finished.inj ht)
    exact parse_xml o r
  | _ => exact Outcome.noConfusion ht

/-- **The order of calls.**  As long as no part of an event is added between two events, no event
is completed before its call data and a Via, none is started while another waits to be collected,
and, for XML, no transfer is started and the numbers fit their buffers, both builders do what is
documented. -/
theorem calls_as_documented (o : ObserverName) (calls : List Call) (c : Call) :
    (Run.AllAllowed BuilderXML.step BuilderXML.Allowed { observer := o } calls →
      (BuilderXML.run o calls).Allowed c → BuilderXML.AsDocumented o calls c) ∧
    (Run.AllAllowed Builder.step Builder.Allowed { observer := o } calls →
      (Builder.run o calls).Allowed c → Builder.AsDocumented o calls c) := by
  constructor
  · intro hcalls hc
    obtain ⟨heq, hs⟩ := BuilderXML.run_eq hcalls
    exact BuilderXML.asDocumented_of_run_eq heq hs hc
  · intro hcalls hc
    obtain ⟨heq, hs⟩ := Builder.run_eq hcalls
    rw [heq] at hc
    rw [Builder.AsDocumented, heq]
    exact Builder.outcome_expected hs hc

/-- The calls of one event behind a restart. -/
def oneRequest : List Call :=
  [.observerEvent 0 ⟨2009, 4, 1, 0, 0, 0, 0⟩ (text "restart"), .finishElement,
    .startEvent 1 ⟨2009, 4, 1, 0, 0, 1, 0⟩ plainRequest, .addCallData quotedPairCall,
    .addEventVia (text "SIP/2.0/UDP h"), .completeCallEvent]

theorem oneRequest_as_documented :
    BuilderXML.AsDocumented shortObserver oneRequest .finishElement ∧
    Builder.AsDocumented shortObserver oneRequest .finishElement := by
  constructor
  · exact (calls_as_documented shortObserver oneRequest .finishElement).1 (by decide) (by decide)
  · exact (calls_as_documented shortObserver oneRequest .finishElement).2 (by decide) (by decide)

/-- Between two events, a completion is accepted and the element that follows is an end tag; and
behind a transfer, which the builder for XML takes no notice of, no Via is accepted. -/
theorem completed_between_events :
    let restarted : List Call :=
      [.observerEvent 0 ⟨2009, 4, 1, 0, 0, 0, 0⟩ (text "restart"), .finishElement]
    let transferred : List Call := restarted ++
      [.startEvent 1 ⟨2009, 4, 1, 0, 0, 1, 0⟩ (.transfer [] [] [] []), .addCallData quotedPairCall]
    ¬ BuilderXML.AsDocumented shortObserver restarted .completeCallEvent ∧
    (BuilderXML.run shortObserver (restarted ++ [.completeCallEvent])).outcome .finishElement =
      .finished (some (text "</call_event>\n")) ∧
    Xml.parse (text "</call_event>\n") = none ∧
    ¬ BuilderXML.AsDocumented shortObserver transferred (.addEventVia (text "SIP/2.0/UDP h")) ∧
    ¬ Builder.AsDocumented shortObserver restarted .completeCallEvent := by
  refine ⟨fun h => ?_, rfl, rfl, fun h => ?_, fun h => ?_⟩
  · exact absurd h.1 (by decide)
  · exact absurd h.1 (by decide)
  · exact absurd h (by unfold Builder.AsDocumented; decide)

end SipXRouter.CallStateEventBuilder
