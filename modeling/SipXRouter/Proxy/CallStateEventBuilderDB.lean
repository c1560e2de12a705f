import SipXRouter.Sql

/-!
# Call events for the database

`CallStateEventBuilder_DB` writes one INSERT statement for each call event.  Its
texts come from SIP messages.  Most of them go through `replaceSingleQuotes`, which
puts a backslash in front of each quote and leaves the backslashes of the text as
they are; the reason phrase of a failure is printed into a buffer of 256 bytes as it
is.
-/

namespace SipXRouter.CallStateEventBuilder

open List Sql

/-! ## The order of calls -/

/-- The methods of a builder, as its table of states names them. -/
inductive BuilderMethod where
  | builderReset | callRequestEvent | callSetupEvent | callFailureEvent | callEndEvent
  | callTransferEvent | addCallData | addVia | completeCallEvent
deriving DecidableEq

def BuilderMethod.startsEvent : BuilderMethod → Bool
  | callRequestEvent | callSetupEvent | callFailureEvent | callEndEvent | callTransferEvent => true
  | _ => false

/-- `BuildStates`: `BetweenEvents`, and three flags that are combined. -/
def betweenEvents : Nat := 1
def callEventStarted : Nat := 2
def callDataAdded : Nat := 4
def viaAdded : Nat := 8

/-- The case of the `switch` that a state enters; the last two do nothing. -/
def stateCase (buildState : Nat) : Nat :=
  if buildState = 0 then 5
  else if buildState = betweenEvents then 1
  else if buildState = callEventStarted ∨ buildState = callEventStarted ||| viaAdded then 2
  else if buildState = callEventStarted ||| callDataAdded then 3
  else if buildState = callEventStarted ||| callDataAdded ||| viaAdded then 4
  else 5

/-- `builderStateIsOk`.  No case but the first ends with a `break`, so that each one runs
on into those behind it. -/
def builderStateIsOk (method : BuilderMethod) (buildState : Nat) : Bool × Nat :=
  if method = .builderReset then (true, betweenEvents)
  else
    let entry := stateCase buildState
    let r := (false, buildState)
    let r := if entry ≤ 1 ∧ method.startsEvent then (true, callEventStarted) else r
    let r :=
      if entry ≤ 2 then
        if method = .addCallData then (true, r.2 ||| callDataAdded)
        else if method = .addVia then (true, r.2 ||| viaAdded)
        else r
      else r
    let r := if entry ≤ 3 ∧ method = .addVia then (true, r.2 ||| viaAdded) else r
    if entry ≤ 4 then
      if method = .addVia then (true, r.2)
      else if method = .completeCallEvent then (true, betweenEvents)
      else r
    else r

/-! ## Texts -/

/-- `UtlString::index`, of a byte from a position on. -/
def index (c : Byte) (value : Text) (start : Nat) : Option Nat :=
  ((value.drop start).findIdx? (· == c)).map (start + ·)

/-- The loop of `replaceSingleQuotes`. -/
def replaceLoop : Nat → Nat → Text → Text
  | 0, _, value => value
  | n + 1, start, value =>
    match index quote value start with
    | none => value
    | some i => replaceLoop n (i + 2) (value.take i ++ [backslash, quote] ++ value.drop (i + 1))

/-- A backslash is put in front of each quote. -/
def replaceSingleQuotes (value : Text) : Text := replaceLoop (value.length + 1) 0 value

/-- `snprintf` of C strings and numbers into a buffer. -/
def printed (size : Nat) (s : Text) : Text := s.take (size - 1)

/-- A text between quotes, with the comma behind it. -/
def element (value : Text) : Text := [quote] ++ replaceSingleQuotes value ++ [quote, byte ',']

/-- A time as `getSqlTimeStringZ` prints it. -/
structure SqlTime where
  year : Nat
  month : Nat
  day : Nat
  hour : Nat
  minute : Nat
  second : Nat
  millisecond : Nat
deriving DecidableEq

/-- A number with a byte in front up to a width. -/
def padded (width : Nat) (pad : Char) (n : Nat) : Text :=
  replicate (width - (natText n).length) (byte pad) ++ natText n

/-- `getSqlTimeStringZ`. -/
def SqlTime.toText (t : SqlTime) : Text :=
  padded 4 ' ' t.year ++ text "-" ++ padded 2 '0' t.month ++ text "-" ++ padded 2 '0' t.day ++
    text " " ++ padded 2 '0' t.hour ++ text ":" ++ padded 2 '0' t.minute ++ text ":" ++
    padded 2 '0' t.second ++ text "." ++ padded 3 '0' t.millisecond

/-- The name of the observer: a DNS name that leaves room in the buffer. -/
structure ObserverName where
  name : Text
  isHost : ∀ c ∈ name, (isAlnum c || c == byte '.' || c == byte '-') = true
  length_le : name.length ≤ 183

/-! ## The builder -/

/-- The members of the class that `finishElement` uses. -/
structure Builder where
  observer : ObserverName
  buildState : Nat := 0
  currentEvent : Text := []
  callInfo : Text := []
  contactElement : Text := []
  referElement : Text := []
  failureElement : Text := []
  requestUri : Text := []
  references : Text := []
  callerInternal : Text := []
  calleeRoute : Text := []
  branchId : Text := []
  viaCount : Text := []
  eventComplete : Bool := false

/-- `ObserverEventTable` and `CallEventTable`. -/
def observerEventTable : Text := text "observer_state_events"
def callEventTable : Text := text "call_state_events"

/-- `CallEvent_DefaultElement`, `CallEvent_NoFailure` and `CallEvent_DefaultBoolElement`. -/
def defaultElement : Text := text "'',"
def noFailure : Text := text "0,'',"
def defaultBoolElement : Text := text "null,"

namespace Builder

/-- Take a step of the state machine; `none` is a failed assertion. -/
def proceed (b : Builder) (method : BuilderMethod) : Option Builder :=
  let r := builderStateIsOk method b.buildState
  if r.1 then some { b with buildState := r.2 } else none

def reset (b : Builder) : Builder :=
  { b with
    currentEvent := []
    callInfo := defaultElement
    contactElement := defaultElement
    referElement := defaultElement ++ defaultElement
    failureElement := noFailure
    requestUri := defaultElement
    references := defaultElement
    callerInternal := defaultBoolElement
    calleeRoute := defaultElement
    branchId := defaultElement
    viaCount := text "0"
    eventComplete := false }

/-- `newEvent`.  The event of an observer has no type. -/
def newEvent (b : Builder) (sequenceNumber : Int32) (timestamp : SqlTime) (eventTable : Text)
    (eventType : Option Char) : Builder :=
  { b with
    currentEvent :=
      printed 256 (insertInto eventTable ++ text "DEFAULT,'" ++ b.observer.name ++ text "'," ++
        intText sequenceNumber.toInt ++ text ",timestamp '") ++
      timestamp.toText ++ [quote, byte ','] ++
      match eventType with
      | none => []
      | some c => [quote, byte c, quote, byte ','] }

/-- `observerEvent` with `ObserverReset`. -/
def observerEvent (b : Builder) (sequenceNumber : Int32) (timestamp : SqlTime) (eventMsg : Text) :
    Option Builder := do
  let b ← b.reset.proceed .builderReset
  let b := b.newEvent sequenceNumber timestamp observerEventTable none
  return { b with
    currentEvent := b.currentEvent ++ printed 256 (text "101,'" ++ eventMsg ++ [quote])
    callInfo := []
    referElement := []
    contactElement := []
    failureElement := []
    requestUri := []
    references := []
    callerInternal := []
    calleeRoute := []
    branchId := []
    viaCount := []
    eventComplete := true }

/-- The statement, if the event is complete. -/
def finishElement (b : Builder) : Bool × Text × Builder :=
  if b.eventComplete then
    (true, b.currentEvent ++ b.callInfo ++ b.contactElement ++ b.referElement ++ b.failureElement ++
      b.requestUri ++ b.references ++ b.callerInternal ++ b.calleeRoute ++ b.branchId ++
      b.viaCount ++ text ");", b.reset)
  else (false, [], b)

end Builder

/-! ## Call events -/

/-- The calls that start an event, with their arguments. -/
inductive CallEvent where
  | request (contact references branchId : Text) (viaCount : Int32) (callerInternal : Bool)
  | setup (contact calleeRoute branchId : Text) (viaCount : Int32)
  | failure (branchId : Text) (viaCount statusCode : Int32) (statusMsg : Text)
  | callEnd
  | transfer (contact referTo referredBy requestUri : Text)
deriving DecidableEq

/-- The arguments of `addCallData`. -/
structure CallData where
  cseqNumber : Int32
  callId : Text
  fromTag : Text
  toTag : Text
  fromField : Text
  toField : Text
deriving DecidableEq

/-- The element of a failure. -/
def failureText (statusCode : Int32) (statusMsg : Text) : Text :=
  printed 256 (intText statusCode.toInt ++ text ",'" ++ cString statusMsg ++ [quote, byte ','])

namespace Builder

/-- `callRequestEvent`, `callSetupEvent`, `callFailureEvent`, `callEndEvent` and
`callTransferEvent`. -/
def startEvent (b : Builder) (sequenceNumber : Int32) (timestamp : SqlTime) :
    CallEvent → Option Builder
  | .request contact references branchId viaCount callerInternal => do
      let b ← b.proceed .callRequestEvent
      return { b.newEvent sequenceNumber timestamp callEventTable (some 'R') with
        contactElement := element contact
        references := element references
        callerInternal := if callerInternal then text "'t'," else text "'f',"
        branchId := element branchId
        viaCount := printed 10 (intText viaCount.toInt) }
  | .setup contact calleeRoute branchId viaCount => do
      let b ← b.proceed .callSetupEvent
      return { b.newEvent sequenceNumber timestamp callEventTable (some 'S') with
        contactElement := element contact
        calleeRoute := element calleeRoute
        branchId := element branchId
        viaCount := printed 10 (intText viaCount.toInt) }
  | .failure branchId viaCount statusCode statusMsg => do
      let b ← b.proceed .callFailureEvent
      return { b.newEvent sequenceNumber timestamp callEventTable (some 'F') with
        failureElement := failureText statusCode statusMsg
        branchId := element branchId
        viaCount := printed 256 (intText viaCount.toInt) }
  | .callEnd => do
      let b ← b.proceed .callEndEvent
      return { b.newEvent sequenceNumber timestamp callEventTable (some 'E') with
        failureElement := noFailure }
  | .transfer contact referTo referredBy requestUri => do
      let b ← b.proceed .callTransferEvent
      return { b.newEvent sequenceNumber timestamp callEventTable (some 'T') with
        contactElement := element contact
        referElement := element referTo ++ element referredBy
        requestUri := element requestUri }

def addCallData (b : Builder) (d : CallData) : Option Builder := do
  let b ← b.proceed .addCallData
  return { b with
    callInfo := printed 31 (intText d.cseqNumber.toInt ++ [byte ',']) ++ element d.callId ++
      element d.fromTag ++ element d.toTag ++ element d.fromField ++ element d.toField }

/-- `addEventVia`, which only takes a step of the state machine. -/
def addEventVia (b : Builder) (_via : Text) : Option Builder := b.proceed .addVia

def completeCallEvent (b : Builder) : Option Builder := do
  let b ← b.proceed .completeCallEvent
  return { b with eventComplete := true }

end Builder

/-- One event: its start, the call data, the Vias, and the statement. -/
def buildEvent (b : Builder) (sequenceNumber : Int32) (timestamp : SqlTime) (e : CallEvent)
    (d : CallData) (vias : List Text) : Option (Bool × Text × Builder) := do
  let b ← b.startEvent sequenceNumber timestamp e
  let b ← b.addCallData d
  let b ← vias.foldlM Builder.addEventVia b
  let b ← b.completeCallEvent
  return b.finishElement

/-! ## What is given -/

namespace CallEvent

def eventType : CallEvent → Char
  | request .. => 'R'
  | setup .. => 'S'
  | failure .. => 'F'
  | callEnd => 'E'
  | transfer .. => 'T'

/-- The contact, or an empty text where the event has none; and so on. -/
def contact : CallEvent → Text
  | request contact _ _ _ _ => contact
  | setup contact _ _ _ => contact
  | transfer contact _ _ _ => contact
  | _ => []

def referTo : CallEvent → Text
  | transfer _ referTo _ _ => referTo
  | _ => []

def referredBy : CallEvent → Text
  | transfer _ _ referredBy _ => referredBy
  | _ => []

def statusMsg : CallEvent → Text
  | failure _ _ _ statusMsg => statusMsg
  | _ => []

def requestUri : CallEvent → Text
  | transfer _ _ _ requestUri => requestUri
  | _ => []

def references : CallEvent → Text
  | request _ references _ _ _ => references
  | _ => []

def callerInternal : CallEvent → Option Text
  | request _ _ _ _ callerInternal => some (if callerInternal then text "t" else text "f")
  | _ => none

def calleeRoute : CallEvent → Text
  | setup _ calleeRoute _ _ => calleeRoute
  | _ => []

def branchId : CallEvent → Text
  | request _ _ branchId _ _ => branchId
  | setup _ _ branchId _ => branchId
  | failure branchId _ _ _ => branchId
  | _ => []

def failureElement : CallEvent → Text
  | failure _ _ statusCode statusMsg => failureText statusCode statusMsg
  | _ => noFailure

/-- The element of the caller's side. -/
def callerInternalElement : CallEvent → Text
  | request _ _ _ _ callerInternal => if callerInternal then text "'t'," else text "'f',"
  | _ => defaultBoolElement

/-- The number of Vias as it is printed. -/
def viaCountText : CallEvent → Text
  | request _ _ _ viaCount _ => printed 10 (intText viaCount.toInt)
  | setup _ _ _ viaCount => printed 10 (intText viaCount.toInt)
  | failure _ viaCount _ _ => printed 256 (intText viaCount.toInt)
  | _ => text "0"

end CallEvent

/-- The statement of an event with its data. -/
def statement (o : ObserverName) (sequenceNumber : Int32) (timestamp : SqlTime) (e : CallEvent)
    (d : CallData) : Text :=
  printed 256 (insertInto callEventTable ++ text "DEFAULT,'" ++ o.name ++ text "'," ++
      intText sequenceNumber.toInt ++ text ",timestamp '") ++
    (timestamp.toText ++ [quote, byte ','] ++ [quote, byte e.eventType, quote, byte ',']) ++
    (printed 31 (intText d.cseqNumber.toInt ++ [byte ',']) ++ element d.callId ++
      element d.fromTag ++ element d.toTag ++ element d.fromField ++ element d.toField) ++
    element e.contact ++ (element e.referTo ++ element e.referredBy) ++ e.failureElement ++
    element e.requestUri ++ element e.references ++ e.callerInternalElement ++
    element e.calleeRoute ++ element e.branchId ++ e.viaCountText ++ text ");"

/-- The texts that its values should have. -/
def given (o : ObserverName) (timestamp : SqlTime) (e : CallEvent) (d : CallData) :
    List (Option Text) :=
  [none, some o.name, none, some timestamp.toText, some [byte e.eventType], none, some d.callId,
    some d.fromTag, some d.toTag, some d.fromField, some d.toField, some e.contact,
    some e.referTo, some e.referredBy, none, some e.statusMsg, some e.requestUri,
    some e.references, e.callerInternal, some e.calleeRoute, some e.branchId, none]

/-- A builder between two events. -/
def ready (o : ObserverName) : Builder :=
  Builder.reset { observer := o, buildState := betweenEvents }

theorem foldlM_addEventVia (vias : List Text) {b : Builder}
    (hstate : b.buildState = 6 ∨ b.buildState = 14) :
    ∃ buildState, (buildState = 6 ∨ buildState = 14) ∧
      vias.foldlM Builder.addEventVia b = some { b with buildState := buildState } := by
  induction vias generalizing b with
  | nil => exact ⟨b.buildState, hstate, rfl⟩
  | cons via vias ih =>
    have hstep : b.addEventVia via = some { b with buildState := 14 } := by
      have hok : builderStateIsOk .addVia b.buildState = (true, 14) := by
        rcases hstate with h | h <;> rw [h] <;> decide
      simp [Builder.addEventVia, Builder.proceed, hok]
    obtain ⟨buildState, hstate', hrest⟩ := ih (b := { b with buildState := 14 }) (Or.inr rfl)
    refine ⟨buildState, hstate', ?_⟩
    rw [foldlM_cons, hstep]
    exact hrest

/-- The builder behind the start of an event. -/
def started (o : ObserverName) (sequenceNumber : Int32) (timestamp : SqlTime) (e : CallEvent) :
    Builder :=
  { (ready o).newEvent sequenceNumber timestamp callEventTable (some e.eventType) with
    buildState := callEventStarted
    contactElement := element e.contact
    referElement := element e.referTo ++ element e.referredBy
    failureElement := e.failureElement
    requestUri := element e.requestUri
    references := element e.references
    callerInternal := e.callerInternalElement
    calleeRoute := element e.calleeRoute
    branchId := element e.branchId
    viaCount := e.viaCountText }

theorem startEvent_ready (o : ObserverName) (sequenceNumber : Int32) (timestamp : SqlTime)
    (e : CallEvent) : (ready o).startEvent sequenceNumber timestamp e =
      some (started o sequenceNumber timestamp e) := by
  cases e <;> rfl

def CallData.callInfo (d : CallData) : Text :=
  printed 31 (intText d.cseqNumber.toInt ++ [byte ',']) ++ element d.callId ++
    element d.fromTag ++ element d.toTag ++ element d.fromField ++ element d.toField

theorem addCallData_of_started {b : Builder} (hstate : b.buildState = callEventStarted)
    (d : CallData) : b.addCallData d = some { b with buildState := 6, callInfo := d.callInfo } := by
  have hok : builderStateIsOk .addCallData callEventStarted = (true, 6) := by decide
  simp only [Builder.addCallData, Builder.proceed, hstate, hok, if_true]
  rfl

/-- **A builder between two events** makes the statement and is between two events
again. -/
theorem buildEvent_ready (o : ObserverName) (sequenceNumber : Int32) (timestamp : SqlTime)
    (e : CallEvent) (d : CallData) (vias : List Text) :
    buildEvent (ready o) sequenceNumber timestamp e d vias =
      some (true, statement o sequenceNumber timestamp e d, ready o) := by
  have hdata := addCallData_of_started (b := started o sequenceNumber timestamp e) rfl d
  obtain ⟨buildState, hstate, hvias⟩ := foldlM_addEventVia vias
    (b := { started o sequenceNumber timestamp e with buildState := 6, callInfo := d.callInfo })
    (Or.inl rfl)
  have hcomplete : builderStateIsOk .completeCallEvent buildState = (true, betweenEvents) := by
    rcases hstate with rfl | rfl <;> decide
  simp only [buildEvent, startEvent_ready, hdata, hvias, Option.bind_eq_bind, Option.bind_some,
    Builder.completeCallEvent, Builder.proceed, hcomplete, if_true, Option.pure_def,
    Builder.finishElement]
  refine congrArg some (Prod.ext rfl (Prod.ext ?_ rfl))
  simp only [statement, started, Builder.newEvent, CallData.callInfo, append_assoc]
  rfl

/-! ## What is read -/

theorem encode_of_not_mem {x : Text} (hx : quote ∉ x) : encode true x = x := by
  induction x with
  | nil => rfl
  | cons c x ih =>
    have hc : c ≠ quote := fun hc => hx (by simp [hc])
    rw [encode_cons, if_neg fun h => hc h.1, ih fun h => hx (mem_cons_of_mem _ h)]
    rfl

theorem encode_append (quotes : Bool) (x y : Text) :
    encode quotes (x ++ y) = encode quotes x ++ encode quotes y := flatMap_append

theorem findIdx?_quote_eq_none {x : Text} (hx : quote ∉ x) : x.findIdx? (· == quote) = none := by
  refine findIdx?_eq_none_iff.mpr fun c hc => beq_eq_false_iff_ne.mpr ?_
  rintro rfl
  exact hx hc

/-- The loop doubles every quote. -/
theorem replaceLoop_eq (n : Nat) {rest : Text} (hn : rest.count quote < n) (done : Text) :
    replaceLoop n done.length (done ++ rest) = done ++ encode true rest := by
  induction n generalizing done rest with
  | zero => exact absurd hn (Nat.not_lt_zero _)
  | succ n ih =>
    by_cases hquote : quote ∈ rest
    · obtain ⟨before, after, rfl, hbefore⟩ := eq_append_cons_of_mem hquote
      have hindex : index quote (done ++ (before ++ quote :: after)) done.length =
          some (done.length + before.length) := by
        have hfind : (before ++ quote :: after).findIdx? (· == quote) = some before.length := by
          rw [findIdx?_append, findIdx?_quote_eq_none hbefore, findIdx?_cons,
            beq_self_eq_true]
          simp
        rw [index, drop_left, hfind]
        rfl
      have htake : (done ++ (before ++ quote :: after)).take (done.length + before.length) =
          done ++ before := by
        rw [← append_assoc]
        exact take_left' (length_append ..)
      have hdrop : (done ++ (before ++ quote :: after)).drop (done.length + before.length + 1) =
          after := by
        rw [show done ++ (before ++ quote :: after) = (done ++ before ++ [quote]) ++ after by simp]
        exact drop_left' (by simp; omega)
      have hcount : after.count quote < n := by
        rw [count_append, count_cons_self] at hn
        omega
      have hlength : done.length + before.length + 2 =
          (done ++ before ++ [backslash, quote]).length := by
        simp only [length_append, length_cons, length_nil]
      rw [replaceLoop, hindex]
      dsimp only
      rw [htake, hdrop, hlength, ih hcount, encode_append, encode_of_not_mem hbefore, encode_cons]
      simp
    · have hindex : index quote (done ++ rest) done.length = none := by
        rw [index, drop_left, findIdx?_quote_eq_none hquote]
        rfl
      rw [replaceLoop, hindex, encode_of_not_mem hquote]

/-- `replaceSingleQuotes` puts a backslash in front of each quote, and does nothing about
the backslashes that are there. -/
theorem replaceSingleQuotes_eq (value : Text) : replaceSingleQuotes value = encode true value :=
  replaceLoop_eq (value.length + 1) (Nat.lt_succ_of_le count_le_length) []

section Reads

variable {n : Nat} {rest : Text} {strings : List (Option Text)}

theorem says_element {x : Text} :
    Says (n + 1) (element x ++ rest) (some x :: strings) ↔ backslash ∉ x ∧ Says n rest strings := by
  have hshape : element x ++ rest = quote :: (encode true x ++ quote :: byte ',' :: rest) := by
    simp [element, replaceSingleQuotes_eq]
  have hclean : Clean true x ↔ backslash ∉ x :=
    ⟨fun h => h.1, fun h => ⟨h, fun hf => absurd hf.symm Bool.false_ne_true⟩⟩
  rw [hshape, says_quoted, hclean]

theorem isNumberByte_of_mem_intText {i : Int} : ∀ c ∈ intText i, isNumberByte c = true := by
  intro c hc
  cases i with
  | ofNat k => simp [isNumberByte, isDigit_of_mem_natText c hc]
  | negSucc k =>
    rcases mem_cons.mp hc with rfl | hc
    · decide
    · simp [isNumberByte, isDigit_of_mem_natText c hc]

theorem intText_ne_nil (i : Int) : intText i ≠ [] := by
  cases i with
  | ofNat k => exact natText_ne_nil k
  | negSucc k => exact cons_ne_nil _ _

/-- An `int` has at most ten digits and a sign. -/
theorem length_intText_le (i : Int32) : (intText i.toInt).length ≤ 11 := by
  have hlow := i.le_toInt
  have hhigh := i.toInt_lt
  have hnat {k : Nat} (hk : k < 10 ^ 10) : (natText k).length ≤ 10 := by
    rw [natText, length_map]
    exact (Nat.length_toDigits_le_iff (by decide) (by decide)).mpr hk
  cases hi : i.toInt with
  | ofNat k =>
    rw [hi] at hhigh
    exact (hnat (by simp at hhigh; omega)).trans (by decide)
  | negSucc k =>
    rw [hi] at hlow
    exact Nat.succ_le_succ (hnat (by omega))

theorem says_number {digits : Text} (hne : digits ≠ [])
    (hdigits : ∀ c ∈ digits, isNumberByte c = true) :
    Says (n + 1) (digits ++ byte ',' :: rest) (none :: strings) ↔ Says n rest strings :=
  says_of_value (readValue_number hne hdigits (by decide))

/-- The reason phrase has no quote, no backslash and no NUL, and leaves room in the
buffer. -/
def ReasonFits (statusCode : Int32) (statusMsg : Text) : Prop :=
  Clean false statusMsg ∧ 0 ∉ statusMsg ∧
    (intText statusCode.toInt).length + statusMsg.length + 4 ≤ 255

theorem exists_eq_cString_append (s : Text) : ∃ z, s = cString s ++ z ∧ (z = [] → 0 ∉ s) := by
  refine ⟨s.dropWhile (· != 0), takeWhile_append_dropWhile.symm, fun hnil hmem => ?_⟩
  exact absurd (dropWhile_eq_nil_iff.mp hnil 0 hmem) (by decide)

/-- What does not fit into the buffer loses the comma at least, and an empty element
follows. -/
theorem not_says_of_cut {digits reason z : Text} (hdigits : digits.length ≤ 11)
    (hcut : 255 < digits.length + reason.length + 4) : ¬ Says (n + 1)
      (quote :: ((reason ++ [quote, byte ',']).take (253 - digits.length) ++
        quote :: quote :: byte ',' :: rest)) (some (reason ++ z) :: strings) := by
  intro h
  by_cases hreason : 253 - digits.length ≤ reason.length
  · -- the reason itself is cut, and the quote that ends it is that of the next element
    rw [take_append_of_le_length hreason] at h
    have hsplit : reason ++ z = reason.take (253 - digits.length) ++
        (reason.drop (253 - digits.length) ++ z) := by
      rw [← append_assoc, take_append_drop]
    rw [hsplit] at h
    rcases (clean_of_quoted h).2.2 with hend | ⟨rest', hrest, -⟩
    · exact absurd (cons_eq_cons.mp hend).1 (by decide)
    · exact absurd (cons_eq_cons.mp hrest).1 (by decide)
  · have htake : (reason ++ [quote, byte ',']).take (253 - digits.length) = reason ++ [quote] := by
      rw [take_append, take_of_length_le (by omega),
        show 253 - digits.length - reason.length = 1 by omega]
      rfl
    rw [htake, append_assoc] at h
    rcases (clean_of_quoted h).2.2 with hend | ⟨rest', hrest, -⟩
    · exact absurd (cons_eq_cons.mp hend).1 (by decide)
    · exact absurd (cons_eq_cons.mp hrest).1 (by decide)

/-- **The reason phrase** comes back exactly when it fits. -/
theorem says_failureText {statusCode : Int32} {statusMsg : Text} :
    Says (n + 2) (failureText statusCode statusMsg ++ quote :: quote :: byte ',' :: rest)
        (none :: some statusMsg :: strings) ↔
      ReasonFits statusCode statusMsg ∧ Says n (quote :: quote :: byte ',' :: rest) strings := by
  have hdigits := length_intText_le statusCode
  obtain ⟨z, hz, hnul⟩ := exists_eq_cString_append statusMsg
  have hshape : failureText statusCode statusMsg =
      intText statusCode.toInt ++ byte ',' :: quote ::
        (cString statusMsg ++ [quote, byte ',']).take (253 - (intText statusCode.toInt).length) := by
    rw [failureText, printed, append_assoc, append_assoc, take_append,
      take_of_length_le (by omega),
      show 256 - 1 - (intText statusCode.toInt).length =
        (253 - (intText statusCode.toInt).length) + 1 + 1 by omega]
    rfl
  rw [hshape, append_assoc, cons_append, cons_append,
    says_number (intText_ne_nil _) isNumberByte_of_mem_intText]
  have hzero : 0 ∉ statusMsg → cString statusMsg = statusMsg := cString_of_notMem
  generalize cString statusMsg = reason at hz hzero ⊢
  by_cases hfits : (intText statusCode.toInt).length + reason.length + 4 ≤ 255
  · have htake : (reason ++ [quote, byte ',']).take (253 - (intText statusCode.toInt).length) =
        reason ++ [quote, byte ','] := by
      refine take_of_length_le ?_
      simp only [length_append, length_cons, length_nil]
      omega
    rw [htake, append_assoc]
    constructor
    · intro h
      rw [hz] at h
      obtain ⟨hclean, rfl, hrest⟩ := clean_of_quoted h
      rw [append_nil] at hz
      subst hz
      refine ⟨⟨hclean, hnul rfl, hfits⟩, ?_⟩
      rcases hrest with hend | ⟨rest', heq, htold⟩
      · exact absurd (cons_eq_cons.mp hend).1 (by decide)
      · obtain ⟨-, rfl⟩ := cons_eq_cons.mp heq
        exact htold
    · rintro ⟨⟨hclean, hmem, -⟩, hrest⟩
      rw [hzero hmem]
      have htold := says_quoted.mpr ⟨hclean, hrest⟩
      rwa [encode_false] at htold
  · refine iff_of_false ?_ ?_
    · rw [hz]
      exact not_says_of_cut hdigits (by omega)
    · rintro ⟨⟨-, hmem, hle⟩, -⟩
      rw [hzero hmem] at hfits
      exact hfits hle

theorem says_default :
    Says (n + 1) (text "DEFAULT" ++ byte ',' :: rest) (none :: strings) ↔ Says n rest strings :=
  says_of_value readValue_default

theorem says_timestamp {x : Text} (hclean : Clean false x) :
    Says (n + 1) (text "timestamp '" ++ (x ++ quote :: byte ',' :: rest)) (some x :: strings) ↔
      Says n rest strings :=
  says_of_value (readValue_timestamp hclean)

theorem says_plain {x : Text} (hclean : Clean false x) :
    Says (n + 1) (quote :: (x ++ quote :: byte ',' :: rest)) (some x :: strings) ↔
      Says n rest strings := by
  have hiff : Says (n + 1) (quote :: (encode false x ++ quote :: byte ',' :: rest))
      (some x :: strings) ↔ Clean false x ∧ Says n rest strings := says_quoted
  rw [encode_false] at hiff
  rw [hiff]
  exact and_iff_right hclean

end Reads

/-! ## The statement -/

/-- The reason phrase of a failure fits. -/
def CallEvent.ReasonFits : CallEvent → Prop
  | failure _ _ statusCode statusMsg =>
    CallStateEventBuilder.ReasonFits statusCode statusMsg
  | _ => True

/-- No text has a backslash, and the reason phrase fits. -/
def TextsFit (e : CallEvent) (d : CallData) : Prop :=
  (∀ x ∈ [d.callId, d.fromTag, d.toTag, d.fromField, d.toField, e.contact, e.referTo,
    e.referredBy, e.requestUri, e.references, e.calleeRoute, e.branchId], backslash ∉ x) ∧
  e.ReasonFits

/-- **The statement is what it should be**: one INSERT into the table of call events with
nothing behind it, whose values are as many as there are columns and have the texts that
were given. -/
def Faithful (s : Text) (strings : List (Option Text)) : Prop :=
  ∃ values, readInsert callEventTable s = some values ∧ values.map Value.string? = strings

theorem clean_of_class {p : Byte → Bool} (hquote : p quote = false) (hbackslash : p backslash = false)
    {x : Text} (hx : ∀ c ∈ x, p c = true) : Clean false x := by
  constructor
  · intro hmem
    exact absurd ((hx _ hmem).symm.trans hbackslash) Bool.noConfusion
  · intro _ hmem
    exact absurd ((hx _ hmem).symm.trans hquote) Bool.noConfusion

def isTimeByte (c : Byte) : Bool := isDigit c || oneOf " -:." c

theorem isTimeByte_padded (width : Nat) {pad : Char} (hpad : isTimeByte (byte pad) = true) (n : Nat) :
    ∀ c ∈ padded width pad n, isTimeByte c = true := by
  intro c hc
  rcases mem_append.mp hc with hc | hc
  · rw [eq_of_mem_replicate hc]
    exact hpad
  · simp [isTimeByte, isDigit_of_mem_natText c hc]

theorem clean_time (t : SqlTime) : Clean false t.toText := by
  refine clean_of_class (p := isTimeByte) (by decide) (by decide) ?_
  have hsep : ∀ s ∈ [text "-", text " ", text ":", text "."], ∀ c ∈ s, isTimeByte c = true := by
    decide
  intro c hc
  simp only [SqlTime.toText, mem_append] at hc
  rcases hc with (((((((((((hc | hc) | hc) | hc) | hc) | hc) | hc) | hc) | hc) | hc) | hc) | hc) | hc
  all_goals first
    | exact isTimeByte_padded _ (by decide) _ c hc
    | exact hsep _ (by simp) c hc

theorem clean_observer (o : ObserverName) : Clean false o.name :=
  clean_of_class (by decide) (by decide) o.isHost

theorem clean_eventType (e : CallEvent) : Clean false [byte e.eventType] := by
  have hall : ∀ c ∈ text "RSFET", backslash ∉ [c] ∧ quote ∉ [c] := by decide
  have hmem : byte e.eventType ∈ text "RSFET" := by cases e <;> simp [CallEvent.eventType, text]
  exact ⟨(hall _ hmem).1, fun _ => (hall _ hmem).2⟩

section Statement

variable (o : ObserverName) (sequenceNumber : Int32) (timestamp : SqlTime) (e : CallEvent)
  (d : CallData)

/-- The values behind those of the call. -/
def statementTail (e : CallEvent) : Text :=
  e.failureElement ++ (element e.requestUri ++ (element e.references ++
    (e.callerInternalElement ++ (element e.calleeRoute ++ (element e.branchId ++
      (e.viaCountText ++ text ");"))))))

/-- The buffers are large enough for all but the reason phrase. -/
theorem statement_eq :
    statement o sequenceNumber timestamp e d =
      insertInto callEventTable ++ (text "DEFAULT" ++ byte ',' :: quote :: (o.name ++ quote ::
        byte ',' :: (intText sequenceNumber.toInt ++ byte ',' :: (text "timestamp '" ++
        (timestamp.toText ++ quote :: byte ',' :: quote :: ([byte e.eventType] ++ quote ::
        byte ',' :: (intText d.cseqNumber.toInt ++ byte ',' :: (element d.callId ++
        (element d.fromTag ++ (element d.toTag ++ (element d.fromField ++ (element d.toField ++
        (element e.contact ++ (element e.referTo ++ (element e.referredBy ++
        statementTail e))))))))))))))) := by
  have hstart : printed 256 (insertInto callEventTable ++ text "DEFAULT,'" ++ o.name ++ text "'," ++
      intText sequenceNumber.toInt ++ text ",timestamp '") =
      insertInto callEventTable ++ text "DEFAULT,'" ++ o.name ++ text "'," ++
        intText sequenceNumber.toInt ++ text ",timestamp '" := by
    refine take_of_length_le ?_
    have hname := o.length_le
    have hdigits := length_intText_le sequenceNumber
    have h1 : (insertInto callEventTable ++ text "DEFAULT,'").length = 47 := by decide
    have h2 : (text "',").length = 2 := by decide
    have h3 : (text ",timestamp '").length = 12 := by decide
    rw [length_append, length_append, length_append, length_append, h1, h2, h3]
    omega
  have hcseq : printed 31 (intText d.cseqNumber.toInt ++ [byte ',']) =
      intText d.cseqNumber.toInt ++ [byte ','] := by
    refine take_of_length_le ?_
    have hdigits := length_intText_le d.cseqNumber
    rw [length_append, length_singleton]
    omega
  rw [statement, hstart, hcseq, statementTail,
    show text "DEFAULT,'" = text "DEFAULT" ++ [byte ',', quote] from rfl,
    show text "'," = [quote, byte ','] from rfl,
    show text ",timestamp '" = byte ',' :: text "timestamp '" from rfl]
  simp only [append_assoc, cons_append, nil_append]

/-- The values from the failure on. -/
theorem says_statementTail (n : Nat) : Says (n + 8) (statementTail e)
      [none, some e.statusMsg, some e.requestUri, some e.references, e.callerInternal,
        some e.calleeRoute, some e.branchId, none] ↔
    e.ReasonFits ∧ backslash ∉ e.requestUri ∧ backslash ∉ e.references ∧
      backslash ∉ e.calleeRoute ∧ backslash ∉ e.branchId := by
  have hzero : text "0" ≠ [] ∧ ∀ c ∈ text "0", isNumberByte c = true := by decide
  have hlast (m : Nat) : Says (m + 1) (e.viaCountText ++ text ");") [none] := by
    have hvia : e.viaCountText ≠ [] ∧ ∀ c ∈ e.viaCountText, isNumberByte c = true := by
      have hprinted (size : Nat) (i : Int) : printed (size + 2) (intText i) ≠ [] ∧
          ∀ c ∈ printed (size + 2) (intText i), isNumberByte c = true := by
        refine ⟨?_, fun c hc => isNumberByte_of_mem_intText c (mem_of_mem_take hc)⟩
        obtain ⟨c, cs, hcs⟩ := exists_cons_of_ne_nil (intText_ne_nil i)
        simp [printed, hcs]
      cases e with
      | request => exact hprinted 8 _
      | setup => exact hprinted 8 _
      | failure => exact hprinted 254 _
      | callEnd => exact hzero
      | transfer => exact hzero
    exact says_last (readValue_number hvia.1 hvia.2 (by decide))
  have hcaller (m : Nat) (rest : Text) (strings : List (Option Text)) :
      Says (m + 1) (e.callerInternalElement ++ rest) (e.callerInternal :: strings) ↔
        Says m rest strings := by
    have htrue : Clean false (text "t") := ⟨by decide, fun _ => by decide⟩
    have hfalse : Clean false (text "f") := ⟨by decide, fun _ => by decide⟩
    cases e with
    | request _ _ _ _ callerInternal =>
      cases callerInternal with
      | true => exact says_plain htrue
      | false => exact says_plain hfalse
    | _ => exact says_of_value readValue_null
  have hrest (m : Nat) :
      Says (m + 6) (element e.requestUri ++ (element e.references ++ (e.callerInternalElement ++
          (element e.calleeRoute ++ (element e.branchId ++ (e.viaCountText ++ text ");"))))))
        [some e.requestUri, some e.references, e.callerInternal, some e.calleeRoute,
          some e.branchId, none] ↔
      backslash ∉ e.requestUri ∧ backslash ∉ e.references ∧ backslash ∉ e.calleeRoute ∧
        backslash ∉ e.branchId := by
    rw [says_element, says_element, hcaller, says_element, says_element]
    simp only [hlast, and_true]
  rw [← hrest n, statementTail]
  cases e with
  | failure branchId viaCount statusCode statusMsg => exact says_failureText
  | _ =>
    refine Iff.trans (says_number hzero.1 hzero.2) ?_
    refine Iff.trans (says_plain (x := []) ⟨not_mem_nil, fun _ => not_mem_nil⟩) ?_
    exact (and_iff_right trivial).symm

/-- **Which texts make a faithful statement.**  Whatever the builder has been used for
before, the statement of an event has the values that were given exactly when no text has
a backslash, and the reason phrase of a failure has no quote, no backslash and no NUL and
leaves room in its buffer. -/
theorem faithful_iff (vias : List Text) :
    ∃ s, buildEvent (ready o) sequenceNumber timestamp e d vias = some (true, s, ready o) ∧
      (Faithful s (given o timestamp e d) ↔ TextsFit e d) := by
  refine ⟨_, buildEvent_ready o sequenceNumber timestamp e d vias, ?_⟩
  have hprefix (s : Text) : readInsert callEventTable (insertInto callEventTable ++ s) =
      readValues (insertInto callEventTable ++ s).length s := by
    rw [readInsert, if_pos (List.isPrefixOf_iff_prefix.mpr (prefix_append _ _)), drop_left]
  obtain ⟨n, hn⟩ : ∃ n, (statement o sequenceNumber timestamp e d).length = n + 22 := by
    refine Nat.exists_eq_add_of_le' ?_
    have hstart : 22 ≤ (insertInto callEventTable).length := by decide
    rw [statement_eq, length_append]
    omega
  rw [Faithful, statement_eq, hprefix, ← statement_eq, hn, ← Says, given, says_default,
    says_plain (clean_observer o), says_number (intText_ne_nil _) isNumberByte_of_mem_intText,
    says_timestamp (clean_time timestamp), says_plain (clean_eventType e),
    says_number (intText_ne_nil _) isNumberByte_of_mem_intText,
    says_element, says_element, says_element, says_element, says_element, says_element,
    says_element, says_element, says_statementTail]
  simp only [TextsFit, forall_mem_cons, not_mem_nil, false_imp_iff, implies_true,
    and_true]
  constructor
  · rintro ⟨h1, h2, h3, h4, h5, h6, h7, h8, hreason, h9, h10, h11, h12⟩
    exact ⟨⟨h1, h2, h3, h4, h5, h6, h7, h8, h9, h10, h11, h12⟩, hreason⟩
  · rintro ⟨⟨h1, h2, h3, h4, h5, h6, h7, h8, h9, h10, h11, h12⟩, hreason⟩
    exact ⟨h1, h2, h3, h4, h5, h6, h7, h8, hreason, h9, h10, h11, h12⟩

end Statement

/-- A call from someone who has a quoted pair in the display name. -/
def quotedPairCall : CallData :=
  ⟨1, text "1@h", text "a", [], text "\"O\\'Hara\" <sip:a@h>", text "sip:b@h"⟩

def plainRequest : CallEvent := .request (text "sip:a@h") [] (text "z9hG4bK1") 1 true

/-- A name of one letter. -/
def shortObserver : ObserverName := ⟨text "h", by decide, by decide⟩

/-- The quote of the pair ends the literal: with the backslash of the caller in front, the
one that `replaceSingleQuotes` puts there is an ordinary character. -/
theorem quotedPairCall_not_faithful :
    ¬ ∃ s b, buildEvent (ready shortObserver) 1 ⟨2009, 4, 1, 0, 0, 0, 0⟩
        plainRequest quotedPairCall [] = some (true, s, b) ∧
      Faithful s (given shortObserver ⟨2009, 4, 1, 0, 0, 0, 0⟩ plainRequest quotedPairCall) := by
  rintro ⟨s, b, hbuilt, values, hread, -⟩
  rw [buildEvent_ready] at hbuilt
  obtain rfl := (Prod.mk.inj (Prod.mk.inj (Option.some.inj hbuilt)).2).1
  have hnone : readInsert callEventTable (statement shortObserver 1
      ⟨2009, 4, 1, 0, 0, 0, 0⟩ plainRequest quotedPairCall) = none := by decide +kernel
  rw [hnone] at hread
  exact absurd hread (by simp)

end SipXRouter.CallStateEventBuilder
