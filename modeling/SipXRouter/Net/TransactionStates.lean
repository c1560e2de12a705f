import SipXRouter.Net.TransactionTree

/-!
# The state of a transaction

The state of one transaction, of a client or of a server, at the top of its tree or below,
while it is asked to send, receives messages, its timers go off, it is cancelled, and its
children are pursued.

## Design notes

What the transaction does not decide on its own comes with the call: the relationship of
a message, whether something could be sent, what DNS answers, what its relatives do.

`handleChildIncoming` and `handleChildTimeoutEvent` write nothing of what is kept here but
through `handleOutgoing`, `startSequentialSearch` and `recurseChildren`, and the flag that a
child hands up with a provisional response; these are calls of their own.
-/

namespace SipXRouter

namespace TransactionStates

open SipTransactionList
open TransactionTree (rank advance)

/-! ## Transactions -/

inductive Method where
  | invite
  | ack
  | cancel
  | other
deriving DecidableEq

/-- What the state machine reads of a message. -/
structure SipMessage where
  isResponse : Bool
  statusCode : Int := 0
  method : Method := .other
  hasSdpBody : Bool := false
deriving DecidableEq

/-- The fields of a transaction that its state depends on. -/
structure SipTransaction where
  isServerTransaction : Bool
  isUaTransaction : Bool
  isDnsSrvChild : Bool := false
  requestMethod : Method
  transactionState : TransactionState := .locallyInitiated
  isCanceled : Bool := false
  isRecursing : Bool := false
  hasSendAddress : Bool := false
  hasDnsDestinations : Bool := false
  isFirstDestinationValid : Bool := false
  hasChildren : Bool := false
  provisionalSdp : Bool := false
  provoExtendsTimer : Bool := false
  request : Option SipMessage := none
  lastProvisionalResponse : Option SipMessage := none
  lastFinalResponse : Option SipMessage := none
  ack : Option SipMessage := none
  cancel : Option SipMessage := none
  cancelResponse : Option SipMessage := none
deriving DecidableEq

/-- What the DNS lookup finds, and whether a child for it could be started. -/
structure DnsAnswer where
  hasDestinations : Bool
  isFirstValid : Bool
  makesChildren : Bool
  childRecursed : Bool
deriving DecidableEq

/-- What is decided elsewhere when a message is sent. -/
structure Sending where
  requiresDnsSrvLookup : Bool
  hasToAddress : Bool
  sendSucceeded : Bool
  dns : DnsAnswer
deriving DecidableEq

/-- The settings of the user agent. -/
structure Settings where
  sendTryingForNist : Bool := true
  enableHopByHopCancel : Bool := true
  isForkingEnabled : Bool := true
deriving DecidableEq

/-- `whatRelation`. -/
abbrev Relation := SipTransaction → SipMessage → Bool → MessageRelationship

variable (whatRelation : Relation)

/-- The relationship of a message, where it is not known yet. -/
def relationOf (t : SipTransaction) (message : SipMessage) (isOutGoing : Bool)
    (relationship : MessageRelationship) : MessageRelationship :=
  if relationship = .unknown then whatRelation t message isOutGoing else relationship

/-! ## Messages -/

def addResponse (t : SipTransaction) (response : SipMessage) (isOutGoing : Bool)
    (relationship : MessageRelationship) : SipTransaction :=
  match relationOf whatRelation t response isOutGoing relationship with
  | .request =>
    { t with
      request := some (t.request.getD response)
      transactionState := advance t.transactionState .calling }
  | .provisional =>
    { t with
      lastProvisionalResponse := some response
      transactionState := advance t.transactionState .proceeding
      provoExtendsTimer := t.provoExtendsTimer ||
        (!isOutGoing && decide (100 < response.statusCode) && decide (response.statusCode < 200))
      provisionalSdp := t.provisionalSdp || response.hasSdpBody }
  | .final =>
    { t with
      lastFinalResponse := some response
      transactionState := advance t.transactionState .complete }
  | .ack | .ack2xx => { t with ack := some (t.ack.getD response) }
  | .ack2xxProxy => { t with request := some (t.request.getD response) }
  | .cancel => { t with cancel := some (t.cancel.getD response) }
  | .cancelResponse => { t with cancelResponse := some (t.cancelResponse.getD response) }
  -- the message is dropped
  | _ => t

/-- The relationships with which `doFirstSend` keeps a copy of the message. -/
def isAttached : MessageRelationship → Bool
  | .request | .provisional | .final | .cancel | .cancelResponse | .ack | .ack2xx | .ack2xxProxy =>
    true
  | _ => false

def doFirstSend (t : SipTransaction) (message : SipMessage) (relationship : MessageRelationship)
    (sendSucceeded : Bool) : SipTransaction :=
  let t :=
    if isAttached relationship then addResponse whatRelation t message true relationship else t
  if relationship = .request && !sendSucceeded then { t with transactionState := .terminated }
  else t

/-- `recurseDnsSrvChildren`: the one DNS lookup of a transaction, and whether a child is
started. -/
def recurseDnsSrvChildren (t : SipTransaction) (dns : DnsAnswer) : SipTransaction :=
  let t :=
    if !t.isServerTransaction && !t.isDnsSrvChild && !t.hasDnsDestinations && t.request.isSome &&
        t.lastFinalResponse.isNone && !t.hasChildren && t.hasSendAddress &&
        decide (rank t.transactionState < rank .confirmed) then
      { t with
        transactionState := .confirmed
        hasDnsDestinations := dns.hasDestinations
        isFirstDestinationValid := dns.isFirstValid
        hasChildren := dns.makesChildren }
    else t
  if !t.isServerTransaction && !t.isDnsSrvChild && t.hasDnsDestinations &&
      t.isFirstDestinationValid && t.request.isSome && dns.childRecursed then
    { t with isRecursing := true }
  else t

/-- A message goes out. -/
def handleOutgoing (t : SipTransaction) (message : SipMessage) (relationship : MessageRelationship)
    (s : Sending) : SipTransaction :=
  let relationship := relationOf whatRelation t message true relationship
  let t := if message.isResponse then t
    else { t with hasSendAddress := t.hasSendAddress || s.hasToAddress }
  -- only a DNS child sends CANCEL requests
  if !message.isResponse && !t.isDnsSrvChild && message.method == .cancel then t
  else if !message.isResponse && s.requiresDnsSrvLookup && message.method != .cancel &&
      !t.isDnsSrvChild then
    recurseDnsSrvChildren (addResponse whatRelation t message true relationship) s.dns
  else doFirstSend whatRelation t message relationship s.sendSucceeded

def tryingResponse : SipMessage := { isResponse := true, statusCode := 100 }

def ackRequest : SipMessage := { isResponse := false, method := .ack }

def cancelRequest : SipMessage := { isResponse := false, method := .cancel }

def requestTerminatedResponse : SipMessage := { isResponse := true, statusCode := 487 }

def cancelOkResponse : SipMessage := { isResponse := true, statusCode := 200 }

def badTransactionResponse : SipMessage := { isResponse := true, statusCode := 481 }

/-- `handleIncoming` of a message that has been received before. -/
def handleDuplicate (t : SipTransaction) (message : SipMessage) (settings : Settings)
    (s : Sending) : SipTransaction :=
  if message.isResponse || message.method == .ack || message.method == .cancel then t
  -- the response is sent again
  else if t.lastFinalResponse.isSome || t.lastProvisionalResponse.isSome then t
  else if message.method == .invite || settings.sendTryingForNist then
    handleOutgoing whatRelation t tryingResponse .provisional s
  else { t with transactionState := advance t.transactionState .calling }

/-- `handleIncoming` of a first final response. -/
def handleFinal (t : SipTransaction) (message : SipMessage) (s : Sending) : SipTransaction :=
  let t :=
    if t.ack.isNone && t.request.isSome && t.requestMethod == .invite &&
        decide (300 ≤ message.statusCode) then
      handleOutgoing whatRelation t ackRequest .ack s
    else t
  addResponse whatRelation t message false .final

/-- `handleIncoming` of a CANCEL by a server transaction. -/
def handleCancel (t : SipTransaction) (settings : Settings) (s s' : Sending) : SipTransaction :=
  match t.request with
  | some request =>
    let t :=
      if request.method == .invite &&
          (t.transactionState == .proceeding || t.transactionState == .calling) &&
          !t.isUaTransaction && settings.enableHopByHopCancel && t.lastFinalResponse.isNone then
        handleOutgoing whatRelation t requestTerminatedResponse .final s
      else t
    handleOutgoing whatRelation t cancelOkResponse .cancelResponse s'
  | none => handleOutgoing whatRelation t badTransactionResponse .cancelResponse s'

/-- `handleIncoming` of requests, provisional responses and CANCEL responses. -/
def handleOther (t : SipTransaction) (message : SipMessage) (relationship : MessageRelationship)
    (settings : Settings) (s s' : Sending) : SipTransaction :=
  let t := addResponse whatRelation t message false relationship
  let t :=
    if relationship = .request && t.isServerTransaction && t.lastProvisionalResponse.isNone &&
        t.lastFinalResponse.isNone && t.requestMethod == .invite then
      handleOutgoing whatRelation t tryingResponse .provisional s
    else t
  if relationship = .provisional && !t.isServerTransaction && t.isCanceled && t.request.isSome &&
      t.requestMethod == .invite then
    -- now the CANCEL can be sent
    if t.cancel.isSome then t else handleOutgoing whatRelation t cancelRequest .cancel s'
  else if t.isServerTransaction && relationship = .cancel then
    handleCancel whatRelation t settings s s'
  else t

/-- A message has come in; what is sent for it may change the state once more. -/
def handleIncoming (t : SipTransaction) (message : SipMessage) (relationship : MessageRelationship)
    (settings : Settings) (s s' : Sending) : SipTransaction :=
  let relationship := relationOf whatRelation t message true relationship
  if relationship = .duplicate then handleDuplicate whatRelation t message settings s
  else if relationship = .final then handleFinal whatRelation t message s
  else handleOther whatRelation t message relationship settings s s'

/-! ## Timers -/

/-- `handleResendEvent`, with the result of `doResend`. -/
def handleResendEvent (t : SipTransaction) (outgoingMessage : SipMessage) (isFirstSend : Bool)
    (relationship : MessageRelationship) (sentOk : Bool) (nextTimeout : Int) : SipTransaction :=
  if outgoingMessage.isResponse then
    if t.isServerTransaction && t.ack.isNone && t.lastFinalResponse.isSome && !sentOk &&
        relationship = .request then
      { t with transactionState := .terminated }
    else t
  else if isFirstSend then t
  else if !t.isCanceled && t.lastFinalResponse.isNone && t.lastProvisionalResponse.isNone &&
      t.transactionState == .calling then
    if sentOk && decide (0 < nextTimeout) then t
    else if !sentOk then
      if relationship = .request then { t with transactionState := .terminated }
      else { t with transactionState := .complete }
    else if nextTimeout < 0 then { t with transactionState := .complete }
    else t
  else if t.transactionState == .calling then { t with transactionState := .complete }
  else t

def cancel (t : SipTransaction) (s : Sending) : SipTransaction :=
  if t.isServerTransaction || t.isCanceled then t
  else
    let t := { t with isCanceled := true }
    if t.request.isSome && t.cancel.isNone && t.transactionState == .proceeding &&
        t.isDnsSrvChild && t.requestMethod == .invite then
      handleOutgoing whatRelation t cancelRequest .cancel s
    else t

/-- `handleExpiresEvent`.  `isSerialEarlyMedia` is the test for early media of a branch of a
serial search. -/
def handleExpiresEvent (t : SipTransaction) (outgoingMessage : SipMessage)
    (extendable isSerialEarlyMedia : Bool) (s : Sending) : SipTransaction :=
  if outgoingMessage.isResponse then t
  else if t.provoExtendsTimer && extendable then { t with provoExtendsTimer := false }
  else if t.isDnsSrvChild && (t.lastProvisionalResponse.isSome || t.lastFinalResponse.isSome) then t
  else if isSerialEarlyMedia then t
  else if t.isRecursing || t.transactionState == .calling || t.transactionState == .proceeding ||
      t.transactionState == .locallyInitiated then
    cancel whatRelation t s
  else t

/-! ## Children -/

def loopDetectedResponse : SipMessage := { isResponse := true, statusCode := 482 }

/-- The first half of `recurseChildren`: the contacts of a redirection close a loop, or make
children. -/
def pursueContacts (t : SipTransaction) (response : SipMessage) (settings : Settings)
    (isLoop makesChildren : Bool) : SipTransaction :=
  if settings.isForkingEnabled && decide (300 ≤ response.statusCode) &&
      decide (response.statusCode < 400) && !t.hasChildren then
    if isLoop then addResponse whatRelation t loopDetectedResponse false .final
    else { t with hasChildren := makesChildren }
  else t

/-- `recurseChildren`, and whether a child is started. -/
def recurseChildren (t : SipTransaction) (settings : Settings)
    (isLoop makesChildren childRecursed : Bool) : SipTransaction :=
  match t.lastFinalResponse with
  | none => t
  | some response =>
    if t.request.isNone then t
    else
      let t := pursueContacts whatRelation t response settings isLoop makesChildren
      { t with isRecursing := t.isRecursing || childRecursed }

/-! ## Runs -/

/-- A call of one of the functions. -/
inductive Event where
  | handleOutgoing (message : SipMessage) (relationship : MessageRelationship) (s : Sending)
  | handleIncoming (message : SipMessage) (relationship : MessageRelationship)
      (settings : Settings) (s s' : Sending)
  | handleResendEvent (outgoingMessage : SipMessage) (isFirstSend : Bool)
      (relationship : MessageRelationship) (sentOk : Bool) (nextTimeout : Int)
  | handleExpiresEvent (outgoingMessage : SipMessage) (extendable isSerialEarlyMedia : Bool)
      (s : Sending)
  | cancel (s : Sending)
  | recurseDnsSrvChildren (dns : DnsAnswer)
  | recurseChildren (settings : Settings) (isLoop makesChildren childRecursed : Bool)
  /-- `startSequentialSearch` returns. -/
  | startSequentialSearch (isRecursing : Bool)
  /-- A child hands its flag up. -/
  | childIncoming (provoExtendsTimer : Bool)

def step (t : SipTransaction) : Event → SipTransaction
  | .handleOutgoing message relationship s => handleOutgoing whatRelation t message relationship s
  | .handleIncoming message relationship settings s s' =>
    handleIncoming whatRelation t message relationship settings s s'
  | .handleResendEvent outgoingMessage isFirstSend relationship sentOk nextTimeout =>
    handleResendEvent t outgoingMessage isFirstSend relationship sentOk nextTimeout
  | .handleExpiresEvent outgoingMessage extendable isSerialEarlyMedia s =>
    handleExpiresEvent whatRelation t outgoingMessage extendable isSerialEarlyMedia s
  | .cancel s => cancel whatRelation t s
  | .recurseDnsSrvChildren dns => recurseDnsSrvChildren t dns
  | .recurseChildren settings isLoop makesChildren childRecursed =>
    recurseChildren whatRelation t settings isLoop makesChildren childRecursed
  | .startSequentialSearch isRecursing => { t with isRecursing := isRecursing }
  | .childIncoming provoExtendsTimer => { t with provoExtendsTimer := provoExtendsTimer }

/-- The transaction after any sequence of calls. -/
def run (t : SipTransaction) (events : List Event) : SipTransaction :=
  events.foldl (step whatRelation) t

/-! ## What is kept -/

/-- The state has not gone back, and the final response is not lost. -/
structure Advances (t t' : SipTransaction) : Prop where
  rank_le : rank t.transactionState ≤ rank t'.transactionState
  final : t.lastFinalResponse.isSome = true → t'.lastFinalResponse.isSome = true

namespace Advances

variable {t t' t'' : SipTransaction}

theorem refl (t : SipTransaction) : Advances t t := ⟨le_rfl, id⟩

theorem trans (h : Advances t t') (h' : Advances t' t'') : Advances t t'' :=
  ⟨h.rank_le.trans h'.rank_le, fun hfinal => h'.final (h.final hfinal)⟩

/-- Neither is written. -/
theorem of_eq (hstate : t'.transactionState = t.transactionState)
    (hfinal : t'.lastFinalResponse = t.lastFinalResponse) : Advances t t' :=
  ⟨le_of_eq (congrArg rank hstate.symm), fun h => by rw [hfinal]; exact h⟩

theorem of_rank_le (hstate : rank t.transactionState ≤ rank t'.transactionState)
    (hfinal : t'.lastFinalResponse = t.lastFinalResponse) : Advances t t' :=
  ⟨hstate, fun h => by rw [hfinal]; exact h⟩

/-- A choice between two ways on. -/
theorem ite {P : Prop} [Decidable P] (h : Advances t t') (h' : Advances t t'') :
    Advances t (if P then t' else t'') := by
  split
  · exact h
  · exact h'

end Advances

section

variable (t : SipTransaction) (message : SipMessage) (relationship : MessageRelationship)
  (s s' : Sending)

theorem rank_le_advance (state floor : TransactionState) :
    rank state ≤ rank (advance state floor) := by
  unfold advance
  split
  · rename_i hlt
    exact hlt.le
  · exact le_rfl

theorem rank_le_terminated (state : TransactionState) : rank state ≤ rank .terminated := by
  cases state <;> decide

theorem advances_addResponse (isOutGoing : Bool) :
    Advances t (addResponse whatRelation t message isOutGoing relationship) := by
  unfold addResponse
  cases relationOf whatRelation t message isOutGoing relationship with
  | request => exact .of_rank_le (rank_le_advance _ _) rfl
  | provisional => exact .of_rank_le (rank_le_advance _ _) rfl
  | final => exact ⟨rank_le_advance _ _, fun _ => rfl⟩
  | _ => exact .of_eq rfl rfl

theorem advances_doFirstSend (sendSucceeded : Bool) :
    Advances t (doFirstSend whatRelation t message relationship sendSucceeded) := by
  have hadded : Advances t (if isAttached relationship then
      addResponse whatRelation t message true relationship else t) :=
    .ite (advances_addResponse whatRelation t message relationship true) (.refl t)
  exact .ite (hadded.trans (.of_rank_le (rank_le_terminated _) rfl)) hadded

theorem advances_recurseDnsSrvChildren (dns : DnsAnswer) :
    Advances t (recurseDnsSrvChildren t dns) := by
  unfold recurseDnsSrvChildren
  extract_lets t₁
  have hlookup : Advances t t₁ := by
    unfold t₁
    split
    · rename_i hguard
      -- the state is set only if it has not got that far
      have hlt : rank t.transactionState < rank .confirmed := by
        rw [Bool.and_eq_true, decide_eq_true_eq] at hguard
        exact hguard.2
      exact .of_rank_le hlt.le rfl
    · exact .refl t
  exact .ite (hlookup.trans (.of_eq rfl rfl)) hlookup

theorem advances_handleOutgoing :
    Advances t (handleOutgoing whatRelation t message relationship s) := by
  unfold handleOutgoing
  extract_lets relationship' t₁
  have haddress : Advances t t₁ := .ite (.refl t) (.of_eq rfl rfl)
  refine .ite haddress (.ite ?_ ?_)
  · exact haddress.trans ((advances_addResponse _ _ _ _ _).trans
      (advances_recurseDnsSrvChildren _ _))
  · exact haddress.trans (advances_doFirstSend _ _ _ _ _)

theorem advances_handleDuplicate (settings : Settings) :
    Advances t (handleDuplicate whatRelation t message settings s) := by
  unfold handleDuplicate
  refine .ite (.refl t) (.ite (.refl t) (.ite ?_ ?_))
  · exact advances_handleOutgoing whatRelation t tryingResponse .provisional s
  · exact .of_rank_le (rank_le_advance _ _) rfl

theorem advances_handleFinal : Advances t (handleFinal whatRelation t message s) := by
  unfold handleFinal
  extract_lets t₁
  have hack : Advances t t₁ :=
    .ite (advances_handleOutgoing whatRelation t ackRequest .ack s) (.refl t)
  exact hack.trans (advances_addResponse _ _ _ _ _)

theorem advances_handleCancel (settings : Settings) :
    Advances t (handleCancel whatRelation t settings s s') := by
  unfold handleCancel
  cases t.request with
  | none => exact advances_handleOutgoing _ _ _ _ _
  | some request =>
    dsimp only
    have hterminated (P : Prop) [Decidable P] : Advances t (if P then
        handleOutgoing whatRelation t requestTerminatedResponse .final s else t) :=
      .ite (advances_handleOutgoing _ _ _ _ _) (.refl t)
    exact (hterminated _).trans (advances_handleOutgoing _ _ _ _ _)

theorem advances_handleOther (settings : Settings) :
    Advances t (handleOther whatRelation t message relationship settings s s') := by
  unfold handleOther
  extract_lets t₁ t₂
  have hadded : Advances t t₁ := advances_addResponse _ _ _ _ _
  have htrying : Advances t t₂ :=
    .ite (hadded.trans (advances_handleOutgoing _ _ _ _ _)) hadded
  refine .ite (.ite htrying ?_) (.ite ?_ htrying)
  · exact htrying.trans (advances_handleOutgoing _ _ _ _ _)
  · exact htrying.trans (advances_handleCancel _ _ _ _ _)

theorem advances_handleIncoming (settings : Settings) :
    Advances t (handleIncoming whatRelation t message relationship settings s s') := by
  unfold handleIncoming
  refine .ite ?_ (.ite ?_ ?_)
  · exact advances_handleDuplicate _ _ _ _ _
  · exact advances_handleFinal _ _ _ _
  · exact advances_handleOther _ _ _ _ _ _ _

/-- The state is `TRANSACTION_CALLING` wherever it is set to `TRANSACTION_COMPLETE`. -/
theorem advances_handleResendEvent (isFirstSend sentOk : Bool) (nextTimeout : Int) :
    Advances t (handleResendEvent t message isFirstSend relationship sentOk nextTimeout) := by
  have hterminated : Advances t { t with transactionState := .terminated } :=
    .of_rank_le (rank_le_terminated _) rfl
  have hcomplete (hcalling : t.transactionState = .calling) :
      Advances t { t with transactionState := .complete } := by
    refine .of_rank_le ?_ rfl
    show rank t.transactionState ≤ rank .complete
    rw [hcalling]
    decide
  unfold handleResendEvent
  refine .ite (.ite hterminated (.refl t)) (.ite (.refl t) ?_)
  split
  · rename_i hguard
    rw [Bool.and_eq_true, beq_iff_eq] at hguard
    have hdone := hcomplete hguard.2
    exact .ite (.refl t) (.ite (.ite hterminated hdone) (.ite hdone (.refl t)))
  · split
    · rename_i hguard
      exact hcomplete (beq_iff_eq.mp hguard)
    · exact .refl t

theorem advances_cancel : Advances t (cancel whatRelation t s) := by
  unfold cancel
  have hcanceled : Advances t { t with isCanceled := true } := .of_eq rfl rfl
  refine .ite (.refl t) (.ite ?_ hcanceled)
  exact hcanceled.trans (advances_handleOutgoing _ _ _ _ _)

theorem advances_handleExpiresEvent (extendable isSerialEarlyMedia : Bool) :
    Advances t (handleExpiresEvent whatRelation t message extendable isSerialEarlyMedia s) := by
  unfold handleExpiresEvent
  refine .ite (.refl t) (.ite (.of_eq rfl rfl) (.ite (.refl t) (.ite (.refl t) (.ite ?_ ?_))))
  · exact advances_cancel whatRelation t s
  · exact .refl t

theorem advances_pursueContacts (settings : Settings) (isLoop makesChildren : Bool) :
    Advances t (pursueContacts whatRelation t message settings isLoop makesChildren) := by
  unfold pursueContacts
  refine .ite (.ite ?_ (.of_eq rfl rfl)) (.refl t)
  exact advances_addResponse _ _ _ _ _

theorem advances_recurseChildren (settings : Settings) (isLoop makesChildren childRecursed : Bool) :
    Advances t (recurseChildren whatRelation t settings isLoop makesChildren childRecursed) := by
  unfold recurseChildren
  split
  · exact .refl t
  · refine .ite (.refl t) ?_
    exact (advances_pursueContacts _ _ _ _ _ _).trans (.of_eq rfl rfl)

theorem advances_step (event : Event) : Advances t (step whatRelation t event) := by
  cases event with
  | handleOutgoing => exact advances_handleOutgoing _ _ _ _ _
  | handleIncoming => exact advances_handleIncoming _ _ _ _ _ _ _
  | handleResendEvent => exact advances_handleResendEvent _ _ _ _ _ _
  | handleExpiresEvent => exact advances_handleExpiresEvent _ _ _ _ _ _
  | cancel => exact advances_cancel _ _ _
  | recurseDnsSrvChildren => exact advances_recurseDnsSrvChildren _ _
  | recurseChildren => exact advances_recurseChildren _ _ _ _ _ _
  | startSequentialSearch => exact .of_eq rfl rfl
  | childIncoming => exact .of_eq rfl rfl

theorem advances_run (events : List Event) : Advances t (run whatRelation t events) := by
  induction events generalizing t with
  | nil => exact .refl t
  | cons event events ih =>
    exact (advances_step whatRelation t event).trans (ih (step whatRelation t event))

end

/-- Over any run the state never goes back, and a final response that is there stays there. -/
theorem run_advances (t : SipTransaction) (earlier later : List Event) :
    rank (run whatRelation t earlier).transactionState ≤
        rank (run whatRelation t (earlier ++ later)).transactionState ∧
      ((run whatRelation t earlier).lastFinalResponse.isSome = true →
        (run whatRelation t (earlier ++ later)).lastFinalResponse.isSome = true) := by
  have hsplit : run whatRelation t (earlier ++ later) =
      run whatRelation (run whatRelation t earlier) later := List.foldl_append
  have hadvances := advances_run whatRelation (run whatRelation t earlier) later
  rw [hsplit]
  exact ⟨hadvances.rank_le, hadvances.final⟩

end TransactionStates

end SipXRouter
