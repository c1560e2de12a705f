import SipXRouter.Run
import SipXRouter.Net.TransactionTree

/-!
# The server transaction of a proxied request

What the server transaction at the top of a tree of client transactions sends back to
the caller, while the client transactions receive responses, their timers go off, and
the caller may cancel the request.

## Design notes

A cancel request for a child is put into a queue, from which it is taken at any later
time.  It gets there only when the parent is cancelled or is the server transaction, and
this is all that the model keeps of the queue.  The CANCEL requests that go out have no
influence on the tree.

The log of what is sent to the caller leaves out that the server transaction repeats its
last response over an unreliable transport.
-/

namespace SipXRouter

open List

namespace TransactionTree

open SipTransaction SipTransactionList

variable {e : Event} {m : SipResponse} {path : List Nat} {root x : Tree} {t : Transaction}

/-! ## States -/

/-- A response sent to the caller, and whether it answers a CANCEL. -/
structure Sent where
  response : SipResponse
  answersCancel : Bool := false
deriving DecidableEq

/-- The server transaction with all below it. -/
structure State where
  isInvite : Bool
  root : Tree
  /-- The responses sent to the caller. -/
  upstream : List Sent := []
  /-- The children that were sent their request. -/
  attempts : List Attempt := []
  /-- The To tags of the success responses received. -/
  seen : List Text := []

/-- `handleIncoming` of a new request: an INVITE is answered at once. -/
def start (isInvite : Bool) (request : SipRequest) : State where
  isInvite
  root := .node
    { isServerTransaction := true
      state := if isInvite then .proceeding else .calling
      hasProvisionalResponse := isInvite
      request := some request }
    []
  upstream := if isInvite then [⟨.ofRequest request 100 (text "Trying"), false⟩] else []

namespace State

/-- `handleOutgoing` of a final response by the server transaction. -/
def sendFinal (s : State) (response : SipResponse) : State :=
  { s with
    root := .node (s.root.label.addFinal { response }) s.root.children
    upstream := s.upstream ++ [⟨response, false⟩] }

/-- `handleOutgoing` of a provisional response by the server transaction. -/
def sendProvisional (s : State) (response : SipResponse) : State :=
  { s with
    root := .node
      { s.root.label with
        hasProvisionalResponse := true
        state := advance s.root.label.state .proceeding }
      s.root.children
    upstream := s.upstream ++ [⟨response, false⟩] }

/-- `startSequentialSearch` of the server transaction. -/
def search (ua : UserAgent) (s : State) : State :=
  let found := startSequentialSearch ua s.root
  { s with root := found.tree, attempts := s.attempts ++ found.attempts }

/-- What `startSequentialSearch` of the server transaction returns. -/
def isSearching (ua : UserAgent) (s : State) : Bool := (startSequentialSearch ua s.root).started

end State

/-- A last final response as `findBestResponse` looks at it. -/
def finalResponse (m : Message) : Option FinalResponse :=
  if h : 200 ≤ m.response.statusCode then some { m.response with isFinal := h } else none

/-- The children as `findBestResponse` looks at them. -/
def childTransactions : List Tree → ChildTransactions
  | [] => .nil
  | .node t cs :: rest =>
    .cons (t.lastFinalResponse.bind finalResponse) t.isCanceled (childTransactions cs)
      (childTransactions rest)

/-- `findBestResponse` of the server transaction. -/
def State.findBestResponse (s : State) : Option SipResponse :=
  RootTransaction.findBestResponse ⟨s.root.label.request, childTransactions s.root.children⟩

/-- A response on its way to the caller. -/
def forwarded (response : SipResponse) : SipResponse :=
  response.removeTopVia.resetTransport.clearDNSField

/-! ## Events -/

/-- `handleChildIncoming` of the server transaction, for a response that is new to the
child.  There are children, so the special case of none does not arise. -/
def handleChildIncoming (ua : UserAgent) (s : State) (response : SipResponse) : State :=
  let responseCode := response.statusCode
  if responseCode < 100 then s
  -- 100 Trying is hop by hop
  else if responseCode = 100 then s
  else if responseCode < 300 ∧
      (s.root.label.lastFinalResponse = none ∨ 200 ≤ responseCode) then
    if responseCode < 200 then s.sendProvisional (forwarded response)
    else s.sendFinal (forwarded response)
  else if s.root.label.lastFinalResponse = none then
    if s.isSearching ua then s.search ua
    else
      match (s.search ua).findBestResponse with
      | none => s.search ua
      | some bestResponse => (s.search ua).sendFinal bestResponse
  else s

/-- A timeout chooses 408 over a redirection or 404. -/
def timeoutResponse (request : Option SipRequest) (bestResponse : SipResponse) : SipResponse :=
  if bestResponse.statusCode < 400 ∨ bestResponse.statusCode = 404 then
    match request with
    | none => bestResponse
    | some request => .ofRequest request 408 (text "Request timeout")
  else bestResponse

/-- `handleChildTimeoutEvent` of the server transaction, for a child that is done or
has given up. -/
def handleChildTimeoutEvent (ua : UserAgent) (s : State) : State :=
  if s.isSearching ua then s.search ua
  else if (s.search ua).root.label.lastFinalResponse = none then
    match (s.search ua).findBestResponse with
    | none => s.search ua
    | some bestResponse =>
      if 300 ≤ bestResponse.statusCode then
        (s.search ua).sendFinal (timeoutResponse s.root.label.request bestResponse)
      else s.search ua
  else s.search ua

/-- `whatRelation` of a response to the transaction whose branch it has. -/
def whatRelation (isInvite : Bool) (t : Transaction) (m : Message) : MessageRelationship :=
  if m.response.statusCode < 200 then .provisional
  else
    match t.lastFinalResponse with
    | none => .final
    | some last =>
      if last.response.statusCode = m.response.statusCode then
        if isInvite && !(last.toTag.isEmpty || last.toTag == m.toTag) then .newFinal
        else .duplicate
      else .newFinal

/-- A success response. -/
def Message.isSuccess (m : Message) : Bool :=
  decide (200 ≤ m.response.statusCode ∧ m.response.statusCode < 300)

/-- The tree once the transaction at `path` has got a response, where the transactions
above take over the flag that extends their timers. -/
def addResponse (root : Tree) (path : List Nat) (t : Transaction) : Tree :=
  root.alter (fun a => { a with provoExtendsTimer := t.provoExtendsTimer })
    (fun x => .node t x.children) path

/-- `dispatch` of a response to the transaction at `path`.  The ones that only the
observers get are not sent on by them. -/
def receive (ua : UserAgent) (s : State) (path : List Nat) (t : Transaction) (m : Message) :
    State :=
  match whatRelation s.isInvite t m with
  | .provisional =>
    handleChildIncoming ua { s with root := addResponse s.root path (t.addProvisional m) }
      m.response
  | .final =>
    handleChildIncoming ua { s with root := addResponse s.root path (t.addFinal m) } m.response
  | .duplicate =>
    -- the proxy resends duplicate success responses for reliability
    if s.isInvite && m.isSuccess && m.hasSecondVia then
      { s with upstream := s.upstream ++ [⟨forwarded m.response, false⟩] }
    else s
  | _ => s

/-- The tree with a change of the transaction at `path`. -/
def modifyAt (root : Tree) (path : List Nat) (f : Transaction → Transaction) : Tree :=
  root.alter id (fun x => .node (f x.label) x.children) path

/-- `handleResendEvent` of a transaction `t` whose request, or CANCEL request, has not
been answered in time.  It may be sent once more. -/
def handleResendEvent (ua : UserAgent) (s : State) (path : List Nat) (t : Transaction)
    (ofCancel resent : Bool) : State :=
  if !t.isCanceled && !t.hasResponse && t.state == .calling && resent then s
  else
    let s := { s with root := modifyAt s.root path fun t =>
      { t with state := if t.state = .calling then .complete else t.state } }
    if ofCancel then s else handleChildTimeoutEvent ua s

/-- Whether the first and the last child differ in their q values. -/
def isChildSerial (children : List Tree) : Bool :=
  match children.head?, children.getLast? with
  | some first, some last =>
    decide (minQDeltaSquare <
      (first.label.qvalue - last.label.qvalue) * (first.label.qvalue - last.label.qvalue))
  | _, _ => false

/-- A provisional response with a body has come, and no final one yet. -/
def isEarlyDialogWithMedia (t : Transaction) : Bool :=
  t.provisionalSdp && decide (rank .locallyInitiated < rank t.state) &&
    decide (rank t.state < rank .complete)

/-- `isChildEarlyDialogWithMedia`: the last child that was sent its request decides. -/
def isChildEarlyDialogWithMedia (children : List Tree) : Bool :=
  match (children.takeWhile fun c => !c.label.isUnsent).getLast? with
  | none => false
  | some c => isEarlyDialogWithMedia c.label

/-- Whether a transaction whose timer has expired is cancelled. -/
def cancelsExpired (isInvite : Bool) (siblings : List Tree) (x : Tree) : Bool :=
  let t := x.label
  if t.isDnsSrvChild && t.hasResponse then false
  else if !t.isDnsSrvChild && !t.isServerTransaction && isChildSerial siblings && isInvite &&
      isChildEarlyDialogWithMedia x.children then false
  else t.isRecursing || t.isCalling || t.isUnsent

/-- `cancel` of a client transaction: its children are put into the queue. -/
def Transaction.cancel (t : Transaction) : Transaction :=
  if t.isServerTransaction then t else { t with isCanceled := true }

/-- `cancel` of a transaction whose timer has expired. -/
def Transaction.expire (t : Transaction) : Transaction := { t.cancel with hasExpired := true }

/-- `cancel` of one child of a transaction. -/
def cancelChild (index : Nat) (x : Tree) : Tree :=
  .node x.label (x.children.modify index fun c => .node c.label.cancel c.children)

/-- `handleExpiresEvent` of the transaction at `path`, with the siblings it has there.
The timer may be one that a provisional response extends. -/
def handleExpiresEvent (ua : UserAgent) (s : State) (path : List Nat) (siblings : List Tree)
    (x : Tree) (ofCancel extendable : Bool) : State :=
  if x.label.provoExtendsTimer && extendable then
    { s with root := modifyAt s.root path fun t => { t with provoExtendsTimer := false } }
  else
    let s :=
      if cancelsExpired s.isInvite siblings x then
        { s with root := modifyAt s.root path Transaction.expire }
      else s
    if ofCancel then s else handleChildTimeoutEvent ua s

/-- `handleIncoming` of a CANCEL by the server transaction. -/
def handleCancel (ua : UserAgent) (s : State) (cancel : SipRequest) : State :=
  match s.root.label.request with
  | none =>
    { s with upstream := s.upstream ++
        [⟨.ofRequest cancel 481 (text "Transaction Does Not Exist"), true⟩] }
  | some request =>
    let s :=
      if s.isInvite && s.root.label.isCalling && ua.enableHopByHopCancel &&
          s.root.label.lastFinalResponse.isNone then
        s.sendFinal (.ofRequest request 487 (text "Request Terminated"))
      else s
    { s with upstream := s.upstream ++ [⟨.ofRequest cancel 200 (text "OK"), true⟩] }

/-- `send` of the request by the proxy: a new child of the server transaction. -/
def sendRequest (ua : UserAgent) (s : State) (request : SipRequest) (target : Target) : State :=
  let child := targetTransaction { target with qvalue := 1 }
  let sent := handleOutgoing ua child request
  let isSmaller := fun d : Tree => !decide (d.label.qvalue < child.label.qvalue)
  { s with
    root := .node s.root.label (linkChild s.root.children sent.tree)
    attempts := s.attempts ++
      ⟨s.root.label, s.root.children.takeWhile isSmaller, child,
        s.root.children.dropWhile isSmaller⟩ :: sent.attempts }

/-- What can happen.  Transactions are named by their paths. -/
inductive Event where
  /-- The proxy sends the request to a target. -/
  | send (request : SipRequest) (target : Target)
  /-- A client transaction receives a response. -/
  | response (path : List Nat) (message : Message)
  /-- The resend timer of a client transaction goes off. -/
  | resend (path : List Nat) (ofCancel resent : Bool)
  /-- The expiration timer of a client transaction goes off. -/
  | expires (path : List Nat) (ofCancel extendable : Bool)
  /-- A child of the transaction at a path is cancelled from the queue. -/
  | cancelChild (path : List Nat) (index : Nat)
  /-- The caller cancels the request. -/
  | cancel (cancel : SipRequest)

/-- One event.  The To tags of the success responses are noted. -/
def step (ua : UserAgent) (s : State) : Event → State
  | .send request target => sendRequest ua s request target
  | .response path m =>
    match s.root.get? path with
    | none => s
    | some x =>
      { receive ua s path x.label m with
        seen := if m.isSuccess then m.toTag :: s.seen else s.seen }
  | .resend path ofCancel resent =>
    match s.root.get? path with
    | none => s
    | some x => handleResendEvent ua s path x.label ofCancel resent
  | .expires path ofCancel extendable =>
    match s.root.get? path, s.root.get? path.dropLast with
    | some x, some parent =>
      handleExpiresEvent ua s path parent.children x ofCancel extendable
    | _, _ => s
  | .cancelChild path index => { s with root := s.root.alter id (cancelChild index) path }
  | .cancel cancel => handleCancel ua s cancel

/-- When an event can happen: only what was sent is answered, only the timers that were
set go off, and a child is cancelled from the queue once its parent is. -/
def Allowed (s : State) : Event → Prop
  | .send _ _ => True
  | .response path _ =>
    ∃ x, s.root.get? path = some x ∧ x.label.isDnsSrvChild = true ∧ x.label.isUnsent = false
  | .resend path ofCancel _ =>
    ∃ x, s.root.get? path = some x ∧ x.label.isDnsSrvChild = true ∧ x.label.isUnsent = false ∧
      (ofCancel = true → x.label.isCanceled = true)
  | .expires path ofCancel _ =>
    ∃ x, s.root.get? path = some x ∧ x.label.isServerTransaction = false ∧
      x.label.isUnsent = false ∧ (ofCancel = true → x.label.isCanceled = true)
  | .cancelChild path _ =>
    ∃ x, s.root.get? path = some x ∧
      (x.label.isServerTransaction = true ∨ x.label.isCanceled = true)
  | .cancel _ => True

instance decidableAllowed (s : State) : (e : Event) → Decidable (Allowed s e)
  | .send _ _ => inferInstanceAs (Decidable True)
  | .response path _ =>
    decidable_of_iff ((s.root.get? path).any fun x =>
      decide (x.label.isDnsSrvChild = true ∧ x.label.isUnsent = false))
      (by simp only [Allowed, Option.any_eq_true, decide_eq_true_eq])
  | .resend path ofCancel _ =>
    decidable_of_iff ((s.root.get? path).any fun x =>
      decide (x.label.isDnsSrvChild = true ∧ x.label.isUnsent = false ∧
        (ofCancel = true → x.label.isCanceled = true)))
      (by simp only [Allowed, Option.any_eq_true, decide_eq_true_eq])
  | .expires path ofCancel _ =>
    decidable_of_iff ((s.root.get? path).any fun x =>
      decide (x.label.isServerTransaction = false ∧ x.label.isUnsent = false ∧
        (ofCancel = true → x.label.isCanceled = true)))
      (by simp only [Allowed, Option.any_eq_true, decide_eq_true_eq])
  | .cancelChild path _ =>
    decidable_of_iff ((s.root.get? path).any fun x =>
      decide (x.label.isServerTransaction = true ∨ x.label.isCanceled = true))
      (by simp only [Allowed, Option.any_eq_true, decide_eq_true_eq])
  | .cancel _ => inferInstanceAs (Decidable True)

theorem whatRelation_eq_duplicate {isInvite : Bool} {m : Message}
    (h : whatRelation isInvite t m = .duplicate) : ∃ last, t.lastFinalResponse = some last ∧
      last.response.statusCode = m.response.statusCode := by
  unfold whatRelation at h
  split at h
  · cases h
  · split at h
    · cases h
    · rename_i last hlast
      split at h
      · rename_i hcode
        exact ⟨last, hlast, hcode⟩
      · cases h

/-! ## The server transaction stays at the top -/

/-- The top of the tree is a server transaction. -/
structure IsRoot (t : Transaction) : Prop where
  isServerTransaction : t.isServerTransaction = true
  isDnsSrvChild : t.isDnsSrvChild = false

theorem IsRoot.of_kept {u : Transaction} (h : IsRoot t) (hkept : Kept t u) : IsRoot u :=
  ⟨hkept.isServerTransaction.trans h.isServerTransaction,
    hkept.isDnsSrvChild.trans h.isDnsSrvChild⟩

/-- The transactions that events happen to are below the top. -/
theorem IsRoot.path_ne_nil (h : IsRoot root.label) (hx : root.get? path = some x)
    (hclient : x.label.isDnsSrvChild = true ∨ x.label.isServerTransaction = false) : path ≠ [] := by
  rintro rfl
  rw [Rose.get?_nil] at hx
  obtain rfl := Option.some.inj hx
  rcases hclient with hdns | hserver
  · rw [h.isDnsSrvChild] at hdns
    cases hdns
  · rw [h.isServerTransaction] at hserver
    cases hserver

theorem kept_search (ua : UserAgent) (s : State) : Kept s.root.label (s.search ua).root.label :=
  kept_searchBelow ua _ _

theorem finals_alter {Q : Message → Prop} {up : Transaction → Transaction} {f : Tree → Tree}
    (hup : ∀ t, (up t).lastFinalResponse = t.lastFinalResponse)
    (hf : ∀ y, Finals Q y → Finals Q (f y)) (hpath : path ≠ [])
    (h : ∀ c ∈ root.children, Finals Q c) : ∀ c ∈ (root.alter up f path).children, Finals Q c := by
  cases path with
  | nil => exact absurd rfl hpath
  | cons i path =>
    refine Rose.forall_mem_modify h fun c hc => ?_
    refine (Rose.All.alter (R := fun _ _ => True) (fun _ => trivial) ?_
      (fun _ _ _ _ => trivial) (h c (mem_of_getElem? hc))
      fun y _ hy => ⟨hf y hy, trivial⟩).1
    intro t cs cs' ht _ m hm
    exact ht m (hup t ▸ hm)

theorem finals_get? {Q : Message → Prop}
    (h : ∀ c ∈ root.children, Finals Q c) (hpath : path ≠ []) (hx : root.get? path = some x) :
    Finals Q x := by
  cases path with
  | nil => exact absurd rfl hpath
  | cons i path =>
    rw [Rose.get?] at hx
    cases hc : root.children[i]? with
    | none => simp [hc] at hx
    | some c =>
      rw [hc] at hx
      exact (h c (mem_of_getElem? hc)).get? hx

theorem finals_put {Q : Message → Prop} (hx : Finals Q x)
    (ht : ∀ m, t.lastFinalResponse = some m → Q m) : Finals Q (.node t x.children) :=
  .node ht fun _ hc => hx.child hc

/-! ## What the events do to the tree -/

/-- The method and the To tags noted are not touched by the handlers. -/
structure Noted (s s' : State) : Prop where
  isInvite : s'.isInvite = s.isInvite
  seen : s'.seen = s.seen

theorem noted_handleChildTimeoutEvent (ua : UserAgent) (s : State) :
    Noted s (handleChildTimeoutEvent ua s) := by
  unfold handleChildTimeoutEvent
  repeat' split
  all_goals exact ⟨rfl, rfl⟩

theorem noted_receive (ua : UserAgent) (s : State) (path : List Nat) (t : Transaction)
    (m : Message) : Noted s (receive ua s path t m) := by
  unfold receive handleChildIncoming
  dsimp only
  repeat' split
  all_goals exact ⟨rfl, rfl⟩

theorem noted_handleResendEvent (ua : UserAgent) (s : State) (path : List Nat) (t : Transaction)
    (ofCancel resent : Bool) : Noted s (handleResendEvent ua s path t ofCancel resent) := by
  unfold handleResendEvent
  split
  · exact ⟨rfl, rfl⟩
  · dsimp only
    split
    · exact ⟨rfl, rfl⟩
    · have hnoted := noted_handleChildTimeoutEvent ua { s with root := modifyAt s.root path fun t =>
        { t with state := if t.state = .calling then .complete else t.state } }
      exact ⟨hnoted.isInvite, hnoted.seen⟩

theorem noted_handleExpiresEvent (ua : UserAgent) (s : State) (path : List Nat)
    (siblings : List Tree) (x : Tree) (ofCancel extendable : Bool) :
    Noted s (handleExpiresEvent ua s path siblings x ofCancel extendable) := by
  unfold handleExpiresEvent
  split
  · exact ⟨rfl, rfl⟩
  · dsimp only
    split <;> split
    · exact ⟨rfl, rfl⟩
    · exact ⟨rfl, rfl⟩
    · have hnoted := noted_handleChildTimeoutEvent ua
        { s with root := modifyAt s.root path Transaction.expire }
      exact ⟨hnoted.isInvite, hnoted.seen⟩
    · exact noted_handleChildTimeoutEvent ua s

theorem noted_handleCancel (ua : UserAgent) (s : State) (cancel : SipRequest) :
    Noted s (handleCancel ua s cancel) := by
  unfold handleCancel
  dsimp only
  repeat' split
  all_goals exact ⟨rfl, rfl⟩

/-- A condition on the tree, and on what has been tried, that the server transaction
keeps by what it does on its own. -/
structure Closed (ua : UserAgent) (J : Tree → List Attempt → Prop) : Prop where
  final : ∀ {x : Tree} {attempts : List Attempt} (response : SipResponse), J x attempts →
    J (.node (x.label.addFinal { response }) x.children) attempts
  provisional : ∀ {x : Tree} {attempts : List Attempt}, J x attempts →
    J (.node
      { x.label with
        hasProvisionalResponse := true
        state := advance x.label.state .proceeding }
      x.children) attempts
  search : ∀ {x : Tree} {attempts : List Attempt}, J x attempts →
    J (startSequentialSearch ua x).tree (attempts ++ (startSequentialSearch ua x).attempts)

namespace Closed

variable {ua : UserAgent} {J : Tree → List Attempt → Prop} {s : State}

theorem handleChildTimeoutEvent (hJ : Closed ua J) (h : J s.root s.attempts) :
    J (handleChildTimeoutEvent ua s).root (handleChildTimeoutEvent ua s).attempts := by
  have hsearch := hJ.search h
  unfold TransactionTree.handleChildTimeoutEvent
  repeat' split
  all_goals first | exact hsearch | exact hJ.final _ hsearch

theorem handleChildIncoming (hJ : Closed ua J) (h : J s.root s.attempts) :
    J (handleChildIncoming ua s m).root (handleChildIncoming ua s m).attempts := by
  have hsearch := hJ.search h
  unfold TransactionTree.handleChildIncoming
  dsimp only
  repeat' split
  all_goals first
    | exact h
    | exact hsearch
    | exact hJ.provisional h
    | exact hJ.final _ h
    | exact hJ.final _ hsearch

theorem receive (hJ : Closed ua J) (h : J s.root s.attempts) {m : Message}
    (hprovisional : J (addResponse s.root path (t.addProvisional m)) s.attempts)
    (hfinal : J (addResponse s.root path (t.addFinal m)) s.attempts) :
    J (receive ua s path t m).root (receive ua s path t m).attempts := by
  unfold TransactionTree.receive
  split
  · exact hJ.handleChildIncoming hprovisional
  · exact hJ.handleChildIncoming hfinal
  · split
    · exact h
    · exact h
  · exact h

theorem handleResendEvent (hJ : Closed ua J) (h : J s.root s.attempts) {ofCancel resent : Bool}
    (hmodify : J (modifyAt s.root path fun t =>
      { t with state := if t.state = .calling then .complete else t.state }) s.attempts) :
    J (handleResendEvent ua s path t ofCancel resent).root
      (handleResendEvent ua s path t ofCancel resent).attempts := by
  unfold TransactionTree.handleResendEvent
  split
  · exact h
  · dsimp only
    split
    · exact hmodify
    · exact hJ.handleChildTimeoutEvent hmodify

theorem handleExpiresEvent (hJ : Closed ua J) (h : J s.root s.attempts)
    {siblings : List Tree} {ofCancel extendable : Bool}
    (hextend : J (modifyAt s.root path fun t => { t with provoExtendsTimer := false }) s.attempts)
    (hexpire : J (modifyAt s.root path Transaction.expire) s.attempts) :
    J (handleExpiresEvent ua s path siblings x ofCancel extendable).root
      (handleExpiresEvent ua s path siblings x ofCancel extendable).attempts := by
  unfold TransactionTree.handleExpiresEvent
  split
  · exact hextend
  · dsimp only
    split <;> split
    · exact hexpire
    · exact h
    · exact hJ.handleChildTimeoutEvent hexpire
    · exact hJ.handleChildTimeoutEvent h

theorem handleCancel (hJ : Closed ua J) (h : J s.root s.attempts) {cancel : SipRequest} :
    J (handleCancel ua s cancel).root (handleCancel ua s cancel).attempts := by
  unfold TransactionTree.handleCancel
  split
  · exact h
  · dsimp only
    split
    · exact hJ.final _ h
    · exact h

end Closed

theorem lastFinalResponse_cancel (t : Transaction) :
    t.cancel.lastFinalResponse = t.lastFinalResponse := by
  unfold Transaction.cancel
  split <;> rfl

theorem finals_cancelChild {Q : Message → Prop} {index : Nat}
    (h : ∀ c ∈ x.children, Finals Q c) : ∀ c ∈ (cancelChild index x).children, Finals Q c := by
  refine Rose.forall_mem_modify h fun c hc => ?_
  have hcmem := h c (mem_of_getElem? hc)
  exact finals_put hcmem fun m hm => hcmem.here m (lastFinalResponse_cancel _ ▸ hm)

/-! ## What the caller gets -/

/-- The responses to the request itself. -/
def State.responses (s : State) : List SipResponse :=
  (s.upstream.filter fun m => !m.answersCancel).map Sent.response

/-- What a caller may expect: at most one failure response, none after a success
response, and no provisional response after a final one. -/
structure Disciplined (log : List SipResponse) : Prop where
  oneFailure : log.countP (fun m => decide (300 ≤ m.statusCode)) ≤ 1
  noFailureAfterSuccess : log.Pairwise fun m m' =>
    200 ≤ m.statusCode ∧ m.statusCode < 300 → m'.statusCode < 300
  noProvisionalAfterFinal : log.Pairwise fun m m' => 200 ≤ m.statusCode → 200 ≤ m'.statusCode

/-- A response may follow provisional ones, and a success may follow any. -/
theorem Disciplined.concat {log : List SipResponse} (h : Disciplined log)
    (hm : (∀ m' ∈ log, m'.statusCode < 200) ∨ 200 ≤ m.statusCode ∧ m.statusCode < 300) :
    Disciplined (log ++ [m]) := by
  constructor
  · rw [countP_append, countP_singleton]
    rcases hm with hlog | hm
    · have hzero : log.countP (fun m => decide (300 ≤ m.statusCode)) = 0 := by
        rw [countP_eq_zero]
        intro m' hm'
        have := hlog m' hm'
        simp only [decide_eq_true_eq]
        omega
      rw [hzero]
      split <;> omega
    · rw [if_neg (by simp only [decide_eq_true_eq]; omega)]
      exact h.oneFailure
  · rw [pairwise_append]
    refine ⟨h.noFailureAfterSuccess, pairwise_singleton _ _, fun m' hm' n hn => ?_⟩
    obtain rfl := mem_singleton.mp hn
    rcases hm with hlog | hm
    · have := hlog m' hm'
      omega
    · omega
  · rw [pairwise_append]
    refine ⟨h.noProvisionalAfterFinal, pairwise_singleton _ _, fun m' hm' n hn => ?_⟩
    obtain rfl := mem_singleton.mp hn
    rcases hm with hlog | hm
    · have := hlog m' hm'
      omega
    · omega

/-- As long as the server transaction has no final response, none has been sent. -/
structure Answered (s : State) : Prop where
  isRoot : IsRoot s.root.label
  disciplined : Disciplined s.responses
  unanswered : s.root.label.lastFinalResponse = none → ∀ m ∈ s.responses, m.statusCode < 200

/-- As long as the server transaction has no final response, none of its client
transactions has a success response. -/
def Unsuccessful (s : State) : Prop :=
  s.root.label.lastFinalResponse = none →
    ∀ c ∈ s.root.children, Finals (fun m => m.isSuccess = false) c

theorem loopDetectedResponse_not_isSuccess (request : SipRequest) (loopHop : Nat) :
    (loopDetectedResponse request loopHop).isSuccess = false := rfl

section Answered

variable {ua : UserAgent} {s : State}

theorem Answered.search (h : Answered s) : Answered (s.search ua) where
  isRoot := h.isRoot.of_kept (kept_search ua s)
  disciplined := h.disciplined
  unanswered := fun hnone => h.unanswered ((kept_search ua s).of_none hnone)

theorem Unsuccessful.search (h : Unsuccessful s) : Unsuccessful (s.search ua) := fun hnone =>
  finals_searchBelow loopDetectedResponse_not_isSuccess (h ((kept_search ua s).of_none hnone))

theorem Answered.of_root (h : Answered s) (hroot : IsRoot root.label)
    (hnone : root.label.lastFinalResponse = none → s.root.label.lastFinalResponse = none) :
    Answered { s with root } where
  isRoot := hroot
  disciplined := h.disciplined
  unanswered := fun hn => h.unanswered (hnone hn)

theorem responses_sendFinal (s : State) (m : SipResponse) :
    (s.sendFinal m).responses = s.responses ++ [m] := by
  simp [State.responses, State.sendFinal]

theorem responses_sendProvisional (s : State) (m : SipResponse) :
    (s.sendProvisional m).responses = s.responses ++ [m] := by
  simp [State.responses, State.sendProvisional]

theorem Answered.sendFinal (h : Answered s)
    (hm : s.root.label.lastFinalResponse = none ∨ 200 ≤ m.statusCode ∧ m.statusCode < 300) :
    Answered (s.sendFinal m) where
  isRoot := ⟨h.isRoot.isServerTransaction, h.isRoot.isDnsSrvChild⟩
  disciplined := by
    rw [responses_sendFinal]
    exact h.disciplined.concat (hm.imp_left h.unanswered)
  unanswered := fun hnone => nomatch hnone

theorem Unsuccessful.sendFinal (s : State) (m : SipResponse) : Unsuccessful (s.sendFinal m) :=
  fun hnone => nomatch hnone

theorem Answered.sendProvisional (h : Answered s)
    (hnone : s.root.label.lastFinalResponse = none) (hm : m.statusCode < 200) :
    Answered (s.sendProvisional m) where
  isRoot := ⟨h.isRoot.isServerTransaction, h.isRoot.isDnsSrvChild⟩
  disciplined := by
    rw [responses_sendProvisional]
    exact h.disciplined.concat (Or.inl (h.unanswered hnone))
  unanswered := by
    intro _
    rw [responses_sendProvisional, forall_mem_append, forall_mem_singleton]
    exact ⟨h.unanswered hnone, hm⟩

/-- The best response is sent once nothing is searched any more. -/
theorem answered_handleChildTimeoutEvent (h : Answered s) (hun : Unsuccessful s) :
    Answered (handleChildTimeoutEvent ua s) ∧ Unsuccessful (handleChildTimeoutEvent ua s) := by
  unfold handleChildTimeoutEvent
  split
  · exact ⟨h.search, hun.search⟩
  · split
    · rename_i hnone
      split
      · exact ⟨h.search, hun.search⟩
      · split
        · exact ⟨h.search.sendFinal (Or.inl hnone), .sendFinal _ _⟩
        · exact ⟨h.search, hun.search⟩
    · exact ⟨h.search, hun.search⟩

theorem answered_handleChildIncoming (h : Answered s)
    (hun : ¬ (200 ≤ m.statusCode ∧ m.statusCode < 300) → Unsuccessful s) :
    Answered (handleChildIncoming ua s m) ∧ Unsuccessful (handleChildIncoming ua s m) := by
  unfold handleChildIncoming
  dsimp only
  by_cases hsuccess : 200 ≤ m.statusCode ∧ m.statusCode < 300
  · rw [if_neg (by omega), if_neg (by omega), if_pos ⟨hsuccess.2, Or.inr hsuccess.1⟩,
      if_neg (by omega)]
    exact ⟨h.sendFinal (Or.inr (by simpa [forwarded] using hsuccess)), .sendFinal _ _⟩
  · have hun := hun hsuccess
    split
    · exact ⟨h, hun⟩
    · split
      · exact ⟨h, hun⟩
      · split
        · rename_i hprovisional
          have hcode : m.statusCode < 200 := by omega
          have hnone : s.root.label.lastFinalResponse = none := by
            rcases hprovisional.2 with hnone | hge
            · exact hnone
            · omega
          rw [if_pos hcode]
          exact ⟨h.sendProvisional hnone (by simpa [forwarded] using hcode), hun⟩
        · split
          · rename_i hnone
            split
            · exact ⟨h.search, hun.search⟩
            · split
              · exact ⟨h.search, hun.search⟩
              · refine ⟨h.search.sendFinal (Or.inl ?_), .sendFinal _ _⟩
                rcases (kept_search ua s).lastFinalResponse with heq | ⟨hne, -⟩
                · exact heq.trans hnone
                · exact absurd hnone hne
          · exact ⟨h, hun⟩

theorem isSuccess_iff {m : Message} :
    m.isSuccess = true ↔ 200 ≤ m.response.statusCode ∧ m.response.statusCode < 300 := by
  rw [Message.isSuccess, decide_eq_true_iff]

theorem answered_receive (h : Answered s) (hun : Unsuccessful s)
    {m : Message} (hpath : path ≠ []) (hx : s.root.get? path = some x) :
    Answered (receive ua s path x.label m) ∧ Unsuccessful (receive ua s path x.label m) := by
  have hxun : s.root.label.lastFinalResponse = none → ∀ m', x.label.lastFinalResponse = some m' →
      m'.isSuccess = false := fun hnone => (finals_get? (hun hnone) hpath hx).here
  -- the tree with a response that is new to the client transaction
  have hput : ∀ t, (m.isSuccess = false → s.root.label.lastFinalResponse = none →
      ∀ m', t.lastFinalResponse = some m' → m'.isSuccess = false) →
      Answered (handleChildIncoming ua { s with root := addResponse s.root path t } m.response) ∧
      Unsuccessful
        (handleChildIncoming ua { s with root := addResponse s.root path t } m.response) := by
    intro t ht
    have hlabel : (addResponse s.root path t).label = _ := Rose.label_alter hpath s.root
    refine answered_handleChildIncoming (s := { s with root := addResponse s.root path t })
      (h.of_root ?_ ?_) ?_
    · rw [hlabel]
      exact ⟨h.isRoot.isServerTransaction, h.isRoot.isDnsSrvChild⟩
    · rw [hlabel]
      exact id
    · intro hcode hnone
      rw [← isSuccess_iff, Bool.not_eq_true] at hcode
      dsimp only at hnone
      rw [hlabel] at hnone
      dsimp only [addResponse]
      refine finals_alter (fun a => ?_) (fun y hy => finals_put hy (ht hcode hnone)) hpath
        (hun hnone)
      rfl
  unfold receive
  split
  · exact hput _ fun _ hnone => hxun hnone
  · refine hput _ fun hm _ m' hm' => ?_
    obtain rfl := Option.some.inj hm'
    exact hm
  · rename_i hrelation
    split
    · rename_i hresend
      simp only [Bool.and_eq_true] at hresend
      obtain ⟨last, hlast, hcode⟩ := whatRelation_eq_duplicate hrelation
      -- the success response that is repeated has been sent on
      have hsome : s.root.label.lastFinalResponse ≠ none := by
        intro hnone
        have hfail := hxun hnone last hlast
        rw [Message.isSuccess, hcode, ← Message.isSuccess, hresend.1.2] at hfail
        cases hfail
      refine ⟨⟨h.isRoot, ?_, fun hnone => absurd hnone hsome⟩, fun hnone => absurd hnone hsome⟩
      have hconcat := h.disciplined.concat (m := forwarded m.response)
        (Or.inr (by simpa [forwarded] using isSuccess_iff.mp hresend.1.2))
      simpa [State.responses] using hconcat
    · exact ⟨h, hun⟩
  · exact ⟨h, hun⟩

theorem answered_alter (h : Answered s) (hun : Unsuccessful s) (hpath : path ≠ [])
    {f : Tree → Tree} (hf : ∀ {Q y}, Finals Q y → Finals Q (f y)) :
    Answered { s with root := s.root.alter id f path } ∧
      Unsuccessful { s with root := s.root.alter id f path } := by
  have hlabel : (s.root.alter id f path).label = s.root.label := Rose.label_alter hpath s.root
  refine ⟨h.of_root (hlabel ▸ h.isRoot) (hlabel ▸ id), fun hnone => ?_⟩
  exact finals_alter (fun _ => rfl) (fun _ hy => hf hy) hpath (hun (hlabel ▸ hnone))

theorem answered_modifyAt (h : Answered s) (hun : Unsuccessful s)
    (hpath : path ≠ []) {f : Transaction → Transaction}
    (hf : ∀ t, (f t).lastFinalResponse = t.lastFinalResponse) :
    Answered { s with root := modifyAt s.root path f } ∧
      Unsuccessful { s with root := modifyAt s.root path f } :=
  answered_alter h hun hpath fun hy => finals_put hy fun m hm => hy.here m (hf _ ▸ hm)

theorem answered_handleResendEvent (h : Answered s) (hun : Unsuccessful s)
    (hpath : path ≠ []) (t : Transaction) (ofCancel resent : Bool) :
    Answered (handleResendEvent ua s path t ofCancel resent) ∧
      Unsuccessful (handleResendEvent ua s path t ofCancel resent) := by
  unfold handleResendEvent
  split
  · exact ⟨h, hun⟩
  · have hmodify := answered_modifyAt h hun hpath (f := fun t : Transaction =>
      { t with state := if t.state = .calling then .complete else t.state }) fun _ => rfl
    dsimp only
    split
    · exact hmodify
    · exact answered_handleChildTimeoutEvent hmodify.1 hmodify.2

theorem answered_handleExpiresEvent (h : Answered s) (hun : Unsuccessful s)
    (hpath : path ≠ []) (siblings : List Tree) (x : Tree) (ofCancel extendable : Bool) :
    Answered (handleExpiresEvent ua s path siblings x ofCancel extendable) ∧
      Unsuccessful (handleExpiresEvent ua s path siblings x ofCancel extendable) := by
  unfold handleExpiresEvent
  split
  · exact answered_modifyAt h hun hpath fun _ => rfl
  · have hexpired := answered_modifyAt h hun hpath (f := Transaction.expire)
      lastFinalResponse_cancel
    dsimp only
    split <;> split
    · exact hexpired
    · exact ⟨h, hun⟩
    · exact answered_handleChildTimeoutEvent hexpired.1 hexpired.2
    · exact answered_handleChildTimeoutEvent h hun

theorem answered_cancelChild (h : Answered s) (hun : Unsuccessful s) (path : List Nat)
    (index : Nat) :
    Answered { s with root := s.root.alter id (cancelChild index) path } ∧
      Unsuccessful { s with root := s.root.alter id (cancelChild index) path } := by
  by_cases hpath : path = []
  · subst hpath
    exact ⟨h.of_root h.isRoot id, fun hnone => finals_cancelChild (hun hnone)⟩
  · exact answered_alter h hun hpath fun hy =>
      .node hy.here (finals_cancelChild fun _ hc => hy.child hc)

theorem responses_cancelResponse (s : State) (m : SipResponse) :
    State.responses { s with upstream := s.upstream ++ [⟨m, true⟩] } = s.responses := by
  simp [State.responses]

theorem Answered.cancelResponse (h : Answered s) (m : SipResponse) :
    Answered { s with upstream := s.upstream ++ [⟨m, true⟩] } where
  isRoot := h.isRoot
  disciplined := by
    rw [responses_cancelResponse]
    exact h.disciplined
  unanswered := by
    rw [responses_cancelResponse]
    exact h.unanswered

theorem answered_handleCancel (h : Answered s) (hun : Unsuccessful s) (cancel : SipRequest) :
    Answered (handleCancel ua s cancel) ∧ Unsuccessful (handleCancel ua s cancel) := by
  unfold handleCancel
  split
  · exact ⟨h.cancelResponse _, hun⟩
  · dsimp only
    split
    · rename_i hfirst
      simp only [Bool.and_eq_true, Option.isNone_iff_eq_none] at hfirst
      exact ⟨(h.sendFinal (Or.inl hfirst.2)).cancelResponse _, .sendFinal _ _⟩
    · exact ⟨h.cancelResponse _, hun⟩

theorem answered_sendRequest (h : Answered s) (hun : Unsuccessful s) (request : SipRequest)
    (target : Target) :
    Answered (sendRequest ua s request target) ∧ Unsuccessful (sendRequest ua s request target) := by
  refine ⟨⟨h.isRoot, h.disciplined, h.unanswered⟩, fun hnone c hc => ?_⟩
  rcases mem_linkChild.mp hc with rfl | hc
  · exact finals_handleOutgoing loopDetectedResponse_not_isSuccess _ (finals_targetTransaction _)
  · exact hun hnone c hc

/-- Every allowed event keeps the responses disciplined. -/
theorem answered_step (h : Answered s) (hun : Unsuccessful s) (he : Allowed s e) :
    Answered (step ua s e) ∧ Unsuccessful (step ua s e) := by
  cases e with
  | send request target => exact answered_sendRequest h hun request target
  | response path m =>
    obtain ⟨x, hx, hdns, -⟩ := he
    have hpath := h.isRoot.path_ne_nil hx (Or.inl hdns)
    have hreceive : Answered (receive ua s path x.label m) ∧
        Unsuccessful (receive ua s path x.label m) := answered_receive h hun hpath hx
    rw [step, hx]
    exact ⟨⟨hreceive.1.isRoot, hreceive.1.disciplined, hreceive.1.unanswered⟩, hreceive.2⟩
  | resend path ofCancel resent =>
    obtain ⟨x, hx, hdns, -⟩ := he
    rw [step, hx]
    exact answered_handleResendEvent h hun (h.isRoot.path_ne_nil hx (Or.inl hdns)) _ _ _
  | expires path ofCancel extendable =>
    obtain ⟨x, hx, hclient, -⟩ := he
    have hpath := h.isRoot.path_ne_nil hx (Or.inr hclient)
    rw [step, hx]
    split
    · exact answered_handleExpiresEvent h hun hpath _ _ _ _
    · exact ⟨h, hun⟩
  | cancelChild path index => exact answered_cancelChild h hun path index
  | cancel cancel => exact answered_handleCancel h hun cancel

end Answered

theorem answered_start (isInvite : Bool) (request : SipRequest) :
    Answered (start isInvite request) ∧ Unsuccessful (start isInvite request) := by
  refine ⟨⟨⟨rfl, rfl⟩, ?_, fun _ => ?_⟩, fun _ _ hc => nomatch hc⟩
  · cases isInvite with
    | false => exact ⟨Nat.zero_le _, .nil, .nil⟩
    | true => exact ⟨Nat.zero_le _, pairwise_singleton _ _, pairwise_singleton _ _⟩
  · cases isInvite with
    | false => exact fun _ hm => nomatch hm
    | true =>
      intro m hm
      obtain rfl := mem_singleton.mp hm
      exact (by decide : (100 : Int) < 200)

/-- Whatever happens below a server transaction, the caller gets at most one failure
response, none after a success response, and no provisional response after a final one. -/
theorem disciplined_of_reaches {ua : UserAgent} {isInvite : Bool} {request : SipRequest}
    {s : State} (h : Run.Reaches (step ua) Allowed (start isInvite request) s) :
    Disciplined s.responses := by
  have hstep : ∀ s e, Answered s ∧ Unsuccessful s → Allowed s e →
      Answered (step ua s e) ∧ Unsuccessful (step ua s e) :=
    fun s e hs he => answered_step hs.1 hs.2 he
  exact (h.invariant (answered_start isInvite request) hstep).1.disciplined

/-- A response with its To tag. -/
def answer (statusCode : Int) (toTag : Text := []) : Message where
  response := { statusCode }
  toTag

/-- The first target redirects to two contacts; the first of them is busy, and the caller
cancels while the second is ringing. -/
def redirectedInvite : List Event :=
  [.send ⟨[]⟩ { servers := [{}] },
    .response [0, 0] { answer 302 with
      contacts := [{ qvalue := 1, servers := [{}] }, { qvalue := 1 / 2, servers := [{}] }] },
    .response [0, 0, 0, 0] (answer 486),
    .response [0, 0, 1, 0] (answer 180),
    .cancel ⟨[]⟩,
    .response [0, 0, 1, 0] (answer 487)]

theorem disciplined_redirectedInvite :
    ((redirectedInvite.foldl (step {}) (start true ⟨[]⟩)).responses.map (·.statusCode) =
      [100, 180, 487]) ∧
      Disciplined (redirectedInvite.foldl (step {}) (start true ⟨[]⟩)).responses :=
  ⟨by decide +kernel, disciplined_of_reaches (Run.AllAllowed.reaches (by decide +kernel))⟩

/-! ## Success responses -/

/-- A success response with a To tag not seen before is passed on to the caller, once. -/
def ForwardsAnswer (ua : UserAgent) (s : State) : Event → Prop
  | .response path m =>
    m.isSuccess = true → m.toTag ∉ s.seen →
      (step ua s (.response path m)).upstream = s.upstream ++ [⟨forwarded m.response, false⟩]
  | _ => True

/-- A success response with a To tag not seen before comes to a transaction without a
final response, or to one whose last final response has the same status code and no To
tag. -/
def MeetsUnanswered (s : State) : Event → Prop
  | .response path m =>
    m.isSuccess = true → m.toTag ∉ s.seen → ∃ x, s.root.get? path = some x ∧
      (x.label.lastFinalResponse = none ∨
        ∃ last, x.label.lastFinalResponse = some last ∧
          last.response.statusCode = m.response.statusCode ∧ last.toTag = [] ∧
          m.hasSecondVia = true)
  | _ => True

/-- The To tags of the success responses that the client transactions keep are seen. -/
structure Tagged (seen : List Text) (x : Tree) : Prop where
  isRoot : IsRoot x.label
  finals : ∀ c ∈ x.children, Finals (fun m => m.isSuccess = true → m.toTag ∈ seen) c

section Tagged

variable {ua : UserAgent} {seen : List Text}

theorem loopDetectedResponse_seen (seen : List Text) (request : SipRequest) (loopHop : Nat) :
    (loopDetectedResponse request loopHop).isSuccess = true →
      (loopDetectedResponse request loopHop).toTag ∈ seen := by
  intro h
  rw [loopDetectedResponse_not_isSuccess] at h
  cases h

theorem closed_tagged (ua : UserAgent) (seen : List Text) :
    Closed ua fun x _ => Tagged seen x where
  final := fun _ h => ⟨⟨h.isRoot.isServerTransaction, h.isRoot.isDnsSrvChild⟩, h.finals⟩
  provisional := fun h => ⟨⟨h.isRoot.isServerTransaction, h.isRoot.isDnsSrvChild⟩, h.finals⟩
  search := fun h => ⟨h.isRoot.of_kept (kept_searchBelow ua _ _),
    finals_searchBelow (loopDetectedResponse_seen seen) h.finals⟩

theorem Tagged.mono {seen' : List Text} (h : Tagged seen x) (hseen : seen ⊆ seen') :
    Tagged seen' x where
  isRoot := h.isRoot
  finals := fun c hc => (h.finals c hc).mono fun _ _ ht m hm hsuccess => hseen (ht m hm hsuccess)

theorem Tagged.alter (h : Tagged seen x) (hpath : path ≠ [])
    {f : Tree → Tree} (hf : ∀ {Q y}, Finals Q y → Finals Q (f y)) :
    Tagged seen (x.alter id f path) where
  isRoot := by
    rw [Rose.label_alter hpath]
    exact h.isRoot
  finals := finals_alter (fun _ => rfl) (fun _ hy => hf hy) hpath h.finals

theorem Tagged.modifyAt (h : Tagged seen x) (hpath : path ≠ [])
    {f : Transaction → Transaction} (hf : ∀ t, (f t).lastFinalResponse = t.lastFinalResponse) :
    Tagged seen (modifyAt x path f) :=
  h.alter hpath fun hy => finals_put hy fun m hm => hy.here m (hf _ ▸ hm)

theorem Tagged.addResponse (h : Tagged seen x) (hpath : path ≠ [])
    (ht : ∀ m, t.lastFinalResponse = some m → m.isSuccess = true → m.toTag ∈ seen) :
    Tagged seen (addResponse x path t) where
  isRoot := by
    rw [TransactionTree.addResponse, Rose.label_alter hpath]
    exact ⟨h.isRoot.isServerTransaction, h.isRoot.isDnsSrvChild⟩
  finals := by
    unfold TransactionTree.addResponse
    refine finals_alter (fun a => ?_) (fun y hy => finals_put hy ht) hpath h.finals
    rfl

/-- Every allowed event keeps the tags of the success responses among those seen. -/
theorem tagged_step {s : State} (h : Tagged s.seen s.root) (he : Allowed s e) :
    Tagged (step ua s e).seen (step ua s e).root := by
  have hclosed := fun seen => closed_tagged ua seen
  cases e with
  | send request target =>
    refine ⟨h.isRoot, fun c hc => ?_⟩
    rcases mem_linkChild.mp hc with rfl | hc
    · exact finals_handleOutgoing (loopDetectedResponse_seen s.seen) _
        (finals_targetTransaction _)
    · exact h.finals c hc
  | response path m =>
    obtain ⟨x, hx, hdns, -⟩ := he
    have hpath := h.isRoot.path_ne_nil hx (Or.inl hdns)
    rw [step, hx]
    dsimp only
    set seen := if m.isSuccess = true then m.toTag :: s.seen else s.seen with hseen
    have hsub : s.seen ⊆ seen := by
      rw [hseen]
      split
      · exact subset_cons_self _ _
      · exact List.Subset.refl _
    have h := h.mono hsub
    refine (hclosed seen).receive h ?_ ?_
    · exact h.addResponse hpath (finals_get? h.finals hpath hx).here
    · refine h.addResponse hpath fun m' hm' hsuccess => ?_
      obtain rfl := Option.some.inj hm'
      rw [hseen, if_pos hsuccess]
      exact mem_cons_self
  | resend path ofCancel resent =>
    obtain ⟨x, hx, hdns, -⟩ := he
    have hpath := h.isRoot.path_ne_nil hx (Or.inl hdns)
    rw [step, hx]
    dsimp only
    rw [(noted_handleResendEvent ua s path x.label ofCancel resent).seen]
    exact (hclosed _).handleResendEvent h (h.modifyAt hpath fun _ => rfl)
  | expires path ofCancel extendable =>
    obtain ⟨x, hx, hclient, -⟩ := he
    have hpath := h.isRoot.path_ne_nil hx (Or.inr hclient)
    rw [step, hx]
    split
    · rw [(noted_handleExpiresEvent ua s path _ _ ofCancel extendable).seen]
      exact (hclosed _).handleExpiresEvent h (h.modifyAt hpath fun _ => rfl)
        (h.modifyAt hpath lastFinalResponse_cancel)
    · exact h
  | cancelChild path index =>
    by_cases hpath : path = []
    · subst hpath
      exact ⟨h.isRoot, finals_cancelChild h.finals⟩
    · exact h.alter hpath fun hy => .node hy.here (finals_cancelChild fun _ hc => hy.child hc)
  | cancel cancel =>
    rw [step, (noted_handleCancel ua s cancel).seen]
    exact (hclosed _).handleCancel h

theorem isInvite_step (ua : UserAgent) (s : State) (e : Event) :
    (step ua s e).isInvite = s.isInvite := by
  cases e with
  | send request target => rfl
  | response path m =>
    rw [step]
    split
    · rfl
    · exact (noted_receive ua s path _ m).isInvite
  | resend path ofCancel resent =>
    rw [step]
    split
    · rfl
    · exact (noted_handleResendEvent ua s path _ ofCancel resent).isInvite
  | expires path ofCancel extendable =>
    rw [step]
    split
    · exact (noted_handleExpiresEvent ua s path _ _ ofCancel extendable).isInvite
    · rfl
  | cancelChild path index => rfl
  | cancel cancel => exact (noted_handleCancel ua s cancel).isInvite

/-- A success response is passed on exactly when its transaction has not answered. -/
theorem forwardsAnswer_iff_meetsUnanswered {s : State} (hinvite : s.isInvite = true)
    (h : Tagged s.seen s.root) (he : Allowed s e) :
    ForwardsAnswer ua s e ↔ MeetsUnanswered s e := by
  cases e with
  | response path m =>
    obtain ⟨x, hx, hdns, -⟩ := he
    have hpath := h.isRoot.path_ne_nil hx (Or.inl hdns)
    refine imp_congr_right fun hsuccess => imp_congr_right fun hseen => ?_
    have hcode := isSuccess_iff.mp hsuccess
    have hstep : (step ua s (.response path m)).upstream =
        (receive ua s path x.label m).upstream := by
      rw [step, hx]
    rw [hstep]
    simp only [hx, Option.some.injEq, exists_eq_left']
    unfold receive whatRelation
    rw [if_neg (by omega)]
    cases hlast : x.label.lastFinalResponse with
    | none =>
      simp only [true_or, iff_true]
      unfold handleChildIncoming
      dsimp only
      rw [if_neg (by omega), if_neg (by omega), if_pos ⟨hcode.2, Or.inr hcode.1⟩,
        if_neg (by omega)]
      rfl
    | some last =>
      -- a repeated response would have a To tag that was seen
      have hother : last.response.statusCode = m.response.statusCode →
          last.toTag ≠ m.toTag := by
        intro hsame heq
        refine hseen (heq ▸ (finals_get? h.finals hpath hx).here last hlast ?_)
        rw [Message.isSuccess, hsame]
        exact hsuccess
      simp only [reduceCtorEq, Option.some.injEq, exists_eq_left', false_or]
      by_cases hsame : last.response.statusCode = m.response.statusCode
      · by_cases htag : last.toTag = []
        · simp only [hsame, htag, hinvite, hsuccess]
          cases m.hasSecondVia <;> simp
        · have hne := hother hsame
          simp [hinvite, hsame, htag, hne]
      · simp [hsame]
  | _ => exact Iff.rfl

end Tagged

/-- Along every run below an INVITE, each success response with a To tag not seen before
is passed on exactly if each of them comes to a transaction without a final response, or
to one whose last final response has the same status code and no To tag. -/
theorem forwardsAnswer_iff {ua : UserAgent} {request : SipRequest} {es : List Event}
    (h : Run.AllAllowed (step ua) Allowed (start true request) es) :
    Run.AllAllowed (step ua) (ForwardsAnswer ua) (start true request) es ↔
      Run.AllAllowed (step ua) MeetsUnanswered (start true request) es := by
  have hgeneral : ∀ (es : List Event) (s : State), s.isInvite = true → Tagged s.seen s.root →
      Run.AllAllowed (step ua) Allowed s es →
      (Run.AllAllowed (step ua) (ForwardsAnswer ua) s es ↔
        Run.AllAllowed (step ua) MeetsUnanswered s es) := by
    intro es
    induction es with
    | nil => exact fun _ _ _ _ => Iff.rfl
    | cons e es ih =>
      rintro s hinvite htagged ⟨he, hes⟩
      exact and_congr (forwardsAnswer_iff_meetsUnanswered hinvite htagged he)
        (ih _ ((isInvite_step ua s e).trans hinvite) (tagged_step htagged he) hes)
  exact hgeneral es _ rfl ⟨⟨rfl, rfl⟩, fun _ hc => nomatch hc⟩ h

/-- Two targets answer with To tags of their own. -/
def twoAnswers : List Event :=
  [.send ⟨[]⟩ { servers := [{}] }, .send ⟨[]⟩ { servers := [{}] },
    .response [0, 0] (answer 200 [1]), .response [1, 0] (answer 200 [2])]

theorem forwardsAnswer_twoAnswers :
    Run.AllAllowed (step {}) Allowed (start true ⟨[]⟩) twoAnswers ∧
      Run.AllAllowed (step {}) (ForwardsAnswer {}) (start true ⟨[]⟩) twoAnswers := by
  have hallowed : Run.AllAllowed (step {}) Allowed (start true ⟨[]⟩) twoAnswers := by
    decide
  refine ⟨hallowed, (forwardsAnswer_iff hallowed).mpr ?_⟩
  exact ⟨trivial, trivial, fun _ _ => ⟨_, rfl, Or.inl rfl⟩, fun _ _ => ⟨_, rfl, Or.inl rfl⟩,
    trivial⟩

/-- One target, behind which the request is forked, answers twice with different To
tags. -/
def forkedDownstream : List Event :=
  [.send ⟨[]⟩ { servers := [{}] }, .response [0, 0] (answer 200 (text "a1")),
    .response [0, 0] (answer 200 (text "b2"))]

/-- The second answer is not passed on. -/
theorem forkedDownstream_not_forwardsAnswer :
    Run.AllAllowed (step {}) Allowed (start true ⟨[]⟩) forkedDownstream ∧
      ¬ Run.AllAllowed (step {}) (ForwardsAnswer {}) (start true ⟨[]⟩) forkedDownstream := by
  refine ⟨by decide, ?_⟩
  rintro ⟨-, -, hforwards, -⟩
  have hupstream := congrArg length (hforwards rfl (by decide))
  revert hupstream
  decide

end TransactionTree

end SipXRouter
