import Mathlib.Algebra.Order.Ring.Rat
import Mathlib.Tactic.NormNum
import SipXRouter.Preference
import SipXRouter.Rose
import SipXRouter.Net.FindBestResponse
import SipXRouter.Net.SipTransactionList

/-!
# The tree of client transactions below a proxied request

A proxied request has a server transaction at the top.  Each target it is sent to is a
client transaction below it, whose children are the servers that DNS names for the
target; only these send anything.  A server that answers with a redirection gets the
contacts as children of its own, which are targets again.

## Design notes

What comes from outside is part of the data: a target knows what DNS will answer for
it, a server whether a request can be sent to it, and a redirection whether its
contacts close a loop.  The q values are rational numbers.

The Via that a target adds to its request to be found by its timers is taken off
again before a server gets a copy, so it is left out.

Each function returns what it tried to send, with the siblings as they were then.
-/

namespace SipXRouter

open List

namespace TransactionTree

open SipTransaction SipTransactionList

/-! ## Transactions -/

/-- The value of the enumerator. -/
def rank : TransactionState → Nat
  | .unknown => 0
  | .locallyInitiated => 1
  | .calling => 2
  | .proceeding => 3
  | .complete => 4
  | .confirmed => 5
  | .terminated => 6

/-- `if (mTransactionState < floor) mTransactionState = floor`. -/
def advance (state floor : TransactionState) : TransactionState :=
  if rank state < rank floor then floor else state

/-- `MIN_Q_DELTA_SQUARE`. -/
def minQDeltaSquare : ℚ := 1 / 10000000000

/-- The settings of the user agent that the search depends on. -/
structure UserAgent where
  isForkingEnabled : Bool := true
  recurseOnlyOne300Contact : Bool := false
  maxSrvRecords : Nat := 4
  enableHopByHopCancel : Bool := true
deriving DecidableEq

/-- A record that DNS has for a target, and whether a request can be sent there. -/
structure Server where
  isProtocolKnown : Bool := true
  sendSucceeds : Bool := true
  /-- The Via value of requests sent there. -/
  via : Text := []
deriving DecidableEq

/-- Where a request may be sent to: a contact of a redirection, or the next hop of the
request that is proxied. -/
structure Target where
  qvalue : ℚ := 1
  hasSendAddress : Bool := true
  /-- What `SipSrvLookup::servers` answers. -/
  servers : List Server
deriving DecidableEq

/-- A response, as a client transaction receives it. -/
structure Message where
  response : SipResponse
  toTag : Text := []
  hasSecondVia : Bool := true
  hasSdpBody : Bool := false
  contacts : List Target := []
  /-- What `loopDetected` answers when the contacts are pursued. -/
  loopHop : Nat := 0
deriving DecidableEq

/-- `SipTransaction`. -/
structure Transaction where
  isServerTransaction : Bool := false
  isDnsSrvChild : Bool := false
  state : TransactionState := .locallyInitiated
  isCanceled : Bool := false
  isRecursing : Bool := false
  qvalue : ℚ := 1
  request : Option SipRequest := none
  hasSendAddress : Bool := false
  servers : List Server := []
  dnsDestinations : Option (List Server) := none
  sendSucceeds : Bool := true
  via : Text := []
  hasProvisionalResponse : Bool := false
  provisionalSdp : Bool := false
  provoExtendsTimer : Bool := false
  lastFinalResponse : Option Message := none
  /-- The transaction has been cancelled because its timer expired. -/
  hasExpired : Bool := false
deriving DecidableEq

abbrev Tree := Rose Transaction

namespace Transaction

/-- The transaction waits for a response. -/
def isCalling (t : Transaction) : Bool := t.state == .calling || t.state == .proceeding

/-- The test for a child that is being pursued. -/
def isPursued (t : Transaction) : Bool := t.isCalling && !t.isCanceled

def isUnsent (t : Transaction) : Bool := t.state == .locallyInitiated

def hasResponse (t : Transaction) : Bool :=
  t.hasProvisionalResponse || t.lastFinalResponse.isSome

/-- `addResponse` with `MESSAGE_REQUEST`. -/
def addRequest (t : Transaction) (request : SipRequest) : Transaction :=
  { t with
    request := some (t.request.getD request)
    state := advance t.state .calling }

/-- `addResponse` with an incoming `MESSAGE_PROVISIONAL`. -/
def addProvisional (t : Transaction) (m : Message) : Transaction :=
  { t with
    hasProvisionalResponse := true
    provisionalSdp := t.provisionalSdp || m.hasSdpBody
    provoExtendsTimer := t.provoExtendsTimer || decide (100 < m.response.statusCode)
    state := advance t.state .proceeding }

/-- `addResponse` with `MESSAGE_FINAL`. -/
def addFinal (t : Transaction) (m : Message) : Transaction :=
  { t with
    lastFinalResponse := some m
    state := advance t.state .complete }

end Transaction

/-- A child that is sent its request: the transaction it belongs to, and its siblings
in the order of the list. -/
structure Attempt where
  parent : Transaction
  before : List Tree
  child : Tree
  after : List Tree

/-- What a function leaves of a transaction, whether it has started anything, and what
it has tried. -/
structure Outcome where
  tree : Tree
  started : Bool
  attempts : List Attempt

/-- The same for the children of a transaction. -/
structure Sends where
  children : List Tree
  started : Bool
  attempts : List Attempt

/-- `linkChild`: largest q value first, and behind those of its own. -/
def linkChild (children : List Tree) (c : Tree) : List Tree :=
  children.takeWhile (fun d => !decide (d.label.qvalue < c.label.qvalue)) ++
    c :: children.dropWhile (fun d => !decide (d.label.qvalue < c.label.qvalue))

namespace Request

def addVia (request : SipRequest) (via : Text) : SipRequest := ⟨via :: request.via⟩

def removeTopVia (request : SipRequest) : SipRequest :=
  ⟨(SipResponse.removeTopVia { via := request.via }).via⟩

end Request

/-! ## DNS -/

/-- The child for one server record, with its q value a little below that of the parent. -/
def dnsChild (t : Transaction) (numSrvRecords : Nat) (server : Server) : Tree :=
  .node
    { isDnsSrvChild := true
      qvalue := t.qvalue - numSrvRecords * (1 / 10000)
      sendSucceeds := server.sendSucceeds
      via := server.via }
    []

/-- The children for the records of a target, up to the maximum.  A record with an
unknown protocol gets none and is not counted. -/
def dnsChildren (t : Transaction) : (numSrvRecords maxSrvRecords : Nat) → List Server → List Tree
  | _, _, [] => []
  | numSrvRecords, maxSrvRecords, server :: servers =>
    if numSrvRecords < maxSrvRecords then
      if server.isProtocolKnown then
        dnsChild t numSrvRecords server ::
          dnsChildren t (numSrvRecords + 1) maxSrvRecords servers
      else dnsChildren t (numSrvRecords + 1) (maxSrvRecords + 1) servers
    else []

/-- The first half of `recurseDnsSrvChildren`: the one DNS lookup of a target. -/
def lookup (ua : UserAgent) (x : Tree) : Tree :=
  let t := x.label
  if t.isServerTransaction = false ∧ t.isDnsSrvChild = false ∧ t.dnsDestinations = none ∧
      t.request.isSome ∧ t.lastFinalResponse = none ∧ x.children.isEmpty ∧
      t.hasSendAddress ∧ rank t.state < rank .confirmed then
    .node { t with state := .confirmed, dnsDestinations := some t.servers }
      ((dnsChildren t 0 ua.maxSrvRecords t.servers).foldl linkChild [])
  else x

/-- `doFirstSend` of a request, by a child that DNS has named. -/
def doFirstSend (c : Tree) (request : SipRequest) : Tree :=
  let t := c.label.addRequest (Request.addVia request c.label.via)
  .node (if t.sendSucceeds then t else { t with state := .terminated }) c.children

/-- The loop of `recurseDnsSrvChildren`. -/
def pursueServers (parent : Transaction) (request : SipRequest) :
    (before : List Tree) → List Tree → Sends
  | before, [] => ⟨before, false, []⟩
  | before, c :: after =>
    if c.label.isUnsent then
      let attempt : Attempt := ⟨parent, before, c, after⟩
      if c.label.sendSucceeds then
        ⟨before ++ doFirstSend c request :: after, true, [attempt]⟩
      else
        let rest := pursueServers parent request (before ++ [doFirstSend c request]) after
        ⟨rest.children, rest.started, attempt :: rest.attempts⟩
    -- a child is being pursued, or has succeeded at least in getting a response
    else if c.label.isPursued || (!c.label.isCanceled && c.label.hasResponse) then
      ⟨before ++ c :: after, false, []⟩
    else pursueServers parent request (before ++ [c]) after

/-- `recurseDnsSrvChildren`.  The children of a transaction with DNS destinations are
the ones made here. -/
def recurseDnsSrvChildren (ua : UserAgent) (x : Tree) : Outcome :=
  let x := lookup ua x
  let t := x.label
  match t.dnsDestinations, t.request with
  | some (_ :: _), some request =>
    if t.isServerTransaction || t.isDnsSrvChild then ⟨x, false, []⟩
    else
      let sends := pursueServers t request [] x.children
      ⟨.node { t with isRecursing := t.isRecursing || sends.started } sends.children,
        sends.started, sends.attempts⟩
  | _, _ => ⟨x, false, []⟩

/-- `handleOutgoing` of a request. -/
def handleOutgoing (ua : UserAgent) (c : Tree) (request : SipRequest) : Outcome :=
  if c.label.isDnsSrvChild then ⟨doFirstSend c request, c.label.sendSucceeds, []⟩
  else recurseDnsSrvChildren ua (.node (c.label.addRequest request) c.children)

/-! ## Redirection -/

def targetTransaction (target : Target) : Tree :=
  .node
    { qvalue := target.qvalue
      hasSendAddress := target.hasSendAddress
      servers := target.servers }
    []

/-- The response that takes the place of a redirection in a loop. -/
def loopDetectedResponse (request : SipRequest) (loopHop : Nat) : Message where
  response := .ofRequest request 482
    (text ("Loop Detected with " ++ toString loopHop ++ " hops ago"))

/-- The first half of `recurseChildren`: the contacts of a redirection become
children.  None of them counts as recursed already, since `isUriRecursed` looks only at
the children just made. -/
def pursueContacts (ua : UserAgent) (x : Tree) (response : Message) (request : SipRequest) :
    Tree :=
  if ua.isForkingEnabled ∧ 300 ≤ response.response.statusCode ∧
      response.response.statusCode < 400 ∧ x.children.isEmpty then
    if response.loopHop = 0 then
      .node x.label ((response.contacts.map targetTransaction).foldl linkChild [])
    else .node (x.label.addFinal (loopDetectedResponse request response.loopHop)) x.children
  else x

/-- The variables of the loop of `recurseChildren` behind one child. -/
structure Turn where
  child : Tree
  nextQvalue : ℚ
  numRecursed : Nat
  attempts : List Attempt

/-- One round of the loop of `recurseChildren`. -/
def recurseChild (ua : UserAgent) (parent : Transaction) (request : SipRequest)
    (before : List Tree) (nextQvalue : ℚ) (numRecursed : Nat) (c : Tree) (after : List Tree) :
    Turn :=
  -- until a request is sent, each child may be the first of its q value
  let nextQvalue := if numRecursed = 0 then -1 else nextQvalue
  if c.label.isUnsent then
    let qDelta := nextQvalue - c.label.qvalue
    if nextQvalue ≤ 0 ∨ qDelta * qDelta < minQDeltaSquare then
      let sent := handleOutgoing ua c (Request.removeTopVia request)
      ⟨sent.tree, c.label.qvalue, if sent.started then numRecursed + 1 else numRecursed,
        ⟨parent, before, c, after⟩ :: sent.attempts⟩
    else ⟨c, nextQvalue, numRecursed, []⟩
  else if c.label.isPursued then ⟨c, c.label.qvalue, numRecursed, []⟩
  else ⟨c, nextQvalue, numRecursed, []⟩

/-- The loop of `recurseChildren`. -/
def recurseLoop (ua : UserAgent) (parent : Transaction) (request : SipRequest)
    (responseCode : Int) :
    (before : List Tree) → (nextQvalue : ℚ) → (numRecursed : Nat) → List Tree → Sends
  | before, _, numRecursed, [] => ⟨before, decide (numRecursed ≠ 0), []⟩
  | before, nextQvalue, numRecursed, c :: after =>
    let turn := recurseChild ua parent request before nextQvalue numRecursed c after
    -- optionally only the first contact of a 300 response
    if ua.recurseOnlyOne300Contact ∧ responseCode = 300 then
      ⟨before ++ turn.child :: after, decide (turn.numRecursed ≠ 0), turn.attempts⟩
    else
      let rest := recurseLoop ua parent request responseCode (before ++ [turn.child])
        turn.nextQvalue turn.numRecursed after
      ⟨rest.children, rest.started, turn.attempts ++ rest.attempts⟩

/-- A final response is followed: its contacts are linked as children and searched. -/
def recurseChildren (ua : UserAgent) (x : Tree) : Outcome :=
  match x.label.lastFinalResponse, x.label.request with
  | some response, some request =>
    let x := pursueContacts ua x response request
    let sends := recurseLoop ua x.label request response.response.statusCode [] (-1) 0 x.children
    ⟨.node { x.label with isRecursing := x.label.isRecursing || sends.started } sends.children,
      sends.started, sends.attempts⟩
  | _, _ => ⟨x, false, []⟩

/-! ## The search -/

/-- Where the loop of `startSequentialSearch` is. -/
structure Progress where
  parent : Transaction
  before : List Tree
  after : List Tree
  childStillProceeding : Bool := false
  startingNewSearch : Bool := false
  attempts : List Attempt := []

/-- The transaction itself is recursed, for the sake of an unsent child. -/
def recurse (ua : UserAgent) (x : Tree) : Outcome :=
  if x.label.dnsDestinations.isSome then recurseDnsSrvChildren ua x else recurseChildren ua x

/-- One round of the loop of `startSequentialSearch`, where `below` searches below the
child, and whether the loop ends there. -/
def searchChild (ua : UserAgent) (below : Tree → Outcome) (s : Progress) (c : Tree)
    (after : List Tree) : Progress × Bool :=
  let mayStart := !s.childStillProceeding && !s.parent.isCanceled && !c.label.isCanceled
  if c.label.isPursued then
    ({ s with before := s.before ++ [c], after, childStillProceeding := true }, false)
  else if c.label.isRecursing then
    let found := below c
    ({ s with
        before := s.before ++ [found.tree]
        after
        childStillProceeding := s.childStillProceeding || found.started
        attempts := s.attempts ++ found.attempts }, false)
  else if mayStart && (c.label.state == .complete || c.label.state == .confirmed) then
    let found := recurseChildren ua c
    ({ s with
        before := s.before ++ [found.tree]
        after
        startingNewSearch := s.startingNewSearch || found.started
        attempts := s.attempts ++ found.attempts }, false)
  else if mayStart && !s.startingNewSearch && c.label.isUnsent then
    let found := recurse ua (.node s.parent (s.before ++ c :: after))
    -- the iterator stays where it is
    ({ s with
        parent := found.tree.label
        before := found.tree.children.take (s.before.length + 1)
        after := found.tree.children.drop (s.before.length + 1)
        startingNewSearch := found.started
        attempts := s.attempts ++ found.attempts }, found.started)
  else ({ s with before := s.before ++ [c], after }, false)

/-- The loop of `startSequentialSearch`. -/
def searchLoop (ua : UserAgent) (below : Tree → Outcome) : (count : Nat) → Progress → Progress
  | 0, s => s
  | count + 1, s =>
    match s.after with
    | [] => s
    | c :: after =>
      let next := searchChild ua below s c after
      if next.2 then next.1 else searchLoop ua below count next.1

/-- `startSequentialSearch`, down to a depth. -/
def searchBelow (ua : UserAgent) : (depth : Nat) → Tree → Outcome
  | 0, x => ⟨x, true, []⟩
  | depth + 1, x =>
    let s := searchLoop ua (searchBelow ua depth) x.children.length
      { parent := x.label, before := [], after := x.children }
    let isRecursing := s.childStillProceeding || s.startingNewSearch
    ⟨.node { s.parent with isRecursing } (s.before ++ s.after), isRecursing, s.attempts⟩

/-- The search starts at the root and goes down as far as the tree is high. -/
def startSequentialSearch (ua : UserAgent) (x : Tree) : Outcome := searchBelow ua x.height x

/-! ## What the functions keep -/

/-- What sending and searching leave as it is.  The last final response can only be
replaced, by one that tells of a loop. -/
structure Kept (t u : Transaction) : Prop where
  isServerTransaction : u.isServerTransaction = t.isServerTransaction
  isDnsSrvChild : u.isDnsSrvChild = t.isDnsSrvChild
  isCanceled : u.isCanceled = t.isCanceled
  hasExpired : u.hasExpired = t.hasExpired
  qvalue : u.qvalue = t.qvalue
  hasProvisionalResponse : u.hasProvisionalResponse = t.hasProvisionalResponse
  lastFinalResponse : u.lastFinalResponse = t.lastFinalResponse ∨
    t.lastFinalResponse ≠ none ∧
      ∃ request loopHop, u.lastFinalResponse = some (loopDetectedResponse request loopHop)

variable {before cs : List Tree} {c x : Tree} {ua : UserAgent}

theorem Kept.refl (t : Transaction) : Kept t t := ⟨rfl, rfl, rfl, rfl, rfl, rfl, Or.inl rfl⟩

theorem Kept.trans {t u v : Transaction} (h : Kept t u) (h' : Kept u v) : Kept t v where
  isServerTransaction := h'.isServerTransaction.trans h.isServerTransaction
  isDnsSrvChild := h'.isDnsSrvChild.trans h.isDnsSrvChild
  isCanceled := h'.isCanceled.trans h.isCanceled
  hasExpired := h'.hasExpired.trans h.hasExpired
  qvalue := h'.qvalue.trans h.qvalue
  hasProvisionalResponse := h'.hasProvisionalResponse.trans h.hasProvisionalResponse
  lastFinalResponse := by
    rcases h'.lastFinalResponse with heq | ⟨hne, hloop⟩
    · rw [heq]
      exact h.lastFinalResponse
    · refine Or.inr ⟨?_, hloop⟩
      rcases h.lastFinalResponse with heq | ⟨hne', -⟩
      · rwa [heq] at hne
      · exact hne'

theorem Kept.of_none {t u : Transaction} (h : Kept t u) (hu : u.lastFinalResponse = none) :
    t.lastFinalResponse = none := by
  rcases h.lastFinalResponse with heq | ⟨-, request, loopHop, heq⟩
  · rw [← heq, hu]
  · rw [hu] at heq
    cases heq

theorem kept_addRequest (t : Transaction) (request : SipRequest) : Kept t (t.addRequest request) :=
  ⟨rfl, rfl, rfl, rfl, rfl, rfl, Or.inl rfl⟩

theorem kept_isRecursing (t : Transaction) (isRecursing : Bool) : Kept t { t with isRecursing } :=
  ⟨rfl, rfl, rfl, rfl, rfl, rfl, Or.inl rfl⟩

theorem kept_lookup (ua : UserAgent) (x : Tree) : Kept x.label (lookup ua x).label := by
  unfold lookup
  dsimp only
  split
  · exact ⟨rfl, rfl, rfl, rfl, rfl, rfl, Or.inl rfl⟩
  · exact .refl _

theorem kept_doFirstSend (c : Tree) (request : SipRequest) :
    Kept c.label (doFirstSend c request).label := by
  unfold doFirstSend
  dsimp only [Rose.label_node]
  split
  · exact kept_addRequest _ _
  · exact ⟨rfl, rfl, rfl, rfl, rfl, rfl, Or.inl rfl⟩

theorem kept_recurseDnsSrvChildren (ua : UserAgent) (x : Tree) :
    Kept x.label (recurseDnsSrvChildren ua x).tree.label := by
  unfold recurseDnsSrvChildren
  dsimp only
  split
  · split
    · exact kept_lookup ua x
    · exact (kept_lookup ua x).trans (kept_isRecursing _ _)
  · exact kept_lookup ua x

theorem kept_handleOutgoing (ua : UserAgent) (c : Tree) (request : SipRequest) :
    Kept c.label (handleOutgoing ua c request).tree.label := by
  unfold handleOutgoing
  split
  · exact kept_doFirstSend c request
  · exact (kept_addRequest c.label request).trans (kept_recurseDnsSrvChildren ua (.node _ _))

theorem kept_pursueContacts (ua : UserAgent) {response : Message}
    (request : SipRequest) (h : x.label.lastFinalResponse = some response) :
    Kept x.label (pursueContacts ua x response request).label := by
  unfold pursueContacts
  split
  · split
    · exact .refl _
    · refine ⟨rfl, rfl, rfl, rfl, rfl, rfl, Or.inr ⟨?_, request, response.loopHop, rfl⟩⟩
      rw [h]
      exact Option.some_ne_none response
  · exact .refl _

theorem kept_recurseChildren (ua : UserAgent) (x : Tree) :
    Kept x.label (recurseChildren ua x).tree.label := by
  unfold recurseChildren
  split
  · rename_i response request hresponse _
    exact (kept_pursueContacts ua request hresponse).trans (kept_isRecursing _ _)
  · exact .refl _

theorem kept_recurse (ua : UserAgent) (x : Tree) : Kept x.label (recurse ua x).tree.label := by
  unfold recurse
  split
  · exact kept_recurseDnsSrvChildren ua x
  · exact kept_recurseChildren ua x

theorem forall_pursueServers {Q : Tree → Prop} (parent : Transaction) (request : SipRequest)
    (hsend : ∀ c ∈ cs, c.label.isUnsent = true → Q (doFirstSend c request))
    (hbefore : ∀ c ∈ before, Q c) (hcs : ∀ c ∈ cs, Q c) :
    ∀ d ∈ (pursueServers parent request before cs).children, Q d := by
  induction cs generalizing before with
  | nil => exact hbefore
  | cons c after ih =>
    rw [forall_mem_cons] at hsend hcs
    have hconcat : ∀ {y}, Q y → ∀ d ∈ before ++ [y], Q d := fun hy =>
      forall_mem_append.mpr ⟨hbefore, forall_mem_singleton.mpr hy⟩
    have hput : ∀ {y}, Q y → ∀ d ∈ before ++ y :: after, Q d := fun hy =>
      forall_mem_append.mpr ⟨hbefore, forall_mem_cons.mpr ⟨hy, hcs.2⟩⟩
    rw [pursueServers]
    dsimp only
    split
    · rename_i hunsent
      split
      · exact hput (hsend.1 hunsent)
      · exact ih hsend.2 (hconcat (hsend.1 hunsent)) hcs.2
    · split
      · exact hput hcs.1
      · exact ih hsend.2 (hconcat hcs.1) hcs.2

/-- What one round of the loop over the contacts can do. -/
inductive TurnStep (ua : UserAgent) (parent : Transaction) (request : SipRequest)
    (before : List Tree) (nextQvalue : ℚ) (numRecursed : Nat) (c : Tree) (after : List Tree) :
    Turn → Prop
  | sent (sent : Outcome) (hsent : sent = handleOutgoing ua c (Request.removeTopVia request))
      (hunsent : c.label.isUnsent = true)
      (hnext : numRecursed = 0 ∨ nextQvalue ≤ 0 ∨
        (nextQvalue - c.label.qvalue) * (nextQvalue - c.label.qvalue) < minQDeltaSquare) :
      TurnStep ua parent request before nextQvalue numRecursed c after
        ⟨sent.tree, c.label.qvalue, if sent.started then numRecursed + 1 else numRecursed,
          ⟨parent, before, c, after⟩ :: sent.attempts⟩
  | waits (hunsent : c.label.isUnsent = true) (hnum : numRecursed ≠ 0) (hpos : 0 < nextQvalue)
      (hfar : minQDeltaSquare ≤
        (nextQvalue - c.label.qvalue) * (nextQvalue - c.label.qvalue)) :
      TurnStep ua parent request before nextQvalue numRecursed c after
        ⟨c, nextQvalue, numRecursed, []⟩
  | passed (nextQvalue' : ℚ) (hunsent : c.label.isUnsent = false) :
      TurnStep ua parent request before nextQvalue numRecursed c after
        ⟨c, nextQvalue', numRecursed, []⟩

/-- What one turn of the loop over the contacts can do. -/
theorem turnStep (ua : UserAgent) (parent : Transaction) (request : SipRequest)
    (before : List Tree) (nextQvalue : ℚ) (numRecursed : Nat) (c : Tree) (after : List Tree) :
    TurnStep ua parent request before nextQvalue numRecursed c after
      (recurseChild ua parent request before nextQvalue numRecursed c after) := by
  unfold recurseChild
  dsimp only
  by_cases hunsent : c.label.isUnsent = true
  · rw [if_pos hunsent]
    by_cases hnum : numRecursed = 0
    · rw [if_pos hnum, if_pos (Or.inl (by norm_num))]
      exact .sent _ rfl hunsent (Or.inl hnum)
    · rw [if_neg hnum]
      split
      · rename_i hnext
        exact .sent _ rfl hunsent (Or.inr hnext)
      · rename_i hnext
        rw [not_or, not_le, not_lt] at hnext
        exact .waits hunsent hnum hnext.1 hnext.2
  · rw [if_neg hunsent]
    rw [Bool.not_eq_true] at hunsent
    split
    · exact .passed _ hunsent
    · exact .passed _ hunsent

/-- What one round of the search can do. -/
inductive SearchStep (ua : UserAgent) (below : Tree → Outcome) (s : Progress) (c : Tree)
    (after : List Tree) : Progress × Bool → Prop
  | pursued (hpursued : c.label.isPursued = true) :
      SearchStep ua below s c after
        ({ s with before := s.before ++ [c], after, childStillProceeding := true }, false)
  | recursing (hpursued : c.label.isPursued = false) (hrecursing : c.label.isRecursing = true) :
      SearchStep ua below s c after
        ({ s with
            before := s.before ++ [(below c).tree]
            after
            childStillProceeding := s.childStillProceeding || (below c).started
            attempts := s.attempts ++ (below c).attempts }, false)
  | completed (hpursued : c.label.isPursued = false) (hrecursing : c.label.isRecursing = false)
      (hparent : s.parent.isCanceled = false) (hcanceled : c.label.isCanceled = false)
      (hunsent : c.label.isUnsent = false) :
      SearchStep ua below s c after
        ({ s with
            before := s.before ++ [(recurseChildren ua c).tree]
            after
            startingNewSearch := s.startingNewSearch || (recurseChildren ua c).started
            attempts := s.attempts ++ (recurseChildren ua c).attempts }, false)
  | unsent (found : Outcome)
      (hfound : found = recurse ua (.node s.parent (s.before ++ c :: after)))
      (hproceeding : s.childStillProceeding = false) (hstarting : s.startingNewSearch = false)
      (hparent : s.parent.isCanceled = false) (hunsent : c.label.isUnsent = true) :
      SearchStep ua below s c after
        ({ s with
            parent := found.tree.label
            before := found.tree.children.take (s.before.length + 1)
            after := found.tree.children.drop (s.before.length + 1)
            startingNewSearch := found.started
            attempts := s.attempts ++ found.attempts }, found.started)
  | skipped (hpursued : c.label.isPursued = false) (hrecursing : c.label.isRecursing = false) :
      SearchStep ua below s c after ({ s with before := s.before ++ [c], after }, false)

theorem searchStep (ua : UserAgent) (below : Tree → Outcome) (s : Progress) (c : Tree)
    (after : List Tree) : SearchStep ua below s c after (searchChild ua below s c after) := by
  unfold searchChild
  dsimp only
  by_cases hpursued : c.label.isPursued = true
  · rw [if_pos hpursued]
    exact .pursued hpursued
  rw [if_neg hpursued]
  rw [Bool.not_eq_true] at hpursued
  by_cases hrecursing : c.label.isRecursing = true
  · rw [if_pos hrecursing]
    exact .recursing hpursued hrecursing
  rw [if_neg hrecursing]
  rw [Bool.not_eq_true] at hrecursing
  split
  · rename_i hcompleted
    simp only [Bool.and_eq_true, Bool.not_eq_true', Bool.or_eq_true, beq_iff_eq] at hcompleted
    obtain ⟨⟨⟨-, hparent⟩, hcanceled⟩, hstate⟩ := hcompleted
    refine .completed hpursued hrecursing hparent hcanceled ?_
    rcases hstate with hstate | hstate <;> simp [Transaction.isUnsent, hstate]
  · split
    · rename_i hunsent
      simp only [Bool.and_eq_true, Bool.not_eq_true'] at hunsent
      obtain ⟨⟨⟨⟨hproceeding, hparent⟩, -⟩, hstarting⟩, hunsent⟩ := hunsent
      exact .unsent _ rfl hproceeding hstarting hparent hunsent
    · exact .skipped hpursued hrecursing

theorem searchLoop_induct (ua : UserAgent) (below : Tree → Outcome) {I : Progress → Prop}
    (hstep : ∀ s c after next, s.after = c :: after → I s → SearchStep ua below s c after next →
      I next.1) (count : Nat) {s : Progress} (hs : I s) : I (searchLoop ua below count s) := by
  induction count generalizing s with
  | zero => exact hs
  | succ count ih =>
    rw [searchLoop]
    split
    · exact hs
    · rename_i c after hafter
      have hnext := hstep s c after _ hafter hs (searchStep ua below s c after)
      dsimp only
      split
      · exact hnext
      · exact ih hnext

theorem kept_searchBelow (ua : UserAgent) (depth : Nat) (x : Tree) :
    Kept x.label (searchBelow ua depth x).tree.label := by
  cases depth with
  | zero => exact .refl _
  | succ depth =>
    refine Kept.trans (searchLoop_induct ua _ (I := fun s => Kept x.label s.parent) ?_ _
      (.refl _)) (kept_isRecursing _ _)
    intro s c after next hafter hs hnext
    cases hnext with
    | unsent found hfound =>
      subst hfound
      exact hs.trans (kept_recurse ua (.node _ _))
    | _ => exact hs

/-! ## The final responses in a tree -/

/-- Every last final response in the tree meets `Q`. -/
def Finals (Q : Message → Prop) : Tree → Prop :=
  Rose.All fun t _ => ∀ m, t.lastFinalResponse = some m → Q m

theorem mem_linkChild {children : List Tree} {d : Tree} :
    d ∈ linkChild children c ↔ d = c ∨ d ∈ children :=
  Preference.mem_insertBelow

theorem mem_foldl_linkChild {children : List Tree} {d : Tree} :
    d ∈ cs.foldl linkChild children ↔ d ∈ children ∨ d ∈ cs := by
  induction cs generalizing children with
  | nil => simp
  | cons c cs ih => rw [foldl_cons, ih, mem_linkChild, mem_cons, or_assoc, or_left_comm]

theorem mem_dnsChildren {t : Transaction} {numSrvRecords maxSrvRecords : Nat}
    {servers : List Server} (h : c ∈ dnsChildren t numSrvRecords maxSrvRecords servers) :
    ∃ index server, c = dnsChild t index server := by
  induction servers generalizing numSrvRecords maxSrvRecords with
  | nil => exact absurd h not_mem_nil
  | cons server servers ih =>
    rw [dnsChildren] at h
    split at h
    · split at h
      · rcases mem_cons.mp h with rfl | h
        · exact ⟨numSrvRecords, server, rfl⟩
        · exact ih h
      · exact ih h
    · exact absurd h not_mem_nil

section Finals

variable {Q : Message → Prop}

theorem Finals.of_kept (hloop : ∀ request loopHop, Q (loopDetectedResponse request loopHop))
    {y : Tree} (h : Finals Q x) (hkept : Kept x.label y.label)
    (hchildren : ∀ c ∈ y.children, Finals Q c) : Finals Q y := by
  obtain ⟨t, cs⟩ := y
  refine .node (fun m hm => ?_) hchildren
  rcases hkept.lastFinalResponse with heq | ⟨-, request, loopHop, heq⟩
  · exact h.here m (heq ▸ hm)
  · obtain rfl := Option.some.inj (heq.symm.trans hm)
    exact hloop request loopHop

theorem finals_dnsChild (t : Transaction) (index : Nat) (server : Server) :
    Finals Q (dnsChild t index server) :=
  .node (fun _ hm => nomatch hm) fun _ hc => nomatch hc

theorem finals_targetTransaction (target : Target) : Finals Q (targetTransaction target) :=
  .node (fun _ hm => nomatch hm) fun _ hc => nomatch hc

theorem finals_lookup (h : ∀ c ∈ x.children, Finals Q c) :
    ∀ c ∈ (lookup ua x).children, Finals Q c := by
  unfold lookup
  dsimp only
  split
  · intro c hc
    rcases mem_foldl_linkChild.mp hc with hc | hc
    · exact absurd hc not_mem_nil
    · obtain ⟨index, server, rfl⟩ := mem_dnsChildren hc
      exact finals_dnsChild _ _ _
  · exact h

variable (hloop : ∀ request loopHop, Q (loopDetectedResponse request loopHop))
include hloop

theorem finals_doFirstSend (request : SipRequest) (h : Finals Q c) :
    Finals Q (doFirstSend c request) := by
  exact h.of_kept hloop (kept_doFirstSend c request) fun _ hc => h.child hc

theorem finals_pursueServers {parent : Transaction} {request : SipRequest}
    (hbefore : ∀ c ∈ before, Finals Q c) (hcs : ∀ c ∈ cs, Finals Q c) :
    ∀ c ∈ (pursueServers parent request before cs).children, Finals Q c :=
  forall_pursueServers parent request
    (fun c hc _ => finals_doFirstSend hloop request (hcs c hc)) hbefore hcs

theorem finals_recurseDnsSrvChildren (h : ∀ c ∈ x.children, Finals Q c) :
    ∀ c ∈ (recurseDnsSrvChildren ua x).tree.children, Finals Q c := by
  have hlookup : ∀ c ∈ (lookup ua x).children, Finals Q c := finals_lookup h
  unfold recurseDnsSrvChildren
  dsimp only
  split
  · split
    · exact hlookup
    · exact finals_pursueServers hloop (fun _ hc => nomatch hc) hlookup
  · exact hlookup

theorem finals_handleOutgoing (request : SipRequest)
    (h : Finals Q c) : Finals Q (handleOutgoing ua c request).tree := by
  refine h.of_kept hloop (kept_handleOutgoing ua c request) ?_
  unfold handleOutgoing
  split
  · exact fun _ hc => h.child hc
  · exact finals_recurseDnsSrvChildren hloop fun _ hc => h.child hc

theorem finals_recurseLoop {parent : Transaction} {request : SipRequest}
    {responseCode : Int} {nextQvalue : ℚ} {numRecursed : Nat}
    (hbefore : ∀ c ∈ before, Finals Q c) (hcs : ∀ c ∈ cs, Finals Q c) :
    ∀ c ∈ (recurseLoop ua parent request responseCode before nextQvalue numRecursed cs).children,
      Finals Q c := by
  induction cs generalizing before nextQvalue numRecursed with
  | nil => exact hbefore
  | cons c after ih =>
    rw [forall_mem_cons] at hcs
    have hstep := turnStep ua parent request before nextQvalue numRecursed c after
    rw [recurseLoop]
    generalize recurseChild ua parent request before nextQvalue numRecursed c after = turn
      at hstep ⊢
    have hturn : Finals Q turn.child := by
      cases hstep with
      | sent sent hsent => exact hsent ▸ finals_handleOutgoing hloop _ hcs.1
      | waits => exact hcs.1
      | passed => exact hcs.1
    dsimp only
    split
    · rw [forall_mem_append, forall_mem_cons]
      exact ⟨hbefore, hturn, hcs.2⟩
    · refine ih ?_ hcs.2
      rw [forall_mem_append, forall_mem_singleton]
      exact ⟨hbefore, hturn⟩

theorem finals_recurseChildren (h : ∀ c ∈ x.children, Finals Q c) :
    ∀ c ∈ (recurseChildren ua x).tree.children, Finals Q c := by
  unfold recurseChildren
  split
  · refine finals_recurseLoop hloop (fun _ hc => nomatch hc) ?_
    unfold pursueContacts
    split
    · split
      · intro c hc
        rcases mem_foldl_linkChild.mp hc with hc | hc
        · exact absurd hc not_mem_nil
        · obtain ⟨target, -, rfl⟩ := mem_map.mp hc
          exact finals_targetTransaction target
      · exact h
    · exact h
  · exact h

theorem finals_recurse (h : ∀ c ∈ x.children, Finals Q c) :
    ∀ c ∈ (recurse ua x).tree.children, Finals Q c := by
  unfold recurse
  split
  · exact finals_recurseDnsSrvChildren hloop h
  · exact finals_recurseChildren hloop h

theorem finals_searchBelow {depth : Nat} (h : ∀ c ∈ x.children, Finals Q c) :
    ∀ c ∈ (searchBelow ua depth x).tree.children, Finals Q c := by
  induction depth generalizing x with
  | zero => exact h
  | succ depth ih =>
    refine searchLoop_induct ua (searchBelow ua depth)
      (I := fun s => ∀ c ∈ s.before ++ s.after, Finals Q c) ?_ _ h
    intro s c after next hafter hs hnext
    rw [hafter, forall_mem_append, forall_mem_cons] at hs
    -- a child that is replaced by what a search or a recursion has left of it
    have hput : ∀ y, Finals Q y → ∀ d ∈ (s.before ++ [y]) ++ after, Finals Q d := by
      intro y hy
      rw [forall_mem_append, forall_mem_append, forall_mem_singleton]
      exact ⟨⟨hs.1, hy⟩, hs.2.2⟩
    have hbelow : ∀ d ∈ c.children, Finals Q d := fun _ hd => hs.2.1.child hd
    cases hnext with
    | pursued => exact hput _ hs.2.1
    | recursing => exact hput _ (hs.2.1.of_kept hloop (kept_searchBelow ua depth _) (ih hbelow))
    | completed =>
      exact hput _ (hs.2.1.of_kept hloop (kept_recurseChildren ua _)
        (finals_recurseChildren hloop hbelow))
    | unsent found hfound =>
      subst hfound
      rw [take_append_drop]
      refine finals_recurse hloop ?_
      rw [Rose.children_node, forall_mem_append, forall_mem_cons]
      exact hs
    | skipped => exact hput _ hs.2.1

end Finals

end TransactionTree

end SipXRouter
