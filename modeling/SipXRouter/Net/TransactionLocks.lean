import SipXRouter.Forest
import SipXRouter.Net.SipTransactionList
import SipXRouter.Run

/-!
# The locks of transaction trees

A thread that works on a transaction has marked the whole transaction tree as busy: by
`findTransactionFor`, or with a new transaction.  `SipUserAgent::send` and
`SipUserAgent::dispatch` obtain trees in this way and have to release them.

## Design notes

`handle` stands for the handlers of a transaction, which may make new children below any
member of the tree that the caller holds.  Such a child matches no message before it has
sent its request and is too young for garbage collection, so that adding it to the list
and linking it is one step.  Children are not kept in the order of their q values here.
Garbage collection is allowed to delete any transaction that is not busy.
-/

namespace SipXRouter

open List

namespace TransactionLocks

open SipTransactionList (MessageRelationship Found)

/-! ## What the calls do -/

/-- The places that search for a transaction. -/
inductive Search where
  | send
  | sendParent
  | dispatch
  | other
deriving DecidableEq

/-- The rest of a call, as far as it works on transaction trees. -/
inductive Prog where
  | done
  /-- A null pointer was used. -/
  | fault
  | findTransactionFor (search : Search) (next : Found → Prog)
  | waitUntilAvailable (search : Search) (transaction : Nat) (relationship : MessageRelationship)
      (next : Found → Prog)
  /-- A new transaction, marked busy and added to the list. -/
  | addTransaction (next : Nat → Prog)
  | linkChild (parent child : Nat) (next : Prog)
  | handle (transaction : Nat) (next : Prog)
  | markAvailable (transaction : Option Nat) (next : Prog)

inductive Method where
  | invite
  | ack
  | cancel
  | other
deriving DecidableEq

/-- What `send` looks at in the message. -/
structure SentMessage where
  isResponse : Bool
  method : Method
  hasVia : Bool
deriving DecidableEq

/-- The end of `send` and `dispatch`: the transaction handles the message and is released. -/
def finish (transaction : Nat) : Prog :=
  .handle transaction (.markAvailable (some transaction) .done)

/-- `send`, from where no transaction was found for the message. -/
def sendNew (message : SentMessage) : Prog :=
  if message.isResponse then .done
  else if message.hasVia then
    .findTransactionFor .sendParent fun parent =>
      -- for forwarding 2xx ACKs the INVITE transaction is ignored
      if parent.relationship.is2xxAck then
        .markAvailable parent.transaction (.addTransaction finish)
      else .addTransaction fun transaction =>
        match parent.transaction with
        | none => finish transaction
        | some p =>
          -- the parent is unlocked with the transaction
          if parent.relationship = .duplicate then .linkChild p transaction (finish transaction)
          else .markAvailable (some p) (finish transaction)
  else .addTransaction finish

/-- `SipUserAgent::send`. -/
def send (message : SentMessage) : Prog :=
  .findTransactionFor .send fun found =>
    if found.relationship = .ack2xxProxy then
      .markAvailable found.transaction (sendNew message)
    else
      match found.transaction with
      | none => sendNew message
      | some t =>
        if message.isResponse || message.method == .cancel || message.method == .ack then
          finish t
        -- a request that matches a transaction becomes a new branch
        else .markAvailable (some t) (sendNew message)

inductive MessageType where
  | application
  | transportError
  | other
deriving DecidableEq

/-- What `dispatch` looks at in the message. -/
structure ReceivedMessage where
  messageType : MessageType
  /-- The user agent is shutting down or overloaded, or the message is refused. -/
  dontDispatch : Bool := false
  isResponse : Bool := false
  method : Method := .other
  /-- An ACK that is dropped for its `Max-Forwards`, or relayed without a transaction. -/
  isStatelessAck : Bool := false
  isShuttingDown : Bool := false
deriving DecidableEq

/-- Find a transaction, handle an event with it, and release it. -/
def findAndHandle (isShuttingDown : Bool) : Prog :=
  .findTransactionFor .other fun found =>
    match found.transaction with
    | none => .done
    | some t => if isShuttingDown then .markAvailable (some t) .done else finish t

/-- `SipUserAgent::dispatch`. -/
def dispatch (message : ReceivedMessage) : Prog :=
  if message.dontDispatch then .done
  else
    match message.messageType with
    | .application =>
      .findTransactionFor .dispatch fun found =>
        -- for some 2xx ACKs the INVITE transaction is ignored
        match (if found.relationship = .ack2xxProxy then none else found.transaction) with
        | some t => finish t
        | none =>
          if message.isResponse then .done
          else if message.method = .ack ∧ found.relationship ≠ .ack2xxProxy ∧
              message.isStatelessAck = true then .done
          else .addTransaction finish
    | .transportError => findAndHandle message.isShuttingDown
    | .other => .done

/-- The calls that threads make: also the timers, which find the transaction of their
message, and the queue of transactions to be canceled. -/
inductive Action where
  | send (message : SentMessage)
  | dispatch (message : ReceivedMessage)
  | handleMessage (isShuttingDown : Bool)
  | handleCancelQueue (transaction : Nat)
deriving DecidableEq

/-- The steps of an action. -/
def Action.prog : Action → Prog
  | send message => TransactionLocks.send message
  | dispatch message => TransactionLocks.dispatch message
  | handleMessage isShuttingDown => findAndHandle isShuttingDown
  | handleCancelQueue t =>
    .waitUntilAvailable .other t .unknown fun found =>
      match found.transaction with
      | none => .done
      | some t => finish t

/-! ## Threads -/

/-- A call, with the transactions whose trees it has obtained and not released. -/
structure Call where
  prog : Prog := .done
  held : List Nat := []

/-- The transactions with their marks, and the calls under way. -/
structure State where
  transactions : Forest Nat Bool := .nil
  numTransactions : Nat := 0
  calls : Nat → Call := fun _ => {}
  numCalls : Nat := 0

def State.isBusy (s : State) (t : Nat) : Bool := decide ((t, true) ∈ s.transactions.toList)

/-- A call goes on, after it has changed the transactions. -/
def State.resume (s : State) (i : Nat) (transactions : Forest Nat Bool) (prog : Prog)
    (held : List Nat) : State :=
  { s with transactions, calls := Function.update s.calls i ⟨prog, held⟩ }

/-- A search ends. -/
def State.conclude (s : State) (i : Nat) (next : Found → Prog) : Found → State
  | ⟨none, relationship⟩ =>
    s.resume i s.transactions (next ⟨none, relationship⟩) (s.calls i).held
  | ⟨some t, relationship⟩ =>
    s.resume i (s.transactions.setTree true t) (next ⟨some t, relationship⟩)
      (t :: (s.calls i).held)

/-- What happens next to a call, where that is not up to the call. -/
inductive Choice where
  | go
  /-- The search matches the message with a transaction. -/
  | found (transaction : Nat) (relationship : MessageRelationship)
  | notFound
  | timedOut
  /-- The handlers make a child below a transaction. -/
  | child (parent : Nat)
deriving DecidableEq

/-- One loop of `waitUntilAvailable`. -/
def State.tryWait (s : State) (transaction : Nat) (relationship : MessageRelationship) :
    Option Found :=
  if transaction ∉ s.transactions.ids then some ⟨none, relationship⟩
  else if s.isBusy transaction then none
  else some ⟨some transaction, relationship⟩

/-- One step of a call. -/
def State.run (s : State) (i : Nat) (choice : Choice) : State :=
  let held := (s.calls i).held
  match (s.calls i).prog, choice with
  | .findTransactionFor _ next, .notFound => s.conclude i next ⟨none, .unknown⟩
  | .findTransactionFor search next, .found t relationship =>
    if s.isBusy t then
      s.resume i s.transactions (.waitUntilAvailable search t relationship next) held
    else s.conclude i next ⟨some t, relationship⟩
  | .waitUntilAvailable _ t relationship next, .go =>
    match s.tryWait t relationship with
    | none => s
    | some found => s.conclude i next found
  | .waitUntilAvailable _ _ relationship next, .timedOut => s.conclude i next ⟨none, relationship⟩
  | .addTransaction next, .go =>
    { s.resume i (.node s.numTransactions true .nil s.transactions) (next s.numTransactions)
        (s.numTransactions :: held) with numTransactions := s.numTransactions + 1 }
  | .linkChild p t next, .go =>
    s.resume i ((s.transactions.dropRoot t).graft p t (s.transactions.childrenOf t)) next
      (held.erase p)
  | .handle _ next, .go => s.resume i s.transactions next held
  | .handle _ _, .child p =>
    { s with
      transactions := s.transactions.graft p s.numTransactions .nil
      numTransactions := s.numTransactions + 1 }
  | .markAvailable none _, .go => s.resume i s.transactions .fault held
  | .markAvailable (some t) next, .go =>
    if s.isBusy t then s.resume i (s.transactions.setTree false t) next (held.erase t)
    else s.resume i s.transactions next held
  | _, _ => s

/-- What may happen next. -/
inductive Event where
  | start (action : Action)
  | run (call : Nat) (choice : Choice)
  /-- Garbage collection deletes a transaction. -/
  | collect (transaction : Nat)
deriving DecidableEq

def step (s : State) : Event → State
  | .start action =>
    { s with
      calls := Function.update s.calls s.numCalls ⟨action.prog, []⟩
      numCalls := s.numCalls + 1 }
  | .run i choice => s.run i choice
  | .collect t => { s with transactions := s.transactions.destroy t }

/-- The relationships that `whatRelation` can return.  A request that comes in is one of a server
transaction and a request that goes out one of a client transaction, and each of the two has a
relationship of its own for the ACK of a 2xx response. -/
def Search.Returns : Search → MessageRelationship → Prop
  | send, relationship => relationship ≠ .ack2xx
  | sendParent, relationship | dispatch, relationship => relationship ≠ .ack2xxProxy
  | other, _ => True

instance : ∀ (search : Search) (relationship : MessageRelationship),
    Decidable (search.Returns relationship)
  | .send, relationship => inferInstanceAs (Decidable (relationship ≠ .ack2xx))
  | .sendParent, relationship | .dispatch, relationship =>
    inferInstanceAs (Decidable (relationship ≠ .ack2xxProxy))
  | .other, _ => inferInstanceAs (Decidable True)

/-- What a step of a call needs: a transaction that is found is in the list, and a child is made
in the tree of the transaction that is handled. -/
def State.Meets (s : State) : Prog → Choice → Prop
  | .findTransactionFor search _, .found t relationship =>
    t ∈ s.transactions.ids ∧ search.Returns relationship
  | .handle t _, .child p => s.transactions.Together t p
  | _, _ => True

instance (s : State) : ∀ prog choice, Decidable (s.Meets prog choice)
  | .findTransactionFor search _, .found t relationship =>
    inferInstanceAs (Decidable (t ∈ s.transactions.ids ∧ search.Returns relationship))
  | .handle t _, .child p => inferInstanceAs (Decidable (s.transactions.Together t p))
  | .findTransactionFor _ _, .go | .findTransactionFor _ _, .notFound
  | .findTransactionFor _ _, .timedOut | .findTransactionFor _ _, .child _
  | .handle _ _, .go | .handle _ _, .found _ _ | .handle _ _, .notFound | .handle _ _, .timedOut
  | .done, _ | .fault, _ | .waitUntilAvailable _ _ _ _, _ | .addTransaction _, _
  | .linkChild _ _ _, _ | .markAvailable _ _, _ => inferInstanceAs (Decidable True)

/-- When a step can be taken. -/
def Allowed (s : State) : Event → Prop
  | .start _ => True
  | .run i choice => i < s.numCalls ∧ s.Meets (s.calls i).prog choice
  | .collect t => (t, false) ∈ s.transactions.toList

instance (s : State) : ∀ e, Decidable (Allowed s e)
  | .start _ => inferInstanceAs (Decidable True)
  | .run i choice =>
    inferInstanceAs (Decidable (i < s.numCalls ∧ s.Meets (s.calls i).prog choice))
  | .collect t => inferInstanceAs (Decidable ((t, false) ∈ s.transactions.toList))

/-! ## Locking -/

/-- A call holds the tree. -/
def State.Holds (s : State) (i : Nat) (T : List (Nat × Bool)) : Prop :=
  ∃ t ∈ (s.calls i).held, t ∈ T.map Prod.fst

/-- The marks of a tree are equal, one call at most holds it, and a call that has come to its end
holds none.  A call also ends where it uses a null pointer: `send` does after a wait that failed. -/
structure Locking (s : State) : Prop where
  marks : ∀ T ∈ s.transactions.trees, ∀ x ∈ T, ∀ y ∈ T, x.2 = y.2
  holder : ∀ T ∈ s.transactions.trees, ∀ i j, s.Holds i T → s.Holds j T → i = j
  released : ∀ i, (s.calls i).prog = .done → (s.calls i).held = []
  releasedAtFault : ∀ i, (s.calls i).prog = .fault → (s.calls i).held = []

/-! ## What a call releases -/

/-- The rest of a call releases the trees that it holds.  It links a child only right after
it has made it, as `fresh`. -/
def Releases : Prog → (held : List Nat) → (fresh : Option Nat) → Prop
  | .done, held, _ => held = []
  | .fault, held, _ => held = []
  | .findTransactionFor search next, held, _ =>
    ∀ found : Found, search.Returns found.relationship →
      (∀ t, found.transaction = some t → t ∉ held) →
        Releases (next found) (found.transaction.toList ++ held) none
  | .waitUntilAvailable _ _ relationship next, held, _ =>
    ∀ transaction : Option Nat, (∀ t, transaction = some t → t ∉ held) →
      Releases (next ⟨transaction, relationship⟩) (transaction.toList ++ held) none
  | .addTransaction next, held, _ => ∀ t ∉ held, Releases (next t) (t :: held) (some t)
  | .linkChild p t next, held, fresh =>
    p ∈ held ∧ t ∈ held ∧ p ≠ t ∧ fresh = some t ∧ Releases next (held.erase p) none
  | .handle t next, held, _ => t ∈ held ∧ Releases next held none
  | .markAvailable none _, held, _ => held = []
  | .markAvailable (some t) next, held, _ => t ∈ held ∧ Releases next (held.erase t) none

theorem releases_finish (t : Nat) (fresh : Option Nat) : Releases (finish t) [t] fresh := by
  simp [finish, Releases]

theorem releases_addTransaction_finish (fresh : Option Nat) :
    Releases (.addTransaction finish) [] fresh := fun t _ => releases_finish t (some t)

/-- Sending a new request gives back every lock that it takes. -/
theorem sendNew_releases (message : SentMessage) (fresh : Option Nat) :
    Releases (sendNew message) [] fresh := by
  unfold sendNew
  split
  · rfl
  split
  · intro found _ _
    obtain ⟨transaction, relationship⟩ := found
    simp only
    split
    next h2xx =>
      cases transaction with
      | none => rfl
      | some p => exact ⟨mem_singleton_self p, by simpa using releases_addTransaction_finish none⟩
    next =>
      intro t ht
      cases transaction with
      | none => exact releases_finish t (some t)
      | some p =>
        have hpt : p ≠ t := fun h => ht (by simp [h])
        have herase : [t, p].erase p = [t] := by simp [Ne.symm hpt]
        show Releases (if relationship = .duplicate then _ else _) [t, p] (some t)
        split
        · refine ⟨by simp, by simp, hpt, rfl, ?_⟩
          rw [herase]
          exact releases_finish t none
        · refine ⟨by simp, ?_⟩
          rw [herase]
          exact releases_finish t none
  · exact releases_addTransaction_finish fresh

/-- `send` releases what it obtains. -/
theorem send_releases (message : SentMessage) : Releases (send message) [] none := by
  intro found _ _
  obtain ⟨transaction, relationship⟩ := found
  simp only
  split
  next h2xx =>
    cases transaction with
    | none => rfl
    | some t => exact ⟨mem_singleton_self t, by simpa using sendNew_releases message none⟩
  next =>
    cases transaction with
    | none => exact sendNew_releases message none
    | some t =>
      simp only
      split
      · exact releases_finish t none
      · exact ⟨mem_singleton_self t, by simpa using sendNew_releases message none⟩

theorem findAndHandle_releases (isShuttingDown : Bool) :
    Releases (findAndHandle isShuttingDown) [] none := by
  intro found _ _
  obtain ⟨transaction, relationship⟩ := found
  cases transaction with
  | none => rfl
  | some t =>
    cases isShuttingDown with
    | false => exact releases_finish t none
    | true => exact ⟨mem_singleton_self t, by simp [Releases]⟩

/-- `dispatch` releases what it obtains. -/
theorem dispatch_releases (message : ReceivedMessage) : Releases (dispatch message) [] none := by
  unfold dispatch
  split
  · rfl
  split
  · intro found hreturns _
    obtain ⟨transaction, relationship⟩ := found
    -- that an ACK is forgotten with its transaction is said of client transactions only
    have hproxy : relationship ≠ .ack2xxProxy := hreturns
    simp only [if_neg hproxy]
    cases transaction with
    | some t => exact releases_finish t none
    | none =>
      show Releases (if message.isResponse = true then _ else _) [] none
      split
      · rfl
      split
      · rfl
      · exact releases_addTransaction_finish none
  · exact findAndHandle_releases _
  · rfl

theorem Action.prog_releases (action : Action) : Releases action.prog [] none := by
  cases action with
  | send message => exact send_releases message
  | dispatch message => exact dispatch_releases message
  | handleMessage isShuttingDown => exact findAndHandle_releases isShuttingDown
  | handleCancelQueue t =>
    intro transaction _
    cases transaction with
    | none => rfl
    | some t => exact releases_finish t none

/-! ## The invariant -/

/-- The transactions by which trees are held. -/
def State.heldSet (s : State) : Set Nat := {t | ∃ i, t ∈ (s.calls i).held}

/-- Marks and holders agree, and every call under way holds what its steps rely on. -/
structure Inv (s : State) : Prop where
  exclusive : s.transactions.Exclusive s.heldSet
  bound : ∀ t ∈ s.transactions.ids, t < s.numTransactions
  one : ∀ i j t, t ∈ (s.calls i).held → t ∈ (s.calls j).held → i = j
  nodup : ∀ i, (s.calls i).held.Nodup
  unstarted : ∀ i, s.numCalls ≤ i → (s.calls i).held = []
  releases : ∀ i, ∃ fresh, Releases (s.calls i).prog (s.calls i).held fresh ∧
    ∀ t, fresh = some t → t ∈ s.transactions.roots ∧ t ∈ (s.calls i).held

section Steps

variable {s : State} {i : Nat} {prog : Prog} {F : Forest Nat Bool} {n : Nat}

theorem Inv.mem_ids (h : Inv s) {t : Nat} (ht : t ∈ (s.calls i).held) : t ∈ s.transactions.ids :=
  mem_map_of_mem (h.exclusive.locked t ⟨i, ht⟩)

theorem mem_heldSet_update {held : List Nat} {t : Nat} :
    t ∈ (State.mk F n (Function.update s.calls i ⟨prog, held⟩) s.numCalls).heldSet ↔
      t ∈ held ∨ ∃ j, j ≠ i ∧ t ∈ (s.calls j).held := by
  constructor
  · rintro ⟨j, hj⟩
    by_cases hji : j = i
    · subst hji
      simp only [Function.update_self] at hj
      exact Or.inl hj
    · simp only [Function.update_of_ne hji] at hj
      exact Or.inr ⟨j, hji, hj⟩
  · rintro (ht | ⟨j, hji, hj⟩)
    · exact ⟨i, by simpa only [Function.update_self] using ht⟩
    · exact ⟨j, by simpa only [Function.update_of_ne hji] using hj⟩

theorem heldSet_update_same :
    (State.mk F n (Function.update s.calls i ⟨prog, (s.calls i).held⟩) s.numCalls).heldSet =
      s.heldSet := by
  ext t
  rw [mem_heldSet_update]
  constructor
  · rintro (ht | ⟨j, -, hj⟩)
    · exact ⟨i, ht⟩
    · exact ⟨j, hj⟩
  · rintro ⟨j, hj⟩
    by_cases hji : j = i
    · exact Or.inl (hji ▸ hj)
    · exact Or.inr ⟨j, hji, hj⟩

theorem heldSet_update_cons {t : Nat} :
    (State.mk F n (Function.update s.calls i ⟨prog, t :: (s.calls i).held⟩) s.numCalls).heldSet =
      insert t s.heldSet := by
  ext u
  rw [mem_heldSet_update, mem_cons, or_assoc, ← @mem_heldSet_update s i prog F n,
    heldSet_update_same]
  rfl

theorem Inv.heldSet_update_erase (h : Inv s) {t : Nat} (ht : t ∈ (s.calls i).held) :
    (State.mk F n (Function.update s.calls i ⟨prog, (s.calls i).held.erase t⟩)
      s.numCalls).heldSet = s.heldSet \ {t} := by
  ext u
  rw [mem_heldSet_update, (h.nodup i).mem_erase_iff]
  constructor
  · rintro (⟨hne, hu⟩ | ⟨j, hji, hj⟩)
    · exact ⟨⟨i, hu⟩, hne⟩
    · refine ⟨⟨j, hj⟩, ?_⟩
      rintro rfl
      exact hji (h.one j i _ hj ht)
  · rintro ⟨⟨j, hj⟩, hne⟩
    by_cases hji : j = i
    · exact Or.inl ⟨hne, hji ▸ hj⟩
    · exact Or.inr ⟨j, hji, hj⟩

/-- What one call has to respect for the invariant to stand. -/
theorem Inv.update (h : Inv s) {held : List Nat} {fresh : Option Nat} (hi : i < s.numCalls)
    (hexclusive : F.Exclusive
      (State.mk F n (Function.update s.calls i ⟨prog, held⟩) s.numCalls).heldSet)
    (hbound : ∀ t ∈ F.ids, t < n) (hnodup : held.Nodup)
    (hheld : ∀ t ∈ held, t ∈ (s.calls i).held ∨ ∀ j, t ∉ (s.calls j).held)
    (hroots : ∀ t ∈ s.transactions.roots, t ∉ (s.calls i).held → t ∈ F.roots)
    (hreleases : Releases prog held fresh) (hfresh : ∀ t, fresh = some t → t ∈ F.roots ∧ t ∈ held) :
    Inv (State.mk F n (Function.update s.calls i ⟨prog, held⟩) s.numCalls) := by
  have hother : ∀ j, j ≠ i → ∀ t ∈ (s.calls j).held, t ∉ held := by
    intro j hji t htj hti
    rcases hheld t hti with hti | hfree
    · exact hji (h.one j i t htj hti)
    · exact hfree j htj
  refine ⟨hexclusive, hbound, ?_, ?_, ?_, ?_⟩
  · intro j k t hj hk
    by_cases hji : j = i <;> by_cases hki : k = i
    · rw [hji, hki]
    · subst hji
      simp only [Function.update_self, Function.update_of_ne hki] at hj hk
      exact absurd hj (hother k hki t hk)
    · subst hki
      simp only [Function.update_self, Function.update_of_ne hji] at hj hk
      exact absurd hk (hother j hji t hj)
    · simp only [Function.update_of_ne hji, Function.update_of_ne hki] at hj hk
      exact h.one j k t hj hk
  · intro j
    by_cases hji : j = i
    · subst hji
      simpa only [Function.update_self] using hnodup
    · simpa only [Function.update_of_ne hji] using h.nodup j
  · intro j hj
    have hji : j ≠ i := fun hji => absurd hi (Nat.not_lt.mpr (hji ▸ hj))
    simpa only [Function.update_of_ne hji] using h.unstarted j hj
  · intro j
    by_cases hji : j = i
    · subst hji
      simp only [Function.update_self]
      exact ⟨fresh, hreleases, hfresh⟩
    · simp only [Function.update_of_ne hji]
      obtain ⟨fresh', hrel, hfresh'⟩ := h.releases j
      refine ⟨fresh', hrel, fun t ht => ?_⟩
      obtain ⟨hroot, hheldj⟩ := hfresh' t ht
      exact ⟨hroots t hroot fun hti => hji (h.one j i t hheldj hti), hheldj⟩

theorem Inv.conclude (h : Inv s) (hi : i < s.numCalls) {next : Found → Prog} {found : Found}
    (hfree : ∀ t, found.transaction = some t → (t, false) ∈ s.transactions.toList)
    (hreleases : (∀ t, found.transaction = some t → t ∉ (s.calls i).held) →
      Releases (next found) (found.transaction.toList ++ (s.calls i).held) none) :
    Inv (s.conclude i next found) := by
  obtain ⟨transaction, relationship⟩ := found
  cases transaction with
  | none =>
    have hrel := hreleases (fun _ hnone => by cases hnone)
    refine h.update hi ?_ h.bound (h.nodup i) (fun t ht => Or.inl ht) (fun t ht _ => ht) hrel
      (fun _ hnone => by cases hnone)
    rw [heldSet_update_same]
    exact h.exclusive
  | some t =>
    have hfree := hfree t rfl
    have hnotHeld : ∀ j, t ∉ (s.calls j).held := fun j hj =>
      Bool.false_ne_true (Forest.mark_eq h.exclusive.nodup hfree (h.exclusive.locked t ⟨j, hj⟩))
    have hrel := hreleases (fun _ hsome => Option.some.inj hsome ▸ hnotHeld i)
    refine h.update hi ?_ ?_ ?_ ?_ ?_ hrel (fun _ hnone => by cases hnone)
    · rw [heldSet_update_cons]
      exact h.exclusive.acquire hfree
    · simpa using h.bound
    · exact nodup_cons.mpr ⟨hnotHeld i, h.nodup i⟩
    · intro u hu
      rcases mem_cons.mp hu with rfl | hu
      · exact Or.inr hnotHeld
      · exact Or.inl hu
    · intro u hu _
      simpa using hu

theorem Inv.resume (h : Inv s) (hi : i < s.numCalls)
    (hreleases : Releases prog (s.calls i).held none) :
    Inv (s.resume i s.transactions prog (s.calls i).held) := by
  refine h.update hi ?_ h.bound (h.nodup i) (fun t ht => Or.inl ht) (fun t ht _ => ht) hreleases
    (fun _ hnone => by cases hnone)
  rw [heldSet_update_same]
  exact h.exclusive

theorem Inv.addTransaction (h : Inv s) (hi : i < s.numCalls) {next : Nat → Prog}
    (hreleases : ∀ t ∉ (s.calls i).held, Releases (next t) (t :: (s.calls i).held) (some t)) :
    Inv { s.resume i (.node s.numTransactions true .nil s.transactions) (next s.numTransactions)
      (s.numTransactions :: (s.calls i).held) with numTransactions := s.numTransactions + 1 } := by
  have hnew : s.numTransactions ∉ s.transactions.ids := fun hmem =>
    Nat.lt_irrefl _ (h.bound _ hmem)
  have hnotHeld : ∀ j, s.numTransactions ∉ (s.calls j).held := fun j hj => hnew (h.mem_ids hj)
  refine h.update hi ?_ ?_ ?_ ?_ ?_ (hreleases _ (hnotHeld i)) ?_
  · rw [heldSet_update_cons]
    exact h.exclusive.create hnew
  · intro t ht
    rcases mem_cons.mp ht with rfl | ht
    · exact Nat.lt_succ_self _
    · exact Nat.lt_succ_of_lt (h.bound t ht)
  · exact nodup_cons.mpr ⟨hnotHeld i, h.nodup i⟩
  · intro u hu
    rcases mem_cons.mp hu with rfl | hu
    · exact Or.inr hnotHeld
    · exact Or.inl hu
  · exact fun u hu _ => mem_cons_of_mem _ hu
  · rintro t ⟨⟩
    exact ⟨mem_cons_self, mem_cons_self⟩

theorem Inv.linkChild (h : Inv s) (hi : i < s.numCalls) {p t : Nat}
    (hp : p ∈ (s.calls i).held) (ht : t ∈ (s.calls i).held) (hpt : p ≠ t)
    (hroot : t ∈ s.transactions.roots) (hreleases : Releases prog ((s.calls i).held.erase p) none) :
    Inv (s.resume i ((s.transactions.dropRoot t).graft p t (s.transactions.childrenOf t)) prog
      ((s.calls i).held.erase p)) := by
  have hlink := h.exclusive.link ⟨i, hp⟩ ⟨i, ht⟩ hpt hroot
  refine h.update hi ?_ ?_ ((h.nodup i).erase p) ?_ ?_ hreleases (fun _ hnone => by cases hnone)
  · rw [h.heldSet_update_erase hp]
    exact hlink
  · intro u hu
    exact h.bound u (Forest.mem_ids_of_mem_link hroot hu)
  · exact fun u hu => Or.inl (mem_of_mem_erase hu)
  · intro u hu hnotHeld
    rw [Forest.roots_graft]
    refine Forest.mem_roots_dropRoot hu ?_
    rintro rfl
    exact hnotHeld ht

theorem Inv.markAvailable (h : Inv s) (hi : i < s.numCalls) {t : Nat}
    (ht : t ∈ (s.calls i).held) (hreleases : Releases prog ((s.calls i).held.erase t) none) :
    Inv (s.resume i (s.transactions.setTree false t) prog ((s.calls i).held.erase t)) := by
  refine h.update hi ?_ ?_ ((h.nodup i).erase t) ?_ ?_ hreleases (fun _ hnone => by cases hnone)
  · rw [h.heldSet_update_erase ht]
    exact h.exclusive.release ⟨i, ht⟩
  · simpa using h.bound
  · exact fun u hu => Or.inl (mem_of_mem_erase hu)
  · intro u hu _
    simpa using hu

theorem Inv.change (h : Inv s) (hexclusive : F.Exclusive s.heldSet) (hbound : ∀ t ∈ F.ids, t < n)
    (hroots : ∀ t ∈ s.transactions.roots, t ∈ s.heldSet → t ∈ F.roots) :
    Inv { s with transactions := F, numTransactions := n } := by
  refine ⟨hexclusive, hbound, h.one, h.nodup, h.unstarted, fun j => ?_⟩
  obtain ⟨fresh, hreleases, hfresh⟩ := h.releases j
  refine ⟨fresh, hreleases, fun t ht => ?_⟩
  obtain ⟨hroot, hheld⟩ := hfresh t ht
  exact ⟨hroots t hroot ⟨j, hheld⟩, hheld⟩

theorem Inv.child (h : Inv s) {p : Nat} (hp : p ∈ s.transactions.ids) :
    Inv { s with
      transactions := s.transactions.graft p s.numTransactions .nil
      numTransactions := s.numTransactions + 1 } := by
  have hnew : s.numTransactions ∉ s.transactions.ids := fun hmem =>
    Nat.lt_irrefl _ (h.bound _ hmem)
  refine h.change (h.exclusive.graft hp hnew) ?_ ?_
  · intro t ht
    have hmem := (Forest.ids_graft_perm h.exclusive.nodup hp).subset ht
    rcases mem_append.mp hmem with hmem | hmem
    · exact Nat.lt_succ_of_lt (h.bound t hmem)
    · rw [mem_singleton.mp hmem]
      exact Nat.lt_succ_self _
  · intro t ht _
    simpa using ht

theorem Inv.collect (h : Inv s) {t : Nat} (ht : (t, false) ∈ s.transactions.toList) :
    Inv { s with transactions := s.transactions.destroy t } := by
  refine h.change (h.exclusive.destroy ht) ?_ ?_
  · intro u hu
    have hmem := ((Forest.toList_destroy_perm t s.transactions).map Prod.fst).subset hu
    exact h.bound u ((filter_sublist.map Prod.fst).subset hmem)
  · intro u hu hheld
    refine Forest.mem_roots_destroy hu ?_
    rintro rfl
    exact Bool.false_ne_true (Forest.mark_eq h.exclusive.nodup ht (h.exclusive.locked u hheld))

/-- A call that begins holds nothing. -/
theorem Inv.start (h : Inv s) (action : Action) : Inv (step s (.start action)) := by
  have hheld : ∀ j, ((step s (.start action)).calls j).held = (s.calls j).held := by
    intro j
    show (Function.update s.calls s.numCalls _ j).held = _
    by_cases hj : j = s.numCalls
    · subst hj
      rw [Function.update_self, h.unstarted _ (le_refl _)]
    · rw [Function.update_of_ne hj]
  have hset : (step s (.start action)).heldSet = s.heldSet := by
    ext t
    simp only [State.heldSet, Set.mem_ofPred_eq, hheld]
  refine ⟨?_, h.bound, ?_, ?_, ?_, ?_⟩
  · rw [hset]
    exact h.exclusive
  · simpa only [hheld] using h.one
  · simpa only [hheld] using h.nodup
  · intro j hj
    rw [hheld]
    exact h.unstarted j (Nat.le_of_succ_le hj)
  · intro j
    rw [hheld]
    by_cases hj : j = s.numCalls
    · subst hj
      refine ⟨none, ?_, fun _ hnone => by cases hnone⟩
      rw [h.unstarted _ (le_refl _)]
      simpa [step] using action.prog_releases
    · have hcall : (step s (.start action)).calls j = s.calls j := Function.update_of_ne hj _ _
      rw [hcall]
      exact h.releases j

theorem mem_of_not_isBusy {t : Nat} (ht : t ∈ s.transactions.ids)
    (hbusy : ¬ s.isBusy t = true) : (t, false) ∈ s.transactions.toList := by
  obtain ⟨⟨_, mark⟩, hx, rfl⟩ := mem_map.mp ht
  cases mark with
  | false => exact hx
  | true => exact absurd (decide_eq_true hx) hbusy

/-- Every step of a call keeps the invariant. -/
theorem Inv.run (h : Inv s) (hi : i < s.numCalls) {choice : Choice}
    (hmeets : s.Meets (s.calls i).prog choice) : Inv (s.run i choice) := by
  obtain ⟨fresh, hreleases, hfresh⟩ := h.releases i
  unfold State.run
  cases hprog : (s.calls i).prog with
  | done => exact h
  | fault => exact h
  | findTransactionFor search next =>
    rw [hprog] at hreleases hmeets
    cases choice with
    | notFound =>
      have hunknown : search.Returns .unknown := by cases search <;> decide
      exact h.conclude hi (fun _ hnone => by cases hnone) fun hfree =>
        hreleases _ hunknown hfree
    | found t relationship =>
      simp only
      split
      next => exact h.resume hi fun transaction hfree => hreleases _ hmeets.2 hfree
      next hbusy =>
        refine h.conclude hi ?_ fun hfree => hreleases _ hmeets.2 hfree
        rintro _ ⟨⟩
        exact mem_of_not_isBusy hmeets.1 hbusy
    | go => exact h
    | timedOut => exact h
    | child p => exact h
  | waitUntilAvailable search t relationship next =>
    rw [hprog] at hreleases
    cases choice with
    | go =>
      simp only [State.tryWait]
      split
      next => exact h
      next found htry =>
        split at htry
        · obtain rfl := Option.some.inj htry
          exact h.conclude hi (fun _ hnone => by cases hnone) (hreleases none)
        next hexists =>
          split at htry
          · cases htry
          next hbusy =>
            obtain rfl := Option.some.inj htry
            refine h.conclude hi ?_ (hreleases (some t))
            rintro _ ⟨⟩
            exact mem_of_not_isBusy (not_not.mp hexists) hbusy
    | timedOut => exact h.conclude hi (fun _ hnone => by cases hnone) (hreleases none)
    | notFound => exact h
    | found u relationship' => exact h
    | child p => exact h
  | addTransaction next =>
    rw [hprog] at hreleases
    cases choice with
    | go => exact h.addTransaction hi hreleases
    | found t relationship => exact h
    | notFound => exact h
    | timedOut => exact h
    | child p => exact h
  | linkChild p t next =>
    rw [hprog] at hreleases
    obtain ⟨hp, ht, hpt, hroot, hnext⟩ := hreleases
    cases choice with
    | go => exact h.linkChild hi hp ht hpt (hfresh t hroot).1 hnext
    | found t relationship => exact h
    | notFound => exact h
    | timedOut => exact h
    | child p => exact h
  | handle t next =>
    rw [hprog] at hreleases hmeets
    cases choice with
    | go => exact h.resume hi hreleases.2
    | child p =>
      obtain ⟨T, hT, -, hp⟩ := hmeets
      exact h.child (Forest.mem_ids_iff.mpr ⟨T, hT, hp⟩)
    | found t relationship => exact h
    | notFound => exact h
    | timedOut => exact h
  | markAvailable transaction next =>
    rw [hprog] at hreleases
    cases transaction with
    | none =>
      cases choice with
      | go => exact h.resume hi hreleases
      | found t relationship => exact h
      | notFound => exact h
      | timedOut => exact h
      | child p => exact h
    | some t =>
      cases choice with
      | go =>
        have hbusy : s.isBusy t = true :=
          decide_eq_true (h.exclusive.locked t ⟨i, hreleases.1⟩)
        simp only [if_pos hbusy]
        exact h.markAvailable hi hreleases.1 hreleases.2
      | found t relationship => exact h
      | notFound => exact h
      | timedOut => exact h
      | child p => exact h

theorem Inv.step (h : Inv s) (e : Event) (hallowed : Allowed s e) : Inv (step s e) := by
  cases e with
  | start action => exact h.start action
  | run i choice => exact h.run hallowed.1 hallowed.2
  | collect t => exact h.collect hallowed

theorem Inv.locking (h : Inv s) : Locking s := by
  refine ⟨h.exclusive.uniform, ?_, ?_, ?_⟩
  · rintro T hT i j ⟨t, hti, htT⟩ ⟨u, huj, huT⟩
    have htu : t = u := h.exclusive.apart t ⟨i, hti⟩ u ⟨j, huj⟩ ⟨T, hT, htT, huT⟩
    exact h.one i j t hti (htu ▸ huj)
  · intro i hdone
    obtain ⟨fresh, hreleases, -⟩ := h.releases i
    rw [hdone] at hreleases
    exact hreleases
  · intro i hfault
    obtain ⟨fresh, hreleases, -⟩ := h.releases i
    rw [hfault] at hreleases
    exact hreleases

end Steps

/-- **Over every interleaving** of calls and garbage collection, the marks of each tree are equal,
each tree is held by one call at most, and each call has released its trees when it returns. -/
theorem locking_of_reaches (s : State) (h : Run.Reaches step Allowed {} s) : Locking s := by
  refine Inv.locking (Run.Reaches.invariant h ?_ fun _ e hinv he => hinv.step e he)
  refine ⟨⟨nodup_nil, ?_, ?_, ?_⟩, ?_, ?_, fun _ => nodup_nil, fun _ _ => rfl, ?_⟩
  · intro T hT
    cases hT
  · rintro t ⟨i, hi⟩
    cases hi
  · rintro t ⟨i, hi⟩
    cases hi
  · intro t ht
    cases ht
  · intro i j t hi
    cases hi
  · exact fun i => ⟨none, rfl, fun _ hnone => by cases hnone⟩

/-- An INVITE is received and sent on below its server transaction. -/
def proxiedInvite : List Event :=
  [.start (.dispatch { messageType := .application, method := .invite }),
   .run 0 .notFound, .run 0 .go, .run 0 .go, .run 0 .go,
   .start (.send { isResponse := false, method := .invite, hasVia := true }),
   .run 1 .notFound, .run 1 (.found 0 .duplicate), .run 1 .go, .run 1 .go, .run 1 .go, .run 1 .go]

theorem locking_proxiedInvite : Locking (proxiedInvite.foldl step {}) :=
  locking_of_reaches _ (Run.AllAllowed.reaches (by decide))

end TransactionLocks

end SipXRouter
