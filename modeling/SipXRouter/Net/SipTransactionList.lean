import Mathlib.Data.List.Induction
import Mathlib.Data.List.Nodup
import Mathlib.Logic.Relation

/-!
# The list of transactions

`SipTransactionList` keeps all transactions of a user agent.  A message is matched
against them by `findTransactionFor`, which also locks the transaction it finds, and
`removeOldTransactions` deletes those that are no longer of use.

## Design notes

Transactions are known by number, as the source knows them by address, and refer to
their parent and children by number.  Marking a transaction for deletion and putting
it into the array of transactions to be deleted always go together in the source, so
the array stands for both.
-/

namespace SipXRouter

open List

namespace SipTransactionList

/-! ## Transactions and relationships -/

/-- `enum transactionStates`, in its order. -/
inductive TransactionState where
  | unknown
  | locallyInitiated
  | calling
  | proceeding
  | complete
  | confirmed
  | terminated
deriving DecidableEq

/-- `getState() >= TRANSACTION_COMPLETE`. -/
def TransactionState.isComplete : TransactionState → Bool
  | unknown | locallyInitiated | calling | proceeding => false
  | complete | confirmed | terminated => true

/-- `enum messageRelationship`. -/
inductive MessageRelationship where
  | unknown
  | unrelated
  | sameSession
  | differentBranch
  | request
  | provisional
  | final
  | newFinal
  | cancel
  | cancelResponse
  | ack
  | ack2xx
  | ack2xxProxy
  | duplicate
deriving DecidableEq

/-- The relationships that end the search. -/
def MessageRelationship.isMatch : MessageRelationship → Bool
  | request | provisional | final | newFinal | cancel | cancelResponse | ack | duplicate => true
  | _ => false

/-- The relationships that are remembered while the search goes on. -/
def MessageRelationship.is2xxAck : MessageRelationship → Bool
  | ack2xx | ack2xxProxy => true
  | _ => false

/-! ## Lookup -/

/-- A transaction as the search looks at it. -/
structure Candidate where
  id : Nat
  state : TransactionState
  isBusy : Bool
deriving DecidableEq

/-- What happens while `waitUntilAvailable` waits: the transaction is gone, or is not
busy, or the wait times out, or it is signaled and the loop starts again. -/
inductive Waiting where
  | gone
  | available
  | timedOut
  | signaled (rest : Waiting)
deriving DecidableEq

/-- Whether the transaction is there after the wait. -/
def waitUntilAvailable : Waiting → Bool
  | .gone => false
  | .available => true
  -- we bailed out before the event was signaled
  | .timedOut => false
  | .signaled rest => waitUntilAvailable rest

/-- What `findTransactionFor` returns and reports. -/
structure Found where
  transaction : Option Nat
  relationship : MessageRelationship
deriving DecidableEq

section Lookup

variable (messageTransaction : Option Nat) (whatRelation : Nat → MessageRelationship)

/-- The loop of `findTransactionFor` over the transactions with the hash of the message,
where `found2xx` is the match for a 2xx ACK so far. -/
def search : (found2xx : Option (Candidate × MessageRelationship)) → List Candidate →
    Option (Candidate × MessageRelationship)
  | found2xx, [] => found2xx
  | found2xx, t :: ts =>
    if messageTransaction ≠ none ∧ messageTransaction ≠ some t.id then search found2xx ts
    -- a transaction that has never sent its request matches no message
    else if messageTransaction = none ∧ t.state = .locallyInitiated then search found2xx ts
    else
      let relationship := whatRelation t.id
      if relationship.is2xxAck then search (some (t, relationship)) ts
      else if relationship.isMatch then some (t, relationship)
      else search found2xx ts

/-- The transaction for a message, with the relationship that the search has left. -/
def findTransactionFor (transactions : List Candidate) (waiting : Waiting) : Found :=
  match search messageTransaction whatRelation none transactions with
  | none => ⟨none, .unknown⟩
  | some (t, relationship) =>
    if t.isBusy && !waitUntilAvailable waiting then ⟨none, relationship⟩
    else ⟨some t.id, relationship⟩

end Lookup

/-- The two outputs agree. -/
def Found.Consistent (f : Found) : Prop := f.transaction = none ↔ f.relationship = .unknown

/-- `SipUserAgent::send` releases the transaction of a 2xx ACK without another look at
the pointer: the one it has found for the message, and the one it has found as the parent. -/
def Found.usedBySend (f : Found) : Bool := f.relationship.is2xxAck

/-- What `send` goes on with is a transaction. -/
def Found.Safe (f : Found) : Prop := f.usedBySend = true → f.transaction ≠ none

theorem search_ne_unknown {messageTransaction : Option Nat}
    {whatRelation : Nat → MessageRelationship} (transactions : List Candidate)
    {found2xx : Option (Candidate × MessageRelationship)}
    (hfound : ∀ p, found2xx = some p → p.2 ≠ .unknown) (p : Candidate × MessageRelationship)
    (hp : search messageTransaction whatRelation found2xx transactions = some p) :
    p.2 ≠ .unknown := by
  induction transactions generalizing found2xx with
  | nil => exact hfound p hp
  | cons t ts ih =>
    unfold search at hp
    split at hp
    · exact ih hfound hp
    split at hp
    · exact ih hfound hp
    simp only at hp
    split at hp
    next h2xx =>
      refine ih ?_ hp
      rintro _ ⟨⟩ hunknown
      rw [show whatRelation t.id = .unknown from hunknown] at h2xx
      cases h2xx
    next =>
      split at hp
      next hmatch =>
        obtain rfl := Option.some.inj hp
        intro hunknown
        rw [show whatRelation t.id = .unknown from hunknown] at hmatch
        cases hmatch
      next => exact ih hfound hp

/-- The outputs of the search agree, and `send` uses only what was returned, exactly if
the wait for the transaction found succeeds whenever it is busy. -/
theorem findTransactionFor_consistent_iff (messageTransaction : Option Nat)
    (whatRelation : Nat → MessageRelationship) (transactions : List Candidate)
    (waiting : Waiting) :
    ((findTransactionFor messageTransaction whatRelation transactions waiting).Consistent ∧
      (findTransactionFor messageTransaction whatRelation transactions waiting).Safe) ↔
      ∀ t relationship,
        search messageTransaction whatRelation none transactions = some (t, relationship) →
        t.isBusy = true → waitUntilAvailable waiting = true := by
  unfold findTransactionFor
  cases hsearch : search messageTransaction whatRelation none transactions with
  | none => simp [Found.Consistent, Found.Safe, Found.usedBySend, MessageRelationship.is2xxAck]
  | some p =>
    obtain ⟨t, relationship⟩ := p
    have hne : relationship ≠ .unknown :=
      search_ne_unknown transactions (by simp) _ hsearch
    cases hbusy : t.isBusy <;> cases waitUntilAvailable waiting <;>
      simp [Found.Consistent, Found.Safe, hne, hbusy]

/-- An ACK for a 2xx to be sent on, whose transaction stays busy until the wait times
out. -/
theorem findTransactionFor_timedOut :
    let found := findTransactionFor none (fun _ => .ack2xxProxy) [⟨0, .complete, true⟩] .timedOut
    found.transaction = none ∧ found.relationship = .ack2xxProxy ∧
      ¬ (found.Consistent ∧ found.Safe) := by
  refine ⟨rfl, rfl, ?_⟩
  rintro ⟨-, hsafe⟩
  exact hsafe rfl rfl

/-! ## Garbage collection -/

/-- A transaction as garbage collection looks at it. -/
structure Transaction where
  id : Nat
  isBusy : Bool := false
  timeStamp : Int
  isInvite : Bool
  state : TransactionState
  parent : Option Nat := none
  children : List Nat := []
deriving DecidableEq

/-- The time since boot, and the age limits. -/
structure Clock where
  bootime : Int
  oldTransaction : Int
  oldInviteTransaction : Int
deriving DecidableEq

section Collection

variable (c : Clock)

/-- The transaction has passed its age limit. -/
def isOld (t : Transaction) : Bool :=
  t.timeStamp < if t.isInvite then c.oldInviteTransaction else c.oldTransaction

variable (ts : List Transaction)

def find (id : Nat) : Option Transaction := ts.find? (·.id == id)

/-- The guard of the rule for finished INVITE transactions. -/
def isFinishedInvite (t : Transaction) : Bool :=
  t.isInvite && t.state.isComplete && decide (32 < c.bootime - t.timeStamp) && t.parent.isNone

/-- The loop over the children that looks for one that is not finished.  The state it
compares is that of the parent. -/
def isChildBusy (t : Transaction) : Bool :=
  t.children.any fun k => (find ts k).any (·.isBusy) || !t.state.isComplete

/-- The loop that puts the children into the array, unless they are marked. -/
def addChildren (toBeDeleted children : List Nat) : List Nat :=
  children.foldl (fun d k => if k ∈ d then d else d ++ [k]) toBeDeleted

/-- The body of the scan in `removeOldTransactions`. -/
def visitOld (toBeDeleted : List Nat) (t : Transaction) : List Nat :=
  if t.isBusy then toBeDeleted
  else if t.id ∈ toBeDeleted then toBeDeleted
  else if isOld c t then toBeDeleted ++ [t.id]
  else if isFinishedInvite c t && !isChildBusy ts t then
    addChildren toBeDeleted t.children ++ [t.id]
  else toBeDeleted

/-- The array of transactions to be deleted. -/
def toBeDeleted : List Nat := ts.foldl (visitOld c ts) []

/-- The destructor, which breaks the links to the parent and to the children. -/
def destroy (ts : List Transaction) (id : Nat) : List Transaction :=
  match find ts id with
  | none => ts
  | some d =>
    (ts.filter (·.id != id)).map fun t =>
      { t with
        parent := if t.id ∈ d.children then none else t.parent
        children := if d.parent = some t.id then t.children.filter (· != id) else t.children }

/-- The list without the transactions to be deleted, each of which is taken out of its parent and
its children. -/
def removeOldTransactions : List Transaction := (toBeDeleted c ts).foldl destroy ts

end Collection

/-- A list of transaction trees: the links between parents and children go both ways. -/
structure WellLinked (ts : List Transaction) : Prop where
  ids : (ts.map Transaction.id).Nodup
  child : ∀ t ∈ ts, ∀ k ∈ t.children, ∃ u ∈ ts, u.id = k ∧ u.parent = some t.id
  parent : ∀ u ∈ ts, ∀ p, u.parent = some p → ∃ t ∈ ts, t.id = p ∧ u.id ∈ t.children

/-- `u` is in the tree below `t`. -/
def Below (ts : List Transaction) : Transaction → Transaction → Prop :=
  Relation.ReflTransGen fun t u => t ∈ ts ∧ u ∈ ts ∧ u.parent = some t.id

/-- Two transactions have the same topmost parent. -/
def SameTree (ts : List Transaction) (t u : Transaction) : Prop :=
  ∃ r ∈ ts, r.parent = none ∧ Below ts r t ∧ Below ts r u

/-- What garbage collection has to keep to. -/
structure CollectsFinished (c : Clock) (ts : List Transaction) : Prop where
  once : (toBeDeleted c ts).Nodup
  notBusy : ∀ t ∈ ts, t.id ∈ toBeDeleted c ts → t.isBusy = false
  /-- A transaction within its age limit goes with its whole tree, when all of that is
  finished. -/
  together : ∀ t ∈ ts, t.id ∈ toBeDeleted c ts → isOld c t = false →
    ∀ u ∈ ts, SameTree ts t u →
      u.id ∈ toBeDeleted c ts ∧ u.isBusy = false ∧ u.state.isComplete = true
  /-- No transaction that is left has a parent or child that is deleted. -/
  links : ∀ t ∈ removeOldTransactions c ts, t.id ∉ toBeDeleted c ts ∧
    (∀ p, t.parent = some p → p ∉ toBeDeleted c ts) ∧
    ∀ k ∈ t.children, k ∉ toBeDeleted c ts

/-- The transaction is within its age limit and is deleted with its children by the rule
for finished INVITE transactions. -/
def Fires (c : Clock) (ts : List Transaction) (t : Transaction) : Prop :=
  t.isBusy = false ∧ isOld c t = false ∧ isFinishedInvite c t = true ∧
    ∀ u ∈ ts, u.parent = some t.id → u.isBusy = false

/-! ### Which transactions are deleted -/

section Deleted

variable {c : Clock} {ts : List Transaction}

theorem mem_addChildren {d children : List Nat} {id : Nat} :
    id ∈ addChildren d children ↔ id ∈ d ∨ id ∈ children := by
  induction children generalizing d with
  | nil => simp [addChildren]
  | cons k children ih =>
    have hstep : addChildren d (k :: children) =
        addChildren (if k ∈ d then d else d ++ [k]) children := rfl
    rw [hstep, ih, mem_cons]
    split
    next hk =>
      refine ⟨fun h => h.imp_right Or.inr, ?_⟩
      rintro (h | rfl | h)
      · exact Or.inl h
      · exact Or.inl hk
      · exact Or.inr h
    next => simp [or_assoc]

theorem nodup_push {d : List Nat} {k : Nat} (hk : k ∉ d) (h : d.Nodup) : (d ++ [k]).Nodup := by
  rw [← concat_eq_append]
  exact h.concat hk

theorem nodup_addChildren {d children : List Nat} (h : d.Nodup) :
    (addChildren d children).Nodup := by
  induction children generalizing d with
  | nil => exact h
  | cons k children ih =>
    refine ih ?_
    show (if k ∈ d then d else d ++ [k]).Nodup
    split
    · exact h
    next hk => exact nodup_push hk h

theorem WellLinked.eq_of_id {t u : Transaction} (h : WellLinked ts) (ht : t ∈ ts) (hu : u ∈ ts)
    (hid : t.id = u.id) : t = u :=
  inj_on_of_nodup_map h.ids ht hu hid

theorem WellLinked.find_eq {t : Transaction} (h : WellLinked ts) (ht : t ∈ ts) :
    find ts t.id = some t := by
  obtain ⟨u, hu⟩ : ∃ u, find ts t.id = some u := by
    rw [← Option.isSome_iff_exists, find, find?_isSome]
    exact ⟨t, ht, by simp⟩
  have huid : u.id = t.id := by simpa using find?_some hu
  rw [hu, h.eq_of_id (mem_of_find?_eq_some hu) ht huid]

theorem WellLinked.fires_iff {t : Transaction} (h : WellLinked ts) (ht : t ∈ ts) :
    Fires c ts t ↔ t.isBusy = false ∧ isOld c t = false ∧
      (isFinishedInvite c t && !isChildBusy ts t) = true := by
  unfold Fires
  refine and_congr_right fun _ => and_congr_right fun _ => ?_
  rw [Bool.and_eq_true]
  refine and_congr_right fun hfinished => ?_
  have hcomplete : t.state.isComplete = true := by
    simp only [isFinishedInvite, Bool.and_eq_true] at hfinished
    exact hfinished.1.1.2
  simp only [isChildBusy, hcomplete, Bool.not_true, Bool.or_false, Bool.not_eq_true',
    any_eq_false]
  constructor
  · intro hidle k hk
    obtain ⟨u, hu, rfl, hparent⟩ := h.child t ht k hk
    simp [h.find_eq hu, hidle u hu hparent]
  · intro hidle u hu hparent
    obtain ⟨p, hp, hpid, hmem⟩ := h.parent u hu _ hparent
    obtain rfl := h.eq_of_id hp ht hpid
    simpa [h.find_eq hu] using hidle u.id hmem

/-- The transactions that a scan of the transactions `seen` has put into the array. -/
def Scanned (c : Clock) (ts seen : List Transaction) (id : Nat) : Prop :=
  (∃ t ∈ seen, t.id = id ∧ t.isBusy = false ∧ isOld c t = true) ∨
    ∃ t ∈ seen, Fires c ts t ∧ (t.id = id ∨ id ∈ t.children)

theorem scanned_concat {seen : List Transaction} {t : Transaction} {id : Nat} :
    Scanned c ts (seen ++ [t]) id ↔
      Scanned c ts seen id ∨ (t.id = id ∧ t.isBusy = false ∧ isOld c t = true) ∨
        (Fires c ts t ∧ (t.id = id ∨ id ∈ t.children)) := by
  simp only [Scanned, mem_append, mem_singleton, or_and_right, exists_or, exists_eq_left]
  exact or_or_or_comm

theorem Fires.parent_eq {t : Transaction} (h : Fires c ts t) : t.parent = none := by
  have hfinished := h.2.2.1
  simp only [isFinishedInvite, Bool.and_eq_true] at hfinished
  simpa using hfinished.2

theorem Fires.not_mem_children {t u : Transaction} (h : Fires c ts t) (hlinked : WellLinked ts)
    (ht : t ∈ ts) (hu : u ∈ ts) : t.id ∉ u.children := by
  intro hmem
  obtain ⟨v, hv, hid, hparent⟩ := hlinked.child u hu _ hmem
  rw [hlinked.eq_of_id hv ht hid, h.parent_eq] at hparent
  cases hparent

/-- One turn of the scan marks what is old with all below it. -/
theorem visitOld_spec (h : WellLinked ts) {seen : List Transaction} {t : Transaction}
    {d : List Nat} (hseen : seen ++ [t] <+: ts) (hnodup : d.Nodup)
    (hd : ∀ id, id ∈ d ↔ Scanned c ts seen id) : (visitOld c ts d t).Nodup ∧
      ∀ id, id ∈ visitOld c ts d t ↔ Scanned c ts (seen ++ [t]) id := by
  have ht : t ∈ ts := hseen.subset (by simp)
  have hfires := h.fires_iff (c := c) ht
  have hnew : ∀ u ∈ seen, u.id ≠ t.id := by
    have hids := (hseen.map Transaction.id).sublist.nodup h.ids
    rw [map_append, nodup_append] at hids
    exact fun u hu => hids.2.2 u.id (mem_map_of_mem hu) t.id (by simp)
  unfold visitOld
  split
  next hbusy =>
    have hno : ¬ Fires c ts t := fun hf => by simp [hf.1] at hbusy
    refine ⟨hnodup, fun id => ?_⟩
    rw [hd, scanned_concat]
    simp [hbusy, hno]
  next hidle =>
    have hidle : t.isBusy = false := by simpa using hidle
    split
    next hmarked =>
      have hno : ¬ Fires c ts t := by
        intro hf
        rcases (hd t.id).mp hmarked with ⟨u, hu, hid, -⟩ | ⟨u, hu, -, hid | hmem⟩
        · exact hnew u hu hid
        · exact hnew u hu hid
        · exact hf.not_mem_children h ht (hseen.subset (by simp [hu])) hmem
      refine ⟨hnodup, fun id => ?_⟩
      rw [hd, scanned_concat]
      refine ⟨Or.inl, ?_⟩
      rintro (hscanned | ⟨rfl, -⟩ | ⟨hf, -⟩)
      · exact hscanned
      · exact (hd _).mp hmarked
      · exact absurd hf hno
    next hfree =>
      split
      next hold =>
        have hno : ¬ Fires c ts t := fun hf => by simp [hf.2.1] at hold
        refine ⟨nodup_push hfree hnodup, fun id => ?_⟩
        rw [mem_append, hd, scanned_concat]
        simp [hidle, hold, hno, eq_comm]
      next hyoung =>
        have hyoung : isOld c t = false := by simpa using hyoung
        split
        next hrule =>
          have hf : Fires c ts t := hfires.mpr ⟨hidle, hyoung, hrule⟩
          have hown : t.id ∉ addChildren d t.children := by
            rw [mem_addChildren]
            rintro (hmem | hmem)
            · exact hfree hmem
            · exact hf.not_mem_children h ht ht hmem
          refine ⟨nodup_push hown (nodup_addChildren hnodup), fun id => ?_⟩
          rw [mem_append, mem_addChildren, hd, scanned_concat]
          simp only [hyoung, hf, mem_singleton, Bool.false_eq_true, and_false, false_or,
            true_and, or_assoc, eq_comm, or_comm]
        next hrule =>
          have hno : ¬ Fires c ts t := fun hf => hrule (hfires.mp hf).2.2
          refine ⟨hnodup, fun id => ?_⟩
          rw [hd, scanned_concat]
          simp [hyoung, hno]

/-- What the scan puts into the array, once each. -/
theorem toBeDeleted_spec (h : WellLinked ts) :
    (toBeDeleted c ts).Nodup ∧ ∀ id, id ∈ toBeDeleted c ts ↔ Scanned c ts ts id := by
  have hprefix : ∀ seen : List Transaction, seen <+: ts →
      (seen.foldl (visitOld c ts) []).Nodup ∧
        ∀ id, id ∈ seen.foldl (visitOld c ts) [] ↔ Scanned c ts seen id := by
    intro seen
    induction seen using reverseRecOn with
    | nil => intro _; simp [Scanned]
    | append_singleton seen t ih =>
      intro hseen
      obtain ⟨hnodup, hd⟩ := ih ((prefix_append seen [t]).trans hseen)
      rw [foldl_concat]
      exact visitOld_spec h hseen hnodup hd
  exact hprefix ts (prefix_refl ts)

theorem WellLinked.mem_toBeDeleted {t : Transaction} (h : WellLinked ts) (ht : t ∈ ts) :
    t.id ∈ toBeDeleted c ts ↔ (t.isBusy = false ∧ isOld c t = true) ∨ Fires c ts t ∨
      ∃ p ∈ ts, Fires c ts p ∧ t.parent = some p.id := by
  rw [(toBeDeleted_spec h).2]
  constructor
  · rintro (⟨u, hu, hid, hold⟩ | ⟨u, hu, hf, hid | hmem⟩)
    · rw [h.eq_of_id hu ht hid] at hold
      exact Or.inl hold
    · rw [h.eq_of_id hu ht hid] at hf
      exact Or.inr (Or.inl hf)
    · obtain ⟨v, hv, hid, hparent⟩ := h.child u hu _ hmem
      rw [h.eq_of_id hv ht hid] at hparent
      exact Or.inr (Or.inr ⟨u, hu, hf, hparent⟩)
  · rintro (hold | hf | ⟨p, hp, hf, hparent⟩)
    · exact Or.inl ⟨t, ht, rfl, hold⟩
    · exact Or.inr ⟨t, ht, hf, Or.inl rfl⟩
    · obtain ⟨q, hq, hid, hmem⟩ := h.parent t ht _ hparent
      rw [h.eq_of_id hq hp hid] at hmem
      exact Or.inr ⟨p, hp, hf, Or.inr hmem⟩

theorem WellLinked.notBusy_of_mem {t : Transaction} (h : WellLinked ts) (ht : t ∈ ts)
    (hmem : t.id ∈ toBeDeleted c ts) : t.isBusy = false := by
  rcases (h.mem_toBeDeleted ht).mp hmem with hold | hf | ⟨p, -, hf, hparent⟩
  · exact hold.1
  · exact hf.1
  · exact hf.2.2.2 t ht hparent

end Deleted

/-! ### Deletion -/

section Deletion

variable {ts : List Transaction}

/-- A transaction without its links to `id`. -/
def Transaction.unlink (id : Nat) (t : Transaction) : Transaction :=
  { t with parent := t.parent.filter (· != id), children := t.children.filter (· != id) }

/-- Destroying a transaction unlinks it from its parent and its children. -/
theorem WellLinked.destroy_eq (h : WellLinked ts) (id : Nat) :
    destroy ts id = (ts.filter (·.id != id)).map (Transaction.unlink id) := by
  unfold destroy
  cases hfind : find ts id with
  | none =>
    have hgone : ∀ t ∈ ts, t.id ≠ id := by simpa [find] using hfind
    have hfilter : ts.filter (·.id != id) = ts := filter_eq_self.mpr (by simpa using hgone)
    rw [hfilter]
    refine (map_id ts).symm.trans (map_congr_left fun t ht => ?_)
    have hparent : t.parent.filter (· != id) = t.parent := by
      cases hp : t.parent with
      | none => rfl
      | some p =>
        obtain ⟨u, hu, rfl, -⟩ := h.parent t ht p hp
        simp [Option.filter, hgone u hu]
    have hchildren : t.children.filter (· != id) = t.children := by
      refine filter_eq_self.mpr fun k hk => ?_
      obtain ⟨u, hu, rfl, -⟩ := h.child t ht k hk
      simpa using hgone u hu
    simp [Transaction.unlink, hparent, hchildren]
  | some d =>
    have hd : d ∈ ts := mem_of_find?_eq_some hfind
    obtain rfl : d.id = id := by simpa using find?_some hfind
    refine map_congr_left fun t ht => ?_
    have ht : t ∈ ts := mem_of_mem_filter ht
    have hparent : (if t.id ∈ d.children then none else t.parent) =
        t.parent.filter (· != d.id) := by
      split
      next hmem =>
        obtain ⟨u, hu, hid, hp⟩ := h.child d hd _ hmem
        rw [h.eq_of_id hu ht hid] at hp
        simp [hp, Option.filter]
      next hmem =>
        cases hp : t.parent with
        | none => rfl
        | some p =>
          have hne : p ≠ d.id := by
            rintro rfl
            obtain ⟨u, hu, hid, hchild⟩ := h.parent t ht _ hp
            rw [h.eq_of_id hu hd hid] at hchild
            exact hmem hchild
          simp [Option.filter, hne]
    have hchildren : (if d.parent = some t.id then t.children.filter (· != d.id)
        else t.children) = t.children.filter (· != d.id) := by
      split
      next => rfl
      next hother =>
        refine (filter_eq_self.mpr fun k hk => ?_).symm
        obtain ⟨u, hu, rfl, hp⟩ := h.child t ht k hk
        have hne : u.id ≠ d.id := by
          intro hid
          rw [h.eq_of_id hu hd hid] at hp
          exact hother hp
        simpa using hne
    simp only [Transaction.unlink, hparent, hchildren]

theorem WellLinked.destroy (h : WellLinked ts) (id : Nat) : WellLinked (destroy ts id) := by
  rw [h.destroy_eq]
  refine ⟨?_, ?_, ?_⟩
  · rw [map_map]
    exact h.ids.sublist (filter_sublist.map Transaction.id)
  · simp only [mem_map, mem_filter, forall_exists_index, and_imp]
    rintro _ t ht hne rfl k hk
    obtain ⟨hk, hkne⟩ := mem_filter.mp hk
    obtain ⟨u, hu, rfl, hp⟩ := h.child t ht k hk
    refine ⟨_, ⟨u, ⟨hu, hkne⟩, rfl⟩, rfl, ?_⟩
    show u.parent.filter (· != id) = some t.id
    rw [hp, Option.filter_some, if_pos hne]
  · simp only [mem_map, mem_filter, forall_exists_index, and_imp]
    rintro _ u hu hne rfl p hp
    obtain ⟨hp, hpne⟩ := Option.filter_eq_some_iff.mp hp
    obtain ⟨t, ht, rfl, hmem⟩ := h.parent u hu p hp
    exact ⟨_, ⟨t, ⟨ht, hpne⟩, rfl⟩, rfl, mem_filter.mpr ⟨hmem, hne⟩⟩

theorem WellLinked.mem_destroy {t : Transaction} {id : Nat} (h : WellLinked ts)
    (ht : t ∈ SipTransactionList.destroy ts id) : t.id ≠ id ∧ ∃ u ∈ ts, u.id = t.id := by
  rw [h.destroy_eq] at ht
  simp only [mem_map, mem_filter] at ht
  obtain ⟨u, ⟨hu, hne⟩, rfl⟩ := ht
  refine ⟨?_, u, hu, rfl⟩
  show u.id ≠ id
  simpa using hne

theorem WellLinked.foldl_destroy (h : WellLinked ts) (ids : List Nat) :
    WellLinked (ids.foldl SipTransactionList.destroy ts) ∧
      ∀ t ∈ ids.foldl SipTransactionList.destroy ts, t.id ∉ ids ∧ ∃ u ∈ ts, u.id = t.id := by
  induction ids generalizing ts with
  | nil => exact ⟨h, fun t ht => ⟨by simp, t, ht, rfl⟩⟩
  | cons id ids ih =>
    obtain ⟨hlinked, hgone⟩ := ih (h.destroy id)
    refine ⟨hlinked, fun t ht => ?_⟩
    obtain ⟨hids, u, hu, hid⟩ := hgone t ht
    obtain ⟨hne, v, hv, hvid⟩ := h.mem_destroy hu
    refine ⟨?_, v, hv, hvid.trans hid⟩
    rw [mem_cons, not_or]
    exact ⟨hid ▸ hne, hids⟩

end Deletion

/-! ### Trees -/

section Trees

variable {c : Clock} {ts : List Transaction} {r t u : Transaction}

/-- The step that leads down to a transaction. -/
theorem Below.cases_last (h : Below ts r u) :
    u = r ∨ ∃ p ∈ ts, Below ts r p ∧ u ∈ ts ∧ u.parent = some p.id := by
  rcases Relation.ReflTransGen.cases_tail h with heq | ⟨p, hp, hmem, hu, hparent⟩
  · exact Or.inl heq
  · exact Or.inr ⟨p, hmem, hp, hu, hparent⟩

theorem Below.eq_of_parent_eq_none (h : Below ts r u) (hroot : u.parent = none) : u = r := by
  rcases h.cases_last with heq | ⟨p, -, -, -, hparent⟩
  · exact heq
  · rw [hroot] at hparent
    cases hparent

theorem WellLinked.eq_of_below (h : WellLinked ts) {r' : Transaction} (hr : r ∈ ts)
    (hr' : r'.parent = none) (hroot : r.parent = none) (ht : t = r ∨ t.parent = some r.id)
    (hbelow : Below ts r' t) : r' = r := by
  rcases ht with rfl | hparent
  · exact (hbelow.eq_of_parent_eq_none hroot).symm
  · rcases hbelow.cases_last with rfl | ⟨p, hp, hbelow, -, hp'⟩
    · rw [hr'] at hparent
      cases hparent
    · rw [hparent, Option.some.injEq] at hp'
      obtain rfl := h.eq_of_id hr hp hp'
      exact (hbelow.eq_of_parent_eq_none hroot).symm

/-- Garbage collection removes finished work only, exactly if below each INVITE
transaction that it deletes with its children, all are idle and complete, and those that
are not its children have passed their own age limit. -/
theorem collectsFinished_iff (c : Clock) (ts : List Transaction) (h : WellLinked ts) :
    CollectsFinished c ts ↔
      ∀ r ∈ ts, Fires c ts r → ∀ u ∈ ts, Below ts r u →
        u.isBusy = false ∧ u.state.isComplete = true ∧
          (u = r ∨ u.parent = some r.id ∨ isOld c u = true) := by
  constructor
  · intro hcollects r hr hf u hu hbelow
    obtain ⟨hmem, hidle, hcomplete⟩ := hcollects.together r hr
      ((h.mem_toBeDeleted hr).mpr (Or.inr (Or.inl hf))) hf.2.1 u hu
      ⟨r, hr, hf.parent_eq, Relation.ReflTransGen.refl, hbelow⟩
    refine ⟨hidle, hcomplete, ?_⟩
    rcases (h.mem_toBeDeleted hu).mp hmem with hold | hfu | ⟨p, hp, hfp, hparent⟩
    · exact Or.inr (Or.inr hold.2)
    · exact Or.inl (hbelow.eq_of_parent_eq_none hfu.parent_eq)
    · rw [h.eq_of_below hp hf.parent_eq hfp.parent_eq (Or.inr hparent) hbelow]
      exact Or.inr (Or.inl hparent)
  · intro hcond
    refine ⟨(toBeDeleted_spec h).1, fun t ht => h.notBusy_of_mem ht, ?_, ?_⟩
    · intro t ht hmem hyoung u hu hsame
      obtain ⟨r', hr', hroot', hbelow, hbelow'⟩ := hsame
      -- the root of the tree has fired
      obtain ⟨r, hr, hf, htr⟩ : ∃ r ∈ ts, Fires c ts r ∧ (t = r ∨ t.parent = some r.id) := by
        rcases (h.mem_toBeDeleted ht).mp hmem with hold | hf | ⟨p, hp, hf, hparent⟩
        · rw [hyoung] at hold
          cases hold.2
        · exact ⟨t, ht, hf, Or.inl rfl⟩
        · exact ⟨p, hp, hf, Or.inr hparent⟩
      obtain rfl := h.eq_of_below hr hroot' hf.parent_eq htr hbelow
      obtain ⟨hidle, hcomplete, hgone⟩ := hcond r' hr hf u hu hbelow'
      refine ⟨(h.mem_toBeDeleted hu).mpr ?_, hidle, hcomplete⟩
      rcases hgone with rfl | hparent | hold
      · exact Or.inr (Or.inl hf)
      · exact Or.inr (Or.inr ⟨r', hr, hf, hparent⟩)
      · exact Or.inl ⟨hidle, hold⟩
    · intro t ht
      obtain ⟨hlinked, hgone⟩ := h.foldl_destroy (toBeDeleted c ts)
      refine ⟨(hgone t ht).1, fun p hp => ?_, fun k hk => ?_⟩
      · obtain ⟨u, hu, rfl, -⟩ := hlinked.parent t ht p hp
        exact (hgone u hu).1
      · obtain ⟨u, hu, rfl, -⟩ := hlinked.child t ht k hk
        exact (hgone u hu).1

end Trees

/-- An INVITE transaction with two branches, the first of which was answered a minute
ago; the second one is in the state given. -/
def twoBranches (state : TransactionState) : List Transaction :=
  [{ id := 0, timeStamp := 40, isInvite := true, state := .complete, children := [1, 2] },
   { id := 1, timeStamp := 40, isInvite := true, state := .complete, parent := some 0 },
   { id := 2, timeStamp := 40, isInvite := true, state := state, parent := some 0 }]

def laterClock : Clock := { bootime := 100, oldTransaction := 0, oldInviteTransaction := 0 }

theorem wellLinked_twoBranches (state : TransactionState) : WellLinked (twoBranches state) := by
  refine ⟨by simp [twoBranches], ?_, ?_⟩ <;> simp [twoBranches]

/-- Both branches have come to an end. -/
theorem collectsFinished_twoBranches_complete :
    WellLinked (twoBranches .complete) ∧ CollectsFinished laterClock (twoBranches .complete) := by
  refine ⟨wellLinked_twoBranches _, (collectsFinished_iff _ _ (wellLinked_twoBranches _)).mpr ?_⟩
  intro r hr hf u hu _
  have hchildren : ∀ t ∈ twoBranches .complete, t.isBusy = false ∧ t.state.isComplete = true ∧
      (t.id = 0 ∨ t.parent = some 0) := by decide
  have hr0 : r.id = 0 := by
    rcases (hchildren r hr).2.2 with hid | hparent
    · exact hid
    · rw [hf.parent_eq] at hparent
      cases hparent
  obtain ⟨hidle, hcomplete, hid | hparent⟩ := hchildren u hu
  · exact ⟨hidle, hcomplete, Or.inl ((wellLinked_twoBranches _).eq_of_id hu hr (hid.trans hr0.symm))⟩
  · exact ⟨hidle, hcomplete, Or.inr (Or.inl (hparent.trans (congrArg some hr0.symm)))⟩

/-- The second branch is still ringing when it is deleted. -/
theorem not_collectsFinished_twoBranches_proceeding :
    WellLinked (twoBranches .proceeding) ∧
      ¬ CollectsFinished laterClock (twoBranches .proceeding) := by
  refine ⟨wellLinked_twoBranches _, fun hcollects => ?_⟩
  let ts := twoBranches .proceeding
  have hroot : ts[0] ∈ ts := getElem_mem _
  have hbranch : ts[2] ∈ ts := getElem_mem _
  have hbelow : Below ts ts[0] ts[2] := Relation.ReflTransGen.single ⟨hroot, hbranch, rfl⟩
  have hfinished := hcollects.together _ hbranch (by decide) rfl _ hbranch
    ⟨ts[0], hroot, rfl, hbelow, hbelow⟩
  cases hfinished.2.2

end SipTransactionList

end SipXRouter
