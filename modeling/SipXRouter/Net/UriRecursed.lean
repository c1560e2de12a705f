import SipXRouter.Preference
import SipXRouter.Net.TransactionTree

/-!
# Contacts that are already pursued

A redirection makes a child transaction for each of its contacts, unless the request has
been sent there before: `isUriRecursed` is to find a started transaction of the tree with
the URI of the contact.

## Design notes

The recursive call of the search is on the same transaction, so that it has no end where it
is reached.

A contact is given by its URI, its q value and its expiration time, and a redirection with
what `loopDetected` answers for its contacts.  The 482 response that takes the place of
a redirection in a loop makes no transaction.
-/

namespace SipXRouter

open List

namespace UriRecursed

open SipTransactionList Preference
open TransactionTree (rank)

/-- What is read and written of a `SipTransaction` here. -/
structure SipTransaction where
  requestUri : Text
  transactionState : TransactionState := .locallyInitiated
  qvalue : ℚ := 1
  expires : Int := -1
deriving DecidableEq

abbrev Tree := Rose SipTransaction

/-- `mTransactionState > TRANSACTION_LOCALLY_INIITATED`. -/
def SipTransaction.isStarted (t : SipTransaction) : Bool :=
  decide (rank .locallyInitiated < rank t.transactionState)

/-! ## The search -/

/-- The loop of `isUriRecursedChildren`, with the result of the recursive call. -/
def recursedLoop (uriString : Text) (recursive : Option Bool) : List Tree → Option Bool
  | [] => some false
  | child :: rest =>
    if child.label.isStarted then
      if child.label.requestUri = uriString then some true
      else
        recursive.bind fun found =>
          if found then some true else recursedLoop uriString recursive rest
    else recursedLoop uriString recursive rest

/-- `isUriRecursedChildren`, for a number of nested calls.  They are all made on the same
transaction. -/
def isUriRecursedChildren (uriString : Text) (children : List Tree) : (calls : Nat) → Option Bool
  | 0 => none
  | calls + 1 => recursedLoop uriString (isUriRecursedChildren uriString children calls) children

/-- `isUriRecursed`.  The topmost parent is looked up, but the search does not start there. -/
def isUriRecursed (calls : Nat) (this : Tree) (uri : Text) : Option Bool :=
  isUriRecursedChildren uri this.children calls

/-- The search ends, and finds a started transaction of the tree if there is one. -/
def FindsStarted (r : Tree) (member : List Nat) (uri : Text) : Prop :=
  ∃ this calls found, r.get? member = some this ∧ isUriRecursed calls this uri = some found ∧
    (found = true ↔
      ∃ path t, r.label? path = some t ∧ t.isStarted = true ∧ t.requestUri = uri)

/-- The first started child has the URI, or there is no started child, and no started
transaction with the URI in the whole tree. -/
def FirstStartedDecides (r : Tree) (member : List Nat) (uri : Text) : Prop :=
  ∃ this, r.get? member = some this ∧
    ((∃ c, this.children.find? (fun c => c.label.isStarted) = some c ∧ c.label.requestUri = uri) ∨
      (this.children.find? (fun c => c.label.isStarted) = none ∧
        ∀ path t, r.label? path = some t → t.isStarted = true → t.requestUri ≠ uri))

variable {uri : Text} {children : List Tree} {c : Tree}

theorem recursedLoop_of_find?_eq_none {recursive : Option Bool}
    (h : children.find? (fun c => c.label.isStarted) = none) :
    recursedLoop uri recursive children = some false := by
  induction children with
  | nil => rfl
  | cons d children ih =>
    rw [find?_cons] at h
    cases hd : d.label.isStarted with
    | true => simp [hd] at h
    | false =>
      rw [hd] at h
      rw [recursedLoop, hd]
      exact ih h

theorem recursedLoop_of_find?_eq_some
    (h : children.find? (fun c => c.label.isStarted) = some c) (recursive : Option Bool) :
    (c.label.requestUri = uri → recursedLoop uri recursive children = some true) ∧
      (c.label.requestUri ≠ uri → recursedLoop uri none children = none) := by
  induction children with
  | nil => exact absurd h (Option.some_ne_none c).symm
  | cons d children ih =>
    rw [find?_cons] at h
    cases hd : d.label.isStarted with
    | true =>
      rw [hd] at h
      obtain rfl := Option.some.inj h
      constructor
      · intro huri
        rw [recursedLoop, hd, if_pos rfl, if_pos huri]
      · intro huri
        rw [recursedLoop, hd, if_pos rfl, if_neg huri, Option.bind_none]
    | false =>
      rw [hd] at h
      rw [recursedLoop, recursedLoop, hd]
      exact ih h

theorem isUriRecursedChildren_of_find?_eq_none
    (h : children.find? (fun c => c.label.isStarted) = none) (calls : Nat) :
    isUriRecursedChildren uri children (calls + 1) = some false :=
  recursedLoop_of_find?_eq_none h

theorem isUriRecursedChildren_eq_none
    (h : children.find? (fun c => c.label.isStarted) = some c) (hne : c.label.requestUri ≠ uri)
    (calls : Nat) : isUriRecursedChildren uri children calls = none := by
  induction calls with
  | zero => rfl
  | succ calls ih =>
    rw [isUriRecursedChildren, ih]
    have hloop : _ ∧ (c.label.requestUri ≠ uri → recursedLoop uri none children = none) :=
      recursedLoop_of_find?_eq_some h none
    exact hloop.2 hne

theorem findsStarted_iff (r : Tree) (member : List Nat) (uri : Text) :
    FindsStarted r member uri ↔ FirstStartedDecides r member uri := by
  constructor
  · rintro ⟨this, calls, found, hthis, hfound, hiff⟩
    refine ⟨this, hthis, ?_⟩
    cases hfirst : this.children.find? (fun c => c.label.isStarted) with
    | none =>
      refine .inr ⟨rfl, fun path t ht hstarted huri => ?_⟩
      have htrue := hiff.mpr ⟨path, t, ht, hstarted, huri⟩
      cases calls with
      | zero => exact absurd hfound (Option.some_ne_none found).symm
      | succ calls =>
        have hfalse : isUriRecursed (calls + 1) this uri = some false :=
          isUriRecursedChildren_of_find?_eq_none hfirst calls
        rw [hfound, htrue] at hfalse
        exact Bool.false_ne_true (Option.some.inj hfalse).symm
    | some c =>
      refine .inl ⟨c, rfl, ?_⟩
      by_contra hne
      have hnone := isUriRecursedChildren_eq_none hfirst hne calls
      exact Option.some_ne_none found (hfound.symm.trans hnone)
  · rintro ⟨this, hthis, ⟨c, hfirst, huri⟩ | ⟨hfirst, hnot⟩⟩
    · refine ⟨this, 1, true, hthis, (recursedLoop_of_find?_eq_some hfirst _).1 huri, ?_⟩
      have hmem := mem_of_find?_eq_some hfirst
      have hstarted := find?_some hfirst
      obtain ⟨i, hi⟩ := getElem?_of_mem hmem
      refine ⟨fun _ => ⟨member ++ [i], c.label, ?_, hstarted, huri⟩, fun _ => rfl⟩
      rw [Rose.label?_append hthis, Rose.label?_cons, hi, Option.bind_some, Rose.label?_nil]
    · refine ⟨this, 1, false, hthis, isUriRecursedChildren_of_find?_eq_none hfirst 0, ?_⟩
      refine ⟨fun h => absurd h Bool.false_ne_true, ?_⟩
      rintro ⟨path, t, ht, hstarted, huri⟩
      exact absurd huri (hnot path t ht hstarted)

/-! ## Redirections -/

/-- What a Contact of a redirection says. -/
structure Contact where
  uri : Text
  qvalue : ℚ := 1
  expires : Int := -1
deriving DecidableEq

/-- What `recurseChildren` looks at in the last final response. -/
structure Response where
  statusCode : Int
  contacts : List Contact
  loopHop : Nat := 0
deriving DecidableEq

/-- The child that is made for a contact. -/
def contactTransaction (contact : Contact) : Tree :=
  .node { requestUri := contact.uri, qvalue := contact.qvalue, expires := contact.expires } []

/-- The list of children after `linkChild`. -/
def linkChild (children : List Tree) (newChild : Tree) : List Tree :=
  insertBelow (fun c => c.label.qvalue) newChild children

/-- The loop of `recurseChildren` that makes the children. -/
def pursueContacts (calls : Nat) : (children : List Tree) → List Contact → Option (List Tree)
  | children, [] => some children
  | children, contact :: rest =>
    (isUriRecursedChildren contact.uri children calls).bind fun isRecursed =>
      if isRecursed then pursueContacts calls children rest
      else
        pursueContacts calls (linkChild children (contactTransaction contact)) rest

/-- `recurseChildren` makes children for the contacts. -/
def isRedirected (isForkingEnabled : Bool) (this : Tree) (response : Response) : Bool :=
  isForkingEnabled && decide (300 ≤ response.statusCode) && decide (response.statusCode < 400) &&
    this.children.isEmpty && response.loopHop == 0

/-- A redirection that is followed: the URI of the request, those of the contacts and those of the
new transactions. -/
structure Redirection where
  requestUri : Text
  contacts : List Text
  created : List Text
deriving DecidableEq

/-- What happens to a tree: a member calls `recurseChildren`, or anything else. -/
inductive Event where
  | recurseChildren (member : List Nat) (isForkingEnabled : Bool) (response : Response)
  | other (change : Tree → Tree)

def run (calls : Nat) : Tree → List Event → Option (List Redirection)
  | _, [] => some []
  | r, .other change :: events => run calls (change r) events
  | r, .recurseChildren member isForkingEnabled response :: events =>
    match r.get? member with
    | none => run calls r events
    | some this =>
      if isRedirected isForkingEnabled this response then
        (pursueContacts calls this.children response.contacts).bind fun children =>
          (run calls (r.alter id (fun _ => .node this.label children) member) events).map
            (List.cons ⟨this.label.requestUri, response.contacts.map Contact.uri,
              children.map fun c => c.label.requestUri⟩)
      else run calls r events

/-- No URI gets two transactions, and none that of the request that is redirected. -/
def PursuesOnce (log : List Redirection) : Prop :=
  (log.flatMap Redirection.created).Nodup ∧ ∀ d ∈ log, d.requestUri ∉ d.created

/-- No URI is named by two contacts, and none is that of the request that is redirected. -/
def NamesOnce (log : List Redirection) : Prop :=
  (log.flatMap Redirection.contacts).Nodup ∧ ∀ d ∈ log, d.requestUri ∉ d.contacts

theorem pursueContacts_eq (calls : Nat) (contacts : List Contact)
    (hnew : ∀ c ∈ children, c.label.isStarted = false) :
    pursueContacts (calls + 1) children contacts =
      some ((contacts.map contactTransaction).foldl linkChild children) := by
  induction contacts generalizing children with
  | nil => rfl
  | cons contact contacts ih =>
    have hnone : children.find? (fun c => c.label.isStarted) = none := by
      refine find?_eq_none.mpr fun c hc => ?_
      rw [hnew c hc]
      exact Bool.false_ne_true
    have hnew' : ∀ c ∈ linkChild children (contactTransaction contact),
        c.label.isStarted = false := by
      intro c hc
      rcases mem_insertBelow.mp hc with rfl | hc
      · rfl
      · exact hnew c hc
    rw [pursueContacts, isUriRecursedChildren_of_find?_eq_none hnone, Option.bind_some]
    exact ih hnew'

theorem foldl_linkChild_perm (new children : List Tree) :
    (new.foldl linkChild children).Perm (new ++ children) := by
  induction new generalizing children with
  | nil => exact .refl children
  | cons c new ih =>
    refine (ih (linkChild children c)).trans ?_
    exact (insertBelow_perm.append_left new).trans perm_middle

/-- Over a whole run every contact gets one child, no more. -/
theorem run_spec (r : Tree) (events : List Event) :
    ∃ log, (∀ calls, run (calls + 1) r events = some log) ∧
      ∀ d ∈ log, d.created.Perm d.contacts := by
  induction events generalizing r with
  | nil => exact ⟨[], fun _ => rfl, fun d hd => absurd hd not_mem_nil⟩
  | cons event events ih =>
    cases event with
    | other change => exact ih (change r)
    | recurseChildren member isForkingEnabled response =>
      cases hthis : r.get? member with
      | none =>
        obtain ⟨log, hlog, hperm⟩ := ih r
        exact ⟨log, fun calls => by rw [run, hthis]; exact hlog calls, hperm⟩
      | some this =>
        cases hredirected : isRedirected isForkingEnabled this response with
        | false =>
          obtain ⟨log, hlog, hperm⟩ := ih r
          refine ⟨log, fun calls => ?_, hperm⟩
          simp only [run, hthis, hredirected]
          exact hlog calls
        | true =>
          have hempty : this.children = [] := by
            simp only [isRedirected, Bool.and_eq_true, List.isEmpty_iff] at hredirected
            exact hredirected.1.2
          let created := (response.contacts.map contactTransaction).foldl linkChild []
          obtain ⟨log, hlog, hperm⟩ :=
            ih (r.alter id (fun _ => .node this.label created) member)
          refine ⟨⟨this.label.requestUri, response.contacts.map Contact.uri,
            created.map fun c => c.label.requestUri⟩ :: log, fun calls => ?_, ?_⟩
          · have hcreated := @pursueContacts_eq [] calls response.contacts
              fun c hc => absurd hc not_mem_nil
            simp only [run, hthis, hredirected, if_true, hempty, hcreated, Option.bind_some]
            rw [hlog calls]
            rfl
          · rw [forall_mem_cons]
            refine ⟨?_, hperm⟩
            have hlinked := (foldl_linkChild_perm (response.contacts.map contactTransaction) []).map
              fun c => c.label.requestUri
            rw [append_nil, map_map] at hlinked
            exact hlinked

/-- The search finds what it is for exactly if the first started child decides, and each
contact of a redirection gets a transaction of its own, whatever URI it names. -/
theorem pursuesOnce_iff (r : Tree) (member : List Nat) (uri : Text) (events : List Event) :
    (FindsStarted r member uri ↔ FirstStartedDecides r member uri) ∧
    ∃ log, (∀ calls, run (calls + 1) r events = some log) ∧
      (PursuesOnce log ↔ NamesOnce log) := by
  refine ⟨findsStarted_iff r member uri, ?_⟩
  obtain ⟨log, hlog, hperm⟩ := run_spec r events
  refine ⟨log, hlog, and_congr ?_ ?_⟩
  · exact (Perm.flatMap_left log hperm).nodup_iff
  · exact forall₂_congr fun d hd => (hperm d hd).mem_iff.not

/-- The search of a second branch does not end behind a first one, and two contacts with
one URI get two transactions. -/
theorem not_pursuesOnce_twoContacts :
    let a := text "sip:a@example.com"
    let b := text "sip:b@example.com"
    let r : Tree := .node ⟨a, .proceeding, 1, -1⟩
      [.node ⟨a, .calling, 1, -1⟩ [], .node ⟨b, .calling, 1, -1⟩ []]
    (∀ calls, isUriRecursed calls r b = none) ∧ ¬FindsStarted r [] b ∧
      ∃ log, run 1 (.node ⟨a, .complete, 1, -1⟩ [])
          [.recurseChildren [] true ⟨302, [⟨b, 1, -1⟩, ⟨b, 1, -1⟩], 0⟩] = some log ∧
        ¬PursuesOnce log := by
  intro a b r
  have hfirst : r.children.find? (fun c => c.label.isStarted) =
      some (.node ⟨a, .calling, 1, -1⟩ []) := rfl
  have hne : a ≠ b := by decide
  have hend (calls : Nat) : isUriRecursed calls r b = none :=
    isUriRecursedChildren_eq_none hfirst hne calls
  refine ⟨hend, ?_, ⟨_, rfl, fun h => absurd h.1 ?_⟩⟩
  · rintro ⟨this, calls, found, hthis, hfound, -⟩
    obtain rfl := Option.some.inj hthis
    exact Option.some_ne_none found (hfound.symm.trans (hend calls))
  · decide

end UriRecursed

end SipXRouter
