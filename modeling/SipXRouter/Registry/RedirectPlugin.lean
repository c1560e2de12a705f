import SipXRouter.Net.HttpMessage

/-!
# One pass over the redirectors

`SipRedirectServer::processRedirect` asks the redirectors in turn.  Each of them
may change the contact list, ask for suspension, keep private storage or fail.  A
redirector that has changed the list with success raises the authority level that
later redirectors need to be asked; the others may only look on.

## Design notes

What a redirector does may depend on anything, so it is an input here: a function
of the arguments that the loop hands to it.  It changes the contact list through
the operations of `ContactList` only.  The loop keeps a record of its calls, which
the source does not have; nothing in the loop reads it.
-/

namespace SipXRouter

open List

variable {i n : Nat} {p : Pass} {request : Request}

namespace SipRedirectServer

/-! ## Contact lists -/

/-- The contacts found so far, and whether they were changed. -/
structure ContactList where
  contacts : List Text := []
  wasModified : Bool := false
  diversionHeader : Text := []
deriving DecidableEq

/-- The operations on a contact list that change it. -/
inductive ContactOp where
  | add (contact : Text)
  | set (index : Nat) (contact : Text)
  | remove (index : Nat)
  | removeAll
  | touch
  | setDiversionHeader (diversion : Text)
deriving DecidableEq

namespace ContactList

/-- One operation.  An index behind the end changes nothing. -/
def apply (l : ContactList) : ContactOp → ContactList
  | .add contact => { l with contacts := l.contacts ++ [contact], wasModified := true }
  | .set index contact =>
    if index < l.contacts.length then
      { l with contacts := l.contacts.set index contact, wasModified := true }
    else l
  | .remove index =>
    if index < l.contacts.length then
      { l with contacts := l.contacts.eraseIdx index, wasModified := true }
    else l
  | .removeAll => { l with contacts := [], wasModified := true }
  | .touch => { l with wasModified := true }
  | .setDiversionHeader diversion => { l with diversionHeader := diversion }

def resetWasModifiedFlag (l : ContactList) : ContactList := { l with wasModified := false }

def applyAll (l : ContactList) (ops : List ContactOp) : ContactList := ops.foldl apply l

end ContactList

/-! ## Redirectors -/

/-- `LookUpStatus`; `invalid` stands for every value that is none of the enumerators. -/
inductive LookUpStatus where
  | error
  | searchPending
  | success
  | invalid
deriving DecidableEq

/-- The status line of an `ErrorDescriptor`.  `setStatusLineData` refuses codes outside
this range. -/
structure ErrorDescriptor where
  statusCode : Int := 403
  reasonPhrase : Text := text "Forbidden"
  isError : 400 ≤ statusCode ∧ statusCode < 700 := by decide
deriving DecidableEq

/-- What a call of `lookUp` leaves behind. -/
structure LookUpResult where
  status : LookUpStatus
  ops : List ContactOp := []
  privateStorage : Option Nat := none
  errorDescriptor : ErrorDescriptor := {}
deriving DecidableEq

/-- What a redirector does in the handling of one message.  A look-up that throws
delivers nothing. -/
structure Plugin where
  lookUp : ContactList → (privateStorage : Option Nat) → ErrorDescriptor → Option LookUpResult
  observeThrows : ContactList → Bool
  cancelThrows : Bool

/-- What the server knows of a redirector. -/
structure RedirectorDescriptor where
  isActive : Bool
  authorityLevel : Int
deriving DecidableEq

/-! ## Suspension -/

/-- `struct redirector`. -/
structure RedirectorSlot where
  suspended : Bool := false
  needsCancel : Bool := false
  privateStorage : Option Nat := none
deriving DecidableEq

/-- A request, with a number of its own. -/
structure Request where
  number : Nat
  message : HttpMessage
deriving DecidableEq

/-- A request that is suspended, with a slot for each redirector. -/
structure RedirectSuspend where
  request : Request
  suspendCount : Int
  redirectors : List RedirectorSlot
deriving DecidableEq

namespace RedirectSuspend

/-- The constructor, with the copy of the message. -/
def new (redirectorCount : Nat) (request : Request) : RedirectSuspend where
  request
  suspendCount := 0
  redirectors := replicate redirectorCount {}

def slot (o : RedirectSuspend) (i : Nat) : RedirectorSlot := o.redirectors[i]?.getD {}

def updateSlot (o : RedirectSuspend) (i : Nat) (f : RedirectorSlot → RedirectorSlot) :
    RedirectSuspend :=
  { o with redirectors := o.redirectors.set i (f (o.slot i)) }

/-- Store the private storage pointer. -/
def setPrivateStorage (o : RedirectSuspend) (i : Nat) (storage : Option Nat) :
    RedirectSuspend :=
  o.updateSlot i fun slot => { slot with privateStorage := storage }

/-- Mark that a redirector has requested suspension. -/
def markSuspended (o : RedirectSuspend) (i : Nat) : RedirectSuspend :=
  { o.updateSlot i fun slot => { slot with suspended := true, needsCancel := true } with
    suspendCount := o.suspendCount + 1 }

/-- Mark that a redirector no longer wants suspension. -/
def markResumed (o : RedirectSuspend) (i : Nat) : RedirectSuspend :=
  { o.updateSlot i fun slot => { slot with suspended := false } with
    suspendCount := o.suspendCount - 1 }

end RedirectSuspend

/-! ## The loop -/

/-- `LOWEST_AUTHORITY_LEVEL`. -/
def lowestAuthorityLevel : Int := 0

/-- How a redirector was called. -/
inductive CallKind where
  | lookUp (status : LookUpStatus) (ops : List ContactOp) (modified : Bool)
  | lookUpThrew
  | observe
deriving DecidableEq

/-- A call of a redirector, with the authority level of the contact list before and
after it. -/
structure Call where
  authorityLevel : Int
  kind : CallKind
  before : Int
  after : Int
deriving DecidableEq

/-- The variables of `processRedirect` that the loop changes.  `created` tells that
the suspend object is made in this pass. -/
structure Pass where
  contactList : ContactList := {}
  contactListAuthorityLevel : Int := lowestAuthorityLevel
  suspendObject : Option RedirectSuspend := none
  created : Bool := false
  willSuspend : Bool := false
  willError : Bool := false
  errorDescriptor : ErrorDescriptor := {}
  threw : Bool := false
  calls : List Call := []
deriving DecidableEq

/-- The suspend object after a look-up: it is made if it is needed, and takes the
private storage. -/
def suspendAfter (redirectorCount : Nat) (request : Request) (i : Nat) (r : LookUpResult)
    (suspendObject : Option RedirectSuspend) : Option RedirectSuspend :=
  match suspendObject with
  | some o => some (o.setPrivateStorage i r.privateStorage)
  | none =>
    if r.status = .searchPending ∨ r.privateStorage.isSome then
      some ((RedirectSuspend.new redirectorCount request).setPrivateStorage i r.privateStorage)
    else none

/-- The redirector is given `lookUp`. -/
def doLookUp (redirectorCount : Nat) (request : Request) (i : Nat) (level : Int)
    (plugin : Plugin) (p : Pass) : Pass :=
  let before := p.contactListAuthorityLevel
  let contactList := p.contactList.resetWasModifiedFlag
  let storage := p.suspendObject.bind fun o => (o.slot i).privateStorage
  match plugin.lookUp contactList storage p.errorDescriptor with
  | none => { p with threw := true, calls := p.calls ++ [⟨level, .lookUpThrew, before, before⟩] }
  | some r =>
    let contactList := contactList.applyAll r.ops
    let suspendObject := suspendAfter redirectorCount request i r p.suspendObject
    let after :=
      if r.status = .success ∧ contactList.wasModified = true then level else before
    { p with
      contactList
      contactListAuthorityLevel := after
      suspendObject :=
        if r.status = .searchPending then suspendObject.map (·.markSuspended i)
        else suspendObject
      created := p.created || (p.suspendObject.isNone && suspendObject.isSome)
      willSuspend := p.willSuspend || r.status == .searchPending
      willError := p.willError || r.status == .error
      errorDescriptor := r.errorDescriptor
      calls := p.calls ++
        [⟨level, .lookUp r.status r.ops contactList.wasModified, before, after⟩] }

/-- The redirector is only allowed to observe. -/
def doObserve (level : Int) (plugin : Plugin) (p : Pass) : Pass :=
  { p with
    threw := plugin.observeThrows p.contactList
    calls := p.calls ++
      [⟨level, .observe, p.contactListAuthorityLevel, p.contactListAuthorityLevel⟩] }

/-- One round of the loop. -/
def callRedirector (redirectorCount : Nat) (request : Request) (i : Nat)
    (descriptor : RedirectorDescriptor) (plugin : Plugin) (p : Pass) : Pass :=
  if descriptor.isActive then
    if p.contactListAuthorityLevel ≤ descriptor.authorityLevel then
      doLookUp redirectorCount request i descriptor.authorityLevel plugin p
    else doObserve descriptor.authorityLevel plugin p
  else p

/-- The loop over the redirectors.  An error ends it, and so does an exception. -/
def runRedirectors (redirectorCount : Nat) (request : Request) :
    (i : Nat) → List (RedirectorDescriptor × Plugin) → Pass → Pass
  | _, [], p => p
  | i, (descriptor, plugin) :: rest, p =>
    if p.willError || p.threw then p
    else
      runRedirectors redirectorCount request (i + 1) rest
        (callRedirector redirectorCount request i descriptor plugin p)

/-! ## Authority -/

/-- The operation sets the flag of the contact list wherever it has an effect. -/
def ContactOp.modifies : ContactOp → Bool
  | .setDiversionHeader _ => false
  | _ => true

theorem ContactList.exists_modifies {ops : List ContactOp} {l : ContactList}
    (h : (l.resetWasModifiedFlag.applyAll ops).wasModified = true) :
    ∃ op ∈ ops, op.modifies = true := by
  have hfold : ∀ (ops : List ContactOp) (l : ContactList), l.wasModified = false →
      (l.applyAll ops).wasModified = true → ∃ op ∈ ops, op.modifies = true := by
    intro ops
    induction ops with
    | nil => intro l hl h; rw [show l.applyAll [] = l from rfl, hl] at h; cases h
    | cons op ops ih =>
      intro l hl h
      by_cases hop : op.modifies = true
      · exact ⟨op, by simp, hop⟩
      · have hkeep : (l.apply op).wasModified = false := by
          cases op <;> simp_all [ContactOp.modifies, ContactList.apply]
        obtain ⟨op', hop', hmod⟩ := ih (l.apply op) hkeep h
        exact ⟨op', by simp [hop'], hmod⟩
  exact hfold ops _ rfl h

namespace Call

/-- The call succeeded and modified the contact list. -/
def isModification (c : Call) : Bool :=
  match c.kind with
  | .lookUp .success _ modified => modified
  | _ => false

end Call

/-- The authority level of the last redirector that modified the contact list with
success. -/
def lastModifierLevel (calls : List Call) : Option Int :=
  (calls.filter Call.isModification).getLast?.map Call.authorityLevel

/-- A call as it has to be made, behind the calls `earlier`. -/
structure WellCalled (earlier : List Call) (c : Call) : Prop where
  /-- The level in force is that of the last successful modification. -/
  before_eq : c.before = (lastModifierLevel earlier).getD lowestAuthorityLevel
  /-- A redirector without the authority for it is not asked. -/
  observes : ∀ level, lastModifierLevel earlier = some level → c.authorityLevel < level →
    c.kind = .observe
  rises : c.before ≤ c.after
  /-- A call that is no successful modification raises nothing. -/
  kept : c.isModification = false → c.after = c.before
  /-- What raises the level is an operation of the redirector itself, not a flag left
  behind by another one. -/
  own : c.after ≠ c.before →
    ∃ ops modified, c.kind = .lookUp .success ops modified ∧ ∃ op ∈ ops, op.modifies = true

/-- Every call of a record is made as it has to be. -/
def AllWellCalled (calls : List Call) : Prop :=
  ∀ earlier c later, calls = earlier ++ c :: later → WellCalled earlier c

theorem AllWellCalled.concat {calls : List Call} {c : Call} (h : AllWellCalled calls)
    (hc : WellCalled calls c) : AllWellCalled (calls ++ [c]) := by
  intro earlier d later heq
  rcases eq_nil_or_concat later with rfl | ⟨later, e, rfl⟩
  · obtain ⟨rfl, hd⟩ := append_inj' heq rfl
    obtain rfl : c = d := by simpa using hd
    exact hc
  · have hsplit : calls ++ [c] = (earlier ++ d :: later) ++ [e] := by simpa using heq
    obtain ⟨hcalls, -⟩ := append_inj' hsplit rfl
    exact h earlier d later hcalls

theorem lastModifierLevel_concat (calls : List Call) (c : Call) : lastModifierLevel (calls ++ [c]) =
    if c.isModification then some c.authorityLevel else lastModifierLevel calls := by
  unfold lastModifierLevel
  cases hc : c.isModification <;> simp [hc]

/-- What holds of a pass at every point of the loop. -/
structure Authorized (p : Pass) : Prop where
  wellCalled : AllWellCalled p.calls
  level_eq : p.contactListAuthorityLevel =
    (lastModifierLevel p.calls).getD lowestAuthorityLevel
  increasing : (p.calls.map Call.before ++ [p.contactListAuthorityLevel]).Pairwise (· ≤ ·)

/-- One call of a redirector keeps the levels in order. -/
theorem Authorized.call {p' : Pass} {c : Call} (hp : Authorized p)
    (hcalls : p'.calls = p.calls ++ [c]) (hbefore : c.before = p.contactListAuthorityLevel)
    (hafter : c.after = p'.contactListAuthorityLevel)
    (hlevel : c.after = if c.isModification then c.authorityLevel else c.before)
    (hasked : c.kind = .observe ∨ c.before ≤ c.authorityLevel) (hown : c.isModification = true →
      ∃ ops modified, c.kind = .lookUp .success ops modified ∧ ∃ op ∈ ops, op.modifies = true) :
    Authorized p' := by
  have hle : c.before ≤ c.after := by
    rw [hlevel]
    split
    next hmod =>
      rcases hasked with hobserve | hasked
      · simp [Call.isModification, hobserve] at hmod
      · exact hasked
    next => exact le_refl _
  have hwell : WellCalled p.calls c := by
    refine ⟨hbefore.trans hp.level_eq, ?_, hle, ?_, ?_⟩
    · intro level hlast hlt
      have hbefore' := hbefore.trans hp.level_eq
      rw [hlast, Option.getD_some] at hbefore'
      rcases hasked with hobserve | hasked
      · exact hobserve
      · omega
    · intro hmod
      simpa [hmod] using hlevel
    · intro hne
      cases hmod : c.isModification with
      | true => exact hown hmod
      | false => simp [hmod, hlevel] at hne
  refine ⟨?_, ?_, ?_⟩
  · rw [hcalls]
    exact hp.wellCalled.concat hwell
  · rw [hcalls, lastModifierLevel_concat, ← hafter, hlevel]
    split
    · rfl
    · exact hbefore.trans hp.level_eq
  · rw [hcalls, map_append, ← hafter]
    have hinc := hp.increasing
    rw [← hbefore] at hinc
    rw [map_singleton, pairwise_append]
    refine ⟨hinc, pairwise_singleton _ _, ?_⟩
    intro a ha b hb
    obtain rfl := mem_singleton.mp hb
    rcases mem_append.mp ha with ha | ha
    · exact le_trans ((pairwise_append.mp hinc).2.2 a ha _ (by simp)) hle
    · obtain rfl := mem_singleton.mp ha
      exact hle

theorem authorized_doLookUp {level : Int} {plugin : Plugin} (hp : Authorized p)
    (hlevel : p.contactListAuthorityLevel ≤ level) :
    Authorized (doLookUp n request i level plugin p) := by
  unfold doLookUp
  simp only
  split
  · exact hp.call rfl rfl rfl rfl (Or.inr hlevel) (by simp [Call.isModification])
  next r hr =>
    refine hp.call rfl rfl rfl ?_ (Or.inr hlevel) ?_
    · by_cases hmod :
          (p.contactList.resetWasModifiedFlag.applyAll r.ops).wasModified = true <;>
        cases r.status <;> simp [Call.isModification, hmod]
    · intro hmod
      simp only [Call.isModification] at hmod
      split at hmod
      next ops modified heq =>
        obtain ⟨hstatus, rfl, rfl⟩ := by simpa using heq
        exact ⟨_, _, by rw [hstatus], ContactList.exists_modifies hmod⟩
      next => cases hmod

theorem authorized_callRedirector
    {descriptor : RedirectorDescriptor} {plugin : Plugin} (hp : Authorized p) :
    Authorized (callRedirector n request i descriptor plugin p) := by
  unfold callRedirector
  split
  · split
    next hlevel => exact authorized_doLookUp hp hlevel
    next =>
      exact hp.call rfl rfl rfl rfl (Or.inl rfl) (by simp [Call.isModification])
  · exact hp

theorem authorized_runRedirectors {redirectors : List (RedirectorDescriptor × Plugin)}
    (hp : Authorized p) : Authorized (runRedirectors n request i redirectors p) := by
  induction redirectors generalizing i p with
  | nil => exact hp
  | cons redirector rest ih =>
    unfold runRedirectors
    split
    · exact hp
    · exact ih (authorized_callRedirector hp)

/-- In every pass a redirector below the level of the last successful modification
only observes, the level never falls, and only a success that itself modifies the
contact list raises it. -/
theorem authority_of_pass (n : Nat) (request : Request)
    (redirectors : List (RedirectorDescriptor × Plugin))
    (suspendObject : Option RedirectSuspend) :
    Authorized (runRedirectors n request 0 redirectors { suspendObject }) := by
  apply authorized_runRedirectors
  refine ⟨?_, rfl, pairwise_singleton _ _⟩
  intro earlier c later heq
  simp at heq

end SipRedirectServer

end SipXRouter
