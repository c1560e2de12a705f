import SipXRouter.Run
import SipXRouter.Registry.RedirectPlugin

/-!
# The redirect server

`SipRedirectServer::handleMessage` takes one message after another: a request to be
redirected, a CANCEL, or the notice that a redirector can go on with a request that
it has suspended.  A request that is suspended has an entry in the suspend list,
under its sequence number, until it is answered.

## Design notes

All messages are numbered in the order of their arrival, so that a response can be
put down to its request.  An exception ends `processRedirect` at the place where it
is thrown; what was done before it stays done.
-/

namespace SipXRouter

open List

variable {i seqNo : Nat} {p : Pass} {request : Request} {start : Option RedirectSuspend}

namespace SipRedirectServer

/-- A final response to the message with a number. -/
structure Sent where
  number : Nat
  statusCode : Int
  contacts : List Text := []
  diversionHeader : Text := []
deriving DecidableEq

/-- The server with the requests that are suspended and what it has sent. -/
structure Server where
  nextSeqNo : Nat := 0
  suspendList : List (Nat × RedirectSuspend) := []
  sent : List Sent := []
  /-- ACKs sent on, each with its contact. -/
  forwarded : List (Nat × Text) := []
  /-- The messages that have come in. -/
  messages : List HttpMessage := []
deriving DecidableEq

/-- `RequestSeqNo` is an `unsigned int`. -/
def seqNoModulus : Nat := 2 ^ 32

def hasMethod (m : HttpMessage) (method : String) : Bool :=
  caseEq (m.getFirstHeaderLinePart 0) (text method)

namespace Server

def send (s : Server) (m : Sent) : Server := { s with sent := s.sent ++ [m] }

/-- `mSuspendList.findValue`. -/
def find (s : Server) (seqNo : Nat) : Option RedirectSuspend :=
  (s.suspendList.find? (·.1 == seqNo)).map Prod.snd

/-- Change the suspend object of a sequence number. -/
def update (s : Server) (seqNo : Nat) (o : RedirectSuspend) : Server :=
  { s with
    suspendList := s.suspendList.map fun entry => if entry.1 = seqNo then (entry.1, o) else entry }

def destroy (s : Server) (seqNo : Nat) : Server :=
  { s with suspendList := s.suspendList.filter (·.1 != seqNo) }

/-- `mSuspendList.insertKeyAndValue`, which refuses a key that is there. -/
def insert (s : Server) (seqNo : Nat) (o : RedirectSuspend) : Server :=
  if seqNo ∈ s.suspendList.map Prod.fst then s
  else { s with suspendList := s.suspendList ++ [(seqNo, o)] }

end Server

section Handling

variable (redirectors : List RedirectorDescriptor)
variable (isInviteFor : HttpMessage → HttpMessage → Bool)

/-- Does a redirector throw when `cancelRedirect` calls the ones that need it? -/
def cancelThrows (plugins : Nat → Plugin) (o : RedirectSuspend) : Bool :=
  redirectors.zipIdx.any fun d =>
    d.1.isActive && (o.slot d.2).needsCancel && (plugins d.2).cancelThrows

/-- `cancelRedirect`, and whether it throws. -/
def cancelRedirect (plugins : Nat → Plugin) (s : Server) (seqNo : Nat) (o : RedirectSuspend) :
    Server × Bool :=
  if cancelThrows redirectors plugins o then (s, true) else (s.destroy seqNo, false)

/-- The loop of `processRedirect` for a request. -/
def pass (plugins : Nat → Plugin) (request : Request) (suspendObject : Option RedirectSuspend) :
    Pass :=
  runRedirectors redirectors.length request 0
    (redirectors.zipIdx.map fun d => (d.1, plugins d.2)) { suspendObject }

/-- What the loop has done to the suspend list. -/
def commit (s : Server) (seqNo : Nat) (p : Pass) : Server :=
  match p.suspendObject with
  | none => s
  | some o =>
    if p.created then
      { s.insert seqNo o with
        nextSeqNo := if seqNo = s.nextSeqNo then (seqNo + 1) % seqNoModulus else s.nextSeqNo }
    else s.update seqNo o

/-- The response of a pass that is finished. -/
def responseOf (request : Request) (p : Pass) : Sent :=
  if p.willError then { number := request.number, statusCode := p.errorDescriptor.statusCode }
  else if p.contactList.contacts = [] then { number := request.number, statusCode := 404 }
  else
    { number := request.number, statusCode := 302, contacts := p.contactList.contacts
      diversionHeader := p.contactList.diversionHeader }

/-- The redirectors have done all they can: an ACK is sent on if there is exactly one
contact, any other request is answered. -/
def answer (s : Server) (request : Request) (p : Pass) : Server :=
  if hasMethod request.message "ACK" then
    match p.willError, p.contactList.contacts with
    | false, [contact] => { s with forwarded := s.forwarded ++ [(request.number, contact)] }
    | _, _ => s
  else s.send (responseOf request p)

/-- `processRedirect`, and whether it throws. -/
def processRedirect (plugins : Nat → Plugin) (s : Server) (request : Request) (seqNo : Nat)
    (suspendObject : Option RedirectSuspend) : Server × Bool :=
  let p := pass redirectors plugins request suspendObject
  let s := commit s seqNo p
  if p.threw then (s, true)
  else if p.willError || !p.willSuspend then
    let s := answer s request p
    match p.suspendObject with
    | none => (s, false)
    | some o => cancelRedirect redirectors plugins s seqNo o
  else (s, false)

/-- The loop over the suspend list that a CANCEL starts. -/
def cancelLoop (plugins : Nat → Plugin) (cancel : HttpMessage) :
    List (Nat × RedirectSuspend) → Server → Server × Bool
  | [], s => (s, false)
  | (seqNo, o) :: rest, s =>
    if isInviteFor o.request.message cancel then
      let s := s.send { number := o.request.number, statusCode := 487 }
      match cancelRedirect redirectors plugins s seqNo o with
      | (s, true) => (s, true)
      | (s, false) => cancelLoop plugins cancel rest s
    else cancelLoop plugins cancel rest s

/-- A message for the server, with what the redirectors do while it is handled. -/
inductive Event where
  | phoneApp (message : HttpMessage) (plugins : Nat → Plugin)
  | redirectRestart (seqNo : Nat) (redirectorNo : Int) (plugins : Nat → Plugin)

/-- A message of type `PHONE_APP`: when an exception is caught, a 503 goes out. -/
def handlePhoneApp (s : Server) (message : HttpMessage) (plugins : Nat → Plugin) : Server :=
  let request : Request := ⟨s.messages.length, message⟩
  let s := { s with messages := s.messages ++ [message] }
  let handled :=
    if hasMethod message "CANCEL" then
      cancelLoop redirectors isInviteFor plugins message s.suspendList s
    else processRedirect redirectors plugins s request s.nextSeqNo none
  if handled.2 then handled.1.send { number := request.number, statusCode := 503 }
  else handled.1

/-- A message of type `REDIRECT_RESTART`.  When an exception is caught, nothing more
is done. -/
def handleRestart (s : Server) (seqNo : Nat) (redirectorNo : Int) (plugins : Nat → Plugin) :
    Server :=
  match s.find seqNo with
  | none => s
  | some o =>
    if redirectorNo < 0 ∨ (redirectors.length : Int) ≤ redirectorNo then s
    else if (o.slot redirectorNo.toNat).suspended = false then s
    else
      let o := o.markResumed redirectorNo.toNat
      let s := s.update seqNo o
      if o.suspendCount = 0 then (processRedirect redirectors plugins s o.request seqNo (some o)).1
      else s

/-- One message handled. -/
def handleMessage (s : Server) : Event → Server
  | .phoneApp message plugins => handlePhoneApp redirectors isInviteFor s message plugins
  | .redirectRestart seqNo redirectorNo plugins =>
    handleRestart redirectors s seqNo redirectorNo plugins

end Handling

/-! ## Soundness -/

/-- The number of redirectors that are suspended for a request. -/
def RedirectSuspend.numSuspended (o : RedirectSuspend) : Nat :=
  o.redirectors.countP (·.suspended)

/-- A suspend object with a slot for every redirector and the right count. -/
structure RedirectSuspend.Counted (n : Nat) (o : RedirectSuspend) : Prop where
  length_eq : o.redirectors.length = n
  count_eq : o.suspendCount = o.numSuspended

namespace Server

/-- How many final responses went out to a message. -/
def finals (s : Server) (number : Nat) : Nat := s.sent.countP (·.number == number)

/-- How many suspend objects there are for a message. -/
def suspends (s : Server) (number : Nat) : Nat :=
  s.suspendList.countP (·.2.request.number == number)

end Server

/-- A request that has to be answered. -/
def isAnswered (m : HttpMessage) : Bool := !hasMethod m "ACK" && !hasMethod m "CANCEL"

/-- Every request that has to be answered has either one final response or one suspend
object, and the suspend counts are right. -/
structure Sound (n : Nat) (s : Server) : Prop where
  keys : (s.suspendList.map Prod.fst).Nodup
  arrived : ∀ entry ∈ s.suspendList,
    s.messages[entry.2.request.number]? = some entry.2.request.message
  sent_lt : ∀ m ∈ s.sent, m.number < s.messages.length
  answered : ∀ number message, s.messages[number]? = some message → isAnswered message = true →
    s.finals number + s.suspends number = 1
  counted : ∀ entry ∈ s.suspendList, entry.2.Counted n
  /-- Some redirector has yet to resume. -/
  waiting : ∀ entry ∈ s.suspendList, 0 < entry.2.suspendCount

/-- The handling of a request meets no exception once there is a suspend object for
it, and the sequence number of a new suspend object is free. -/
structure CalmPass (redirectors : List RedirectorDescriptor) (plugins : Nat → Plugin)
    (s : Server) (p : Pass) : Prop where
  threw : p.threw = true → p.suspendObject = none
  free : p.created = true → s.nextSeqNo ∉ s.suspendList.map Prod.fst
  cancel : (p.willError || !p.willSuspend) = true → ∀ o, p.suspendObject = some o →
    cancelThrows redirectors plugins o = false

/-- The handling of a message meets no exception that it cannot deal with. -/
def Calm (redirectors : List RedirectorDescriptor)
    (isInviteFor : HttpMessage → HttpMessage → Bool) (s : Server) : Event → Prop
  | .phoneApp message plugins =>
    if hasMethod message "CANCEL" then
      ∀ entry ∈ s.suspendList, isInviteFor entry.2.request.message message = true →
        cancelThrows redirectors plugins entry.2 = false
    else
      CalmPass redirectors plugins s
        (pass redirectors plugins ⟨s.messages.length, message⟩ none)
  | .redirectRestart seqNo redirectorNo plugins =>
    ∀ o, s.find seqNo = some o → 0 ≤ redirectorNo → redirectorNo < redirectors.length →
      (o.slot redirectorNo.toNat).suspended = true → o.suspendCount = 1 →
      CalmPass redirectors plugins s
        (pass redirectors plugins o.request (some (o.markResumed redirectorNo.toNat)))

/-! ## Suspend objects -/

namespace RedirectSuspend

theorem slot_eq {o : RedirectSuspend} (hi : i < o.redirectors.length) :
    o.slot i = o.redirectors[i] := by
  simp [slot, hi]

theorem slot_updateSlot_of_ne {o : RedirectSuspend} {j : Nat}
    {f : RedirectorSlot → RedirectorSlot} (h : i ≠ j) : (o.updateSlot i f).slot j = o.slot j := by
  simp [slot, updateSlot, getElem?_set_ne h]

theorem slot_markSuspended_of_ne {o : RedirectSuspend} {j : Nat} (h : i ≠ j) :
    (o.markSuspended i).slot j = o.slot j := by
  simp [slot, markSuspended, updateSlot, getElem?_set_ne h]

theorem numSuspended_updateSlot {o : RedirectSuspend}
    {f : RedirectorSlot → RedirectorSlot} (hi : i < o.redirectors.length) :
    (o.updateSlot i f).numSuspended =
      o.numSuspended - (o.slot i).suspended.toNat + (f (o.slot i)).suspended.toNat := by
  unfold numSuspended
  rw [updateSlot, countP_set hi, slot_eq hi]
  cases o.redirectors[i].suspended <;> cases (f o.redirectors[i]).suspended <;> simp

theorem numSuspended_pos {o : RedirectSuspend} (hi : i < o.redirectors.length)
    (h : (o.slot i).suspended = true) : 0 < o.numSuspended := by
  rw [slot_eq hi] at h
  exact countP_pos_iff.mpr ⟨_, getElem_mem hi, h⟩

theorem counted_new (n : Nat) (request : Request) : (new n request).Counted n :=
  ⟨length_replicate, by simp [new, numSuspended, countP_replicate]⟩

theorem slot_new (n : Nat) (request : Request) (i : Nat) : (new n request).slot i = {} := by
  simp only [slot, new, getElem?_replicate]
  split <;> rfl

theorem Counted.setPrivateStorage {n : Nat} {o : RedirectSuspend} (h : o.Counted n) (i : Nat)
    (storage : Option Nat) : (o.setPrivateStorage i storage).Counted n := by
  refine ⟨length_set.trans h.length_eq, ?_⟩
  rw [show (o.setPrivateStorage i storage).suspendCount = o.suspendCount from rfl, h.count_eq]
  by_cases hi : i < o.redirectors.length
  · have hpos := numSuspended_pos (o := o) hi
    rw [RedirectSuspend.setPrivateStorage, numSuspended_updateSlot hi]
    cases hs : (o.slot i).suspended with
    | false => simp
    | true =>
      have := hpos hs
      simp only [Bool.toNat_true]
      omega
  · rw [RedirectSuspend.setPrivateStorage, updateSlot,
      set_eq_of_length_le (Nat.not_lt.mp hi)]

theorem Counted.markSuspended {n : Nat} {o : RedirectSuspend} (h : o.Counted n)
    (hi : i < n) (hs : (o.slot i).suspended = false) : (o.markSuspended i).Counted n := by
  refine ⟨length_set.trans h.length_eq, ?_⟩
  have hcount : (o.markSuspended i).numSuspended = o.numSuspended + 1 := by
    have hupdate := numSuspended_updateSlot (o := o)
      (f := fun slot => { slot with suspended := true, needsCancel := true })
      (h.length_eq.symm ▸ hi)
    rw [hs] at hupdate
    exact hupdate
  rw [show (o.markSuspended i).suspendCount = o.suspendCount + 1 from rfl, hcount, h.count_eq]
  rfl

theorem Counted.markResumed {n : Nat} {o : RedirectSuspend} (h : o.Counted n)
    (hi : i < n) (hs : (o.slot i).suspended = true) : (o.markResumed i).Counted n := by
  refine ⟨length_set.trans h.length_eq, ?_⟩
  have hi' : i < o.redirectors.length := h.length_eq.symm ▸ hi
  have hpos := numSuspended_pos hi' hs
  have hcount : (o.markResumed i).numSuspended = o.numSuspended - 1 := by
    have hupdate := numSuspended_updateSlot (o := o)
      (f := fun slot => { slot with suspended := false }) hi'
    rw [hs] at hupdate
    exact hupdate
  rw [show (o.markResumed i).suspendCount = o.suspendCount - 1 from rfl, hcount, h.count_eq]
  omega

theorem Counted.slot_of_zero {n : Nat} {o : RedirectSuspend} (h : o.Counted n)
    (hzero : o.suspendCount = 0) (i : Nat) : (o.slot i).suspended = false := by
  by_cases hi : i < o.redirectors.length
  · rw [← Bool.not_eq_true]
    intro hs
    have hpos := numSuspended_pos hi hs
    have hcount := h.count_eq
    omega
  · simp [slot, hi]

end RedirectSuspend

/-! ## The loop over the redirectors -/

/-- What the loop makes of the suspend object, up to the redirector `i`. -/
structure PassSound (n : Nat) (request : Request) (start : Option RedirectSuspend) (i : Nat)
    (p : Pass) : Prop where
  created_eq : p.created = (start.isNone && p.suspendObject.isSome)
  of_none : p.suspendObject = none → start = none ∧ p.willSuspend = false
  request_eq : ∀ o, p.suspendObject = some o → o.request = request
  counted : ∀ o, p.suspendObject = some o → o.Counted n
  ahead : ∀ o, p.suspendObject = some o → ∀ j, i ≤ j → (o.slot j).suspended = false
  willSuspend_iff : ∀ o, p.suspendObject = some o →
    (p.willSuspend = true ↔ 0 < o.suspendCount)

theorem suspendAfter_eq_none {n : Nat} {r : LookUpResult}
    {o? : Option RedirectSuspend} (h : suspendAfter n request i r o? = none) :
    o? = none ∧ r.status ≠ .searchPending := by
  unfold suspendAfter at h
  split at h
  · cases h
  · split at h
    · cases h
    next hr => exact ⟨rfl, fun hpending => hr (Or.inl hpending)⟩

theorem suspendAfter_eq_some {n : Nat} {r : LookUpResult}
    {o? : Option RedirectSuspend} {o : RedirectSuspend}
    (h : suspendAfter n request i r o? = some o) :
    ∃ o₀, o = o₀.setPrivateStorage i r.privateStorage ∧
      (o? = some o₀ ∨ o? = none ∧ o₀ = .new n request) := by
  unfold suspendAfter at h
  split at h
  next o₀ =>
    cases h
    exact ⟨o₀, rfl, Or.inl rfl⟩
  next =>
    split at h
    · cases h
      exact ⟨_, rfl, Or.inr ⟨rfl, rfl⟩⟩
    · cases h

theorem slot_setPrivateStorage_suspended (o : RedirectSuspend) (i j : Nat) (storage : Option Nat) :
    ((o.setPrivateStorage i storage).slot j).suspended = (o.slot j).suspended := by
  by_cases hij : i = j
  · subst hij
    by_cases hi : i < o.redirectors.length
    · simp [RedirectSuspend.setPrivateStorage, RedirectSuspend.updateSlot, RedirectSuspend.slot, hi]
    · simp [RedirectSuspend.setPrivateStorage, RedirectSuspend.updateSlot, RedirectSuspend.slot, hi]
  · rw [RedirectSuspend.setPrivateStorage, RedirectSuspend.slot_updateSlot_of_ne hij]

theorem PassSound.mono {n : Nat} (h : PassSound n request start i p) :
    PassSound n request start (i + 1) p :=
  { h with ahead := fun o ho j hj => h.ahead o ho j (by omega) }

/-- One redirector asked keeps the pass sound. -/
theorem PassSound.doLookUp {n : Nat} {level : Int} {plugin : Plugin}
    (h : PassSound n request start i p)
    (hi : i < n) : PassSound n request start (i + 1) (doLookUp n request i level plugin p) := by
  unfold SipRedirectServer.doLookUp
  simp only
  split
  · exact { h.mono with }
  next r hr =>
    -- the suspend object before the redirector's own request for suspension is looked at
    have hbase : ∀ o, suspendAfter n request i r p.suspendObject = some o →
        o.request = request ∧ o.Counted n ∧ (∀ j, i ≤ j → (o.slot j).suspended = false) ∧
          (p.willSuspend = true ↔ 0 < o.suspendCount) := by
      intro o ho
      obtain ⟨o₀, rfl, hold | ⟨hnone, rfl⟩⟩ := suspendAfter_eq_some ho
      · refine ⟨h.request_eq o₀ hold, (h.counted o₀ hold).setPrivateStorage _ _, ?_,
          h.willSuspend_iff o₀ hold⟩
        intro j hj
        rw [slot_setPrivateStorage_suspended]
        exact h.ahead o₀ hold j hj
      · refine ⟨rfl, (RedirectSuspend.counted_new _ _).setPrivateStorage _ _, ?_, ?_⟩
        · intro j _
          rw [slot_setPrivateStorage_suspended, RedirectSuspend.slot_new]
        · simp [(h.of_none hnone).2, RedirectSuspend.setPrivateStorage,
            RedirectSuspend.updateSlot, RedirectSuspend.new]
    have hcreated : (p.created || (p.suspendObject.isNone &&
        (suspendAfter n request i r p.suspendObject).isSome)) =
          (start.isNone && (suspendAfter n request i r p.suspendObject).isSome) := by
      rw [h.created_eq]
      cases hp : p.suspendObject with
      | none => simp [(h.of_none hp).1]
      | some o => simp [suspendAfter]
    by_cases hpending : r.status = .searchPending
    · obtain ⟨o, ho⟩ : ∃ o, suspendAfter n request i r p.suspendObject = some o := by
        rw [← Option.ne_none_iff_exists']
        exact fun hnone => (suspendAfter_eq_none hnone).2 hpending
      obtain ⟨hrequest, hcounted, hahead, -⟩ := hbase o ho
      have hmarked := hcounted.markSuspended hi (hahead i (Nat.le_refl i))
      rw [ho] at hcreated
      simp only [hpending, ho, if_true, Option.map_some, beq_self_eq_true, Bool.or_true]
      refine ⟨hcreated, by simp, ?_, ?_, ?_, ?_⟩
      · rintro _ ⟨⟩
        exact hrequest
      · rintro _ ⟨⟩
        exact hmarked
      · rintro _ ⟨⟩ j hj
        have hne : i ≠ j := by omega
        rw [RedirectSuspend.slot_markSuspended_of_ne hne]
        exact hahead j (by omega)
      · rintro _ ⟨⟩
        have hcount := hcounted.count_eq
        have hsum : (o.markSuspended i).suspendCount = o.suspendCount + 1 := rfl
        simp only [true_iff]
        omega
    · simp only [hpending, if_false, beq_eq_false_iff_ne.mpr hpending, Bool.or_false]
      refine ⟨hcreated, ?_, ?_, ?_, ?_, ?_⟩
      · intro hnone
        exact h.of_none (suspendAfter_eq_none hnone).1
      · exact fun o ho => (hbase o ho).1
      · exact fun o ho => (hbase o ho).2.1
      · exact fun o ho j hj => (hbase o ho).2.2.1 j (by omega)
      · exact fun o ho => (hbase o ho).2.2.2

theorem PassSound.callRedirector {n : Nat} {descriptor : RedirectorDescriptor}
    {plugin : Plugin} (h : PassSound n request start i p) (hi : i < n) :
    PassSound n request start (i + 1) (callRedirector n request i descriptor plugin p) := by
  unfold SipRedirectServer.callRedirector
  split
  · split
    · exact h.doLookUp hi
    · exact { h.mono with }
  · exact h.mono

theorem PassSound.runRedirectors {n : Nat} {redirectors : List (RedirectorDescriptor × Plugin)}
    (h : PassSound n request start i p) (hi : i + redirectors.length = n) :
    PassSound n request start n (runRedirectors n request i redirectors p) := by
  induction redirectors generalizing i p with
  | nil =>
    obtain rfl : i = n := by simpa using hi
    exact h
  | cons redirector rest ih =>
    have hlength : i + 1 + rest.length = n := by
      rw [length_cons] at hi
      omega
    unfold SipRedirectServer.runRedirectors
    split
    · exact { h with ahead := fun o ho j hj => h.ahead o ho j (by omega) }
    · exact ih (h.callRedirector (by omega)) hlength

theorem passSound_pass (redirectors : List RedirectorDescriptor) (plugins : Nat → Plugin)
    (request : Request) (start : Option RedirectSuspend) (hstart : ∀ o, start = some o →
      o.request = request ∧ o.Counted redirectors.length ∧ o.suspendCount = 0) :
    PassSound redirectors.length request start redirectors.length
      (pass redirectors plugins request start) := by
  apply PassSound.runRedirectors
  · refine ⟨by cases start <;> rfl, fun hnone => ⟨hnone, rfl⟩, fun o ho => (hstart o ho).1,
      fun o ho => (hstart o ho).2.1, ?_, ?_⟩
    · intro o ho j _
      exact (hstart o ho).2.1.slot_of_zero (hstart o ho).2.2 j
    · intro o ho
      simp [(hstart o ho).2.2]
  · simp

/-! ## Changes of a sound server -/

section Entries

variable {l : List (Nat × RedirectSuspend)} {k : Nat} {o o' : RedirectSuspend}

/-- With distinct keys, an entry and the ones with another key make up the list. -/
theorem perm_cons_filter (hkeys : (l.map Prod.fst).Nodup) (hmem : (k, o) ∈ l) :
    l.Perm ((k, o) :: l.filter (·.1 != k)) := by
  have hperm := (filter_append_perm (fun e => e.1 == k) l).symm
  have hhead : l.filter (fun e => e.1 == k) = [(k, o)] := by
    induction l with
    | nil => simp at hmem
    | cons e l ih =>
      obtain ⟨hnot, hkeys⟩ := nodup_cons.mp hkeys
      rcases mem_cons.mp hmem with rfl | hmem
      · have hnone : l.filter (fun e => e.1 == k) = [] := by
          rw [filter_eq_nil_iff]
          intro e he hek
          exact hnot (mem_map.mpr ⟨e, he, by simpa using hek⟩)
        simp [hnone]
      · have hne : (e.1 == k) = false := by
          rw [beq_eq_false_iff_ne]
          rintro rfl
          exact hnot (mem_map.mpr ⟨_, hmem, rfl⟩)
        rw [filter_cons, hne]
        exact ih hkeys hmem (filter_append_perm _ _).symm
  rw [hhead] at hperm
  exact hperm

theorem filter_map_update : (l.map fun e => if e.1 = k then (e.1, o') else e).filter (·.1 != k) =
    l.filter (·.1 != k) := by
  induction l with
  | nil => rfl
  | cons e l ih =>
    by_cases he : e.1 = k
    · simp [he, ih]
    · simp [he, ih]

theorem perm_map_update (hkeys : (l.map Prod.fst).Nodup) (hmem : (k, o) ∈ l) :
    (l.map fun e => if e.1 = k then (e.1, o') else e).Perm ((k, o') :: l.filter (·.1 != k)) := by
  have hsame : (l.map fun e => if e.1 = k then (e.1, o') else e).map Prod.fst =
      l.map Prod.fst := by
    rw [map_map]
    apply map_congr_left
    intro e _
    simp only [Function.comp_apply]
    split <;> rfl
  have hnew : (k, o') ∈ l.map fun e => if e.1 = k then (e.1, o') else e :=
    mem_map.mpr ⟨(k, o), hmem, if_pos rfl⟩
  have hperm := perm_cons_filter (hsame ▸ hkeys) hnew
  rw [filter_map_update] at hperm
  exact hperm

theorem filter_append_of_not_mem (hk : k ∉ l.map Prod.fst) :
    (l ++ [(k, o)]).filter (·.1 != k) = l := by
  rw [filter_append, filter_eq_self.mpr]
  · simp
  · intro e he
    rw [bne_iff_ne]
    rintro rfl
    exact hk (mem_map_of_mem he)

end Entries

namespace Sound

variable {n : Nat} {s s' : Server} {k : Nat} {o o' : RedirectSuspend}

/-- A request that arrives is answered or suspended, not both. -/
theorem arrive (hs : Sound n s) (message : HttpMessage) (entry : Option (Nat × RedirectSuspend))
    (sent : Option Sent) (hmessages : s'.messages = s.messages ++ [message])
    (hlist : s'.suspendList = s.suspendList ++ entry.toList)
    (hsent : s'.sent = s.sent ++ sent.toList)
    (hnumber : ∀ m, sent = some m → m.number = s.messages.length)
    (hfree : ∀ e, entry = some e → e.1 ∉ s.suspendList.map Prod.fst)
    (hentry : ∀ e, entry = some e → e.2.request = ⟨s.messages.length, message⟩ ∧
      e.2.Counted n ∧ 0 < e.2.suspendCount)
    (hone : isAnswered message = true → entry.toList.length + sent.toList.length = 1) :
    Sound n s' := by
  have hget : ∀ number < s.messages.length, s'.messages[number]? = s.messages[number]? := by
    intro number hlt
    rw [hmessages, getElem?_append_left hlt]
  have hlt : ∀ e ∈ s.suspendList, e.2.request.number < s.messages.length := by
    intro e he
    exact (List.getElem?_eq_some_iff.mp (hs.arrived e he)).1
  refine ⟨?_, ?_, ?_, ?_, ?_, ?_⟩
  · rw [hlist, map_append, nodup_append]
    refine ⟨hs.keys, by cases entry <;> simp, ?_⟩
    intro a ha b hb hab
    obtain ⟨e, he, rfl⟩ := mem_map.mp hb
    exact hfree e (Option.mem_toList.mp he) (hab ▸ ha)
  · intro e he
    rw [hlist] at he
    rcases mem_append.mp he with he | he
    · rw [hget _ (hlt e he)]
      exact hs.arrived e he
    · obtain ⟨hrequest, -⟩ := hentry e (Option.mem_toList.mp he)
      rw [hrequest, hmessages]
      simp
  · intro m hm
    rw [hmessages, length_append, length_singleton]
    rw [hsent] at hm
    rcases mem_append.mp hm with hm | hm
    · have := hs.sent_lt m hm
      omega
    · have := hnumber m (Option.mem_toList.mp hm)
      omega
  · intro number msg hmsg hanswered
    have hfinals : s'.finals number =
        s.finals number + sent.toList.countP (·.number == number) := by
      rw [Server.finals, hsent, countP_append]
      rfl
    have hsuspends : s'.suspends number =
        s.suspends number + entry.toList.countP (·.2.request.number == number) := by
      rw [Server.suspends, hlist, countP_append]
      rfl
    rw [hfinals, hsuspends]
    have hcountSent : sent.toList.countP (·.number == number) =
        if s.messages.length = number then sent.toList.length else 0 := by
      cases hm : sent with
      | none => simp
      | some m => simp [countP_cons, hnumber m hm]
    have hcountEntry : entry.toList.countP (·.2.request.number == number) =
        if s.messages.length = number then entry.toList.length else 0 := by
      cases he : entry with
      | none => simp
      | some e => simp [countP_cons, (hentry e he).1]
    rw [hcountSent, hcountEntry]
    by_cases hnew : s.messages.length = number
    · -- the message that came in: nothing is known about its number so far
      subst hnew
      obtain rfl : message = msg := by simpa [hmessages] using hmsg
      have hnoFinal : s.finals s.messages.length = 0 := by
        rw [Server.finals, countP_eq_zero]
        intro m hm heq
        have := hs.sent_lt m hm
        rw [beq_iff_eq] at heq
        omega
      have hnoSuspend : s.suspends s.messages.length = 0 := by
        rw [Server.suspends, countP_eq_zero]
        intro e he heq
        have := hlt e he
        rw [beq_iff_eq] at heq
        omega
      have := hone hanswered
      rw [if_pos rfl, if_pos rfl]
      omega
    · have hbound : number < s'.messages.length := (List.getElem?_eq_some_iff.mp hmsg).1
      rw [hmessages, length_append, length_singleton] at hbound
      rw [hget number (by omega)] at hmsg
      simpa [hnew] using hs.answered number msg hmsg hanswered
  · intro e he
    rw [hlist] at he
    rcases mem_append.mp he with he | he
    · exact hs.counted e he
    · exact (hentry e (Option.mem_toList.mp he)).2.1
  · intro e he
    rw [hlist] at he
    rcases mem_append.mp he with he | he
    · exact hs.waiting e he
    · exact (hentry e (Option.mem_toList.mp he)).2.2

theorem finish (hs : Sound n s) (hlist : s.suspendList.Perm ((k, o) :: s'.suspendList))
    (hmessages : s'.messages = s.messages) (sent : Option Sent)
    (hsent : s'.sent = s.sent ++ sent.toList)
    (hnumber : ∀ m, sent = some m → m.number = o.request.number)
    (hone : isAnswered o.request.message = true → sent ≠ none) : Sound n s' := by
  have hsub : ∀ e ∈ s'.suspendList, e ∈ s.suspendList :=
    fun e he => hlist.mem_iff.mpr (mem_cons_of_mem _ he)
  have hmem : (k, o) ∈ s.suspendList := hlist.mem_iff.mpr (by simp)
  have harrived := hs.arrived _ hmem
  refine ⟨?_, ?_, ?_, ?_, fun e he => hs.counted e (hsub e he),
    fun e he => hs.waiting e (hsub e he)⟩
  · have hkeys := (hlist.map Prod.fst).nodup_iff.mp hs.keys
    exact (nodup_cons.mp hkeys).2
  · intro e he
    rw [hmessages]
    exact hs.arrived e (hsub e he)
  · intro m hm
    rw [hmessages]
    rw [hsent] at hm
    rcases mem_append.mp hm with hm | hm
    · exact hs.sent_lt m hm
    · rw [hnumber m (Option.mem_toList.mp hm)]
      exact (List.getElem?_eq_some_iff.mp harrived).1
  · intro number msg hmsg hanswered
    rw [hmessages] at hmsg
    have hbefore := hs.answered number msg hmsg hanswered
    have hfinals : s'.finals number =
        s.finals number + sent.toList.countP (·.number == number) := by
      rw [Server.finals, hsent, countP_append]
      rfl
    have hsuspends : s.suspends number =
        s'.suspends number + if o.request.number = number then 1 else 0 := by
      rw [Server.suspends, hlist.countP_eq, countP_cons, Server.suspends]
      simp
    have hcount : sent.toList.countP (·.number == number) =
        if o.request.number = number then 1 else 0 := by
      by_cases hown : o.request.number = number
      · subst hown
        obtain rfl : o.request.message = msg := by simpa [harrived] using hmsg
        cases hm : sent with
        | none => exact absurd hm (hone hanswered)
        | some m => simp [hnumber m hm]
      · cases hm : sent with
        | none => simp [hown]
        | some m => simp [hnumber m hm]
    omega

theorem replace (hs : Sound n s) {rest : List (Nat × RedirectSuspend)}
    (hlist : s.suspendList.Perm ((k, o) :: rest))
    (hlist' : s'.suspendList.Perm ((k, o') :: rest)) (hmessages : s'.messages = s.messages)
    (hsent : s'.sent = s.sent) (hrequest : o'.request = o.request) (hcounted : o'.Counted n)
    (hwaiting : 0 < o'.suspendCount) : Sound n s' := by
  have hmem : (k, o) ∈ s.suspendList := hlist.mem_iff.mpr (by simp)
  have hold : ∀ e ∈ rest, e ∈ s.suspendList :=
    fun e he => hlist.mem_iff.mpr (mem_cons_of_mem _ he)
  have hcases : ∀ e ∈ s'.suspendList, e = (k, o') ∨ e ∈ s.suspendList := by
    intro e he
    exact (mem_cons.mp (hlist'.mem_iff.mp he)).imp_right (hold e)
  refine ⟨?_, ?_, ?_, ?_, ?_, ?_⟩
  · have hkeys := (hlist.map Prod.fst).nodup_iff.mp hs.keys
    exact (hlist'.map Prod.fst).nodup_iff.mpr hkeys
  · intro e he
    rw [hmessages]
    rcases hcases e he with rfl | he
    · rw [hrequest]
      exact hs.arrived _ hmem
    · exact hs.arrived e he
  · rw [hmessages, hsent]
    exact hs.sent_lt
  · intro number msg hmsg hanswered
    rw [hmessages] at hmsg
    rw [← hs.answered number msg hmsg hanswered, Server.finals, Server.finals, hsent,
      Server.suspends, Server.suspends, hlist.countP_eq, hlist'.countP_eq, countP_cons,
      countP_cons, hrequest]
  · intro e he
    rcases hcases e he with rfl | he
    · exact hcounted
    · exact hs.counted e he
  · intro e he
    rcases hcases e he with rfl | he
    · exact hwaiting
    · exact hs.waiting e he

end Sound

/-! ## Handling a message -/

theorem answer_suspendList (s : Server) (request : Request) (p : Pass) :
    (answer s request p).suspendList = s.suspendList := by
  unfold answer
  repeat' split
  all_goals rfl

theorem answer_messages (s : Server) (request : Request) (p : Pass) :
    (answer s request p).messages = s.messages := by
  unfold answer
  repeat' split
  all_goals rfl

theorem exists_answer_sent (s : Server) (request : Request) (p : Pass) :
    ∃ sent : Option Sent, (answer s request p).sent = s.sent ++ sent.toList ∧
      (∀ m, sent = some m → m.number = request.number) ∧
      (isAnswered request.message = true → sent.toList.length = 1) := by
  unfold answer
  split
  next hack =>
    refine ⟨none, ?_, by simp, ?_⟩
    · split <;> simp
    · intro hanswered
      simp [isAnswered, hack] at hanswered
  next hack =>
    refine ⟨some (responseOf request p), rfl, ?_, fun _ => rfl⟩
    rintro m ⟨⟩
    unfold responseOf
    repeat' split
    all_goals rfl

section Handled

variable {redirectors : List RedirectorDescriptor} {plugins : Nat → Plugin}
variable {isInviteFor : HttpMessage → HttpMessage → Bool} {s : Server}

theorem cancelRedirect_of_quiet {o : RedirectSuspend}
    (h : cancelThrows redirectors plugins o = false) :
    cancelRedirect redirectors plugins s seqNo o = (s.destroy seqNo, false) := by
  rw [cancelRedirect, h]
  rfl

/-- A request that comes in is answered or suspended. -/
theorem sound_processRedirect_new (hs : Sound redirectors.length s) {message : HttpMessage}
    (hcalm : CalmPass redirectors plugins s
      (pass redirectors plugins ⟨s.messages.length, message⟩ none)) :
    let handled := processRedirect redirectors plugins
      { s with messages := s.messages ++ [message] } ⟨s.messages.length, message⟩ s.nextSeqNo none
    Sound redirectors.length
      (if handled.2 then handled.1.send { number := s.messages.length, statusCode := 503 }
        else handled.1) := by
  have hpass := passSound_pass redirectors plugins ⟨s.messages.length, message⟩ none (by simp)
  set p := pass redirectors plugins ⟨s.messages.length, message⟩ none with hp
  simp only [processRedirect, ← hp]
  cases ho : p.suspendObject with
  | none =>
    have hcommit : commit { s with messages := s.messages ++ [message] } s.nextSeqNo p =
        { s with messages := s.messages ++ [message] } := by
      rw [commit, ho]
    rw [hcommit, (hpass.of_none ho).2]
    cases p.threw with
    | true =>
      refine hs.arrive message none (some { number := s.messages.length, statusCode := 503 }) rfl
        (append_nil _).symm rfl ?_ ?_ ?_ ?_
      all_goals simp
    | false =>
      obtain ⟨sent, hsent, hnumber, hone⟩ :=
        exists_answer_sent { s with messages := s.messages ++ [message] }
          ⟨s.messages.length, message⟩ p
      simp only [Bool.not_false, Bool.or_true, if_true, Bool.false_eq_true, if_false]
      refine hs.arrive message none sent (answer_messages _ _ _) ?_ hsent hnumber ?_ ?_ ?_
      · simp [answer_suspendList]
      · simp
      · simp
      · simpa using hone
  | some o =>
    have hthrew : p.threw = false := by
      rw [← Bool.not_eq_true]
      intro hthrew
      rw [hcalm.threw hthrew] at ho
      cases ho
    have hcreated : p.created = true := by
      rw [hpass.created_eq, ho]
      rfl
    have hfree := hcalm.free hcreated
    set s₁ : Server := commit { s with messages := s.messages ++ [message] } s.nextSeqNo p
      with hs₁
    have hinsert : ({ s with messages := s.messages ++ [message] } : Server).insert s.nextSeqNo o =
        { s with
          messages := s.messages ++ [message]
          suspendList := s.suspendList ++ [(s.nextSeqNo, o)] } := if_neg hfree
    have hlist : s₁.suspendList = s.suspendList ++ [(s.nextSeqNo, o)] := by
      rw [hs₁, commit, ho]
      simp only [hcreated, if_true, hinsert]
    have hmessages : s₁.messages = s.messages ++ [message] := by
      rw [hs₁, commit, ho]
      simp only [hcreated, if_true, hinsert]
    have hsent₁ : s₁.sent = s.sent := by
      rw [hs₁, commit, ho]
      simp only [hcreated, if_true, hinsert]
    rw [hthrew]
    simp only [Bool.false_eq_true, if_false]
    by_cases hdone : (p.willError || !p.willSuspend) = true
    · obtain ⟨sent, hsent, hnumber, hone⟩ :=
        exists_answer_sent s₁ ⟨s.messages.length, message⟩ p
      rw [if_pos hdone, cancelRedirect_of_quiet (hcalm.cancel hdone o ho)]
      simp only [Bool.false_eq_true, if_false]
      refine hs.arrive message none sent ?_ ?_ ?_ hnumber ?_ ?_ ?_
      · exact (answer_messages _ _ _).trans hmessages
      · rw [Server.destroy, answer_suspendList, hlist, filter_append_of_not_mem hfree]
        simp
      · exact hsent.trans (by rw [hsent₁])
      · simp
      · simp
      · simpa using hone
    · rw [if_neg hdone]
      simp only [Bool.false_eq_true, if_false]
      have hsuspend : p.willSuspend = true := by
        cases hsuspend : p.willSuspend with
        | true => rfl
        | false => simp [hsuspend] at hdone
      refine hs.arrive message (some (s.nextSeqNo, o)) none hmessages hlist ?_ ?_ ?_ ?_ ?_
      · simpa using hsent₁
      · simp
      · rintro e ⟨⟩
        exact hfree
      · rintro e ⟨⟩
        exact ⟨hpass.request_eq o ho, hpass.counted o ho, (hpass.willSuspend_iff o ho).mp hsuspend⟩
      · intro _
        rfl

/-- Cancelling keeps the server sound. -/
theorem sound_cancelLoop {cancel : HttpMessage} {entries : List (Nat × RedirectSuspend)}
    (hs : Sound redirectors.length s) (hentries : entries ⊆ s.suspendList)
    (hkeys : (entries.map Prod.fst).Nodup)
    (hcalm : ∀ entry ∈ entries, isInviteFor entry.2.request.message cancel = true →
      cancelThrows redirectors plugins entry.2 = false) :
    (cancelLoop redirectors isInviteFor plugins cancel entries s).2 = false ∧
      Sound redirectors.length (cancelLoop redirectors isInviteFor plugins cancel entries s).1 := by
  induction entries generalizing s with
  | nil => exact ⟨rfl, hs⟩
  | cons entry entries ih =>
    obtain ⟨seqNo, o⟩ := entry
    obtain ⟨hnot, hkeys⟩ := nodup_cons.mp hkeys
    obtain ⟨hhead, htail⟩ := forall_mem_cons.mp hcalm
    unfold cancelLoop
    split
    next hinvite =>
      simp only [cancelRedirect_of_quiet (hhead hinvite)]
      apply ih _ _ hkeys htail
      · refine hs.finish (o := o) (k := seqNo) ?_ rfl
          (some { number := o.request.number, statusCode := 487 }) rfl ?_ ?_
        · exact perm_cons_filter hs.keys (hentries (by simp))
        · rintro m ⟨⟩
          rfl
        · simp
      · intro e he
        refine mem_filter.mpr ⟨hentries (by simp [he]), ?_⟩
        rw [bne_iff_ne]
        intro hkey
        exact hnot (mem_map.mpr ⟨e, he, hkey⟩)
    next =>
      exact ih hs (fun e he => hentries (by simp [he])) hkeys htail

theorem sound_handlePhoneApp {message : HttpMessage} (hs : Sound redirectors.length s)
    (hcalm : Calm redirectors isInviteFor s (.phoneApp message plugins)) :
    Sound redirectors.length (handlePhoneApp redirectors isInviteFor s message plugins) := by
  unfold handlePhoneApp
  rw [Calm] at hcalm
  by_cases hcancel : hasMethod message "CANCEL" = true
  · rw [if_pos hcancel] at hcalm
    -- a CANCEL is not answered here
    have harrive : Sound redirectors.length { s with messages := s.messages ++ [message] } := by
      refine hs.arrive message none none rfl (append_nil _).symm (append_nil _).symm ?_ ?_ ?_ ?_
      · simp
      · simp
      · simp
      · simp [isAnswered, hcancel]
    obtain ⟨hquiet, hsound⟩ := sound_cancelLoop harrive (List.Subset.refl _) hs.keys hcalm
    simp only [if_pos hcancel, hquiet, Bool.false_eq_true, if_false]
    exact hsound
  · rw [if_neg hcancel] at hcalm
    simp only [if_neg hcancel]
    exact sound_processRedirect_new hs hcalm

theorem update_update (seqNo : Nat) (o o' : RedirectSuspend) :
    (s.update seqNo o).update seqNo o' = s.update seqNo o' := by
  unfold Server.update
  simp only [map_map]
  congr 1
  apply map_congr_left
  intro e _
  simp only [Function.comp_apply]
  split
  next he => simp
  next he => rfl

theorem mem_of_find {o : RedirectSuspend} (h : s.find seqNo = some o) :
    (seqNo, o) ∈ s.suspendList := by
  rw [Server.find, Option.map_eq_some_iff] at h
  obtain ⟨⟨key, value⟩, hfind, rfl⟩ := h
  obtain rfl : key = seqNo := by simpa using find?_some hfind
  exact mem_of_find?_eq_some hfind

theorem sound_processRedirect_again {o o' : RedirectSuspend}
    (hs : Sound redirectors.length s) (hmem : (seqNo, o) ∈ s.suspendList)
    (hrequest : o'.request = o.request) (hcounted : o'.Counted redirectors.length)
    (hzero : o'.suspendCount = 0)
    (hcalm : CalmPass redirectors plugins s (pass redirectors plugins o.request (some o'))) :
    Sound redirectors.length
      (processRedirect redirectors plugins (s.update seqNo o') o.request seqNo (some o')).1 := by
  have hpass := passSound_pass redirectors plugins o.request (some o')
    (by rintro _ ⟨⟩; exact ⟨hrequest, hcounted, hzero⟩)
  set p := pass redirectors plugins o.request (some o') with hp
  obtain ⟨o'', ho⟩ : ∃ o'', p.suspendObject = some o'' := by
    rw [← Option.ne_none_iff_exists']
    intro hnone
    cases (hpass.of_none hnone).1
  have hthrew : p.threw = false := by
    rw [← Bool.not_eq_true]
    intro hthrew
    rw [hcalm.threw hthrew] at ho
    cases ho
  have hcreated : p.created = false := hpass.created_eq
  -- the loop has put its suspend object in the place of the one before
  have hcommit : commit (s.update seqNo o') seqNo p = s.update seqNo o'' := by
    rw [commit, ho, ← update_update seqNo o' o'']
    simp only [hcreated, Bool.false_eq_true, if_false]
  have hperm := perm_cons_filter hs.keys hmem
  simp only [processRedirect, ← hp, hcommit, hthrew, Bool.false_eq_true, if_false]
  by_cases hdone : (p.willError || !p.willSuspend) = true
  · obtain ⟨sent, hsent, hnumber, hone⟩ :=
      exists_answer_sent (s.update seqNo o'') o.request p
    simp only [if_pos hdone, ho, cancelRedirect_of_quiet (hcalm.cancel hdone o'' ho)]
    refine hs.finish (o := o) (k := seqNo) ?_ (answer_messages _ _ _) sent hsent hnumber ?_
    · rw [Server.destroy, answer_suspendList, Server.update, filter_map_update]
      exact hperm
    · intro hanswered hnone
      have := hone hanswered
      simp [hnone] at this
  · rw [if_neg hdone]
    have hsuspend : p.willSuspend = true := by
      cases hsuspend : p.willSuspend with
      | true => rfl
      | false => simp [hsuspend] at hdone
    exact hs.replace hperm (perm_map_update hs.keys hmem) rfl rfl (hpass.request_eq o'' ho) (hpass.counted o'' ho)
      ((hpass.willSuspend_iff o'' ho).mp hsuspend)

theorem sound_handleRestart {redirectorNo : Int} (hs : Sound redirectors.length s)
    (hcalm : Calm redirectors isInviteFor s (.redirectRestart seqNo redirectorNo plugins)) :
    Sound redirectors.length (handleRestart redirectors s seqNo redirectorNo plugins) := by
  unfold handleRestart
  split
  next => exact hs
  next o hfind =>
    have hmem := mem_of_find hfind
    split
    next => exact hs
    next hrange =>
      split
      next => exact hs
      next hsuspended =>
        have hi : redirectorNo.toNat < redirectors.length := by omega
        have hsuspended : (o.slot redirectorNo.toNat).suspended = true := by simpa using hsuspended
        have hcounted := (hs.counted _ hmem).markResumed hi hsuspended
        have hcount : (o.markResumed redirectorNo.toNat).suspendCount = o.suspendCount - 1 := rfl
        have hwaiting : 0 < o.suspendCount := hs.waiting _ hmem
        simp only
        split
        next hzero =>
          exact sound_processRedirect_again (o := o) hs hmem rfl hcounted hzero
            (hcalm o hfind (by omega) (by omega) hsuspended (by omega))
        next hzero =>
          exact hs.replace (perm_cons_filter hs.keys hmem) (perm_map_update hs.keys hmem) rfl rfl
            rfl hcounted (by omega)

end Handled

/-! ## Runs -/

theorem sound_handleMessage {redirectors : List RedirectorDescriptor}
    {isInviteFor : HttpMessage → HttpMessage → Bool} {s : Server} {e : Event}
    (hs : Sound redirectors.length s) (hcalm : Calm redirectors isInviteFor s e) :
    Sound redirectors.length (handleMessage redirectors isInviteFor s e) := by
  cases e with
  | phoneApp message plugins => exact sound_handlePhoneApp hs hcalm
  | redirectRestart seqNo redirectorNo plugins => exact sound_handleRestart hs hcalm

theorem sound_start (n : Nat) : Sound n {} := by
  constructor <;> simp

/-- After every run of calm steps each request but ACK and CANCEL has one final response
or one suspend object, and the suspend counts are right. -/
theorem sound_of_reaches (redirectors : List RedirectorDescriptor)
    (isInviteFor : HttpMessage → HttpMessage → Bool) (s : Server)
    (h : Run.Reaches (handleMessage redirectors isInviteFor) (Calm redirectors isInviteFor) {} s) :
    Sound redirectors.length s :=
  h.invariant (sound_start _) fun _ _ hs hcalm => sound_handleMessage hs hcalm

/-- A redirector that answers every look-up with the same result. -/
def answering (status : LookUpStatus) (ops : List ContactOp) : Plugin where
  lookUp _ _ _ := some { status, ops }
  observeThrows _ := false
  cancelThrows := false

/-- A redirector that throws. -/
def throwing : Plugin where
  lookUp _ _ _ := none
  observeThrows _ := true
  cancelThrows := false

def invite : HttpMessage where
  firstHeaderLine := text "INVITE sip:a@b SIP/2.0"
  nameValues := []

/-- A request that every redirector suspends. -/
def suspended : Event := .phoneApp invite fun _ => answering .searchPending []

/-- The first redirector resumes the first request that was suspended, and all of them
find the same contact. -/
def resumed : Event :=
  .redirectRestart 0 0 fun _ => answering .success [.add (text "sip:c@d")]

theorem sound_suspended_resumed :
    Sound 1 ([suspended, resumed].foldl (handleMessage [⟨true, 0⟩] fun _ _ => true) {}) := by
  apply sound_of_reaches [⟨true, 0⟩] fun _ _ => true
  refine (Relation.ReflTransGen.refl.tail ⟨suspended, ?_, rfl⟩).tail ⟨resumed, ?_, rfl⟩
  · intro o ho _ _ _ _
    obtain rfl : o = ⟨⟨0, invite⟩, 1, [⟨true, true, none⟩]⟩ := (Option.some.inj ho).symm
    exact ⟨by decide, by decide, by decide⟩
  · show CalmPass _ _ _ _
    exact ⟨by decide, by decide, by decide⟩

/-- The first redirector suspends the request, the second one throws. -/
def suspendedThrown : Event :=
  .phoneApp invite fun i => if i = 0 then answering .searchPending [] else throwing

/-- The exception is answered with a 503 while the suspend object stays; when the first
redirector resumes, the request gets a second final response. -/
theorem suspendedThrown_answered_twice :
    let redirectors : List RedirectorDescriptor := [⟨true, 0⟩, ⟨true, 0⟩]
    let s₁ := handleMessage redirectors (fun _ _ => true) {} suspendedThrown
    let s₂ := handleMessage redirectors (fun _ _ => true) s₁ resumed
    isAnswered invite = true ∧ s₁.finals 0 = 1 ∧ s₁.suspends 0 = 1 ∧ s₂.finals 0 = 2 := by
  decide

end SipRedirectServer

end SipXRouter
