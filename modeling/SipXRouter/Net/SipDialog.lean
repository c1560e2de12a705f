import SipXRouter.Net.Url
import SipXRouter.Run

/-!
# The data of a dialog

A `SipDialog` follows the messages of one dialog.  It keeps the last sequence numbers of
both sides, which are signed integers of 32 bits, and fills in a tag or the route set
when a message first shows it.
-/

namespace SipXRouter

open List

/-- What a dialog reads of a message. -/
structure DialogMessage where
  callId : Text
  fromUrl : Url
  toUrl : Url
  /-- `getCSeqField`, which gives `-1` where there is no valid number. -/
  cSeq : Int32
  /-- The method of a request. -/
  method : Text
  isResponse : Bool
  responseCode : Int
  /-- `getContactUri` with index zero; empty where there is none. -/
  contactUri : Text
  requestUri : Text
  /-- `buildRouteField`: the Record-Routes as a Route field. -/
  builtRouteField : Text

namespace DialogMessage

def fromTag (m : DialogMessage) : Text := (m.fromUrl.getFieldParameter (text "tag")).getD []

def toTag (m : DialogMessage) : Text := (m.toUrl.getFieldParameter (text "tag")).getD []

/-- `isRecordRouteAccepted`, which is false for every response. -/
def isRecordRouteAccepted (m : DialogMessage) : Bool :=
  !m.isResponse && m.method != text "MESSAGE" && m.method != text "REGISTER" &&
    m.method != text "PUBLISH"

/-- A successful response. -/
def isSuccess (m : DialogMessage) : Bool :=
  m.isResponse && decide (200 ≤ m.responseCode) && decide (m.responseCode < 300)

end DialogMessage

/-- One dialog, with the fields of both sides. -/
structure SipDialog where
  callId : Text
  localField : Url := {}
  localTag : Text := []
  remoteField : Url := {}
  remoteTag : Text := []
  localContact : Url := {}
  remoteContact : Url := {}
  routeSet : Text := []
  localInitiatedDialog : Bool := false
  lastLocalCseq : Int32 := 0
  lastRemoteCseq : Int32 := -1
  localRequestUri : Text := []
  remoteRequestUri : Text := []

/-- A request that `setRequestData` fills in; the fields are printed by `Url::toString`. -/
structure DialogRequest where
  method : Text
  requestUri : Text
  fromField : Url
  toField : Url
  cSeq : Int32
  routeField : Option Text
  callId : Text

variable {d : SipDialog} {es : List Event}

namespace SipDialog

/-- The constructor from a message. -/
def ofMessage (m : DialogMessage) (isFromLocal : Bool) : SipDialog :=
  let d : SipDialog :=
    if m.isResponse != isFromLocal then
      { callId := m.callId
        localInitiatedDialog := true
        localField := m.fromUrl
        localTag := m.fromTag
        remoteField := m.toUrl
        remoteTag := m.toTag
        lastLocalCseq := m.cSeq
        lastRemoteCseq := -1 }
    else
      { callId := m.callId
        localInitiatedDialog := false
        remoteField := m.fromUrl
        remoteTag := m.fromTag
        localField := m.toUrl
        localTag := m.toTag
        lastRemoteCseq := m.cSeq
        lastLocalCseq := 0 }
  let d : SipDialog :=
    if m.isResponse then d
    else if isFromLocal then { d with remoteRequestUri := m.requestUri }
    else
      { d with
        routeSet := if m.isRecordRouteAccepted then m.builtRouteField else d.routeSet
        localRequestUri := m.requestUri }
  if m.contactUri = [] then d
  else if isFromLocal then { d with localContact := Url.fromString m.contactUri .addrSpec }
  else { d with remoteContact := Url.fromString m.contactUri .addrSpec }

/-- Whether a message is of a request that this side sent; a tag that is not known yet fits any. -/
def isTransactionLocallyInitiated (d : SipDialog) (callId fromTag toTag : Text) : Bool :=
  caseEq callId d.callId && caseEq fromTag d.localTag &&
    (caseEq toTag d.remoteTag || toTag == [] || d.remoteTag == [])

def isTransactionRemotelyInitiated (d : SipDialog) (callId fromTag toTag : Text) : Bool :=
  caseEq callId d.callId && (caseEq toTag d.localTag || toTag == [] || d.localTag == []) &&
    (caseEq fromTag d.remoteTag || d.remoteTag == [])

/-- A sequence number of the local side. -/
def raiseLocalCseq (d : SipDialog) (cSeq : Int32) : SipDialog :=
  if d.lastLocalCseq < cSeq then { d with lastLocalCseq := cSeq } else d

/-- A sequence number of the remote side. -/
def raiseRemoteCseq (d : SipDialog) (cSeq : Int32) : SipDialog :=
  if d.lastRemoteCseq < cSeq then { d with lastRemoteCseq := cSeq } else d

/-- A contact of the local side, `newContact` telling whether the message is not an old one. -/
def updateLocalContact (d : SipDialog) (newContact : Bool) (contactUri : Text) : SipDialog :=
  if newContact ∧ contactUri ≠ [] then
    { d with localContact := Url.fromString contactUri .addrSpec }
  else d

def updateRemoteContact (d : SipDialog) (newContact : Bool) (contactUri : Text) : SipDialog :=
  if newContact ∧ contactUri ≠ [] then
    { d with remoteContact := Url.fromString contactUri .addrSpec }
  else d

/-- The answer to the request that starts a dialog of the local side. -/
def establishFromLocal (d : SipDialog) (m : DialogMessage) : SipDialog :=
  if m.cSeq = d.lastLocalCseq ∧ d.localInitiatedDialog ∧ m.isSuccess ∧ d.remoteTag = [] ∧
      d.routeSet = [] then
    { d with
      remoteField := m.toUrl
      remoteTag := m.toTag
      routeSet := if m.isRecordRouteAccepted then m.builtRouteField else d.routeSet }
  else d

/-- The request that starts a dialog of the remote side. -/
def startFromRemote (d : SipDialog) (prevRemoteCseq : Int32) (m : DialogMessage) : SipDialog :=
  if m.cSeq = d.lastRemoteCseq ∧ prevRemoteCseq = -1 ∧ ¬ d.localInitiatedDialog ∧
      ¬ m.isResponse ∧ d.remoteTag = [] then
    { d with remoteField := m.fromUrl, remoteTag := m.fromTag }
  else d

/-- The answer to it. -/
def establishFromRemote (d : SipDialog) (m : DialogMessage) : SipDialog :=
  if m.cSeq = d.lastRemoteCseq ∧ ¬ d.localInitiatedDialog ∧ m.isSuccess ∧ d.localTag = [] then
    { d with localField := m.toUrl, localTag := m.toTag }
  else d

/-- The part of `updateDialogData` for a transaction of the local side. -/
def updateLocallyInitiated (d : SipDialog) (m : DialogMessage) : SipDialog :=
  let d := d.raiseLocalCseq m.cSeq
  let d :=
    if m.isResponse then d.updateRemoteContact (d.lastLocalCseq ≤ m.cSeq) m.contactUri
    else d.updateLocalContact (d.lastLocalCseq ≤ m.cSeq) m.contactUri
  d.establishFromLocal m

/-- The part of `updateDialogData` for a transaction of the remote side. -/
def updateRemotelyInitiated (d : SipDialog) (m : DialogMessage) : SipDialog :=
  let prevRemoteCseq := d.lastRemoteCseq
  let d := d.raiseRemoteCseq m.cSeq
  let d :=
    if m.isResponse then d.updateLocalContact (d.lastRemoteCseq ≤ m.cSeq) m.contactUri
    else d.updateRemoteContact (d.lastRemoteCseq ≤ m.cSeq) m.contactUri
  let d := d.startFromRemote prevRemoteCseq m
  d.establishFromRemote m

/-- What a message changes in the dialog, by the side whose transaction it belongs to. -/
def updateDialogData (d : SipDialog) (m : DialogMessage) : SipDialog :=
  if d.isTransactionLocallyInitiated m.callId m.fromTag m.toTag then d.updateLocallyInitiated m
  else if d.isTransactionRemotelyInitiated m.callId m.fromTag m.toTag then
    d.updateRemotelyInitiated m
  else d

/-- `getNextLocalCseq`.  The increment wraps. -/
def getNextLocalCseq (d : SipDialog) : SipDialog := { d with lastLocalCseq := d.lastLocalCseq + 1 }

/-- The parts of the next request in the dialog, which takes the next number. -/
def setRequestData (d : SipDialog) (method : Text) : DialogRequest × SipDialog :=
  let remoteContact := d.remoteContact.getUri
  let next := d.getNextLocalCseq
  ({ method := method
     requestUri := if remoteContact = text "sip:" then d.remoteRequestUri else remoteContact
     fromField := d.localField
     toField := d.remoteField
     cSeq := next.lastLocalCseq
     routeField := if d.routeSet = [] then none else some d.routeSet
     callId := d.callId }, next)

/-- `SipDialogMgr::setNextLocalCseq`, on the dialog that it finds. -/
def setNextLocalCseq (d : SipDialog) (nextLocalCseq : Int32) : SipDialog :=
  if d.lastLocalCseq < nextLocalCseq then { d with lastLocalCseq := nextLocalCseq }
  else if d.lastLocalCseq = nextLocalCseq then { d with lastLocalCseq := nextLocalCseq + 1 }
  else d

/-! ## Runs -/

/-- What can happen to a dialog. -/
inductive Event where
  | updateDialogData (message : DialogMessage)
  | setRequestData (method : Text)
  | setNextLocalCseq (nextLocalCseq : Int32)

def step (d : SipDialog) : Event → SipDialog
  | .updateDialogData m => d.updateDialogData m
  | .setRequestData method => (d.setRequestData method).2
  | .setNextLocalCseq nextLocalCseq => d.setNextLocalCseq nextLocalCseq

def run (d : SipDialog) (events : List Event) : SipDialog := events.foldl step d

/-- The requests that are built over a run. -/
def built (d : SipDialog) : List Event → List DialogRequest
  | [] => []
  | .setRequestData method :: events =>
    (d.setRequestData method).1 :: built (d.step (.setRequestData method)) events
  | e :: events => built (d.step e) events

/-- The sequence numbers do not decrease, and what is set stays as it is. -/
structure Grows (d d' : SipDialog) : Prop where
  local_le : d.lastLocalCseq ≤ d'.lastLocalCseq
  remote_le : d.lastRemoteCseq ≤ d'.lastRemoteCseq
  localTag_eq : d.localTag ≠ [] → d'.localTag = d.localTag
  remoteTag_eq : d.remoteTag ≠ [] → d'.remoteTag = d.remoteTag
  routeSet_eq : d.routeSet ≠ [] → d'.routeSet = d.routeSet

theorem Grows.refl (d : SipDialog) : d.Grows d :=
  ⟨Int32.le_refl _, Int32.le_refl _, fun _ => rfl, fun _ => rfl, fun _ => rfl⟩

theorem Grows.trans {a b c : SipDialog} (hab : a.Grows b) (hbc : b.Grows c) : a.Grows c where
  local_le := Int32.le_trans hab.local_le hbc.local_le
  remote_le := Int32.le_trans hab.remote_le hbc.remote_le
  localTag_eq h := by
    have hb := hab.localTag_eq h
    rw [hbc.localTag_eq (hb ▸ h), hb]
  remoteTag_eq h := by
    have hb := hab.remoteTag_eq h
    rw [hbc.remoteTag_eq (hb ▸ h), hb]
  routeSet_eq h := by
    have hb := hab.routeSet_eq h
    rw [hbc.routeSet_eq (hb ▸ h), hb]

/-! ## The steps -/

theorem lt_add_one_of_ne {x : Int32} (h : x ≠ Int32.maxValue) : x < x + 1 := by
  have hx : x.toInt ≠ 2147483647 := fun hx => h (Int32.toInt_inj.mp hx)
  have hle : x.toInt ≤ 2147483647 := x.toInt_le
  have hge : -2147483648 ≤ x.toInt := x.le_toInt
  have hadd : (x + 1).toInt = x.toInt + 1 := by
    rw [Int32.toInt_add, Int32.toInt_one, Int.bmod_eq_of_le] <;> omega
  rw [Int32.lt_iff_toInt_lt, hadd]
  omega

theorem grows_of_le {localCseq remoteCseq : Int32} (hl : d.lastLocalCseq ≤ localCseq)
    (hr : d.lastRemoteCseq ≤ remoteCseq) :
    d.Grows { d with lastLocalCseq := localCseq, lastRemoteCseq := remoteCseq } :=
  ⟨hl, hr, fun _ => rfl, fun _ => rfl, fun _ => rfl⟩

theorem grows_of_local_le {n : Int32} (h : d.lastLocalCseq ≤ n) :
    d.Grows { d with lastLocalCseq := n } := grows_of_le h (Int32.le_refl _)

theorem grows_raiseLocalCseq (d : SipDialog) (cSeq : Int32) : d.Grows (d.raiseLocalCseq cSeq) := by
  unfold raiseLocalCseq
  split
  · next hlt => exact grows_of_local_le (Int32.le_of_lt hlt)
  · exact Grows.refl d

theorem grows_raiseRemoteCseq (d : SipDialog) (cSeq : Int32) : d.Grows (d.raiseRemoteCseq cSeq) := by
  unfold raiseRemoteCseq
  split
  · next hlt => exact grows_of_le (Int32.le_refl _) (Int32.le_of_lt hlt)
  · exact Grows.refl d

theorem grows_updateLocalContact (d : SipDialog) (newContact : Bool) (contactUri : Text) :
    d.Grows (d.updateLocalContact newContact contactUri) := by
  unfold updateLocalContact
  split <;> exact ⟨Int32.le_refl _, Int32.le_refl _, fun _ => rfl, fun _ => rfl, fun _ => rfl⟩

theorem grows_updateRemoteContact (d : SipDialog) (newContact : Bool) (contactUri : Text) :
    d.Grows (d.updateRemoteContact newContact contactUri) := by
  unfold updateRemoteContact
  split <;> exact ⟨Int32.le_refl _, Int32.le_refl _, fun _ => rfl, fun _ => rfl, fun _ => rfl⟩

theorem grows_establishFromLocal (d : SipDialog) (m : DialogMessage) :
    d.Grows (d.establishFromLocal m) := by
  unfold establishFromLocal
  split
  · next h =>
    obtain ⟨-, -, -, hremoteTag, hrouteSet⟩ := h
    exact ⟨Int32.le_refl _, Int32.le_refl _, fun _ => rfl, absurd hremoteTag, absurd hrouteSet⟩
  · exact Grows.refl d

theorem grows_startFromRemote (d : SipDialog) (prevRemoteCseq : Int32) (m : DialogMessage) :
    d.Grows (d.startFromRemote prevRemoteCseq m) := by
  unfold startFromRemote
  split
  · next h =>
    obtain ⟨-, -, -, -, hremoteTag⟩ := h
    exact ⟨Int32.le_refl _, Int32.le_refl _, fun _ => rfl, absurd hremoteTag, fun _ => rfl⟩
  · exact Grows.refl d

theorem grows_establishFromRemote (d : SipDialog) (m : DialogMessage) :
    d.Grows (d.establishFromRemote m) := by
  unfold establishFromRemote
  split
  · next h =>
    obtain ⟨-, -, -, hlocalTag⟩ := h
    exact ⟨Int32.le_refl _, Int32.le_refl _, absurd hlocalTag, fun _ => rfl, fun _ => rfl⟩
  · exact Grows.refl d

theorem grows_updateLocallyInitiated (d : SipDialog) (m : DialogMessage) :
    d.Grows (d.updateLocallyInitiated m) := by
  unfold updateLocallyInitiated
  refine Grows.trans ?_ (grows_establishFromLocal _ m)
  refine (d.grows_raiseLocalCseq m.cSeq).trans ?_
  split
  · exact grows_updateRemoteContact _ _ _
  · exact grows_updateLocalContact _ _ _

theorem grows_updateRemotelyInitiated (d : SipDialog) (m : DialogMessage) :
    d.Grows (d.updateRemotelyInitiated m) := by
  unfold updateRemotelyInitiated
  refine Grows.trans (Grows.trans ?_ (grows_startFromRemote _ _ m)) (grows_establishFromRemote _ m)
  refine (d.grows_raiseRemoteCseq m.cSeq).trans ?_
  split
  · exact grows_updateLocalContact _ _ _
  · exact grows_updateRemoteContact _ _ _

theorem grows_updateDialogData (d : SipDialog) (m : DialogMessage) : d.Grows (d.updateDialogData m) := by
  unfold updateDialogData
  split_ifs
  · exact d.grows_updateLocallyInitiated m
  · exact d.grows_updateRemotelyInitiated m
  · exact Grows.refl d

/-- The increments do not wrap. -/
def Allowed (d : SipDialog) : Event → Prop
  | .updateDialogData _ => True
  | .setRequestData _ => d.lastLocalCseq ≠ Int32.maxValue
  | .setNextLocalCseq nextLocalCseq =>
    ¬ (d.lastLocalCseq = Int32.maxValue ∧ nextLocalCseq = Int32.maxValue)

instance (d : SipDialog) : ∀ e, Decidable (d.Allowed e)
  | .updateDialogData _ => inferInstanceAs (Decidable True)
  | .setRequestData _ => inferInstanceAs (Decidable (_ ≠ _))
  | .setNextLocalCseq _ => inferInstanceAs (Decidable (¬ _))

theorem grows_step {e : Event} (h : d.Allowed e) : d.Grows (d.step e) := by
  cases e with
  | updateDialogData m => exact d.grows_updateDialogData m
  | setRequestData method => exact grows_of_local_le (Int32.le_of_lt (lt_add_one_of_ne h))
  | setNextLocalCseq n =>
    show d.Grows (d.setNextLocalCseq n)
    unfold setNextLocalCseq
    split_ifs with hlt heq
    · exact grows_of_local_le (Int32.le_of_lt hlt)
    · subst heq
      exact grows_of_local_le (Int32.le_of_lt (lt_add_one_of_ne fun hmax => h ⟨hmax, hmax⟩))
    · exact Grows.refl d

/-- An increment that wraps leads back to the least number. -/
theorem not_grows_step {e : Event} (h : ¬ d.Allowed e) : ¬ d.Grows (d.step e) := by
  intro hgrows
  have hle := hgrows.local_le
  cases e with
  | updateDialogData m => exact h trivial
  | setRequestData method =>
    have hmax : d.lastLocalCseq = Int32.maxValue := not_not.mp h
    have hwrap : d.lastLocalCseq ≤ d.lastLocalCseq + 1 := hle
    rw [hmax] at hwrap
    exact absurd hwrap (by decide)
  | setNextLocalCseq n =>
    obtain ⟨hmax, rfl⟩ := not_not.mp h
    have hnext : (d.setNextLocalCseq Int32.maxValue).lastLocalCseq = Int32.maxValue + 1 := by
      simp [setNextLocalCseq, hmax]
    have hwrap : d.lastLocalCseq ≤ (d.setNextLocalCseq Int32.maxValue).lastLocalCseq := hle
    rw [hnext, hmax] at hwrap
    exact absurd hwrap (by decide)

/-! ## Whole runs -/

theorem grows_run (h : Run.AllAllowed step Allowed d es) : d.Grows (d.run es) :=
  h.reaches.invariant (Grows.refl d) fun _ _ hgrows hallowed => hgrows.trans (grows_step hallowed)

/-- Over the run every state has grown from every earlier one. -/
def GrowsAlong (d : SipDialog) (es : List Event) : Prop :=
  ∀ earlier between later, es = earlier ++ between ++ later →
    (d.run earlier).Grows (d.run (earlier ++ between))

theorem run_append (d : SipDialog) (es es' : List Event) :
    d.run (es ++ es') = (d.run es).run es' := foldl_append

theorem lt_cSeq_of_mem_built
    (h : Run.AllAllowed step Allowed d es) {r : DialogRequest} (hr : r ∈ d.built es) :
    d.lastLocalCseq < r.cSeq := by
  induction es generalizing d with
  | nil => exact absurd hr not_mem_nil
  | cons e es ih =>
    have hle := (grows_step h.1).local_le
    have hrest := fun hr => Int32.lt_of_le_of_lt hle (ih h.2 hr)
    cases e with
    | setRequestData method =>
      obtain rfl | hr := mem_cons.mp hr
      · exact lt_add_one_of_ne h.1
      · exact hrest hr
    | updateDialogData m => exact hrest hr
    | setNextLocalCseq n => exact hrest hr

theorem pairwise_built (h : Run.AllAllowed step Allowed d es) :
    ((d.built es).map DialogRequest.cSeq).Pairwise (· < ·) := by
  induction es generalizing d with
  | nil => exact List.Pairwise.nil
  | cons e es ih =>
    cases e with
    | setRequestData method =>
      refine pairwise_cons.mpr ⟨fun n hn => ?_, ih h.2⟩
      obtain ⟨r, hr, rfl⟩ := mem_map.mp hn
      exact lt_cSeq_of_mem_built h.2 hr
    | updateDialogData m => exact ih h.2
    | setNextLocalCseq n => exact ih h.2

theorem growsAlong_iff : d.GrowsAlong es ↔ Run.AllAllowed step Allowed d es := by
  constructor
  · intro h
    induction es generalizing d with
    | nil => trivial
    | cons e es ih =>
      have hfirst : d.Grows (d.step e) := h [] [e] es rfl
      refine ⟨not_not.mp fun hbad => not_grows_step hbad hfirst, ih ?_⟩
      rintro earlier between later rfl
      exact h (e :: earlier) between later rfl
  · rintro h earlier between later rfl
    rw [run_append]
    exact grows_run (Run.allAllowed_append.mp (Run.allAllowed_append.mp h).1).2

/-- The numbers never decrease, the requests carry ever greater ones and what is set stays, in
exactly the runs in which no increment wraps. -/
theorem dialogData_grows_iff (d : SipDialog) (es : List Event) :
    d.GrowsAlong es ∧ ((d.built es).map DialogRequest.cSeq).Pairwise (· < ·) ↔
      Run.AllAllowed step Allowed d es :=
  ⟨fun h => growsAlong_iff.mp h.1, fun h => ⟨growsAlong_iff.mpr h, pairwise_built h⟩⟩

/-- The greatest number is set, and the request built next carries the least one. -/
theorem setRequestData_wraps :
    let d : SipDialog := { callId := text "1" }
    let es := [Event.setRequestData (text "NOTIFY"), .setNextLocalCseq 2147483647,
      .setRequestData (text "NOTIFY")]
    (d.built es).map DialogRequest.cSeq = [1, -2147483648] ∧
      ¬ (d.GrowsAlong es ∧ ((d.built es).map DialogRequest.cSeq).Pairwise (· < ·)) := by
  refine ⟨by decide, fun h => ?_⟩
  exact absurd h.2 (by decide)

end SipDialog

end SipXRouter
