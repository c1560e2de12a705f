import SipXRouter.Net.SipDialogMgr
import SipXRouter.Utl.UtlString

/-!
# The store of subscriptions

`SipSubscriptionMgr` keeps each subscription in three places: in a table by its dialog handle,
in an index by its resource and event, and as a dialog of the dialog manager.  A `SUBSCRIBE`, a
row read from the database, the end of a subscription and a sweep of old ones each change all
three.

## Design notes

* An object is known by its serial number.  An entry of the index has the number of the state
  that it was made with, and its pointer to it besides.
* The hash bags are lists in the order of their iterators; a resize may bring them into any
  other order.
* Of a response only the status and the expiration are kept.
-/

namespace SipXRouter

open List

/-- What the manager reads of a `SUBSCRIBE`. -/
structure SubscribeRequest where
  requestUri : Text
  callId : Text
  fromField : Text
  toField : Text
  cSeq : Int32
  /-- `getContactUri` with index zero; empty where there is none. -/
  contactUri : Text := []
  /-- `buildRouteField`: the Record-Routes as a Route field. -/
  builtRouteField : Text := []
  /-- `getExpiresField`. -/
  expires : Option Int32 := none
  /-- `getAcceptField`; empty where there is none. -/
  acceptField : Text := []
deriving DecidableEq

namespace SubscribeRequest

/-- What a dialog reads of it. -/
def dialogMessage (m : SubscribeRequest) : DialogMessage where
  callId := m.callId
  fromUrl := Url.fromString m.fromField .nameAddr
  toUrl := Url.fromString m.toField .nameAddr
  cSeq := m.cSeq
  method := text "SUBSCRIBE"
  isResponse := false
  responseCode := 0
  contactUri := m.contactUri
  requestUri := m.requestUri
  builtRouteField := m.builtRouteField

def getDialogHandle (m : SubscribeRequest) : Text := m.dialogMessage.getDialogHandle

/-- `setUriParameter`: the value after the first place where the name and an equals sign stand,
wherever that is, up to a blank or a semicolon; or a new parameter at the end. -/
def setUriParameter (uri parameterName parameterValue : Text) : Text :=
  let parameterString :=
    if parameterValue = [] then parameterName else parameterName ++ [byte '=']
  match UtlString.index uri parameterString with
  | some i =>
    let tagIndex := i + parameterString.length
    uri.take tagIndex ++ parameterValue ++ (uri.drop tagIndex).dropWhile (!oneOf " \t;" ·)
  | none => uri ++ byte ';' :: (parameterString ++ parameterValue)

def setToFieldTag (m : SubscribeRequest) (tagValue : Text) : SubscribeRequest :=
  { m with toField := setUriParameter m.toField (text "tag") tagValue }

end SubscribeRequest

/-- One subscription, numbered by its creation. -/
structure SubscriptionServerState where
  serial : Nat := 0
  dialogHandle : Text
  resourceId : Text
  eventTypeKey : Text
  eventType : Text
  acceptHeaderValue : Text
  expirationDate : UInt64
  dialogVer : Int32 := -1
  lastSubscribeRequest : SubscribeRequest
deriving DecidableEq

/-- The entry of a subscription in the index by resource, with the pointer to its state. -/
structure SubscriptionServerStateIndex where
  serial : Nat
  contentKey : Text
  state : Option Nat
deriving DecidableEq

/-- The times that `setSubscriptionTimes` lets through. -/
structure SubscriptionTimes where
  minExpiration : Int := 32
  defaultExpiration : Int := 3600
  maxExpiration : Int := 86400
  ordered : minExpiration ≤ defaultExpiration ∧ defaultExpiration ≤ maxExpiration := by decide
  limited : 32 ≤ minExpiration ∧ maxExpiration ≤ 86400 := by decide

/-- The subscriptions by dialog handle and by resource, with the dialogs. -/
structure SipSubscriptionMgr where
  dialogMgr : SipDialogMgr := {}
  statesByDialogHandle : List SubscriptionServerState := []
  stateResourceIndex : List SubscriptionServerStateIndex := []
  times : SubscriptionTimes := {}
  created : Nat := 0

/-- The status of the response to a `SUBSCRIBE`: accepted for a time, a time that is too brief,
or a subscription that is not known. -/
inductive SubscribeResponse where
  | accepted (expires : Int)
  | tooBrief (minExpires : Int)
  | badSubscription
deriving DecidableEq

/-- What `updateDialogInfo` gives to its caller. -/
structure SubscribeResult where
  succeeded : Bool := false
  isNew : Bool := false
  isSubscriptionExpired : Bool := true
  subscribeDialogHandle : Text
  resourceId : Text := []
  eventTypeKey : Text := []
  eventType : Text := []
  response : SubscribeResponse

variable {dialogHandle : Text} {dialogMgr : SipDialogMgr} {m : SubscribeRequest}
  {state : SubscriptionServerState}

namespace SipSubscriptionMgr

/-- The value of no Accept header, `SipPublishContentMgr::acceptAllTypes`. -/
def acceptAllTypes : Text := text " "

/-- The key of a resource and an event type in the index. -/
def contentKey (resourceId eventTypeKey : Text) : Text := resourceId ++ 1 :: eventTypeKey

/-- A random time.  The source divides by zero where the two bounds are the same. -/
def spread (rand : Nat) (lo hi : Int) : Int := rand % (hi - lo) + lo

/-- The expiration that `updateDialogInfo` computes. -/
def calculatedExpiration (times : SubscriptionTimes) (expires : Option Int32) (rand : Nat) : Int :=
  let spreadFloor := times.minExpiration * 2
  match expires with
  | none => spread rand times.defaultExpiration times.maxExpiration
  | some expires =>
    let expiration := expires.toInt
    if times.maxExpiration ≤ expiration then
      if spreadFloor < times.maxExpiration then spread rand spreadFloor times.maxExpiration
      else spread rand times.minExpiration times.maxExpiration
    else if spreadFloor < expiration then spread rand spreadFloor expiration
    else if times.minExpiration < expiration then spread rand times.minExpiration expiration
    else expiration

/-- The lookup by handle. -/
def find (mgr : SipSubscriptionMgr) (dialogHandle : Text) : Option SubscriptionServerState :=
  mgr.statesByDialogHandle.find? (·.dialogHandle == dialogHandle)

/-- A new state, and its entry in the resource index. -/
def insertState (mgr : SipSubscriptionMgr) (state : SubscriptionServerState) : SipSubscriptionMgr :=
  { mgr with
    statesByDialogHandle := { state with serial := mgr.created } :: mgr.statesByDialogHandle
    stateResourceIndex :=
      ⟨mgr.created, contentKey state.resourceId state.eventTypeKey, some mgr.created⟩ ::
        mgr.stateResourceIndex
    created := mgr.created + 1 }

/-- A state is changed where it stands. -/
def updateState (mgr : SipSubscriptionMgr) (serial : Nat)
    (f : SubscriptionServerState → SubscriptionServerState) : SipSubscriptionMgr :=
  { mgr with
    statesByDialogHandle := mgr.statesByDialogHandle.map fun state =>
      if state.serial = serial then f state else state }

/-- A subscription that is not found counts as expired. -/
def isExpired (mgr : SipSubscriptionMgr) (dialogHandle : Text) (now : UInt64) : Bool :=
  (mgr.find dialogHandle).all fun state => decide (state.expirationDate < now)

/-- An expiration that opens a subscription; one second is let through too. -/
def opens (times : SubscriptionTimes) (expiration : Int) : Bool :=
  decide (times.minExpiration ≤ expiration) || expiration == 0 || expiration == 1

/-- Whether a time is granted: at least the least one, or zero to end the subscription. -/
def renews (times : SubscriptionTimes) (expiration : Int) : Bool :=
  decide (times.minExpiration ≤ expiration) || expiration == 0

/-- `updateDialogInfo`, where `getKeys` is that of the event handler, `rand` the random number
and `toTag` the new tag. -/
def updateDialogInfo (getKeys : SubscribeRequest → Text × Text × Text) (mgr : SipSubscriptionMgr)
    (m : SubscribeRequest) (rand : Nat) (toTag : Text) (now : UInt64) :
    SubscribeResult × SipSubscriptionMgr :=
  let expiration := calculatedExpiration mgr.times m.expires rand
  let expirationDate := now + UInt64.ofInt expiration
  if SipDialog.isEarlyHandle m.getDialogHandle then
    if opens mgr.times expiration then
      let (resourceId, eventTypeKey, eventType) := getKeys m
      let subscribeCopy := m.setToFieldTag toTag
      let dialogHandle := subscribeCopy.getDialogHandle
      let acceptHeaderValue :=
        if subscribeCopy.acceptField = [] then acceptAllTypes else subscribeCopy.acceptField
      ({ succeeded := true
         isNew := true
         isSubscriptionExpired := expiration == 0
         subscribeDialogHandle := dialogHandle
         resourceId, eventTypeKey, eventType
         response := .accepted expiration },
        insertState
          { mgr with
            dialogMgr := mgr.dialogMgr.createDialog subscribeCopy.dialogMessage false dialogHandle }
          { dialogHandle, resourceId, eventTypeKey, eventType, acceptHeaderValue, expirationDate
            lastSubscribeRequest := subscribeCopy })
    else
      ({ subscribeDialogHandle := m.getDialogHandle
         response := .tooBrief mgr.times.minExpiration }, mgr)
  else if renews mgr.times expiration then
    let mgr :=
      { mgr with dialogMgr := mgr.dialogMgr.updateDialog m.dialogMessage m.getDialogHandle }
    match mgr.find m.getDialogHandle with
    | some state =>
      ({ succeeded := true
         isSubscriptionExpired := false
         subscribeDialogHandle := m.getDialogHandle
         resourceId := state.resourceId
         eventTypeKey := state.eventTypeKey
         eventType := state.eventType
         response := .accepted expiration },
        mgr.updateState state.serial fun state =>
          { state with
            expirationDate, lastSubscribeRequest := m, acceptHeaderValue := m.acceptField })
    | none =>
      ({ subscribeDialogHandle := m.getDialogHandle, response := .badSubscription }, mgr)
  else
    ({ isSubscriptionExpired := mgr.isExpired m.getDialogHandle now
       subscribeDialogHandle := m.getDialogHandle
       response := .tooBrief mgr.times.minExpiration }, mgr)

/-- The data of a subscription that `insertDialogInfo` gets besides the request. -/
structure SubscriptionRow where
  resourceId : Text
  eventTypeKey : Text
  eventType : Text
  expires : Int32
  notifyCSeq : Int32
  version : Int32
deriving DecidableEq

/-- What `insertDialogInfo` does for a subscription that is not there. -/
def insertRow (mgr : SipSubscriptionMgr) (m : SubscribeRequest) (row : SubscriptionRow) :
    SipSubscriptionMgr :=
  let dialogHandle := m.getDialogHandle
  let dialogMgr := mgr.dialogMgr.createDialog m.dialogMessage false dialogHandle
  insertState
    { mgr with dialogMgr := dialogMgr.setNextLocalCseq dialogHandle row.notifyCSeq }
    { dialogHandle
      resourceId := row.resourceId
      eventTypeKey := row.eventTypeKey
      eventType := row.eventType
      acceptHeaderValue := m.acceptField
      expirationDate := UInt64.ofInt row.expires.toInt
      dialogVer := row.version
      lastSubscribeRequest := m }

/-- `insertDialogInfo`, with the handle that it gives to its caller, whether the subscription is
new, and the manager.  It gives no handle for a new subscription of an established dialog. -/
def insertDialogInfo (mgr : SipSubscriptionMgr) (m : SubscribeRequest) (row : SubscriptionRow)
    (toTag : Text) : Option Text × Bool × SipSubscriptionMgr :=
  if SipDialog.isEarlyHandle m.getDialogHandle then
    let subscribeCopy := m.setToFieldTag toTag
    (some subscribeCopy.getDialogHandle, true, mgr.insertRow subscribeCopy row)
  else
    let dialogHandle := m.getDialogHandle
    let mgr := { mgr with dialogMgr := mgr.dialogMgr.updateDialog m.dialogMessage dialogHandle }
    match mgr.find dialogHandle with
    | some state =>
      (some dialogHandle, false,
        updateState
          { mgr with dialogMgr := mgr.dialogMgr.setNextLocalCseq dialogHandle row.notifyCSeq }
          state.serial fun state =>
            { state with
              expirationDate := UInt64.ofInt row.expires.toInt
              dialogVer := row.version
              lastSubscribeRequest := m
              acceptHeaderValue := m.acceptField })
    | none => (none, true, mgr.insertRow m row)

/-- The state and the entry of the index are taken out. -/
def removeReferences (mgr : SipSubscriptionMgr) (state : SubscriptionServerState)
    (stateIndex : SubscriptionServerStateIndex) : SipSubscriptionMgr :=
  { mgr with
    statesByDialogHandle := mgr.statesByDialogHandle.eraseP (·.serial == state.serial)
    stateResourceIndex := mgr.stateResourceIndex.eraseP (·.serial == stateIndex.serial) }

/-- The dialog is taken out. -/
def deleteDialog (mgr : SipSubscriptionMgr) (dialogHandle : Text) : SipSubscriptionMgr :=
  { mgr with dialogMgr := mgr.dialogMgr.deleteDialog dialogHandle }

/-- The entry of the resource index that belongs to a state. -/
def findIndex (mgr : SipSubscriptionMgr) (state : SubscriptionServerState) :
    Option SubscriptionServerStateIndex :=
  mgr.stateResourceIndex.find? fun stateIndex =>
    stateIndex.contentKey == contentKey state.resourceId state.eventTypeKey &&
      stateIndex.state == some state.serial

/-- `endSubscription`, and whether the subscription was found.  The dialog is deleted in any
case. -/
def endSubscription (mgr : SipSubscriptionMgr) (dialogHandle : Text) : Bool × SipSubscriptionMgr :=
  match (mgr.find dialogHandle).bind fun state => (mgr.findIndex state).map (state, ·) with
  | some (state, stateIndex) =>
    (true, (mgr.removeReferences state stateIndex).deleteDialog dialogHandle)
  | none => (false, mgr.deleteDialog dialogHandle)

/-- The state that an entry of the index points to. -/
def deref (mgr : SipSubscriptionMgr) (stateIndex : SubscriptionServerStateIndex) :
    Option SubscriptionServerState :=
  stateIndex.state.bind fun serial => mgr.statesByDialogHandle.find? (·.serial == serial)

/-- One entry of the index in `removeOldSubscriptions`. -/
def removeOld (oldEpochTimeSeconds : UInt64) (mgr : SipSubscriptionMgr)
    (stateIndex : SubscriptionServerStateIndex) : SipSubscriptionMgr :=
  if stateIndex.state = none then
    { mgr with
      stateResourceIndex := mgr.stateResourceIndex.eraseP (·.serial == stateIndex.serial) }
  else
    match mgr.deref stateIndex with
    | some state =>
      if state.expirationDate < oldEpochTimeSeconds then
        (mgr.deleteDialog state.dialogHandle).removeReferences state stateIndex
      else mgr
    | none => mgr

def removeOldSubscriptions (mgr : SipSubscriptionMgr) (oldEpochTimeSeconds : UInt64) :
    SipSubscriptionMgr :=
  mgr.stateResourceIndex.foldl (removeOld oldEpochTimeSeconds) mgr

/-! ## Runs -/

/-- What happens to the manager. -/
inductive Event where
  | updateDialogInfo (m : SubscribeRequest) (rand : Nat) (toTag : Text) (now : UInt64)
  | insertDialogInfo (m : SubscribeRequest) (row : SubscriptionRow) (toTag : Text)
  | endSubscription (dialogHandle : Text)
  | removeOldSubscriptions (oldEpochTimeSeconds : UInt64)
  | setSubscriptionTimes (times : SubscriptionTimes)
  | resize (dialogs : List SipDialog) (states : List SubscriptionServerState)
      (index : List SubscriptionServerStateIndex)

def step (getKeys : SubscribeRequest → Text × Text × Text) (mgr : SipSubscriptionMgr) :
    Event → SipSubscriptionMgr
  | .updateDialogInfo m rand toTag now => (updateDialogInfo getKeys mgr m rand toTag now).2
  | .insertDialogInfo m row toTag => (mgr.insertDialogInfo m row toTag).2.2
  | .endSubscription dialogHandle => (mgr.endSubscription dialogHandle).2
  | .removeOldSubscriptions oldEpochTimeSeconds => mgr.removeOldSubscriptions oldEpochTimeSeconds
  | .setSubscriptionTimes times => { mgr with times }
  | .resize dialogs states index =>
    { mgr with
      dialogMgr := { dialogs }, statesByDialogHandle := states, stateResourceIndex := index }

/-- The exact lookup of the dialog manager takes a dialog for that of a handle. -/
def IsDialogOf (d : SipDialog) (dialogHandle : Text) : Prop :=
  (d.callId == (SipDialog.parseHandle dialogHandle).callId &&
    d.isSameDialog (SipDialog.parseHandle dialogHandle)) = true

/-- The table and the index hold the same subscriptions, each once, and each has a dialog, that
of no other subscription. -/
structure Consistent (mgr : SipSubscriptionMgr) : Prop where
  sameSubscriptions : (mgr.stateResourceIndex.map SubscriptionServerStateIndex.state).Perm
    (mgr.statesByDialogHandle.map fun state => some state.serial)
  eachOnce : (mgr.statesByDialogHandle.map SubscriptionServerState.serial).Nodup
  ownDialog : ∀ state ∈ mgr.statesByDialogHandle,
    ∃ d ∈ mgr.dialogMgr.dialogs, IsDialogOf d state.dialogHandle
  noneShared : ∀ d ∈ mgr.dialogMgr.dialogs, ∀ state ∈ mgr.statesByDialogHandle,
    ∀ state' ∈ mgr.statesByDialogHandle, IsDialogOf d state.dialogHandle →
      IsDialogOf d state'.dialogHandle → state = state'

/-- The end of the subscription with a handle leaves the dialogs of all others. -/
def Spares (mgr : SipSubscriptionMgr) (dialogHandle : Text) : Prop :=
  ∀ state ∈ mgr.statesByDialogHandle, state.dialogHandle ≠ dialogHandle →
    ∀ d ∈ mgr.dialogMgr.dialogs, IsDialogOf d state.dialogHandle →
      d ∈ (mgr.endSubscription dialogHandle).2.dialogMgr.dialogs

/-- The request is that of a dialog that is not there yet, and its Call-Id and From tag can be
parts of a handle. -/
def Fresh (mgr : SipSubscriptionMgr) (m : SubscribeRequest) : Prop :=
  dialogHandleSeparator ∉ m.callId ∧ dialogHandleSeparator ∉ m.dialogMessage.fromTag ∧
    mgr.dialogMgr.dialogExists m.getDialogHandle = false

/-- The dialog that an update finds for the handle, if any, has a remote tag or a CSeq. -/
def FindsStarted (mgr : SipSubscriptionMgr) (dialogHandle : Text) : Prop :=
  ((mgr.dialogMgr.findDialog (SipDialog.parseHandle dialogHandle) true false).bind
    (mgr.dialogMgr.dialogs[·]?)).all (fun d => d.remoteTag != [] || d.lastRemoteCseq != -1) = true

/-- The subscription is there, or no dialog at all is found for its handle. -/
def EndsOwn (mgr : SipSubscriptionMgr) (dialogHandle : Text) : Prop :=
  (mgr.find dialogHandle).isSome = true ∨
    mgr.dialogMgr.findDialog (SipDialog.parseHandle dialogHandle) true true = none

/-- The events that keep the three places together. -/
def Allowed (mgr : SipSubscriptionMgr) : Event → Prop
  | .updateDialogInfo m rand toTag _ =>
    let expiration := calculatedExpiration mgr.times m.expires rand
    if SipDialog.isEarlyHandle m.getDialogHandle then
      opens mgr.times expiration = true → mgr.Fresh (m.setToFieldTag toTag)
    else renews mgr.times expiration = true → mgr.FindsStarted m.getDialogHandle
  | .insertDialogInfo m _ toTag =>
    if SipDialog.isEarlyHandle m.getDialogHandle then mgr.Fresh (m.setToFieldTag toTag)
    else mgr.FindsStarted m.getDialogHandle ∧ (mgr.find m.getDialogHandle = none → mgr.Fresh m)
  | .endSubscription dialogHandle => mgr.EndsOwn dialogHandle
  | .removeOldSubscriptions _ => True
  | .setSubscriptionTimes _ => True
  | .resize dialogs states index =>
    dialogs.Perm mgr.dialogMgr.dialogs ∧ states.Perm mgr.statesByDialogHandle ∧
      index.Perm mgr.stateResourceIndex

/-! ## The invariant -/

/-- The key of the dialog that a subscription is for. -/
def dialogKey (state : SubscriptionServerState) : Text × Sym2 Text :=
  (SipDialog.parseHandle state.dialogHandle).key

/-- What every operation keeps. -/
structure Inv (mgr : SipSubscriptionMgr) : Prop where
  numbered : (mgr.statesByDialogHandle.map SubscriptionServerState.serial).Nodup
  bounded : ∀ state ∈ mgr.statesByDialogHandle, state.serial < mgr.created
  paired : (mgr.stateResourceIndex.map SubscriptionServerStateIndex.serial).Perm
    (mgr.statesByDialogHandle.map SubscriptionServerState.serial)
  pointed : ∀ stateIndex ∈ mgr.stateResourceIndex, stateIndex.state = some stateIndex.serial
  indexed : ∀ stateIndex ∈ mgr.stateResourceIndex, ∀ state ∈ mgr.statesByDialogHandle,
    stateIndex.serial = state.serial →
      stateIndex.contentKey = contentKey state.resourceId state.eventTypeKey
  owned : ∀ state ∈ mgr.statesByDialogHandle, dialogKey state ∈ mgr.dialogMgr.keys
  apart : (mgr.statesByDialogHandle.map dialogKey).Nodup
  remote : ∀ d ∈ mgr.dialogMgr.dialogs, d.localInitiatedDialog = false

variable {mgr : SipSubscriptionMgr}

theorem Inv.consistent (h : mgr.Inv) : mgr.Consistent where
  sameSubscriptions := by
    have hstate : mgr.stateResourceIndex.map SubscriptionServerStateIndex.state =
        mgr.stateResourceIndex.map fun stateIndex => some stateIndex.serial :=
      map_congr_left h.pointed
    have hpaired := h.paired.map some
    rw [map_map, map_map] at hpaired
    rw [hstate]
    exact hpaired
  eachOnce := h.numbered
  ownDialog state hstate := by
    obtain ⟨d, hd, hkey⟩ := mem_map.mp (h.owned state hstate)
    exact ⟨d, hd, SipDialog.isSame_iff_key.mpr hkey⟩
  noneShared d _ state hstate state' hstate' hd hd' := by
    have hkey : dialogKey state = dialogKey state' :=
      (SipDialog.isSame_iff_key.mp hd).symm.trans (SipDialog.isSame_iff_key.mp hd')
    exact inj_on_of_nodup_map h.apart hstate hstate' hkey

theorem Inv.withDialogs (h : mgr.Inv) (hkeys : dialogMgr.keys = mgr.dialogMgr.keys)
    (hremote : ∀ d ∈ dialogMgr.dialogs, d.localInitiatedDialog = false) :
    { mgr with dialogMgr }.Inv :=
  { h with
    owned := fun state hstate => hkeys ▸ h.owned state hstate
    remote := hremote }

/-- A state may be changed as long as its keys stay. -/
theorem Inv.updateState (h : mgr.Inv) {serial : Nat}
    {f : SubscriptionServerState → SubscriptionServerState}
    (hf : ∀ state, (f state).serial = state.serial ∧ (f state).dialogHandle = state.dialogHandle ∧
      (f state).resourceId = state.resourceId ∧ (f state).eventTypeKey = state.eventTypeKey) :
    (mgr.updateState serial f).Inv := by
  have hmap {β : Type} (g : SubscriptionServerState → β) (hg : ∀ state, g (f state) = g state) :
      (mgr.updateState serial f).statesByDialogHandle.map g = mgr.statesByDialogHandle.map g := by
    rw [SipSubscriptionMgr.updateState, map_map]
    refine map_congr_left fun state _ => ?_
    show g (if state.serial = serial then f state else state) = g state
    split
    · exact hg state
    · rfl
  have hserial := hmap SubscriptionServerState.serial fun state => (hf state).1
  have hkey := hmap dialogKey fun state => by rw [dialogKey, dialogKey, (hf state).2.1]
  have hmem {state : SubscriptionServerState}
      (hstate : state ∈ (mgr.updateState serial f).statesByDialogHandle) :
      ∃ state' ∈ mgr.statesByDialogHandle, state.serial = state'.serial ∧
        state.dialogHandle = state'.dialogHandle ∧ state.resourceId = state'.resourceId ∧
        state.eventTypeKey = state'.eventTypeKey := by
    obtain ⟨state', hstate', rfl⟩ := mem_map.mp hstate
    refine ⟨state', hstate', ?_⟩
    split
    · exact hf state'
    · exact ⟨rfl, rfl, rfl, rfl⟩
  constructor
  · rw [hserial]
    exact h.numbered
  · intro state hstate
    obtain ⟨state', hstate', hnumber, -⟩ := hmem hstate
    exact hnumber ▸ h.bounded state' hstate'
  · rw [hserial]
    exact h.paired
  · exact h.pointed
  · intro stateIndex hindex state hstate hnumber
    obtain ⟨state', hstate', hnumber', -, hresourceId, heventTypeKey⟩ := hmem hstate
    rw [hresourceId, heventTypeKey]
    exact h.indexed stateIndex hindex state' hstate' (hnumber.trans hnumber')
  · intro state hstate
    obtain ⟨state', hstate', -, hhandle, -⟩ := hmem hstate
    rw [dialogKey, hhandle]
    exact h.owned state' hstate'
  · rw [hkey]
    exact h.apart
  · exact h.remote

/-- A new subscription keeps the three indices consistent. -/
theorem Inv.insertState (h : mgr.Inv)
    (hkeys : dialogMgr.keys = dialogKey state :: mgr.dialogMgr.keys)
    (hnew : dialogKey state ∉ mgr.dialogMgr.keys)
    (hremote : ∀ d ∈ dialogMgr.dialogs, d.localInitiatedDialog = false) :
    (insertState { mgr with dialogMgr } state).Inv where
  numbered := by
    refine nodup_cons.mpr ⟨fun hmem => ?_, h.numbered⟩
    obtain ⟨state', hstate', hnumber⟩ := mem_map.mp hmem
    exact (h.bounded state' hstate').ne hnumber
  bounded state' hstate' := by
    obtain rfl | hstate' := mem_cons.mp hstate'
    · exact Nat.lt_succ_self _
    · exact Nat.lt_succ_of_lt (h.bounded state' hstate')
  paired := h.paired.cons _
  pointed stateIndex hindex := by
    obtain rfl | hindex := mem_cons.mp hindex
    · rfl
    · exact h.pointed stateIndex hindex
  indexed stateIndex hindex state' hstate' hnumber := by
    have hbound {stateIndex : SubscriptionServerStateIndex}
        (hindex : stateIndex ∈ mgr.stateResourceIndex) : stateIndex.serial < mgr.created := by
      obtain ⟨state'', hstate'', heq⟩ := mem_map.mp
        (h.paired.subset (mem_map_of_mem hindex))
      exact heq ▸ h.bounded state'' hstate''
    obtain rfl | hindex := mem_cons.mp hindex
    · obtain rfl | hstate' := mem_cons.mp hstate'
      · rfl
      · exact absurd hnumber.symm (h.bounded state' hstate').ne
    · obtain rfl | hstate' := mem_cons.mp hstate'
      · exact absurd hnumber (hbound hindex).ne
      · exact h.indexed stateIndex hindex state' hstate' hnumber
  owned state' hstate' := by
    show dialogKey state' ∈ dialogMgr.keys
    rw [hkeys]
    obtain rfl | hstate' := mem_cons.mp hstate'
    · exact mem_cons_self
    · exact mem_cons_of_mem _ (h.owned state' hstate')
  apart := by
    refine nodup_cons.mpr ⟨fun hmem => hnew ?_, h.apart⟩
    obtain ⟨state', hstate', hkey⟩ := mem_map.mp hmem
    exact (show dialogKey state' = dialogKey state from hkey) ▸ h.owned state' hstate'
  remote := hremote

/-- An object goes with its number. -/
theorem map_eraseP {α : Type} (serial : α → Nat) (l : List α) (n : Nat) :
    (l.eraseP (serial · == n)).map serial = (l.map serial).erase n := by
  rw [erase_eq_eraseP', eraseP_map]
  rfl

/-- Removing a subscription keeps the three indices consistent. -/
theorem Inv.remove (h : mgr.Inv)
    {stateIndex : SubscriptionServerStateIndex} (hstate : state ∈ mgr.statesByDialogHandle)
    (hserial : stateIndex.serial = state.serial) :
    ((mgr.deleteDialog state.dialogHandle).removeReferences state stateIndex).Inv := by
  have hstates : ((mgr.deleteDialog state.dialogHandle).removeReferences state
      stateIndex).statesByDialogHandle.map SubscriptionServerState.serial =
        (mgr.statesByDialogHandle.map SubscriptionServerState.serial).erase state.serial :=
    map_eraseP _ _ _
  have hindex : ((mgr.deleteDialog state.dialogHandle).removeReferences state
      stateIndex).stateResourceIndex.map SubscriptionServerStateIndex.serial =
        (mgr.stateResourceIndex.map SubscriptionServerStateIndex.serial).erase state.serial :=
    hserial ▸ map_eraseP _ _ _
  have hsub := eraseP_sublist (l := mgr.statesByDialogHandle)
    (p := fun s => s.serial == state.serial)
  constructor
  · rw [hstates]
    exact h.numbered.erase _
  · exact fun state' hstate' => h.bounded state' (hsub.subset hstate')
  · rw [hstates, hindex]
    exact h.paired.erase _
  · exact fun stateIndex' hindex' => h.pointed stateIndex' (eraseP_subset hindex')
  · exact fun stateIndex' hindex' state' hstate' =>
      h.indexed stateIndex' (eraseP_subset hindex') state' (hsub.subset hstate')
  · intro state' hstate'
    have hne : dialogKey state' ≠ dialogKey state := by
      intro heq
      have hsame := inj_on_of_nodup_map h.apart (hsub.subset hstate') hstate heq
      have hleft := mem_map_of_mem (f := SubscriptionServerState.serial) hstate'
      rw [hstates, hsame] at hleft
      exact h.numbered.not_mem_erase hleft
    obtain ⟨d, hd, hkey⟩ := mem_map.mp (h.owned state' (hsub.subset hstate'))
    refine mem_map.mpr ⟨d, ?_, hkey⟩
    exact SipDialogMgr.mem_deleteDialog (h.owned state hstate) hd (hkey ▸ hne)
  · exact h.apart.sublist (hsub.map _)
  · exact fun d hd => h.remote d (SipDialogMgr.deleteDialog_subset hd)

theorem Inv.resize (h : mgr.Inv) {dialogs : List SipDialog} {states : List SubscriptionServerState}
    {index : List SubscriptionServerStateIndex} (hdialogs : dialogs.Perm mgr.dialogMgr.dialogs)
    (hstates : states.Perm mgr.statesByDialogHandle) (hindex : index.Perm mgr.stateResourceIndex) :
    Inv { mgr with
      dialogMgr := { dialogs }, statesByDialogHandle := states, stateResourceIndex := index } where
  numbered := (hstates.map _).nodup_iff.mpr h.numbered
  bounded state hstate := h.bounded state (hstates.subset hstate)
  paired := (hindex.map _).trans (h.paired.trans (hstates.map _).symm)
  pointed stateIndex hmem := h.pointed stateIndex (hindex.subset hmem)
  indexed stateIndex hmem state hstate :=
    h.indexed stateIndex (hindex.subset hmem) state (hstates.subset hstate)
  owned state hstate :=
    (hdialogs.map SipDialog.key).symm.subset (h.owned state (hstates.subset hstate))
  apart := (hstates.map _).nodup_iff.mpr h.apart
  remote d hd := h.remote d (hdialogs.subset hd)

/-! ## The operations -/

theorem getDialogHandle_ne_nil (m : SubscribeRequest) : m.getDialogHandle ≠ [] :=
  fun h => cons_ne_nil _ _ (append_eq_nil_iff.mp h).2

theorem keys_of_fresh (hfresh : mgr.Fresh m) :
    (SipDialog.parseHandle m.getDialogHandle).key ∉ mgr.dialogMgr.keys ∧
      mgr.dialogMgr.createDialog m.dialogMessage false m.getDialogHandle =
        { dialogs := SipDialog.ofMessage m.dialogMessage false :: mgr.dialogMgr.dialogs } ∧
      (SipDialog.ofMessage m.dialogMessage false).key =
        (SipDialog.parseHandle m.getDialogHandle).key := by
  obtain ⟨hcallId, hfromTag, hexists⟩ := hfresh
  have hnew : (SipDialog.parseHandle m.getDialogHandle).key ∉ mgr.dialogMgr.keys := fun hmem =>
    Bool.false_ne_true (hexists.symm.trans (SipDialogMgr.dialogExists_iff.mpr hmem))
  refine ⟨hnew, SipDialogMgr.createDialog_of_not_exists (getDialogHandle_ne_nil m) hnew, ?_⟩
  rw [SubscribeRequest.getDialogHandle, SipDialog.parseHandle_getDialogHandle hcallId hfromTag]
  exact SipDialog.key_ofMessage rfl

theorem remote_modify (h : mgr.Inv) {place : Option Nat} {f : SipDialog → SipDialog}
    (hf : ∀ i d, place = some i → mgr.dialogMgr.dialogs[i]? = some d →
      (f d).localInitiatedDialog = d.localInitiatedDialog) :
    ∀ d ∈ (mgr.dialogMgr.modify place f).dialogs, d.localInitiatedDialog = false := by
  intro d hd
  obtain hd | ⟨i, d', hplace, hd', rfl⟩ := SipDialogMgr.mem_modify hd
  · exact h.remote d hd
  · exact (hf i d' hplace hd').trans (h.remote d' (mem_of_getElem? hd'))

theorem remote_ofMessage (h : mgr.Inv) (m : SubscribeRequest) :
    ∀ d ∈ SipDialog.ofMessage m.dialogMessage false :: mgr.dialogMgr.dialogs,
      d.localInitiatedDialog = false := by
  intro d hd
  obtain rfl | hd := mem_cons.mp hd
  · exact SipDialog.ofMessage_remote rfl
  · exact h.remote d hd

/-- A new subscription of a `SUBSCRIBE`. -/
theorem Inv.insertNew (h : mgr.Inv) (hfresh : mgr.Fresh m)
    (state : SubscriptionServerState) (hhandle : state.dialogHandle = m.getDialogHandle) :
    (SipSubscriptionMgr.insertState
      { mgr with
        dialogMgr := mgr.dialogMgr.createDialog m.dialogMessage false m.getDialogHandle }
      state).Inv := by
  obtain ⟨hnew, hcreate, hkey⟩ := keys_of_fresh hfresh
  rw [← hhandle] at hnew hkey
  rw [hcreate]
  refine h.insertState ?_ hnew (remote_ofMessage h m)
  exact congrArg (· :: mgr.dialogMgr.keys) hkey

theorem Inv.insertRow (h : mgr.Inv) (hfresh : mgr.Fresh m)
    (row : SubscriptionRow) : (mgr.insertRow m row).Inv := by
  have hinserted := h.insertNew hfresh
    { dialogHandle := m.getDialogHandle
      resourceId := row.resourceId
      eventTypeKey := row.eventTypeKey
      eventType := row.eventType
      acceptHeaderValue := m.acceptField
      expirationDate := UInt64.ofInt row.expires.toInt
      dialogVer := row.version
      lastSubscribeRequest := m } rfl
  exact hinserted.withDialogs SipDialogMgr.keys_setNextLocalCseq
    (remote_modify hinserted fun i d _ _ => SipDialog.setNextLocalCseq_remote)

theorem Inv.identity_found (h : mgr.Inv)
    (hstarted : mgr.FindsStarted m.getDialogHandle) (i : Nat) (d : SipDialog)
    (hi : mgr.dialogMgr.findDialog (SipDialog.parseHandle m.getDialogHandle) true false = some i)
    (hd : mgr.dialogMgr.dialogs[i]? = some d) :
    (d.updateDialogData m.dialogMessage).identity = d.identity := by
  refine SipDialog.identity_updateDialogData (h.remote d (mem_of_getElem? hd)) rfl ?_
  simpa [FindsStarted, hi, hd] using hstarted

theorem updateDialog_eq (dialogMgr : SipDialogMgr) (m : SubscribeRequest) :
    dialogMgr.updateDialog m.dialogMessage m.getDialogHandle = dialogMgr.modify
        (dialogMgr.findDialog (SipDialog.parseHandle m.getDialogHandle) true false)
        (·.updateDialogData m.dialogMessage) := by
  rw [SipDialogMgr.updateDialog, if_neg (getDialogHandle_ne_nil m)]

theorem Inv.keys_updateDialog (h : mgr.Inv) (hstarted : mgr.FindsStarted m.getDialogHandle) :
    (mgr.dialogMgr.updateDialog m.dialogMessage m.getDialogHandle).keys = mgr.dialogMgr.keys := by
  rw [updateDialog_eq]
  exact SipDialogMgr.keys_modify fun i d hi hd =>
    SipDialog.key_of_identity (h.identity_found hstarted i d hi hd)

theorem Inv.updateDialog (h : mgr.Inv)
    (hstarted : mgr.FindsStarted m.getDialogHandle) : Inv { mgr with
      dialogMgr := mgr.dialogMgr.updateDialog m.dialogMessage m.getDialogHandle } := by
  refine h.withDialogs (h.keys_updateDialog hstarted) ?_
  rw [updateDialog_eq]
  exact remote_modify h fun i d hi hd =>
    congrArg (·.2.2.2) (h.identity_found hstarted i d hi hd)

/-- A subscription is as new as before. -/
theorem Fresh.of_keys (hfresh : mgr.Fresh m)
    (hkeys : dialogMgr.keys = mgr.dialogMgr.keys) : Fresh { mgr with dialogMgr } m := by
  refine ⟨hfresh.1, hfresh.2.1, Bool.eq_false_iff.mpr fun hexists => ?_⟩
  refine Bool.false_ne_true (hfresh.2.2.symm.trans (SipDialogMgr.dialogExists_iff.mpr ?_))
  exact hkeys ▸ SipDialogMgr.dialogExists_iff.mp hexists

theorem mem_of_find (hfind : mgr.find dialogHandle = some state) :
    state ∈ mgr.statesByDialogHandle ∧ state.dialogHandle = dialogHandle := by
  have htest := find?_some hfind
  exact ⟨mem_of_find?_eq_some hfind, eq_of_beq htest⟩

theorem Inv.findIndex (h : mgr.Inv) (hstate : state ∈ mgr.statesByDialogHandle) :
    ∃ stateIndex, mgr.findIndex state = some stateIndex ∧ stateIndex.serial = state.serial := by
  obtain ⟨stateIndex, hindex, hserial⟩ :=
    mem_map.mp (h.paired.symm.subset (mem_map_of_mem hstate))
  have hsome : (mgr.findIndex state).isSome = true := by
    refine find?_isSome.mpr ⟨stateIndex, hindex, ?_⟩
    rw [h.indexed stateIndex hindex state hstate hserial, h.pointed stateIndex hindex, hserial]
    simp
  obtain ⟨found, hfound⟩ := Option.isSome_iff_exists.mp hsome
  have htest := find?_some hfound
  rw [Bool.and_eq_true, beq_iff_eq, beq_iff_eq,
    h.pointed found (mem_of_find?_eq_some hfound)] at htest
  exact ⟨found, hfound, Option.some_injective _ htest.2⟩

theorem Inv.endSubscription_of_find (h : mgr.Inv) (hfind : mgr.find dialogHandle = some state) :
    ∃ stateIndex, stateIndex.serial = state.serial ∧ mgr.endSubscription dialogHandle =
      (true, (mgr.deleteDialog state.dialogHandle).removeReferences state stateIndex) := by
  obtain ⟨hstate, rfl⟩ := mem_of_find hfind
  obtain ⟨stateIndex, hindex, hserial⟩ := h.findIndex hstate
  refine ⟨stateIndex, hserial, ?_⟩
  simp only [SipSubscriptionMgr.endSubscription, hfind, hindex, Option.bind_some, Option.map_some]
  rfl

theorem endSubscription_of_none (hfind : mgr.find dialogHandle = none) :
    mgr.endSubscription dialogHandle = (false, mgr.deleteDialog dialogHandle) := by
  simp only [endSubscription, hfind, Option.bind_none]

theorem deleteDialog_of_none
    (hnone : mgr.dialogMgr.findDialog (SipDialog.parseHandle dialogHandle) true true = none) :
    mgr.deleteDialog dialogHandle = mgr := by
  rw [deleteDialog, SipDialogMgr.deleteDialog, hnone]

/-- Without a subscription nothing is ended. -/
theorem EndsOwn.endSubscription_eq (hends : mgr.EndsOwn dialogHandle)
    (hfind : mgr.find dialogHandle = none) : (mgr.endSubscription dialogHandle).2 = mgr := by
  obtain hsome | hnone := hends
  · rw [hfind] at hsome
    exact absurd hsome Bool.noConfusion
  · rw [endSubscription_of_none hfind, deleteDialog_of_none hnone]

theorem Inv.endSubscription (h : mgr.Inv) (hends : mgr.EndsOwn dialogHandle) :
    (mgr.endSubscription dialogHandle).2.Inv := by
  cases hfind : mgr.find dialogHandle with
  | some state =>
    obtain ⟨stateIndex, hserial, hend⟩ := h.endSubscription_of_find hfind
    rw [hend]
    exact h.remove (mem_of_find hfind).1 hserial
  | none =>
    rw [hends.endSubscription_eq hfind]
    exact h

/-- **An ending** takes no dialog but that of the subscription with the handle. -/
theorem Inv.spares (h : mgr.Inv) (hends : mgr.EndsOwn dialogHandle) : mgr.Spares dialogHandle := by
  intro state hstate hother d hd hof
  cases hfind : mgr.find dialogHandle with
  | some ended =>
    obtain ⟨stateIndex, -, hend⟩ := h.endSubscription_of_find hfind
    obtain ⟨hended, rfl⟩ := mem_of_find hfind
    have hkey : d.key = dialogKey state := SipDialog.isSame_iff_key.mp hof
    rw [hend]
    refine SipDialogMgr.mem_deleteDialog (h.owned ended hended) hd fun heq => hother ?_
    have hsame : dialogKey state = dialogKey ended := hkey.symm.trans heq
    rw [inj_on_of_nodup_map h.apart hstate hended hsame]
  | none =>
    rw [hends.endSubscription_eq hfind]
    exact hd

theorem Inv.removeOld (h : mgr.Inv) (oldEpochTimeSeconds : UInt64)
    {stateIndex : SubscriptionServerStateIndex}
    (hpointed : stateIndex.state = some stateIndex.serial) :
    (removeOld oldEpochTimeSeconds mgr stateIndex).Inv := by
  rw [SipSubscriptionMgr.removeOld, if_neg (by simp [hpointed])]
  cases hderef : mgr.deref stateIndex with
  | none => exact h
  | some state =>
    rw [deref, hpointed, Option.bind_some] at hderef
    have htest := find?_some hderef
    have hserial : state.serial = stateIndex.serial := eq_of_beq htest
    show Inv (if _ then _ else _)
    split
    · exact h.remove (mem_of_find?_eq_some hderef) hserial.symm
    · exact h

theorem Inv.removeOldSubscriptions (h : mgr.Inv) (oldEpochTimeSeconds : UInt64) :
    (mgr.removeOldSubscriptions oldEpochTimeSeconds).Inv := by
  have hall := h.pointed
  rw [SipSubscriptionMgr.removeOldSubscriptions]
  generalize mgr.stateResourceIndex = index at hall
  induction index generalizing mgr with
  | nil => exact h
  | cons stateIndex index ih =>
    exact ih (h.removeOld oldEpochTimeSeconds (hall stateIndex mem_cons_self))
      fun stateIndex' hmem => hall stateIndex' (mem_cons_of_mem _ hmem)

/-- **One event** keeps the invariant. -/
theorem Inv.step {getKeys : SubscribeRequest → Text × Text × Text} (h : mgr.Inv) {e : Event}
    (hallowed : mgr.Allowed e) : (mgr.step getKeys e).Inv := by
  cases e with
  | updateDialogInfo m rand toTag now =>
    simp only [Allowed] at hallowed
    simp only [SipSubscriptionMgr.step, updateDialogInfo]
    split at hallowed
    next hearly =>
      rw [if_pos hearly]
      split
      next hopens => exact h.insertNew (hallowed hopens) _ rfl
      next => exact h
    next hearly =>
      rw [if_neg hearly]
      split
      next hrenews =>
        have hupdated := h.updateDialog (hallowed hrenews)
        split
        next => exact hupdated.updateState fun state => ⟨rfl, rfl, rfl, rfl⟩
        next => exact hupdated
      next => exact h
  | insertDialogInfo m row toTag =>
    simp only [Allowed] at hallowed
    simp only [SipSubscriptionMgr.step, SipSubscriptionMgr.insertDialogInfo]
    split at hallowed
    next hearly =>
      rw [if_pos hearly]
      exact h.insertRow hallowed row
    next hearly =>
      rw [if_neg hearly]
      have hupdated := h.updateDialog hallowed.1
      split
      next =>
        refine Inv.updateState (hupdated.withDialogs SipDialogMgr.keys_setNextLocalCseq
          (remote_modify hupdated fun i d _ _ => SipDialog.setNextLocalCseq_remote)) fun state => ?_
        exact ⟨rfl, rfl, rfl, rfl⟩
      next hnone =>
        have hfresh := hallowed.2 hnone
        exact hupdated.insertRow (hfresh.of_keys (h.keys_updateDialog hallowed.1)) row
  | endSubscription dialogHandle => exact h.endSubscription hallowed
  | removeOldSubscriptions oldEpochTimeSeconds => exact h.removeOldSubscriptions _
  | setSubscriptionTimes times => exact { h with }
  | resize dialogs states index => exact h.resize hallowed.1 hallowed.2.1 hallowed.2.2

theorem inv_start : Inv {} where
  numbered := nodup_nil
  bounded _ h := absurd h not_mem_nil
  paired := Perm.nil
  pointed _ h := absurd h not_mem_nil
  indexed _ h := absurd h not_mem_nil
  owned _ h := absurd h not_mem_nil
  apart := nodup_nil
  remote _ h := absurd h not_mem_nil

/-- **When the store is kept together**: in every state of a run of allowed events the table
and the index hold the same subscriptions, each with its own dialog, and no ending takes the
dialog of another one. -/
theorem consistent_of_allAllowed {getKeys : SubscribeRequest → Text × Text × Text}
    {es : List Event} (h : Run.AllAllowed (step getKeys) Allowed {} es) :
    (∀ run, run <+: es → (run.foldl (step getKeys) {}).Consistent) ∧
      ∀ run dialogHandle, run ++ [.endSubscription dialogHandle] <+: es →
        (run.foldl (step getKeys) {}).Spares dialogHandle := by
  have hinv {run : List Event} (hrun : Run.AllAllowed (step getKeys) Allowed {} run) :
      (run.foldl (step getKeys) {}).Inv :=
    hrun.reaches.invariant inv_start fun _ _ hmgr hallowed => hmgr.step hallowed
  constructor
  · rintro run ⟨rest, rfl⟩
    exact (hinv (Run.allAllowed_append.mp h).1).consistent
  · rintro run dialogHandle ⟨rest, rfl⟩
    obtain ⟨hrun, hend⟩ := Run.allAllowed_append.mp (Run.allAllowed_append.mp h).1
    exact (hinv hrun).spares hend.1

/-! ### Two subscriptions of one phone -/

instance (mgr : SipSubscriptionMgr) (m : SubscribeRequest) : Decidable (mgr.Fresh m) :=
  inferInstanceAs (Decidable (_ ∧ _))

instance (mgr : SipSubscriptionMgr) (dialogHandle : Text) : Decidable (mgr.FindsStarted dialogHandle) :=
  inferInstanceAs (Decidable (_ = _))

instance (mgr : SipSubscriptionMgr) (dialogHandle : Text) : Decidable (mgr.EndsOwn dialogHandle) :=
  inferInstanceAs (Decidable (_ ∨ _))

/-- The resource is the Request-URI. -/
def dialogEvents (m : SubscribeRequest) : Text × Text × Text :=
  (m.requestUri, text "dialog", text "dialog")

/-- A phone subscribes to the dialog events of another one, within one call for all. -/
def subscribeTo (extension toTag : String) : Event :=
  .updateDialogInfo
    { requestUri := text ("sip:" ++ extension ++ "@example.com")
      callId := text "1"
      fromField := text "<sip:201@example.com>;tag=a"
      toField := text ("<sip:" ++ extension ++ "@example.com>")
      cSeq := 1
      expires := some 3600 } 0 (text toTag) 0

/-- It subscribes to two others, and the first subscription ends. -/
def firstEnded : List Event :=
  [subscribeTo "202" "b", subscribeTo "203" "c", .endSubscription (text "1,a,b")]

theorem consistent_firstEnded : (firstEnded.foldl (step dialogEvents) {}).Consistent :=
  (consistent_of_allAllowed
    (show Run.AllAllowed (step dialogEvents) Allowed {} firstEnded from
      ⟨fun _ => by decide, fun _ => by decide,
        show EndsOwn _ _ by decide, trivial⟩)).1 firstEnded (prefix_refl _)

def endedTwice : List Event := firstEnded ++ [.endSubscription (text "1,a,b")]

/-- The second subscription has lost its dialog. -/
theorem not_consistent_endedTwice :
    (firstEnded.foldl (step dialogEvents) {}).find (text "1,a,b") = none ∧
      ¬ (endedTwice.foldl (step dialogEvents) {}).Consistent := by
  refine ⟨by decide +kernel, fun h => ?_⟩
  have hstates : 0 < (endedTwice.foldl (step dialogEvents) {}).statesByDialogHandle.length := by
    decide +kernel
  have hdialogs : (endedTwice.foldl (step dialogEvents) {}).dialogMgr.dialogs.length = 0 := by
    decide +kernel
  obtain ⟨d, hd, -⟩ := h.ownDialog _ (getElem_mem hstates)
  rw [eq_nil_of_length_eq_zero hdialogs] at hd
  exact not_mem_nil hd

end SipSubscriptionMgr

end SipXRouter
