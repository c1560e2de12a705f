import Mathlib.Data.List.InsertIdx
import Mathlib.Data.Sym.Sym2
import SipXRouter.Net.SipDialog

/-!
# The dialog manager

`SipDialogMgr` keeps the dialogs of a server.  A dialog is looked up by a handle, a text with
a Call-Id and two tags, first exactly and then, where the caller allows it, by one tag only:
an early dialog for the handle of an established one, and the other way round.

## Design notes

* The dialogs stand in the order in which the iterator of their hash bag gives them, a new
  one before the others.
* A text that is parsed as a handle is taken without the NUL that ends it in C.
-/

namespace SipXRouter

open List

/-- The mark between the parts of a handle, `DIALOG_HANDLE_SEPARATOR`. -/
def dialogHandleSeparator : Byte := byte ','

/-- The parts of a handle. -/
structure DialogHandle where
  callId : Text := []
  localTag : Text := []
  remoteTag : Text := []
deriving DecidableEq

/-- `SipMessage::getDialogHandle`. -/
def DialogMessage.getDialogHandle (m : DialogMessage) : Text :=
  m.callId ++ dialogHandleSeparator :: (m.fromTag ++ dialogHandleSeparator :: m.toTag)

namespace SipDialog

/-- `parseHandle`.  Without a first separator all parts are empty, and without a second one
the tags are. -/
def parseHandle (dialogHandle : Text) : DialogHandle :=
  match dialogHandle.dropWhile (· != dialogHandleSeparator) with
  | [] => {}
  | _ :: tags =>
    let callId := dialogHandle.takeWhile (· != dialogHandleSeparator)
    match tags.dropWhile (· != dialogHandleSeparator) with
    | [] => { callId }
    | _ :: remoteTag =>
      { callId, localTag := tags.takeWhile (· != dialogHandleSeparator), remoteTag }

/-- The static `isEarlyDialog`, of a handle. -/
def isEarlyHandle (handle : Text) : Bool :=
  handle != [] && ((parseHandle handle).localTag == [] || (parseHandle handle).remoteTag == [])

/-- `isSameDialog`: the tags match in one order or the other. -/
def isSameDialog (d : SipDialog) (h : DialogHandle) : Bool :=
  caseEq h.callId d.callId &&
    (caseEq h.localTag d.localTag && caseEq h.remoteTag d.remoteTag ||
      caseEq h.remoteTag d.localTag && caseEq h.localTag d.remoteTag)

/-- Whether a dialog without one of its tags is the early form of a handle. -/
def isEarlyDialogFor (d : SipDialog) (h : DialogHandle) : Bool :=
  if d.localTag = [] then caseEq h.localTag d.remoteTag || caseEq h.remoteTag d.remoteTag
  else if d.remoteTag = [] then caseEq h.localTag d.localTag || caseEq h.remoteTag d.localTag
  else false

/-- `wasEarlyDialogFor`: any tag of the one is a tag of the other. -/
def wasEarlyDialogFor (d : SipDialog) (h : DialogHandle) : Bool :=
  caseEq h.localTag d.remoteTag || caseEq h.remoteTag d.remoteTag ||
    caseEq h.localTag d.localTag || caseEq h.remoteTag d.localTag

def isEarlyDialog (d : SipDialog) : Bool := d.localTag == [] || d.remoteTag == []

end SipDialog

/-- The dialogs that are managed, in the order of the search. -/
structure SipDialogMgr where
  dialogs : List SipDialog := []

namespace SipDialogMgr

/-- `findDialog`, the place of a dialog.  Only dialogs with exactly the Call-Id of the handle
are looked at. -/
def findDialog (mgr : SipDialogMgr) (h : DialogHandle)
    (ifHandleEstablishedFindEarlyDialog ifHandleEarlyFindEstablishedDialog : Bool) : Option Nat :=
  let place (test : SipDialog → Bool) : Option Nat :=
    mgr.dialogs.findIdx? fun d => d.callId == h.callId && test d
  (place (·.isSameDialog h)).or <|
    (if ifHandleEstablishedFindEarlyDialog then place (·.isEarlyDialogFor h) else none).or <|
      if ifHandleEarlyFindEstablishedDialog then place (·.wasEarlyDialogFor h) else none

def dialogExists (mgr : SipDialogMgr) (dialogHandle : Text) : Bool :=
  (mgr.findDialog (SipDialog.parseHandle dialogHandle) false false).isSome

def earlyDialogExistsFor (mgr : SipDialogMgr) (establishedDialogHandle : Text) : Bool :=
  !SipDialog.isEarlyHandle establishedDialogHandle &&
    ((mgr.findDialog (SipDialog.parseHandle establishedDialogHandle) true false).bind
      (mgr.dialogs[·]?)).any (!·.isEarlyDialog)

def createDialog (mgr : SipDialogMgr) (m : DialogMessage) (messageIsFromLocalSide : Bool)
    (dialogHandle : Text) : SipDialogMgr :=
  let handle := if dialogHandle = [] then m.getDialogHandle else dialogHandle
  if mgr.dialogExists handle || mgr.earlyDialogExistsFor handle then mgr
  else { dialogs := SipDialog.ofMessage m messageIsFromLocalSide :: mgr.dialogs }

/-- The dialog at a place is changed, if there is one. -/
def modify (mgr : SipDialogMgr) (place : Option Nat) (f : SipDialog → SipDialog) : SipDialogMgr :=
  match place with
  | none => mgr
  | some i => { dialogs := mgr.dialogs.modify i f }

def updateDialog (mgr : SipDialogMgr) (m : DialogMessage) (dialogHandle : Text) : SipDialogMgr :=
  let handle := if dialogHandle = [] then m.getDialogHandle else dialogHandle
  mgr.modify (mgr.findDialog (SipDialog.parseHandle handle) true false) (·.updateDialogData m)

def setNextLocalCseq (mgr : SipDialogMgr) (dialogHandle : Text) (nextLocalCseq : Int32) :
    SipDialogMgr :=
  mgr.modify (mgr.findDialog (SipDialog.parseHandle dialogHandle) false true)
    (·.setNextLocalCseq nextLocalCseq)

def deleteDialog (mgr : SipDialogMgr) (dialogHandle : Text) : SipDialogMgr :=
  match mgr.findDialog (SipDialog.parseHandle dialogHandle) true true with
  | none => mgr
  | some i => { dialogs := mgr.dialogs.eraseIdx i }

end SipDialogMgr

/-! ## Keys -/

/-- What an exact lookup compares: the Call-Id, and the two tags in any order and in any case. -/
def DialogHandle.key (h : DialogHandle) : Text × Sym2 Text :=
  (h.callId, s(h.localTag.map toLower, h.remoteTag.map toLower))

/-- What an exact lookup compares of a dialog. -/
def SipDialog.key (d : SipDialog) : Text × Sym2 Text :=
  (d.callId, s(d.localTag.map toLower, d.remoteTag.map toLower))

theorem SipDialog.isSame_iff_key {d : SipDialog} {h : DialogHandle} :
    (d.callId == h.callId && d.isSameDialog h) = true ↔ d.key = h.key := by
  simp only [isSameDialog, Bool.and_eq_true, Bool.or_eq_true, beq_iff_eq, caseEq_iff, key,
    DialogHandle.key, Prod.mk.injEq, Sym2.eq_iff]
  constructor
  · rintro ⟨hcallId, -, ⟨hlocal, hremote⟩ | ⟨hremote, hlocal⟩⟩
    · exact ⟨hcallId, .inl ⟨hlocal.symm, hremote.symm⟩⟩
    · exact ⟨hcallId, .inr ⟨hremote.symm, hlocal.symm⟩⟩
  · rintro ⟨hcallId, ⟨hlocal, hremote⟩ | ⟨hremote, hlocal⟩⟩
    · exact ⟨hcallId, by rw [hcallId], .inl ⟨hlocal.symm, hremote.symm⟩⟩
    · exact ⟨hcallId, by rw [hcallId], .inr ⟨hremote.symm, hlocal.symm⟩⟩

theorem SipDialog.parseHandle_getDialogHandle {m : DialogMessage}
    (hcallId : dialogHandleSeparator ∉ m.callId) (hfromTag : dialogHandleSeparator ∉ m.fromTag) :
    parseHandle m.getDialogHandle = ⟨m.callId, m.fromTag, m.toTag⟩ := by
  have hspan {s : Text} (hs : dialogHandleSeparator ∉ s) (rest : Text) :
      (s ++ dialogHandleSeparator :: rest).dropWhile (· != dialogHandleSeparator) =
          dialogHandleSeparator :: rest ∧
        (s ++ dialogHandleSeparator :: rest).takeWhile (· != dialogHandleSeparator) = s := by
    have hall : ∀ c ∈ s, (c != dialogHandleSeparator) = true := fun c hc =>
      bne_iff_ne.mpr fun heq => hs (heq ▸ hc)
    constructor
    · rw [dropWhile_append_of_pos hall, dropWhile_cons_of_neg (by simp)]
    · rw [takeWhile_append_of_pos hall, takeWhile_cons_of_neg (by simp),
        append_nil]
  obtain ⟨hdrop, htake⟩ := hspan hcallId (m.fromTag ++ dialogHandleSeparator :: m.toTag)
  obtain ⟨hdrop', htake'⟩ := hspan hfromTag m.toTag
  simp only [parseHandle, DialogMessage.getDialogHandle, hdrop, htake, hdrop', htake']

theorem SipDialog.key_ofMessage {m : DialogMessage} (hrequest : m.isResponse = false) :
    (ofMessage m false).key = DialogHandle.key ⟨m.callId, m.fromTag, m.toTag⟩ := by
  simp only [ofMessage, hrequest, bne_self_eq_false, Bool.false_eq_true, if_false]
  split <;> exact Prod.ext rfl Sym2.eq_swap

theorem SipDialog.ofMessage_remote {m : DialogMessage} (hrequest : m.isResponse = false) :
    (ofMessage m false).localInitiatedDialog = false := by
  simp only [ofMessage, hrequest, bne_self_eq_false, Bool.false_eq_true, if_false]
  split <;> rfl

theorem SipDialog.setNextLocalCseq_remote {d : SipDialog} {nextLocalCseq : Int32} :
    (d.setNextLocalCseq nextLocalCseq).localInitiatedDialog = d.localInitiatedDialog := by
  simp only [setNextLocalCseq]
  split_ifs <;> rfl

variable {handle : Text}

namespace SipDialogMgr

variable {mgr : SipDialogMgr} {h : DialogHandle}

def keys (mgr : SipDialogMgr) : List (Text × Sym2 Text) := mgr.dialogs.map SipDialog.key

/-- An exact match comes first. -/
theorem findDialog_of_mem (hkey : h.key ∈ mgr.keys) (est early : Bool) :
    ∃ i d, mgr.findDialog h est early = some i ∧ mgr.dialogs[i]? = some d ∧ d.key = h.key := by
  obtain ⟨d, hd, hdkey⟩ := mem_map.mp hkey
  have hsome : (mgr.dialogs.findIdx? fun d => d.callId == h.callId && d.isSameDialog h).isSome := by
    rw [findIdx?_isSome, any_eq_true]
    exact ⟨d, hd, SipDialog.isSame_iff_key.mpr hdkey⟩
  obtain ⟨i, hi⟩ := Option.isSome_iff_exists.mp hsome
  obtain ⟨hlen, hsame, -⟩ := findIdx?_eq_some_iff_getElem.mp hi
  exact ⟨i, mgr.dialogs[i], by simp only [findDialog, hi, Option.some_or],
    getElem?_eq_getElem hlen, SipDialog.isSame_iff_key.mp hsame⟩

theorem dialogExists_iff :
    mgr.dialogExists handle = true ↔ (SipDialog.parseHandle handle).key ∈ mgr.keys := by
  simp only [dialogExists, findDialog, Bool.false_eq_true, if_false, Option.or_none,
    findIdx?_isSome, any_eq_true, SipDialog.isSame_iff_key, keys, mem_map]

theorem dialogExists_of_earlyDialogExistsFor
    (hearly : mgr.earlyDialogExistsFor handle = true) : mgr.dialogExists handle = true := by
  rw [dialogExists_iff]
  by_contra hkey
  simp only [earlyDialogExistsFor, Bool.and_eq_true, Option.any_eq_true] at hearly
  obtain ⟨-, d, hfound, hestablished⟩ := hearly
  obtain ⟨i, hi, hd⟩ := Option.bind_eq_some_iff.mp hfound
  have hexact : (mgr.dialogs.findIdx? fun d =>
      d.callId == (SipDialog.parseHandle handle).callId &&
        d.isSameDialog (SipDialog.parseHandle handle)) = none := by
    refine findIdx?_eq_none_iff.mpr fun d hd => Bool.eq_false_iff.mpr fun hsame => hkey ?_
    exact mem_map.mpr ⟨d, hd, SipDialog.isSame_iff_key.mp hsame⟩
  simp only [findDialog, hexact, if_true, Bool.false_eq_true, if_false, Option.none_or,
    Option.or_none] at hi
  obtain ⟨hlen, htest, -⟩ := findIdx?_eq_some_iff_getElem.mp hi
  have heq : mgr.dialogs[i] = d := by
    rw [getElem?_eq_getElem hlen] at hd
    exact Option.some_injective _ hd
  rw [heq, Bool.and_eq_true] at htest
  have hfor := htest.2
  simp only [SipDialog.isEarlyDialog, Bool.not_eq_true', Bool.or_eq_false_iff,
    beq_eq_false_iff_ne] at hestablished
  rw [SipDialog.isEarlyDialogFor, if_neg hestablished.1, if_neg hestablished.2] at hfor
  exact Bool.false_ne_true hfor

theorem createDialog_of_not_exists {m : DialogMessage} {fromLocal : Bool}
    (hhandle : handle ≠ []) (hnew : (SipDialog.parseHandle handle).key ∉ mgr.keys) :
    mgr.createDialog m fromLocal handle =
      { dialogs := SipDialog.ofMessage m fromLocal :: mgr.dialogs } := by
  have hexists : mgr.dialogExists handle = false :=
    Bool.eq_false_iff.mpr fun h => hnew (dialogExists_iff.mp h)
  have hearly : mgr.earlyDialogExistsFor handle = false :=
    Bool.eq_false_iff.mpr fun h => hnew (dialogExists_iff.mp (dialogExists_of_earlyDialogExistsFor h))
  simp only [createDialog, if_neg hhandle, hexists, hearly, Bool.or_false, Bool.false_eq_true,
    if_false]

theorem mem_modify {place : Option Nat} {f : SipDialog → SipDialog} {d : SipDialog}
    (hd : d ∈ (mgr.modify place f).dialogs) :
    d ∈ mgr.dialogs ∨ ∃ i d', place = some i ∧ mgr.dialogs[i]? = some d' ∧ d = f d' := by
  cases place with
  | none => exact .inl hd
  | some i =>
    obtain ⟨j, hj⟩ := mem_iff_getElem?.mp hd
    rw [modify, getElem?_modify] at hj
    obtain ⟨d', hd', heq⟩ := Option.map_eq_some_iff.mp hj
    by_cases hij : i = j
    · rw [if_pos hij] at heq
      exact .inr ⟨i, d', rfl, hij ▸ hd', heq.symm⟩
    · rw [if_neg hij] at heq
      exact .inl (heq ▸ mem_of_getElem? hd')

theorem keys_modify {place : Option Nat} {f : SipDialog → SipDialog}
    (hf : ∀ i d, place = some i → mgr.dialogs[i]? = some d → (f d).key = d.key) :
    (mgr.modify place f).keys = mgr.keys := by
  cases place with
  | none => rfl
  | some i =>
    refine ext_getElem? fun j => ?_
    simp only [keys, modify, getElem?_map, getElem?_modify]
    cases hd : mgr.dialogs[j]? with
    | none => rfl
    | some d =>
      show some (if i = j then f d else d).key = some d.key
      by_cases hij : i = j
      · rw [if_pos hij, hf i d rfl (hij ▸ hd)]
      · rw [if_neg hij]

theorem keys_setNextLocalCseq {nextLocalCseq : Int32} :
    (mgr.setNextLocalCseq handle nextLocalCseq).keys = mgr.keys := by
  refine keys_modify fun i d _ _ => ?_
  simp only [SipDialog.setNextLocalCseq]
  split_ifs <;> rfl

theorem deleteDialog_of_mem
    (hkey : (SipDialog.parseHandle handle).key ∈ mgr.keys) :
    ∃ i d, mgr.deleteDialog handle = { dialogs := mgr.dialogs.eraseIdx i } ∧
      mgr.dialogs[i]? = some d ∧ d.key = (SipDialog.parseHandle handle).key := by
  obtain ⟨i, d, hi, hd, hdkey⟩ := findDialog_of_mem hkey true true
  exact ⟨i, d, by simp only [deleteDialog, hi], hd, hdkey⟩

theorem mem_deleteDialog (hkey : (SipDialog.parseHandle handle).key ∈ mgr.keys)
    {d : SipDialog} (hd : d ∈ mgr.dialogs) (hne : d.key ≠ (SipDialog.parseHandle handle).key) :
    d ∈ (mgr.deleteDialog handle).dialogs := by
  obtain ⟨i, d', hdelete, hd', hkey'⟩ := deleteDialog_of_mem hkey
  rw [hdelete, mem_eraseIdx_iff_getElem?]
  obtain ⟨j, hj⟩ := mem_iff_getElem?.mp hd
  refine ⟨j, fun hji => hne ?_, hj⟩
  have heq : d = d' := Option.some_injective _ (hj.symm.trans (hji ▸ hd'))
  rw [heq, hkey']

theorem deleteDialog_subset : (mgr.deleteDialog handle).dialogs ⊆ mgr.dialogs := by
  rw [deleteDialog]
  split
  · exact List.Subset.refl _
  · exact (eraseIdx_sublist _ _).subset

end SipDialogMgr

/-! ## Dialogs that the other side started -/

namespace SipDialog

variable {d : SipDialog} {m : DialogMessage}

/-- What no later request of the other side changes. -/
def identity (d : SipDialog) : Text × Text × Text × Bool :=
  (d.callId, d.localTag, d.remoteTag, d.localInitiatedDialog)

@[simp] theorem identity_raiseLocalCseq (cSeq : Int32) :
    (d.raiseLocalCseq cSeq).identity = d.identity := by
  rw [raiseLocalCseq]
  split <;> simp only [identity]

@[simp] theorem identity_raiseRemoteCseq (cSeq : Int32) :
    (d.raiseRemoteCseq cSeq).identity = d.identity := by
  rw [raiseRemoteCseq]
  split <;> simp only [identity]

@[simp] theorem identity_updateLocalContact (newContact : Bool) (contactUri : Text) :
    (d.updateLocalContact newContact contactUri).identity = d.identity := by
  rw [updateLocalContact]
  split <;> simp only [identity]

@[simp] theorem identity_updateRemoteContact (newContact : Bool) (contactUri : Text) :
    (d.updateRemoteContact newContact contactUri).identity = d.identity := by
  rw [updateRemoteContact]
  split <;> simp only [identity]

theorem establishFromLocal_of_remote (hremote : d.localInitiatedDialog = false) :
    d.establishFromLocal m = d := by
  rw [establishFromLocal, if_neg]
  rintro ⟨-, hlocal, -⟩
  exact Bool.false_ne_true (hremote.symm.trans hlocal)

theorem establishFromRemote_of_request (hrequest : m.isResponse = false) :
    d.establishFromRemote m = d := by
  rw [establishFromRemote, if_neg]
  rintro ⟨-, -, hsuccess, -⟩
  simp [DialogMessage.isSuccess, hrequest] at hsuccess

theorem startFromRemote_of_started {prevRemoteCseq : Int32}
    (hstarted : d.remoteTag ≠ [] ∨ prevRemoteCseq ≠ -1) : d.startFromRemote prevRemoteCseq m = d := by
  rw [startFromRemote, if_neg]
  rintro ⟨-, hfirst, -, -, htag⟩
  exact hstarted.elim (· htag) (· hfirst)

/-- **A request** of a dialog that the other side started, and that has its tag or its CSeq,
changes neither tags nor Call-Id. -/
theorem identity_updateDialogData (hremote : d.localInitiatedDialog = false)
    (hrequest : m.isResponse = false) (hstarted : d.remoteTag ≠ [] ∨ d.lastRemoteCseq ≠ -1) :
    (d.updateDialogData m).identity = d.identity := by
  have hinitiated {d' : SipDialog} (h : d'.identity = d.identity) :
      d'.localInitiatedDialog = false ∧ d'.remoteTag = d.remoteTag := by
    simp only [identity, Prod.mk.injEq] at h
    exact ⟨h.2.2.2.trans hremote, h.2.2.1⟩
  rw [updateDialogData]
  split
  next =>
    simp only [updateLocallyInitiated, hrequest, Bool.false_eq_true, if_false]
    rw [establishFromLocal_of_remote (hinitiated (by simp)).1]
    simp
  next =>
    split
    next =>
      simp only [updateRemotelyInitiated, hrequest, Bool.false_eq_true, if_false]
      rw [establishFromRemote_of_request hrequest, startFromRemote_of_started]
      · simp
      · rw [(hinitiated (by simp)).2]
        exact hstarted
    next => rfl

theorem key_of_identity {d' : SipDialog} (h : d'.identity = d.identity) : d'.key = d.key := by
  simp only [identity, Prod.mk.injEq] at h
  rw [key, key, h.1, h.2.1, h.2.2.1]

end SipDialog

end SipXRouter
