import SipXRouter.Bytes

/-!
# Dialog events

A payload is a `dialog-info` document about one dialog.  What the plugin reads of it and
the two orders of the states are as in `DialogInfo.cpp`; a document is what the XML parser
finds in a text, so writing one and parsing it again gives the same document.
-/

namespace SipXRouter.Kamailio

/-- A `dialog` element: its attributes, the first child of its `state` and the `uri` of the
`target` in its `remote`. -/
structure DialogElement where
  id : Option Text := none
  callId : Option Text := none
  localTag : Option Text := none
  remoteTag : Option Text := none
  direction : Option Text := none
  /-- `none` where there is no `state` element, empty where it has no child. -/
  state : Option Text := none
  remoteTargetUri : Option Text := none
  deriving DecidableEq

/-- The first `dialog-info` element of a document. -/
structure DialogInfoElement where
  entity : Option Text := none
  state : Option Text := none
  version : Option Text := none
  dialogs : List DialogElement
  deriving DecidableEq

/-- A text as it is parsed; `none` where there is an error or no `dialog-info`. -/
abbrev Payload := Option DialogInfoElement

/-- One dialog of a document, with the elements that are read of it. -/
structure Dialog where
  id : Text := []
  callId : Text := []
  localTag : Text := []
  remoteTag : Text := []
  direction : Text := []
  state : Text := []
  remoteTarget : Text := []
  deriving DecidableEq

/-- A document with its first dialog, as it is stored. -/
structure DialogInfo where
  rawPayload : Payload
  entity : Text := []
  state : Text := []
  version : Text := []
  dialog : Dialog := {}
  deriving DecidableEq

/-- `Dialog::generateKey`. -/
def Dialog.generateKey (d : Dialog) : Text := d.callId ++ d.remoteTag ++ d.localTag

/-- `Dialog::valid`. -/
def Dialog.valid (d : Dialog) : Bool :=
  d.id != [] && d.callId != [] && d.localTag != [] && d.remoteTag != [] && d.state != []

/-- `DialogInfo::valid`. -/
def DialogInfo.valid (i : DialogInfo) : Bool :=
  i.entity != [] && i.state != [] && i.version != [] && i.dialog.valid

/-- What is left of an entry that was written by `toJsonObject` and read by
`fromJsonObject`: the target is not written. -/
def DialogInfo.stored (i : DialogInfo) : DialogInfo :=
  { i with dialog := { i.dialog with remoteTarget := [] } }

/-! ## Documents -/

/-- The dialog that is read from an element, if it has an id. -/
def DialogElement.read (e : DialogElement) : Option Dialog :=
  e.id.map fun id =>
    { id := id
      callId := e.callId.getD []
      localTag := e.localTag.getD []
      remoteTag := e.remoteTag.getD []
      direction := e.direction.getD []
      state := e.state.getD []
      remoteTarget := e.remoteTargetUri.getD [] }

/-- A payload is read if it has each of the attributes and elements that are asked for. -/
def parseDialogInfoXML (xml : Payload) : Option DialogInfo := do
  let dialogInfoElement ← xml
  let entity ← dialogInfoElement.entity
  let state ← dialogInfoElement.state
  let version ← dialogInfoElement.version
  some
    { rawPayload := xml
      entity := entity
      state := state
      version := version
      dialog := (dialogInfoElement.dialogs.head?.bind DialogElement.read).getD {} }

/-- `updateDialogInfoXMLState`; `none` where the first dialog has no state. -/
def updateDialogInfoXMLState (xml : Payload) (state : Text) : Option Payload := do
  let dialogInfoElement ← xml
  match dialogInfoElement.dialogs with
  | [] => none
  | dialogElement :: others => do
      let _ ← dialogElement.state
      some (some
        { dialogInfoElement with dialogs := { dialogElement with state := some state } :: others })

/-- `mergeDialogInfoXMLDialog`; there is no document yet where `xml` is `none`. -/
def mergeDialogInfoXMLDialog (xml : Payload) (rdialogInfo : DialogInfo) : Payload :=
  match rdialogInfo.rawPayload.bind fun e => e.dialogs.head? with
  | none => xml
  | some rdialogElement =>
    match xml with
    | none => rdialogInfo.rawPayload
    | some ldialogInfoElement =>
      some { ldialogInfoElement with dialogs := ldialogInfoElement.dialogs ++ [rdialogElement] }

def maskDialogInfoXMLVersion (xml : Payload) : Payload :=
  xml.map fun e => { e with version := some (text "00000000000") }

/-! ## The orders of the states -/

/-- How far a dialog has come; a later state is not replaced by an earlier one. -/
def getPriorityByState (state : Text) : Int :=
  if state = text "trying" then 1
  else if state = text "early" then 2
  else if state = text "confirmed" then 3
  else if state = text "terminated" then 4
  else 0

/-- Which of several dialogs of one id is shown. -/
def getPreferenceByState (state : Text) : Int :=
  if state = text "terminated" then 1
  else if state = text "trying" then 2
  else if state = text "early" then 3
  else if state = text "confirmed" then 4
  else 0

def compareDialogByState (l r : Dialog) : Int := getPriorityByState l.state - getPriorityByState r.state

def compareDialogByPreference (l r : Dialog) : Int :=
  getPreferenceByState l.state - getPreferenceByState r.state

theorem getPriorityByState_le (state : Text) :
    getPriorityByState state ≤ getPriorityByState (text "terminated") := by
  have hmax : getPriorityByState (text "terminated") = 4 := by decide
  rw [hmax]
  unfold getPriorityByState
  split_ifs <;> decide

/-! ## Payloads with at most one dialog -/

/-- What an element of the document says of a dialog. -/
structure DialogElement.Shows (e : DialogElement) (d : Dialog) : Prop where
  id : e.id = some d.id
  callId : e.callId = some d.callId
  localTag : e.localTag = some d.localTag
  remoteTag : e.remoteTag = some d.remoteTag
  state : e.state = some d.state

/-- A valid entry with a document that is about its dialog and no other one. -/
def Sound (i : DialogInfo) : Prop :=
  i.valid = true ∧ ∃ e d, i.rawPayload = some e ∧ e.dialogs = [d] ∧ d.Shows i.dialog

/-- A payload with at most one dialog, if it can be parsed at all.  One without a dialog is
not valid and ignored. -/
def AtMostOneDialog (payload : Payload) : Prop :=
  (payload.all fun e => decide (e.dialogs.length ≤ 1)) = true

instance (payload : Payload) : Decidable (AtMostOneDialog payload) :=
  inferInstanceAs (Decidable (_ = true))

/-- A payload with at most one dialog gives a sound entry. -/
theorem AtMostOneDialog.parse {payload : Payload} (h : AtMostOneDialog payload) {i : DialogInfo}
    (hi : parseDialogInfoXML payload = some i) (hvalid : i.valid = true) : Sound i := by
  refine ⟨hvalid, ?_⟩
  obtain _ | e := payload
  · exact absurd hi (by simp [parseDialogInfoXML])
  simp only [parseDialogInfoXML, Option.bind_eq_bind, Option.bind_some, Option.bind_eq_some_iff,
    Option.some.injEq] at hi
  obtain ⟨entity, -, state, -, version, -, rfl⟩ := hi
  obtain ⟨d, hd⟩ : ∃ d, e.dialogs = [d] := by
    have hlength : e.dialogs.length ≤ 1 := of_decide_eq_true h
    obtain hnil | hone := Nat.le_one_iff_eq_zero_or_eq_one.mp hlength
    · rw [List.length_eq_zero_iff] at hnil
      exact absurd hvalid (by simp [DialogInfo.valid, Dialog.valid, hnil])
    · exact List.length_eq_one_iff.mp hone
  simp only [DialogInfo.valid, Dialog.valid, hd, List.head?_cons, Option.bind_some,
    Bool.and_eq_true, bne_iff_ne] at hvalid
  obtain ⟨-, ⟨⟨⟨hid, hcallId⟩, hlocalTag⟩, hremoteTag⟩, hstate⟩ := hvalid
  obtain ⟨_ | id, callId, localTag, remoteTag, direction, state', uri⟩ := d
  · exact absurd rfl hid
  -- a field that is not empty was read from an attribute that is there
  have hsome : ∀ {o : Option Text}, o.getD [] ≠ [] → o = some (o.getD []) := by
    rintro (_ | t) ht
    · exact absurd rfl ht
    · rfl
  refine ⟨e, _, rfl, hd, ?_, ?_, ?_, ?_, ?_⟩ <;>
    simp only [hd, List.head?_cons, Option.bind_some, DialogElement.read, Option.map_some,
      Option.getD_some] at hcallId hlocalTag hremoteTag hstate ⊢
  · exact hsome hcallId
  · exact hsome hlocalTag
  · exact hsome hremoteTag
  · exact hsome hstate

theorem Sound.stored {i : DialogInfo} (h : Sound i) : Sound i.stored := by
  obtain ⟨hvalid, e, d, hpayload, hdialogs, hshows⟩ := h
  exact ⟨hvalid, e, d, hpayload, hdialogs, hshows.id, hshows.callId, hshows.localTag,
    hshows.remoteTag, hshows.state⟩

/-- A payload about one dialog. -/
def payloadOf (id callId remoteTag localTag state : String) : Payload :=
  some
    { entity := some (text "sip:5001@inc")
      state := some (text "full")
      version := some (text "0")
      dialogs :=
        [{ id := some (text id)
           callId := some (text callId)
           localTag := some (text localTag)
           remoteTag := some (text remoteTag)
           state := some (text state) }] }

end SipXRouter.Kamailio
