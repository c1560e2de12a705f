import SipXRouter.Net.SipMessage
import SipXRouter.Proxy.RouteState

/-!
# Route state in messages

How a `RouteState` is read from a message and written back.  The constructor looks for
a token in the routes that were removed from the message and then in its Record-Route
values; it remembers the places of the values that belong to this proxy.  `update`
puts the current token into these values, or adds a new value at the top.

A place is the number of a value over all Record-Route headers, and `update` uses it
as the number of a header.  The two agree where each value of this proxy stands alone
in the header of its number.
-/

namespace SipXRouter

open List

namespace RouteState

open SipMessage NameValueTokenizer

/-- `SIP_CALLID_FIELD`. -/
def callIdField : Text := text "CALL-ID"

/-- `SIP_FROM_FIELD`. -/
def fromField : Text := text "FROM"

/-- `SIP_TO_FIELD`. -/
def toField : Text := text "TO"

/-! ## The constructor -/

/-- The token in a Record-Route value. -/
def tokenOf (route : Text) : Option Text :=
  (Url.ofText route .nameAddr).getUrlParameter urlParameterName

/-- The loop over the removed routes, up to the first token that is accepted. -/
def scanRemovedRoutes (md5 : NetMd5Codec) (secret : Text) : List Text → RouteState → RouteState
  | [], st => st
  | route :: routes, st =>
    if containsText urlParameterName route then
      match tokenOf route with
      | none => scanRemovedRoutes md5 secret routes st
      | some stateToken =>
        let decoded := st.decode md5 secret stateToken
        if decoded.2 then { decoded.1 with foundRouteState := true }
        else scanRemovedRoutes md5 secret routes decoded.1
    else scanRemovedRoutes md5 secret routes st

/-- Remember a place. -/
def pushIndex (st : RouteState) (rrNum : Nat) : RouteState :=
  { st with recordRouteIndices := st.recordRouteIndices ++ [rrNum] }

/-- The loop over the Record-Route values from number `rrNum` on.  It ends at a value
that is blank. -/
def scanRecordRoutes (md5 : NetMd5Codec) (secret : Text) :
    (rrNum : Nat) → List Text → RouteState → RouteState
  | _, [], st => st
  | rrNum, value :: values, st =>
    let recordRoute := trim isBlank value
    if recordRoute = [] then st
    else if containsText urlParameterName recordRoute then
      match tokenOf recordRoute with
      | none => scanRecordRoutes md5 secret (rrNum + 1) values st
      | some stateToken =>
        let decoded := st.decode md5 secret stateToken
        if decoded.2 then
          scanRecordRoutes md5 secret (rrNum + 1) values
            { decoded.1.pushIndex rrNum with foundRouteState := true }
        else scanRecordRoutes md5 secret (rrNum + 1) values decoded.1
    else if (Url.ofText recordRoute .nameAddr).getHostWithPort = st.routeHostPort then
      scanRecordRoutes md5 secret (rrNum + 1) values (st.pushIndex rrNum)
    else scanRecordRoutes md5 secret (rrNum + 1) values st

/-- The tag of a From or To header. -/
def tagOf (m : SipMessage) (field : Text) : Option Text :=
  (Url.fromString ((m.getHeaderValue 0 field).getD []) .nameAddr).getFieldParameter (text "tag")

/-- `SipMessage::isResponse`. -/
def isResponse (m : SipMessage) : Bool := (text "SIP/2.0").isPrefixOf m.firstHeaderLine

/-- The values of the Record-Route headers, in order. -/
def recordRoutes (m : SipMessage) : List Text := fieldSubfields m recordRouteField

/-- `RouteState::RouteState`. -/
def ofMessage (md5 : NetMd5Codec) (secret : Text) (m : SipMessage) (removedRoutes : List Text)
    (routeHostPort : Text) : RouteState :=
  let st := scanRemovedRoutes md5 secret removedRoutes
    { callId := (m.getHeaderValue 0 callIdField).getD []
      fromTag := (tagOf m fromField).getD []
      routeHostPort := routeHostPort }
  if st.foundRouteState then st
  else
    let st := scanRecordRoutes md5 secret 0 (recordRoutes m) st
    if isResponse m then st
    else if st.foundRouteState then { st with mayBeMutable := true }
    else if caseEq (m.getFirstHeaderLinePart 0) (text "ACK") then st
    else if (tagOf m toField).isSome then st
    else { st with mayBeMutable := true }

/-- What plugins ask of the state before `update`. -/
inductive PluginCall where
  | setParameter (pluginInstance parameterName value : Text)
  | unsetParameter (pluginInstance parameterName : Text)
  | addCopy
deriving DecidableEq

/-- The state behind one call of a plugin. -/
def call (st : RouteState) : PluginCall → RouteState
  | .setParameter pluginInstance parameterName value =>
    st.setParameter pluginInstance parameterName value
  | .unsetParameter pluginInstance parameterName =>
    st.unsetParameter pluginInstance parameterName
  | .addCopy => { st with addCopyRequested := true }

/-- The state behind calls of plugins. -/
def calls (st : RouteState) (cs : List PluginCall) : RouteState := cs.foldl call st

/-! ## `update` -/

/-- A route value with the current token. -/
def withToken (junk : Byte) (stateToken : Text) (route : Text) : Text :=
  ((Url.ofText route .nameAddr).setUrlParameter urlParameterName stateToken).toString junk

/-- A new route value of this proxy. -/
def newRoute (junk : Byte) (stateToken routeHostPort : Text) : Text :=
  (((Url.ofText routeHostPort .nameAddr).setUrlParameter (text "lr") []).setUrlParameter
    urlParameterName stateToken).toString junk

/-- One round of the loop over the places: read, change the token, write. -/
def updateAt (junk : Byte) (stateToken : Text) (acc : SipMessage × Text) (pos : Nat) :
    SipMessage × Text :=
  let routeValue := withToken junk stateToken (getRecordRouteUri acc.1 pos)
  (setRecordRouteField acc.1 routeValue pos, routeValue)

/-- Whether a copy asked for is really added: not where the top value is ours. -/
def copyDue (st : RouteState) : Bool :=
  st.addCopyRequested && (st.recordRouteIndices.head? != some 0)

/-- `RouteState::update`. -/
def update (md5 : NetMd5Codec) (secret : Text) (junk : Byte) (st : RouteState)
    (m : SipMessage) : SipMessage :=
  if st.mayBeMutable ∧ (st.modified ∨ st.addCopyRequested) then
    let stateToken := st.encode md5 secret
    let routeValue := newRoute junk stateToken st.routeHostPort
    let updated :=
      if st.recordRouteIndices = [] then (addRecordRouteUri m routeValue, routeValue)
      else st.recordRouteIndices.foldl (updateAt junk stateToken) (m, routeValue)
    if st.copyDue then addRecordRouteUri updated.1 updated.2 else updated.1
  else m

/-! ## The places of this proxy -/

/-- Whether a Record-Route value belongs to this proxy: it carries a token that is
accepted, or no token and the host and port of this proxy. -/
def isOwn (md5 : NetMd5Codec) (secret callId routeHostPort recordRoute : Text) : Bool :=
  if containsText urlParameterName recordRoute then
    match tokenOf recordRoute with
    | none => false
    | some stateToken => (decodeToken md5 secret callId stateToken).isSome
  else (Url.ofText recordRoute .nameAddr).getHostWithPort == routeHostPort

/-- The places of the values that belong to this proxy, up to the first blank one. -/
def scannedPlaces (md5 : NetMd5Codec) (secret callId routeHostPort : Text) (rrNum : Nat)
    (values : List Text) : List Nat :=
  Layout.placesFrom (fun value => isOwn md5 secret callId routeHostPort (trim isBlank value)) rrNum
    (values.takeWhile (trim isBlank · ≠ []))

/-- The numbers of the Record-Route values that belong to this proxy. -/
def ownPlaces (md5 : NetMd5Codec) (secret routeHostPort : Text) (m : SipMessage) : List Nat :=
  scannedPlaces md5 secret ((m.getHeaderValue 0 callIdField).getD []) routeHostPort 0
    (recordRoutes m)

section Decode

variable (md5 : NetMd5Codec) (secret : Text) (st : RouteState) (stateToken : Text)

@[simp] theorem decode_callId : (st.decode md5 secret stateToken).1.callId = st.callId := by
  unfold decode
  cases decodeToken md5 secret st.callId stateToken <;> rfl

@[simp] theorem decode_routeHostPort :
    (st.decode md5 secret stateToken).1.routeHostPort = st.routeHostPort := by
  unfold decode
  cases decodeToken md5 secret st.callId stateToken <;> rfl

@[simp] theorem decode_recordRouteIndices :
    (st.decode md5 secret stateToken).1.recordRouteIndices = st.recordRouteIndices := by
  unfold decode
  cases decodeToken md5 secret st.callId stateToken <;> rfl

@[simp] theorem decode_mayBeMutable :
    (st.decode md5 secret stateToken).1.mayBeMutable = st.mayBeMutable := by
  unfold decode
  cases decodeToken md5 secret st.callId stateToken <;> rfl

theorem decode_snd :
    (st.decode md5 secret stateToken).2 = (decodeToken md5 secret st.callId stateToken).isSome := by
  unfold decode
  cases decodeToken md5 secret st.callId stateToken <;> rfl

end Decode

/-- What the loops of the constructor leave as it was. -/
structure SameMessage (st st' : RouteState) : Prop where
  callId : st'.callId = st.callId
  routeHostPort : st'.routeHostPort = st.routeHostPort
  mayBeMutable : st'.mayBeMutable = st.mayBeMutable

theorem scanRemovedRoutes_spec (md5 : NetMd5Codec) (secret : Text) (routes : List Text)
    (st : RouteState) : SameMessage st (scanRemovedRoutes md5 secret routes st) ∧
      (scanRemovedRoutes md5 secret routes st).recordRouteIndices = st.recordRouteIndices := by
  induction routes generalizing st with
  | nil => exact ⟨⟨rfl, rfl, rfl⟩, rfl⟩
  | cons route routes ih =>
    rw [scanRemovedRoutes]
    split
    · cases tokenOf route with
      | none => exact ih st
      | some stateToken =>
        simp only
        split
        · exact ⟨⟨by simp, by simp, by simp⟩, by simp⟩
        · obtain ⟨⟨h₁, h₂, h₃⟩, h₄⟩ := ih (st.decode md5 secret stateToken).1
          exact ⟨⟨by simpa using h₁, by simpa using h₂, by simpa using h₃⟩, by simpa using h₄⟩
    · exact ih st

theorem scanRecordRoutes_cons (md5 : NetMd5Codec) (secret : Text) (rrNum : Nat) (value : Text)
    (values : List Text) (st : RouteState) (hvalue : trim isBlank value ≠ []) :
    ∃ st', scanRecordRoutes md5 secret rrNum (value :: values) st =
        scanRecordRoutes md5 secret (rrNum + 1) values st' ∧ SameMessage st st' ∧
      st'.recordRouteIndices =
        if isOwn md5 secret st.callId st.routeHostPort (trim isBlank value) then
          st.recordRouteIndices ++ [rrNum]
        else st.recordRouteIndices := by
  rw [scanRecordRoutes, isOwn]
  generalize trim isBlank value = recordRoute at hvalue ⊢
  simp only [hvalue, if_false]
  by_cases hcontains : containsText urlParameterName recordRoute = true
  · simp only [hcontains, if_true]
    cases tokenOf recordRoute with
    | none => exact ⟨st, rfl, ⟨rfl, rfl, rfl⟩, by simp⟩
    | some stateToken =>
      simp only [decode_snd]
      by_cases hok : (decodeToken md5 secret st.callId stateToken).isSome = true
      · rw [if_pos hok, if_pos hok]
        exact ⟨_, rfl, ⟨by simp [pushIndex], by simp [pushIndex], by simp [pushIndex]⟩,
          by simp [pushIndex]⟩
      · rw [if_neg hok, if_neg hok]
        exact ⟨_, rfl, ⟨by simp, by simp, by simp⟩, by simp⟩
  · by_cases hhost : (Url.ofText recordRoute .nameAddr).getHostWithPort = st.routeHostPort
    · simp only [hcontains, hhost, if_true, beq_self_eq_true]
      exact ⟨_, rfl, ⟨rfl, rfl, rfl⟩, rfl⟩
    · simp only [hcontains, hhost, if_false]
      exact ⟨st, rfl, ⟨rfl, rfl, rfl⟩, by simp [hhost]⟩

/-- The scan notes the places of the values of this proxy and keeps the message. -/
theorem scanRecordRoutes_spec (md5 : NetMd5Codec) (secret : Text) (values : List Text) :
    ∀ (rrNum : Nat) (st : RouteState),
      SameMessage st (scanRecordRoutes md5 secret rrNum values st) ∧
      (scanRecordRoutes md5 secret rrNum values st).recordRouteIndices = st.recordRouteIndices ++
          scannedPlaces md5 secret st.callId st.routeHostPort rrNum values := by
  induction values with
  | nil =>
    intro rrNum st
    exact ⟨⟨rfl, rfl, rfl⟩, by simp [scanRecordRoutes, scannedPlaces, Layout.placesFrom]⟩
  | cons value values ih =>
    intro rrNum st
    by_cases hnil : trim isBlank value = []
    · refine ⟨?_, ?_⟩
      · simp only [scanRecordRoutes, hnil, if_true]
        exact ⟨rfl, rfl, rfl⟩
      · simp [scanRecordRoutes, hnil, scannedPlaces, Layout.placesFrom]
    obtain ⟨st', hstep, ⟨h₁, h₂, h₃⟩, hindices⟩ :=
      scanRecordRoutes_cons md5 secret rrNum value values st hnil
    obtain ⟨⟨g₁, g₂, g₃⟩, hrest⟩ := ih (rrNum + 1) st'
    rw [hstep]
    refine ⟨⟨g₁.trans h₁, g₂.trans h₂, g₃.trans h₃⟩, ?_⟩
    rw [hrest, hindices, h₁, h₂, scannedPlaces, scannedPlaces,
      takeWhile_cons_of_pos (by simpa using hnil), Layout.placesFrom]
    split <;> simp

/-- The calls of the plugins leave places and host alone. -/
theorem calls_frame (cs : List PluginCall) (st : RouteState) :
    (st.calls cs).recordRouteIndices = st.recordRouteIndices ∧
      (st.calls cs).routeHostPort = st.routeHostPort ∧
      (st.calls cs).mayBeMutable = st.mayBeMutable := by
  have hcall : ∀ (st : RouteState) (c : PluginCall),
      (st.call c).recordRouteIndices = st.recordRouteIndices ∧
        (st.call c).routeHostPort = st.routeHostPort ∧
        (st.call c).mayBeMutable = st.mayBeMutable := by
    intro st c
    cases c with
    | setParameter pluginInstance parameterName value =>
      simp only [call, RouteState.setParameter]
      split
      · cases routeParameterName pluginInstance parameterName <;> exact ⟨rfl, rfl, rfl⟩
      · exact ⟨rfl, rfl, rfl⟩
    | unsetParameter pluginInstance parameterName =>
      simp only [call, RouteState.unsetParameter]
      split
      · cases routeParameterName pluginInstance parameterName <;> exact ⟨rfl, rfl, rfl⟩
      · exact ⟨rfl, rfl, rfl⟩
    | addCopy => exact ⟨rfl, rfl, rfl⟩
  induction cs generalizing st with
  | nil => exact ⟨rfl, rfl, rfl⟩
  | cons c cs ih =>
    obtain ⟨h₁, h₂, h₃⟩ := ih (st.call c)
    obtain ⟨g₁, g₂, g₃⟩ := hcall st c
    exact ⟨h₁.trans g₁, h₂.trans g₂, h₃.trans g₃⟩

/-- A mutable state remembers the places of the values of this proxy. -/
theorem recordRouteIndices_ofMessage {md5 : NetMd5Codec} {secret : Text} {m : SipMessage}
    {removedRoutes : List Text} {routeHostPort : Text}
    (hmutable : (ofMessage md5 secret m removedRoutes routeHostPort).mayBeMutable = true) :
    (ofMessage md5 secret m removedRoutes routeHostPort).recordRouteIndices =
        ownPlaces md5 secret routeHostPort m ∧
      (ofMessage md5 secret m removedRoutes routeHostPort).routeHostPort = routeHostPort := by
  obtain ⟨⟨hcall, hhost, hmut⟩, hindices⟩ := scanRemovedRoutes_spec md5 secret removedRoutes
    { callId := (m.getHeaderValue 0 callIdField).getD []
      fromTag := (tagOf m fromField).getD []
      routeHostPort := routeHostPort }
  unfold ofMessage at hmutable ⊢
  generalize scanRemovedRoutes md5 secret removedRoutes
    { callId := (m.getHeaderValue 0 callIdField).getD []
      fromTag := (tagOf m fromField).getD []
      routeHostPort := routeHostPort } = st at hcall hhost hmut hindices hmutable ⊢
  by_cases hfound : st.foundRouteState = true
  · rw [if_pos hfound, hmut] at hmutable
    exact absurd hmutable (by simp)
  simp only [hfound] at hmutable ⊢
  obtain ⟨⟨-, hhost', -⟩, hplaces⟩ := scanRecordRoutes_spec md5 secret (recordRoutes m) 0 st
  rw [hcall, hhost, hindices] at hplaces
  rw [hhost] at hhost'
  -- the branches differ in the mutability only
  simp only [Bool.false_eq_true, if_false]
  split
  · exact ⟨hplaces, hhost'⟩
  · split
    · exact ⟨hplaces, hhost'⟩
    · split
      · exact ⟨hplaces, hhost'⟩
      · split
        · exact ⟨hplaces, hhost'⟩
        · exact ⟨hplaces, hhost'⟩

/-- Behind calls on a mutable state the places and the host are those of the message. -/
theorem frame_of_calls {md5 : NetMd5Codec} {secret : Text} {m : SipMessage}
    {removedRoutes : List Text} {routeHostPort : Text} {cs : List PluginCall} {st : RouteState}
    (hst : st = (ofMessage md5 secret m removedRoutes routeHostPort).calls cs)
    (hmutable : st.mayBeMutable = true) :
    st.recordRouteIndices = ownPlaces md5 secret routeHostPort m ∧
      st.routeHostPort = routeHostPort := by
  obtain ⟨hindices, hhost, hmut⟩ := calls_frame cs
    (ofMessage md5 secret m removedRoutes routeHostPort)
  rw [← hst] at hindices hhost hmut
  obtain ⟨hplaces, hhost'⟩ := recordRouteIndices_ofMessage (hmut.symm.trans hmutable)
  exact ⟨hindices.trans hplaces, hhost.trans hhost'⟩

/-! ## What `update` does -/

/-- The values with the current token in those of this proxy, or with a new value on
top where there is none. -/
def expectedRoutes (junk : Byte) (stateToken routeHostPort : Text) (places : List Nat)
    (routes : List Text) : List Text :=
  if places = [] then bracketed (newRoute junk stateToken routeHostPort) :: routes
  else Layout.rewritten (fun value => withToken junk stateToken (trim isBlank value)) places routes

/-- The value that is copied: the last one written. -/
def copiedRoute (junk : Byte) (stateToken routeHostPort : Text) (places : List Nat)
    (routes : List Text) : Text :=
  match places.getLast? with
  | none => newRoute junk stateToken routeHostPort
  | some q => withToken junk stateToken (trim isBlank (routes[q]?.getD []))

/-- The texts that are written are read back as one value each. -/
structure ReadBack (junk : Byte) (stateToken : Text) (st : RouteState) (routes : List Text) :
    Prop where
  own : ∀ q ∈ st.recordRouteIndices, ∀ value, routes[q]? = some value →
    OneValue (withToken junk stateToken (trim isBlank value))
  top : st.recordRouteIndices = [] → OneValue (bracketed (newRoute junk stateToken st.routeHostPort))
  copy : st.copyDue = true → OneValue (bracketed
    (copiedRoute junk stateToken st.routeHostPort st.recordRouteIndices routes))

theorem recordRoutes_addRecordRouteUri {route : Text} (hone : OneValue (bracketed route))
    (m : SipMessage) : recordRoutes (addRecordRouteUri m route) = bracketed route :: recordRoutes m := by
  rw [recordRoutes, recordRoutes, fieldSubfields, fieldSubfields, headerValues_addRecordRouteUri,
    flatSubfields, flatSubfields, takeWhile_cons_of_pos (by simpa using hone.ne_nil),
    flatMap_cons, hone.subfields_eq, singleton_append]

theorem fst_foldl_updateAt (junk : Byte) (stateToken : Text) (places : List Nat)
    (acc : SipMessage × Text) : (places.foldl (updateAt junk stateToken) acc).1 =
      places.foldl (rewriteField subfields recordRouteField
        fun value => withToken junk stateToken (trim isBlank (value.getD []))) acc.1 := by
  induction places generalizing acc with
  | nil => rfl
  | cons q places ih =>
    rw [foldl_cons, ih, foldl_cons, rewriteField, ← fieldSubfields_eq_flatten,
      ← getFieldSubfield_eq]
    rfl

section Aligned

variable {junk : Byte} {stateToken : Text} {m : SipMessage} {places : List Nat}

/-- The loop puts the token into the values at its places. -/
theorem recordRoutes_foldl_updateAt (hnodup : places.Nodup)
    (haligned : ∀ q ∈ places, Layout.AlignedAt (fieldRows subfields m recordRouteField) q)
    (hone : ∀ q ∈ places, ∀ value, (recordRoutes m)[q]? = some value →
      OneValue (withToken junk stateToken (trim isBlank value))) (route : Text) :
    recordRoutes (places.foldl (updateAt junk stateToken) (m, route)).1 =
      Layout.rewritten (fun value => withToken junk stateToken (trim isBlank value)) places
        (recordRoutes m) := by
  have hback : ∀ q ∈ places, ∀ value,
      (fieldRows subfields m recordRouteField).flatten[q]? = some value →
      withToken junk stateToken (trim isBlank value) ≠ [] ∧
        subfields (withToken junk stateToken (trim isBlank value)) =
          [withToken junk stateToken (trim isBlank value)] := by
    intro q hq value hvalue
    rw [← fieldSubfields_eq_flatten] at hvalue
    have h := hone q hq value hvalue
    exact ⟨h.ne_nil, h.subfields_eq⟩
  have hrows := fieldRows_foldl_rewriteField
    (f := fun value => withToken junk stateToken (trim isBlank (value.getD [])))
    hnodup haligned hback
  rw [recordRoutes, fst_foldl_updateAt, fieldSubfields_eq_flatten, hrows,
    Layout.flatten_rewriteAll _ _ _ hnodup haligned, recordRoutes, fieldSubfields_eq_flatten]
  rfl

theorem snd_foldl_updateAt (hnodup : places.Nodup)
    (haligned : ∀ q ∈ places, Layout.AlignedAt (fieldRows subfields m recordRouteField) q)
    (hone : ∀ q ∈ places, ∀ value, (recordRoutes m)[q]? = some value →
      OneValue (withToken junk stateToken (trim isBlank value))) (hne : places ≠ [])
    (routeHostPort route : Text) : (places.foldl (updateAt junk stateToken) (m, route)).2 =
      copiedRoute junk stateToken routeHostPort places (recordRoutes m) := by
  obtain ⟨before, last, rfl⟩ : ∃ before last, places = before ++ [last] :=
    ⟨_, _, (dropLast_append_getLast hne).symm⟩
  have hlast : last ∉ before := by
    intro hmem
    exact disjoint_of_nodup_append hnodup hmem (by simp)
  have hroutes := recordRoutes_foldl_updateAt (Nodup.of_append_left hnodup)
    (fun q hq => haligned q (by simp [hq])) (fun q hq => hone q (by simp [hq])) route
  have hread : getFieldSubfield (before.foldl (updateAt junk stateToken) (m, route)).1
      recordRouteField last = (recordRoutes m)[last]? := by
    rw [getFieldSubfield_eq]
    change (recordRoutes _)[last]? = _
    rw [hroutes, Layout.getElem?_rewritten]
    cases (recordRoutes m)[last]? <;> simp [hlast]
  rw [foldl_append, foldl_cons, foldl_nil, updateAt, getRecordRouteUri, hread,
    copiedRoute, getLast?_concat]

end Aligned

/-- Where the values of this proxy stand alone in the headers of their numbers, and
what is written is read back as one value, `update` puts the current token into these
values and leaves the others and their order as they were, or adds one value at the
top where there is none of this proxy; a copy that was asked for and is due comes on
top of that. -/
theorem recordRoutes_update {md5 : NetMd5Codec} {secret : Text} {junk : Byte} {m : SipMessage}
    {removedRoutes : List Text} {routeHostPort : Text} {cs : List PluginCall} {st : RouteState}
    (hst : st = (ofMessage md5 secret m removedRoutes routeHostPort).calls cs)
    (hmutable : st.mayBeMutable = true) (hmodified : st.modified = true)
    (haligned : ∀ q ∈ ownPlaces md5 secret routeHostPort m,
      Layout.AlignedAt (fieldRows subfields m recordRouteField) q)
    (hread : ReadBack junk (st.encode md5 secret) st (recordRoutes m)) :
    recordRoutes (st.update md5 secret junk m) =
      (if st.copyDue then
        [bracketed (copiedRoute junk (st.encode md5 secret) routeHostPort
          (ownPlaces md5 secret routeHostPort m) (recordRoutes m))]
      else []) ++
        expectedRoutes junk (st.encode md5 secret) routeHostPort
          (ownPlaces md5 secret routeHostPort m) (recordRoutes m) := by
  obtain ⟨hindices, hhost⟩ := frame_of_calls hst hmutable
  obtain ⟨hown, htop, hcopy⟩ := hread
  rw [hindices, hhost] at htop hcopy
  rw [hindices] at hown
  have hnodup : (ownPlaces md5 secret routeHostPort m).Nodup :=
    Layout.nodup_placesFrom _ _ _
  rw [update, if_pos ⟨hmutable, Or.inl hmodified⟩]
  simp only [hindices, hhost]
  generalize st.encode md5 secret = stateToken at *
  generalize ownPlaces md5 secret routeHostPort m = places at *
  -- both ways to place the token, with the value that a copy would take
  have hupdated : ∀ updated : SipMessage × Text,
      updated = (if places = [] then
          (addRecordRouteUri m (newRoute junk stateToken routeHostPort),
            newRoute junk stateToken routeHostPort)
        else places.foldl (updateAt junk stateToken)
          (m, newRoute junk stateToken routeHostPort)) →
      recordRoutes updated.1 = expectedRoutes junk stateToken routeHostPort places (recordRoutes m) ∧
        updated.2 = copiedRoute junk stateToken routeHostPort places (recordRoutes m) := by
    rintro _ rfl
    by_cases hnil : places = []
    · subst hnil
      refine ⟨?_, rfl⟩
      simp only [if_true, expectedRoutes]
      exact recordRoutes_addRecordRouteUri (htop rfl) m
    · rw [if_neg hnil, expectedRoutes, if_neg hnil]
      exact ⟨recordRoutes_foldl_updateAt hnodup haligned hown _,
        snd_foldl_updateAt hnodup haligned hown hnil routeHostPort _⟩
  obtain ⟨hroutes, hvalue⟩ := hupdated _ rfl
  by_cases hdue : st.copyDue = true
  · rw [if_pos hdue, if_pos hdue, hvalue, recordRoutes_addRecordRouteUri (hcopy hdue), hroutes]
    rfl
  · rw [if_neg hdue, if_neg hdue, hroutes, nil_append]

/-- The property that `update` keeps the values and their order, and changes the token
in those of this proxy only. -/
def UpdateFrame (md5 : NetMd5Codec) (secret : Text) (junk : Byte) (routeHostPort : Text)
    (st : RouteState) (m : SipMessage) : Prop :=
  recordRoutes (st.update md5 secret junk m) =
    expectedRoutes junk (st.encode md5 secret) routeHostPort
      (ownPlaces md5 secret routeHostPort m) (recordRoutes m)

instance (md5 : NetMd5Codec) (secret : Text) (junk : Byte) (routeHostPort : Text)
    (st : RouteState) (m : SipMessage) :
    Decidable (UpdateFrame md5 secret junk routeHostPort st m) :=
  inferInstanceAs (Decidable (_ = _))

/-! ### Spiraled requests -/

/-- A request that passed this proxy before another one added its own value. -/
def spiraled (recordRouteHeaders : List String) : SipMessage :=
  { firstHeaderLine := text "INVITE sip:user@somewhere.com SIP/2.0"
    nameValues :=
      [(toField, text "sip:user@somewhere.com"),
        (fromField, text "Caller <sip:caller@example.org>; tag=30543f3483e1cb11ecb40866edd3295b"),
        (callIdField, text "f88dfabce84b6a2787ef024a7dbe8749")] ++
      recordRouteHeaders.map fun value => (recordRouteField, text value) }

/-- A digest that knows what is signed for `spiraled` with one parameter set. -/
def spiraledMd5 : NetMd5Codec :=
  NetMd5Codec.ofTable
    [(text "fixedf88dfabce84b6a2787ef024a7dbe8749plugin*param1~dmFsdWUx",
      text "edef0e3c28eb47723840bbbcd813e370")] (by decide +kernel)

/-- The state of such a request after a plugin has set a parameter. -/
def spiraledState (m : SipMessage) (more : List PluginCall) : RouteState :=
  (ofMessage spiraledMd5 (text "fixed") m [] (text "myhost.example.com")).calls
    (.setParameter (text "plugin") (text "param1") (text "value1") :: more)

/-- Each value in a header of its own. -/
def spiraledRequest : SipMessage :=
  spiraled ["<sip:other.example.com;lr>", "<sip:myhost.example.com;lr>"]

theorem recordRoutes_update_spiraled :
    recordRoutes ((spiraledState spiraledRequest []).update spiraledMd5 (text "fixed") 0
        spiraledRequest) =
      [text "<sip:other.example.com;lr>",
        text ("<sip:myhost.example.com;lr;sipXecs-rs=plugin%2Aparam1%7EdmFsdWUx" ++
          "%21edef0e3c28eb47723840bbbcd813e370>")] := by
  have hst : spiraledState spiraledRequest [] =
      (ofMessage spiraledMd5 (text "fixed") spiraledRequest [] (text "myhost.example.com")).calls
        [.setParameter (text "plugin") (text "param1") (text "value1")] := rfl
  have hplaces : (spiraledState spiraledRequest []).recordRouteIndices = [1] := by
    decide +kernel
  have hvalue : (recordRoutes spiraledRequest)[1]? = some (text "<sip:myhost.example.com;lr>") := by
    decide +kernel
  refine (recordRoutes_update hst (by decide +kernel) (by decide +kernel) (by decide +kernel)
    ⟨?_, ?_, ?_⟩).trans (by decide +kernel)
  · intro q hq value hq'
    rw [hplaces, mem_singleton] at hq
    subst hq
    cases hvalue.symm.trans hq'
    decide +kernel
  · intro h
    rw [hplaces] at h
    exact absurd h (by simp)
  · intro h
    exact absurd h (by decide +kernel)

/-- Both values in one header. -/
def spiraledInOneHeader : SipMessage :=
  spiraled ["<sip:other.example.com;lr>, <sip:myhost.example.com;lr>"]

/-- A copy that was asked for makes one value more, and a value that stands behind
another one in its header stays as it was while its rewriting is added at the end. -/
theorem update_frame_spiraled_fails :
    ((spiraledState spiraledRequest [.addCopy]).mayBeMutable ∧
      (spiraledState spiraledRequest [.addCopy]).modified ∧
      ¬ UpdateFrame spiraledMd5 (text "fixed") 0 (text "myhost.example.com")
        (spiraledState spiraledRequest [.addCopy]) spiraledRequest) ∧
    ((spiraledState spiraledInOneHeader []).mayBeMutable ∧
      (spiraledState spiraledInOneHeader []).modified ∧
      ¬ UpdateFrame spiraledMd5 (text "fixed") 0 (text "myhost.example.com")
        (spiraledState spiraledInOneHeader []) spiraledInOneHeader) := by
  decide +kernel

end RouteState

end SipXRouter
