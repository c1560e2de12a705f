import SipXRouter.Proxy.RouteStateWritten

/-!
# Route state on the wire

A plugin changes the state of a request, `update` puts the changes into the message, and who
reads the state from the message again is to find what the plugin left.  `setParameter` notes that
there is something to write, `unsetParameter` does not: where parameters were only unset, the
message keeps the token that it came with.
-/

namespace SipXRouter

open List

variable {c : PluginCall} {name parameterName pluginInstance value : Text} {read st : RouteState}
  {values : List (Text × Text)}

namespace RouteState

open SipMessage HttpMessage NameValueTokenizer

variable {md5 : NetMd5Codec} {secret : Text}

/-! ## What stays -/

/-- `update` writes Record-Route headers only. -/
theorem callIdOf_update (junk : Byte) (st : RouteState) (m : SipMessage) :
    callIdOf (st.update md5 secret junk m) = callIdOf m := by
  have hne : recordRouteField ≠ callIdField := by decide
  have hadd : ∀ (m : SipMessage) (route : Text),
      callIdOf (addRecordRouteUri m route) = callIdOf m := by
    intro m route
    rw [callIdOf, getHeaderValue, headerValues_addRecordRouteUri_of_ne m hne]
    rfl
  have hset : ∀ (stateToken : Text) (places : List Nat) (acc : SipMessage × Text),
      callIdOf (places.foldl (updateAt junk stateToken) acc).1 = callIdOf acc.1 := by
    intro stateToken places
    induction places with
    | nil => exact fun _ => rfl
    | cons q places ih =>
      intro acc
      rw [foldl_cons, ih, updateAt]
      show callIdOf (setRecordRouteField acc.1 _ q) = _
      rw [callIdOf, getHeaderValue, setRecordRouteField, headerValues_setHeaderValue_of_ne _ hne]
      rfl
  unfold update
  split
  · dsimp only
    split
    · rw [hadd]
      split
      · exact hadd _ _
      · exact hset _ _ _
    · split
      · exact hadd _ _
      · exact hset _ _ _
  · rfl

/-- The flags that say what there is to write. -/
structure SameFlags (st st' : RouteState) : Prop where
  modified : st'.modified = st.modified
  addCopyRequested : st'.addCopyRequested = st.addCopyRequested
  callId : st'.callId = st.callId

theorem SameFlags.refl (st : RouteState) : SameFlags st st := ⟨rfl, rfl, rfl⟩

theorem SameFlags.trans {st' st'' : RouteState} (h : SameFlags st st')
    (h' : SameFlags st' st'') : SameFlags st st'' :=
  ⟨h'.modified.trans h.modified, h'.addCopyRequested.trans h.addCopyRequested,
    h'.callId.trans h.callId⟩

section Flags

variable (md5 : NetMd5Codec) (secret : Text)

theorem sameFlags_decode (st : RouteState) (stateToken : Text) :
    SameFlags st (st.decode md5 secret stateToken).1 := by
  unfold decode
  cases decodeToken md5 secret st.callId stateToken with
  | none => exact ⟨rfl, rfl, rfl⟩
  | some values => exact ⟨rfl, rfl, rfl⟩

theorem sameFlags_scanRemovedRoutes (routes : List Text) (st : RouteState) :
    SameFlags st (scanRemovedRoutes md5 secret routes st) := by
  induction routes generalizing st with
  | nil => exact .refl st
  | cons route routes ih =>
    rw [scanRemovedRoutes]
    split
    · cases tokenOf route with
      | none => exact ih st
      | some stateToken =>
        have hdecode := sameFlags_decode md5 secret st stateToken
        dsimp only
        split
        · exact ⟨hdecode.modified, hdecode.addCopyRequested, hdecode.callId⟩
        · exact hdecode.trans (ih _)
    · exact ih st

theorem sameFlags_scanRecordRoutes (values : List Text) (rrNum : Nat) (st : RouteState) :
    SameFlags st (scanRecordRoutes md5 secret rrNum values st) := by
  induction values generalizing rrNum st with
  | nil => exact .refl st
  | cons value values ih =>
    rw [scanRecordRoutes]
    dsimp only
    split
    · exact .refl st
    · split
      · cases tokenOf (trim isBlank value) with
        | none => exact ih _ st
        | some stateToken =>
          have hdecode := sameFlags_decode md5 secret st stateToken
          dsimp only
          split
          · have hrest := ih (rrNum + 1)
              { (st.decode md5 secret stateToken).1.pushIndex rrNum with
                foundRouteState := true }
            exact hdecode.trans ⟨hrest.modified, hrest.addCopyRequested, hrest.callId⟩
          · exact hdecode.trans (ih _ _)
      · split
        · have hrest := ih (rrNum + 1) (st.pushIndex rrNum)
          exact ⟨hrest.modified, hrest.addCopyRequested, hrest.callId⟩
        · exact ih _ st

/-- A state that was just made has nothing to write. -/
theorem sameFlags_ofMessage (m : SipMessage) (removedRoutes : List Text) (routeHostPort : Text) :
    SameFlags { callId := callIdOf m } (ofMessage md5 secret m removedRoutes routeHostPort) := by
  have hstart := sameFlags_scanRemovedRoutes md5 secret removedRoutes
    { callId := (m.getHeaderValue 0 callIdField).getD []
      fromTag := (tagOf m fromField).getD []
      routeHostPort := routeHostPort }
  unfold ofMessage
  generalize scanRemovedRoutes md5 secret removedRoutes _ = st at hstart ⊢
  replace hstart : SameFlags { callId := callIdOf m } st :=
    ⟨hstart.modified, hstart.addCopyRequested, hstart.callId⟩
  dsimp only
  split
  · exact hstart
  · have hscan := hstart.trans (sameFlags_scanRecordRoutes md5 secret (recordRoutes m) 0 st)
    -- what follows the loops only decides whether the state may be changed
    split
    · exact hscan
    · split
      · exact ⟨hscan.modified, hscan.addCopyRequested, hscan.callId⟩
      · split
        · exact hscan
        · split
          · exact hscan
          · exact ⟨hscan.modified, hscan.addCopyRequested, hscan.callId⟩

end Flags

/-! ## What calls do -/

namespace PluginCall

/-- A parameter is set under a valid name. -/
def Sets : PluginCall → Prop
  | .setParameter pluginInstance parameterName _ =>
    (routeParameterName pluginInstance parameterName).isSome = true
  | .unsetParameter _ _ => False
  | .addCopy => False

/-- A parameter is unset that has a value in the state. -/
def Drops (st : RouteState) : PluginCall → Prop
  | .setParameter _ _ _ => False
  | .unsetParameter pluginInstance parameterName =>
    (st.getParameter pluginInstance parameterName).isSome = true
  | .addCopy => False

end PluginCall

/-- What one call does to the flags: `setParameter` alone notes that there is something to
write. -/
theorem call_flags (hmutable : st.mayBeMutable = true)
    (hc : c ≠ .addCopy) : ((st.call c).modified = true ↔ st.modified = true ∨ c.Sets) ∧
      (st.call c).addCopyRequested = st.addCopyRequested ∧ (st.call c).callId = st.callId := by
  cases c with
  | setParameter pluginInstance parameterName value =>
    simp only [call, RouteState.setParameter, PluginCall.Sets]
    rw [if_pos hmutable]
    cases routeParameterName pluginInstance parameterName with
    | none => exact ⟨by simp, rfl, rfl⟩
    | some name => exact ⟨by simp, rfl, rfl⟩
  | unsetParameter pluginInstance parameterName =>
    simp only [call, RouteState.unsetParameter, PluginCall.Sets]
    rw [if_pos hmutable]
    cases routeParameterName pluginInstance parameterName with
    | none => exact ⟨by simp, rfl, rfl⟩
    | some name => exact ⟨by simp, rfl, rfl⟩
  | addCopy => exact absurd rfl hc

theorem calls_flags {cs : List PluginCall} (hcs : PluginCall.addCopy ∉ cs)
    (hmutable : st.mayBeMutable = true) :
    ((st.calls cs).modified = true ↔ st.modified = true ∨ ∃ c ∈ cs, c.Sets) ∧
      (st.calls cs).addCopyRequested = st.addCopyRequested ∧ (st.calls cs).callId = st.callId := by
  induction cs generalizing st with
  | nil => exact ⟨by simp [calls], rfl, rfl⟩
  | cons c cs ih =>
    obtain ⟨hmod, hcopy, hcall⟩ := call_flags hmutable (ne_of_not_mem_cons hcs).symm
    have hmutable' : (st.call c).mayBeMutable = true :=
      (calls_frame [c] st).2.2.trans hmutable
    obtain ⟨hmods, hcopies, hcalls⟩ := ih (not_mem_of_not_mem_cons hcs) hmutable'
    refine ⟨?_, hcopies.trans hcopy, hcalls.trans hcall⟩
    rw [calls, foldl_cons, ← calls, hmods, hmod, or_assoc, exists_mem_cons_iff]

theorem findValue_destroyValue_self
    (hsorted : values.Pairwise (·.1 < ·.1)) : findValue name (destroyValue name values) = none := by
  induction values with
  | nil => rfl
  | cons x xs ih =>
    obtain ⟨hx, hxs⟩ := pairwise_cons.mp hsorted
    rw [destroyValue]
    by_cases hbefore : x.1 < name
    · rw [if_pos hbefore, findValue, if_pos hbefore, ih hxs]
    · rw [if_neg hbefore]
      by_cases heq : x.1 = name
      · rw [if_pos heq]
        exact findValue_eq_none fun y hy => heq ▸ hx y hy
      · rw [if_neg heq, findValue, if_neg hbefore, if_neg heq]

theorem destroyValue_of_none
    (hnone : findValue name values = none) : destroyValue name values = values := by
  induction values with
  | nil => rfl
  | cons x xs ih =>
    rw [findValue] at hnone
    rw [destroyValue]
    by_cases hbefore : x.1 < name
    · rw [if_pos hbefore] at hnone ⊢
      rw [ih hnone]
    · rw [if_neg hbefore] at hnone ⊢
      by_cases heq : x.1 = name
      · rw [if_pos heq] at hnone
        simp at hnone
      · rw [if_neg heq]

theorem call_eq_self (hc : c ≠ .addCopy) (hsets : ¬ c.Sets)
    (hdrops : ¬ c.Drops st) : st.call c = st := by
  cases c with
  | setParameter pluginInstance parameterName value =>
    have hname : routeParameterName pluginInstance parameterName = none := by
      simpa [PluginCall.Sets] using hsets
    show st.setParameter pluginInstance parameterName value = st
    rw [RouteState.setParameter, hname, ite_self]
  | unsetParameter pluginInstance parameterName =>
    have hnone : st.getParameter pluginInstance parameterName = none := by
      simpa [PluginCall.Drops] using hdrops
    show st.unsetParameter pluginInstance parameterName = st
    rw [getParameter] at hnone
    rw [RouteState.unsetParameter]
    cases hname : routeParameterName pluginInstance parameterName with
    | none => exact ite_self _
    | some name =>
      rw [hname] at hnone
      dsimp only at hnone ⊢
      rw [destroyValue_of_none hnone, ite_self]
  | addCopy => exact absurd rfl hc

theorem calls_eq_self {cs : List PluginCall} (hcs : PluginCall.addCopy ∉ cs)
    (hidle : ∀ c ∈ cs, ¬ c.Sets ∧ ¬ c.Drops st) : st.calls cs = st := by
  induction cs with
  | nil => rfl
  | cons c cs ih =>
    have hc := hidle c (by simp)
    rw [calls, foldl_cons, call_eq_self (ne_of_not_mem_cons hcs).symm hc.1 hc.2,
      ← calls]
    exact ih (not_mem_of_not_mem_cons hcs) fun d hd => hidle d (by simp [hd])

theorem call_of_none (hst : Ordered st.values) (hsets : ¬ c.Sets)
    (hnone : st.getParameter pluginInstance parameterName = none) :
    (st.call c).getParameter pluginInstance parameterName = none := by
  cases c with
  | setParameter otherInstance otherName value =>
    have hname : routeParameterName otherInstance otherName = none := by
      simpa [PluginCall.Sets] using hsets
    show (st.setParameter otherInstance otherName value).getParameter _ _ = none
    rw [RouteState.setParameter, hname, ite_self]
    exact hnone
  | unsetParameter otherInstance otherName =>
    show (st.unsetParameter otherInstance otherName).getParameter _ _ = none
    rw [RouteState.unsetParameter]
    split
    · cases routeParameterName otherInstance otherName with
      | none => exact hnone
      | some other =>
        unfold getParameter at hnone ⊢
        cases hname : routeParameterName pluginInstance parameterName with
        | none => rfl
        | some name =>
          rw [hname] at hnone
          dsimp only at hnone ⊢
          by_cases heq : name = other
          · rw [heq]
            exact findValue_destroyValue_self hst.sorted
          · rw [findValue_destroyValue heq hst.sorted]
            exact hnone
    · exact hnone
  | addCopy => exact hnone

theorem ordered_call (hst : Ordered st.values) (c : PluginCall) : Ordered (st.call c).values := by
  cases c with
  | setParameter pluginInstance parameterName value =>
    exact hst.setParameter pluginInstance parameterName value
  | unsetParameter pluginInstance parameterName =>
    exact hst.unsetParameter pluginInstance parameterName
  | addCopy => exact hst

theorem calls_of_none {cs : List PluginCall} (hsets : ∀ c ∈ cs, ¬ c.Sets) (hst : Ordered st.values)
    (hnone : st.getParameter pluginInstance parameterName = none) :
    (st.calls cs).getParameter pluginInstance parameterName = none := by
  induction cs generalizing st with
  | nil => exact hnone
  | cons c cs ih =>
    exact ih (fun d hd => hsets d (by simp [hd])) (ordered_call hst c)
      (call_of_none hst (hsets c (by simp)) hnone)

theorem getParameter_of_unset {cs : List PluginCall} (hsets : ∀ c ∈ cs, ¬ c.Sets)
    (hmutable : st.mayBeMutable = true) (hst : Ordered st.values)
    (hunset : PluginCall.unsetParameter pluginInstance parameterName ∈ cs) :
    (st.calls cs).getParameter pluginInstance parameterName = none := by
  induction cs generalizing st with
  | nil => exact absurd hunset not_mem_nil
  | cons c cs ih =>
    have hrest : ∀ d ∈ cs, ¬ d.Sets := fun d hd => hsets d (by simp [hd])
    rcases mem_cons.mp hunset with heq | hunset
    · show ((st.call c).calls cs).getParameter _ _ = none
      refine calls_of_none hrest (ordered_call hst c) ?_
      rw [← heq]
      show (st.unsetParameter pluginInstance parameterName).getParameter _ _ = none
      rw [RouteState.unsetParameter, if_pos hmutable, getParameter]
      cases routeParameterName pluginInstance parameterName with
      | none => rfl
      | some name => exact findValue_destroyValue_self hst.sorted
    · exact ih hrest ((calls_frame [c] st).2.2.trans hmutable) (ordered_call hst c) hunset

/-! ## What the state tells -/

theorem mem_of_findValue (h : findValue name values = some value) : (name, value) ∈ values := by
  induction values with
  | nil => simp [findValue] at h
  | cons x xs ih =>
    rw [findValue] at h
    split at h
    · exact mem_cons_of_mem _ (ih h)
    · split at h
      · next heq =>
          rw [← heq, ← Option.some.inj h]
          exact mem_cons_self
      · simp at h

theorem findValue_of_mem {nv : Text × Text}
    (hsorted : values.Pairwise (·.1 < ·.1)) (hnv : nv ∈ values) :
    findValue nv.1 values = some nv.2 := by
  induction values with
  | nil => exact absurd hnv not_mem_nil
  | cons x xs ih =>
    obtain ⟨hx, hxs⟩ := pairwise_cons.mp hsorted
    rw [findValue]
    rcases mem_cons.mp hnv with rfl | hnv
    · rw [if_neg (List.lt_irrefl _), if_pos rfl]
    · rw [if_pos (hx nv hnv), ih hxs hnv]

theorem Held.mem_of_agrees (hst : st.Held) (hagrees : ∀ pluginInstance parameterName,
      read.getParameter pluginInstance parameterName = st.getParameter pluginInstance parameterName)
    {nv : Text × Text} (hnv : nv ∈ st.values) : nv ∈ read.values := by
  obtain ⟨pluginInstance, parameterName, hname⟩ := hst.named nv hnv
  have h := hagrees pluginInstance parameterName
  unfold getParameter at h
  rw [hname] at h
  dsimp only at h
  rw [findValue_of_mem hst.ordered.sorted hnv] at h
  exact mem_of_findValue h

theorem Held.agrees_nil_iff (hst : st.Held) (hread : read.values = []) :
    (∀ pluginInstance parameterName, read.getParameter pluginInstance parameterName =
          st.getParameter pluginInstance parameterName) ↔ st.values = [] := by
  constructor
  · intro hagrees
    refine eq_nil_iff_forall_not_mem.mpr fun nv hnv => ?_
    have hmem := hst.mem_of_agrees hagrees hnv
    rw [hread] at hmem
    exact absurd hmem not_mem_nil
  · intro hvalues pluginInstance parameterName
    rw [getParameter, getParameter, hread, hvalues]

theorem decodeToken_encode_nil (hvalues : st.values = []) :
    decodeToken md5 secret st.callId (st.encode md5 secret) = none := by
  cases htoken : decodeToken md5 secret st.callId (st.encode md5 secret) with
  | none => rfl
  | some values =>
    obtain ⟨ps, hne, -, hpairs, -⟩ := decodeToken_sound htoken
    have hnone : carriedPairs (st.encode md5 secret) = joinPairs [] := by
      rw [encode, nvpairs, hvalues]
      have hnil : ∀ p ∈ ([] : List (Text × Text)), IsPair p :=
        fun _ hp => absurd hp not_mem_nil
      exact carriedPairs_append hnil _
    have hlength := length_le_joinPairs ps
    rw [← hpairs, hnone] at hlength
    exact absurd (length_eq_zero_iff.mp (Nat.le_zero.mp hlength)) hne

/-- **What the token of a state tells**: all of it, if it has no values, or only names that
`decode` takes. -/
theorem Held.agrees_encode_iff (hst : st.Held)
    (hread : read.values = contentOf md5 secret st.callId (st.encode md5 secret)) :
    (∀ pluginInstance parameterName, read.getParameter pluginInstance parameterName =
          st.getParameter pluginInstance parameterName) ↔ st.values = [] ∨ st.Encodable := by
  constructor
  · intro hagrees
    by_cases hvalues : st.values = []
    · exact .inl hvalues
    · refine .inr ⟨hvalues, fun nv hnv => ?_⟩
      have hmem := hst.mem_of_agrees hagrees hnv
      rw [hread, contentOf] at hmem
      cases htoken : decodeToken md5 secret st.callId (st.encode md5 secret) with
      | none =>
        rw [htoken] at hmem
        exact absurd hmem not_mem_nil
      | some values =>
        rw [htoken] at hmem
        exact (validName_iff (hst.named nv hnv)).mp (validName_of_decodeToken htoken nv hmem)
  · intro h
    have hsame : read.values = st.values := by
      rw [hread, contentOf]
      rcases h with hvalues | hencodable
      · rw [decodeToken_encode_nil hvalues, hvalues]
        rfl
      · rw [decodeToken_encode md5 secret (hst.kept hencodable) hencodable.1]
        rfl
    intro pluginInstance parameterName
    rw [getParameter, getParameter, hsame]

/-! ## What is read -/

theorem values_ofMessage {m : SipMessage} {passed : List Text}
    (hpassed : ∀ t ∈ routeTokens passed, ¬ Accepted md5 secret (callIdOf m) t)
    (routeHostPort : Text) : (ofMessage md5 secret m passed routeHostPort).values =
      ((recordTokens (recordRoutes m)).getLast?.map
        (contentOf md5 secret (callIdOf m))).getD [] := by
  have hnone : (routeTokens passed).findSome? (decodeToken md5 secret (callIdOf m)) = none :=
    findSome?_eq_none_iff.mpr fun t ht => by simpa [Accepted] using hpassed t ht
  rw [(ofMessage_of_recordTokens routeHostPort hnone).2]
  obtain hnil | ⟨init, last, hconcat⟩ := eq_nil_or_concat (recordTokens (recordRoutes m))
  · rw [hnil]
    rfl
  · rw [hconcat, concat_eq_append, foldl_concat, getLast?_concat]
    rfl

/-- The values of a message are none, or those of a token it bears. -/
theorem values_ofMessage_cases (m : SipMessage) (removedRoutes : List Text) (routeHostPort : Text) :
    (ofMessage md5 secret m removedRoutes routeHostPort).values = [] ∨
      ∃ t, decodeToken md5 secret (callIdOf m) t =
        some (ofMessage md5 secret m removedRoutes routeHostPort).values := by
  cases hroutes : (routeTokens removedRoutes).findSome? (decodeToken md5 secret (callIdOf m)) with
  | some values =>
    obtain ⟨t, -, hdecode⟩ := exists_of_findSome?_eq_some hroutes
    exact .inr ⟨t, by rw [(ofMessage_of_routeTokens routeHostPort hroutes).2, hdecode]⟩
  | none =>
    have hpassed : ∀ t ∈ routeTokens removedRoutes, ¬ Accepted md5 secret (callIdOf m) t :=
      fun t ht => by
        rw [Accepted, findSome?_eq_none_iff.mp hroutes t ht]
        exact Bool.false_ne_true
    rw [values_ofMessage hpassed]
    cases (recordTokens (recordRoutes m)).getLast? with
    | none => exact .inl rfl
    | some t =>
      rw [Option.map_some, Option.getD_some, contentOf]
      cases hdecode : decodeToken md5 secret (callIdOf m) t with
      | none => exact .inl rfl
      | some values => exact .inr ⟨t, hdecode⟩

theorem named_ofMessage (m : SipMessage) (removedRoutes : List Text) (routeHostPort : Text) :
    (ofMessage md5 secret m removedRoutes routeHostPort).Named := by
  intro nv hnv
  rcases values_ofMessage_cases m removedRoutes routeHostPort with hnil | ⟨t, hdecode⟩
  · rw [hnil] at hnv
    exact absurd hnv not_mem_nil
  · have hname := validName_of_decodeToken hdecode nv hnv
    exact isRouteParameterName_of_count hname.2.1 hname.2.2

/-! ## What is written -/

/-- The Record-Route values that are looked at: those before the first blank one. -/
def scannedRoutes (m : SipMessage) : List Text :=
  (recordRoutes m).takeWhile (trim isBlank · ≠ [])

/-- What is written is read: each value of this proxy stands alone in the header of its number,
and each text that gets the token is read back as one value that carries it. -/
structure Legible (md5 : NetMd5Codec) (secret : Text) (junk : Byte) (m : SipMessage)
    (st : RouteState) : Prop where
  aligned : ∀ q ∈ st.recordRouteIndices,
    Layout.AlignedAt (fieldRows subfields m recordRouteField) q
  readBack : ReadBack junk (st.encode md5 secret) st (recordRoutes m)
  own : ∀ q ∈ st.recordRouteIndices, ∀ value, (recordRoutes m)[q]? = some value →
    Bears (st.encode md5 secret) (withToken junk (st.encode md5 secret) (trim isBlank value))
  top : st.recordRouteIndices = [] →
    Bears (st.encode md5 secret)
      (bracketed (newRoute junk (st.encode md5 secret) st.routeHostPort))

/-- The token that a value carries when those of this proxy have got theirs. -/
def tokenAfter (own : Text → Bool) (stateToken value : Text) : Option Text :=
  if own value then some stateToken else carried (trim isBlank value)

theorem recordTokens_eq (values : List Text) : recordTokens values =
    (values.takeWhile (trim isBlank · ≠ [])).filterMap
      fun value => carried (trim isBlank value) := by
  rw [recordTokens, takeWhile_map, filterMap_map]
  rfl

theorem recordTokens_rewritten {own : Text → Bool} {f : Text → Text} {stateToken : Text}
    {values : List Text}
    (hbears : ∀ value ∈ values.takeWhile (trim isBlank · ≠ []), own value = true →
      Bears stateToken (f value)) : recordTokens (Layout.rewritten f
        (Layout.placesFrom own 0 (values.takeWhile (trim isBlank · ≠ []))) values) =
      (values.takeWhile (trim isBlank · ≠ [])).filterMap (tokenAfter own stateToken) := by
  generalize hscanned : values.takeWhile (trim isBlank · ≠ []) = scanned at hbears ⊢
  have hrest : (values.dropWhile (trim isBlank · ≠ [])).takeWhile (trim isBlank · ≠ []) = [] := by
    cases hdrop : values.dropWhile (trim isBlank · ≠ []) with
    | nil => rfl
    | cons value rest =>
      have hvalue := head?_dropWhile_not (trim isBlank · ≠ []) values
      rw [hdrop] at hvalue
      exact takeWhile_cons_of_neg (by simpa using hvalue)
  have hsplit : scanned ++ values.dropWhile (trim isBlank · ≠ []) = values := by
    rw [← hscanned]
    exact takeWhile_append_dropWhile
  have hnonblank : ∀ value ∈ scanned, trim isBlank value ≠ [] := fun value hvalue => by
    rw [← hscanned] at hvalue
    simpa using mem_takeWhile_imp hvalue
  -- the values that are looked at are the same ones, rewritten or not
  have hlooked : ∀ value ∈ scanned.map fun value => if own value then f value else value,
      decide (trim isBlank value ≠ []) = true := by
    intro value hvalue
    obtain ⟨before, hbefore, rfl⟩ := mem_map.mp hvalue
    by_cases hown : own before = true
    · rw [if_pos hown]
      exact decide_eq_true (hbears before hbefore hown).ne_nil
    · rw [if_neg hown]
      exact decide_eq_true (hnonblank before hbefore)
  rw [← hsplit, Layout.rewritten_placesFrom, recordTokens_eq, takeWhile_append_of_pos hlooked,
    hrest, append_nil, filterMap_map]
  refine filterMap_congr fun value hvalue => ?_
  rw [Function.comp_apply, tokenAfter]
  by_cases hown : own value = true
  · rw [if_pos hown, if_pos hown]
    exact (hbears value hvalue hown).carried_eq
  · rw [if_neg hown, if_neg hown]

/-- The value belongs to this proxy. -/
def ownValue (md5 : NetMd5Codec) (secret routeHostPort : Text) (m : SipMessage)
    (value : Text) : Bool :=
  isOwn md5 secret (callIdOf m) routeHostPort (trim isBlank value)

/-- The values that belong to this proxy or carry a token. -/
def markedRoutes (md5 : NetMd5Codec) (secret routeHostPort : Text) (m : SipMessage) : List Text :=
  (scannedRoutes m).filter fun value =>
    ownValue md5 secret routeHostPort m value || (carried (trim isBlank value)).isSome

/-- The last value that belongs to this proxy or carries a token belongs to this proxy, if there
is one. -/
def LastIsOwn (md5 : NetMd5Codec) (secret routeHostPort : Text) (m : SipMessage) : Prop :=
  ∀ value ∈ (markedRoutes md5 secret routeHostPort m).getLast?,
    ownValue md5 secret routeHostPort m value = true

instance (md5 : NetMd5Codec) (secret routeHostPort : Text) (m : SipMessage) :
    Decidable (LastIsOwn md5 secret routeHostPort m) :=
  inferInstanceAs (Decidable (∀ value ∈ (markedRoutes _ _ _ _).getLast?, _))

section Update

variable {junk : Byte} {m : SipMessage} {removedRoutes : List Text} {routeHostPort : Text}
  {cs : List PluginCall}

theorem exists_ownPlace (hvalue : value ∈ scannedRoutes m)
    (hown : ownValue md5 secret routeHostPort m value = true) :
    ∃ q ∈ ownPlaces md5 secret routeHostPort m, (recordRoutes m)[q]? = some value := by
  obtain ⟨q, hq⟩ := mem_iff_getElem?.mp hvalue
  have hmem := (Layout.mem_placesFrom hq 0).mpr hown
  rw [Nat.zero_add] at hmem
  refine ⟨q, hmem, ?_⟩
  rw [← takeWhile_append_dropWhile (p := (trim isBlank · ≠ [])) (l := recordRoutes m)]
  exact (getElem?_append_left (List.getElem?_eq_some_iff.mp hq).1).trans hq

/-- Without a value of this proxy there is no place to rewrite. -/
theorem ownPlaces_eq_nil (hnone : ∀ value ∈ scannedRoutes m,
    ownValue md5 secret routeHostPort m value = false) :
    ownPlaces md5 secret routeHostPort m = [] :=
  Layout.placesFrom_eq_nil hnone 0

/-- The tokens after an update, value by value. -/
theorem recordTokens_update
    (hst : st = (ofMessage md5 secret m removedRoutes routeHostPort).calls cs)
    (hmutable : st.mayBeMutable = true) (hmodified : st.modified = true)
    (hcopy : st.addCopyRequested = false) (hlegible : Legible md5 secret junk m st) :
    recordTokens (recordRoutes (st.update md5 secret junk m)) =
      (if ownPlaces md5 secret routeHostPort m = [] then [st.encode md5 secret] else []) ++
        (scannedRoutes m).filterMap
          (tokenAfter (ownValue md5 secret routeHostPort m) (st.encode md5 secret)) := by
  obtain ⟨hindices, hhost⟩ := frame_of_calls hst hmutable
  obtain ⟨haligned, hread, hown, htop⟩ := hlegible
  rw [hindices] at haligned hown htop
  rw [hhost] at htop
  have hdue : st.copyDue = false := by rw [copyDue, hcopy, Bool.false_and]
  rw [recordRoutes_update hst hmutable hmodified haligned hread, hdue, if_neg Bool.false_ne_true,
    nil_append, expectedRoutes]
  generalize st.encode md5 secret = stateToken at hown htop ⊢
  by_cases hnil : ownPlaces md5 secret routeHostPort m = []
  · obtain ⟨hne, hcarried⟩ := htop hnil
    have hlooked : decide (trim isBlank (bracketed (newRoute junk stateToken routeHostPort)) ≠ []) =
        true := decide_eq_true hne
    rw [if_pos hnil, if_pos hnil, recordTokens_eq, takeWhile_cons, if_pos hlooked,
      filterMap_cons, hcarried]
    show stateToken :: (scannedRoutes m).filterMap _ = stateToken :: _
    congr 1
    refine filterMap_congr fun value hvalue => ?_
    rw [tokenAfter, if_neg]
    intro hisOwn
    obtain ⟨q, hq, -⟩ := exists_ownPlace hvalue hisOwn
    rw [hnil] at hq
    exact absurd hq not_mem_nil
  · rw [if_neg hnil, if_neg hnil, nil_append]
    refine recordTokens_rewritten fun value hvalue hisOwn => ?_
    obtain ⟨q, hq, hget⟩ := exists_ownPlace hvalue hisOwn
    exact hown q hq value hget

theorem decodeToken_of_carried {callId route stateToken : Text}
    (hcarried : carried route = some stateToken)
    (hown : ¬ isOwn md5 secret callId routeHostPort route = true) :
    decodeToken md5 secret callId stateToken = none := by
  rw [carried] at hcarried
  split at hcarried
  · next hcontains =>
      rw [isOwn, if_pos hcontains, hcarried] at hown
      simpa using hown
  · simp at hcarried

/-- The last token is the new one if the last value is the own one, and none that decodes
otherwise.
-/
theorem getLast?_recordTokens_update
    (hst : st = (ofMessage md5 secret m removedRoutes routeHostPort).calls cs)
    (hmutable : st.mayBeMutable = true) (hmodified : st.modified = true)
    (hcopy : st.addCopyRequested = false) (hlegible : Legible md5 secret junk m st) :
    ∃ last, (recordTokens (recordRoutes (st.update md5 secret junk m))).getLast? = some last ∧
      (LastIsOwn md5 secret routeHostPort m → last = st.encode md5 secret) ∧
      (¬ LastIsOwn md5 secret routeHostPort m →
        decodeToken md5 secret (callIdOf m) last = none) := by
  rw [recordTokens_update hst hmutable hmodified hcopy hlegible, getLast?_append]
  generalize st.encode md5 secret = stateToken
  have hmarked : (scannedRoutes m).filterMap
        (tokenAfter (ownValue md5 secret routeHostPort m) stateToken) =
      (markedRoutes md5 secret routeHostPort m).filterMap
        (tokenAfter (ownValue md5 secret routeHostPort m) stateToken) := by
    rw [markedRoutes, filterMap_filter]
    refine filterMap_congr fun value _ => ?_
    rw [tokenAfter]
    cases ownValue md5 secret routeHostPort m value with
    | true => rfl
    | false => cases carried (trim isBlank value) <;> rfl
  rw [hmarked]
  obtain hnone | ⟨before, last, hconcat⟩ :=
    eq_nil_or_concat (markedRoutes md5 secret routeHostPort m)
  · -- no value belongs to this proxy
    have hnil : ownPlaces md5 secret routeHostPort m = [] := by
      refine ownPlaces_eq_nil fun value hvalue => ?_
      have hkind := filter_eq_nil_iff.mp hnone value hvalue
      rw [Bool.or_eq_true, not_or] at hkind
      exact Bool.eq_false_iff.mpr hkind.1
    have hlast : LastIsOwn md5 secret routeHostPort m := by
      intro value hvalue
      rw [hnone] at hvalue
      simp at hvalue
    rw [hnone, hnil]
    exact ⟨stateToken, rfl, fun _ => rfl, fun h => absurd hlast h⟩
  · rw [concat_eq_append] at hconcat
    have hgetLast : (markedRoutes md5 secret routeHostPort m).getLast? = some last := by
      rw [hconcat, getLast?_concat]
    have hkind := (mem_filter.mp (mem_of_getLast? hgetLast)).2
    have hiff : LastIsOwn md5 secret routeHostPort m ↔
        ownValue md5 secret routeHostPort m last = true := by
      unfold LastIsOwn
      rw [hgetLast]
      simp
    rw [hiff, hconcat, filterMap_append]
    by_cases hown : ownValue md5 secret routeHostPort m last = true
    · have htoken : [last].filterMap (tokenAfter (ownValue md5 secret routeHostPort m) stateToken) =
          [stateToken] := by simp [tokenAfter, hown]
      rw [htoken, getLast?_concat]
      exact ⟨stateToken, rfl, fun _ => rfl, fun h => absurd hown h⟩
    · rw [Bool.or_eq_true, or_iff_right hown] at hkind
      obtain ⟨foreign, hforeign⟩ := Option.isSome_iff_exists.mp hkind
      have htoken : [last].filterMap (tokenAfter (ownValue md5 secret routeHostPort m) stateToken) =
          [foreign] := by simp [tokenAfter, hown, hforeign]
      rw [htoken, getLast?_concat]
      exact ⟨foreign, rfl, fun h => absurd h hown, fun _ => decodeToken_of_carried hforeign hown⟩

/-! ## Reaching the wire -/

/-- **The changes reach the wire**: who reads the state from the updated message, with no accepted
token among the routes that were removed from it, finds each parameter as it was before the
update. -/
def ReachesWire (md5 : NetMd5Codec) (secret : Text) (junk : Byte) (routeHostPort : Text)
    (m : SipMessage) (st : RouteState) : Prop :=
  ∀ passed : List Text, (∀ t ∈ routeTokens passed, ¬ Accepted md5 secret (callIdOf m) t) →
    ∀ pluginInstance parameterName,
      (ofMessage md5 secret (st.update md5 secret junk m) passed routeHostPort).getParameter
          pluginInstance parameterName =
        st.getParameter pluginInstance parameterName

/-- **What is written can be read**: each value of this proxy stands alone in the header of its
number and takes a token, or this proxy has no value and its own URI takes one. -/
structure Readable (md5 : NetMd5Codec) (secret : Text) (junk : Byte) (routeHostPort : Text)
    (m : SipMessage) (values : List (Text × Text)) : Prop where
  aligned : ∀ q ∈ ownPlaces md5 secret routeHostPort m,
    Layout.AlignedAt (fieldRows subfields m recordRouteField) q
  own : ∀ value ∈ scannedRoutes m, ownValue md5 secret routeHostPort m value = true →
    TakesToken junk (tokenRoom values) (trim isBlank value)
  top : (∀ value ∈ scannedRoutes m, ownValue md5 secret routeHostPort m value = false) →
    TakesToken junk (tokenRoom values) routeHostPort

/-- The values at the places of this proxy are its own. -/
theorem ownValue_of_mem_ownPlaces {q : Nat} (hq : q ∈ ownPlaces md5 secret routeHostPort m)
    (hvalue : (recordRoutes m)[q]? = some value) :
    value ∈ scannedRoutes m ∧ ownValue md5 secret routeHostPort m value = true := by
  have hlt := Layout.lt_of_mem_placesFrom hq
  rw [Nat.zero_add] at hlt
  have hscanned : (scannedRoutes m)[q]? = some value := by
    rw [← hvalue, ← takeWhile_append_dropWhile (p := (trim isBlank · ≠ []))
      (l := recordRoutes m)]
    exact (getElem?_append_left hlt).symm
  refine ⟨mem_of_getElem? hscanned, (Layout.mem_placesFrom hscanned 0).mp ?_⟩
  rwa [Nat.zero_add]

/-- Route values that are readable are so with any token. -/
theorem Readable.legible (hindices : st.recordRouteIndices = ownPlaces md5 secret routeHostPort m)
    (hhost : st.routeHostPort = routeHostPort) (hcopy : st.addCopyRequested = false)
    (hnamed : st.Named) (h : Readable md5 secret junk routeHostPort m st.values) :
    Legible md5 secret junk m st := by
  have htoken := zero_notMem_encode md5 secret hnamed
  have hlength := length_encode_le md5 secret st
  have hroom : 3 * (st.encode md5 secret).length + 20 ≤ tokenRoom st.values := by
    rw [tokenRoom]
    omega
  have hown : ∀ q ∈ st.recordRouteIndices, ∀ value, (recordRoutes m)[q]? = some value →
      Bears (st.encode md5 secret) (withToken junk (st.encode md5 secret) (trim isBlank value)) ∧
        OneValue (withToken junk (st.encode md5 secret) (trim isBlank value)) := by
    intro q hq value hvalue
    rw [hindices] at hq
    obtain ⟨hscanned, hisOwn⟩ := ownValue_of_mem_ownPlaces hq hvalue
    exact (h.own value hscanned hisOwn).withToken htoken (by omega)
  have htop : st.recordRouteIndices = [] →
      Bears (st.encode md5 secret)
        (bracketed (newRoute junk (st.encode md5 secret) st.routeHostPort)) ∧
        OneValue (bracketed (newRoute junk (st.encode md5 secret) st.routeHostPort)) := by
    intro hnil
    rw [hhost]
    refine (h.top fun value hvalue => ?_).newRoute htoken hroom
    by_contra hisOwn
    obtain ⟨q, hq, -⟩ := exists_ownPlace hvalue (by simpa using hisOwn)
    rw [← hindices, hnil] at hq
    exact absurd hq not_mem_nil
  refine ⟨by rw [hindices]; exact h.aligned, ⟨fun q hq value hvalue => (hown q hq value hvalue).2,
    fun hnil => (htop hnil).2, fun hdue => ?_⟩, fun q hq value hvalue => (hown q hq value hvalue).1,
    fun hnil => (htop hnil).1⟩
  rw [copyDue, hcopy, Bool.false_and] at hdue
  cases hdue

/-- **The changes that reach it**: nothing was set or dropped; or a parameter was set, and either
no values are left, or the token holds them all and is the last one that is read. -/
def Recordable (md5 : NetMd5Codec) (secret : Text) (junk : Byte) (routeHostPort : Text)
    (m : SipMessage) (st : RouteState) (cs : List PluginCall) : Prop :=
  (∀ c ∈ cs, ¬ c.Sets ∧ ¬ c.Drops st) ∨
    (∃ c ∈ cs, c.Sets) ∧ Ordered st.values ∧
      Readable md5 secret junk routeHostPort m (st.calls cs).values ∧
      ((st.calls cs).values = [] ∨
        (st.calls cs).Encodable ∧ LastIsOwn md5 secret routeHostPort m)

theorem values_of_update {passed : List Text}
    (hpassed : ∀ t ∈ routeTokens passed, ¬ Accepted md5 secret (callIdOf m) t) :
    (ofMessage md5 secret (st.update md5 secret junk m) passed routeHostPort).values =
      ((recordTokens (recordRoutes (st.update md5 secret junk m))).getLast?.map
        (contentOf md5 secret (callIdOf m))).getD [] := by
  have hcallId : callIdOf (st.update md5 secret junk m) = callIdOf m := callIdOf_update junk st m
  rw [values_ofMessage (by rw [hcallId]; exact hpassed), hcallId]

theorem not_accepted_of_mutable
    (hmutable : (ofMessage md5 secret m removedRoutes routeHostPort).mayBeMutable = true) :
    ∀ t ∈ routeTokens removedRoutes, ¬ Accepted md5 secret (callIdOf m) t := by
  cases hroutes : (routeTokens removedRoutes).findSome? (decodeToken md5 secret (callIdOf m)) with
  | none =>
    intro t ht
    rw [Accepted, findSome?_eq_none_iff.mp hroutes t ht]
    exact Bool.false_ne_true
  | some values =>
    unfold ofMessage at hmutable
    rw [scanRemovedRoutes_tokens removedRoutes rfl] at hmutable
    rw [callIdOf] at hroutes
    simp only [hroutes, if_true] at hmutable
    exact absurd hmutable Bool.false_ne_true

theorem reachesWire_unmodified_iff
    (hst : st = (ofMessage md5 secret m removedRoutes routeHostPort).calls cs)
    (hmutable : st.mayBeMutable = true) (hmodified : ¬ st.modified = true)
    (hcopy : st.addCopyRequested = false) : ReachesWire md5 secret junk routeHostPort m st ↔
      ∀ pluginInstance parameterName,
        (ofMessage md5 secret m removedRoutes routeHostPort).getParameter
            pluginInstance parameterName = st.getParameter pluginInstance parameterName := by
  have hsame : st.update md5 secret junk m = m := by
    rw [update, if_neg]
    rintro ⟨-, h | h⟩
    · exact hmodified h
    · rw [hcopy] at h
      exact Bool.false_ne_true h
  have hmut := (calls_frame cs (ofMessage md5 secret m removedRoutes routeHostPort)).2.2
  rw [← hst, hmutable] at hmut
  have hremoved := not_accepted_of_mutable hmut.symm
  have hread : ∀ passed, (∀ t ∈ routeTokens passed, ¬ Accepted md5 secret (callIdOf m) t) →
      (ofMessage md5 secret (st.update md5 secret junk m) passed routeHostPort).values =
        (ofMessage md5 secret m removedRoutes routeHostPort).values := by
    intro passed hpassed
    rw [hsame, values_ofMessage hpassed, values_ofMessage hremoved]
  constructor
  · intro hreaches pluginInstance parameterName
    rw [← hreaches removedRoutes hremoved, getParameter, getParameter, hread removedRoutes hremoved]
  · intro hkept passed hpassed pluginInstance parameterName
    rw [← hkept, getParameter, getParameter, hread passed hpassed]

/-- Where one was set, the token that is written has to tell the values, and to be read last. -/
theorem reachesWire_modified_iff
    (hst : st = (ofMessage md5 secret m removedRoutes routeHostPort).calls cs)
    (hmutable : st.mayBeMutable = true) (hmodified : st.modified = true)
    (hcopy : st.addCopyRequested = false) (hcallId : st.callId = callIdOf m) (hheld : st.Held)
    (hlegible : Legible md5 secret junk m st) : ReachesWire md5 secret junk routeHostPort m st ↔
      st.values = [] ∨ st.Encodable ∧ LastIsOwn md5 secret routeHostPort m := by
  obtain ⟨last, hlast, hown, hforeign⟩ :=
    getLast?_recordTokens_update hst hmutable hmodified hcopy hlegible
  have hread : ∀ passed, (∀ t ∈ routeTokens passed, ¬ Accepted md5 secret (callIdOf m) t) →
      (ofMessage md5 secret (st.update md5 secret junk m) passed routeHostPort).values =
        contentOf md5 secret (callIdOf m) last := by
    intro passed hpassed
    rw [values_of_update hpassed, hlast]
    rfl
  have hnone : ∀ t ∈ routeTokens [], ¬ Accepted md5 secret (callIdOf m) t :=
    fun t ht => absurd ht not_mem_nil
  by_cases hisOwn : LastIsOwn md5 secret routeHostPort m
  · have hcontent : contentOf md5 secret (callIdOf m) last =
        contentOf md5 secret st.callId (st.encode md5 secret) := by rw [hown hisOwn, hcallId]
    rw [hcontent] at hread
    rw [and_iff_left hisOwn]
    constructor
    · intro hreaches
      exact (hheld.agrees_encode_iff (hread [] hnone)).mp (hreaches [] hnone)
    · intro htold passed hpassed
      exact (hheld.agrees_encode_iff (hread passed hpassed)).mpr htold
  · have hnil : contentOf md5 secret (callIdOf m) last = [] := by
      rw [contentOf, hforeign hisOwn]
      rfl
    rw [hnil] at hread
    rw [or_iff_left fun h => hisOwn h.2]
    constructor
    · intro hreaches
      exact (hheld.agrees_nil_iff (hread [] hnone)).mp (hreaches [] hnone)
    · intro hvalues passed hpassed
      exact (hheld.agrees_nil_iff (hread passed hpassed)).mpr hvalues

end Update

/-- A parameter is set, and another one unset, in a state that comes without values. -/
def oneSet : List PluginCall :=
  [.setParameter (text "plugin") (text "param1") (text "value1"),
    .unsetParameter (text "plugin") (text "param2")]

/-- A request that comes round with a parameter in the token of this proxy. -/
def comesRound : SipMessage :=
  spiraled
    ["<sip:myhost.example.com;lr;sipXecs-rs=plugin%2Aparam1%7EdmFsdWUx%21edef0e3c28eb47723840bbbcd813e370>"]

end RouteState

end SipXRouter
