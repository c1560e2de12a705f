import SipXRouter.Proxy.RouteStateDialog

/-!
# What a found route state says

The constructor reads a token from each removed route until one is accepted, and where
none is, a token from each Record-Route value up to the end.  `decode` clears the
values before it looks at its token, while the found flag only ever goes up.  Here the
two loops are put as functions of the tokens alone, and compared with what they are
for: the content of the token that was validly found, whatever stands beside it.
-/

namespace SipXRouter

open List

variable {st : RouteState} {stateToken : Text} {values : List (Text × Text)}

namespace RouteState

open SipMessage NameValueTokenizer Pattern

/-! ## Tokens -/

/-- The token that the constructor reads from a route value. -/
def carried (route : Text) : Option Text :=
  if containsText urlParameterName route then tokenOf route else none

/-- The tokens that the removed Routes carry. -/
def routeTokens (removedRoutes : List Text) : List Text := removedRoutes.filterMap carried

/-- The tokens of the Record-Route values up to the first that is blank, in order. -/
def recordTokens (values : List Text) : List Text :=
  ((values.map (trim isBlank)).takeWhile (· ≠ [])).filterMap carried

/-- The token was signed for the call, and its pairs could be read. -/
def Accepted (md5 : NetMd5Codec) (secret callId stateToken : Text) : Prop :=
  (decodeToken md5 secret callId stateToken).isSome = true

instance (md5 : NetMd5Codec) (secret callId stateToken : Text) :
    Decidable (Accepted md5 secret callId stateToken) :=
  inferInstanceAs (Decidable (_ = _))

/-- What is validly found among tokens: the content of the first accepted one of the
removed routes, else of the last accepted one of the Record-Route values. -/
def validContent (md5 : NetMd5Codec) (secret callId : Text) (routes records : List Text) :
    Option (List (Text × Text)) :=
  routes.findSome? (decodeToken md5 secret callId) <|>
    (records.filterMap (decodeToken md5 secret callId)).getLast?

/-! ## The loops over tokens -/

variable {md5 : NetMd5Codec} {secret : Text}

theorem insertValue_ne_nil (nv : Text × Text) (values : List (Text × Text)) :
    insertValue nv values ≠ [] := by
  cases values with
  | nil => exact cons_ne_nil _ _
  | cons x xs =>
    rw [insertValue]
    split <;> exact cons_ne_nil _ _

theorem decodePairs_ne_nil : ∀ (fuel : Nat) {m : Match} {values result : List (Text × Text)},
    decodePairs fuel m values = some result → result ≠ [] := by
  intro fuel
  induction fuel with
  | zero => intro m values result h; simp [decodePairs] at h
  | succ fuel ih =>
    intro m values result h
    simp only [decodePairs] at h
    split at h
    · cases hvalue : decodeValue ((m.group 2).getD []) with
      | none => simp [hvalue] at h
      | some value =>
        simp only [hvalue] at h
        split at h
        · cases h
          exact insertValue_ne_nil _ _
        · cases hsearch : search nameValue m.rest with
          | none =>
            rw [hsearch] at h
            cases h
            exact insertValue_ne_nil _ _
          | some m' =>
            rw [hsearch] at h
            exact ih h
    · simp at h

theorem decodeToken_ne_nil {callId : Text}
    (h : decodeToken md5 secret callId stateToken = some values) : values ≠ [] := by
  obtain ⟨_, _, -, -, -, hpairs⟩ := decodeToken_eq_some h
  exact decodePairs_ne_nil _ hpairs

theorem decode_of_some (h : decodeToken md5 secret st.callId stateToken = some values) :
    st.decode md5 secret stateToken = ({ st with values := values }, true) := by
  rw [decode, h]

theorem decode_of_none (h : decodeToken md5 secret st.callId stateToken = none) :
    st.decode md5 secret stateToken = ({ st with values := [] }, false) := by
  rw [decode, h]

/-- The scan takes the first token of the removed routes that decodes. -/
theorem scanRemovedRoutes_tokens (routes : List Text) (hst : st.values = []) :
    scanRemovedRoutes md5 secret routes st =
      match (routeTokens routes).findSome? (decodeToken md5 secret st.callId) with
      | none => st
      | some values => { st with values := values, foundRouteState := true } := by
  induction routes with
  | nil => rfl
  | cons route routes ih =>
    rw [scanRemovedRoutes, routeTokens, filterMap_cons, carried]
    by_cases hcontains : containsText urlParameterName route = true
    · rw [if_pos hcontains, if_pos hcontains]
      cases htoken : tokenOf route with
      | none => exact ih
      | some stateToken =>
        dsimp only
        rw [findSome?_cons]
        cases hdecode : decodeToken md5 secret st.callId stateToken with
        | some values => rw [decode_of_some hdecode, if_pos rfl]
        | none =>
          -- the values that `decode` clears were empty
          have hsame : ({ st with values := [] } : RouteState) = st := by rw [← hst]
          rw [decode_of_none hdecode, hsame, if_neg (by simp)]
          exact ih
    · rw [if_neg hcontains, if_neg hcontains]
      exact ih

/-- The values after a token was read. -/
def contentOf (md5 : NetMd5Codec) (secret callId stateToken : Text) : List (Text × Text) :=
  (decodeToken md5 secret callId stateToken).getD []

/-- The scan ends with what the last token of the Record-Routes decodes to. -/
theorem scanRecordRoutes_tokens (values : List Text) (rrNum : Nat) (st : RouteState) :
    (scanRecordRoutes md5 secret rrNum values st).foundRouteState = (st.foundRouteState ||
          (recordTokens values).any fun t => decide (Accepted md5 secret st.callId t)) ∧
      (scanRecordRoutes md5 secret rrNum values st).values =
        (recordTokens values).foldl (fun _ t => contentOf md5 secret st.callId t) st.values := by
  induction values generalizing rrNum st with
  | nil => exact ⟨(Bool.or_false _).symm, rfl⟩
  | cons value values ih =>
    rw [scanRecordRoutes, recordTokens, map_cons]
    by_cases hnil : trim isBlank value = []
    · rw [takeWhile_cons_of_neg (by simpa using hnil)]
      simp only [hnil, if_true, filterMap_nil, any_nil, Bool.or_false,
        foldl_nil, and_self]
    rw [takeWhile_cons_of_pos (by simpa using hnil), filterMap_cons, carried]
    dsimp only
    rw [if_neg hnil]
    by_cases hcontains : containsText urlParameterName (trim isBlank value) = true
    · rw [if_pos hcontains, if_pos hcontains]
      cases tokenOf (trim isBlank value) with
      | none => exact ih (rrNum + 1) st
      | some stateToken =>
        dsimp only
        rw [any_cons, foldl_cons, contentOf]
        cases hdecode : decodeToken md5 secret st.callId stateToken with
        | some content =>
          have hok : Accepted md5 secret st.callId stateToken := by rw [Accepted, hdecode]; rfl
          rw [decode_of_some hdecode, if_pos rfl, decide_eq_true hok, Bool.true_or,
            Bool.or_true]
          obtain ⟨hfound, hvalues⟩ := ih (rrNum + 1)
            { ({ st with values := content } : RouteState).pushIndex rrNum with
              foundRouteState := true }
          exact ⟨hfound.trans (Bool.true_or _), hvalues⟩
        | none =>
          have hbad : ¬ Accepted md5 secret st.callId stateToken := by
            rw [Accepted, hdecode]; exact Bool.false_ne_true
          rw [decode_of_none hdecode, if_neg Bool.false_ne_true, decide_eq_false hbad,
            Bool.false_or]
          exact ih (rrNum + 1) { st with values := [] }
    · rw [if_neg hcontains, if_neg hcontains]
      split
      · exact ih (rrNum + 1) _
      · exact ih (rrNum + 1) st

/-! ## What the state says -/

/-- The Call-Id that tokens are checked against. -/
def callIdOf (m : SipMessage) : Text := (m.getHeaderValue 0 callIdField).getD []

/-- **A found state can be relied on**: it is the content of a token that came with the
message and whose signature is that of its call, and it is the one that was validly
found. -/
structure Trusted (md5 : NetMd5Codec) (secret : Text) (m : SipMessage)
    (removedRoutes : List Text) (routeHostPort : Text) : Prop where
  content : (ofMessage md5 secret m removedRoutes routeHostPort).foundRouteState = true →
    ∃ t ∈ routeTokens removedRoutes ++ recordTokens (recordRoutes m),
      carriedSignature t = md5.hash (secret ++ callIdOf m ++ carriedPairs t) ∧
        decodeToken md5 secret (callIdOf m) t =
          some (ofMessage md5 secret m removedRoutes routeHostPort).values
  kept : ∀ values ∈ validContent md5 secret (callIdOf m) (routeTokens removedRoutes)
      (recordTokens (recordRoutes m)),
    (ofMessage md5 secret m removedRoutes routeHostPort).foundRouteState = true ∧
      (ofMessage md5 secret m removedRoutes routeHostPort).values = values

variable {m : SipMessage} {removedRoutes : List Text} (routeHostPort : Text)

theorem ofMessage_of_routeTokens
    (h : (routeTokens removedRoutes).findSome? (decodeToken md5 secret (callIdOf m)) =
      some values) : (ofMessage md5 secret m removedRoutes routeHostPort).foundRouteState = true ∧
      (ofMessage md5 secret m removedRoutes routeHostPort).values = values := by
  unfold ofMessage
  rw [scanRemovedRoutes_tokens removedRoutes rfl]
  simp only [callIdOf] at h
  simp only [h, if_true, and_self]

theorem ofMessage_of_recordTokens
    (h : (routeTokens removedRoutes).findSome? (decodeToken md5 secret (callIdOf m)) = none) :
    (ofMessage md5 secret m removedRoutes routeHostPort).foundRouteState =
        (recordTokens (recordRoutes m)).any (fun t => decide (Accepted md5 secret (callIdOf m) t)) ∧
      (ofMessage md5 secret m removedRoutes routeHostPort).values =
        (recordTokens (recordRoutes m)).foldl
          (fun _ t => contentOf md5 secret (callIdOf m) t) [] := by
  unfold ofMessage
  rw [scanRemovedRoutes_tokens removedRoutes rfl]
  simp only [callIdOf] at h ⊢
  simp only [h, Bool.false_eq_true, if_false]
  have hscan := @scanRecordRoutes_tokens md5 secret (recordRoutes m) 0
    { callId := (m.getHeaderValue 0 callIdField).getD []
      fromTag := (tagOf m fromField).getD []
      routeHostPort := routeHostPort }
  rw [Bool.false_or] at hscan
  generalize scanRecordRoutes md5 secret 0 (recordRoutes m) _ = st at hscan ⊢
  -- what follows the loops only decides whether the state may be changed
  split
  · exact hscan
  · split
    · exact hscan
    · split
      · exact hscan
      · split
        · exact hscan
        · exact hscan

theorem signature_of_decodeToken {callId : Text}
    (h : decodeToken md5 secret callId stateToken = some values) :
    carriedSignature stateToken = md5.hash (secret ++ callId ++ carriedPairs stateToken) := by
  obtain ⟨ps, -, -, hpairs, hsignature⟩ := decodeToken_sound h
  rw [hsignature, hpairs]

/-- **When a found state can be relied on**: an accepted token is among the removed
routes, or no token of the Record-Route values is accepted, or the last one of them is. -/
theorem trusted_iff (md5 : NetMd5Codec) (secret : Text) (m : SipMessage)
    (removedRoutes : List Text) (routeHostPort : Text) :
    Trusted md5 secret m removedRoutes routeHostPort ↔
      (∃ t ∈ routeTokens removedRoutes, Accepted md5 secret (callIdOf m) t) ∨
      (∀ t ∈ recordTokens (recordRoutes m), ¬ Accepted md5 secret (callIdOf m) t) ∨
      ∃ t ∈ (recordTokens (recordRoutes m)).getLast?, Accepted md5 secret (callIdOf m) t := by
  cases hroutes : (routeTokens removedRoutes).findSome? (decodeToken md5 secret (callIdOf m)) with
  | some values =>
    obtain ⟨t, ht, hdecode⟩ := exists_of_findSome?_eq_some hroutes
    obtain ⟨hfound, hvalues⟩ := ofMessage_of_routeTokens routeHostPort hroutes
    have haccepted : Accepted md5 secret (callIdOf m) t := by rw [Accepted, hdecode]; rfl
    refine ⟨fun _ => .inl ⟨t, ht, haccepted⟩, fun _ => ⟨fun _ => ?_, fun values' hvalid => ?_⟩⟩
    · exact ⟨t, mem_append_left _ ht, signature_of_decodeToken hdecode, by rw [hvalues, hdecode]⟩
    · rw [validContent, hroutes] at hvalid
      exact ⟨hfound, hvalues.trans (Option.some_inj.mp hvalid)⟩
  | none =>
    have hnone : ∀ t ∈ routeTokens removedRoutes, ¬ Accepted md5 secret (callIdOf m) t := by
      intro t ht haccepted
      rw [Accepted, findSome?_eq_none_iff.mp hroutes t ht] at haccepted
      exact Bool.false_ne_true haccepted
    obtain ⟨hfound, hvalues⟩ := ofMessage_of_recordTokens routeHostPort hroutes
    have hvalid : validContent md5 secret (callIdOf m) (routeTokens removedRoutes)
        (recordTokens (recordRoutes m)) =
        ((recordTokens (recordRoutes m)).filterMap
          (decodeToken md5 secret (callIdOf m))).getLast? := by
      rw [validContent, hroutes]
      rfl
    constructor
    · intro h
      by_cases hany : ∃ t ∈ recordTokens (recordRoutes m), Accepted md5 secret (callIdOf m) t
      · obtain ⟨t, ht, haccepted⟩ := hany
        have hgiven : (ofMessage md5 secret m removedRoutes routeHostPort).foundRouteState = true := by
          rw [hfound, any_eq_true]
          exact ⟨t, ht, decide_eq_true haccepted⟩
        obtain ⟨_, -, -, hcontent⟩ := h.content hgiven
        obtain hnil | ⟨init, last, hconcat⟩ :=
          eq_nil_or_concat (recordTokens (recordRoutes m))
        · rw [hnil] at ht
          exact absurd ht not_mem_nil
        · rw [concat_eq_append] at hconcat
          refine .inr (.inr ⟨last, by rw [hconcat, getLast?_concat]; rfl, ?_⟩)
          -- a last token that is not accepted leaves no values
          have hne := decodeToken_ne_nil hcontent
          rw [hvalues, hconcat, foldl_concat, contentOf] at hne
          rw [Accepted]
          cases hdecode : decodeToken md5 secret (callIdOf m) last with
          | some values => rfl
          | none => rw [hdecode] at hne; exact absurd rfl hne
      · exact .inr (.inl fun t ht haccepted => hany ⟨t, ht, haccepted⟩)
    · rintro (⟨t, ht, haccepted⟩ | hrecords | ⟨last, hlast, haccepted⟩)
      · exact absurd haccepted (hnone t ht)
      · refine ⟨fun hgiven => ?_, fun values hvalues' => ?_⟩
        · rw [hfound, any_eq_true] at hgiven
          obtain ⟨t, ht, haccepted⟩ := hgiven
          exact absurd (of_decide_eq_true haccepted) (hrecords t ht)
        · rw [hvalid] at hvalues'
          obtain ⟨t, ht, hdecode⟩ := mem_filterMap.mp (mem_of_getLast? hvalues')
          exact absurd (by rw [Accepted, hdecode]; rfl) (hrecords t ht)
      · obtain ⟨init, hconcat⟩ := getLast?_eq_some_iff.mp hlast
        obtain ⟨content, hdecode⟩ := Option.isSome_iff_exists.mp haccepted
        have hmem : last ∈ recordTokens (recordRoutes m) := mem_of_getLast? hlast
        have hread : (ofMessage md5 secret m removedRoutes routeHostPort).values = content := by
          rw [hvalues, hconcat, foldl_concat, contentOf, hdecode, Option.getD_some]
        refine ⟨fun _ => ⟨last, mem_append_right _ hmem, signature_of_decodeToken hdecode,
          by rw [hread, hdecode]⟩, fun values hvalues' => ⟨?_, ?_⟩⟩
        · rw [hfound, any_eq_true]
          exact ⟨last, hmem, decide_eq_true haccepted⟩
        · rw [hvalid, hconcat, filterMap_append, filterMap_cons, hdecode,
            filterMap_nil, getLast?_concat] at hvalues'
          exact hread.trans (Option.some_inj.mp hvalues')

/-- A request whose Record-Route values are the one of this proxy with its token, and one
that somebody else put below it. -/
def forgedBelow : SipMessage :=
  spiraled
    ["<sip:myhost.example.com;lr;sipXecs-rs=plugin%2Aparam1%7EdmFsdWUx%21edef0e3c28eb47723840bbbcd813e370>",
      "<sip:other.example.com;lr;sipXecs-rs=forged>"]

/-- The token of this proxy is found, and the other value erases what it says. -/
theorem not_trusted_forgedBelow :
    ¬ Trusted spiraledMd5 (text "fixed") forgedBelow [] (text "myhost.example.com") := by
  intro h
  have hstate : ((ofMessage spiraledMd5 (text "fixed") forgedBelow []
        (text "myhost.example.com")).foundRouteState,
      (ofMessage spiraledMd5 (text "fixed") forgedBelow []
        (text "myhost.example.com")).values) = (true, []) := by decide +kernel
  obtain ⟨hfound, hvalues⟩ := Prod.mk.inj hstate
  obtain ⟨_, -, -, hcontent⟩ := h.content hfound
  exact decodeToken_ne_nil hcontent hvalues

end RouteState

end SipXRouter
