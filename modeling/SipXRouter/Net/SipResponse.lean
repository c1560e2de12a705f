import SipXRouter.Net.BranchId
import SipXRouter.Net.SipSubscriptionMgr
import SipXRouter.Net.UrlAppend
import SipXRouter.Proxy.RouteStateUpdate

/-!
# The tag of a response

`SipMessage::setResponseData` gives a response the To field of its request, with a tag where there
is none.  Whether there is one is seen by a search for `;tag=`, and the tag is put in by
`setUriParameter`, which searches for `tag=` and replaces what stands behind it.
-/

namespace SipXRouter

open List RouteState Url

/-- A tag of `CallId::getNewTag`: the first six characters of an MD5 value in base 64. -/
structure NewTag where
  value : Text
  length_eq : value.length = 6
  isSymbol : ∀ c ∈ value, Base64Alphabet.sipTokenSafe.isSymbol c = true

namespace NewTag

theorem isToken (tag : NewTag) : IsToken tag.value := by
  refine ⟨fun hnil => ?_, fun c hc => ?_⟩
  · have hlength := tag.length_eq
    rw [hnil] at hlength
    exact absurd hlength nofun
  · have hbytes : ∀ c : Byte, Base64Alphabet.sipTokenSafe.isSymbol c = true →
        isTokenByte c = true := by decide +kernel
    exact hbytes c (tag.isSymbol c hc)

end NewTag

namespace SipMessage

open HttpMessage

/-- `SIP_CSEQ_FIELD`. -/
def cSeqField : Text := text "CSEQ"

/-- `SIP_TRYING_CODE`. -/
def tryingCode : Int := 100

def getToField (m : SipMessage) : Text := (m.getHeaderValue 0 RouteState.toField).getD []

def setCSeqField (m : SipMessage) (sequenceNumber : Int) (method : Text) : SipMessage :=
  m.setHeaderValue cSeqField (intText sequenceNumber ++ byte ' ' :: method) 0

def setResponseFirstHeaderLine (m : SipMessage) (protocol : Text) (statusCode : Int)
    (statusText : Text) : SipMessage :=
  { m with
    firstHeaderLine := protocol ++ byte ' ' :: (intText statusCode ++ byte ' ' :: statusText) }

/-- The To field of a response: a tag is set unless `;tag=` occurs in it or the response is a 100.
-/
def toFieldOfResponse (statusCode : Int) (toField tagValue : Text) : Text :=
  if statusCode ≠ tryingCode ∧ ¬ containsText (text ";tag=") toField then
    SubscribeRequest.setUriParameter toField (text "tag") tagValue
  else toField

/-- The fields of a response, set one after the other. -/
def setResponseData (m : SipMessage) (statusCode : Int) (statusText fromField toField callId : Text)
    (sequenceNumber : Int) (sequenceMethod : Text) (localContact : Option Text) (newTag : NewTag) :
    SipMessage :=
  let m : SipMessage := m.setResponseFirstHeaderLine (text "SIP/2.0") statusCode statusText
  let m : SipMessage := m.setHeaderValue RouteState.fromField fromField 0
  let m : SipMessage := m.setHeaderValue RouteState.toField
    (toFieldOfResponse statusCode toField newTag.value) 0
  let m : SipMessage := m.setHeaderValue callIdField callId 0
  let m : SipMessage :=
    if 0 ≤ sequenceNumber then m.setCSeqField sequenceNumber sequenceMethod else m
  match localContact with
  | some contact => m.setHeaderValue contactField contact 0
  | none => m

/-! ## The To field -/

theorem getToField_setHeaderValue_of_ne (m : SipMessage) {name : Text}
    (hne : name ≠ RouteState.toField) (value : Text) (index : Nat) :
    getToField (m.setHeaderValue name value index) = getToField m := by
  rw [getToField, getHeaderValue, headerValues_setHeaderValue_of_ne m hne, ← getHeaderValue,
    getToField]

theorem getToField_setHeaderValue (m : SipMessage) (value : Text) :
    getToField (m.setHeaderValue RouteState.toField value 0) = value := by
  have hvalues := headerValues_setHeaderValue m RouteState.toField value 0
  have hfirst : ((m.setHeaderValue RouteState.toField value 0).headerValues
      RouteState.toField)[0]? = some value := by
    rw [hvalues]
    cases m.headerValues RouteState.toField <;> rfl
  rw [getToField, getHeaderValue, hfirst]
  by_cases hnil : value = []
  · rw [hnil]
    rfl
  · show (if value = [] then none else some value).getD [] = value
    rw [if_neg hnil]
    rfl

/-- The To header of the response, as a function of that of the request. -/
theorem getToField_setResponseData (m : SipMessage) (statusCode : Int)
    (statusText fromField toField callId : Text) (sequenceNumber : Int) (sequenceMethod : Text)
    (localContact : Option Text) (newTag : NewTag) :
    getToField (m.setResponseData statusCode statusText fromField toField callId sequenceNumber
      sequenceMethod localContact newTag) = toFieldOfResponse statusCode toField newTag.value := by
  have hcseq : ∀ m : SipMessage, getToField
      (if 0 ≤ sequenceNumber then m.setCSeqField sequenceNumber sequenceMethod else m) =
        getToField m := by
    intro m
    split
    · exact getToField_setHeaderValue_of_ne m (by decide) _ 0
    · rfl
  unfold setResponseData
  dsimp only
  cases localContact with
  | none =>
    rw [hcseq, getToField_setHeaderValue_of_ne _ (by decide), getToField_setHeaderValue]
  | some contact =>
    show getToField (HttpMessage.setHeaderValue _ contactField contact 0) = _
    rw [getToField_setHeaderValue_of_ne _ (by decide), hcseq,
      getToField_setHeaderValue_of_ne _ (by decide), getToField_setHeaderValue]

/-- What is expected of the To field of a response: a tag is kept with all else, and one is added
where there is none, or not. -/
structure TagKept (toField toField' tagValue : Text) : Prop where
  kept : ((fromString toField .nameAddr).getFieldParameter (text "tag")).isSome = true →
    fromString toField' .nameAddr = fromString toField .nameAddr
  added : (fromString toField .nameAddr).getFieldParameter (text "tag") = none →
    toField' = toField ∨ fromString toField' .nameAddr =
      { fromString toField .nameAddr with
        fieldParameters := (fromString toField .nameAddr).fieldParameters ++
          [(text "tag", tagValue)] }

/-- The tag is seen, or there is none and no text that looks like one, and one can be added. -/
def TagSeen (statusCode : Int) (toField : Text) : Prop :=
  statusCode = tryingCode ∨ containsText (text ";tag=") toField = true ∨
    containsText (text "tag=") toField = false ∧
      (fromString toField .nameAddr).getFieldParameter (text "tag") = none ∧
        TakesParams (parseFront .nameAddr toField)

theorem setUriParameter_of_not {toField tagValue : Text} (hne : tagValue ≠ [])
    (hnot : containsText (text "tag=") toField = false) :
    SubscribeRequest.setUriParameter toField (text "tag") tagValue =
      toField ++ addedText [] (text "tag", tagValue) := by
  have hindex : UtlString.index toField (text "tag=") = none := by
    rw [UtlString.index, findIdx?_eq_none_iff]
    intro t ht
    rw [containsText, any_eq_false] at hnot
    exact eq_false_of_ne_true (hnot t ht)
  have htag : text "tag" ++ [byte '='] = text "tag=" := rfl
  rw [SubscribeRequest.setUriParameter, if_neg hne, htag]
  dsimp only
  rw [hindex]
  rfl

/-! ### A tag behind blanks -/

/-- The first `tag=` is that of the added parameter. -/
theorem occurrence_tag {front blanks old pre post : Text}
    (hfront : containsText (text "tag=") front = false)
    (h : IsAddedParam blanks (text "tag", old))
    (heq : front ++ addedText blanks (text "tag", old) = pre ++ (text "tag=" ++ post)) :
    pre = front ++ byte ';' :: blanks ∧ post = old := by
  have htag : text "tag=" = [byte 't', byte 'a', byte 'g', byte '='] := rfl
  have hadded : addedText blanks (text "tag", old) =
      byte ';' :: (blanks ++ (text "tag=" ++ old)) := rfl
  have hold : byte '=' ∉ old := fun hmem => absurd (h.value.2 _ hmem) (by decide)
  rw [hadded] at heq
  obtain ⟨x, hpre, hrest⟩ | ⟨x, hfrontx, hrest⟩ := append_eq_append_iff.mp heq
  · -- the place is behind the text in front
    cases x with
    | nil => exact absurd (List.cons.inj hrest).1 (by decide)
    | cons c x =>
      obtain ⟨rfl, hbehind⟩ := List.cons.inj hrest
      have hbehind : blanks ++ (text "tag=" ++ old) = x ++ (text "tag=" ++ post) := hbehind
      obtain ⟨z, rfl, hz⟩ | ⟨z, rfl, hz⟩ := append_eq_append_iff.mp hbehind
      · rw [htag] at hz
        match z, hz with
        | [], hz =>
          rw [append_nil] at hpre
          exact ⟨hpre, (append_cancel_left hz).symm⟩
        | [_], hz => simp at hz; exact absurd hz.2.1 (by decide)
        | [_, _], hz => simp at hz; exact absurd hz.2.2.1 (by decide)
        | [_, _, _], hz => simp at hz; exact absurd hz.2.2.2.1 (by decide)
        | _ :: _ :: _ :: _ :: z, hz =>
          simp at hz
          exact absurd (by rw [hz.2.2.2.2]; simp) hold
      · cases z with
        | nil =>
          rw [append_nil]
          exact ⟨hpre, append_cancel_left hz⟩
        | cons d z =>
          have hd := h.blanks d (mem_append_right x mem_cons_self)
          rw [← (List.cons.inj hz).1] at hd
          exact absurd hd (by decide)
  · -- it does not begin in the text in front
    rw [htag] at hrest
    match x, hrest with
    | [], hrest => exact absurd (List.cons.inj hrest).1 (by decide)
    | [_], hrest => simp at hrest; exact absurd hrest.2.1 (by decide)
    | [_, _], hrest => simp at hrest; exact absurd hrest.2.2.1 (by decide)
    | [_, _, _], hrest => simp at hrest; exact absurd hrest.2.2.2.1 (by decide)
    | a :: b :: c :: d :: x, hrest =>
      simp at hrest
      obtain ⟨rfl, rfl, rfl, rfl, -⟩ := hrest
      have hmem : text "tag=" <:+: front := ⟨pre, x, by rw [hfrontx, htag]; simp⟩
      rw [containsText_iff.mpr hmem] at hfront
      exact Bool.noConfusion hfront

/-- **A tag behind blanks is replaced.** -/
theorem toFieldOfResponse_blanks {statusCode : Int} (hstatus : statusCode ≠ tryingCode)
    {front blanks old : Text} (hfront : containsText (text "tag=") front = false)
    (h : IsAddedParam blanks (text "tag", old)) (hne : blanks ≠ []) {tagValue : Text}
    (hvalue : tagValue ≠ []) :
    toFieldOfResponse statusCode (front ++ addedText blanks (text "tag", old)) tagValue =
      front ++ addedText blanks (text "tag", tagValue) := by
  have hplace : text "tag=" <:+: front ++ addedText blanks (text "tag", old) :=
    ⟨front ++ byte ';' :: blanks, old, by
      have htag : text "tag=" = text "tag" ++ [byte '='] := rfl
      rw [addedText, htag]
      simp⟩
  have hunseen :
      ¬ containsText (text ";tag=") (front ++ addedText blanks (text "tag", old)) = true := by
    intro hsome
    obtain ⟨pre, post, heq⟩ := containsText_iff.mp hsome
    have heq' : front ++ addedText blanks (text "tag", old) =
        (pre ++ [byte ';']) ++ (text "tag=" ++ post) := by
      have htag : text ";tag=" = byte ';' :: text "tag=" := rfl
      rw [← heq, htag]
      simp
    obtain ⟨hpre, -⟩ := occurrence_tag hfront h heq'
    -- the byte in front of the tag is a blank
    obtain ⟨init, c, rfl⟩ : ∃ init c, blanks = init ++ [c] :=
      ⟨blanks.dropLast, blanks.getLast hne, (dropLast_concat_getLast hne).symm⟩
    have hlast := congrArg getLast? hpre
    rw [getLast?_concat, ← cons_append, ← append_assoc,
      getLast?_concat] at hlast
    have hc := h.blanks c (mem_append_right init mem_cons_self)
    rw [← Option.some.inj hlast] at hc
    exact absurd hc (by decide)
  obtain ⟨i, hindex⟩ := UtlString.exists_index hplace
  obtain ⟨pre, post, heq, hlength⟩ := UtlString.index_eq_some hindex
  obtain ⟨hpre, rfl⟩ := occurrence_tag hfront h heq
  have hname : text "tag" ++ [byte '='] = text "tag=" := rfl
  rw [toFieldOfResponse, if_pos ⟨hstatus, hunseen⟩, SubscribeRequest.setUriParameter,
    if_neg hvalue, hname]
  dsimp only
  have htake : (front ++ addedText blanks (text "tag", post)).take (i + (text "tag=").length) =
      pre ++ text "tag=" := by
    rw [heq, ← append_assoc, ← hlength, ← length_append, take_left]
  have hdrop : (front ++ addedText blanks (text "tag", post)).drop (i + (text "tag=").length) =
      post := by
    rw [heq, ← append_assoc, ← hlength, ← length_append, drop_left]
  have hend : post.dropWhile (!oneOf " \t;" ·) = [] := by
    rw [dropWhile_eq_nil_iff]
    intro c hc
    have hbytes : ∀ c : Byte, isTokenByte c = true → (!oneOf " \t;" c) = true := by decide +kernel
    exact hbytes c (h.value.2 c hc)
  rw [hindex]
  show (front ++ addedText blanks (text "tag", post)).take (i + (text "tag=").length) ++ tagValue ++
    ((front ++ addedText blanks (text "tag", post)).drop (i + (text "tag=").length)).dropWhile _ = _
  rw [htake, hdrop, hend, append_nil, hpre]
  have htag : text "tag=" = text "tag" ++ [byte '='] := rfl
  rw [addedText, htag]
  simp

/-- **The tag of a response.**  Where the tag is seen, or there is none and one can be added, the To
field comes out as expected.  Without the text of a tag in the To field it does so in no other case;
and with a tag behind blanks it does not. -/
theorem tagKept_setResponseData (request response : SipMessage) (statusCode : Int)
    (statusText fromField callId : Text) (sequenceNumber : Int) (sequenceMethod : Text)
    (localContact : Option Text) (newTag : NewTag)
    (hknown : (fromString (getToField request) .nameAddr).scheme ≠ .unknown) :
    let kept := TagKept (getToField request)
      (getToField (response.setResponseData statusCode statusText fromField (getToField request)
        callId sequenceNumber sequenceMethod localContact newTag)) newTag.value
    (TagSeen statusCode (getToField request) → kept) ∧
      (containsText (text "tag=") (getToField request) = false → kept →
        TagSeen statusCode (getToField request)) ∧
      ∀ front blanks old : Text, getToField request = front ++ addedText blanks (text "tag", old) →
        (fromString front .nameAddr).scheme ≠ .unknown → TakesParams (parseFront .nameAddr front) →
        containsText (text "tag=") front = false → IsAddedParam blanks (text "tag", old) →
        blanks ≠ [] → statusCode ≠ tryingCode → old ≠ newTag.value → ¬ kept := by
  dsimp only
  rw [getToField_setResponseData]
  generalize getToField request = s at hknown ⊢
  have htagName : IsToken (text "tag") := ⟨by decide, by decide⟩
  have hparam : IsAddedParam [] (text "tag", newTag.value) := ⟨nofun, htagName, newTag.isToken⟩
  -- what is done without the text of a tag
  have happended : containsText (text "tag=") s = false → statusCode ≠ tryingCode →
      toFieldOfResponse statusCode s newTag.value =
        s ++ addedText [] (text "tag", newTag.value) := by
    intro hnot hstatus
    have hunseen : ¬ containsText (text ";tag=") s = true := by
      intro hsome
      have htag : text "tag=" <:+: text ";tag=" := infix_cons infix_rfl
      rw [containsText_iff.mpr (htag.trans (containsText_iff.mp hsome))] at hnot
      exact Bool.noConfusion hnot
    rw [toFieldOfResponse, if_pos ⟨hstatus, hunseen⟩, setUriParameter_of_not newTag.isToken.1 hnot]
  have hcopied : toFieldOfResponse statusCode s newTag.value = s →
      TagKept s (toFieldOfResponse statusCode s newTag.value) newTag.value := by
    intro h
    rw [h]
    exact ⟨fun _ => rfl, fun _ => Or.inl rfl⟩
  refine ⟨?_, ?_, ?_⟩
  · rintro (hstatus | hseen | ⟨hnot, hnone, htakes⟩)
    · exact hcopied (if_neg fun h => h.1 hstatus)
    · exact hcopied (if_neg fun h => h.2 hseen)
    · by_cases hstatus : statusCode = tryingCode
      · exact hcopied (if_neg fun h => h.1 hstatus)
      · rw [happended hnot hstatus]
        refine ⟨fun hsome => ?_, fun _ => Or.inr (fromString_added hknown htakes hparam)⟩
        rw [hnone] at hsome
        exact Bool.noConfusion hsome
  · intro hnot hkept
    by_contra hunseen
    have hstatus : statusCode ≠ tryingCode := fun h => hunseen (Or.inl h)
    rw [happended hnot hstatus] at hkept
    by_cases htakes : TakesParams (parseFront .nameAddr s)
    · have hadded := fromString_added hknown htakes hparam
      cases hfield : (fromString s .nameAddr).getFieldParameter (text "tag") with
      | none => exact hunseen (Or.inr (Or.inr ⟨hnot, hfield, htakes⟩))
      | some value =>
        have hsame := hkept.kept (by rw [hfield]; rfl)
        rw [hadded] at hsame
        have hfields := congrArg Url.fieldParameters hsame
        exact cons_ne_nil _ _ (append_right_eq_self.mp hfields)
    · have hnofields := fromString_added_of_not hknown htakes hparam.isAdded hparam.not_isSpace
      cases hfield : (fromString s .nameAddr).getFieldParameter (text "tag") with
      | none =>
        obtain hsame | hadded := hkept.added hfield
        · exact cons_ne_nil _ _ (append_right_eq_self.mp hsame)
        · rw [hadded] at hnofields
          exact append_ne_nil_of_right_ne_nil _ (cons_ne_nil _ _) hnofields
      | some value =>
        have hsame := hkept.kept (by rw [hfield]; rfl)
        rw [hsame] at hnofields
        rw [getFieldParameter, hnofields] at hfield
        exact nomatch hfield
  · rintro front blanks old rfl hfront htakes hnot hblanks hne hstatus hold hkept
    have hnew : IsAddedParam blanks (text "tag", newTag.value) :=
      ⟨hblanks.blanks, hblanks.name, newTag.isToken⟩
    rw [toFieldOfResponse_blanks hstatus hnot hblanks hne newTag.isToken.1] at hkept
    have hread := fromString_added hfront htakes hblanks
    have hread' := fromString_added hfront htakes hnew
    have hsome : ((fromString (front ++ addedText blanks (text "tag", old))
        .nameAddr).getFieldParameter (text "tag")).isSome = true := by
      rw [hread, getFieldParameter, Option.isSome_map, find?_isSome]
      exact ⟨(text "tag", old), mem_append_right _ mem_cons_self, caseEq_refl _⟩
    have hsame := hkept.kept hsome
    rw [hread, hread'] at hsame
    have hfields := congrArg Url.fieldParameters hsame
    have hlast := append_cancel_left hfields
    exact hold (Prod.mk.inj (List.cons.inj hlast).1).2.symm

/-- A request whose tag stands behind a blank. -/
def blankTag : SipMessage where
  firstHeaderLine := text "BYE sip:callee@example.com SIP/2.0"
  nameValues := [(RouteState.toField, text "<sip:callee@example.com>; tag=1c48259")]

def responseTag : NewTag := ⟨text "Ab12_x", by decide, by decide⟩

/-- A response without fields. -/
def noResponse : SipMessage := { firstHeaderLine := [], nameValues := [] }

theorem tagKept_setResponseData_blankTag :
    ¬ TagKept (getToField blankTag)
      (getToField (noResponse.setResponseData 200 (text "OK") [] (getToField blankTag) [] 1
        (text "BYE") none responseTag)) responseTag.value := by
  obtain ⟨-, -, hblank⟩ := tagKept_setResponseData blankTag noResponse 200 (text "OK") [] [] 1
    (text "BYE") none responseTag (by decide +kernel)
  refine hblank (text "<sip:callee@example.com>") (text " ") (text "1c48259") (by decide)
    (by decide +kernel)
    ⟨fun h => absurd h (by decide), fun h => absurd h (by decide)⟩
    (by decide) ⟨by decide, ⟨by decide, by decide⟩, ⟨by decide, by decide⟩⟩ (by decide)
    (by decide) (by decide)

/-- The tag is replaced by a new one. -/
theorem not_tagKept_blankTag :
    ¬ ∀ (request response : SipMessage) (statusCode : Int) (statusText fromField callId : Text)
        (sequenceNumber : Int) (sequenceMethod : Text) (localContact : Option Text)
        (newTag : NewTag), (fromString (getToField request) .nameAddr).scheme ≠ .unknown →
      TagKept (getToField request)
        (getToField (response.setResponseData statusCode statusText fromField (getToField request)
          callId sequenceNumber sequenceMethod localContact newTag)) newTag.value := by
  intro h
  have hkept := (h blankTag noResponse 200 (text "OK") [] [] 1 (text "BYE") none responseTag
    (by decide +kernel)).kept (by decide +kernel)
  rw [getToField_setResponseData] at hkept
  have hto : toFieldOfResponse 200 (getToField blankTag) responseTag.value =
      text "<sip:callee@example.com>; tag=Ab12_x" := by decide
  rw [hto] at hkept
  exact absurd (congrArg Url.fieldParameters hkept) (by decide)

end SipMessage

end SipXRouter
