import SipXRouter.Loop
import SipXRouter.Net.SipMessage

/-!
# Options in comma separated headers

`SipMessage` asks in three ways whether a token stands in a header:
`isRequestDispositionSet` and `isRequireExtensionSet` go through the values by their flat
index, `isInSpecifiedHeaderField` goes through the headers and their values.

The first two do not advance the index, so they read the first value again and again.  The
third one takes every header but the first from the `Supported` field.
-/

namespace SipXRouter

open List

variable {b : Bool} {s : HeaderScan} {sub value : Text}

namespace SipMessage

open NameValueTokenizer HttpMessage Loop

/-- `SIP_REQUEST_DISPOSITION_FIELD`. -/
def requestDispositionField : Text := text "REQUEST-DISPOSITION"

/-- `SIP_REQUIRE_FIELD`. -/
def requireField : Text := text "REQUIRE"

/-- `SIP_SUPPORTED_FIELD`. -/
def supportedField : Text := text "SUPPORTED"

/-! ## The three scans -/

def getRequestDisposition (m : SipMessage) (tokenIndex : Nat) : Option Text :=
  getFieldSubfield m requestDispositionField tokenIndex

def getRequireExtension (m : SipMessage) (extensionIndex : Nat) : Option Text :=
  getFieldSubfield m requireField extensionIndex

/-- One turn of the loop of `isRequestDispositionSet`. -/
def requestDispositionTurn (m : SipMessage) (dispositionToken : Text) (tokenIndex : Nat) :
    Nat ⊕ Bool :=
  match getRequestDisposition m tokenIndex with
  | none => .inr false
  | some field => if field.map toUpper = dispositionToken then .inr true else .inl tokenIndex

/-- `isRequestDispositionSet` returns an answer. -/
def IsRequestDispositionSet (m : SipMessage) (dispositionToken : Text) (answer : Bool) : Prop :=
  Returns (requestDispositionTurn m dispositionToken) 0 answer

/-- One turn of the loop of `isRequireExtensionSet`, which has no way out but the end of the
values. -/
def requireExtensionTurn (m : SipMessage) (extension : Text) (s : Nat × Bool) :
    (Nat × Bool) ⊕ Bool :=
  match getRequireExtension m s.1 with
  | none => .inr s.2
  | some extensionString => .inl (s.1, s.2 || extensionString.map toLower == extension)

/-- `isRequireExtensionSet` returns an answer. -/
def IsRequireExtensionSet (m : SipMessage) (extension : Text) (answer : Bool) : Prop :=
  Returns (requireExtensionTurn m extension) (0, false) answer

/-- The variables of `isInSpecifiedHeaderField`; `subFieldIndex` is there while the values of
one header are gone through. -/
structure HeaderScan where
  fieldIndex : Nat
  value : Option Text
  subFieldIndex : Option Nat
  url : Text
  tokenFound : Bool
deriving DecidableEq

/-- A value of a header, stripped, is compared with the token. -/
def HeaderScan.look (s : HeaderScan) (token : Text) (subFieldIndex : Nat) : HeaderScan :=
  let url := trim isCgiBlank (getSubField (s.value.getD []) subFieldIndex isComma s.url)
  { s with subFieldIndex := some subFieldIndex, url := url, tokenFound := caseEq url token }

/-- The next header, which is one of the `Supported` field. -/
def HeaderScan.nextHeader (s : HeaderScan) (m : SipMessage) : HeaderScan :=
  { s with
    fieldIndex := s.fieldIndex + 1
    value := m.getHeaderValue (s.fieldIndex + 1) supportedField
    subFieldIndex := none }

/-- One turn of `isInSpecifiedHeaderField`, of the loop over the values of a header or of the
one over the headers. -/
def headerScanTurn (m : SipMessage) (token : Text) (s : HeaderScan) : HeaderScan ⊕ Bool :=
  match s.subFieldIndex with
  | some subFieldIndex =>
    if s.url ≠ [] ∧ s.tokenFound = false then .inl (s.look token (subFieldIndex + 1))
    else .inl (s.nextHeader m)
  | none =>
    if s.value.isSome ∧ s.tokenFound = false then .inl (s.look token 0) else .inr s.tokenFound

/-- `isInSpecifiedHeaderField` returns an answer. -/
def IsInSpecifiedHeaderField (m : SipMessage) (token header : Text) (answer : Bool) : Prop :=
  Returns (headerScanTurn m token)
    { fieldIndex := 0, value := m.getHeaderValue 0 header, subFieldIndex := none, url := []
      tokenFound := false } answer

/-! ## What the third scan looks at -/

/-- The values of one header, without the white space around them. -/
def strippedSubfields (value : Text) : List Text := (subfields value).map (trim isCgiBlank)

/-- The token stands among some values, before any that is blank. -/
def readsToken (token : Text) : List Text → Bool
  | [] => false
  | sub :: subs => sub != [] && (caseEq sub token || readsToken token subs)

variable {m : SipMessage} {token header : Text}

theorem caseEq_nil_left (htoken : token ≠ []) : caseEq [] token = false := by
  cases token with
  | nil => exact absurd rfl htoken
  | cons c cs => rfl

theorem url_look (hvalue : s.value = some value) (k : Nat)
    (hurl : value.length ≤ maxFieldLength ∨ s.url = []) :
    (s.look token k).url = (strippedSubfields value)[k]?.getD [] := by
  show trim isCgiBlank (getSubField (s.value.getD []) k isComma s.url) = _
  rw [hvalue, Option.getD_some, getSubField_eq_subfields value k s.url hurl, strippedSubfields,
    getElem?_map]
  cases (subfields value)[k]? with
  | none => rfl
  | some sub => rfl

/-- The turns over one header return what the turns behind it return, with the last option
read and
its flag carried on. -/
theorem returns_values_iff (htoken : token ≠ []) :
    ∀ {subs : List Text} {k : Nat} {s : HeaderScan}, (strippedSubfields value).drop k = subs →
      s.value = some value → s.subFieldIndex = some k →
      s.url = (strippedSubfields value)[k]?.getD [] → s.tokenFound = caseEq s.url token →
      ∃ url, (readsToken token subs = false → url = []) ∧
        (Returns (headerScanTurn m token) s b ↔ Returns (headerScanTurn m token)
          { s.nextHeader m with url := url, tokenFound := readsToken token subs } b) := by
  intro subs
  induction subs with
  | nil =>
    intro k s hsubs hvalue hk hurl hfound
    have hnone : (strippedSubfields value)[k]? = none :=
      getElem?_eq_none (drop_eq_nil_iff.mp hsubs)
    rw [hnone, Option.getD_none] at hurl
    rw [hurl, caseEq_nil_left htoken] at hfound
    have hturn : headerScanTurn m token s = .inl (s.nextHeader m) := by
      simp [headerScanTurn, hk, hurl]
    refine ⟨[], fun _ => rfl, ?_⟩
    rw [returns_iff_of_next hturn, ← hurl, readsToken, ← hfound]
    rfl
  | cons sub subs ih =>
    intro k s hsubs hvalue hk hurl hfound
    obtain ⟨hsub, hsubs⟩ : (strippedSubfields value)[k]? = some sub ∧
        (strippedSubfields value).drop (k + 1) = subs := by
      constructor
      · rw [← head?_drop, hsubs, head?_cons]
      · rw [← tail_drop, hsubs, tail_cons]
    rw [hsub, Option.getD_some] at hurl
    by_cases hgo : s.url ≠ [] ∧ s.tokenFound = false
    · -- the value is neither blank nor the token
      have hturn : headerScanTurn m token s = .inl (s.look token (k + 1)) := by
        simp [headerScanTurn, hk, hgo]
      have hlen : value.length ≤ maxFieldLength := by
        by_contra hlong
        simp [strippedSubfields, subfields, hlong] at hsub
      obtain ⟨url, hnil, hiff⟩ := ih (s := s.look token (k + 1)) hsubs hvalue rfl
        (url_look hvalue (k + 1) (Or.inl hlen)) rfl
      have hreads : readsToken token (sub :: subs) = readsToken token subs := by
        rw [← hurl, readsToken, ← hfound, hgo.2, bne_iff_ne.mpr hgo.1]
        rfl
      rw [hreads]
      exact ⟨url, hnil, (returns_iff_of_next hturn).trans hiff⟩
    · have hturn : headerScanTurn m token s = .inl (s.nextHeader m) := by
        simp [headerScanTurn, hk, hgo]
      have hreads : readsToken token (sub :: subs) = s.tokenFound := by
        rw [hfound, readsToken, ← hurl]
        rw [hfound] at hgo
        by_cases hblank : s.url = []
        · rw [hblank, caseEq_nil_left htoken]
          rfl
        · have htrue : caseEq s.url token = true := by
            simpa [hblank] using hgo
          rw [htrue, bne_iff_ne.mpr hblank]
          rfl
      refine ⟨s.url, fun hfalse => ?_, ?_⟩
      · rw [hreads] at hfalse
        by_contra hblank
        exact hgo ⟨hblank, hfalse⟩
      · rw [hreads]
        exact returns_iff_of_next hturn

theorem returns_found_iff (hk : s.subFieldIndex = none)
    (hfound : s.tokenFound = true) : Returns (headerScanTurn m token) s b ↔ b = true := by
  have hturn : headerScanTurn m token s = .inr true := by
    simp [headerScanTurn, hk, hfound]
  exact returns_iff_of_done hturn

theorem returns_header_iff (htoken : token ≠ [])
    (hvalue : s.value = some value) (hk : s.subFieldIndex = none) (hurl : s.url = [])
    (hfound : s.tokenFound = false) : Returns (headerScanTurn m token) s b ↔
      if readsToken token (strippedSubfields value) then b = true
      else Returns (headerScanTurn m token) (s.nextHeader m) b := by
  have hturn : headerScanTurn m token s = .inl (s.look token 0) := by
    simp [headerScanTurn, hk, hvalue, hfound]
  obtain ⟨url, hnil, hiff⟩ := returns_values_iff (m := m) (b := b) htoken
    (s := s.look token 0) drop_zero hvalue rfl (url_look hvalue 0 (Or.inr hurl)) rfl
  rw [returns_iff_of_next hturn, hiff]
  split
  · next hreads => exact returns_found_iff rfl hreads
  · next hreads =>
      have hreads : readsToken token (strippedSubfields value) = false := by simpa using hreads
      rw [hnil hreads, hreads, ← hurl, ← hfound]
      rfl

/-- The headers of the `Supported` field, from one on. -/
theorem returns_supported_iff (htoken : token ≠ []) :
    ∀ {values : List Text} {s : HeaderScan},
      (m.headerValues supportedField).drop s.fieldIndex = values →
      s.value = m.getHeaderValue s.fieldIndex supportedField → s.subFieldIndex = none →
      s.url = [] → s.tokenFound = false →
      (Returns (headerScanTurn m token) s b ↔
        b = (values.takeWhile (· ≠ [])).any fun value =>
          readsToken token (strippedSubfields value)) := by
  intro values
  induction values with
  | nil =>
    intro s hvalues hvalue hk _ hfound
    have hnone : s.value = none := by
      rw [hvalue, getHeaderValue, getElem?_eq_none (drop_eq_nil_iff.mp hvalues)]
    have hturn : headerScanTurn m token s = .inr false := by
      simp [headerScanTurn, hk, hnone, hfound]
    exact returns_iff_of_done hturn
  | cons value values ih =>
    intro s hvalues hvalue hk hurl hfound
    have hhead : (m.headerValues supportedField)[s.fieldIndex]? = some value := by
      rw [← head?_drop, hvalues, head?_cons]
    have htail : (m.headerValues supportedField).drop (s.fieldIndex + 1) = values := by
      rw [← tail_drop, hvalues, tail_cons]
    rw [getHeaderValue, hhead] at hvalue
    by_cases hnil : value = []
    · have hturn : headerScanTurn m token s = .inr false := by
        simp [headerScanTurn, hk, hvalue, hfound, hnil]
      rw [returns_iff_of_done hturn, hnil]
      rfl
    · have hsome : s.value = some value := by simpa [hnil] using hvalue
      rw [returns_header_iff htoken hsome hk hurl hfound,
        takeWhile_cons_of_pos (by simpa using hnil), any_cons]
      cases hreads : readsToken token (strippedSubfields value) with
      | true => simp
      | false => simpa using ih (s := s.nextHeader m) htail rfl rfl hurl hfound

/-- The headers that the third scan looks at: the first one of the field asked for, and then
those of the `Supported` field behind its first one, up to one without a value. -/
def scannedValues (m : SipMessage) (header : Text) : List Text :=
  match m.getHeaderValue 0 header with
  | none => []
  | some value => value :: ((m.headerValues supportedField).drop 1).takeWhile (· ≠ [])

/-- **What the third scan looks at.** -/
theorem returns_isInSpecifiedHeaderField (htoken : token ≠ []) :
    IsInSpecifiedHeaderField m token header b ↔
      b = (scannedValues m header).any fun value => readsToken token (strippedSubfields value) := by
  cases hfirst : m.getHeaderValue 0 header with
  | none =>
    have hturn : headerScanTurn m token
        { fieldIndex := 0, value := m.getHeaderValue 0 header, subFieldIndex := none, url := []
          tokenFound := false } = .inr false := by
      rw [hfirst]
      rfl
    rw [IsInSpecifiedHeaderField, returns_iff_of_done hturn, scannedValues, hfirst]
    rfl
  | some value =>
    rw [IsInSpecifiedHeaderField, returns_header_iff htoken hfirst rfl rfl rfl, scannedValues,
      hfirst, any_cons]
    cases hreads : readsToken token (strippedSubfields value) with
    | true => simp
    | false =>
      rw [if_neg Bool.false_ne_true, Bool.false_or]
      exact returns_supported_iff htoken
        (s := HeaderScan.nextHeader ⟨0, some value, none, [], false⟩ m) rfl rfl rfl rfl rfl

/-! ## Where the answers are right -/

/-- A token as it is asked for: it is not empty and holds no blank. -/
structure IsOption (token : Text) : Prop where
  ne_nil : token ≠ []
  no_blank : ∀ c ∈ token, isCgiBlank c = false

/-- The token is one of the comma separated values of a field, whatever the case of its letters
and the blanks around it. -/
def StandsIn (m : SipMessage) (field token : Text) : Prop :=
  ∃ value ∈ m.headerValues field, ∃ sub ∈ segments isComma value,
    caseEq (trim isCgiBlank sub) token = true

/-- A scan ends, and its answer is the right one. -/
def Decides (returns : Bool → Prop) (truth : Prop) : Prop :=
  ∃ answer, returns answer ∧ (answer = true ↔ truth)

/-- The first header of a field has the token among its values. -/
def ReadFirst (m : SipMessage) (field token : Text) : Prop :=
  ∃ value, m.getHeaderValue 0 field = some value ∧
    readsToken token (strippedSubfields value) = true

/-- The field has a first header, and the token is read in a `Supported` header behind the first
one of those. -/
def ReadSupported (m : SipMessage) (field token : Text) : Prop :=
  (m.getHeaderValue 0 field).isSome ∧
    ∃ value ∈ ((m.headerValues supportedField).drop 1).takeWhile (· ≠ []),
      readsToken token (strippedSubfields value) = true

theorem exists_of_readsToken {subs : List Text} (h : readsToken token subs = true) :
    ∃ sub ∈ subs, caseEq sub token = true := by
  induction subs with
  | nil => exact absurd h Bool.false_ne_true
  | cons sub subs ih =>
    rw [readsToken, Bool.and_eq_true, Bool.or_eq_true] at h
    rcases h.2 with hsub | hsubs
    · exact ⟨sub, mem_cons_self, hsub⟩
    · obtain ⟨sub', hmem, hsub'⟩ := ih hsubs
      exact ⟨sub', mem_cons_of_mem _ hmem, hsub'⟩

theorem mem_segments_of_mem_subfields (h : sub ∈ subfields value) :
    sub ∈ segments isComma value := by
  rw [subfields] at h
  split at h
  · exact h
  · exact absurd h not_mem_nil

theorem ReadFirst.standsIn {field : Text} (h : ReadFirst m field token) :
    StandsIn m field token := by
  obtain ⟨value, hvalue, hreads⟩ := h
  obtain ⟨_, hstripped, hsub⟩ := exists_of_readsToken hreads
  obtain ⟨sub, hmem, rfl⟩ := mem_map.mp hstripped
  refine ⟨value, ?_, sub, mem_segments_of_mem_subfields hmem, hsub⟩
  unfold getHeaderValue at hvalue
  split at hvalue
  · exact absurd hvalue (by simp)
  · next v hv =>
      split at hvalue
      · exact absurd hvalue (by simp)
      · exact Option.some.inj hvalue ▸ mem_of_getElem? hv

theorem exists_value_of_getFieldSubfield {field : Text} {k : Nat}
    (h : getFieldSubfield m field k = some sub) :
    ∃ value ∈ m.headerValues field, sub ∈ segments isComma value := by
  rw [getFieldSubfield_eq] at h
  obtain ⟨value, hvalue, hsub⟩ := mem_flatMap.mp (mem_of_getElem? h)
  exact ⟨value, (takeWhile_sublist _).subset hvalue, mem_segments_of_mem_subfields hsub⟩

theorem caseEq_trim_of_toUpper (htoken : IsOption token)
    (h : sub.map toUpper = token) : caseEq (trim isCgiBlank sub) token = true := by
  have hblank : ∀ c ∈ sub, isCgiBlank c = false := by
    have hupper : ∀ c : Byte, isCgiBlank c = true → isCgiBlank (toUpper c) = true := by
      decide +kernel
    intro c hc
    cases hb : isCgiBlank c with
    | false => rfl
    | true =>
      have hmem : toUpper c ∈ token := h ▸ mem_map_of_mem hc
      exact absurd (hupper c hb) (by simp [htoken.no_blank _ hmem])
  rw [trim_eq_self (fun c hc => hblank c (mem_of_mem_head? hc))
    (fun c hc => hblank c (mem_of_mem_getLast? hc)), caseEq_iff, ← h, map_map]
  exact map_congr_left fun c _ => (toLower_spec c).2.2.1.symm

/-- The answer is right exactly when the first option is the one asked for, if there is any. -/
theorem decides_requestDisposition_iff (htoken : IsOption token) :
    Decides (IsRequestDispositionSet m token) (StandsIn m requestDispositionField token) ↔
      (∀ first, getRequestDisposition m 0 = some first → first.map toUpper = token) ∧
      (getRequestDisposition m 0 = none → ¬ StandsIn m requestDispositionField token) := by
  cases hfirst : getRequestDisposition m 0 with
  | none =>
    have hturn : requestDispositionTurn m token 0 = .inr false := by
      rw [requestDispositionTurn, hfirst]
    constructor
    · rintro ⟨answer, hanswer, hright⟩
      obtain rfl := (returns_iff_of_done hturn).mp hanswer
      exact ⟨fun _ h => absurd h (by simp), fun _ h => Bool.false_ne_true (hright.mpr h)⟩
    · rintro ⟨-, hnot⟩
      exact ⟨false, .done hturn, iff_of_false Bool.false_ne_true (hnot rfl)⟩
  | some first =>
    by_cases heq : first.map toUpper = token
    · have hturn : requestDispositionTurn m token 0 = .inr true := by
        simp [requestDispositionTurn, hfirst, heq]
      obtain ⟨value, hvalue, hsub⟩ := exists_value_of_getFieldSubfield hfirst
      have hstands : StandsIn m requestDispositionField token :=
        ⟨value, hvalue, first, hsub, caseEq_trim_of_toUpper htoken heq⟩
      exact iff_of_true ⟨true, .done hturn, iff_of_true rfl hstands⟩
        ⟨fun _ h => Option.some.inj h ▸ heq, fun h => absurd h (by simp)⟩
    · -- the loop reads this value for ever
      have hturn : requestDispositionTurn m token 0 = .inl 0 := by
        simp [requestDispositionTurn, hfirst, heq]
      refine iff_of_false ?_ fun h => heq (h.1 first rfl)
      rintro ⟨answer, hanswer, -⟩
      exact not_returns_of_kept (· = 0) rfl
        (fun s hs => ⟨0, hs ▸ hturn, rfl⟩) hanswer

theorem decides_requireExtension_iff :
    Decides (IsRequireExtensionSet m token) (StandsIn m requireField token) ↔
      getRequireExtension m 0 = none ∧ ¬ StandsIn m requireField token := by
  cases hfirst : getRequireExtension m 0 with
  | none =>
    have hturn : requireExtensionTurn m token (0, false) = .inr false := by
      rw [requireExtensionTurn, hfirst]
    constructor
    · rintro ⟨answer, hanswer, hright⟩
      obtain rfl := (returns_iff_of_done hturn).mp hanswer
      exact ⟨rfl, fun h => Bool.false_ne_true (hright.mpr h)⟩
    · rintro ⟨-, hnot⟩
      exact ⟨false, .done hturn, iff_of_false Bool.false_ne_true hnot⟩
  | some first =>
    refine iff_of_false ?_ fun h => absurd h.1 (by simp)
    rintro ⟨answer, hanswer, -⟩
    refine not_returns_of_kept (fun s : Nat × Bool => s.1 = 0) rfl ?_ hanswer
    rintro ⟨k, found⟩ hk
    obtain rfl : k = 0 := hk
    exact ⟨(0, found || first.map toLower == token), by rw [requireExtensionTurn, hfirst], rfl⟩

theorem decides_isInSpecifiedHeaderField_iff (htoken : IsOption token) :
    Decides (IsInSpecifiedHeaderField m token header) (StandsIn m header token) ↔
      ReadFirst m header token ∨ (ReadSupported m header token ↔ StandsIn m header token) := by
  have hanswer : ((scannedValues m header).any fun value =>
      readsToken token (strippedSubfields value)) = true ↔
        ReadFirst m header token ∨ ReadSupported m header token := by
    unfold scannedValues ReadFirst ReadSupported
    cases m.getHeaderValue 0 header with
    | none => simp
    | some value => simp
  have hright : Decides (IsInSpecifiedHeaderField m token header) (StandsIn m header token) ↔
      (ReadFirst m header token ∨ ReadSupported m header token ↔ StandsIn m header token) := by
    rw [← hanswer]
    constructor
    · rintro ⟨answer, h, hiff⟩
      exact (returns_isInSpecifiedHeaderField htoken.ne_nil).mp h ▸ hiff
    · intro h
      exact ⟨_, (returns_isInSpecifiedHeaderField htoken.ne_nil).mpr rfl, h⟩
  rw [hright]
  by_cases hfirst : ReadFirst m header token
  · simp [hfirst, hfirst.standsIn]
  · simp [hfirst]

/-- **Where the three answers are right.**  The first scan comes to an end only at its first value,
the second one only without any value, and the third one takes the later headers from another
field. -/
theorem optionScans_decide_iff (m : SipMessage) (header : Text) {token : Text}
    (htoken : IsOption token) :
    (Decides (IsRequestDispositionSet m token) (StandsIn m requestDispositionField token) ↔
      (∀ first, getRequestDisposition m 0 = some first → first.map toUpper = token) ∧
      (getRequestDisposition m 0 = none → ¬ StandsIn m requestDispositionField token)) ∧
    (Decides (IsRequireExtensionSet m token) (StandsIn m requireField token) ↔
      getRequireExtension m 0 = none ∧ ¬ StandsIn m requireField token) ∧
    (Decides (IsInSpecifiedHeaderField m token header) (StandsIn m header token) ↔
      ReadFirst m header token ∨ (ReadSupported m header token ↔ StandsIn m header token)) :=
  ⟨decides_requestDisposition_iff htoken, decides_requireExtension_iff,
    decides_isInSpecifiedHeaderField_iff htoken⟩

/-- A message with two dispositions in one header and two extensions in two. -/
def optionsMessage : SipMessage where
  firstHeaderLine := text "INVITE sip:a@example.com SIP/2.0"
  nameValues := [(requestDispositionField, text "proxy, queue"), (requireField, text "timer"),
    (requireField, text "100rel")]

theorem optionScans_decide_iff_queue :
    IsOption (text "QUEUE") ∧
    (Decides (IsRequestDispositionSet optionsMessage (text "QUEUE"))
        (StandsIn optionsMessage requestDispositionField (text "QUEUE")) ↔
      (∀ first, getRequestDisposition optionsMessage 0 = some first →
        first.map toUpper = text "QUEUE") ∧
      (getRequestDisposition optionsMessage 0 = none →
        ¬ StandsIn optionsMessage requestDispositionField (text "QUEUE"))) :=
  have htoken : IsOption (text "QUEUE") := ⟨by decide, by decide⟩
  ⟨htoken, (optionScans_decide_iff optionsMessage requireField htoken).1⟩

/-- The second value of each field is missed: two scans do not end, the third one denies it. -/
theorem optionsMessage_missed :
    StandsIn optionsMessage requestDispositionField (text "QUEUE") ∧
    StandsIn optionsMessage requireField (text "100rel") ∧
    (∀ answer, ¬ IsRequestDispositionSet optionsMessage (text "QUEUE") answer) ∧
    (∀ answer, ¬ IsRequireExtensionSet optionsMessage (text "100rel") answer) ∧
    IsInSpecifiedHeaderField optionsMessage (text "100rel") requireField false := by
  refine ⟨⟨text "proxy, queue", by decide, text " queue", by decide, by decide⟩,
    ⟨text "100rel", by decide, text "100rel", by decide, by decide⟩, fun answer => ?_,
    fun answer => ?_, returns_of_run (by decide : run _ 10 _ = _)⟩
  · refine not_returns_of_kept (· = 0) rfl ?_
    rintro s rfl
    exact ⟨0, by decide, rfl⟩
  · refine not_returns_of_kept (· = (0, false)) rfl ?_
    rintro s rfl
    exact ⟨(0, false), by decide, rfl⟩

end SipMessage

end SipXRouter
