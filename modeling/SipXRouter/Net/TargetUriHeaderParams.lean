import SipXRouter.Net.SipMessage
import SipXRouter.Net.UrlParse

/-!
# Header parameters of the request URI

A redirection may name a target whose URI has header parameters, and
`SipMessage::applyTargetUriHeaderParams` turns these into headers of the request.
Headers that a target must not set are in a list of names, to which the name of a
parameter is compared in upper case.  Some headers have a compact name as well, and
the list has both names of most of them.
-/

namespace SipXRouter

open List

variable {name : Text}

namespace SipMessage

open NameValueTokenizer HttpMessage

/-! ## The names -/

/-- A name as it is put into a `NameValuePair` and into upper case. -/
def upperName (name : Text) : Text := (cString name).map toUpper

/-- `initDisallowedUrlHeaders`. -/
def disallowedUrlHeaders : List Text :=
  [text "FROM", text "CONTACT", text "M", text "CONTENT-LENGTH", text "L", text "CONTENT-TYPE",
    text "C", text "CONTENT-ENCODING", text "E", text "CSEQ", text "RECORD-ROUTE",
    text "REFER-TO", text "REFERRED-BY", text "TO", text "T", text "USER-AGENT", text "VIA",
    text "V"]

/-- `initUniqueUrlHeaders`. -/
def uniqueUrlHeaders : List Text := [text "EXPIRES", routeField]

def isUrlHeaderAllowed (name : Text) : Bool := !disallowedUrlHeaders.contains (upperName name)

/-- Whether a header may stand in a message only once. -/
def isUrlHeaderUnique (name : Text) : Bool := uniqueUrlHeaders.contains (upperName name)

/-! ## Routes -/

/-- `removeHeader` with index 0. -/
def removeHeader (m : SipMessage) (name : Text) : SipMessage :=
  { m with nameValues := m.nameValues.eraseP (·.1 == name) }

/-- The value joins the first Route header, in front of what is there. -/
def addRouteUri (m : SipMessage) (routeUri : Text) : SipMessage :=
  let routeParameter :=
    (if routeUri.contains (byte '<') then [] else [byte '<']) ++ routeUri ++
      (if routeUri.contains (byte '>') then [] else [byte '>'])
  match m.getHeaderValue 0 routeField with
  | some value =>
    (m.removeHeader routeField).insertHeaderField routeField
      (routeParameter ++ byte ',' :: value)
  | none => m.insertHeaderField routeField routeParameter

/-- The loop over the subfields of a value, from an index on.  It goes on as long as
`getSubField` reports one, and an empty one behind the last comma is reported. -/
def subFieldsFrom (value : Text) : (fuel index : Nat) → List Text
  | 0, _ => []
  | fuel + 1, index =>
    if maxFieldLength < value.length then []
    else
      match getSubFieldPtr value index isComma with
      | none => []
      | some (sub, _) => sub :: subFieldsFrom value fuel (index + 1)

/-- A route with the parameter `lr`. -/
def looseRoute (junk : Byte) (route : Text) : Text :=
  let url := Url.ofText route .nameAddr
  if (url.getUrlParameter (text "lr")).isSome then url.toString junk
  else (url.setUrlParameter (text "lr") []).toString junk

/-- The routes of a header parameter, with commas between them. -/
def routeParams (junk : Byte) (value : Text) : Text :=
  (subFieldsFrom value (value.length + 1) 0).foldl
    (fun params route => (if params = [] then [] else params ++ [byte ',']) ++ looseRoute junk route)
    []

/-! ## The loop over the parameters -/

/-- What is done for one header parameter. -/
def applyHeaderParam (junk : Byte) (m : SipMessage) (header : Text × Text) : SipMessage :=
  if isUrlHeaderAllowed header.1 then
    if caseEq (cString header.1) routeField then
      let params := routeParams junk (cString header.2)
      if params = [] then m else m.addRouteUri (cString params)
    else if isUrlHeaderUnique header.1 then
      m.setHeaderValue (upperName header.1) (cString header.2) 0
    else m.addHeaderField (upperName header.1) (cString header.2)
  else m

def requestUrl (m : SipMessage) : Url := Url.ofText (cString m.getRequestUri) .addrSpec

/-- The header parameters of the request URI become headers, and the URI loses them. -/
def applyTargetUriHeaderParams (junk : Byte) (m : SipMessage) : SipMessage :=
  let requestUri := m.requestUrl
  let applied := requestUri.headerOrQueryParameters.foldl (applyHeaderParam junk) m
  if requestUri.headerOrQueryParameters = [] then applied
  else
    applied.changeRequestUri (cString { requestUri with headerOrQueryParameters := [] }.getUri)

/-! ## What should hold -/

/-- The headers that a target must not set, each with all its names. -/
def protectedHeaders : List (List Text) :=
  [[text "FROM", text "F"], [text "TO", text "T"], [text "CONTACT", text "M"], [text "CSEQ"],
    [text "VIA", text "V"], [text "RECORD-ROUTE"], [text "REFER-TO", text "R"],
    [text "REFERRED-BY", text "B"], [text "USER-AGENT"], [text "CONTENT-TYPE", text "C"],
    [text "CONTENT-LENGTH", text "L"], [text "CONTENT-ENCODING", text "E"]]

/-- The headers that have one of these names. -/
def fieldsNamed (m : SipMessage) (names : List Text) : List (Text × Text) :=
  m.nameValues.filter fun nv => names.contains nv.1

def routeValues (m : SipMessage) : List Text :=
  (m.headerValues routeField).flatMap (segments isComma)

/-- A request after the header parameters of its URI have been applied: the protected
headers are the same, the URI has no header parameters, and the former Route values
follow those that were added. -/
structure Unharmed (before after : SipMessage) : Prop where
  fields : ∀ names ∈ protectedHeaders, after.fieldsNamed names = before.fieldsNamed names
  noParams : after.requestUrl.headerOrQueryParameters = []
  routes : ∃ added, after.routeValues = added ++ before.routeValues

/-! ## The protected headers -/

section Fields

variable {names : List Text}

theorem fieldsNamed_insertHeaderField (m : SipMessage) (hname : name ∉ names)
    (value : Text) : fieldsNamed (m.insertHeaderField name value) names = m.fieldsNamed names := by
  simp [fieldsNamed, insertHeaderField, hname]

theorem fieldsNamed_addHeaderField (m : SipMessage) (name value : Text) :
    fieldsNamed (m.addHeaderField name value) names =
      m.fieldsNamed names ++ if names.contains name then [(name, value)] else [] := by
  by_cases hname : name ∈ names <;> simp [fieldsNamed, addHeaderField, hname]

theorem filter_setValueAt {value : Text} (hname : name ∉ names) :
    ∀ {nvs nvs' : List (Text × Text)} {k : Nat}, setValueAt name value k nvs = some nvs' →
      nvs'.filter (fun nv => names.contains nv.1) = nvs.filter fun nv => names.contains nv.1 := by
  intro nvs
  induction nvs with
  | nil =>
    intro nvs' k h
    simp [setValueAt] at h
  | cons nv nvs ih =>
    intro nvs' k h
    have hrec {k : Nat} (h : (setValueAt name value k nvs).map (nv :: ·) = some nvs') :
        nvs'.filter (fun nv => names.contains nv.1) =
          (nv :: nvs).filter fun nv => names.contains nv.1 := by
      obtain ⟨rest, hrest, rfl⟩ := Option.map_eq_some_iff.mp h
      rw [filter_cons, filter_cons, ih hrest]
    by_cases heq : nv.1 = name
    · cases k with
      | zero =>
        simp only [setValueAt, heq, if_true, Option.some.injEq] at h
        subst h
        simp [heq, hname]
      | succ k =>
        simp only [setValueAt, heq, if_true] at h
        exact hrec h
    · simp only [setValueAt, heq, if_false] at h
      exact hrec h

theorem fieldsNamed_setHeaderValue (m : SipMessage) (hname : name ∉ names)
    (value : Text) (index : Nat) :
    fieldsNamed (m.setHeaderValue name value index) names = m.fieldsNamed names := by
  unfold setHeaderValue
  cases hset : setValueAt name value index m.nameValues with
  | some nvs => exact filter_setValueAt hname hset
  | none =>
    dsimp only
    rw [fieldsNamed_addHeaderField]
    simp [hname]

theorem fieldsNamed_removeHeader (m : SipMessage) (hname : name ∉ names) :
    fieldsNamed (m.removeHeader name) names = m.fieldsNamed names := by
  unfold fieldsNamed removeHeader
  dsimp only
  induction m.nameValues with
  | nil => rfl
  | cons nv nvs ih =>
    by_cases heq : nv.1 = name
    · simp [heq, hname]
    · rw [eraseP_cons_of_neg (by simpa using heq), filter_cons, filter_cons, ih]

theorem fieldsNamed_addRouteUri (m : SipMessage) (hroute : routeField ∉ names) (routeUri : Text) :
    (m.addRouteUri routeUri).fieldsNamed names = m.fieldsNamed names := by
  unfold addRouteUri
  cases m.getHeaderValue 0 routeField with
  | some value =>
    exact (fieldsNamed_insertHeaderField _ hroute _).trans (fieldsNamed_removeHeader m hroute)
  | none => exact fieldsNamed_insertHeaderField m hroute _

/-- A name is `ROUTE` in upper case if it is so without regard to case. -/
theorem caseEq_routeField (name : Text) :
    caseEq (cString name) routeField = true ↔ upperName name = routeField := by
  have hupper : toUpper ∘ toLower = toUpper := funext fun c => (toLower_spec c).2.1
  have hlower : toLower ∘ toUpper = toLower := funext fun c => (toLower_spec c).2.2.1
  have hroute : routeField.map toUpper = routeField := by decide
  rw [caseEq_iff, upperName]
  constructor
  · intro h
    have := congrArg (map toUpper) h
    rwa [map_map, map_map, hupper, hroute] at this
  · intro h
    have := congrArg (map toLower) h
    rwa [map_map, hlower] at this

/-- A header parameter that is added to the headers of these names. -/
def injected (names : List Text) (header : Text × Text) : Bool :=
  isUrlHeaderAllowed header.1 && names.contains (upperName header.1)

/-- A header parameter adds at most one field, and only under its own name. -/
theorem fieldsNamed_applyHeaderParam (hnames : ∀ name ∈ uniqueUrlHeaders, name ∉ names)
    (junk : Byte) (m : SipMessage) (header : Text × Text) :
    (m.applyHeaderParam junk header).fieldsNamed names = m.fieldsNamed names ++
      if injected names header then [(upperName header.1, cString header.2)] else [] := by
  have hroute : routeField ∉ names := hnames _ (by decide)
  unfold applyHeaderParam injected
  by_cases hallowed : isUrlHeaderAllowed header.1 = true
  · rw [if_pos hallowed, hallowed, Bool.true_and]
    by_cases hcase : caseEq (cString header.1) routeField = true
    · rw [if_pos hcase, (caseEq_routeField _).mp hcase]
      dsimp only
      split
      · simp [hroute]
      · rw [fieldsNamed_addRouteUri m hroute]
        simp [hroute]
    · rw [if_neg hcase]
      by_cases hunique : isUrlHeaderUnique header.1 = true
      · have hname : upperName header.1 ∉ names := hnames _ (contains_iff_mem.mp hunique)
        rw [if_pos hunique, fieldsNamed_setHeaderValue m hname]
        simp [hname]
      · rw [if_neg hunique, fieldsNamed_addHeaderField]
  · rw [if_neg hallowed, Bool.eq_false_iff.mpr hallowed]
    simp

/-- **What is added to a header**: the parameters of its names that are allowed. -/
theorem fieldsNamed_foldl_applyHeaderParam (hnames : ∀ name ∈ uniqueUrlHeaders, name ∉ names)
    (junk : Byte) (headers : List (Text × Text)) (m : SipMessage) :
    fieldsNamed (headers.foldl (applyHeaderParam junk) m) names = m.fieldsNamed names ++
      (headers.filter (injected names)).map fun header =>
        (upperName header.1, cString header.2) := by
  induction headers generalizing m with
  | nil => simp
  | cons header headers ih =>
    rw [foldl_cons, ih, fieldsNamed_applyHeaderParam hnames, filter_cons]
    by_cases h : injected names header = true <;> simp [h]

end Fields

/-- The compact names that the list leaves out: those of From, Refer-To and
Referred-By. -/
def overlookedNames : List Text := [text "F", text "R", text "B"]

theorem exists_injected_iff (header : Text × Text) :
    (∃ names ∈ protectedHeaders, injected names header = true) ↔
      upperName header.1 ∈ overlookedNames := by
  have hforward : ∀ names ∈ protectedHeaders, ∀ name ∈ names, name ∉ disallowedUrlHeaders →
      name ∈ overlookedNames := by decide
  have hback : ∀ name ∈ overlookedNames, name ∉ disallowedUrlHeaders ∧
      ∃ names ∈ protectedHeaders, name ∈ names := by decide
  constructor
  · rintro ⟨names, hnames, hinjected⟩
    simp only [injected, isUrlHeaderAllowed, Bool.and_eq_true, Bool.not_eq_true',
      contains_iff_mem] at hinjected
    refine hforward names hnames _ hinjected.2 fun hmem => ?_
    rw [contains_iff_mem.mpr hmem] at hinjected
    exact absurd hinjected.1 (by simp)
  · intro hname
    obtain ⟨hallowed, names, hnames, hmem⟩ := hback _ hname
    refine ⟨names, hnames, ?_⟩
    simp [injected, isUrlHeaderAllowed, hallowed, hmem]

/-- **The protected headers** stay as they are exactly when no parameter has one of the
names that were left out. -/
theorem fields_iff (junk : Byte) (headers : List (Text × Text)) (m : SipMessage) :
    (∀ names ∈ protectedHeaders,
        fieldsNamed (headers.foldl (applyHeaderParam junk) m) names = m.fieldsNamed names) ↔
      ∀ header ∈ headers, upperName header.1 ∉ overlookedNames := by
  have hnames : ∀ names ∈ protectedHeaders, ∀ name ∈ uniqueUrlHeaders, name ∉ names := by decide
  have hsame (names : List Text) (h : names ∈ protectedHeaders) :
      fieldsNamed (headers.foldl (applyHeaderParam junk) m) names = m.fieldsNamed names ↔
        ∀ header ∈ headers, ¬ injected names header = true := by
    rw [fieldsNamed_foldl_applyHeaderParam (hnames names h), append_right_eq_self,
      map_eq_nil_iff, filter_eq_nil_iff]
  constructor
  · intro h header hheader hname
    obtain ⟨names, hmem, hinjected⟩ := (exists_injected_iff header).mpr hname
    exact (hsame names hmem).mp (h names hmem) header hheader hinjected
  · intro h names hmem
    refine (hsame names hmem).mpr fun header hheader hinjected => ?_
    exact h header hheader ((exists_injected_iff header).mp ⟨names, hmem, hinjected⟩)

theorem firstHeaderLine_foldl_applyHeaderParam (junk : Byte) (headers : List (Text × Text))
    (m : SipMessage) :
    (headers.foldl (applyHeaderParam junk) m).firstHeaderLine = m.firstHeaderLine := by
  have hset (m : SipMessage) (name value : Text) (index : Nat) :
      (m.setHeaderValue name value index).firstHeaderLine = m.firstHeaderLine := by
    unfold setHeaderValue
    cases setValueAt name value index m.nameValues <;> rfl
  have hadd (m : SipMessage) (routeUri : Text) :
      (m.addRouteUri routeUri).firstHeaderLine = m.firstHeaderLine := by
    unfold addRouteUri
    cases m.getHeaderValue 0 routeField <;> rfl
  induction headers generalizing m with
  | nil => rfl
  | cons header headers ih =>
    rw [foldl_cons, ih]
    unfold applyHeaderParam
    split
    · split
      · dsimp only
        split
        · rfl
        · exact hadd m _
      · split
        · exact hset m _ _ _
        · rfl
    · rfl

/-! ## The routes -/

theorem headerValues_eq_fieldsNamed (m : SipMessage) (field : Text) :
    m.headerValues field = (m.fieldsNamed [field]).map Prod.snd := by
  simp only [headerValues, fieldsNamed, contains_cons, contains_nil, Bool.or_false]

theorem headerValues_removeHeader (m : SipMessage) (field : Text) :
    headerValues (m.removeHeader field) field = (m.headerValues field).tail := by
  unfold headerValues removeHeader
  dsimp only
  induction m.nameValues with
  | nil => rfl
  | cons nv nvs ih =>
    by_cases heq : nv.1 = field
    · simp [heq]
    · have hne : ¬ (nv.1 == field) = true := by simpa using heq
      rw [eraseP_cons_of_neg (by exact hne), filter_cons_of_neg (by exact hne),
        filter_cons_of_neg (by exact hne), ih]

theorem routeValues_insertHeaderField (m : SipMessage) (value : Text) :
    routeValues (m.insertHeaderField routeField value) =
      segments isComma value ++ m.routeValues := by
  simp [routeValues, headerValues, insertHeaderField]

theorem routeValues_addRouteUri (m : SipMessage) (routeUri : Text) :
    ∃ added, (m.addRouteUri routeUri).routeValues = added ++ m.routeValues := by
  unfold addRouteUri
  cases hvalue : m.getHeaderValue 0 routeField with
  | none => exact ⟨_, routeValues_insertHeaderField m _⟩
  | some value =>
    dsimp only
    have hhead : m.headerValues routeField = value :: (m.headerValues routeField).tail := by
      unfold getHeaderValue at hvalue
      cases hvalues : m.headerValues routeField with
      | nil =>
        rw [hvalues] at hvalue
        simp at hvalue
      | cons first rest =>
        rw [hvalues] at hvalue
        simp only [getElem?_cons_zero] at hvalue
        split at hvalue
        · simp at hvalue
        · rw [Option.some.inj hvalue, tail_cons]
    rw [routeValues_insertHeaderField, segments_append_sep (by decide), append_assoc]
    refine ⟨_, congrArg _ ?_⟩
    rw [routeValues, routeValues, headerValues_removeHeader, hhead, flatMap_cons]
    rfl

theorem routeValues_applyHeaderParam (junk : Byte) (m : SipMessage) (header : Text × Text) :
    ∃ added, (m.applyHeaderParam junk header).routeValues = added ++ m.routeValues := by
  unfold applyHeaderParam
  split
  · by_cases hcase : caseEq (cString header.1) routeField = true
    · rw [if_pos hcase]
      dsimp only
      split
      · exact ⟨[], rfl⟩
      · exact routeValues_addRouteUri m _
    · have hname : upperName header.1 ∉ [routeField] := by
        rw [mem_singleton, ← caseEq_routeField]
        exact hcase
      rw [if_neg hcase]
      refine ⟨[], ?_⟩
      rw [nil_append, routeValues, routeValues, headerValues_eq_fieldsNamed,
        headerValues_eq_fieldsNamed]
      split
      · rw [fieldsNamed_setHeaderValue m hname]
      · have hne : upperName header.1 ≠ routeField := fun h => hname (mem_singleton.mpr h)
        rw [fieldsNamed_addHeaderField]
        simp [hne]
  · exact ⟨[], rfl⟩

/-- **Routes are put in front** of those that are there. -/
theorem routeValues_foldl_applyHeaderParam (junk : Byte) (headers : List (Text × Text))
    (m : SipMessage) :
    ∃ added, routeValues (headers.foldl (applyHeaderParam junk) m) = added ++ m.routeValues := by
  induction headers generalizing m with
  | nil => exact ⟨[], rfl⟩
  | cons header headers ih =>
    obtain ⟨added, hadded⟩ := routeValues_applyHeaderParam junk m header
    obtain ⟨more, hmore⟩ := ih (m.applyHeaderParam junk header)
    refine ⟨more ++ added, ?_⟩
    rw [foldl_cons, hmore, hadded, append_assoc]

end SipMessage

/-! ## The URI is read again -/

variable {st : ParseState} {u : Url}

namespace Url

open Pattern

def questionMark : Byte := byte '?'

/-- The parts of a URI that was read: user and password are texts of their grammars, and
neither host nor path has a question mark. -/
structure IsRead (u : Url) : Prop where
  userId : isEscapedText isUserByte u.userId = true
  password : isEscapedText isPasswordByte u.password = true
  hostAddress : questionMark ∉ u.hostAddress
  path : questionMark ∉ u.path

theorem isRead_default : IsRead {} := ⟨rfl, rfl, not_mem_nil, not_mem_nil⟩

theorem isEscapedText_password {s : Text} {m : Match}
    (hm : matchAt usernameAndPasswordRegex s = some m) :
    isEscapedText isPasswordByte ((m.group 2).getD []) = true := by
  cases hg : m.group 2 with
  | none => rfl
  | some password =>
    obtain ⟨body, hbody, hlang⟩ := exists_of_group (mem_run_of_matchAt hm) hg
    have hgroups : groups usernameAndPasswordRegex =
        [(1, plus (escapedRun isUserByte)), (2, star (escapedRun isPasswordByte))] := rfl
    have heq : body = star (escapedRun isPasswordByte) := by simpa [hgroups] using hbody
    rw [heq] at hlang
    exact isEscapedText_of_mem_lang_star (by decide) hlang

theorem isRead_parseUser (huser : st.url.userId = [])
    (h : IsRead st.url) : IsRead (parseUser st).url := by
  have hread := isEscapedText_userId huser
  unfold parseUser at hread ⊢
  by_cases hfile : st.url.scheme = .file
  · rw [if_pos hfile]
    exact h
  · rw [if_neg hfile] at hread ⊢
    cases hm : matchAt usernameAndPasswordRegex st.rest with
    | none => exact h
    | some m =>
      rw [hm] at hread
      exact ⟨hread, isEscapedText_password hm, h.hostAddress, h.path⟩

theorem isRead_parseHostAndPort (h : IsRead st.url) : IsRead (parseHostAndPort st).url := by
  unfold parseHostAndPort
  cases hm : matchAt hostAndPortRegex st.rest with
  | some m =>
    refine ⟨h.userId, h.password, fun hmem => ?_, h.path⟩
    have hbyte := bytes_of_isHost (isHost_of_hostGroup (mem_run_of_matchAt hm)) _ hmem
    exact absurd hbyte (by decide)
  | none =>
    dsimp only
    split
    · exact h
    · exact ⟨rfl, rfl, h.hostAddress, h.path⟩

theorem isRead_parsePath (h : IsRead st.url) : IsRead (parsePath st).url := by
  unfold parsePath
  split
  · cases hm : matchAt urlPathRegex st.rest with
    | none => exact h
    | some m =>
      refine ⟨h.userId, h.password, h.hostAddress, ?_⟩
      dsimp only
      cases hg : m.group 1 with
      | none => exact not_mem_nil
      | some path =>
        obtain ⟨body, hbody, hlang⟩ := exists_of_group (mem_run_of_matchAt hm) hg
        have hgroups : groups urlPathRegex =
            [(1, possessive fun c => !(oneOf "?," c || isSpace c))] := rfl
        have heq : body = possessive fun c => !(oneOf "?," c || isSpace c) := by
          simpa [hgroups] using hbody
        rw [heq] at hlang
        intro hmem
        exact absurd ((mem_lang_plus_cls.mp hlang).2 _ hmem) (by decide)
  · exact h

theorem isRead_parseUrlParams (h : IsRead st.url) : IsRead (parseUrlParams .addrSpec st).url := by
  unfold parseUrlParams
  split
  · cases matchAt urlParamsRegex st.rest with
    | none => exact h
    | some m => exact ⟨h.userId, h.password, h.hostAddress, h.path⟩
  · exact h

theorem isRead_parseHeaderParams (h : IsRead st.url) : IsRead (parseHeaderParams st).url := by
  unfold parseHeaderParams
  cases matchAt headerOrQueryParamsRegex st.rest with
  | none => exact h
  | some m => exact ⟨h.userId, h.password, h.hostAddress, h.path⟩

theorem isRead_parseEnd (nextUri : Bool) (h : IsRead st.url) :
    IsRead (parseEnd .addrSpec nextUri st).url := by
  unfold parseEnd
  split
  · exact h
  · cases matchAt (endRegex .addrSpec nextUri) st.rest with
    | some m => exact h
    | none => exact ⟨h.userId, h.password, h.hostAddress, h.path⟩

/-- **A URI of a request line** has parts that can be told apart when it is printed. -/
theorem isRead_ofText (s : Text) : IsRead (ofText s .addrSpec) := by
  unfold ofText
  split
  · exact isRead_default
  · have hscheme : IsRead (skipSlashes (parseScheme .addrSpec { url := {}, rest := s })).url := by
      have hparse : IsRead (parseScheme .addrSpec { url := {}, rest := s }).url := by
        unfold parseScheme
        dsimp only
        cases matchAt (supportedSchemeRegex .addrSpec) s with
        | none => exact ⟨rfl, rfl, not_mem_nil, not_mem_nil⟩
        | some m => exact ⟨rfl, rfl, not_mem_nil, not_mem_nil⟩
      unfold skipSlashes
      split
      · exact ⟨hparse.userId, hparse.password, hparse.hostAddress, hparse.path⟩
      · exact hparse
    have huser : (skipSlashes (parseScheme .addrSpec { url := {}, rest := s })).url.userId = [] :=
      userId_skipSlashes_parseScheme .addrSpec rfl
    have hfront : IsRead (parseFront .addrSpec s).url := by
      unfold parseFront
      dsimp only
      exact isRead_parseHostAndPort (isRead_parseUser huser hscheme)
    refine isRead_parseEnd false ?_
    have hparams := isRead_parseUrlParams (isRead_parsePath hfront)
    unfold parseBack
    dsimp only
    split
    · exact hparams
    · exact isRead_parseHeaderParams hparams

/-! ### Without a question mark -/

/-- No header parameters have been read, and none are to come. -/
structure NoQuery (st : ParseState) : Prop where
  params : st.url.headerOrQueryParameters = []
  rest : questionMark ∉ st.rest

theorem not_mem_rest {p : Pattern} {s : Text} {m : Match} (hm : matchAt p s = some m)
    (hs : questionMark ∉ s) : questionMark ∉ m.rest := by
  rw [append_of_mem_run (mem_run_of_matchAt hm)] at hs
  exact fun hmem => hs (mem_append_right _ hmem)

theorem noQuery_parseHostAndPort (h : NoQuery st) : NoQuery (parseHostAndPort st) := by
  unfold parseHostAndPort
  cases hm : matchAt hostAndPortRegex st.rest with
  | some m => exact ⟨h.params, not_mem_rest hm h.rest⟩
  | none =>
    dsimp only
    split
    · exact h
    · exact ⟨h.params, h.rest⟩

theorem noQuery_parsePath (h : NoQuery st) : NoQuery (parsePath st) := by
  unfold parsePath
  split
  · cases hm : matchAt urlPathRegex st.rest with
    | none => exact h
    | some m => exact ⟨h.params, fun hmem => h.rest (mem_of_mem_drop hmem)⟩
  · exact h

theorem noQuery_parseUrlParams (h : NoQuery st) : NoQuery (parseUrlParams .addrSpec st) := by
  unfold parseUrlParams
  split
  · cases hm : matchAt urlParamsRegex st.rest with
    | none => exact h
    | some m => exact ⟨h.params, not_mem_rest hm h.rest⟩
  · exact h

theorem parseHeaderParams_of_noQuery (h : NoQuery st) : parseHeaderParams st = st := by
  have hnone : matchAt headerOrQueryParamsRegex st.rest = none := by
    rw [Option.eq_none_iff_forall_ne_some]
    intro m hm
    have hmem := mem_run_of_matchAt hm
    obtain ⟨blanks, -, u, ⟨mark, hmark, v, -, rfl⟩, htext⟩ := text_mem_lang hmem
    have hrest := h.rest
    rw [append_of_mem_run hmem, ← htext, mem_lang_lit.mp hmark] at hrest
    exact hrest (by simp [questionMark, text])
  unfold parseHeaderParams
  rw [hnone]

theorem params_parseEnd (nextUri : Bool) (st : ParseState) :
    (parseEnd .addrSpec nextUri st).url.headerOrQueryParameters =
      st.url.headerOrQueryParameters := by
  unfold parseEnd
  split
  · rfl
  · cases matchAt (endRegex .addrSpec nextUri) st.rest <;> rfl

theorem params_of_noQuery (h : NoQuery st) :
    (parseEnd .addrSpec false (parseBack .addrSpec (parseHostAndPort st))).url.headerOrQueryParameters
      = [] := by
  have hparams := noQuery_parseUrlParams (noQuery_parsePath (noQuery_parseHostAndPort h))
  rw [params_parseEnd]
  unfold parseBack
  dsimp only
  split
  · exact hparams.params
  · rw [parseHeaderParams_of_noQuery hparams]
    exact hparams.params

theorem noQuery_parseUser (hu : IsRead u)
    (hscheme : st.url.scheme = u.scheme) (hparams : st.url.headerOrQueryParameters = []) {z : Text}
    (hz : questionMark ∉ z) (hrest : st.rest = u.userText ++ z) : NoQuery (parseUser st) := by
  unfold parseUser
  by_cases hfile : st.url.scheme = .file
  · rw [if_pos hfile]
    refine ⟨hparams, ?_⟩
    rw [hrest, userText, if_pos (Or.inl (hscheme.symm.trans hfile))]
    exact hz
  · rw [if_neg hfile]
    by_cases huser : u.userId = []
    · rw [userText, if_pos (Or.inr huser), nil_append] at hrest
      rw [hrest]
      cases hm : matchAt usernameAndPasswordRegex z with
      | none => exact ⟨hparams, by rw [hrest]; exact hz⟩
      | some m => exact ⟨hparams, not_mem_rest hm hz⟩
    · have hnot : ¬ (u.scheme = .file ∨ u.userId = []) :=
        fun h => h.elim (fun h => hfile (hscheme.trans h)) huser
      rw [userText, if_neg hnot] at hrest
      by_cases hpassword : u.password = []
      · rw [if_pos hpassword, append_nil, append_assoc] at hrest
        rw [hrest, singleton_append, matchAt_user huser hu.userId]
        exact ⟨hparams, hz⟩
      · have hsplit : st.rest = u.userId ++ byte ':' :: (u.password ++ byte '@' :: z) := by
          rw [hrest, if_neg hpassword]
          simp
        rw [hsplit, matchAt_user_password huser hu.userId hu.password]
        exact ⟨hparams, hz⟩

/-- What stands in front of the host. -/
def frontText (u : Url) : Text :=
  u.scheme.name ++ byte ':' :: ((if u.scheme.hasPath then text "//" else []) ++ u.userText)

/-- The stages up to the user. -/
theorem skipSlashes_frontText (u : Url) (z : Text) :
    skipSlashes (parseScheme .addrSpec { url := {}, rest := u.frontText ++ z }) =
      { url := { scheme := u.scheme }, rest := u.userText ++ z } := by
  rw [frontText, append_assoc, cons_append, parseScheme_name, skipSlashes]
  by_cases hpath : u.scheme.hasPath = true
  · simp [hpath, text]
  · simp [hpath]

theorem params_frontText (hu : IsRead u) {z : Text} (hz : questionMark ∉ z) :
    (ofText (u.frontText ++ z) .addrSpec).headerOrQueryParameters = [] := by
  have hne : u.frontText ++ z ≠ [] := by simp [frontText]
  rw [ofText, if_neg hne]
  unfold fromString parseString parseFront
  dsimp only
  rw [skipSlashes_frontText]
  exact params_of_noQuery (noQuery_parseUser hu rfl rfl hz rfl)

/-- What is printed behind the user. -/
def backText (u : Url) : Text :=
  u.hostAddress ++ (u.portText ++ ((if u.scheme.hasPath then u.path else []) ++
    urlParamsText u.urlParameters))

theorem getUri_eq (hparams : u.headerOrQueryParameters = []) :
    u.getUri = u.frontText ++ u.backText := by
  simp [getUri, frontText, backText, hparams, headerParamsText]

theorem not_mem_escape (s : Text) : questionMark ∉ escape s := by
  intro hmem
  have hplain : isEscapeByte questionMark = false := by decide
  exact ne_of_class (isEscapeByte_escape s _ hmem) hplain rfl

theorem not_mem_backText (hu : IsRead u)
    (hnames : ∀ nv ∈ u.urlParameters, questionMark ∉ nv.1) : questionMark ∉ u.backText := by
  intro hmem
  rw [backText, mem_append, mem_append, mem_append] at hmem
  rcases hmem with hmem | hmem | hmem | hmem
  · exact hu.hostAddress hmem
  · obtain ⟨value, hport⟩ := isPortText_portText u
    exact absurd (bytes_of_isPortText hport _ hmem) (by decide)
  · split at hmem
    · exact hu.path hmem
    · exact not_mem_nil hmem
  · obtain ⟨nv, hnv, hparam⟩ := mem_flatMap.mp hmem
    rw [paramText, mem_cons, mem_append] at hparam
    rcases hparam with hparam | hparam | hparam
    · exact absurd hparam (by decide)
    · exact hnames nv hnv hparam
    · split at hparam
      · exact not_mem_nil hparam
      · rcases mem_cons.mp hparam with hparam | hparam
        · exact absurd hparam (by decide)
        · exact not_mem_escape nv.2 hparam

/-- Neither NUL nor blank. -/
def isLineByte (c : Byte) : Bool := c != 0 && c != byte ' '

theorem isLineByte_frontText (hu : IsRead u) : ∀ c ∈ u.frontText, isLineByte c = true := by
  have hline : ∀ c, isLineByte c = true ↔ c ≠ 0 ∧ c ≠ byte ' ' := by simp [isLineByte]
  have hscheme : ∀ c ∈ u.scheme.name, isLineByte c = true := by cases u.scheme <;> decide
  have huser : ∀ c : Byte, isUserByte c = true ∨ c = byte '%' ∨ isHex c = true →
      isLineByte c = true := by
    refine fun c hc => (hline c).mpr ⟨?_, ?_⟩ <;> rintro rfl <;> exact absurd hc (by decide)
  have hpassword : ∀ c : Byte, isPasswordByte c = true ∨ c = byte '%' ∨ isHex c = true →
      isLineByte c = true := by
    refine fun c hc => (hline c).mpr ⟨?_, ?_⟩ <;> rintro rfl <;> exact absurd hc (by decide)
  have hslashes : ∀ c ∈ text "//", isLineByte c = true := by decide
  have hsigns : ∀ c ∈ text ":@", isLineByte c = true := by decide
  intro c hc
  rw [frontText, mem_append, mem_cons, mem_append, userText] at hc
  rcases hc with hc | hc | hc | hc
  · exact hscheme c hc
  · exact hsigns c (by simp [hc, text])
  · split at hc
    · exact hslashes c hc
    · exact absurd hc not_mem_nil
  · split at hc
    · exact absurd hc not_mem_nil
    · rw [mem_append, mem_append, mem_singleton] at hc
      rcases hc with (hc | hc) | hc
      · exact huser c (bytes_of_isEscapedText hu.userId c hc)
      · split at hc
        · exact absurd hc not_mem_nil
        · rcases mem_cons.mp hc with hc | hc
          · exact hsigns c (by simp [hc, text])
          · exact hpassword c (bytes_of_isEscapedText hu.password c hc)
      · exact hsigns c (by simp [hc, text])

theorem exists_getUri_eq (hu : IsRead u) (hparams : u.headerOrQueryParameters = []) :
    ∃ c cs, u.getUri = c :: cs ∧ isLineByte c = true := by
  have hne : u.frontText ≠ [] := by simp [frontText]
  obtain ⟨c, cs, hcs⟩ := exists_cons_of_ne_nil hne
  refine ⟨c, cs ++ u.backText, ?_, isLineByte_frontText hu c (by rw [hcs]; simp)⟩
  rw [getUri_eq hparams, hcs, cons_append]

/-- **A URI without header parameters** is read back without them, unless a URL parameter
has a question mark in its name. -/
theorem headerParams_getUri (hu : IsRead u) (hparams : u.headerOrQueryParameters = [])
    (hnames : ∀ nv ∈ u.urlParameters, questionMark ∉ nv.1) :
    (ofText (u.getUri.takeWhile isLineByte) .addrSpec).headerOrQueryParameters = [] := by
  rw [getUri_eq hparams, takeWhile_append_of_pos (isLineByte_frontText hu)]
  refine params_frontText hu fun hmem => not_mem_backText hu hnames ?_
  exact (List.takeWhile_prefix _).subset hmem

end Url

/-! ## The request afterwards -/

variable {m : SipMessage}

namespace SipMessage

open NameValueTokenizer HttpMessage

theorem takeWhile_append_cons {p : Byte → Bool} {c : Byte} (hc : p c = false) (s t : Text) :
    (s ++ c :: t).takeWhile p = s.takeWhile p := by
  induction s with
  | nil => simp [hc]
  | cons d s ih =>
    by_cases hd : p d = true
    · rw [cons_append, takeWhile_cons_of_pos hd, takeWhile_cons_of_pos hd, ih]
    · rw [cons_append, takeWhile_cons_of_neg hd, takeWhile_cons_of_neg hd]

theorem method_ne_nil (huri : m.getRequestUri ≠ []) : m.getFirstHeaderLinePart 0 ≠ [] := by
  intro hmethod
  refine huri ?_
  have hstart : m.firstHeaderLine.dropWhile (· == byte ' ') = [] := by
    have htake : (m.firstHeaderLine.dropWhile (· == byte ' ')).takeWhile (· != byte ' ') = [] :=
      hmethod
    by_contra hne
    have hhead := head_dropWhile_not (· == byte ' ') hne
    obtain ⟨c, cs, hcs⟩ := exists_cons_of_ne_nil hne
    simp only [hcs, head_cons] at hhead
    rw [hcs, takeWhile_cons_of_pos (by simp [bne, hhead])] at htake
    exact cons_ne_nil _ _ htake
  rw [getRequestUri, getFirstHeaderLinePart, partStart, hstart]
  rfl

theorem getRequestUri_changeRequestUri (hmethod : m.getFirstHeaderLinePart 0 ≠ [])
    {uri : Text} {c : Byte} (hc : c ≠ byte ' ') :
    (m.changeRequestUri (c :: uri)).getRequestUri = (c :: uri).takeWhile (· != byte ' ') := by
  have hblank : ∀ d ∈ m.getFirstHeaderLinePart 0, (d != byte ' ') = true := by
    intro d hd
    exact mem_takeWhile_imp (p := (· != byte ' ')) hd
  obtain ⟨d, ds, hds⟩ := exists_cons_of_ne_nil hmethod
  have hfirst : (d == byte ' ') = false := by
    have := hblank d (by rw [hds]; simp)
    simpa [bne] using this
  have hrest : ((m.changeRequestUri (c :: uri)).firstHeaderLine.dropWhile (· == byte ' ')).dropWhile
      (· != byte ' ') = byte ' ' :: (c :: uri ++ byte ' ' :: m.getFirstHeaderLinePart 2) := by
    have hline : (m.changeRequestUri (c :: uri)).firstHeaderLine =
        m.getFirstHeaderLinePart 0 ++
          byte ' ' :: (c :: uri ++ byte ' ' :: m.getFirstHeaderLinePart 2) := by
      simp [changeRequestUri]
    rw [hline, hds, cons_append, dropWhile_cons_of_neg (by simp [hfirst]),
      ← cons_append, ← hds, dropWhile_append_of_pos hblank,
      dropWhile_cons_of_neg (by decide)]
  rw [getRequestUri, getFirstHeaderLinePart, partStart, hrest]
  simp only [partStart]
  rw [cons_append, dropWhile_cons_of_neg (by simpa using hc), ← cons_append,
    takeWhile_append_cons (by decide)]
  rfl

theorem cString_getRequestUri_changeRequestUri
    (hmethod : m.getFirstHeaderLinePart 0 ≠ []) {uri : Text}
    (huri : ∃ c cs, uri = c :: cs ∧ Url.isLineByte c = true) :
    cString (m.changeRequestUri (cString uri)).getRequestUri = uri.takeWhile Url.isLineByte := by
  obtain ⟨c, cs, rfl, hc⟩ := huri
  simp only [Url.isLineByte, Bool.and_eq_true] at hc
  have hcons : cString (c :: cs) = c :: cString cs := takeWhile_cons_of_pos hc.1
  have hblank : c ≠ byte ' ' := by simpa using hc.2
  have hclass : (fun d : Byte => d != 0 && d != byte ' ' && d != 0) = Url.isLineByte :=
    funext fun d => by simp only [Url.isLineByte]; cases d != 0 <;> cases d != byte ' ' <;> rfl
  rw [hcons, getRequestUri_changeRequestUri hmethod hblank, ← hcons, cString, cString,
    takeWhile_takeWhile, takeWhile_takeWhile]
  simp only [Bool.decide_and, Bool.decide_eq_true]
  rw [hclass]

/-- Afterwards the request URI has no header parameters. -/
theorem noParams_applyTargetUriHeaderParams (junk : Byte) (m : SipMessage)
    (hnames : m.requestUrl.headerOrQueryParameters ≠ [] →
      ∀ nv ∈ m.requestUrl.urlParameters, Url.questionMark ∉ nv.1) :
    (m.applyTargetUriHeaderParams junk).requestUrl.headerOrQueryParameters = [] := by
  unfold applyTargetUriHeaderParams
  dsimp only
  generalize happlied : m.requestUrl.headerOrQueryParameters.foldl (applyHeaderParam junk) m =
    applied
  have hsame : applied.firstHeaderLine = m.firstHeaderLine := by
    rw [← happlied]
    exact firstHeaderLine_foldl_applyHeaderParam junk _ m
  by_cases hparams : m.requestUrl.headerOrQueryParameters = []
  · rw [if_pos hparams, requestUrl, getRequestUri, getFirstHeaderLinePart, hsame]
    exact hparams
  · rw [if_neg hparams]
    have huri : m.getRequestUri ≠ [] := by
      intro hnil
      rw [requestUrl, hnil] at hparams
      exact hparams rfl
    have hmethod : applied.getFirstHeaderLinePart 0 ≠ [] := by
      rw [getFirstHeaderLinePart, hsame]
      exact method_ne_nil huri
    have hread : Url.IsRead m.requestUrl := Url.isRead_ofText (cString m.getRequestUri)
    rw [requestUrl, cString_getRequestUri_changeRequestUri hmethod]
    · exact Url.headerParams_getUri
        ⟨hread.userId, hread.password, hread.hostAddress, hread.path⟩ rfl (hnames hparams)
    · exact Url.exists_getUri_eq ⟨hread.userId, hread.password, hread.hostAddress, hread.path⟩ rfl

/-- **Which header parameters leave a request unharmed.**  Unless a URL parameter of the URI
has a question mark in its name, the protected headers stay as they are exactly when no
header parameter has the compact name of From, Refer-To or Referred-By; the URI loses its
header parameters and the Route values stay behind those that are added. -/
theorem unharmed_iff (junk : Byte) (m : SipMessage)
    (hnames : m.requestUrl.headerOrQueryParameters ≠ [] →
      ∀ nv ∈ m.requestUrl.urlParameters, Url.questionMark ∉ nv.1) :
    Unharmed m (m.applyTargetUriHeaderParams junk) ↔
      ∀ header ∈ m.requestUrl.headerOrQueryParameters, upperName header.1 ∉ overlookedNames := by
  have hheaders : (m.applyTargetUriHeaderParams junk).nameValues =
      (m.requestUrl.headerOrQueryParameters.foldl (applyHeaderParam junk) m).nameValues := by
    unfold applyTargetUriHeaderParams
    dsimp only
    split <;> rfl
  have hfields := fields_iff junk m.requestUrl.headerOrQueryParameters m
  have hroutes := routeValues_foldl_applyHeaderParam junk m.requestUrl.headerOrQueryParameters m
  simp only [fieldsNamed, routeValues, headerValues, ← hheaders] at hfields hroutes
  constructor
  · intro h
    exact hfields.mp h.fields
  · intro h
    exact ⟨hfields.mpr h, noParams_applyTargetUriHeaderParams junk m hnames, hroutes⟩

/-- A request to a target that asks for a Replaces header. -/
def replacesRequest : SipMessage :=
  { firstHeaderLine := text "INVITE sip:u@h;transport=tcp?Replaces=1&route=%3Csip:p%3E SIP/2.0"
    nameValues := [(text "FROM", text "sip:a@h"), (routeField, text "<sip:q;lr>")] }

theorem replacesRequest_unharmed :
    (∀ nv ∈ replacesRequest.requestUrl.urlParameters, Url.questionMark ∉ nv.1) ∧
      Unharmed replacesRequest (replacesRequest.applyTargetUriHeaderParams 0) := by
  have hnames : ∀ nv ∈ replacesRequest.requestUrl.urlParameters, Url.questionMark ∉ nv.1 := by
    decide +kernel
  exact ⟨hnames, (unharmed_iff 0 replacesRequest fun _ => hnames).mpr (by decide +kernel)⟩

/-- A request to a target that asks for a From header by its compact name. -/
def compactRequest : SipMessage :=
  { firstHeaderLine := text "INVITE sip:u@h?f=sip:x@y SIP/2.0"
    nameValues := [(text "FROM", text "sip:a@h")] }

/-- A request to a target with a question mark in the name of a URL parameter. -/
def questionRequest : SipMessage :=
  { firstHeaderLine := text "INVITE sip:u@h;a%3Fsubject=1?expires=10 SIP/2.0", nameValues := [] }

/-- The first gets a second From, the other a URI with a header parameter. -/
theorem compactRequest_harmed :
    ¬ Unharmed compactRequest (compactRequest.applyTargetUriHeaderParams 0) ∧
      ¬ Unharmed questionRequest (questionRequest.applyTargetUriHeaderParams 0) := by
  constructor
  · intro h
    have hfrom := h.fields [text "FROM", text "F"] (by decide)
    revert hfrom
    decide +kernel
  · intro h
    have hparams := h.noParams
    revert hparams
    decide +kernel

end SipMessage

end SipXRouter
