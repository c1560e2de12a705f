import SipXRouter.Net.SipXauthRoundTrip
import SipXRouter.Net.TargetUriHeaderParams

/-!
# Signed headers

A `SipXSignedHeader` holds the identity of a user and some parameters in one URI.  `encode` hashes
the URI as it is printed and makes the hash a parameter of this URI; `decodeHeader` takes the
parameter out and hashes what is left.  The text of a second signature has the first one in it, and
what `decodeHeader` hashes has not.
-/

namespace SipXRouter

open List

variable {name : Text}

namespace Url

/-! ## Header parameters -/

/-- `Url::getHeaderParameter` with index 0. -/
def getHeaderParameter (u : Url) (name : Text) : Option Text :=
  (u.headerOrQueryParameters.find? fun nv => caseEq nv.1 name).map Prod.snd

/-- `Url::setHeaderParameter`. -/
def setHeaderParameter (u : Url) (name value : Text) : Url :=
  if name = [] then u
  else
    let u :=
      if u.scheme.isSip && SipMessage.isUrlHeaderUnique name then u.removeHeaderParameter name
      else u
    { u with headerOrQueryParameters := u.headerOrQueryParameters ++ [(name, value)] }

theorem getHeaderParameter_removeHeaderParameter (u : Url) (name : Text) :
    (u.removeHeaderParameter name).getHeaderParameter name = none := by
  rw [getHeaderParameter, Option.map_eq_none_iff, find?_eq_none]
  intro nv hnv
  have hname := (mem_filter.mp hnv).2
  simpa using hname

theorem getHeaderParameter_setHeaderParameter (u : Url) (hne : name ≠ []) (value : Text) :
    ((u.removeHeaderParameter name).setHeaderParameter name value).getHeaderParameter name =
      some value := by
  have hfound : ∀ params : List (Text × Text), (params.find? fun nv => caseEq nv.1 name) = none →
      ((params ++ [(name, value)]).find? fun nv => caseEq nv.1 name) = some (name, value) := by
    intro params hparams
    rw [find?_append, hparams, Option.none_or]
    exact find?_cons_of_pos (caseEq_refl name)
  have hnone (u : Url) : ((u.removeHeaderParameter name).headerOrQueryParameters.find?
      fun nv => caseEq nv.1 name) = none :=
    Option.map_eq_none_iff.mp (getHeaderParameter_removeHeaderParameter u name)
  rw [setHeaderParameter, if_neg hne]
  dsimp only
  split
  · rw [getHeaderParameter, hfound _ (hnone (u.removeHeaderParameter name))]
    rfl
  · rw [getHeaderParameter, hfound _ (hnone u)]
    rfl

/-- Parameters stay such that are read as they are printed. -/
theorem isStableParam_setFirst {value : Text} {params : List (Text × Text)}
    (hparams : ∀ nv ∈ params, IsStableParam nv) (hset : IsStableParam (name, value)) :
    ∀ nv ∈ (setFirst name value params).getD (params ++ [(name, value)]), IsStableParam nv := by
  have hrenamed : ∀ {n v w : Text}, IsStableParam (n, v) → (0 : Byte) ∉ w →
      IsStableParam (n, w) :=
    fun h hw => ⟨⟨h.read.front, h.read.back, h.read.name, hw⟩, h.kept⟩
  rintro ⟨n, v⟩ hnv
  rcases mem_setFirst hnv with hnv | ⟨rfl, -, rfl | ⟨old, hold⟩⟩
  · exact hparams _ hnv
  · exact hset
  · exact hrenamed (hparams _ hold) hset.read.value

theorem getUrlParameter_eq_none_iff {u : Url} :
    u.getUrlParameter name = none ↔ u.removeUrlParameter name = u := by
  rw [getUrlParameter, Option.map_eq_none_iff, find?_eq_none]
  constructor
  · intro hnone
    have hfilter : (u.urlParameters.filter fun nv => !caseEq nv.1 name) = u.urlParameters :=
      filter_eq_self.mpr fun nv hnv => by simpa using hnone nv hnv
    rw [removeUrlParameter, hfilter]
  · intro heq nv hnv
    have hparams := congrArg Url.urlParameters heq
    have hkept := filter_eq_self.mp hparams nv hnv
    simpa using hkept

theorem removeUrlParameter_setUrlParameter (u : Url) (name value : Text) :
    (u.setUrlParameter name value).removeUrlParameter name = u.removeUrlParameter name := by
  have hown : ∀ nv : Text × Text, caseEq nv.1 name = true → (!caseEq nv.1 name) = false := by
    intro nv hcase
    rw [hcase]
    rfl
  have hfilter : (u.setUrlParameter name value).urlParameters.filter (fun nv => !caseEq nv.1 name) =
      u.urlParameters.filter fun nv => !caseEq nv.1 name :=
    filter_setFirst hown value u.urlParameters
  rw [removeUrlParameter, removeUrlParameter, hfilter]
  rfl

end Url

/-! ## The object -/

/-- A header with an identity and parameters, which is signed when it is written. -/
structure SipXSignedHeader where
  identity : Text
  headerName : Text
  isValid : Bool
  encodedUrl : Url
deriving DecidableEq

variable {c : Call} {calls : List Call} {h : SipXSignedHeader} {junk : Byte}

namespace SipXSignedHeader

open Url

def signatureUrlParamName : Text := text "signature"

/-- The constructor for an identity. -/
def new (identity headerName : Text) : SipXSignedHeader where
  identity := identity
  headerName := headerName
  isValid := identity != [] && headerName != []
  encodedUrl := { ofText (cString identity) .nameAddr with scheme := .sip }

def getIdentity (h : SipXSignedHeader) : Option Text := if h.isValid then some h.identity else none

def getParam (h : SipXSignedHeader) (paramName : Text) : Option Text :=
  if h.isValid then h.encodedUrl.getUrlParameter (cString paramName) else none

/-- `setParam`, which an invalid header ignores. -/
def setParam (h : SipXSignedHeader) (paramName paramValue : Text) : SipXSignedHeader :=
  if h.isValid then
    { h with encodedUrl := h.encodedUrl.setUrlParameter (cString paramName) (cString paramValue) }
  else h

section Signing

variable (md5 : NetMd5Codec) (secret : Text)

/-- The hash of a URI as it is printed, with the secret behind it. -/
def signatureOf (junk : Byte) (url : Url) : Text := md5.hash (url.toString junk ++ secret)

/-- `encode`: the object afterwards and the value, if any. -/
def encode (junk : Byte) (h : SipXSignedHeader) : SipXSignedHeader × Option Text :=
  if h.isValid then
    let url := h.encodedUrl.setUrlParameter signatureUrlParamName
      (signatureOf md5 secret junk h.encodedUrl)
    ({ h with encodedUrl := url }, some (url.toString junk))
  else (h, none)

/-- `encodeUri`: the object and the URI afterwards. -/
def encodeUri (junk : Byte) (h : SipXSignedHeader) (uri : Url) : SipXSignedHeader × Url :=
  if h.isValid then
    let encoded := h.encode md5 secret junk
    (encoded.1, (uri.removeHeaderParameter (cString h.headerName)).setHeaderParameter
      (cString h.headerName) (cString (encoded.2.getD [])))
  else (h, uri)

/-- What is left of an object when a value is not accepted. -/
def rejected (h : SipXSignedHeader) : SipXSignedHeader :=
  { h with identity := [], isValid := false, encodedUrl := {} }

/-- `decodeHeader`.  The signatures are compared as C strings. -/
def decodeHeader (junk : Byte) (h : SipXSignedHeader) (headerValue : Text) : SipXSignedHeader :=
  let url := fromString (cString headerValue) .nameAddr
  if url.scheme = .sip then
    match url.getUrlParameter signatureUrlParamName with
    | none => h.rejected
    | some actualSignature =>
      let body := url.removeUrlParameter signatureUrlParamName
      if cString (signatureOf md5 secret junk body) = cString actualSignature then
        { h with identity := url.getIdentity, isValid := true, encodedUrl := body }
      else h.rejected
  else h.rejected

/-! ## Runs -/

/-- The calls on an object. -/
inductive Call where
  | setParam (paramName paramValue : Text)
  | encode (junk : Byte)
  | encodeUri (junk : Byte) (uri : Url)
deriving DecidableEq

/-- The object after a call. -/
def step (h : SipXSignedHeader) : Call → SipXSignedHeader
  | .setParam paramName paramValue => h.setParam paramName paramValue
  | .encode junk => (h.encode md5 secret junk).1
  | .encodeUri junk uri => (h.encodeUri md5 secret junk uri).1

/-- The object after some calls. -/
def run (h : SipXSignedHeader) (calls : List Call) : SipXSignedHeader :=
  calls.foldl (step md5 secret) h

/-- The value that a call encodes; `encodeUri` puts it into the URI. -/
def encodedBy (h : SipXSignedHeader) : Call → Option Text
  | .setParam _ _ => none
  | .encode junk => (h.encode md5 secret junk).2
  | .encodeUri junk uri =>
    if h.isValid then
      (h.encodeUri md5 secret junk uri).2.getHeaderParameter (cString h.headerName)
    else none

/-- The text that a call signs. -/
def signedBy (h : SipXSignedHeader) : Call → Option Text
  | .setParam _ _ => none
  | .encode junk => if h.isValid then some (h.encodedUrl.toString junk) else none
  | .encodeUri junk _ => if h.isValid then some (h.encodedUrl.toString junk) else none

/-- All texts that are signed in a run of calls. -/
def signedTexts (h : SipXSignedHeader) : List Call → List Text
  | [] => []
  | c :: calls => (h.signedBy c).toList ++ signedTexts (h.step md5 secret c) calls

/-- The last value that some calls encode, with the calls in front of it. -/
def lastEncoded (h : SipXSignedHeader) : List Call → Option (List Call × Text)
  | [] => none
  | c :: calls =>
    ((lastEncoded (h.step md5 secret c) calls).map fun e => (c :: e.1, e.2)).or
      ((h.encodedBy md5 secret c).map fun value => ([], value))

/-- A call that gives the URI a signature. -/
def Call.signs : Call → Bool
  | .setParam paramName _ => caseEq (cString paramName) signatureUrlParamName
  | .encode _ => true
  | .encodeUri _ _ => true

/-- An object has the identity and the parameters of another one. -/
structure Restores (h decoded : SipXSignedHeader) : Prop where
  isValid : decoded.isValid = true
  identity : decoded.getIdentity = some h.identity
  params : ∀ paramName, decoded.getParam paramName = h.getParam paramName

/-! ## What is accepted -/

/-- The signature that a value carries. -/
def carriedSignature (headerValue : Text) : Option Text :=
  (fromString (cString headerValue) .nameAddr).getUrlParameter signatureUrlParamName

/-- The text of a value without the signature. -/
def unsignedText (junk : Byte) (headerValue : Text) : Text :=
  ((fromString (cString headerValue) .nameAddr).removeUrlParameter signatureUrlParamName).toString
    junk

variable {md5 secret}

theorem cString_signatureOf (junk : Byte) (url : Url) :
    cString (signatureOf md5 secret junk url) = signatureOf md5 secret junk url :=
  cString_of_class (md5.isHexLower_hash _) (by decide)

theorem carriedSignature_of_isValid {headerValue : Text}
    (hvalid : (h.decodeHeader md5 secret junk headerValue).isValid = true) :
    ∃ actualSignature, carriedSignature headerValue = some actualSignature ∧
      md5.hash (unsignedText junk headerValue ++ secret) = cString actualSignature := by
  have hno : ¬ (h.rejected.isValid = true) := Bool.false_ne_true
  unfold decodeHeader at hvalid
  dsimp only at hvalid
  split at hvalid
  · split at hvalid
    · exact absurd hvalid hno
    · next actualSignature hactual =>
        split at hvalid
        · next heq =>
            rw [cString_signatureOf] at heq
            exact ⟨actualSignature, hactual, heq⟩
        · exact absurd hvalid hno
  · exact absurd hvalid hno

/-- **What is accepted is what was signed**: a value with the signature of a text is accepted only
if it is, without the signature, this text. -/
theorem eq_of_accepted {log : List Text} (hideal : md5.Ideal (log.map (· ++ secret)))
    {headerValue : Text}
    (hvalid : (h.decodeHeader md5 secret junk headerValue).isValid = true) {body : Text}
    (hbody : body ∈ log) {actualSignature : Text}
    (hactual : carriedSignature headerValue = some actualSignature)
    (hissued : cString actualSignature = md5.hash (body ++ secret)) :
    unsignedText junk headerValue = body := by
  obtain ⟨signature, hsome, hhash⟩ := carriedSignature_of_isValid hvalid
  rw [hactual, Option.some_inj] at hsome
  rw [← hsome, hissued] at hhash
  exact append_cancel_right (hideal _ (mem_map_of_mem hbody) _ hhash)

end Signing

/-! ## The objects of a run -/

section States

variable {md5 : NetMd5Codec} {secret user host port identity headerName : Text} {value : Int}

/-- The object of an identity, with parameters that are read as they are printed. -/
def IsState (user host : Text) (value : Int) (identity headerName : Text)
    (h : SipXSignedHeader) : Prop :=
  ∃ params, (∀ nv ∈ params, IsStableParam nv) ∧
    h = ⟨identity, headerName, true, identityUrl user host value params⟩

theorem isState_new (hne : user ≠ []) (huser : isEscapedText isUserByte user = true)
    (hhost : IsHost host) (hport : IsPortText port value)
    (hidentity : identity = user ++ byte '@' :: (host ++ port)) (hheader : headerName ≠ []) :
    IsState user host value identity headerName (new identity headerName) := by
  have hzero : cString identity = identity := by
    rw [hidentity]
    exact cString_of_notMem (notMem_identity huser hhost hport (by decide) (by decide) (by decide)
      (by decide))
  have hnil : identity ≠ [] := by
    rw [hidentity]
    exact append_ne_nil_of_left_ne_nil hne _
  refine ⟨[], fun nv hnv => absurd hnv not_mem_nil, ?_⟩
  have hread : ofText identity .nameAddr = identityUrl user host value [] := by
    rw [ofText, if_neg hnil, hidentity]
    exact fromString_identity hne huser hhost hport
  have hvalid : (identity != [] && headerName != []) = true := by
    rw [bne_iff_ne.mpr hnil, bne_iff_ne.mpr hheader]
    rfl
  rw [new, hzero, hread, hvalid]
  rfl

theorem IsState.isValid
    (hh : IsState user host value identity headerName h) : h.isValid = true := by
  obtain ⟨params, -, rfl⟩ := hh
  rfl

theorem IsState.setUrlParameter
    (hh : IsState user host value identity headerName h) {paramValue : Text}
    (hset : IsStableParam (name, paramValue)) : IsState user host value identity headerName
      { h with encodedUrl := h.encodedUrl.setUrlParameter name paramValue } := by
  obtain ⟨params, hparams, rfl⟩ := hh
  exact ⟨_, isStableParam_setFirst hparams hset, rfl⟩

theorem isStableParam_signature (md5 : NetMd5Codec) (secret : Text) (junk : Byte) (url : Url) :
    IsStableParam (signatureUrlParamName, signatureOf md5 secret junk url) := by
  have hname : (∀ c ∈ signatureUrlParamName.head?, isCgiBlank c = false) ∧
      (∀ c ∈ signatureUrlParamName.getLast?, isCgiBlank c = false) ∧
      (0 : Byte) ∉ signatureUrlParamName ∧ IsKeptName ";=%+?>," signatureUrlParamName := by
    decide +kernel
  have hvalue : (0 : Byte) ∉ signatureOf md5 secret junk url := fun hzero =>
    ne_of_class (md5.isHexLower_hash _ 0 hzero) (by decide) rfl
  exact ⟨⟨hname.1, hname.2.1, hname.2.2.1, hvalue⟩, hname.2.2.2⟩

theorem step_eq (md5 : NetMd5Codec) (secret : Text)
    (hvalid : h.isValid = true) (c : Call) :
    ∃ name paramValue, h.step md5 secret c =
        { h with encodedUrl := h.encodedUrl.setUrlParameter name paramValue } ∧
      caseEq name signatureUrlParamName = c.signs ∧
      ((∃ n v, c = .setParam n v ∧ name = cString n ∧ paramValue = cString v) ∨
        ∃ junk, name = signatureUrlParamName ∧
          paramValue = signatureOf md5 secret junk h.encodedUrl) := by
  cases c with
  | setParam n v =>
    refine ⟨cString n, cString v, ?_, rfl, Or.inl ⟨n, v, rfl, rfl, rfl⟩⟩
    rw [step, setParam, if_pos hvalid]
  | encode junk =>
    refine ⟨signatureUrlParamName, signatureOf md5 secret junk h.encodedUrl, ?_,
      caseEq_refl _, Or.inr ⟨junk, rfl, rfl⟩⟩
    rw [step, encode, if_pos hvalid]
  | encodeUri junk uri =>
    refine ⟨signatureUrlParamName, signatureOf md5 secret junk h.encodedUrl, ?_,
      caseEq_refl _, Or.inr ⟨junk, rfl, rfl⟩⟩
    rw [step, encodeUri, if_pos hvalid, encode, if_pos hvalid]

theorem IsState.step (hh : IsState user host value identity headerName h)
    (hc : ∀ n v, c = .setParam n v → IsStableParam (cString n, cString v)) :
    IsState user host value identity headerName (h.step md5 secret c) := by
  obtain ⟨name, paramValue, heq, -, ⟨n, v, hcall, rfl, rfl⟩ | ⟨junk, rfl, rfl⟩⟩ :=
    step_eq md5 secret hh.isValid c
  · rw [heq]
    exact hh.setUrlParameter (hc n v hcall)
  · rw [heq]
    exact hh.setUrlParameter (isStableParam_signature md5 secret junk h.encodedUrl)

theorem IsState.run : ∀ {h : SipXSignedHeader}, IsState user host value identity headerName h →
    (∀ n v, Call.setParam n v ∈ calls → IsStableParam (cString n, cString v)) →
    IsState user host value identity headerName (h.run md5 secret calls) := by
  induction calls with
  | nil => exact fun hh _ => hh
  | cons c calls ih =>
    intro h hh hcalls
    refine ih (hh.step fun n v hc => hcalls n v ?_) fun n v hmem =>
      hcalls n v (mem_cons_of_mem _ hmem)
    rw [hc]
    exact mem_cons_self

/-- **A signature stays**: there is none as long as no call made one. -/
theorem getUrlParameter_run : ∀ {h : SipXSignedHeader}, h.isValid = true →
    ((h.run md5 secret calls).encodedUrl.getUrlParameter signatureUrlParamName = none ↔
      (∀ c ∈ calls, c.signs = false) ∧
        h.encodedUrl.getUrlParameter signatureUrlParamName = none) := by
  induction calls with
  | nil =>
    intro h _
    exact ⟨fun hnone => ⟨fun c hc => absurd hc not_mem_nil, hnone⟩, fun hnone => hnone.2⟩
  | cons c calls ih =>
    intro h hvalid
    obtain ⟨name, paramValue, heq, hsigns, -⟩ := step_eq md5 secret hvalid c
    have hstep : (h.step md5 secret c).encodedUrl.getUrlParameter signatureUrlParamName = none ↔
        c.signs = false ∧ h.encodedUrl.getUrlParameter signatureUrlParamName = none := by
      rw [heq, getUrlParameter_setUrlParameter, hsigns]
      cases c.signs <;> simp
    have hstill : (h.step md5 secret c).isValid = true := by
      rw [heq]
      exact hvalid
    show ((h.step md5 secret c).run md5 secret calls).encodedUrl.getUrlParameter _ = none ↔ _
    rw [ih hstill, hstep, forall_mem_cons]
    tauto

/-! ## The value encoded last -/

theorem exists_of_lastEncoded {before : List Call} {v : Text} :
    ∀ {h : SipXSignedHeader}, h.lastEncoded md5 secret calls = some (before, v) →
      ∃ c after, calls = before ++ c :: after ∧
        (h.run md5 secret before).encodedBy md5 secret c = some v ∧
        ((h.run md5 secret before).step md5 secret c).lastEncoded md5 secret after = none := by
  induction calls generalizing before v with
  | nil => exact fun hlast => absurd hlast (by simp [lastEncoded])
  | cons c calls ih =>
    intro h hlast
    rw [lastEncoded] at hlast
    cases hmore : (h.step md5 secret c).lastEncoded md5 secret calls with
    | some e =>
      obtain ⟨before', w⟩ := e
      rw [hmore, Option.map_some, Option.some_or, Option.some_inj, Prod.mk.injEq] at hlast
      obtain ⟨d, after, hcalls, hencoded, hnone⟩ := ih hmore
      refine ⟨d, after, ?_, ?_, ?_⟩
      · rw [← hlast.1, hcalls]
        rfl
      · rw [← hlast.1, ← hlast.2]
        exact hencoded
      · rw [← hlast.1]
        exact hnone
    | none =>
      rw [hmore, Option.map_none, Option.none_or, Option.map_eq_some_iff] at hlast
      obtain ⟨w, hencoded, heq⟩ := hlast
      obtain ⟨rfl, rfl⟩ := Prod.mk.injEq .. ▸ heq
      exact ⟨c, calls, rfl, hencoded, hmore⟩

theorem mem_signedTexts {after : List Call} {body : Text} :
    ∀ {before : List Call} {h : SipXSignedHeader},
      (h.run md5 secret before).signedBy c = some body →
      body ∈ h.signedTexts md5 secret (before ++ c :: after) := by
  intro before
  induction before with
  | nil =>
    intro h hbody
    refine mem_append_left _ ?_
    show body ∈ (h.signedBy c).toList
    have hbody : h.signedBy c = some body := hbody
    rw [hbody]
    exact mem_singleton.mpr rfl
  | cons d before ih =>
    intro h hbody
    exact mem_append_right _ (ih hbody)

/-- A value that was encoded is the printed URL with its signature. -/
theorem exists_of_encodedBy (hh : IsState user host value identity headerName h) (hne : user ≠ [])
    (huser : isEscapedText isUserByte user = true) (hhost : IsHost host) {v : Text}
    (hencoded : h.encodedBy md5 secret c = some v) :
    ∃ junk, h.signedBy c = some (h.encodedUrl.toString junk) ∧
      v = (h.encodedUrl.setUrlParameter signatureUrlParamName
        (signatureOf md5 secret junk h.encodedUrl)).toString junk := by
  have hvalid := hh.isValid
  cases c with
  | setParam n w => exact absurd hencoded (by simp [encodedBy])
  | encode junk =>
    rw [encodedBy, encode, if_pos hvalid, Option.some_inj] at hencoded
    refine ⟨junk, ?_, hencoded.symm⟩
    rw [signedBy, if_pos hvalid]
  | encodeUri junk uri =>
    refine ⟨junk, ?_, ?_⟩
    · rw [signedBy, if_pos hvalid]
    · have hstate := hh.setUrlParameter (isStableParam_signature md5 secret junk h.encodedUrl)
      obtain ⟨params, hparams, hstate⟩ := hstate
      have hurl : h.encodedUrl.setUrlParameter signatureUrlParamName
          (signatureOf md5 secret junk h.encodedUrl) = identityUrl user host value params :=
        congrArg encodedUrl hstate
      have hprinted : cString ((h.encodedUrl.setUrlParameter signatureUrlParamName
          (signatureOf md5 secret junk h.encodedUrl)).toString junk) =
          (h.encodedUrl.setUrlParameter signatureUrlParamName
            (signatureOf md5 secret junk h.encodedUrl)).toString junk := by
        rw [hurl]
        exact cString_of_notMem (zero_notMem_toString (accepted_identityUrl huser hhost hparams)
          (survives_identityUrl hne hparams) junk)
      rw [encodedBy, if_pos hvalid, encodeUri, if_pos hvalid, encode, if_pos hvalid] at hencoded
      dsimp only at hencoded
      by_cases hname : cString h.headerName = []
      · rw [hname, setHeaderParameter, if_pos rfl,
          getHeaderParameter_removeHeaderParameter] at hencoded
        exact absurd hencoded (by simp)
      · rw [getHeaderParameter_setHeaderParameter _ hname, Option.some_inj, Option.getD_some,
          hprinted] at hencoded
        exact hencoded.symm

/-- **What is read of an encoded value**: without the signature, the URI that was there, if it had
no signature then. -/
theorem decodeHeader_encoded (md5 : NetMd5Codec) (secret : Text)
    (hh : IsState user host value identity headerName h) (hne : user ≠ [])
    (huser : isEscapedText isUserByte user = true) (hhost : IsHost host)
    (hlower : host.map toLower = host) (hport : IsPortText port value)
    (hidentity : identity = user ++ byte '@' :: (host ++ port)) (junk junk' : Byte)
    (decoder : SipXSignedHeader) :
    decoder.decodeHeader md5 secret junk' ((h.encodedUrl.setUrlParameter signatureUrlParamName
        (signatureOf md5 secret junk h.encodedUrl)).toString junk) =
      if signatureOf md5 secret junk' (h.encodedUrl.removeUrlParameter signatureUrlParamName) =
          signatureOf md5 secret junk h.encodedUrl then
        { decoder with
          identity := identity, isValid := true
          encodedUrl := h.encodedUrl.removeUrlParameter signatureUrlParamName }
      else decoder.rejected := by
  have hset := hh.setUrlParameter (isStableParam_signature md5 secret junk h.encodedUrl)
  obtain ⟨params, hparams, hurl⟩ := hset
  have hurl : h.encodedUrl.setUrlParameter signatureUrlParamName
      (signatureOf md5 secret junk h.encodedUrl) = identityUrl user host value params :=
    congrArg encodedUrl hurl
  have hread : fromString (cString ((identityUrl user host value params).toString junk)) .nameAddr =
      identityUrl user host value params := by
    rw [cString_of_notMem (zero_notMem_toString (accepted_identityUrl huser hhost hparams)
      (survives_identityUrl hne hparams) junk)]
    exact fromString_toString_identityUrl hne huser hhost hport hparams junk
  have hsignature : (identityUrl user host value params).getUrlParameter signatureUrlParamName =
      some (signatureOf md5 secret junk h.encodedUrl) := by
    rw [← hurl, getUrlParameter_setUrlParameter, if_pos (caseEq_refl _)]
  have hback : (identityUrl user host value params).getIdentity = identity :=
    (getIdentity_identityUrl hlower hport).trans hidentity.symm
  have hbody : (identityUrl user host value params).removeUrlParameter signatureUrlParamName =
      h.encodedUrl.removeUrlParameter signatureUrlParamName := by
    rw [← hurl, removeUrlParameter_setUrlParameter]
  have hsip : (identityUrl user host value params).scheme = .sip := rfl
  unfold decodeHeader
  rw [hurl, hread]
  dsimp only
  rw [if_pos hsip, hsignature]
  dsimp only
  rw [hbody, hback, cString_signatureOf, cString_signatureOf]

/-- **A value is read again exactly if the URI had no signature** when it was signed. -/
theorem restores_decodeHeader_iff {log : List Text} (hideal : md5.Ideal (log.map (· ++ secret)))
    (hh : IsState user host value identity headerName h) (hne : user ≠ [])
    (huser : isEscapedText isUserByte user = true) (hhost : IsHost host)
    (hlower : host.map toLower = host) (hport : IsPortText port value)
    (hidentity : identity = user ++ byte '@' :: (host ++ port))
    (hlog : h.encodedUrl.toString junk ∈ log) : (∀ (decoder : SipXSignedHeader) (junk' : Byte),
      Restores h (decoder.decodeHeader md5 secret junk'
        ((h.encodedUrl.setUrlParameter signatureUrlParamName
          (signatureOf md5 secret junk h.encodedUrl)).toString junk))) ↔
      h.encodedUrl.getUrlParameter signatureUrlParamName = none := by
  have hdecode := decodeHeader_encoded md5 secret hh hne huser hhost hlower hport hidentity junk
  obtain ⟨params, hparams, rfl⟩ := hh
  rw [getUrlParameter_eq_none_iff]
  constructor
  · intro hrestores
    have hvalid := (hrestores ⟨[], [], false, {}⟩ junk).isValid
    rw [hdecode] at hvalid
    split at hvalid
    · next heq =>
        -- the digest is ideal, so that the two texts are one, and are read as one URI
        have htexts := append_cancel_right (hideal _ (mem_map_of_mem hlog) _ heq)
        have hkept : ∀ nv ∈ params.filter fun nv => !caseEq nv.1 signatureUrlParamName,
            IsStableParam nv := fun nv hnv => hparams nv (mem_of_mem_filter hnv)
        have hread := congrArg (fromString · .nameAddr) htexts
        dsimp only at hread
        rw [fromString_toString_identityUrl hne huser hhost hport hparams] at hread
        exact (fromString_toString_identityUrl hne huser hhost hport hkept junk).symm.trans hread
    · exact absurd hvalid Bool.false_ne_true
  · intro hsame decoder junk'
    have hjunk : signatureOf md5 secret junk' (identityUrl user host value params) =
        signatureOf md5 secret junk (identityUrl user host value params) := rfl
    rw [hdecode, hsame, if_pos hjunk]
    exact ⟨rfl, rfl, fun _ => rfl⟩

end States

/-! ## A run of calls -/

section Runs

variable {md5 : NetMd5Codec} {secret : Text}

theorem lastEncoded_of_not_isValid
    (hvalid : h.isValid = false) : h.lastEncoded md5 secret calls = none := by
  have hno : ¬ (h.isValid = true) := by
    rw [hvalid]
    exact Bool.false_ne_true
  induction calls with
  | nil => rfl
  | cons c calls ih =>
    have hstep : h.step md5 secret c = h := by
      cases c with
      | setParam n v => rw [step, setParam, if_neg hno]
      | encode junk => rw [step, encode, if_neg hno]
      | encodeUri junk uri => rw [step, encodeUri, if_neg hno]
    have hencoded : h.encodedBy md5 secret c = none := by
      cases c with
      | setParam n v => rfl
      | encode junk => rw [encodedBy, encode, if_neg hno]
      | encodeUri junk uri => rw [encodedBy, if_neg hno]
    rw [lastEncoded, hstep, ih, hencoded]
    rfl

/-- **A run of calls on an object.**  The value that was encoded last is read again, with the
identity and the parameters that were there, exactly if no call in front of it made a signature;
and a value with the signature of a text is accepted only for this text. -/
theorem restores_iff {log : List Text} (hideal : md5.Ideal (log.map (· ++ secret)))
    {identity headerName : Text} (hi : IsIdentity identity)
    (huser : identity.head? ≠ some (byte '@')) {calls : List Call}
    (hcalls : ∀ n v, Call.setParam n v ∈ calls → IsStableParam (cString n, cString v))
    (hlog : ∀ body ∈ (new identity headerName).signedTexts md5 secret calls, body ∈ log) :
    (∀ before v, (new identity headerName).lastEncoded md5 secret calls = some (before, v) →
      ((∀ (decoder : SipXSignedHeader) (junk : Byte),
          Restores ((new identity headerName).run md5 secret before)
            (decoder.decodeHeader md5 secret junk v)) ↔
        ∀ c ∈ before, c.signs = false)) ∧
      ∀ (decoder : SipXSignedHeader) (junk : Byte) (v actualSignature : Text),
        (decoder.decodeHeader md5 secret junk v).isValid = true →
        carriedSignature v = some actualSignature → ∀ body ∈ log,
        cString actualSignature = md5.hash (body ++ secret) → unsignedText junk v = body := by
  refine ⟨fun before v hlast => ?_, fun _ _ _ _ hvalid hactual _ hbody hissued =>
    eq_of_accepted hideal hvalid hbody hactual hissued⟩
  obtain ⟨user, host, port, value, huserText, hhost, hlower, hport, hidentity⟩ := hi
  have hne : user ≠ [] := by
    rintro rfl
    exact huser (by rw [hidentity]; rfl)
  have hheader : headerName ≠ [] := by
    rintro rfl
    have hinvalid : (new identity []).isValid = false := by
      show (identity != [] && false) = false
      exact Bool.and_false _
    rw [lastEncoded_of_not_isValid hinvalid] at hlast
    cases hlast
  have hnew := isState_new hne huserText hhost hport hidentity hheader
  have hnone : (new identity headerName).encodedUrl.getUrlParameter signatureUrlParamName =
      none := by
    have hread : (new identity headerName).encodedUrl = identityUrl user host value [] := by
      have hzero := notMem_identity huserText hhost hport (b := 0) (by decide) (by decide)
        (by decide) (by decide)
      rw [new, hidentity, cString_of_notMem hzero, ofText,
        if_neg (append_ne_nil_of_left_ne_nil hne _)]
      show { fromString (user ++ byte '@' :: (host ++ port)) .nameAddr with scheme := .sip } = _
      rw [fromString_identity hne huserText hhost hport]
      rfl
    rw [hread]
    rfl
  obtain ⟨c, after, hsplit, hencoded, -⟩ := exists_of_lastEncoded hlast
  have hbefore : IsState user host value identity headerName
      ((new identity headerName).run md5 secret before) := by
    refine hnew.run fun n w hmem => hcalls n w ?_
    rw [hsplit]
    exact mem_append_left _ hmem
  obtain ⟨junk, hsigned, rfl⟩ := exists_of_encodedBy hbefore hne huserText hhost hencoded
  have hmem := hlog _ (hsplit ▸ mem_signedTexts hsigned)
  rw [restores_decodeHeader_iff hideal hbefore hne huserText hhost hlower hport hidentity hmem,
    getUrlParameter_run hnew.isValid]
  exact and_iff_left hnone

end Runs

/-! ### A caller in Berlin -/

/-- The calls that sign the location of a user. -/
def berlinCalls : List Call := [.setParam (text "location") (text "berlin"), .encode 0]

/-- What is signed for the caller, at first and once more. -/
def berlinText : Text := text "<sip:200@example.com;location=berlin>"

def berlinTextAgain : Text :=
  text "<sip:200@example.com;location=berlin;signature=" ++ replicate 32 (byte 'a') ++ text ">"

/-- A digest for the two texts. -/
def berlinMd5 : NetMd5Codec :=
  NetMd5Codec.ofTable [(berlinText ++ text "secret", replicate 32 (byte 'a')),
    (berlinTextAgain ++ text "secret", replicate 32 (byte 'b'))] (by decide)

/-- The object of the caller. -/
def berlinCaller : SipXSignedHeader :=
  new (text "200@example.com") (text "X-Sipx-Location-Info")

theorem isIdentity_berlinCaller : IsIdentity (text "200@example.com") := by
  have hread : (fromString (text "<sip:200@example.com>") .nameAddr).getIdentity =
      text "200@example.com" := by decide
  rw [← hread]
  exact isIdentity_getIdentity (by decide)

theorem ideal_berlinMd5 :
    berlinMd5.Ideal ([berlinText, berlinTextAgain].map (· ++ text "secret")) :=
  NetMd5Codec.ideal_ofTable _ _ (by decide) (by decide) (by decide)

theorem restores_berlinCaller :
    Restores (berlinCaller.run berlinMd5 (text "secret") (berlinCalls.take 1))
      (berlinCaller.decodeHeader berlinMd5 (text "secret") 0 berlinTextAgain) := by
  have hstable : IsStableParam (text "location", text "berlin") :=
    ⟨⟨by decide +kernel, by decide +kernel, by decide, by decide⟩, by decide⟩
  have hcalls : ∀ n v, Call.setParam n v ∈ berlinCalls → IsStableParam (cString n, cString v) := by
    intro n v hmem
    rcases mem_cons.mp hmem with heq | hmem
    · obtain ⟨rfl, rfl⟩ := Call.setParam.inj heq
      exact hstable
    · cases mem_singleton.mp hmem
  refine ((restores_iff ideal_berlinMd5 isIdentity_berlinCaller (by decide) hcalls ?_).1
    (berlinCalls.take 1) berlinTextAgain ?_).mpr (by decide) berlinCaller 0
  · decide
  · decide

/-- A value that is encoded once more is not accepted. -/
theorem not_restores_berlinCaller : ¬ ∀ (md5 : NetMd5Codec) (secret identity headerName : Text)
    (calls before : List Call) (v : Text),
    md5.Ideal (((new identity headerName).signedTexts md5 secret calls).map (· ++ secret)) →
    IsIdentity identity →
    (new identity headerName).lastEncoded md5 secret calls = some (before, v) →
    ∀ (decoder : SipXSignedHeader) (junk : Byte),
      Restores ((new identity headerName).run md5 secret before)
        (decoder.decodeHeader md5 secret junk v) := by
  intro hall
  have hsigned : berlinCaller.signedTexts berlinMd5 (text "secret") (berlinCalls ++ [.encode 0]) =
      [berlinText, berlinTextAgain] := by decide
  have hideal := ideal_berlinMd5
  rw [← hsigned] at hideal
  have hlast : berlinCaller.lastEncoded berlinMd5 (text "secret") (berlinCalls ++ [.encode 0]) =
      some (berlinCalls, text "<sip:200@example.com;location=berlin;signature=" ++
        replicate 32 (byte 'b') ++ text ">") := by decide
  have h := (hall _ _ _ _ _ _ _ hideal isIdentity_berlinCaller hlast berlinCaller 0).isValid
  exact absurd h (by decide +kernel)

end SipXSignedHeader

end SipXRouter
