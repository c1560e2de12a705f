import SipXRouter.Net.LoopDetected
import SipXRouter.Proxy.ProxyMessage

/-!
# Transfers that need an identity

`TransferControl` is a plugin that denies a `REFER` without an identity to a target of the domain,
so that the transferor is challenged.  Two servers may be configured whose transfers are let
through; they are told by the host of the first Contact.

## Design notes

* The branches for `INVITE` and `NOTIFY`, and what is signed into the target of an authenticated
  transfer, are parameters.
* A server that is not configured is the empty text.
-/

namespace SipXRouter

open HttpMessage SipMessage SipRouter

/-- The plugin: the two servers, the domain and the aliases of the host, and the steps that are
not followed here. -/
structure TransferControl where
  server1 : Text := []
  server2 : Text := []
  domainName : Text
  isMyHostAlias : Url → Bool
  encodeControllerIdentity : Text → Url → Url := fun _ target => target
  addLocationInfo : Text → Url → Url := fun _ target => target
  authorizeInvite : AuthCall → SipMessage → AuthResult × SipMessage :=
    fun _ request => (.continue, request)
  modifyNotify : SipMessage → SipMessage := id

namespace TransferControl

/-- `SIP_REFER_TO_FIELD`. -/
def referToField : Text := text "REFER-TO"

/-- `SIP_METHOD_URI_PARAMETER`. -/
def methodUriParameter : Text := text "method"

/-- `SIP_SIPX_REFERROR_HEADER`. -/
def referrorParameter : Text := text "X-sipX-referror"

/-! ## What is read from the request -/

/-- `getContactUri` for the first header: the value is parsed, and printed without brackets. -/
def getContactUri (m : SipMessage) : Option Text :=
  (m.getHeaderValue 0 contactField).map fun value =>
    (Url.ofText (cString value) .nameAddr).getUri

/-- The host that `getContactAddress` reads for the first Contact, empty if there is none. -/
def getContactAddress (m : SipMessage) : Text :=
  match getContactUri m with
  | some uri => (Url.ofText uri .nameAddr).hostAddress
  | none => []

/-- `getReferToField`, parsed. -/
def referTarget (m : SipMessage) : Option Url :=
  (m.getHeaderValue 0 referToField).map fun value => Url.ofText (cString value) .nameAddr

def getCallIdField (m : SipMessage) : Text :=
  cString ((m.getHeaderValue 0 (text "CALL-ID")).getD [])

/-- The request that comes of a transfer is an `INVITE`, which is also what it is by default. -/
def createsInvite (target : Url) : Bool :=
  match target.getUrlParameter methodUriParameter with
  | none => true
  | some targetMethod => caseEq targetMethod (text "INVITE")

/-! ## The decision -/

variable (p : TransferControl)

def isLocalDomain (url : Url) : Bool := caseEq p.domainName url.hostAddress || p.isMyHostAlias url

/-- The test of the two servers. -/
def isServer (hostAddress : Text) : Bool :=
  caseEq hostAddress p.server1 || caseEq hostAddress p.server2

/-- `setHeaderParameter` for `References`, behind the parameters that are there. -/
def addReference (callId : Text) (target : Url) : Url :=
  { target with
    headerOrQueryParameters :=
      target.headerOrQueryParameters ++ [(text "REFERENCES", callId ++ text ";rel=refer")] }

def setReferToField (junk : Byte) (m : SipMessage) (target : Url) : SipMessage :=
  m.setHeaderValue referToField (target.toString junk) 0

/-- The target of an authenticated transfer. -/
def annotated (id callId : Text) (target : Url) : Url :=
  p.addLocationInfo id <| addReference callId <|
    (p.encodeControllerIdentity id target).setUrlParameter referrorParameter id

/-- Whether the transfer comes from the call controller, which signs its targets itself. -/
def fromCallController (m : SipMessage) : Bool :=
  (Url.ofText ((getContactEntry m 0).getD []) .nameAddr).userId == text "callcontroller"

/-- A `REFER` that would create an `INVITE` to the target. -/
def authorizeRefer (junk : Byte) (id : Text) (target : Url) (request : SipMessage) :
    AuthResult × SipMessage :=
  if id = [] then
    if p.isLocalDomain target then
      if p.isServer (getContactAddress request) then (.allow, request) else (.deny, request)
    else
      -- a target outside the domain is not challenged
      (.allow, setReferToField junk request (addReference (getCallIdField request) target))
  else if fromCallController request then (.continue, request)
  else
    (.continue, setReferToField junk request (p.annotated id (getCallIdField request) target))

/-- `authorizeAndModify`: the result, and the request as it is then. -/
def authorizeAndModify (junk : Byte) (call : AuthCall) (request : SipMessage) :
    AuthResult × SipMessage :=
  if call.priorResult = .deny then (.continue, request)
  else if call.method = text "REFER" then
    match referTarget request with
    | none => (.continue, request)
    | some target =>
      if target.scheme = .sip ∧ createsInvite target then
        p.authorizeRefer junk call.id target request
      else (.continue, request)
  else if call.method = text "INVITE" then p.authorizeInvite call request
  else if call.method = text "NOTIFY" then (.continue, p.modifyNotify request)
  else (.continue, request)

/-! ## What should be challenged -/

/-- **A transfer into the domain by nobody known**: it is not denied yet, it has no identity, and
its target is one of the domain and would get an `INVITE`. -/
structure IsDue (call : AuthCall) (request : SipMessage) (target : Url) : Prop where
  notDenied : call.priorResult ≠ .deny
  refer : call.method = text "REFER"
  unauthenticated : call.id = []
  parsed : referTarget request = some target
  scheme : target.scheme = .sip ∨ target.scheme = .sips
  invite : createsInvite target = true
  inDomain : p.isLocalDomain target = true

/-- A host for which there is an exception: it is the name of a server, and neither is empty. -/
def WhiteListed (hostAddress : Text) : Prop :=
  hostAddress ≠ [] ∧
    ((p.server1 ≠ [] ∧ caseEq hostAddress p.server1 = true) ∨
      (p.server2 ≠ [] ∧ caseEq hostAddress p.server2 = true))

/-- What the claim of the plugin is on one request: it denies, unless there is an exception. -/
def Challenged (junk : Byte) (call : AuthCall) (request : SipMessage) : Prop :=
  ¬ p.WhiteListed (getContactAddress request) →
    (p.authorizeAndModify junk call request).1 = .deny

/-! ## The decision on what is due -/

section Due

variable {p} {call : AuthCall} {request : SipMessage} {target : Url}

theorem IsDue.result_sip (h : p.IsDue call request target) (hsip : target.scheme = .sip)
    (junk : Byte) : (p.authorizeAndModify junk call request).1 =
      if p.isServer (getContactAddress request) then .allow else .deny := by
  rw [authorizeAndModify, if_neg h.notDenied, if_pos h.refer, h.parsed]
  show (if target.scheme = .sip ∧ createsInvite target = true then
      p.authorizeRefer junk call.id target request else (.continue, request)).1 = _
  rw [if_pos ⟨hsip, h.invite⟩, authorizeRefer, if_pos h.unauthenticated, if_pos h.inDomain]
  split
  · rfl
  · rfl

/-- A target of the scheme `sips` is passed over. -/
theorem IsDue.result_sips (h : p.IsDue call request target) (hsips : target.scheme = .sips)
    (junk : Byte) : p.authorizeAndModify junk call request = (.continue, request) := by
  have hne : ¬ (target.scheme = .sip ∧ createsInvite target = true) := by
    rintro ⟨hsip, -⟩
    rw [hsips] at hsip
    cases hsip
  rw [authorizeAndModify, if_neg h.notDenied, if_pos h.refer, h.parsed]
  show (if target.scheme = .sip ∧ createsInvite target = true then
      p.authorizeRefer junk call.id target request else (.continue, request)) = _
  rw [if_neg hne]

theorem caseEq_nil_left {s : Text} : caseEq [] s = true ↔ s = [] := by
  constructor
  · intro h
    have hmap := (caseEq_iff [] s).mp h
    exact List.map_eq_nil_iff.mp hmap.symm
  · intro h
    rw [h]
    exact caseEq_refl []

theorem caseEq_nil_right {s : Text} : caseEq s [] = true ↔ s = [] := by
  rw [caseEq_comm]
  exact caseEq_nil_left

theorem isServer_iff_of_not_whiteListed {host : Text} (hnot : ¬ p.WhiteListed host) :
    p.isServer host = true ↔ host = [] ∧ (p.server1 = [] ∨ p.server2 = []) := by
  rw [isServer, Bool.or_eq_true]
  constructor
  · intro hserver
    have hhost : host = [] := by
      by_contra hne
      refine hnot ⟨hne, ?_⟩
      rcases hserver with h | h
      · exact Or.inl ⟨fun hnil => hne (caseEq_nil_right.mp (hnil ▸ h)), h⟩
      · exact Or.inr ⟨fun hnil => hne (caseEq_nil_right.mp (hnil ▸ h)), h⟩
    rw [hhost, caseEq_nil_left, caseEq_nil_left] at hserver
    exact ⟨hhost, hserver⟩
  · rintro ⟨rfl, hserver⟩
    rw [caseEq_nil_left, caseEq_nil_left]
    exact hserver

/-- **Which transfers into the domain are challenged**: those to a target of the scheme `sip` from
a host, or with both servers configured; apart from them there are only the exceptions. -/
theorem challenged_iff (h : p.IsDue call request target) (junk : Byte) :
    p.Challenged junk call request ↔
      p.WhiteListed (getContactAddress request) ∨
        (target.scheme = .sip ∧
          (getContactAddress request ≠ [] ∨ (p.server1 ≠ [] ∧ p.server2 ≠ []))) := by
  rw [Challenged]
  by_cases hlisted : p.WhiteListed (getContactAddress request)
  · exact ⟨fun _ => Or.inl hlisted, fun _ hnot => absurd hlisted hnot⟩
  have hserver := isServer_iff_of_not_whiteListed hlisted
  have hnone : (getContactAddress request ≠ [] ∨ (p.server1 ≠ [] ∧ p.server2 ≠ [])) ↔
      ¬ (p.isServer (getContactAddress request) = true) := by
    rw [hserver]
    tauto
  rcases h.scheme with hsip | hsips
  · rw [h.result_sip hsip junk, hnone]
    constructor
    · intro hdeny
      refine Or.inr ⟨hsip, fun hs => ?_⟩
      have := hdeny hlisted
      rw [if_pos hs] at this
      cases this
    · rintro (hwhite | ⟨-, hs⟩) -
      · exact absurd hwhite hlisted
      · exact if_neg hs
  · rw [h.result_sips hsips junk]
    constructor
    · intro hdeny
      cases hdeny hlisted
    · rintro (hwhite | ⟨hsip, -⟩)
      · exact absurd hwhite hlisted
      · rw [hsips] at hsip
        cases hsip

end Due

/-! ### A transfer to a phone of the domain -/

/-- No server, or one, has a name. -/
def exampleControl (server1 : String) : TransferControl where
  server1 := text server1
  domainName := text "example.com"
  isMyHostAlias _ := false

def referCall : AuthCall where
  id := []
  requestUri := { userId := text "200", hostAddress := text "example.com" }
  method := text "REFER"
  priorResult := .continue
  bSpiralingRequest := false

/-- A transfer to such a target, with the Contact headers of a list. -/
def referTo (target : String) (contacts : List String) : SipMessage where
  firstHeaderLine := text "REFER sip:200@example.com SIP/2.0"
  nameValues := (referToField, text target) :: contacts.map fun c => (contactField, text c)

/-- The target of the examples. -/
def phone (scheme : Scheme) : Url where
  scheme := scheme
  userId := text "201"
  hostAddress := text "example.com"

theorem challenged_phone :
    (exampleControl "").Challenged 0 referCall
      (referTo "<sip:201@example.com>" ["<sip:300@phone.example.net>"]) := by
  have hdue : (exampleControl "").IsDue referCall
      (referTo "<sip:201@example.com>" ["<sip:300@phone.example.net>"]) (phone .sip) :=
    ⟨by decide, rfl, rfl, by decide +kernel, Or.inl rfl, by decide, by decide⟩
  refine (challenged_iff hdue 0).mpr (Or.inr ⟨rfl, Or.inl ?_⟩)
  decide +kernel

/-- Without a Contact it is let through where no server has a name, and with the scheme `sips` it
is passed over. -/
theorem not_challenged_phone :
    ((exampleControl "").IsDue referCall (referTo "<sip:201@example.com>" []) (phone .sip) ∧
        ¬ (exampleControl "").Challenged 0 referCall (referTo "<sip:201@example.com>" [])) ∧
      ((exampleControl "").IsDue referCall
          (referTo "<sips:201@example.com>" ["<sip:300@phone.example.net>"]) (phone .sips) ∧
        ¬ (exampleControl "").Challenged 0 referCall
          (referTo "<sips:201@example.com>" ["<sip:300@phone.example.net>"])) := by
  have hsip : (exampleControl "").IsDue referCall (referTo "<sip:201@example.com>" [])
      (phone .sip) :=
    ⟨by decide, rfl, rfl, by decide +kernel, Or.inl rfl, by decide, by decide⟩
  have hsips : (exampleControl "").IsDue referCall
      (referTo "<sips:201@example.com>" ["<sip:300@phone.example.net>"]) (phone .sips) :=
    ⟨by decide, rfl, rfl, by decide +kernel, Or.inr rfl, by decide, by decide⟩
  refine ⟨⟨hsip, fun hchallenged => ?_⟩, ⟨hsips, fun hchallenged => ?_⟩⟩
  · have hdeny := hchallenged (fun hlisted => hlisted.1 rfl)
    rw [hsip.result_sip rfl] at hdeny
    exact absurd hdeny (by decide)
  · have hnot : ¬ (exampleControl "").WhiteListed (getContactAddress
        (referTo "<sips:201@example.com>" ["<sip:300@phone.example.net>"])) := by
      rintro ⟨-, ⟨hne, -⟩ | ⟨hne, -⟩⟩
      · exact hne rfl
      · exact hne rfl
    have hdeny := hchallenged hnot
    rw [hsips.result_sips rfl] at hdeny
    exact absurd hdeny (by decide)

end TransferControl

end SipXRouter
