import SipXRouter.Net.TargetUriHeaderParams
import SipXRouter.Effects
import SipXRouter.Net.XmlRpcBody
import SipXRouter.Proxy.SipRouter

/-!
# What becomes of a request

`proxyMessage` decides whether a request has to be authorized, asks the authorization plugins,
and comes to an action; `handleRequest` sends the request on or a response back.

## Design notes

* The steps with models of their own, and those on the databases, are parameters.  What they
  promise is that they do not change the method of the request.
* Of a response the request, the status line and the field `Unsupported` are kept.
* The log has the answers of the plugins, the decision with what it was made on, the updates,
  and what was sent.
-/

namespace SipXRouter

open List RouteState SipMessage Effects

/-- `RouteState::markDialogAsAuthorized`. -/
def RouteState.markDialogAsAuthorized (st : RouteState) : RouteState :=
  if st.mayBeMutable then st.setParameter [] (text "auth") [] else st

/-- `RouteState::isDialogAuthorized`. -/
def RouteState.isDialogAuthorized (st : RouteState) : Bool :=
  (st.getParameter [] (text "auth")).isSome

namespace SipMessage

/-- `getRequestMethod`. -/
def method (m : SipMessage) : Text := m.getFirstHeaderLinePart 0

/-- Whether a Record-Route may be added for the method. -/
def isRecordRouteAccepted (m : SipMessage) : Bool :=
  !isResponse m && m.method != text "MESSAGE" && m.method != text "REGISTER" &&
    m.method != text "PUBLISH"

def getMaxForwards (m : SipMessage) : Option Int :=
  (m.getHeaderValue 0 (text "MAX-FORWARDS")).map fun value => (XmlRpc.atoi value).toInt

def setMaxForwards (m : SipMessage) (maxForwards : Int) : SipMessage :=
  m.setHeaderValue (text "MAX-FORWARDS") (intText maxForwards) 0

end SipMessage

namespace SipRouter

/-! ## Plugins and parameters -/

/-- `AuthPlugin::AuthResult`. -/
inductive AuthResult where
  | continue | deny | allow
deriving DecidableEq

/-- The exceptions that `proxyMessage` tells apart. -/
inductive ProxyException where
  | mongo | boost | std | unknown
deriving DecidableEq

def ProxyException.errorString : ProxyException → Text
  | mongo => text "Proxy - Mongo DB Exception"
  | boost => text "Proxy - Boost Library Exception"
  | std => text "Proxy - Standard Library Exception"
  | unknown => text "Proxy - Unknown Exception"

/-- A step that may change the request and may throw. -/
abbrev RequestStep := EStateM ProxyException SipMessage

/-- The method is `ACK`. -/
def isAck (m : SipMessage) : Prop := m.method = text "ACK"

/-- A step on the request that lets an `ACK` be one. -/
structure RequestOp (α : Type) where
  run : RequestStep α
  isAck_run : Preserves isAck run

/-- A step that does nothing. -/
def RequestOp.idle {α : Type} (a : α) : RequestOp α := ⟨pure a, fun _ h => h⟩

/-- What a plugin is called with. -/
structure AuthCall where
  id : Text
  requestUri : Url
  method : Text
  priorResult : AuthResult
  bSpiralingRequest : Bool

/-- A plugin: it may change the route state, the request and the reason. -/
structure AuthPlugin where
  authorizeAndModify : AuthCall → RouteState → Text →
    RequestStep (AuthResult × RouteState × Text)

/-- A plugin that always gives one answer. -/
def AuthPlugin.fixed (result : AuthResult) : AuthPlugin where
  authorizeAndModify _ routeState rejectReason := pure (result, routeState, rejectReason)

/-- A route that the forwarding rules give. -/
structure Route where
  mappedTo : Text
  authRequired : Bool
  ruriParams : Text

/-- The kinds of sockets that are told apart. -/
inductive SendProtocol where
  | ssl | tcp | other
deriving DecidableEq

/-- What the router works with. -/
structure Router where
  md5 : NetMd5Codec
  secret : Text
  junk : Byte
  routeHostPort : Text
  routeHostSecurePort : Text
  domainName : Text
  ensureTcpLifetime : Bool
  maxForwards : Int
  isExtensionAllowed : Text → Bool
  isMyHostAlias : Url → Bool
  normalizeProxyRoutes : RequestOp (Url × List Text)
  addNatMappingInfoToContacts : RequestOp Unit
  addPathHeaderIfNATOrTlsRegisterRequest : RequestOp Unit
  isPAIdentityApplicable : SipMessage → Bool
  /-- Whether there is a credential for a URI in the realm. -/
  getCredential : Url → Except ProxyException Bool
  isAuthenticated : SipMessage → Except ProxyException (Option Text)
  /-- `SipXauthIdentity::insert` of a `P-Asserted-Identity`. -/
  insertIdentity : Text → RequestOp Unit
  isGRUU : Url → Bool
  getUnexpiredContactsUser : Text → Except ProxyException (List Text)
  getRoute : Option (Url → SipMessage → Except ProxyException (Option Route))
  addRuriParams : Text → RequestOp Unit
  /-- The identity in a signed `X-Sipx-Authidentity`. -/
  authIdentity : SipMessage → Option Text
  /-- `SipXauthIdentity::normalize`. -/
  normalizeIdentity : RequestOp Unit
  sendProtocol : SipMessage → SendProtocol
  authPlugins : List AuthPlugin
  /-- `modifyTrustedRequest` of those that want it. -/
  trustedRequestModifiers : List (Url → Bool → RequestStep Unit)

/-! ## The state -/

/-- A response to a request. -/
structure Response where
  request : SipMessage
  statusCode : Nat
  statusText : Text
  unsupported : Text := []
deriving DecidableEq

/-- What happens to a request. -/
inductive RouterEvent where
  /-- a plugin answers -/
  | answered (result : AuthResult)
  /-- the decision, whether the method alone made it, and what the plugins left -/
  | decided (exempt : Bool) (decision : AuthResult) (routeState : RouteState) (request : SipMessage)
  /-- the route state was put into the request -/
  | updated (request : SipMessage)
  | sentRequest (request : SipMessage)
  | sentResponse (response : Response)
deriving DecidableEq

/-- The variables of `proxyMessage` that outlive its `try` block, and the log. -/
structure ProxyState where
  request : SipMessage
  response : Response := { request := request, statusCode := 0, statusText := [] }
  returnedAction : ProxyAction := .sendRequest
  bMessageWillSpiral : Bool := false
  log : List RouterEvent := []

/-- A step of the proxy that may throw. -/
abbrev Step := EStateM ProxyException ProxyState

section Steps

variable {α : Type}

def onRequest (op : RequestStep α) : Step α := fun st =>
  match op st.request with
  | .ok a m => .ok a { st with request := m }
  | .error e m => .error e { st with request := m }

/-- A change of the request. -/
def change (f : SipMessage → SipMessage) : Step Unit :=
  modify fun st => { st with request := f st.request }

/-- A question about the request. -/
def query (f : SipMessage → Except ProxyException α) : Step α := fun st =>
  match f st.request with
  | .ok a => .ok a st
  | .error e => .error e st

/-- A response is to be sent. -/
def respond (statusCode : Nat) (statusText unsupported : Text) : Step Unit :=
  modify fun st =>
    { st with
      response := ⟨st.request, statusCode, statusText, unsupported⟩
      returnedAction := .sendResponse }

def authenticationChallenge : Step Unit := respond 407 (text "Proxy Authentication Required") []

/-- The request will come back. -/
def spiral : Step Unit := modify fun st => { st with bMessageWillSpiral := true }

/-- An entry of the log. -/
def note (event : RouterEvent) : Step Unit :=
  modify fun st => { st with log := st.log ++ [event] }

end Steps

/-- `SIP_SIPX_SPIRAL_HEADER`. -/
def spiralHeader : Text := text "X-SIPX-SPIRAL"

/-- `SipXauthIdentity::PAssertedIdentityHeaderName`. -/
def pAssertedIdentityHeader : Text := text "P-ASSERTED-IDENTITY"

namespace Router

variable (r : Router)

/-! ## In front of the authorization -/

/-- `areAllExtensionsSupported`: the extensions that are not. -/
def disallowedExtensions (m : SipMessage) : List Text :=
  (fieldSubfields m (text "PROXY-REQUIRE")).filter (!r.isExtensionAllowed ·)

/-- The `P-Asserted-Identity` of a request that is not yet in a dialog.  Tells whether the
forwarding rules are still to be evaluated. -/
def assertIdentity : Step Bool := do
  let m := (← get).request
  if r.isPAIdentityApplicable m then
    let fromUrl := Url.fromString ((m.getHeaderValue 0 fromField).getD []) .nameAddr
    let fromUrl :=
      if r.isMyHostAlias fromUrl then { fromUrl with hostAddress := r.domainName } else fromUrl
    if ← query fun _ => r.getCredential fromUrl then
      match ← query r.isAuthenticated with
      | none =>
        authenticationChallenge
        return false
      | some _ =>
        change fun m =>
          if (m.getHeaderValue 0 pAssertedIdentityHeader).isSome then
            m.removeHeader pAssertedIdentityHeader
          else m
        onRequest (r.insertIdentity fromUrl.getIdentity).run
        return true
    else return true
  else return true

/-- Whether the request is to be authorized, whether the forwarding rules are to be evaluated, and
the URI that is the target. -/
structure Plan where
  bRequestShouldBeAuthorized : Bool
  bForwardingRulesShouldBeEvaluated : Bool
  requestUri : Url

/-- The cases by the spiral header and the route state. -/
def plan (requestUri : Url) (routeState : RouteState) : Step Plan := do
  if ((← get).request.getHeaderValue 0 spiralHeader).isSome then
    return ⟨true, true, requestUri⟩
  else
    onRequest r.addNatMappingInfoToContacts.run
    if !routeState.foundRouteState then
      change (·.setHeaderValue spiralHeader (text "true") 0)
      onRequest r.addPathHeaderIfNATOrTlsRegisterRequest.run
      let evaluated ← r.assertIdentity
      return ⟨false, evaluated, requestUri⟩
    else if routeState.mayBeMutable then
      change (·.setHeaderValue spiralHeader (text "true") 0)
      spiral
      return ⟨true, false, requestUri⟩
    else if caseEq r.domainName requestUri.hostAddress && r.isGRUU requestUri then
      match ← query fun _ => r.getUnexpiredContactsUser requestUri.getIdentity with
      | contact :: _ =>
        let contactUri := Url.ofText contact .nameAddr
        change (·.changeRequestUri contactUri.getUri)
        return ⟨true, false, contactUri⟩
      | [] => return ⟨true, true, requestUri⟩
    else return ⟨true, false, requestUri⟩

/-- The route that the forwarding rules give, if they do.  Tells whether the request is to be
authorized. -/
def applyRoute (bRequestShouldBeAuthorized : Bool) : Option Route → Step Bool
  | none => return true
  | some route => do
      if route.mappedTo ≠ [] then
        let nextHopUrl := Url.ofText route.mappedTo .nameAddr
        let toRegistrar := (nextHopUrl.getUrlParameter (text "x-sipX-routetoreg")).isSome
        if toRegistrar then spiral
        let nextHopUrl :=
          if toRegistrar then nextHopUrl.removeUrlParameter (text "x-sipX-routetoreg")
          else nextHopUrl
        change (·.addRouteUri ((nextHopUrl.setUrlParameter (text "lr") []).toString r.junk))
      if route.ruriParams ≠ [] then onRequest (r.addRuriParams route.ruriParams).run
      return bRequestShouldBeAuthorized || route.authRequired

/-- The forwarding rules, which are asked where no route is left. -/
def evaluateForwardingRules (p : Plan) : Step Bool := do
  let m := (← get).request
  let authorized ←
    if (m.getRouteUri 0).isSome then pure true
    else
      match r.getRoute with
      | none => pure true
      | some getRoute => do
          let route ← query (getRoute p.requestUri)
          r.applyRoute p.bRequestShouldBeAuthorized route
  if !(← get).bMessageWillSpiral then change (·.removeHeader spiralHeader)
  return authorized

/-! ## The authorization -/

/-- **The loop over the plugins**: the first result other than `continue` is the decision; the
plugins behind are called all the same. -/
def authorizePlugins (id : Text) (requestUri : Url) (method : Text) :
    List AuthPlugin → (authStatus authDecision : AuthResult) → RouteState → (rejectReason : Text) →
      Step (AuthResult × RouteState × Text)
  | [], _, authDecision, routeState, rejectReason => return (authDecision, routeState, rejectReason)
  | authPlugin :: authPlugins, authStatus, authDecision, routeState, rejectReason => do
      let bSpiralingRequest := (← get).bMessageWillSpiral
      let call : AuthCall := ⟨id, requestUri, method, authStatus, bSpiralingRequest⟩
      let (pluginResult, routeState, rejectReason) ←
        onRequest (authPlugin.authorizeAndModify call routeState rejectReason)
      note (.answered pluginResult)
      if authDecision = .continue ∧ pluginResult ≠ .continue then
        authorizePlugins id requestUri method authPlugins pluginResult pluginResult routeState
          rejectReason
      else
        authorizePlugins id requestUri method authPlugins authStatus authDecision routeState
          rejectReason

/-- The identity of the sender, if it is known. -/
def identify : Step (Option Text) := do
  match r.authIdentity (← get).request with
  | some authUser =>
    onRequest r.normalizeIdentity.run
    return some authUser
  | none => query r.isAuthenticated

/-- What follows from the decision. -/
def conclude (authUser : Option Text) (decision : AuthResult) (routeState : RouteState)
    (rejectReason : Text) : Step Unit :=
  match decision with
  | .deny =>
    if authUser.isSome then respond 403 rejectReason [] else authenticationChallenge
  | .continue | .allow =>
    if routeState.mayBeMutable then do
      change (routeState.markDialogAsAuthorized.update r.md5 r.secret r.junk)
      note (.updated (← get).request)
    else return ()

/-- The authorization of a request: the plugins, and what their result does. -/
def authorize (requestUri : Url) (routeState : RouteState) : Step Unit := do
  let authStatus : AuthResult :=
    if !routeState.mayBeMutable && routeState.isDialogAuthorized then .allow else .continue
  let authUser ← r.identify
  let m := (← get).request
  -- responses and ACKs are always allowed
  let exempt := isResponse m || m.method == text "ACK"
  let (decision, routeState, rejectReason) ←
    authorizePlugins (authUser.getD []) requestUri m.method r.authPlugins
      (if exempt then .allow else authStatus) (if exempt then .allow else .continue) routeState []
  note (.decided exempt decision routeState (← get).request)
  r.conclude authUser decision routeState rejectReason

/-! ## Behind the authorization -/

/-- A route of this proxy with parameters that have no value. -/
def ownRoute (hostPort : Text) (parameters : List String) : Text :=
  (parameters.foldl (fun route name => route.setUrlParameter (text name) [])
    (Url.ofText hostPort .nameAddr)).toString r.junk

/-- The first line, in lower case, has a text. -/
def lineHas (m : SipMessage) (s : String) : Bool :=
  containsText (text s) (m.firstHeaderLine.map toLower)

/-- The target is reached over TLS. -/
def isTlsTarget (m : SipMessage) : Bool := lineHas m "transport=tls" || lineHas m "sips:"

/-- The Record-Routes of a request that was not authorized. -/
def addRecordRoutes (m : SipMessage) : SipMessage :=
  let inboundRoute :=
    if r.sendProtocol m = .ssl then r.ownRoute r.routeHostSecurePort ["lr", "transport=tls"]
    else if r.ensureTcpLifetime && (r.sendProtocol m == .tcp || lineHas m "transport=tcp") then
      r.ownRoute r.routeHostPort ["lr", "transport=tcp"]
    else r.ownRoute r.routeHostPort ["lr"]
  let added := addRecordRouteUri m inboundRoute
  if r.sendProtocol m = .ssl then addRecordRouteUri added (r.ownRoute r.routeHostPort ["lr"])
  else if isTlsTarget m then
    addRecordRouteUri added (r.ownRoute r.routeHostSecurePort ["lr", "transport=tls"])
  else added

/-- The Record-Route of a request that was authorized and leaves the proxy. -/
def addTlsRecordRoute (m : SipMessage) : SipMessage :=
  if m.isRecordRouteAccepted && (r.sendProtocol m == .ssl || isTlsTarget m) then
    addRecordRouteUri m (r.ownRoute r.routeHostSecurePort ["lr", "transport=tls"])
  else m

/-- What is done with the request in any case. -/
def finish (authorized : Bool) (requestUri : Url) : Step Unit := do
  if !authorized then
    change fun m => if m.isRecordRouteAccepted then r.addRecordRoutes m else m
    r.trustedRequestModifiers.forM fun modifyTrustedRequest => do
      let bMessageWillSpiral := (← get).bMessageWillSpiral
      onRequest (modifyTrustedRequest requestUri bMessageWillSpiral)
  else if !(← get).bMessageWillSpiral then change r.addTlsRecordRoute

/-! ## The request -/

/-- A request without extensions that are not supported. -/
def proxySupported : Step Unit := do
  let (requestUri, removedRoutes) ← onRequest r.normalizeProxyRoutes.run
  let routeState :=
    RouteState.ofMessage r.md5 r.secret (← get).request removedRoutes r.routeHostPort
  let p ← r.plan requestUri routeState
  let authorized ←
    if p.bForwardingRulesShouldBeEvaluated then r.evaluateForwardingRules p
    else pure p.bRequestShouldBeAuthorized
  if authorized then r.authorize p.requestUri routeState
  r.finish authorized p.requestUri

/-- The `try` block. -/
def proxyBlock : Step Unit := do
  let disallowed := r.disallowedExtensions (← get).request
  if disallowed = [] then r.proxySupported
  else respond 420 (text "Extension Not Supported") (intercalate (text ", ") disallowed)

/-- What is done to a request that is sent on. -/
def prepareToSend (st : ProxyState) : SipMessage :=
  let m := st.request.setMaxForwards
    (match st.request.getMaxForwards with
    | some maxForwards => toInt32 (maxForwards - 1)
    | none => r.maxForwards)
  -- `performPreRoutingChecks`
  if st.bMessageWillSpiral then m else m.removeHeaders (text "P-PREFERRED-IDENTITY")

/-- The `catch` clauses. -/
def caught : EStateM.Result ProxyException ProxyState Unit → ProxyState
  | .ok _ st => st
  | .error e st =>
    { st with
      response := ⟨st.request, 503, e.errorString, []⟩
      returnedAction := .sendResponse }

def proxyMessage (sipRequest : SipMessage) : ProxyState :=
  let st := caught (r.proxyBlock { request := sipRequest })
  match st.returnedAction with
  | .sendRequest => { st with request := r.prepareToSend st }
  | .sendResponse | .doNothing => st

/-- `handleRequest`: the log of `proxyMessage`, and what is sent. -/
def handleRequest (sipRequest : SipMessage) : List RouterEvent :=
  let st := r.proxyMessage sipRequest
  st.log ++
    match st.returnedAction with
    | .sendRequest => [.sentRequest st.request]
    | .sendResponse => [.sentResponse st.response]
    | .doNothing => []

/-! ## The log -/

/-- The answers of the plugins. -/
def answers (log : List RouterEvent) : List AuthResult :=
  log.filterMap fun
    | .answered result => some result
    | _ => none

/-- The requests with an updated route state. -/
def updates (log : List RouterEvent) : List SipMessage :=
  log.filterMap fun
    | .updated request => some request
    | _ => none

/-- What was sent, of all that happened. -/
def sent (log : List RouterEvent) : List RouterEvent :=
  log.filter fun
    | .sentRequest _ | .sentResponse _ => true
    | _ => false

/-- The first answer other than `continue`. -/
def firstAnswer (results : List AuthResult) : AuthResult :=
  (results.find? (· ≠ .continue)).getD .continue

/-- In front of the authorization: nothing is in the log, and an `ACK` is still one. -/
structure Before (ack : Prop) (st : ProxyState) : Prop where
  log : st.log = []
  returnedAction : st.returnedAction ≠ .doNothing
  isAck : ack → isAck st.request

/-- The log of an authorization: the answers, the decision that follows from them, and one update
where it is due. -/
structure Authorized (r : Router) (ack : Prop) (st : ProxyState) (exempt : Bool)
    (decision : AuthResult) (routeState : RouteState) (request : SipMessage)
    (results : List AuthResult) : Prop where
  length_eq : results.length = r.authPlugins.length
  exempt_of_ack : ack → exempt = true
  decision_eq : decision = if exempt then .allow else firstAnswer results
  log_eq : st.log = results.map .answered ++ .decided exempt decision routeState request ::
    if decision ≠ .deny ∧ routeState.mayBeMutable = true then
      [.updated (routeState.markDialogAsAuthorized.update r.md5 r.secret r.junk request)]
    else []
  rejected : decision = .deny →
    st.returnedAction = .sendResponse ∧ st.response.statusCode ∈ [403, 407]

/-- What the log says at the end. -/
def Accounted (r : Router) (ack : Prop) (st : ProxyState) : Prop :=
  st.returnedAction ≠ .doNothing ∧
    ((∃ results : List AuthResult, st.log = results.map .answered) ∨
      ∃ exempt decision routeState request results,
        Authorized r ack st exempt decision routeState request results)

/-! ### Steps -/

theorem preserves_onRequest {α : Type} {ack : Prop} {op : RequestOp α} :
    Preserves (Before ack) (onRequest op.run) := by
  intro st hst
  have hack := op.isAck_run st.request
  rw [onRequest]
  cases hresult : op.run st.request with
  | ok a m =>
    rw [hresult] at hack
    exact ⟨hst.log, hst.returnedAction, fun h => hack (hst.isAck h)⟩
  | error e m =>
    rw [hresult] at hack
    exact ⟨hst.log, hst.returnedAction, fun h => hack (hst.isAck h)⟩

theorem preserves_change {ack : Prop} {f : SipMessage → SipMessage}
    (hf : ∀ m, isAck m → isAck (f m)) : Preserves (Before ack) (change f) :=
  fun _ hst => ⟨hst.log, hst.returnedAction, fun h => hf _ (hst.isAck h)⟩

theorem preserves_query {α : Type} {P : ProxyState → Prop}
    {f : SipMessage → Except ProxyException α} : Preserves P (query f) := by
  intro st hst
  rw [query]
  cases f st.request <;> exact hst

theorem preserves_respond {ack : Prop} (statusCode : Nat) (statusText unsupported : Text) :
    Preserves (Before ack) (respond statusCode statusText unsupported) :=
  fun _ hst => ⟨hst.log, nofun, hst.isAck⟩

theorem preserves_spiral {ack : Prop} : Preserves (Before ack) spiral :=
  fun _ hst => ⟨hst.log, hst.returnedAction, hst.isAck⟩

theorem isAck_of_firstHeaderLine {m m' : SipMessage}
    (hline : m'.firstHeaderLine = m.firstHeaderLine) (h : isAck m) : isAck m' := by
  rw [isAck, method, HttpMessage.getFirstHeaderLinePart, hline]
  exact h

theorem firstHeaderLine_setHeaderValue (m : SipMessage) (name value : Text) (index : Nat) :
    (m.setHeaderValue name value index).firstHeaderLine = m.firstHeaderLine := by
  unfold HttpMessage.setHeaderValue
  cases HttpMessage.setValueAt name value index m.nameValues <;> rfl

theorem firstHeaderLine_addRouteUri (m : SipMessage) (routeUri : Text) :
    (m.addRouteUri routeUri).firstHeaderLine = m.firstHeaderLine := by
  unfold SipMessage.addRouteUri
  cases m.getHeaderValue 0 routeField <;> rfl

theorem isAck_changeRequestUri {m : SipMessage} (h : isAck m) (newUri : Text) :
    isAck (m.changeRequestUri newUri) := by
  have hmethod : m.getFirstHeaderLinePart 0 = text "ACK" := h
  rw [isAck, method, HttpMessage.getFirstHeaderLinePart, HttpMessage.changeRequestUri, hmethod]
  rfl

/-! ### In front of the authorization -/

theorem preserves_assertIdentity {ack : Prop} : Preserves (Before ack) r.assertIdentity := by
  refine .bind .get fun st => .ite (.bind preserves_query fun found => .ite ?_ (.pure _)) (.pure _)
  refine .bind preserves_query fun authUser => ?_
  cases authUser with
  | none => exact .bind (preserves_respond _ _ _) fun _ => .pure _
  | some user =>
    refine .bind (preserves_change fun m hm => ?_) fun _ =>
      .bind preserves_onRequest fun _ => .pure _
    split
    · exact hm
    · exact hm

theorem preserves_plan {ack : Prop} (requestUri : Url) (routeState : RouteState) :
    Preserves (Before ack) (r.plan requestUri routeState) := by
  have hspiral : Preserves (Before ack) (change (·.setHeaderValue spiralHeader (text "true") 0)) :=
    preserves_change fun m hm =>
      isAck_of_firstHeaderLine (firstHeaderLine_setHeaderValue m _ _ 0) hm
  refine .bind .get fun st => .ite (.pure _) (.bind preserves_onRequest fun _ => ?_)
  refine .ite ?_ (.ite ?_ (.ite ?_ (.pure _)))
  · exact .bind hspiral fun _ => .bind preserves_onRequest fun _ =>
      .bind r.preserves_assertIdentity fun _ => .pure _
  · exact .bind hspiral fun _ => .bind preserves_spiral fun _ => .pure _
  · refine .bind preserves_query fun contacts => ?_
    cases contacts with
    | nil => exact .pure _
    | cons contact contacts =>
      exact .bind (preserves_change fun m hm => isAck_changeRequestUri hm _) fun _ => .pure _

theorem preserves_applyRoute {ack : Prop} (authorized : Bool) (route : Option Route) :
    Preserves (Before ack) (r.applyRoute authorized route) := by
  cases route with
  | none => exact .pure _
  | some route =>
    have hroute : ∀ routeUri, Preserves (Before ack) (change (·.addRouteUri routeUri)) :=
      fun routeUri => preserves_change fun m hm =>
        isAck_of_firstHeaderLine (firstHeaderLine_addRouteUri m routeUri) hm
    have hparams : Preserves (Before ack) (do
        if route.ruriParams ≠ [] then onRequest (r.addRuriParams route.ruriParams).run
        return authorized || route.authRequired) :=
      .ite (.bind preserves_onRequest fun _ => .pure _) (.pure _)
    refine .ite (.ite ?_ ?_) hparams
    · exact .bind preserves_spiral fun _ => .bind (hroute _) fun _ => hparams
    · exact .bind (hroute _) fun _ => hparams

theorem preserves_evaluateForwardingRules {ack : Prop} (p : Plan) :
    Preserves (Before ack) (r.evaluateForwardingRules p) := by
  have hheader : ∀ authorized : Bool, Preserves (Before ack) (do
      if !(← get).bMessageWillSpiral then change (·.removeHeader spiralHeader)
      return authorized) := fun authorized =>
    .bind .get fun st => .ite (.bind (preserves_change fun m hm => hm) fun _ => .pure _) (.pure _)
  refine .bind .get fun st => .ite (hheader true) ?_
  cases r.getRoute with
  | none => exact hheader true
  | some getRoute =>
    exact .bind preserves_query fun route => .bind (r.preserves_applyRoute _ route) hheader

theorem preserves_identify {ack : Prop} : Preserves (Before ack) r.identify := by
  refine .bind .get fun st => ?_
  cases r.authIdentity st.request with
  | none => exact preserves_query
  | some authUser => exact .bind preserves_onRequest fun _ => .pure _

/-! ### The authorization -/

/-- The decision behind answers. -/
def decisionAfter (authDecision : AuthResult) (results : List AuthResult) : AuthResult :=
  if authDecision = .continue then firstAnswer results else authDecision

/-- One more answer decides where nothing has. -/
theorem decisionAfter_cons (authDecision pluginResult : AuthResult) (results : List AuthResult) :
    decisionAfter authDecision (pluginResult :: results) =
      decisionAfter (if authDecision = .continue ∧ pluginResult ≠ .continue then pluginResult
        else authDecision) results := by
  cases authDecision <;> cases pluginResult <;> rfl

/-- **The loop over the plugins**: all of them answer, unless an exception ends it, and the first
answer other than `continue` decides if nothing has been decided. -/
theorem authorizePlugins_spec (id : Text) (requestUri : Url) (method : Text)
    (authPlugins : List AuthPlugin) (authStatus authDecision : AuthResult) (routeState : RouteState)
    (rejectReason : Text) (st : ProxyState) : ∃ results : List AuthResult, ∃ st' : ProxyState,
      st'.log = st.log ++ results.map .answered ∧ st'.returnedAction = st.returnedAction ∧
      ((∃ e, authorizePlugins id requestUri method authPlugins authStatus authDecision routeState
          rejectReason st = .error e st') ∨
        results.length = authPlugins.length ∧ ∃ routeState' rejectReason',
          authorizePlugins id requestUri method authPlugins authStatus authDecision routeState
            rejectReason st =
              .ok (decisionAfter authDecision results, routeState', rejectReason') st') := by
  induction authPlugins generalizing authStatus authDecision routeState rejectReason st with
  | nil =>
    refine ⟨[], st, (append_nil _).symm, rfl, Or.inr ⟨rfl, routeState, rejectReason, ?_⟩⟩
    have hdecide : decisionAfter authDecision [] = authDecision := by
      cases authDecision <;> rfl
    rw [hdecide]
    rfl
  | cons authPlugin authPlugins ih =>
    let call : AuthCall := ⟨id, requestUri, method, authStatus, st.bMessageWillSpiral⟩
    have hstep : authorizePlugins id requestUri method (authPlugin :: authPlugins) authStatus
        authDecision routeState rejectReason st =
          match onRequest (authPlugin.authorizeAndModify call routeState rejectReason) st with
          | .ok (pluginResult, routeState, rejectReason) st' =>
            (if authDecision = .continue ∧ pluginResult ≠ .continue then
              authorizePlugins id requestUri method authPlugins pluginResult pluginResult
                routeState rejectReason
            else
              authorizePlugins id requestUri method authPlugins authStatus authDecision
                routeState rejectReason) { st' with log := st'.log ++ [.answered pluginResult] }
          | .error e st' => .error e st' := by
      rw [authorizePlugins, get_bind]
      dsimp only
      rw [bind_eq]
      cases onRequest (authPlugin.authorizeAndModify call routeState rejectReason) st <;> rfl
    rw [hstep, onRequest]
    cases hcall : authPlugin.authorizeAndModify call routeState rejectReason st.request with
    | error e m =>
      exact ⟨[], { st with request := m }, (append_nil _).symm, rfl, Or.inl ⟨e, rfl⟩⟩
    | ok answer m =>
      obtain ⟨pluginResult, routeState, rejectReason⟩ := answer
      dsimp only
      have hlog : ∀ results : List AuthResult,
          st.log ++ [.answered pluginResult] ++ results.map .answered =
            st.log ++ (pluginResult :: results).map RouterEvent.answered := fun results => by
        rw [append_assoc, map_cons, singleton_append]
      split
      next hdecides =>
          obtain ⟨results, st', hst', haction, hend⟩ := ih pluginResult pluginResult routeState
            rejectReason { st with request := m, log := st.log ++ [.answered pluginResult] }
          have hdecide := decisionAfter_cons authDecision pluginResult results
          rw [if_pos hdecides] at hdecide
          refine ⟨pluginResult :: results, st', hst'.trans (hlog results), haction,
            hend.imp_right fun ⟨hlength, hok⟩ => ⟨congrArg (· + 1) hlength, ?_⟩⟩
          rwa [hdecide]
      next hgoes =>
          obtain ⟨results, st', hst', haction, hend⟩ := ih authStatus authDecision routeState
            rejectReason { st with request := m, log := st.log ++ [.answered pluginResult] }
          have hdecide := decisionAfter_cons authDecision pluginResult results
          rw [if_neg hgoes] at hdecide
          refine ⟨pluginResult :: results, st', hst'.trans (hlog results), haction,
            hend.imp_right fun ⟨hlength, hok⟩ => ⟨congrArg (· + 1) hlength, ?_⟩⟩
          rwa [hdecide]

/-- What follows from the decision of the plugins. -/
theorem conclude_spec (authUser : Option Text) (decision : AuthResult) (routeState : RouteState)
    (rejectReason : Text) (st : ProxyState) (haction : st.returnedAction ≠ .doNothing) :
    let st' := final (r.conclude authUser decision routeState rejectReason st)
    st'.returnedAction ≠ .doNothing ∧
      st'.log = st.log ++ (if decision ≠ .deny ∧ routeState.mayBeMutable = true then
        [.updated (routeState.markDialogAsAuthorized.update r.md5 r.secret r.junk st.request)]
        else []) ∧
      (decision = .deny → st'.returnedAction = .sendResponse ∧
        st'.response.statusCode ∈ [403, 407]) := by
  have hallowed : ∀ decision : AuthResult, decision ≠ .deny →
      r.conclude authUser decision routeState rejectReason =
        if routeState.mayBeMutable then do
          change (routeState.markDialogAsAuthorized.update r.md5 r.secret r.junk)
          note (.updated (← get).request)
        else return () := by
    intro decision hdecision
    cases decision with
    | deny => exact absurd rfl hdecision
    | «continue» => rfl
    | allow => rfl
  by_cases hdeny : decision = .deny
  · subst hdeny
    rw [if_neg fun h => h.1 rfl, append_nil, conclude]
    by_cases huser : authUser.isSome = true
    · rw [if_pos huser]
      exact ⟨nofun, rfl, fun _ => ⟨rfl, mem_cons_self⟩⟩
    · rw [if_neg huser]
      exact ⟨nofun, rfl, fun _ => ⟨rfl, mem_cons_of_mem _ mem_cons_self⟩⟩
  · rw [hallowed decision hdeny]
    by_cases hmutable : routeState.mayBeMutable = true
    · rw [if_pos hmutable, if_pos ⟨hdeny, hmutable⟩]
      exact ⟨haction, rfl, fun h => absurd h hdeny⟩
    · rw [if_neg hmutable, if_neg fun h => hmutable h.2, append_nil]
      exact ⟨haction, rfl, fun h => absurd h hdeny⟩

/-- **The authorization** is accounted for. -/
theorem accounted_authorize {ack : Prop} (requestUri : Url) (routeState : RouteState)
    {st : ProxyState} (hst : Before ack st) :
    Accounted r ack (final (r.authorize requestUri routeState st)) := by
  have hidentify := r.preserves_identify st hst
  rw [authorize, bind_eq]
  cases hresult : r.identify st with
  | error e st₁ =>
    rw [hresult] at hidentify
    exact ⟨hidentify.returnedAction, Or.inl ⟨[], hidentify.log⟩⟩
  | ok authUser st₁ =>
    rw [hresult] at hidentify
    obtain ⟨hlog, haction, hack⟩ : Before ack st₁ := hidentify
    dsimp only
    rw [get_bind, bind_eq]
    have hexempt : ack →
        (isResponse st₁.request || st₁.request.method == text "ACK") = true := fun h => by
      have hmethod : st₁.request.method = text "ACK" := hack h
      rw [hmethod, beq_self_eq_true, Bool.or_true]
    generalize (isResponse st₁.request || st₁.request.method == text "ACK") = exempt at hexempt ⊢
    generalize (if (!routeState.mayBeMutable && routeState.isDialogAuthorized) = true then
      AuthResult.allow else AuthResult.continue) = authStatus
    obtain ⟨results, st₂, hlog₂, haction₂, hend⟩ := authorizePlugins_spec (authUser.getD [])
      requestUri st₁.request.method r.authPlugins (if exempt then .allow else authStatus)
      (if exempt then .allow else .continue) routeState [] st₁
    rw [hlog, nil_append] at hlog₂
    rw [← haction₂] at haction
    obtain ⟨e, herror⟩ | ⟨hlength, routeState', rejectReason, hok⟩ := hend
    · rw [herror]
      exact ⟨haction, Or.inl ⟨results, hlog₂⟩⟩
    · rw [hok]
      have hdecision : decisionAfter (if exempt then .allow else .continue) results =
          if exempt then .allow else firstAnswer results := by
        cases exempt <;> rfl
      rw [hdecision]
      dsimp only
      rw [get_bind]
      obtain ⟨haction₃, hlog₃, hrejected⟩ := r.conclude_spec authUser
        (if exempt then .allow else firstAnswer results) routeState' rejectReason
        { st₂ with log := st₂.log ++ [.decided exempt
          (if exempt then .allow else firstAnswer results) routeState' st₂.request] } haction
      refine ⟨haction₃, Or.inr ⟨exempt, if exempt then .allow else firstAnswer results,
        routeState', st₂.request, results, hlength, hexempt, rfl, ?_, hrejected⟩⟩
      refine hlog₃.trans ?_
      rw [hlog₂, append_assoc]
      rfl

/-! ### Behind the authorization -/

theorem Accounted.congr {r : Router} {ack : Prop} {st st' : ProxyState} (h : Accounted r ack st)
    (hlog : st'.log = st.log) (haction : st'.returnedAction = st.returnedAction)
    (hresponse : st'.response = st.response) : Accounted r ack st' := by
  obtain ⟨hnothing, hend⟩ := h
  rw [Accounted, hlog, haction]
  refine ⟨hnothing, hend.imp_right ?_⟩
  rintro ⟨exempt, decision, routeState, request, results, hauthorized⟩
  refine ⟨exempt, decision, routeState, request, results, ?_⟩
  obtain ⟨hlength, hexempt, hdecision, hlog₁, hrejected⟩ := hauthorized
  refine ⟨hlength, hexempt, hdecision, hlog.trans hlog₁, ?_⟩
  rwa [haction, hresponse]

theorem accounted_onRequest {α : Type} {ack : Prop} {op : RequestStep α} :
    Preserves (Accounted r ack) (onRequest op) := by
  intro st hst
  rw [onRequest]
  cases op st.request with
  | ok a m => exact hst.congr rfl rfl rfl
  | error e m => exact hst.congr rfl rfl rfl

theorem accounted_finish {ack : Prop} (authorized : Bool) (requestUri : Url) :
    Preserves (Accounted r ack) (r.finish authorized requestUri) := by
  have hchange : ∀ f, Preserves (Accounted r ack) (change f) := fun f st hst =>
    hst.congr rfl rfl rfl
  refine .ite (.bind (hchange _) fun _ => ?_) (.bind .get fun st => .ite (hchange _) (.pure _))
  exact .forM fun modifyTrustedRequest => .bind .get fun st => r.accounted_onRequest

theorem Before.accounted {r : Router} {ack : Prop} {st : ProxyState} (h : Before ack st) :
    Accounted r ack st := ⟨h.returnedAction, Or.inl ⟨[], h.log⟩⟩

/-- **The steps on a request** are accounted for. -/
theorem accounted_proxySupported {ack : Prop} {st : ProxyState} (hst : Before ack st) :
    Accounted r ack (final (r.proxySupported st)) := by
  -- what is behind the authorization
  have hfinish : ∀ (authorized : Bool) (routeState : RouteState) (requestUri : Url) st,
      Before ack st → Accounted r ack (final ((do
        if authorized then r.authorize requestUri routeState
        r.finish authorized requestUri) st)) := by
    intro authorized routeState requestUri st hst
    cases authorized with
    | false => exact r.accounted_finish false requestUri st hst.accounted
    | true =>
      have hauthorize := r.accounted_authorize requestUri routeState hst
      show Accounted r ack (final ((r.authorize requestUri routeState >>= fun _ =>
        r.finish true requestUri) st))
      rw [bind_eq]
      cases hresult : r.authorize requestUri routeState st with
      | error e st₁ =>
        rw [hresult] at hauthorize
        exact hauthorize
      | ok u st₁ =>
        rw [hresult] at hauthorize
        exact r.accounted_finish true requestUri st₁ hauthorize
  -- what is in front of it keeps nothing in the log
  have hfront : ∀ {α : Type} {x : Step α} {f : α → Step Unit} {st : ProxyState}, Before ack st →
      Preserves (Before ack) x → (∀ a st, Before ack st → Accounted r ack (final (f a st))) →
      Accounted r ack (final ((x >>= f) st)) := by
    intro α x f st hst hx hf
    have hend := hx st hst
    rw [bind_eq]
    cases hresult : x st with
    | error e st₁ =>
      rw [hresult] at hend
      exact hend.accounted
    | ok a st₁ =>
      rw [hresult] at hend
      exact hf a st₁ hend
  refine hfront hst preserves_onRequest fun normalized st₁ hst₁ => ?_
  refine hfront hst₁ .get fun st₂ st₃ hst₃ => ?_
  refine hfront hst₃ (r.preserves_plan _ _) fun p st₄ hst₄ => ?_
  by_cases hevaluated : p.bForwardingRulesShouldBeEvaluated = true
  · rw [if_pos hevaluated]
    exact hfront hst₄ (r.preserves_evaluateForwardingRules p) fun authorized st₅ hst₅ =>
      hfinish authorized _ _ st₅ hst₅
  · rw [if_neg hevaluated]
    exact hfinish p.bRequestShouldBeAuthorized _ _ st₄ hst₄

/-- **`proxyMessage`** is accounted for, with exceptions. -/
theorem accounted_proxyBlock (m : SipMessage) :
    Accounted r (isAck m) (final (r.proxyBlock { request := m })) := by
  have hstart : Before (isAck m) { request := m } := ⟨rfl, nofun, id⟩
  rw [proxyBlock, get_bind]
  split
  · exact r.accounted_proxySupported hstart
  · exact Before.accounted (preserves_respond _ _ _ _ hstart)

theorem caught_spec (result : EStateM.Result ProxyException ProxyState Unit) :
    (caught result).log = (final result).log ∧
      ((caught result).returnedAction = (final result).returnedAction ∧
          (caught result).response = (final result).response ∨
        (caught result).returnedAction = .sendResponse ∧
          (caught result).response.statusCode = 503) := by
  cases result with
  | ok u st => exact ⟨rfl, Or.inl ⟨rfl, rfl⟩⟩
  | error e st => exact ⟨rfl, Or.inr ⟨rfl, rfl⟩⟩

/-- What `proxyMessage` comes to: a request that was rejected has a response. -/
theorem proxyMessage_spec (m : SipMessage) :
    (r.proxyMessage m).returnedAction ≠ .doNothing ∧
      ((∃ results : List AuthResult, (r.proxyMessage m).log = results.map .answered) ∨
        ∃ exempt decision routeState request results,
          results.length = r.authPlugins.length ∧ (isAck m → exempt = true) ∧
          decision = (if exempt then .allow else firstAnswer results) ∧
          (r.proxyMessage m).log =
            results.map .answered ++ .decided exempt decision routeState request ::
              (if decision ≠ .deny ∧ routeState.mayBeMutable = true then
                [.updated (routeState.markDialogAsAuthorized.update r.md5 r.secret r.junk request)]
              else []) ∧
          (decision = .deny → (r.proxyMessage m).returnedAction = .sendResponse ∧
            (r.proxyMessage m).response.statusCode ∈ [403, 407, 503])) := by
  obtain ⟨haction, hend⟩ := r.accounted_proxyBlock m
  obtain ⟨hlog, hresponse⟩ := caught_spec (r.proxyBlock { request := m })
  -- behind the block only the request changes
  have hsame : (r.proxyMessage m).log = (caught (r.proxyBlock { request := m })).log ∧
      (r.proxyMessage m).returnedAction = (caught (r.proxyBlock { request := m })).returnedAction ∧
      (r.proxyMessage m).response = (caught (r.proxyBlock { request := m })).response := by
    rw [proxyMessage]
    generalize caught (r.proxyBlock { request := m }) = st
    cases hreturned : st.returnedAction with
    | sendRequest => exact ⟨rfl, rfl, rfl⟩
    | sendResponse => exact ⟨rfl, hreturned, rfl⟩
    | doNothing => exact ⟨rfl, hreturned, rfl⟩
  rw [hsame.1, hsame.2.1, hsame.2.2, hlog]
  refine ⟨?_, hend.imp_right ?_⟩
  · obtain ⟨heq, -⟩ | ⟨heq, -⟩ := hresponse
    · rwa [heq]
    · rw [heq]
      nofun
  · rintro ⟨exempt, decision, routeState, request, results, hauthorized⟩
    refine ⟨exempt, decision, routeState, request, results, hauthorized.length_eq,
      hauthorized.exempt_of_ack, hauthorized.decision_eq, hauthorized.log_eq, fun hdeny => ?_⟩
    obtain ⟨hrejected, hcode⟩ := hauthorized.rejected hdeny
    obtain ⟨heq, hsame⟩ | ⟨heq, hsame⟩ := hresponse
    · rw [heq, hsame]
      exact ⟨hrejected, mem_append_left [503] hcode⟩
    · rw [hsame]
      exact ⟨heq, mem_of_getLast? rfl⟩

/-! ### The log of answers -/

theorem answers_map_answered (results : List AuthResult) (log : List RouterEvent) :
    answers (results.map .answered ++ log) = results ++ answers log := by
  induction results with
  | nil => rfl
  | cons result results ih => exact congrArg (result :: ·) ih

theorem updates_map_answered (results : List AuthResult) (log : List RouterEvent) :
    updates (results.map .answered ++ log) = updates log := by
  induction results with
  | nil => rfl
  | cons result results ih => exact ih

theorem sent_map_answered (results : List AuthResult) (log : List RouterEvent) :
    sent (results.map .answered ++ log) = sent log := by
  induction results with
  | nil => rfl
  | cons result results ih => exact ih

/-- **The authorization of a request**: one thing is sent; all plugins are asked, the first answer
other than `continue` is the decision, and an `ACK` is not rejected; a rejected request gets one
final response and is not sent on, and one that is not rejected has its route state updated once if
it may be, and not at all otherwise. -/
theorem handleRequest_authorization (m : SipMessage) :
    (sent (r.handleRequest m)).length = 1 ∧
    ∀ exempt decision routeState request,
      RouterEvent.decided exempt decision routeState request ∈ r.handleRequest m →
      (answers (r.handleRequest m)).length = r.authPlugins.length ∧
      decision = (if exempt then .allow else firstAnswer (answers (r.handleRequest m))) ∧
      (isAck m → exempt = true ∧ decision = .allow) ∧
      (decision = .deny → updates (r.handleRequest m) = [] ∧ ∃ response : Response,
        sent (r.handleRequest m) = [.sentResponse response] ∧
          response.statusCode ∈ [403, 407, 503]) ∧
      (decision ≠ .deny → updates (r.handleRequest m) =
        if routeState.mayBeMutable then
          [routeState.markDialogAsAuthorized.update r.md5 r.secret r.junk request]
        else []) := by
  obtain ⟨haction, hend⟩ := r.proxyMessage_spec m
  -- what is sent behind the log of `proxyMessage`
  obtain ⟨event, hhandle, hevent, hresponse⟩ : ∃ event : RouterEvent,
      r.handleRequest m = (r.proxyMessage m).log ++ [event] ∧
      ((∃ request, event = .sentRequest request) ∨ ∃ response, event = .sentResponse response) ∧
      ((r.proxyMessage m).returnedAction = .sendResponse →
        event = .sentResponse (r.proxyMessage m).response) := by
    rw [handleRequest]
    cases hreturned : (r.proxyMessage m).returnedAction with
    | sendRequest => exact ⟨_, rfl, Or.inl ⟨_, rfl⟩, nofun⟩
    | sendResponse => exact ⟨_, rfl, Or.inr ⟨_, rfl⟩, fun _ => rfl⟩
    | doNothing => exact absurd hreturned haction
  have hsent : sent [event] = [event] ∧ answers [event] = [] ∧ updates [event] = [] := by
    obtain ⟨request, rfl⟩ | ⟨response, rfl⟩ := hevent <;> exact ⟨rfl, rfl, rfl⟩
  rw [hhandle]
  obtain ⟨results, hlog⟩ | ⟨exempt, decision, routeState, request, results, hlength, hack,
    hdecision, hlog, hrejected⟩ := hend
  · rw [hlog, sent_map_answered, hsent.1]
    refine ⟨rfl, fun exempt decision routeState request hmem => ?_⟩
    obtain hmem | hmem := mem_append.mp hmem
    · obtain ⟨result, -, h⟩ := mem_map.mp hmem
      exact nomatch h
    · obtain ⟨request, rfl⟩ | ⟨response, rfl⟩ := hevent <;>
        exact nomatch mem_singleton.mp hmem
  · -- the update, if there is one
    obtain ⟨entries, hentries, hempty, hupdates⟩ : ∃ entries : List RouterEvent,
        (if decision ≠ .deny ∧ routeState.mayBeMutable = true then
          [.updated (routeState.markDialogAsAuthorized.update r.md5 r.secret r.junk request)]
        else []) = entries ∧
        (answers (entries ++ [event]) = [] ∧ sent (entries ++ [event]) = [event] ∧
          ∀ exempt decision routeState request,
            .decided exempt decision routeState request ∉ entries ++ [event]) ∧
        updates (entries ++ [event]) = if decision ≠ .deny ∧ routeState.mayBeMutable = true then
          [routeState.markDialogAsAuthorized.update r.md5 r.secret r.junk request] else [] := by
      refine ⟨_, rfl, ?_⟩
      obtain ⟨request, rfl⟩ | ⟨response, rfl⟩ := hevent <;> split <;> simp [answers, sent, updates]
    rw [hentries] at hlog
    rw [hlog, append_assoc, cons_append, answers_map_answered, sent_map_answered,
      updates_map_answered]
    change (sent (entries ++ [event])).length = 1 ∧ _
    rw [hempty.2.1]
    refine ⟨rfl, fun exempt' decision' routeState' request' hmem => ?_⟩
    have hsame : RouterEvent.decided exempt' decision' routeState' request' =
        .decided exempt decision routeState request := by
      obtain hmem | hmem := mem_append.mp hmem
      · obtain ⟨result, -, h⟩ := mem_map.mp hmem
        exact nomatch h
      · exact (mem_cons.mp hmem).resolve_right (hempty.2.2 _ _ _ _)
    cases hsame
    show (results ++ answers (entries ++ [event])).length = _ ∧
      decision =
        (if exempt then .allow else firstAnswer (results ++ answers (entries ++ [event]))) ∧
      _ ∧ (_ → updates (entries ++ [event]) = [] ∧ ∃ response,
        sent (entries ++ [event]) = [.sentResponse response] ∧ _) ∧
      (_ → updates (entries ++ [event]) = _)
    rw [hempty.1, append_nil, hempty.2.1, hupdates]
    refine ⟨hlength, hdecision, fun h => ⟨hack h, ?_⟩, fun hdeny => ⟨if_neg fun h => h.1 hdeny, ?_⟩,
      fun hdeny => ?_⟩
    · rw [hdecision, hack h]
      rfl
    · obtain ⟨hreturned, hcode⟩ := hrejected hdeny
      exact ⟨(r.proxyMessage m).response, congrArg ([·]) (hresponse hreturned), hcode⟩
    · by_cases hmutable : routeState.mayBeMutable = true
      · rw [if_pos ⟨hdeny, hmutable⟩, if_pos hmutable]
      · rw [if_neg fun h => hmutable h.2, if_neg hmutable]

/-! ### A router without rules -/

/-- A router without forwarding rules and credentials, and with such plugins. -/
def plain (results : List AuthResult) : Router where
  md5 := spiraledMd5
  secret := text "fixed"
  junk := 0
  routeHostPort := text "myhost.example.com"
  routeHostSecurePort := text "myhost.example.com:5061"
  domainName := text "example.com"
  ensureTcpLifetime := false
  maxForwards := 20
  isExtensionAllowed _ := false
  isMyHostAlias _ := false
  normalizeProxyRoutes := .idle (Url.ofText (text "sip:user@somewhere.com") .nameAddr, [])
  addNatMappingInfoToContacts := .idle ()
  addPathHeaderIfNATOrTlsRegisterRequest := .idle ()
  isPAIdentityApplicable _ := false
  getCredential _ := .ok false
  isAuthenticated _ := .ok none
  insertIdentity _ := .idle ()
  isGRUU _ := false
  getUnexpiredContactsUser _ := .ok []
  getRoute := none
  addRuriParams _ := .idle ()
  authIdentity _ := none
  normalizeIdentity := .idle ()
  sendProtocol _ := .other
  authPlugins := results.map .fixed
  trustedRequestModifiers := []

/-- A request that comes back to the proxy. -/
def spiraling (toTag : String) : SipMessage where
  firstHeaderLine := text "INVITE sip:user@somewhere.com SIP/2.0"
  nameValues :=
    [(toField, text "sip:user@somewhere.com" ++ text toTag),
      (fromField, text "Caller <sip:caller@example.org>;tag=30543"),
      (callIdField, text "f88dfabce84b6a2787ef024a7dbe8749"), (spiralHeader, text "true")]

theorem handleRequest_authorization_plain :
    updates ((plain [.continue, .deny, .allow]).handleRequest (spiraling "")) = [] ∧
    ∃ response : Response,
      sent ((plain [.continue, .deny, .allow]).handleRequest (spiraling "")) =
        [.sentResponse response] ∧ response.statusCode ∈ [403, 407, 503] := by
  obtain ⟨-, hauthorization⟩ :=
    (plain [.continue, .deny, .allow]).handleRequest_authorization (spiraling "")
  obtain ⟨-, -, -, hdeny, -⟩ := hauthorization false .deny
    (RouteState.ofMessage spiraledMd5 (text "fixed") (spiraling "") [] (text "myhost.example.com"))
    ((spiraling "").removeHeader spiralHeader) (by decide +kernel)
  exact hdeny rfl

/-- The route state of a request in a dialog stays as it is. -/
theorem not_updated_once :
    ¬ ∀ (r : Router) (m : SipMessage) (exempt : Bool) (routeState : RouteState)
        (request : SipMessage),
      RouterEvent.decided exempt .allow routeState request ∈ r.handleRequest m →
      (updates (r.handleRequest m)).length = 1 := by
  intro h
  exact absurd (h (plain [.allow]) (spiraling ";tag=1") false
    (RouteState.ofMessage spiraledMd5 (text "fixed") (spiraling ";tag=1") []
      (text "myhost.example.com")) ((spiraling ";tag=1").removeHeader spiralHeader)
    (by decide +kernel)) (by decide)

end Router

end SipRouter

end SipXRouter
