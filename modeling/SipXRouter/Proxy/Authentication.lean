import SipXRouter.Net.DigestAuthorization
import SipXRouter.Proxy.RouteStateUpdate
import SipXRouter.SipXecsService.SipNonceDb
import SipXRouter.Sipdb.EntityDB

/-!
# Authentication of requests

The proxy (`SipRouter::isAuthenticated`) and the registrar
(`SipRegistrarServer::isAuthorized`) go through the credentials of a request.  Where
realm, nonce and the use of `qop` are in order, they fetch the password of the user and
compute the response that the request should have.

## Design notes

The servers pass the data of the string that `qop` was read into, which is never `NULL`.
Without the attribute they compute the response over an empty `qop`, nonce count and
client nonce, and not the one of a client without `qop`.
-/

namespace SipXRouter

open List HttpMessage SipMessage RouteState NetAttributeTokenizer

/-! ## The servers -/

/-- What the servers hold: the digest, the secret of the nonces, the time, the realm, how
long a nonce lasts, and the records of the users. -/
structure Authenticator where
  md5 : NetMd5Codec
  secret : Text
  now : Nat
  realm : Text
  nonceExpiration : Int
  entities : List EntityDB.EntityRecord
  useCredentialDB : Bool

namespace Authenticator

variable (server : Authenticator)

/-- `mNonceDb.isNonceValid` for a request. -/
def isNonceValid (m : SipMessage) (nonce : Text) : Bool :=
  SipNonceDb.isNonceValid server.md5 server.secret server.now nonce
    ((m.getHeaderValue 0 callIdField).getD []) ((tagOf m fromField).getD []) server.realm
    server.nonceExpiration

/-- `getCredential` of the proxy, for a user: URI, password token and type. -/
def getCredential (userId realm : Text) : Option (Url × Text × Text) :=
  (EntityDB.getCredentialOfUserId userId realm).eval (EntityDB.findOne server.entities)

/-- `getCredential` of the registrar, for an address: user, password token and type. -/
def getCredentialOfUri (uri : Url) (realm : Text) : Option (Text × Text × Text) :=
  (EntityDB.getCredential uri realm).eval (EntityDB.findOne server.entities)

/-- Realm, nonce and `qop` are all in order. -/
def usable (m : SipMessage) (d : DigestData) : Bool :=
  server.realm == d.realm && server.isNonceValid m d.nonce &&
    verifyQopConsistency d.cnonce d.nonceCount d.qop != .notSupported

/-- `verifyMd5Authorization` with what a header holds. -/
def verified (m : SipMessage) (d : DigestData) (passToken : Text) (authEntity : HttpEndpointEnum) :
    Bool :=
  verifyMd5Authorization server.md5 m d.user (cString passToken) d.nonce d.realm d.cnonce
    d.nonceCount (some d.qop) d.uri authEntity

/-- What one header of the request gives the proxy. -/
def authenticate (m : SipMessage) (d : DigestData) : Option Text :=
  if server.usable m d then
    match server.getCredential d.userBase server.realm with
    | some (userUrl, passTokenDB, _) =>
      if server.verified m d passTokenDB .proxy then some userUrl.getIdentity else none
    | none => none
  else none

/-- `SipRouter::isAuthenticated`: the identity, if there is one. -/
def isAuthenticated (m : SipMessage) : Option Text :=
  (m.liveValues proxyAuthorizationField).findSome? fun value =>
    server.authenticate m (digestData value)

/-- What one header of the request gives the registrar. -/
def authorize (toUri : Url) (m : SipMessage) (d : DigestData) : Option Text :=
  if server.usable m d then
    match server.getCredentialOfUri toUri d.realm with
    | some (_, passTokenDB, _) =>
      if server.verified m d passTokenDB .server then some d.instrument else none
    | none => none
  else none

/-- `SipRegistrarServer::isAuthorized`: the instrument, if the request is authorized. -/
def isAuthorized (toUri : Url) (m : SipMessage) : Option Text :=
  if server.useCredentialDB then
    (m.liveValues authorizationField).findSome? fun value =>
      server.authorize toUri m (digestData value)
  else some []

end Authenticator

/-! ## The client -/

/-- What a client has.  It may name the algorithm, pass on an opaque text, and use
`qop=auth` with a client nonce and a nonce count. -/
structure Credentials where
  user : Text
  password : Text
  realm : Text
  nonce : Text
  uri : Text
  namesAlgorithm : Bool
  opaqueText : Text
  qop : Option (Text × Text)

namespace Credentials

variable (md5 : NetMd5Codec) (method : Text) (c : Credentials)

/-- The client nonce, or `NULL`. -/
def cnonce : Text := (c.qop.map Prod.fst).getD []

/-- The nonce count, or `NULL`. -/
def nonceCount : Text := (c.qop.map Prod.snd).getD []

/-- The name of the algorithm, or `NULL`. -/
def algorithm : Text := if c.namesAlgorithm then md5Algorithm else []

/-- What the response is computed from. -/
def signedText : Text :=
  responseText (buildMd5UserPasswordDigest md5 c.user c.realm c.password) c.nonce c.cnonce
    c.nonceCount (c.qop.map fun _ => qopAuth) (encodedA2 md5 method c.uri)

/-- The response, as `buildMd5Digest` computes it for the client. -/
def response : Text :=
  buildMd5Digest md5 (buildMd5UserPasswordDigest md5 c.user c.realm c.password) c.algorithm c.nonce
    c.cnonce c.nonceCount (c.qop.map fun _ => qopAuth) method c.uri

/-- What the client passes to `setDigestAuthorizationData`. -/
def arguments : DigestArguments where
  user := c.user
  realm := c.realm
  nonce := c.nonce
  uri := c.uri
  response := c.response md5 method
  algorithm := c.algorithm
  cnonce := c.cnonce
  opaqueText := c.opaqueText
  qop := if c.qop.isSome then qopAuth else []
  nonceCount := c.nonceCount

def header : Text := digestField (c.arguments md5 method)

/-- The texts that stand between quotes. -/
def quoted : List Text := [c.user, c.realm, c.nonce, c.uri, c.opaqueText, c.cnonce]

/-- C strings without quote characters; client nonce and nonce count are not empty. -/
structure Given : Prop where
  quote : ∀ v ∈ c.nonceCount :: c.quoted, ∀ b ∈ v, isQuoteCharacter b = false
  noNul : ∀ v ∈ c.password :: c.nonceCount :: c.quoted, ∀ b ∈ v, (b != 0) = true
  qop : ∀ q ∈ c.qop, q.1 ≠ [] ∧ q.2 ≠ []

/-- What the header is good for, which escapes nothing and has no quotes around the nonce
count: no text between quotes ends in an odd number of escape characters, the nonce count
has no separator in it and does not start with an equals sign, and there is a URI. -/
structure Framed : Prop where
  escape : ∀ v ∈ c.quoted, v.foldl countEscape 0 % 2 = 0
  nonceCount : ∀ b ∈ c.nonceCount, isSeparator b = false
  start : nameValueSeparator ∉ c.nonceCount.head?
  uri : c.uri ≠ []

variable {c}

theorem quotable_hash (x : Text) : Quotable (md5.hash x) ∧ ∀ b ∈ md5.hash x, (b != 0) = true := by
  have hbyte : ∀ b : Byte, isHexLower b = true →
      isQuoteCharacter b = false ∧ b ≠ escapeChar ∧ (b != 0) = true := fun b hb =>
    ⟨oneOf_of_class hb (by decide), ne_of_class hb (by decide),
      bne_iff_ne.mpr (ne_of_class hb (by decide))⟩
  have hescape : ∀ v : Text, (∀ b ∈ v, b ≠ escapeChar) → v.foldl countEscape 0 = 0 := by
    intro v
    induction v with
    | nil => intro _; rfl
    | cons b v ih =>
      intro hv
      rw [foldl_cons, countEscape, if_neg (hv b (by simp))]
      exact ih fun d hd => hv d (by simp [hd])
  have hhash := md5.isHexLower_hash x
  refine ⟨⟨fun b hb => (hbyte b (hhash b hb)).1, ?_⟩, fun b hb => (hbyte b (hhash b hb)).2.2⟩
  rw [hescape _ fun b hb => (hbyte b (hhash b hb)).2.1]

/-- What the client passes is read as it was meant. -/
theorem readable_arguments (hgiven : c.Given) (hframed : c.Framed) :
    (c.arguments md5 method).Readable := by
  have hfixed : (∀ v ∈ [md5Algorithm, qopAuth], Bare v ∧ ∀ b ∈ v, (b != 0) = true) := by
    decide +kernel
  have hquoted : ∀ v ∈ c.quoted, Quotable v ∧ ∀ b ∈ v, (b != 0) = true := fun v hv =>
    ⟨⟨hgiven.quote v (by simp [hv]), hframed.escape v hv⟩, hgiven.noNul v (by simp [hv])⟩
  have hresponse := quotable_hash md5 (responseText
    (encodedA1 md5 (buildMd5UserPasswordDigest md5 c.user c.realm c.password) c.algorithm c.nonce
      c.cnonce) c.nonce c.cnonce c.nonceCount (c.qop.map fun _ => qopAuth)
    (encodedA2 md5 method c.uri))
  have halgorithm : (c.algorithm = [] ∨ Bare c.algorithm) ∧ ∀ b ∈ c.algorithm, (b != 0) = true := by
    unfold algorithm
    split
    · exact ⟨Or.inr (hfixed _ (by simp)).1, (hfixed _ (by simp)).2⟩
    · simp
  have hqop : ((c.arguments md5 method).qop = [] ∨ Bare (c.arguments md5 method).qop) ∧
      ∀ b ∈ (c.arguments md5 method).qop, (b != 0) = true := by
    unfold arguments
    dsimp only
    split
    · exact ⟨Or.inr (hfixed _ (by simp)).1, (hfixed _ (by simp)).2⟩
    · simp
  have hcount : c.nonceCount = [] ∨ Bare c.nonceCount := by
    by_cases hnil : c.nonceCount = []
    · exact Or.inl hnil
    · refine Or.inr ⟨hnil, hframed.nonceCount, fun b hb => ⟨?_, ?_⟩⟩
      · exact hgiven.quote _ (by simp) b (mem_of_mem_head? hb)
      · rintro rfl
        exact hframed.start hb
  refine ⟨?_, ?_, ?_⟩
  · intro v hv
    simp only [arguments, mem_cons, not_mem_nil, or_false] at hv
    rcases hv with rfl | rfl | rfl | rfl | rfl | rfl | rfl
    all_goals first
      | exact hresponse.1
      | exact (hquoted _ (by simp [quoted])).1
  · intro v hv
    simp only [mem_cons, not_mem_nil, or_false] at hv
    rcases hv with rfl | rfl | rfl
    · exact halgorithm.1
    · exact hqop.1
    · exact hcount
  · intro v hv
    simp only [mem_cons, not_mem_nil, or_false] at hv
    rcases hv with rfl | rfl | rfl | rfl | rfl | rfl | rfl | rfl | rfl | rfl
    all_goals first
      | exact hresponse.2
      | exact halgorithm.2
      | exact hqop.2
      | exact hgiven.noNul _ (by simp [arguments, quoted])

end Credentials

/-! ## Requests with credentials -/

/-- The request with these headers of credentials for an endpoint, and no others. -/
def HttpMessage.withCredentials (m : SipMessage) (authEntity : HttpEndpointEnum)
    (values : List Text) : SipMessage :=
  { m with
    nameValues := m.nameValues.filter (·.1 != authEntity.field) ++
      values.map fun value => (authEntity.field, value) }

section Carried

variable (m : SipMessage) (authEntity : HttpEndpointEnum)

theorem headerValues_withCredentials (values : List Text) :
    (m.withCredentials authEntity values).headerValues authEntity.field = values := by
  have hold : (m.nameValues.filter (·.1 != authEntity.field)).filter (·.1 == authEntity.field) = [] := by
    rw [filter_filter, filter_eq_nil_iff]
    intro nv _
    simp
  have hnew : (values.map fun value => (authEntity.field, value)).filter (·.1 == authEntity.field) =
      values.map fun value => (authEntity.field, value) := by
    rw [filter_eq_self]
    intro nv hnv
    obtain ⟨value, -, rfl⟩ := mem_map.mp hnv
    simp
  unfold headerValues HttpMessage.withCredentials
  dsimp only
  rw [filter_append, hold, hnew, nil_append, map_map]
  exact map_id values

theorem getHeaderValue_withCredentials (values : List Text) (index : Nat) {name : Text}
    (hname : name ≠ authEntity.field) :
    (m.withCredentials authEntity values).getHeaderValue index name = m.getHeaderValue index name := by
  have hold : (m.nameValues.filter (·.1 != authEntity.field)).filter (·.1 == name) =
      m.nameValues.filter (·.1 == name) := by
    rw [filter_filter]
    refine filter_congr fun nv _ => ?_
    by_cases h : nv.1 = name <;> simp [h, hname]
  have hnew : (values.map fun value => (authEntity.field, value)).filter (·.1 == name) = [] := by
    rw [filter_eq_nil_iff]
    intro nv hnv
    obtain ⟨value, -, rfl⟩ := mem_map.mp hnv
    simpa using fun h => hname h.symm
  unfold getHeaderValue headerValues HttpMessage.withCredentials
  dsimp only
  rw [filter_append, hold, hnew, append_nil]

theorem isNonceValid_withCredentials (server : Authenticator) (values : List Text) (nonce : Text) :
    server.isNonceValid (m.withCredentials authEntity values) nonce = server.isNonceValid m nonce := by
  have hfields : callIdField ≠ authEntity.field ∧ fromField ≠ authEntity.field := by
    cases authEntity <;> decide
  unfold Authenticator.isNonceValid tagOf
  rw [getHeaderValue_withCredentials m authEntity values 0 hfields.1,
    getHeaderValue_withCredentials m authEntity values 0 hfields.2]

/-- Among headers that are not empty, each is read. -/
theorem mem_liveValues_withCredentials {before : List Text} (hbefore : ∀ v ∈ before, v ≠ [])
    {value : Text} (hvalue : value ≠ []) (after : List Text) :
    value ∈ (m.withCredentials authEntity (before ++ value :: after)).liveValues authEntity.field := by
  unfold liveValues
  rw [headerValues_withCredentials, takeWhile_append_of_pos (by simpa using hbefore),
    takeWhile_cons_of_pos (by simpa using hvalue)]
  simp

end Carried

/-! ## Which credentials are accepted -/

namespace Credentials

variable {md5 : NetMd5Codec} {c : Credentials}

theorem encodedA1_eq (nonce cnonce : Text) :
    encodedA1 md5 (buildMd5UserPasswordDigest md5 c.user c.realm c.password) c.algorithm nonce cnonce =
      buildMd5UserPasswordDigest md5 c.user c.realm c.password := by
  have hfixed : caseEq md5Algorithm md5SessionAlgorithm = false ∧
      caseEq [] md5SessionAlgorithm = false := ⟨by decide, rfl⟩
  unfold encodedA1 algorithm
  cases c.namesAlgorithm <;> simp [hfixed.1, hfixed.2]

theorem response_eq (method : Text) : c.response md5 method = md5.hash (c.signedText md5 method) := by
  rw [response, buildMd5Digest, encodedA1_eq, signedText]

theorem header_ne_nil (method : Text) : c.header md5 method ≠ [] := by
  have hscheme : digestScheme ≠ [] := by decide
  rw [header, digestField]
  simp [hscheme]

theorem digestData_header (hgiven : c.Given) (hframed : c.Framed) (method : Text) :
    digestData (c.header md5 method) =
      { user := c.user, realm := c.realm, nonce := c.nonce, response := c.response md5 method
        uri := c.uri, cnonce := c.cnonce, nonceCount := c.nonceCount
        qop := if c.qop.isSome then qopAuth else []
        userBase := (splitUser c.user).1, instrument := (splitUser c.user).2 } := by
  have hne : qopAuth ≠ [] := by decide
  rw [header, digestData_digestField (readable_arguments md5 method hgiven hframed)]
  simp only [arguments, DigestData.mk.injEq, true_and, and_true]
  rcases Option.eq_none_or_eq_some c.qop with hqop | ⟨q, hqop⟩
  · simp [cnonce, hqop]
  · simp [hqop, hne]

/-- With `qop`, and without, the attributes fit together. -/
theorem verifyQopConsistency_header (hgiven : c.Given) :
    verifyQopConsistency c.cnonce c.nonceCount (if c.qop.isSome then qopAuth else []) =
      if c.qop.isSome then .hasAuth else .empty := by
  have hauth : parseQopValue qopAuth = .hasAuth := by decide
  cases hqop : c.qop with
  | none =>
    simp [verifyQopConsistency, parseQopValue, cnonce, nonceCount, hqop]
  | some q =>
    obtain ⟨hcnonce, hcount⟩ := hgiven.qop q hqop
    simp [verifyQopConsistency, hauth, cnonce, nonceCount, hqop, hcnonce, hcount]

end Credentials

namespace Authenticator

variable {server : Authenticator} {m : SipMessage} {c : Credentials}

/-- The data of the credentials pass the first checks. -/
theorem usable_header (hgiven : c.Given) (hframed : c.Framed) (hrealm : c.realm = server.realm)
    (hnonce : server.isNonceValid m c.nonce = true) (method : Text) :
    server.usable m (digestData (c.header server.md5 method)) = true := by
  unfold usable
  rw [Credentials.digestData_header hgiven hframed]
  dsimp only
  rw [Credentials.verifyQopConsistency_header hgiven, hrealm, hnonce]
  cases c.qop <;> simp

/-- With the right password the server computes the response over the attributes that it
has read, where a missing `qop` is an empty one. -/
theorem verified_header_iff (hgiven : c.Given) (hframed : c.Framed) {authEntity : HttpEndpointEnum} :
    server.verified m (digestData (c.header server.md5 m.getRequestMethod)) c.password authEntity =
        true ↔ ∃ value ∈ m.liveValues authEntity.field, (digestData value).response =
        server.md5.hash (responseText
          (buildMd5UserPasswordDigest server.md5 c.user c.realm c.password) c.nonce c.cnonce
          c.nonceCount (some (if c.qop.isSome then qopAuth else []))
          (encodedA2 server.md5 m.getRequestMethod c.uri)) := by
  have hpassword : cString c.password = c.password :=
    cString_eq_self (hgiven.noNul c.password (by simp))
  have hplain : caseEq [] md5SessionAlgorithm = false := rfl
  unfold verified verifyMd5Authorization
  rw [Credentials.digestData_header hgiven hframed]
  simp only [hpassword, hframed.uri, if_false, buildMd5Digest, encodedA1, hplain,
    Bool.false_eq_true, any_eq_true, beq_iff_eq]

/-- With `qop` the server computes the response of the client. -/
theorem verified_header (hgiven : c.Given) (hframed : c.Framed) {authEntity : HttpEndpointEnum}
    (hqop : c.qop ≠ none)
    (hmem : c.header server.md5 m.getRequestMethod ∈ m.liveValues authEntity.field) :
    server.verified m (digestData (c.header server.md5 m.getRequestMethod)) c.password authEntity =
      true := by
  refine (verified_header_iff hgiven hframed).mpr ⟨_, hmem, ?_⟩
  rw [Credentials.digestData_header hgiven hframed, Credentials.response_eq, Credentials.signedText]
  obtain ⟨q, hq⟩ := Option.ne_none_iff_exists'.mp hqop
  simp [hq]

/-- Without `qop` it computes another one. -/
theorem not_verified_header (hgiven : c.Given) (hframed : c.Framed) {authEntity : HttpEndpointEnum}
    (hideal : server.md5.Ideal [c.signedText server.md5 m.getRequestMethod]) (hqop : c.qop = none)
    (halone : m.liveValues authEntity.field = [c.header server.md5 m.getRequestMethod]) :
    server.verified m (digestData (c.header server.md5 m.getRequestMethod)) c.password authEntity =
      false := by
  rw [Bool.eq_false_iff]
  intro hverified
  obtain ⟨value, hvalue, hresponse⟩ := (verified_header_iff hgiven hframed).mp hverified
  rw [halone, mem_singleton] at hvalue
  rw [hvalue, Credentials.digestData_header hgiven hframed, Credentials.response_eq] at hresponse
  have htext := hideal _ (by simp) _ hresponse.symm
  rw [Credentials.signedText] at htext
  have hinj := (responseText_inj rfl rfl htext).2.2
  simp [hqop, qopText] at hinj

/-- The proxy goes by the comparison of the responses, where the record of the user has
the password of the client. -/
theorem isSome_authenticate_header (hgiven : c.Given) (hframed : c.Framed)
    (hrealm : c.realm = server.realm) (hnonce : server.isNonceValid m c.nonce = true)
    (huser : (server.getCredential (splitUser c.user).1 server.realm).map (·.2.1) = some c.password) :
    (server.authenticate m (digestData (c.header server.md5 m.getRequestMethod))).isSome =
      server.verified m (digestData (c.header server.md5 m.getRequestMethod)) c.password .proxy := by
  have hbase : (digestData (c.header server.md5 m.getRequestMethod)).userBase = (splitUser c.user).1 := by
    rw [Credentials.digestData_header hgiven hframed]
  obtain ⟨⟨userUrl, passToken, authType⟩, hfound, rfl⟩ := Option.map_eq_some_iff.mp huser
  unfold authenticate
  rw [if_pos (usable_header hgiven hframed hrealm hnonce _), hbase, hfound]
  dsimp only
  split <;> simp_all

theorem isSome_authorize_header {toUri : Url} (hgiven : c.Given) (hframed : c.Framed)
    (hrealm : c.realm = server.realm) (hnonce : server.isNonceValid m c.nonce = true)
    (hto : (server.getCredentialOfUri toUri server.realm).map (·.2.1) = some c.password) :
    (server.authorize toUri m (digestData (c.header server.md5 m.getRequestMethod))).isSome =
      server.verified m (digestData (c.header server.md5 m.getRequestMethod)) c.password .server := by
  have hread : (digestData (c.header server.md5 m.getRequestMethod)).realm = server.realm := by
    rw [Credentials.digestData_header hgiven hframed, hrealm]
  obtain ⟨⟨userId, passToken, authType⟩, hfound, rfl⟩ := Option.map_eq_some_iff.mp hto
  unfold authorize
  rw [if_pos (usable_header hgiven hframed hrealm hnonce _), hread, hfound]
  dsimp only
  split <;> simp_all

/-! ## Why an identity is reported -/

/-- A response was computed from the first digest. -/
def ComputedFrom (md5 : NetMd5Codec) (response a1 : Text) : Prop :=
  ∃ rest, response = md5.hash (md5.hash a1 ++ byte ':' :: rest)

/-- A record of the identity, for the realm, and a header with a response that was computed
from the password in it.  Where nothing else has the two digests, it can have been computed
from no other A1. -/
def Vouched (server : Authenticator) (m : SipMessage) (identity : Text) : Prop :=
  ∃ entity ∈ server.entities, entity.realm = server.realm ∧
    (Url.ofText entity.identity .nameAddr).getIdentity = identity ∧
    ∃ value ∈ m.liveValues proxyAuthorizationField, ∃ user rest : Text,
      let a1 := a1Text user server.realm (cString entity.password)
      (digestData value).response = server.md5.hash (server.md5.hash a1 ++ byte ':' :: rest) ∧
      (server.md5.Ideal [a1, server.md5.hash a1 ++ byte ':' :: rest] →
        ∀ a, ComputedFrom server.md5 (digestData value).response a → a = a1)

theorem eq_of_computedFrom {md5 : NetMd5Codec} {response a1 a rest : Text}
    (hresponse : response = md5.hash (md5.hash a1 ++ byte ':' :: rest))
    (hideal : md5.Ideal [a1, md5.hash a1 ++ byte ':' :: rest]) (h : ComputedFrom md5 response a) :
    a = a1 := by
  obtain ⟨rest', hrest'⟩ := h
  have htext := hideal _ (by simp) _ (hrest'.symm.trans hresponse)
  have hhash := (append_inj htext (by rw [md5.length_hash, md5.length_hash])).1
  exact hideal a1 (by simp) a hhash

/-- An identity that is authenticated is vouched for by a digest. -/
theorem vouched_of_isAuthenticated {identity : Text} (h : server.isAuthenticated m = some identity) :
    server.Vouched m identity := by
  obtain ⟨named, hnamed, hauth⟩ := exists_of_findSome?_eq_some h
  -- all checks of the header that gave the identity
  unfold authenticate at hauth
  split at hauth
  · next husable =>
    rw [usable, Bool.and_eq_true, Bool.and_eq_true, beq_iff_eq] at husable
    split at hauth
    · next userUrl passToken authType hfound =>
      split at hauth
      · next hverified =>
        obtain rfl := Option.some.inj hauth
        obtain ⟨entity, hentity, hrecord⟩ := Option.map_eq_some_iff.mp hfound
        obtain ⟨hentity, hrealm⟩ := Option.filter_eq_some_iff.mp hentity
        rw [Prod.mk.injEq, Prod.mk.injEq] at hrecord
        obtain ⟨rfl, rfl, rfl⟩ := hrecord
        unfold verified verifyMd5Authorization at hverified
        simp only [any_eq_true, beq_iff_eq] at hverified
        obtain ⟨value, hvalue, hresponse⟩ := hverified
        refine ⟨entity, mem_of_find?_eq_some hentity, by simpa using hrealm, rfl, value, hvalue,
          (digestData named).user, ?_⟩
        have hplain : caseEq [] md5SessionAlgorithm = false := rfl
        simp only [buildMd5Digest, responseText, encodedA1, hplain, Bool.false_eq_true, if_false,
          buildMd5UserPasswordDigest, ← husable.1.1, append_assoc, cons_append] at hresponse
        exact ⟨_, hresponse, fun hideal a ha => eq_of_computedFrom hresponse hideal ha⟩
      · exact absurd hauth (by simp)
    · exact absurd hauth (by simp)
  · exact absurd hauth (by simp)

/-! ## The result -/

/-- **Digest authentication.**  Credentials that the header can hold, with a valid nonce and
the stored password, are accepted by both servers among any other credentials exactly when
they use `qop=auth`; and the proxy reports an identity only if it is vouched for. -/
theorem accepted_iff_and_vouched {toUri : Url} (hgiven : c.Given) (hframed : c.Framed)
    (hrealm : c.realm = server.realm) (hnonce : server.isNonceValid m c.nonce = true)
    (huser : (server.getCredential (splitUser c.user).1 server.realm).map (·.2.1) = some c.password)
    (hto : (server.getCredentialOfUri toUri server.realm).map (·.2.1) = some c.password)
    (hideal : server.md5.Ideal [c.signedText server.md5 m.getRequestMethod]) :
    ((∀ before after : List Text, (∀ v ∈ before, v ≠ []) →
        (server.isAuthenticated (m.withCredentials .proxy
          (before ++ c.header server.md5 m.getRequestMethod :: after))).isSome = true ∧
        (server.isAuthorized toUri (m.withCredentials .server
          (before ++ c.header server.md5 m.getRequestMethod :: after))).isSome = true) ↔
      c.qop ≠ none) ∧
    ∀ request identity, server.isAuthenticated request = some identity →
      server.Vouched request identity := by
  have hvalid (authEntity : HttpEndpointEnum) (values : List Text) :
      server.isNonceValid (m.withCredentials authEntity values) c.nonce = true :=
    (isNonceValid_withCredentials m authEntity server values c.nonce).trans hnonce
  refine ⟨⟨?_, ?_⟩, fun request identity h => vouched_of_isAuthenticated h⟩
  · -- alone, credentials without `qop` are turned down
    intro haccepted hqop
    have halone := (haccepted [] [] (by simp)).1
    rw [nil_append] at halone
    have hlive : (m.withCredentials .proxy [c.header server.md5 m.getRequestMethod]).liveValues
        proxyAuthorizationField = [c.header server.md5 m.getRequestMethod] := by
      have hvalues := headerValues_withCredentials m .proxy [c.header server.md5 m.getRequestMethod]
      rw [liveValues, show proxyAuthorizationField = HttpEndpointEnum.proxy.field from rfl, hvalues]
      simp [Credentials.header_ne_nil]
    have hverified : server.verified (m.withCredentials .proxy [c.header server.md5 m.getRequestMethod])
        (digestData (c.header server.md5 m.getRequestMethod)) c.password .proxy = false :=
      not_verified_header hgiven hframed hideal hqop hlive
    have hsome := isSome_authenticate_header (m := m.withCredentials .proxy
      [c.header server.md5 m.getRequestMethod]) hgiven hframed hrealm (hvalid _ _) huser
    rw [isAuthenticated, hlive, findSome?_singleton] at halone
    exact absurd (halone.symm.trans (hsome.trans hverified)) (by simp)
  · intro hqop before after hbefore
    have hmem (authEntity : HttpEndpointEnum) := mem_liveValues_withCredentials m authEntity hbefore
      (@Credentials.header_ne_nil server.md5 c m.getRequestMethod) after
    constructor
    · rw [isAuthenticated, findSome?_isSome_iff]
      refine ⟨_, hmem .proxy, ?_⟩
      exact (isSome_authenticate_header hgiven hframed hrealm (hvalid _ _) huser).trans
        (verified_header hgiven hframed hqop (hmem .proxy))
    · unfold isAuthorized
      split
      · rw [findSome?_isSome_iff]
        refine ⟨_, hmem .server, ?_⟩
        exact (isSome_authorize_header hgiven hframed hrealm (hvalid _ _) hto).trans
          (verified_header hgiven hframed hqop (hmem .server))
      · rfl

/-! ## Two clients -/

/-- A request of user 200. -/
def testRequest : SipMessage where
  firstHeaderLine := text "REGISTER sip:example.com SIP/2.0"
  nameValues :=
    [(text "FROM", text "<sip:200@example.com>;tag=30543f34"), (text "CALL-ID", text "call-1")]

/-- Credentials of user 200, for a nonce of that request. -/
def testClient (qop : Option (Text × Text)) : Credentials where
  user := text "200"
  password := text "1234"
  realm := text "example.com"
  nonce := text "f5918ba63f89824a258e4e187257ddb046a55d33"
  uri := text "sip:example.com"
  namesAlgorithm := true
  opaqueText := []
  qop := qop

def testDigest (digit : Char) : Text := replicate 32 (byte digit)

/-- What is signed between them: the nonce, the password, the method, and the response
without and with `qop`. -/
def testTable : List (Text × Text) :=
  [(text "46a55d33call-1,30543f34,secret,example.com", text "f5918ba63f89824a258e4e187257ddb0"),
    (text "200:example.com:1234", testDigest '1'),
    (text "REGISTER:sip:example.com", testDigest '2'),
    (testDigest '1' ++ text ":f5918ba63f89824a258e4e187257ddb046a55d33:" ++ testDigest '2',
      testDigest '3'),
    (testDigest '1' ++ text ":f5918ba63f89824a258e4e187257ddb046a55d33:00000001:0a4f113b:auth:" ++
      testDigest '2', testDigest '4')]

theorem testTable_spec :
    ∀ entry ∈ testTable, entry.2.length = 32 ∧ ∀ c ∈ entry.2, isHexLower c = true := by
  decide

/-- A server with the record of user 200. -/
def testServer : Authenticator where
  md5 := NetMd5Codec.ofTable testTable testTable_spec
  secret := text "secret"
  now := 1185242500
  realm := text "example.com"
  nonceExpiration := 300
  entities := [⟨text "200@example.com", text "200", text "example.com", text "1234", text "DIGEST", []⟩]
  useCredentialDB := true

/-- The address that is registered. -/
def testAddress : Url := { userId := text "200", hostAddress := text "example.com" }

/-- A client nonce and a nonce count. -/
def testQop : Option (Text × Text) := some (text "0a4f113b", text "00000001")

theorem testClient_given : (testClient testQop).Given ∧ (testClient none).Given := by
  refine ⟨⟨by decide, by decide, ?_⟩, ⟨by decide, by decide, ?_⟩⟩
  · rintro q ⟨⟩
    exact ⟨by decide, by decide⟩
  · rintro q ⟨⟩

theorem testClient_framed : (testClient testQop).Framed ∧ (testClient none).Framed :=
  ⟨⟨by decide, by decide, by decide, by decide⟩,
    ⟨by decide, by decide, by decide, by decide⟩⟩

theorem testClient_ideal :
    testServer.md5.Ideal [(testClient testQop).signedText testServer.md5 testRequest.getRequestMethod] :=
  NetMd5Codec.ideal_ofTable testTable testTable_spec (by decide) (by decide)
    (by decide +kernel)

/-- With `qop`, the client is let in behind credentials of another kind. -/
theorem testClient_accepted :
    (testServer.isAuthenticated (testRequest.withCredentials .proxy
      [text "Basic MjAw",
        (testClient testQop).header testServer.md5 testRequest.getRequestMethod])).isSome = true ∧
    (testServer.isAuthorized testAddress (testRequest.withCredentials .server
      [text "Basic MjAw",
        (testClient testQop).header testServer.md5 testRequest.getRequestMethod])).isSome = true := by
  refine (accepted_iff_and_vouched testClient_given.1 testClient_framed.1 rfl (by decide +kernel)
    (by decide) (by decide) testClient_ideal).1.mpr (by decide) [text "Basic MjAw"] []
    (by decide)

/-- Without `qop` the same client is turned down by both servers. -/
theorem testClient_refused :
    (testClient none).Given ∧
    testServer.isNonceValid testRequest (testClient none).nonce = true ∧
    (testServer.getCredential (text "200") (text "example.com")).map (·.2.1) =
      some (testClient none).password ∧
    (testServer.getCredentialOfUri testAddress (text "example.com")).map (·.2.1) =
      some (testClient none).password ∧
    testServer.isAuthenticated (testRequest.withCredentials .proxy
      [(testClient none).header testServer.md5 testRequest.getRequestMethod]) = none ∧
    testServer.isAuthorized testAddress (testRequest.withCredentials .server
      [(testClient none).header testServer.md5 testRequest.getRequestMethod]) = none :=
  ⟨testClient_given.2, by decide +kernel, by decide, by decide, by decide +kernel,
    by decide +kernel⟩

end Authenticator

end SipXRouter
