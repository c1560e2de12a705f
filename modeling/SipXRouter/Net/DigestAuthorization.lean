import SipXRouter.Net.NetAttributeTokenizer
import SipXRouter.Net.NetMd5Codec
import SipXRouter.Net.SipMessage

/-!
# Digest credentials

A client puts a response, the digest of its password and of what it sends, into a
header of the request; a server that knows the password computes the response again
from the other attributes of the header.

Three layers have to agree on what it means that no `qop` is used.  In the header the
attribute is missing.  `getDigestAuthorizationData` leaves the string it is read into
empty.  `buildMd5Digest` takes a pointer and tests it against `NULL`, which the data of
an empty string is not.  Here the pointer is an `Option`.
-/

namespace SipXRouter

open List NetAttributeTokenizer

variable {d : DigestArguments} {name : String} {value : Text}

namespace HttpMessage

/-- `HTTP_AUTHORIZATION_FIELD`. -/
def authorizationField : Text := text "AUTHORIZATION"

/-- `HTTP_PROXY_AUTHORIZATION_FIELD`. -/
def proxyAuthorizationField : Text := text "PROXY-AUTHORIZATION"

/-- Which of the two headers is meant, that for a server or that for a proxy. -/
inductive HttpEndpointEnum where
  | server
  | proxy
deriving DecidableEq

/-- The header of the credentials for an endpoint. -/
def HttpEndpointEnum.field : HttpEndpointEnum → Text
  | .server => authorizationField
  | .proxy => proxyAuthorizationField

/-- `HTTP_DIGEST_AUTHENTICATION`. -/
def digestScheme : Text := text "Digest"

/-- `HTTP_QOP_AUTH`. -/
def qopAuth : Text := text "auth"

/-! ## Writing -/

/-- What `setDigestAuthorizationData` is given.  An empty text stands for a `NULL` as well. -/
structure DigestArguments where
  user : Text
  realm : Text
  nonce : Text
  uri : Text
  response : Text
  algorithm : Text
  cnonce : Text
  opaqueText : Text
  qop : Text
  nonceCount : Text

/-- An attribute with its value in quotes. -/
def quotedAttribute (lead name : String) (value : Text) : Attribute :=
  ⟨text lead, text name, value, true⟩

def bareAttribute (name : String) (value : Text) : Attribute :=
  ⟨text ", ", text name, value, false⟩

/-- An attribute that is written if the text is not empty. -/
def unlessEmpty (value : Text) (a : Attribute) : List Attribute := if value = [] then [] else [a]

/-- The attributes that `setDigestAuthorizationData` writes. -/
def digestAttributes (d : DigestArguments) : List Attribute :=
  unlessEmpty d.user (quotedAttribute " " "username" d.user) ++
  [quotedAttribute ", " "realm" d.realm] ++
  unlessEmpty d.nonce (quotedAttribute ", " "nonce" d.nonce) ++
  unlessEmpty d.uri (quotedAttribute ", " "uri" d.uri) ++
  unlessEmpty d.response (quotedAttribute ", " "response" d.response) ++
  unlessEmpty d.algorithm (bareAttribute "algorithm" d.algorithm) ++
  (if d.qop = [] then [] else unlessEmpty d.cnonce (quotedAttribute ", " "cnonce" d.cnonce)) ++
  unlessEmpty d.opaqueText (quotedAttribute ", " "opaque" d.opaqueText) ++
  unlessEmpty d.qop (bareAttribute "qop" d.qop) ++
  unlessEmpty d.nonceCount (bareAttribute "nc" d.nonceCount)

/-- The header that `setDigestAuthorizationData` adds. -/
def digestField (d : DigestArguments) : Text :=
  digestScheme ++ (digestAttributes d).flatMap Attribute.toText

/-! ## Reading -/

/-- What `getDigestAuthorizationData` delivers. -/
structure DigestData where
  user : Text
  realm : Text
  nonce : Text
  response : Text
  uri : Text
  cnonce : Text
  nonceCount : Text
  qop : Text
  userBase : Text
  instrument : Text
deriving DecidableEq

/-- What is appended for the attributes of one name, case aside. -/
def appended (f : Text → Text) (name : String) (attributes : List (Text × Text)) : Text :=
  (attributes.filter fun a => caseEq a.1 (text name)).flatMap fun a => f a.2

/-- The user and the instrument, which stands behind the last slash. -/
def splitUser (value : Text) : Text × Text :=
  match value.reverse.dropWhile (· != byte '/') with
  | [] => (value, [])
  | _ :: base => (base.reverse, (value.reverse.takeWhile (· != byte '/')).reverse)

/-- The attributes behind the scheme `Digest`; another scheme leaves all empty. -/
def credentialsOf (value : Text) : List (Text × Text) :=
  match getNextAttribute (cString value) with
  | some (scheme, _, rest) => if caseEq scheme digestScheme then attributes rest else []
  | none => []

/-- What `getDigestAuthorizationData` reads from a header.  The names of its chain of
comparisons are different, so that each attribute goes to one of the texts. -/
def digestData (value : Text) : DigestData :=
  let as := credentialsOf value
  { user := appended id "username" as
    realm := appended id "realm" as
    nonce := appended id "nonce" as
    response := appended id "response" as
    uri := appended id "uri" as
    cnonce := appended id "cnonce" as
    nonceCount := appended id "nc" as
    qop := appended id "qop" as
    userBase := appended (fun value => (splitUser value).1) "username" as
    instrument := appended (fun value => (splitUser value).2) "username" as }

/-! ## The response -/

/-- `HTTP_MD5_ALGORITHM`. -/
def md5Algorithm : Text := text "MD5"

/-- `HTTP_MD5_SESSION_ALGORITHM`. -/
def md5SessionAlgorithm : Text := text "MD5-sess"

/-- A1. -/
def a1Text (user realm password : Text) : Text :=
  user ++ byte ':' :: realm ++ byte ':' :: password

def buildMd5UserPasswordDigest (md5 : NetMd5Codec) (user realm password : Text) : Text :=
  md5.hash (a1Text user realm password)

/-- The part of the response that is there if `qop` is no `NULL`. -/
def qopText (cnonce nonceCount : Text) : Option Text → Text
  | none => []
  | some qop => byte ':' :: nonceCount ++ byte ':' :: cnonce ++ byte ':' :: qop

/-- What the response is the digest of. -/
def responseText (encodedA1 nonce cnonce nonceCount : Text) (qop : Option Text)
    (encodedA2 : Text) : Text :=
  encodedA1 ++ byte ':' :: nonce ++ qopText cnonce nonceCount qop ++ byte ':' :: encodedA2

/-- `encodedA1`: with the session algorithm the nonces go into it. -/
def encodedA1 (md5 : NetMd5Codec) (userPasswordDigest algorithm nonce cnonce : Text) : Text :=
  if caseEq algorithm md5SessionAlgorithm then
    md5.hash (userPasswordDigest ++ byte ':' :: nonce ++ byte ':' :: cnonce)
  else userPasswordDigest

def encodedA2 (md5 : NetMd5Codec) (method uri : Text) : Text := md5.hash (method ++ byte ':' :: uri)

/-- The digest a client answers with, with or without `qop`. -/
def buildMd5Digest (md5 : NetMd5Codec)
    (userPasswordDigest algorithm nonce cnonce nonceCount : Text) (qop : Option Text)
    (method uri : Text) : Text :=
  md5.hash (responseText (encodedA1 md5 userPasswordDigest algorithm nonce cnonce) nonce cnonce
    nonceCount qop (encodedA2 md5 method uri))

def getRequestMethod (m : HttpMessage) : Text :=
  trim (oneOf " \t\n\r") (m.getFirstHeaderLinePart 0)

/-! ## Credentials are read back -/

/-- Arguments whose attributes are read as they were meant: C strings that may stand
where they are put. -/
structure DigestArguments.Readable (d : DigestArguments) : Prop where
  quoted : ∀ v ∈ [d.user, d.realm, d.nonce, d.uri, d.response, d.cnonce, d.opaqueText], Quotable v
  bare : ∀ v ∈ [d.algorithm, d.qop, d.nonceCount], v = [] ∨ Bare v
  noNul : ∀ v ∈ [d.user, d.realm, d.nonce, d.uri, d.response, d.cnonce, d.opaqueText, d.algorithm,
    d.qop, d.nonceCount], ∀ c ∈ v, (c != 0) = true

/-- The names of the attributes. -/
def digestNames : List String :=
  ["username", "realm", "nonce", "uri", "response", "algorithm", "cnonce", "opaque", "qop", "nc"]

theorem digestNames_spec (h : name ∈ digestNames) :
    text name ≠ [] ∧ ∀ c ∈ text name, endsName c = false ∧ (c != 0) = true := by
  have hall : ∀ n ∈ digestNames, text n ≠ [] ∧ ∀ c ∈ text n, endsName c = false ∧ (c != 0) = true := by
    decide
  exact hall name h

theorem caseEq_digestNames {name' : String} (h : name ∈ digestNames) (h' : name' ∈ digestNames) :
    caseEq (text name) (text name') = decide (name = name') := by
  have hall : ∀ n ∈ digestNames, ∀ n' ∈ digestNames, caseEq (text n) (text n') = decide (n = n') := by
    decide
  exact hall name h name' h'

/-- An attribute that `setDigestAuthorizationData` writes. -/
structure Written (a : Attribute) : Prop where
  readable : a.Readable
  lead_ne_nil : a.lead ≠ []
  noNul : ∀ c ∈ a.toText, (c != 0) = true

theorem written_quotedAttribute {lead : String} (hlead : lead ∈ [" ", ", "])
    (hname : name ∈ digestNames) (hvalue : Quotable value)
    (hnul : ∀ c ∈ value, (c != 0) = true) : Written (quotedAttribute lead name value) := by
  have hleads : ∀ l ∈ [" ", ", "], text l ≠ [] ∧ ∀ c ∈ text l, isSeparator c = true ∧ (c != 0) = true := by
    decide
  obtain ⟨hlead', hlead⟩ := hleads lead hlead
  obtain ⟨hname', hname⟩ := digestNames_spec hname
  refine ⟨⟨fun c hc => (hlead c hc).1, hname', fun c hc => (hname c hc).1, hvalue⟩, hlead', ?_⟩
  have hequals : (nameValueSeparator != 0) = true ∧ (byte '"' != 0) = true := by decide
  intro c hc
  simp only [Attribute.toText, quotedAttribute, if_true, mem_append, mem_cons,
    not_mem_nil, or_false] at hc
  rcases hc with (hc | hc) | rfl | (rfl | hc) | rfl
  · exact (hlead c hc).2
  · exact (hname c hc).2
  · exact hequals.1
  · exact hequals.2
  · exact hnul c hc
  · exact hequals.2

theorem written_bareAttribute (hname : name ∈ digestNames)
    (hvalue : Bare value) (hnul : ∀ c ∈ value, (c != 0) = true) :
    Written (bareAttribute name value) := by
  have hleads : text ", " ≠ [] ∧ ∀ c ∈ text ", ", isSeparator c = true ∧ (c != 0) = true := by
    decide
  obtain ⟨hname', hname⟩ := digestNames_spec hname
  refine ⟨⟨fun c hc => (hleads.2 c hc).1, hname', fun c hc => (hname c hc).1, hvalue⟩, hleads.1, ?_⟩
  have hequals : (nameValueSeparator != 0) = true := by decide
  intro c hc
  simp only [Attribute.toText, bareAttribute, Bool.false_eq_true, if_false, mem_append,
    mem_cons] at hc
  rcases hc with (hc | hc) | rfl | hc
  · exact (hleads.2 c hc).2
  · exact (hname c hc).2
  · exact hequals
  · exact hnul c hc

theorem written_unlessEmpty {a : Attribute} (ha : value ≠ [] → Written a) :
    ∀ b ∈ unlessEmpty value a, Written b := by
  unfold unlessEmpty
  split
  · exact fun b hb => absurd hb not_mem_nil
  · next hne =>
    intro b hb
    rw [mem_singleton.mp hb]
    exact ha hne

theorem written_digestAttributes (hd : d.Readable) : ∀ a ∈ digestAttributes d, Written a := by
  have hquoted {lead name : String} (hlead : lead ∈ [" ", ", "]) (hname : name ∈ digestNames)
      {v : Text} (hv : v ∈ [d.user, d.realm, d.nonce, d.uri, d.response, d.cnonce, d.opaqueText]) :
      Written (quotedAttribute lead name v) :=
    written_quotedAttribute hlead hname (hd.quoted v hv) (hd.noNul v (by simp at hv ⊢; tauto))
  have hcomma {name : String} (hname : name ∈ digestNames) {v : Text}
      (hv : v ∈ [d.user, d.realm, d.nonce, d.uri, d.response, d.cnonce, d.opaqueText]) :
      ∀ a ∈ unlessEmpty v (quotedAttribute ", " name v), Written a :=
    written_unlessEmpty fun _ => hquoted (by simp) hname hv
  have hbare {name : String} (hname : name ∈ digestNames) {v : Text}
      (hv : v ∈ [d.algorithm, d.qop, d.nonceCount]) :
      ∀ a ∈ unlessEmpty v (bareAttribute name v), Written a :=
    written_unlessEmpty fun hne => written_bareAttribute hname ((hd.bare v hv).resolve_left hne)
      (hd.noNul v (by simp at hv ⊢; tauto))
  intro a ha
  simp only [digestAttributes, mem_append] at ha
  rcases ha with ((((((((ha | ha) | ha) | ha) | ha) | ha) | ha) | ha) | ha) | ha
  · exact written_unlessEmpty
      (fun _ => hquoted (by simp) (by simp [digestNames]) (by simp)) a ha
  · rw [mem_singleton.mp ha]
    exact hquoted (by simp) (by simp [digestNames]) (by simp)
  · exact hcomma (by simp [digestNames]) (by simp) a ha
  · exact hcomma (by simp [digestNames]) (by simp) a ha
  · exact hcomma (by simp [digestNames]) (by simp) a ha
  · exact hbare (by simp [digestNames]) (by simp) a ha
  · split at ha
    · exact absurd ha not_mem_nil
    · exact hcomma (by simp [digestNames]) (by simp) a ha
  · exact hcomma (by simp [digestNames]) (by simp) a ha
  · exact hbare (by simp [digestNames]) (by simp) a ha
  · exact hbare (by simp [digestNames]) (by simp) a ha

/-- The parser reads back the attributes the field was written from. -/
theorem credentialsOf_digestField (hd : d.Readable) :
    credentialsOf (digestField d) = (digestAttributes d).map fun a => (a.name, a.value) := by
  have hwritten := written_digestAttributes hd
  have hscheme : digestScheme ≠ [] ∧ ∀ c ∈ digestScheme, endsName c = false ∧ (c != 0) = true := by
    decide
  have hne : digestAttributes d ≠ [] := by simp [digestAttributes]
  have hstring : cString (digestField d) = digestField d := by
    refine cString_eq_self fun c hc => ?_
    rcases mem_append.mp hc with hc | hc
    · exact (hscheme.2 c hc).2
    · obtain ⟨a, ha, hca⟩ := mem_flatMap.mp hc
      exact (hwritten a ha).noNul c hca
  unfold credentialsOf
  rw [hstring, digestField]
  obtain ⟨a, as, has⟩ := exists_cons_of_ne_nil hne
  rw [has] at hwritten ⊢
  have ha := hwritten a (by simp)
  have hbare : { a with lead := [] }.Readable :=
    ⟨by simp, ha.readable.name_ne_nil, ha.readable.name, ha.readable.value⟩
  rw [flatMap_cons, getNextAttribute_word hscheme.1 (fun c hc => (hscheme.2 c hc).1) ha.readable
    ha.lead_ne_nil]
  have htail : ∀ b ∈ as, b.Readable ∧ b.lead ≠ [] := fun b hb =>
    ⟨(hwritten b (by simp [hb])).readable, (hwritten b (by simp [hb])).lead_ne_nil⟩
  have hread := attributes_flatMap_toText hbare htail
  rw [flatMap_cons] at hread
  simp [hread]

/-- What the attributes of one name contribute, name by name. -/
theorem appended_digestAttributes {f : Text → Text} (hf : f [] = [])
    (hname : name ∈ digestNames) (d : DigestArguments) :
    appended f name ((digestAttributes d).map fun a => (a.name, a.value)) =
      (if "username" = name then f d.user else []) ++ (if "realm" = name then f d.realm else []) ++
      (if "nonce" = name then f d.nonce else []) ++ (if "uri" = name then f d.uri else []) ++
      (if "response" = name then f d.response else []) ++
      (if "algorithm" = name then f d.algorithm else []) ++
      (if d.qop = [] then [] else if "cnonce" = name then f d.cnonce else []) ++
      (if "opaque" = name then f d.opaqueText else []) ++ (if "qop" = name then f d.qop else []) ++
      (if "nc" = name then f d.nonceCount else []) := by
  have happend (as bs : List Attribute) :
      appended f name ((as ++ bs).map fun a => (a.name, a.value)) =
        appended f name (as.map fun a => (a.name, a.value)) ++
          appended f name (bs.map fun a => (a.name, a.value)) := by
    simp [appended]
  have hone {n : String} (hn : n ∈ digestNames) {a : Attribute} (ha : a.name = text n) :
      appended f name ([a].map fun a => (a.name, a.value)) = if n = name then f a.value else [] := by
    have hcase : caseEq a.name (text name) = decide (n = name) := by
      rw [ha, caseEq_digestNames hn hname]
    by_cases hne : n = name <;> simp [appended, hcase, hne]
  have hunless {n : String} (hn : n ∈ digestNames) {a : Attribute} (ha : a.name = text n) :
      appended f name ((unlessEmpty a.value a).map fun a => (a.name, a.value)) =
        if n = name then f a.value else [] := by
    unfold unlessEmpty
    split
    · next hvalue => simp [appended, hvalue, hf]
    · exact hone hn ha
  have hquoted {lead n : String} (hn : n ∈ digestNames) (v : Text) :
      appended f name ((unlessEmpty v (quotedAttribute lead n v)).map fun a => (a.name, a.value)) =
        if n = name then f v else [] := hunless (a := quotedAttribute lead n v) hn rfl
  have hbare {n : String} (hn : n ∈ digestNames) (v : Text) :
      appended f name ((unlessEmpty v (bareAttribute n v)).map fun a => (a.name, a.value)) =
        if n = name then f v else [] := hunless (a := bareAttribute n v) hn rfl
  rw [digestAttributes]
  simp only [happend]
  rw [hquoted (by simp [digestNames]), hone (by simp [digestNames] : "realm" ∈ digestNames) rfl,
    hquoted (by simp [digestNames]), hquoted (by simp [digestNames]),
    hquoted (by simp [digestNames]), hbare (by simp [digestNames]),
    hquoted (by simp [digestNames]), hbare (by simp [digestNames]), hbare (by simp [digestNames])]
  congr 4
  split
  · rfl
  · exact hquoted (by simp [digestNames]) _

/-- **Credentials are read back.** -/
theorem digestData_digestField (hd : d.Readable) :
    digestData (digestField d) =
      { user := d.user, realm := d.realm, nonce := d.nonce, response := d.response, uri := d.uri
        cnonce := if d.qop = [] then [] else d.cnonce
        nonceCount := d.nonceCount, qop := d.qop
        userBase := (splitUser d.user).1, instrument := (splitUser d.user).2 } := by
  have hread {f : Text → Text} (hf : f [] = []) {name : String} (hname : name ∈ digestNames) :=
    appended_digestAttributes hf hname d
  unfold digestData
  rw [credentialsOf_digestField hd]
  dsimp only
  rw [hread rfl (by simp [digestNames]), hread rfl (by simp [digestNames]),
    hread rfl (by simp [digestNames]), hread rfl (by simp [digestNames]),
    hread rfl (by simp [digestNames]), hread rfl (by simp [digestNames]),
    hread rfl (by simp [digestNames]), hread rfl (by simp [digestNames]),
    hread rfl (by simp [digestNames]), hread rfl (by simp [digestNames])]
  simp

/-! ## What the response stands for -/

/-- A response without `qop` takes up the nonce and nothing else; any text of another
`qop` is longer. -/
theorem responseText_inj {a1 a1' a2 a2' nonce nonce' cnonce cnonce' nonceCount nonceCount' : Text}
    {qop qop' : Option Text} (h1 : a1.length = a1'.length) (h2 : a2.length = a2'.length)
    (h : responseText a1 nonce cnonce nonceCount qop a2 =
      responseText a1' nonce' cnonce' nonceCount' qop' a2') : a1 = a1' ∧ a2 = a2' ∧
      nonce ++ qopText cnonce nonceCount qop = nonce' ++ qopText cnonce' nonceCount' qop' := by
  have hsplit (a b n q : Text) : a ++ byte ':' :: n ++ q ++ byte ':' :: b =
      a ++ (byte ':' :: (n ++ q ++ byte ':' :: b)) := by simp
  rw [responseText, responseText, hsplit, hsplit] at h
  obtain ⟨hfirst, h⟩ := append_inj h h1
  obtain ⟨hnonce, hlast⟩ := append_inj' (tail_eq_of_cons_eq h) (by simp [h2])
  exact ⟨hfirst, tail_eq_of_cons_eq hlast, hnonce⟩

end HttpMessage

namespace SipMessage

open HttpMessage

/-- What a `qop` value asks for. -/
inductive AuthQopValues where
  | empty
  | hasAuth
  | notSupported
deriving DecidableEq

/-- The pattern that `findToken("auth", ",")` builds. -/
def authTokenPattern : Pattern :=
  Pattern.cat [.alt .bol (Pattern.lit ","), Url.sws, Url.litNoCase "auth", Url.sws,
    .alt (Pattern.lit ",") .eol]

/-- Only the token `auth` is understood. -/
def parseQopValue (qop : Text) : AuthQopValues :=
  if qop = [] then .empty
  else if (Pattern.search authTokenPattern qop).isSome then .hasAuth
  else .notSupported

/-- With `auth` there must be a cnonce and a count. -/
def verifyQopConsistency (cnonce nonceCount qop : Text) : AuthQopValues :=
  match parseQopValue qop with
  | .hasAuth => if cnonce = [] ∨ nonceCount = [] then .notSupported else .hasAuth
  | .empty => if cnonce = [] ∧ nonceCount = [] then .empty else .notSupported
  | .notSupported => .notSupported

/-- `verifyMd5Authorization` for a request: any of the headers may hold the response. -/
def verifyMd5Authorization (md5 : NetMd5Codec) (m : SipMessage)
    (userId password nonce realm cnonce nonceCount : Text) (qop : Option Text) (uri : Text)
    (authEntity : HttpEndpointEnum) : Bool :=
  let referenceHash := buildMd5Digest md5 (buildMd5UserPasswordDigest md5 userId realm password) []
    nonce cnonce nonceCount qop m.getRequestMethod (if uri = [] then m.getRequestUri else uri)
  (m.liveValues authEntity.field).any fun value => (digestData value).response == referenceHash

end SipMessage

end SipXRouter
