import SipXRouter.Pattern
import SipXRouter.Net.HttpMessage

/-!
# URIs

`Url` parses and prints the URIs of request lines (`addr-spec`) and of header
fields (`name-addr`).  The regular expressions are those of the source, and the
parser walks over the text in the same order: display name, angle brackets,
scheme, user, host and port, path or URL parameters, header parameters, field
parameters, and a check that nothing is left.

## Design notes

* The parser reports an error by setting the scheme to `unknown`.  Only a missing
  host clears the parts read before.
* The source keeps URL and header parameters unparsed until they are asked for;
  here they are parsed at once, which no caller can tell apart.
* `gen_value_escape` appends two bytes from the address of a single `char`.  What
  the second one holds is not defined; it is the parameter `junk` of the printers.
-/

namespace SipXRouter

open List

/-- The supported schemes, in the order of the source's enumeration. -/
inductive Scheme where
  | unknown | sip | sips | http | https | ftp | file | mailto
deriving DecidableEq

namespace Scheme

/-- `Url::schemeName`. -/
def name : Scheme → Text
  | unknown => text "UNKNOWN-URL-SCHEME"
  | sip => text "sip"
  | sips => text "sips"
  | http => text "http"
  | https => text "https"
  | ftp => text "ftp"
  | file => text "file"
  | mailto => text "mailto"

/-- The scheme of the alternative that `SUPPORTED_SCHEMES` matched. -/
def ofIndex : Nat → Scheme
  | 1 => sip
  | 2 => sips
  | 3 => http
  | 4 => https
  | 5 => ftp
  | 6 => file
  | 7 => mailto
  | _ => unknown

/-- The schemes whose URIs have `//` before the host and a path behind it. -/
def hasPath : Scheme → Bool
  | http | https | ftp | file => true
  | _ => false

/-- `sip` or `sips`. -/
def isSip : Scheme → Bool
  | sip | sips => true
  | _ => false

end Scheme

/-- The two contexts a URI is read in. -/
inductive UriForm where
  | addrSpec | nameAddr
deriving DecidableEq

/-- The port of a URI that names none (`PORT_NONE`). -/
def portNone : Int := -1

def portIsValid (p : Int) : Bool := decide (1 ≤ p) && decide (p ≤ 65535)

/-- The parts of a URI.  The three parameter lists hold names and values without
escapes. -/
structure Url where
  scheme : Scheme := .sip
  displayName : Text := []
  userId : Text := []
  password : Text := []
  hostAddress : Text := []
  hostPort : Int := portNone
  path : Text := []
  angleBracketsIncluded : Bool := false
  urlParameters : List (Text × Text) := []
  headerOrQueryParameters : List (Text × Text) := []
  fieldParameters : List (Text × Text) := []
deriving DecidableEq

namespace Url

open Pattern

/-! ## The regular expressions -/

/-- `\s*`. -/
def sws : Pattern := star (cls isSpace)

/-- `\s+`. -/
def lws : Pattern := plus (cls isSpace)

/-- A literal matched without regard to case. -/
def litNoCase (s : String) : Pattern :=
  (text s).foldr (fun c p => seq (cls fun d => toLower d == toLower c) p) eps

/-- The bytes of `SIP_TOKEN`. -/
def isTokenByte (c : Byte) : Bool := isAlnum c || oneOf ".!%*_+\x60'~-" c

def sipToken : Pattern := possessive isTokenByte

/-- `.`: any byte but a newline. -/
def anyByte : Pattern := cls (· != byte '\n')

/-- `DisplayName`. -/
def displayNameRegex : Pattern :=
  cat [sws,
    alt (group 1 (cat [sipToken, star (seq lws sipToken)]))
      (cat [lit "\"",
        group 2 (star (alt (possessive fun c => c != byte '\\' && c != byte '"')
          (seq (lit "\\") anyByte))),
        lit "\""]),
    look (seq sws (lit "<"))]

/-- `AngleBrackets`. -/
def angleBracketsRegex : Pattern :=
  cat [sws, lit "<", group 1 (plus (cls (· != byte '>'))), lit ">"]

/-- `SUPPORTED_SCHEMES`. -/
def supportedSchemes : Pattern :=
  choice [group 1 (litNoCase "UNKNOWN-URL-SCHEME"), group 2 (litNoCase "sip"),
    group 3 (litNoCase "sips"), group 4 (litNoCase "http"), group 5 (litNoCase "https"),
    group 6 (litNoCase "ftp"), group 7 (litNoCase "file"), group 8 (litNoCase "mailto")]

/-- `SupportedScheme` in a request line, `SupportedSchemeSWS` in a header. -/
def supportedSchemeRegex : UriForm → Pattern
  | .addrSpec => cat [supportedSchemes, lit ":"]
  | .nameAddr => cat [sws, supportedSchemes, sws, lit ":"]

def isPasswordByte (c : Byte) : Bool := isAlnum c || oneOf "_.!~*'()&=+$,-" c

/-- The bytes a user name shows as they are. -/
def isUserByte (c : Byte) : Bool := isPasswordByte c || oneOf ";?/" c

/-- A run of plain bytes, or one byte that is escaped. -/
def escapedRun (p : Byte → Bool) : Pattern :=
  alt (possessive p) (cat [lit "%", cls isHex, cls isHex])

/-- `UsernameAndPassword`. -/
def usernameAndPasswordRegex : Pattern :=
  cat [group 1 (plus (escapedRun isUserByte)),
    opt (seq (lit ":") (group 2 (star (escapedRun isPasswordByte)))),
    lit "@"]

/-- `DOMAIN_LABEL`. -/
def domainLabel : Pattern :=
  seq (cls isAlnum) (opt (seq (star (cls fun c => isAlnum c || c == byte '-')) (cls isAlnum)))

/-- A DNS name, an IPv4 address or an IPv6 address. -/
def hostPattern : Pattern :=
  choice [cat [star (seq domainLabel (lit ".")), domainLabel, opt (lit ".")],
    cat [digits13, lit ".", digits13, lit ".", digits13, lit ".", digits13],
    cat [lit "[", possessive (fun c => isHex c || oneOf ":." c), lit "]"]]
where
  digits13 : Pattern := seq (cls isDigit) (upTo 2 (cls isDigit))

/-- `HostAndPort`. -/
def hostAndPortRegex : Pattern :=
  seq (group 1 hostPattern)
    (opt (seq (lit ":") (group 2 (seq (cls isDigit) (upTo 5 (cls isDigit))))))

/-- `UrlPath`. -/
def urlPathRegex : Pattern :=
  seq (group 1 (possessive fun c => !(oneOf "?," c || isSpace c))) (opt (cls (oneOf "?,")))

/-- The bytes of raw URL parameters. -/
def isUrlParamsByte (c : Byte) : Bool := !oneOf "?>," c

/-- `UrlParams`. -/
def urlParamsRegex : Pattern := cat [sws, lit ";", group 1 (possessive isUrlParamsByte)]

/-- The bytes of raw header or query parameters. -/
def isHeaderParamsByte (c : Byte) : Bool := !oneOf ",>" c

/-- `HeaderOrQueryParams`. -/
def headerOrQueryParamsRegex : Pattern :=
  cat [sws, lit "?", group 1 (possessive isHeaderParamsByte)]

/-- `FieldParamName`. -/
def fieldParamNameRegex : Pattern := cat [sws, lit ";", sws, group 1 sipToken, sws]

/-- `FieldParamEqualsUnquotedValue`. -/
def fieldParamEqualsUnquotedValueRegex : Pattern :=
  cat [lit "=", sws, group 1 (alt sipToken hostPattern)]

/-- `FieldParamEqualsQuotedValue`.  The class that should leave out the backslash
only leaves out the quote. -/
def fieldParamEqualsQuotedValueRegex : Pattern :=
  cat [lit "=", sws,
    group 1 (cat [lit "\"",
      star (alt (possessive (· != byte '"')) (seq (lit "\\") anyByte)),
      lit "\""])]

/-- `FieldParamValueOkUnquoted`. -/
def fieldParamValueOkUnquotedRegex : Pattern := cat [bol, alt sipToken hostPattern, eol]

/-- `CommaSeparator`. -/
def commaSeparatorRegex : Pattern := cat [sws, lit ",", sws]

/-- `EndUrl`. -/
def endUrlRegex : Pattern := seq sws eol

/-- What may follow a URI: `End`, `EndComma`, `EndSws` or `EndSwsComma`. -/
def endRegex : UriForm → (nextUri : Bool) → Pattern
  | .addrSpec, false => eol
  | .addrSpec, true => alt eol (lit ",")
  | .nameAddr, false => endUrlRegex
  | .nameAddr, true => alt endUrlRegex commaSeparatorRegex

/-! ## The parser -/

/-- The scan of a quoted string for `gen_value_unescape`. -/
def unquote : Text → Text
  | [] => []
  | c :: cs =>
    if c = byte '\\' then
      match cs with
      | [] => []
      | d :: ds => d :: unquote ds
    else if c = byte '"' then []
    else c :: unquote cs

/-- `gen_value_unescape` on a token, a host or a quoted string; neither starts
with a blank where it is called. -/
def genValueUnescape : Text → Text
  | [] => []
  | c :: cs => if c = byte '"' then unquote cs else c :: cs

/-- Where the parser stands: the parts read so far, the text at the working
offset, the text behind the closing bracket if there were brackets, and whether
no scheme could be recognized. -/
structure ParseState where
  url : Url
  rest : Text
  afterAngleBrackets : Option Text := none
  unrecognizable : Bool := false

/-- The display name before `<`. -/
def parseDisplayName (st : ParseState) : ParseState :=
  match matchAt displayNameRegex st.rest with
  | none => st
  | some m =>
    let name :=
      match m.matchCount with
      | 2 => (m.group 1).getD []
      | 3 => byte '"' :: (m.group 2).getD [] ++ [byte '"']
      | _ => []
    { st with url := { st.url with displayName := name }, rest := m.rest }

/-- Angle brackets around the URI: go on inside them. -/
def parseAngleBrackets (st : ParseState) : ParseState :=
  match matchAt angleBracketsRegex st.rest with
  | none => st
  | some m =>
    { st with
      rest := (m.group 1).getD [] ++ byte '>' :: m.rest
      afterAngleBrackets := some m.rest }

/-- The scheme.  Where none is recognized the text is tried as a host. -/
def parseScheme (form : UriForm) (st : ParseState) : ParseState :=
  match matchAt (supportedSchemeRegex form) st.rest with
  | some m =>
    { st with url := { st.url with scheme := .ofIndex (m.matchCount - 2) }, rest := m.rest }
  | none => { st with url := { st.url with scheme := .unknown }, unrecognizable := true }

/-- Skip the `//` of the schemes that have it. -/
def skipSlashes (st : ParseState) : ParseState :=
  if st.url.scheme.hasPath ∧ st.rest.take 2 = text "//" then { st with rest := st.rest.drop 2 }
  else st

/-- User name and password, which are optional. -/
def parseUser (st : ParseState) : ParseState :=
  if st.url.scheme = .file then st
  else
    match matchAt usernameAndPasswordRegex st.rest with
    | none => st
    | some m =>
      { st with
        url := { st.url with
          userId := (m.group 1).getD []
          password := (m.group 2).getD [] }
        rest := m.rest }

/-- Host and port.  A text without a scheme that has them is a `sip` URI; except
in a `file` URI, their absence is an error. -/
def parseHostAndPort (st : ParseState) : ParseState :=
  match matchAt hostAndPortRegex st.rest with
  | some m =>
    { st with
      url := { st.url with
        scheme := if st.unrecognizable then .sip else st.url.scheme
        hostAddress := (m.group 1).getD []
        hostPort :=
          match m.group 2 with
          | some port => digitsValue 10 port
          | none => portNone }
      rest := m.rest }
  | none =>
    if st.url.scheme = .file then st
    else { st with url := { st.url with
      scheme := .unknown, displayName := [], userId := [], password := [] } }

/-- The path of the schemes that have one. -/
def parsePath (st : ParseState) : ParseState :=
  if st.url.scheme.hasPath then
    match matchAt urlPathRegex st.rest with
    | none => st
    | some m =>
      let path := (m.group 1).getD []
      { st with url := { st.url with path := path }, rest := st.rest.drop path.length }
  else st

/-- URL parameters, in a request line or inside angle brackets. -/
def parseUrlParams (form : UriForm) (st : ParseState) : ParseState :=
  if st.url.scheme.isSip ∧ (form = .addrSpec ∨ st.afterAngleBrackets ≠ none) then
    match matchAt urlParamsRegex st.rest with
    | none => st
    | some m =>
      { st with
        url := { st.url with
          urlParameters := parseCgiVariables (byte ';') ((m.group 1).getD []) }
        rest := m.rest }
  else st

/-- Header or query parameters. -/
def parseHeaderParams (st : ParseState) : ParseState :=
  match matchAt headerOrQueryParamsRegex st.rest with
  | none => st
  | some m =>
    { st with
      url := { st.url with
        headerOrQueryParameters := parseCgiVariables (byte '&') ((m.group 1).getD []) }
      rest := m.rest }

/-- Mark the URI as not valid. -/
def ParseState.invalid (st : ParseState) : ParseState :=
  { st with url := { st.url with scheme := .unknown } }

/-- Where there were angle brackets, the parser must stand at the closing one. -/
def closeAngleBrackets (st : ParseState) : ParseState :=
  match st.afterAngleBrackets with
  | none => st
  | some after =>
    if st.rest.length = after.length + 1 then { st with rest := after } else st.invalid

/-- The value behind the name of a field parameter, if any. -/
def parseFieldParamValue (s : Text) : Text × Text :=
  match matchAt fieldParamEqualsUnquotedValueRegex s with
  | some m => ((m.group 1).getD [], m.rest)
  | none =>
    match matchAt fieldParamEqualsQuotedValueRegex s with
    | some m => ((m.group 1).getD [], m.rest)
    | none => ([], s)

/-- The loop over the field parameters.  Each round takes at least a semicolon,
so that the length of the text bounds their number. -/
def parseFieldParams : Nat → ParseState → ParseState
  | 0, st => st
  | fuel + 1, st =>
    if st.url.scheme = .unknown then st
    else
      match matchAt endUrlRegex st.rest with
      | some m => { st with rest := m.rest }
      | none =>
        match matchAt commaSeparatorRegex st.rest with
        | some _ => st
        | none =>
          match matchAt fieldParamNameRegex st.rest with
          | none => st.invalid
          | some m =>
            let value := parseFieldParamValue m.rest
            parseFieldParams fuel
              { st with
                url := { st.url with
                  fieldParameters := st.url.fieldParameters ++
                    [(genValueUnescape ((m.group 1).getD []), genValueUnescape value.1)] }
                rest := value.2 }

/-- The check at the end, which leaves what follows a comma in the state. -/
def parseEnd (form : UriForm) (nextUri : Bool) (st : ParseState) : ParseState :=
  if st.url.scheme = .unknown then st
  else
    match matchAt (endRegex form nextUri) st.rest with
    | some m => { st with rest := m.rest }
    | none => st.invalid

/-- The parts up to host and port. -/
def parseFront (form : UriForm) (s : Text) : ParseState :=
  let start : ParseState := { url := {}, rest := s }
  let opened :=
    match form with
    | .addrSpec => start
    | .nameAddr => parseAngleBrackets (parseDisplayName start)
  parseHostAndPort (parseUser (skipSlashes (parseScheme form opened)))

/-- The parts behind host and port. -/
def parseBack (form : UriForm) (st : ParseState) : ParseState :=
  let st := parseUrlParams form (parsePath st)
  if st.url.scheme = .unknown then st
  else
    let st := parseHeaderParams st
    match form with
    | .addrSpec => st
    | .nameAddr =>
      let st := closeAngleBrackets st
      parseFieldParams (st.rest.length + 1) st

/-- `Url::parseString`. -/
def parseString (s : Text) (form : UriForm) (nextUri : Bool) : ParseState :=
  parseEnd form nextUri (parseBack form (parseFront form s))

/-- `Url::fromString`. -/
def fromString (s : Text) (form : UriForm) : Url := (parseString s form false).url

/-- The constructors: an empty text leaves the default URI. -/
def ofText (s : Text) (form : UriForm) : Url :=
  if s = [] then {} else fromString s form

/-! ## Parts -/

/-- `SIPX_PRIVATE_CONTACT_URI_PARAM`. -/
def privateContactParam : Text := text "x-sipX-privcontact"

/-- `SIPX_NO_NAT_URI_PARAM`. -/
def noNatParam : Text := text "x-sipX-nonat"

/-- `Url::getUrlParameter`: the first parameter of that name, case aside. -/
def getUrlParameter (u : Url) (name : Text) : Option Text :=
  (u.urlParameters.find? fun nv => caseEq nv.1 name).map Prod.snd

/-- The first parameter of the name gets the value; none where there is no such parameter. -/
def setFirst (name value : Text) : List (Text × Text) → Option (List (Text × Text))
  | [] => none
  | nv :: rest =>
    if caseEq nv.1 name then some ((nv.1, value) :: rest)
    else (setFirst name value rest).map (nv :: ·)

/-- `Url::setUrlParameter`: replace the value, or append. -/
def setUrlParameter (u : Url) (name value : Text) : Url :=
  { u with
    urlParameters := (setFirst name value u.urlParameters).getD (u.urlParameters ++ [(name, value)]) }

/-- `Url::removeUrlParameter`. -/
def removeUrlParameter (u : Url) (name : Text) : Url :=
  { u with urlParameters := u.urlParameters.filter fun nv => !caseEq nv.1 name }

/-- `Url::removeHeaderParameter`. -/
def removeHeaderParameter (u : Url) (name : Text) : Url :=
  { u with headerOrQueryParameters := u.headerOrQueryParameters.filter fun nv => !caseEq nv.1 name }

/-- `Url::getFieldParameter`. -/
def getFieldParameter (u : Url) (name : Text) : Option Text :=
  (u.fieldParameters.find? fun nv => caseEq nv.1 name).map Prod.snd

/-- `Url::setFieldParameter`: replace the value, or append. -/
def setFieldParameter (u : Url) (name value : Text) : Url :=
  { u with
    fieldParameters :=
      (setFirst name value u.fieldParameters).getD (u.fieldParameters ++ [(name, value)]) }

/-- Setting a parameter, one parameter after the other. -/
theorem getD_setFirst_cons (name value : Text) (nv : Text × Text) (params : List (Text × Text)) :
    (setFirst name value (nv :: params)).getD (nv :: params ++ [(name, value)]) =
      if caseEq nv.1 name then (nv.1, value) :: params
      else nv :: (setFirst name value params).getD (params ++ [(name, value)]) := by
  rw [setFirst]
  split
  · rfl
  · cases setFirst name value params <;> rfl

theorem find?_setFirst (name value other : Text) (params : List (Text × Text)) :
    (((setFirst name value params).getD (params ++ [(name, value)])).find?
        fun nv => caseEq nv.1 other).map Prod.snd = if caseEq name other then some value
      else (params.find? fun nv => caseEq nv.1 other).map Prod.snd := by
  induction params with
  | nil => by_cases h : caseEq name other = true <;> simp [setFirst, h]
  | cons nv params ih =>
    by_cases hname : caseEq nv.1 name = true
    · have hsame : caseEq nv.1 other = caseEq name other := by
        rw [Bool.eq_iff_iff, caseEq_iff, caseEq_iff, (caseEq_iff _ _).mp hname]
      by_cases h : caseEq name other = true <;> simp [setFirst, hname, hsame, h]
    · rw [getD_setFirst_cons, if_neg hname]
      by_cases hother : caseEq nv.1 other = true
      · have hne : caseEq name other = false := by
          by_contra hne
          rw [Bool.not_eq_false, caseEq_comm] at hne
          exact hname (caseEq_trans hother hne)
        simp [hother, hne]
      · simp [hother, ih]

theorem filter_setFirst {p : Text × Text → Bool} {name : Text}
    (hp : ∀ nv : Text × Text, caseEq nv.1 name = true → p nv = false) (value : Text)
    (params : List (Text × Text)) :
    ((setFirst name value params).getD (params ++ [(name, value)])).filter p = params.filter p := by
  induction params with
  | nil => simp [setFirst, hp (name, value) (caseEq_refl name)]
  | cons nv params ih =>
    by_cases hname : caseEq nv.1 name = true
    · simp [setFirst, hname, hp nv hname, hp (nv.1, value) hname]
    · rw [getD_setFirst_cons, if_neg hname, filter_cons, filter_cons, ih]

/-- A parameter that is set takes the place of the first one of its name. -/
theorem mem_setFirst {name value : Text} {params : List (Text × Text)} {nv : Text × Text}
    (h : nv ∈ (setFirst name value params).getD (params ++ [(name, value)])) :
    nv ∈ params ∨ nv.2 = value ∧ caseEq nv.1 name = true ∧
      (nv.1 = name ∨ ∃ old, (nv.1, old) ∈ params) := by
  induction params with
  | nil =>
    obtain rfl : nv = (name, value) := mem_singleton.mp h
    exact Or.inr ⟨rfl, caseEq_refl name, Or.inl rfl⟩
  | cons first params ih =>
    rw [getD_setFirst_cons] at h
    by_cases hcase : caseEq first.1 name = true
    · rw [if_pos hcase] at h
      rcases mem_cons.mp h with rfl | h
      · exact Or.inr ⟨rfl, hcase, Or.inr ⟨first.2, mem_cons_self⟩⟩
      · exact Or.inl (mem_cons_of_mem _ h)
    · rw [if_neg hcase] at h
      rcases mem_cons.mp h with rfl | h
      · exact Or.inl mem_cons_self
      · rcases ih h with h | ⟨hvalue, hcase, hname | ⟨old, hold⟩⟩
        · exact Or.inl (mem_cons_of_mem _ h)
        · exact Or.inr ⟨hvalue, hcase, Or.inl hname⟩
        · exact Or.inr ⟨hvalue, hcase, Or.inr ⟨old, mem_cons_of_mem _ hold⟩⟩

theorem getFieldParameter_setFieldParameter (u : Url) (name value other : Text) :
    (u.setFieldParameter name value).getFieldParameter other =
      if caseEq name other then some value else u.getFieldParameter other :=
  find?_setFirst name value other u.fieldParameters

theorem getUrlParameter_setUrlParameter (u : Url) (name value other : Text) :
    (u.setUrlParameter name value).getUrlParameter other =
      if caseEq name other then some value else u.getUrlParameter other :=
  find?_setFirst name value other u.urlParameters

/-- `Url::getHostWithPort`. -/
def getHostWithPort (u : Url) : Text :=
  if u.hostPort = portNone then u.hostAddress
  else u.hostAddress ++ byte ':' :: intText u.hostPort

/-! ## The printers -/

/-- The text `:port` of a valid port. -/
def portText (u : Url) : Text :=
  if portIsValid u.hostPort then byte ':' :: intText u.hostPort else []

/-- User name and password before the host. -/
def userText (u : Url) : Text :=
  if u.scheme = .file ∨ u.userId = [] then []
  else u.userId ++ (if u.password = [] then [] else byte ':' :: u.password) ++ [byte '@']

/-- One parameter.  The value is escaped, the name is not. -/
def paramText (escapeValue : Text → Text) (nv : Text × Text) : Text :=
  nv.1 ++ if nv.2 = [] then [] else byte '=' :: escapeValue nv.2

/-- The URL parameters, each behind a semicolon. -/
def urlParamsText (params : List (Text × Text)) : Text :=
  params.flatMap fun nv => byte ';' :: paramText escape nv

/-- The header parameters, behind `?` and `&`. -/
def headerParamsText : List (Text × Text) → Text
  | [] => []
  | nv :: rest =>
    byte '?' :: paramText escape nv ++ rest.flatMap fun nv => byte '&' :: paramText escape nv

/-- `Url::getUri`: the URI without display name, brackets and field parameters. -/
def getUri (u : Url) : Text :=
  u.scheme.name ++ byte ':' :: (if u.scheme.hasPath then text "//" else []) ++ u.userText ++
    u.hostAddress ++ u.portText ++ (if u.scheme.hasPath then u.path else []) ++
    urlParamsText u.urlParameters ++ headerParamsText u.headerOrQueryParameters

/-- `Url::gen_value_escape`. -/
def genValueEscape (junk : Byte) (value : Text) : Text :=
  if (search fieldParamValueOkUnquotedRegex value).isSome then value
  else
    byte '"' :: (value.flatMap fun c => if c = byte '"' ∨ c = byte '\\' then [c, junk] else [c]) ++
      [byte '"']

/-- Whether `toString` writes angle brackets. -/
def needsBrackets (u : Url) : Bool :=
  u.displayName != [] || u.angleBracketsIncluded || u.fieldParameters != [] ||
    (u.scheme.isSip && (u.urlParameters != [] || u.headerOrQueryParameters != []))

/-- `Url::toString`. -/
def toString (junk : Byte) (u : Url) : Text :=
  u.displayName ++
    (if u.needsBrackets then byte '<' :: u.getUri ++ [byte '>'] else u.getUri) ++
    u.fieldParameters.flatMap fun nv => byte ';' :: paramText (genValueEscape junk) nv

theorem toString_ne_nil (junk : Byte) (u : Url) : u.toString junk ≠ [] := by
  unfold toString getUri
  split <;> simp

/-- `Url::getIdentity`. -/
def getIdentity (u : Url) : Text :=
  u.userId ++ byte '@' :: u.hostAddress.map toLower ++ u.portText

end Url

end SipXRouter
