import SipXRouter.Net.SipXauthIdentity
import SipXRouter.Net.UrlStable

/-!
# Signing an identity and reading it again

`SipXauthIdentity::encode` reads the identity as a URI without a scheme, adds the signature and
prints it.  An identity with a user comes back.  The identity of a whole domain starts with
`@`, which is no URI: the printed one has neither user nor host, and `decode` does not take it.
-/

namespace SipXRouter

open List

namespace Url

open Pattern

/-! ## Reading an identity -/

section Bare

variable {s : Text}

theorem matchAt_displayName_eq_none (hs : byte '<' ∉ s) : matchAt displayNameRegex s = none := by
  rw [Option.eq_none_iff_forall_ne_some]
  intro m hm
  have hrun := mem_run_of_matchAt hm
  have happ := append_of_mem_run hrun
  obtain ⟨m₁, hm₁, m₂, hm₂, rfl⟩ := mem_run_seq.mp hrun
  obtain ⟨m₃, hm₃, m₄, hm₄, rfl⟩ := mem_run_seq.mp hm₂
  obtain ⟨m₅, hm₅, -⟩ := mem_run_seq.mp hm₄
  -- what is looked at behind the name is part of the text
  have hlook : byte '<' ∈ m₃.rest := by
    rw [run] at hm₅
    obtain ⟨m₆, hm₆, -⟩ := mem_map.mp hm₅
    have hm₆ := mem_of_mem_take hm₆
    obtain ⟨m₇, hm₇, m₈, hm₈, -⟩ := mem_run_seq.mp hm₆
    rw [append_of_mem_run hm₇, append_of_mem_run hm₈, mem_lang_lit.mp (text_mem_lang hm₈)]
    simp [text]
  apply hs
  rw [append_of_mem_run hm₁, append_of_mem_run hm₃]
  simp [hlook]

theorem matchAt_angleBrackets_eq_none (hs : byte '<' ∉ s) :
    matchAt angleBracketsRegex s = none := by
  rw [Option.eq_none_iff_forall_ne_some]
  intro m hm
  obtain ⟨m₁, hm₁, m₂, hm₂, -⟩ := mem_run_seq.mp (mem_run_of_matchAt hm)
  obtain ⟨m₃, hm₃, -⟩ := mem_run_seq.mp hm₂
  apply hs
  rw [append_of_mem_run hm₁, append_of_mem_run hm₃, mem_lang_lit.mp (text_mem_lang hm₃)]
  simp [text]

theorem stopsAt_scheme : StopsAt (· == byte '@') (supportedSchemeRegex .nameAddr) :=
  stopsAt_of_byte (by decide)

/-- A text with `@` in front of the first colon has no scheme. -/
theorem matchAt_scheme_eq_none {user : Text} (huser : byte ':' ∉ user) (s : Text) :
    matchAt (supportedSchemeRegex .nameAddr) (user ++ byte '@' :: s) = none := by
  have hat : ∀ c ∈ (byte '@' :: s).head?, (c == byte '@') = true := by
    intro c hc
    rw [head?_cons, Option.mem_some_iff] at hc
    subst hc
    rfl
  rw [matchAt_append_eq_none stopsAt_scheme hat, Option.eq_none_iff_forall_ne_some]
  intro m hm
  obtain ⟨m₁, hm₁, m₂, hm₂, -⟩ := mem_run_seq.mp (mem_run_of_matchAt hm)
  obtain ⟨m₃, hm₃, m₄, hm₄, -⟩ := mem_run_seq.mp hm₂
  obtain ⟨m₅, hm₅, m₆, hm₆, -⟩ := mem_run_seq.mp hm₄
  obtain ⟨m₇, hm₇, -⟩ := mem_run_seq.mp hm₆
  apply huser
  rw [append_of_mem_run hm₁, append_of_mem_run hm₃, append_of_mem_run hm₅, append_of_mem_run hm₇,
    mem_lang_lit.mp (text_mem_lang hm₇)]
  simp [text]

theorem parseFront_bare (hbracket : byte '<' ∉ s)
    (hscheme : matchAt (supportedSchemeRegex .nameAddr) s = none) :
    parseFront .nameAddr s = parseHostAndPort (parseUser
      { url := { scheme := .unknown }, rest := s, unrecognizable := true }) := by
  have hopen : parseAngleBrackets (parseDisplayName { url := {}, rest := s }) =
      { url := {}, rest := s } := by
    unfold parseDisplayName
    rw [matchAt_displayName_eq_none hbracket]
    unfold parseAngleBrackets
    rw [matchAt_angleBrackets_eq_none hbracket]
  rw [parseFront_nameAddr, hopen, parseScheme, hscheme]
  rfl

end Bare

section Identity

variable {user host port : Text} {value : Int}

theorem notMem_user (huser : isEscapedText isUserByte user = true) {b : Byte}
    (hb : isUserByte b = false) (hpercent : b ≠ byte '%') (hhex : isHex b = false) : b ∉ user := by
  intro hmem
  rcases bytes_of_isEscapedText huser b hmem with h | h | h
  · rw [hb] at h
    exact Bool.false_ne_true h
  · exact hpercent h
  · rw [hhex] at h
    exact Bool.false_ne_true h

theorem matchAt_hostAndPort_end (hhost : IsHost host) (hport : IsPortText port value) :
    ∃ m, matchAt hostAndPortRegex (host ++ port) = some m ∧ m.rest = [] ∧ m.group 1 = some host ∧
      (m.group 2 = none ∧ value = portNone ∨
        ∃ digits, m.group 2 = some digits ∧ value = digitsValue 10 digits) := by
  obtain ⟨m, hm, hrest, hgroups⟩ := matchAt_hostAndPort hhost hport []
  have hstop : ∀ c ∈ [byte ';'].head?, isStop c = true := by
    intro c hc
    rw [head?_cons, Option.mem_some_iff] at hc
    subst hc
    decide
  rw [← append_assoc, matchAt_append stopsAt_hostAndPort hstop] at hm
  obtain ⟨m', hm', rfl⟩ := Option.map_eq_some_iff.mp hm
  exact ⟨m', hm', append_left_eq_self.mp hrest, hgroups⟩

theorem parseHostAndPort_end (hhost : IsHost host) (hport : IsPortText port value) (u : Url) :
    parseHostAndPort { url := u, rest := host ++ port, unrecognizable := true } =
      { url := { u with scheme := .sip, hostAddress := host, hostPort := value }, rest := []
        unrecognizable := true } := by
  obtain ⟨m, hm, hrest, hgroup, hvalue⟩ := matchAt_hostAndPort_end hhost hport
  unfold parseHostAndPort
  dsimp only
  rw [hm]
  dsimp only
  rw [hrest, hgroup]
  rcases hvalue with ⟨hnone, rfl⟩ | ⟨digits, hsome, rfl⟩
  · rw [hnone]
    rfl
  · rw [hsome]
    rfl

theorem notMem_identity (huser : isEscapedText isUserByte user = true) (hhost : IsHost host)
    (hport : IsPortText port value) {b : Byte} (hb : isUserByte b = false)
    (hhostByte : isHostByte b = false) (hhex : isHex b = false) (hmarks : oneOf "%@" b = false) :
    b ∉ user ++ byte '@' :: (host ++ port) := by
  have hmark : ∀ c, oneOf "%@" c = true → b ≠ c := fun c hc => (ne_of_class hc hmarks).symm
  simp only [mem_append, mem_cons, not_or]
  refine ⟨notMem_user huser hb (hmark _ (by decide)) hhex, hmark _ (by decide), ?_, ?_⟩
  · exact fun hmem => ne_of_class (bytes_of_isHost hhost b hmem) hhostByte rfl
  · exact fun hmem => ne_of_class (bytes_of_isPortText hport b hmem) hhostByte rfl

theorem parse_nothing {u : Url} (hsip : u.scheme = .sip) {st : ParseState}
    (hst : st = { url := u, rest := [], unrecognizable := true }) :
    parseEnd .nameAddr false (parseBack .nameAddr st) = st := by
  have hknown : st.url.scheme ≠ .unknown := by
    rw [hst]
    show u.scheme ≠ .unknown
    rw [hsip]
    decide
  have hrest : st.rest = [] := by rw [hst]
  have hafter : st.afterAngleBrackets = none := by rw [hst]
  have hend : matchAt endUrlRegex [] = some ⟨[], [], []⟩ := rfl
  have hheader : matchAt headerOrQueryParamsRegex [] = none := rfl
  have hpath : parsePath st = st := by
    rw [hst]
    unfold parsePath
    dsimp only
    rw [hsip]
    rfl
  have hurl : parseUrlParams .nameAddr st = st := by
    unfold parseUrlParams
    rw [if_neg]
    rintro ⟨-, hform | hbrackets⟩
    · cases hform
    · exact hbrackets hafter
  have hheaders : parseHeaderParams st = st := by
    unfold parseHeaderParams
    rw [hrest, hheader]
  have hclose : closeAngleBrackets st = st := by
    unfold closeAngleBrackets
    rw [hafter]
  have hfields : parseFieldParams (st.rest.length + 1) st = st := by
    rw [parseFieldParams, if_neg hknown, hrest, hend]
    show { st with rest := [] } = st
    rw [← hrest]
  unfold parseBack
  dsimp only
  rw [hpath, hurl, if_neg hknown, hheaders, hclose, hfields]
  unfold parseEnd endRegex
  rw [if_neg hknown, hrest, hend]
  show { st with rest := [] } = st
  rw [← hrest]

/-- **What is read of an identity**, if it has a user. -/
theorem fromString_identity (hne : user ≠ []) (huser : isEscapedText isUserByte user = true)
    (hhost : IsHost host) (hport : IsPortText port value) :
    fromString (user ++ byte '@' :: (host ++ port)) .nameAddr =
      { userId := user, hostAddress := host, hostPort := value } := by
  have hcolon := notMem_user huser (b := byte ':') (by decide) (by decide) (by decide)
  have hread : parseUser { url := { scheme := .unknown }, rest := user ++ byte '@' :: (host ++ port)
                           unrecognizable := true } =
      { url := { scheme := .unknown, userId := user }, rest := host ++ port
        unrecognizable := true } := by
    unfold parseUser
    dsimp only
    rw [if_neg (by decide), matchAt_user hne huser]
    rfl
  have hbracket := notMem_identity huser hhost hport (b := byte '<') (by decide) (by decide)
    (by decide) (by decide)
  unfold fromString parseString
  rw [parseFront_bare hbracket (matchAt_scheme_eq_none hcolon _),
    hread, parseHostAndPort_end hhost hport]
  exact congrArg ParseState.url (parse_nothing rfl rfl)

theorem fromString_identity_domain (hhost : IsHost host) (hport : IsPortText port value) :
    fromString (byte '@' :: (host ++ port)) .nameAddr = { scheme := .unknown } := by
  have huser : matchAt usernameAndPasswordRegex (byte '@' :: (host ++ port)) = none := by
    have hrun : run usernameAndPasswordRegex 0 (byte '@' :: (host ++ port)) = [] := rfl
    rw [matchAt, hrun, head?_nil]
  have hnone : matchAt hostAndPortRegex (byte '@' :: (host ++ port)) = none := by
    have hrun : run hostAndPortRegex 0 (byte '@' :: (host ++ port)) = [] := rfl
    rw [matchAt, hrun, head?_nil]
  have hread : parseUser { url := { scheme := .unknown }, rest := byte '@' :: (host ++ port)
                           unrecognizable := true } =
      { url := { scheme := .unknown }, rest := byte '@' :: (host ++ port)
        unrecognizable := true } := by
    unfold parseUser
    dsimp only
    rw [if_neg (by decide), huser]
  have hnil : isEscapedText isUserByte [] = true := rfl
  have hbracket := notMem_identity hnil hhost hport (b := byte '<') (by decide) (by decide)
    (by decide) (by decide)
  have hscheme := matchAt_scheme_eq_none (not_mem_nil : byte ':' ∉ ([] : Text)) (host ++ port)
  rw [nil_append] at hbracket hscheme
  unfold fromString parseString
  rw [parseFront_bare hbracket hscheme, hread, parseHostAndPort]
  dsimp only
  rw [hnone]
  rfl

end Identity

/-! ### A URI of an identity with parameters -/

/-- The URI of an identity with parameters. -/
def identityUrl (user host : Text) (value : Int) (params : List (Text × Text)) : Url where
  userId := user
  hostAddress := host
  hostPort := value
  urlParameters := params

/-- A parameter that is read as it was printed. -/
structure IsStableParam (nv : Text × Text) : Prop where
  read : IsReadParam nv
  kept : IsKeptName ";=%+?>," nv.1

section Printed

variable {user host port : Text} {value : Int} {params : List (Text × Text)}

theorem accepted_identityUrl (huser : isEscapedText isUserByte user = true) (hhost : IsHost host)
    (hparams : ∀ nv ∈ params, IsStableParam nv) :
    Accepted (identityUrl user host value params) where
  displayName := .absent
  displayName_nul := not_mem_nil
  userId := huser
  password := rfl
  password_eq_nil _ := rfl
  userId_eq_nil hfile := Scheme.noConfusion hfile
  host := Or.inl hhost
  path _ hc := absurd hc not_mem_nil
  path_nul := not_mem_nil
  path_eq_nil _ := rfl
  hostAlone := hostAlone_nil hhost
  angleBracketsIncluded := rfl
  urlParameters nv hnv := (hparams nv hnv).read
  urlParameters_eq_nil hsip := Bool.noConfusion hsip
  headerOrQueryParameters _ hnv := absurd hnv not_mem_nil
  fieldNames _ hnv := absurd hnv not_mem_nil
  fieldValues_nul _ hnv := absurd hnv not_mem_nil

theorem survives_identityUrl (hne : user ≠ []) (hparams : ∀ nv ∈ params, IsStableParam nv) :
    Survives (identityUrl user host value params) where
  urlNames nv hnv := (hparams nv hnv).kept
  headerNames _ hnv := absurd hnv not_mem_nil
  fieldValues _ hnv := absurd hnv not_mem_nil
  user hnil := absurd hnil hne
  host _ hpath := absurd rfl hpath
  brackets hpath := Bool.noConfusion hpath

theorem printedPort_eq (hport : IsPortText port value) {u : Url} (hvalue : u.hostPort = value) :
    u.printedPort = value := by
  unfold printedPort portIsValid
  rw [hvalue]
  obtain ⟨-, rfl⟩ | ⟨p, hp, hp', -, rfl⟩ := hport
  · rfl
  · rw [if_pos]
    simp only [Bool.and_eq_true, decide_eq_true_eq]
    omega

/-- **Such a URI is read again.** -/
theorem fromString_toString_identityUrl (hne : user ≠ [])
    (huser : isEscapedText isUserByte user = true) (hhost : IsHost host)
    (hport : IsPortText port value) (hparams : ∀ nv ∈ params, IsStableParam nv) (junk : Byte) :
    fromString ((identityUrl user host value params).toString junk) .nameAddr =
      identityUrl user host value params := by
  rw [fromString_toString_of_accepted (accepted_identityUrl huser hhost hparams)
    (survives_identityUrl hne hparams) Scheme.noConfusion junk, printedPort_eq hport rfl]
  rfl

theorem getIdentity_identityUrl (hlower : host.map toLower = host) (hport : IsPortText port value) :
    (identityUrl user host value params).getIdentity = user ++ byte '@' :: (host ++ port) := by
  have hprinted : IsPortText port (identityUrl user host value params).hostPort := hport
  rw [getIdentity, portText_eq hprinted]
  show user ++ byte '@' :: host.map toLower ++ port = _
  rw [hlower, append_assoc, cons_append]

end Printed

theorem scheme_of_no_host {params : Text} (hparams : ∀ c ∈ params, isUrlParamsByte c = true)
    (hat : byte '@' ∉ params) :
    (fromString (byte '<' :: (text "sip:" ++ byte ';' :: params) ++ [byte '>']) .nameAddr).scheme =
      .unknown := by
  have hclose : ∀ c ∈ text "sip:" ++ byte ';' :: params, (c != byte '>') = true := by
    intro c hc
    have hsip : ∀ c ∈ text "sip:", (c != byte '>') = true := by decide
    rw [mem_append, mem_cons] at hc
    rcases hc with hc | rfl | hc
    · exact hsip c hc
    · decide
    · exact bne_iff_ne.mpr (ne_of_class (hparams c hc) (by decide))
  have hnoAt : byte '@' ∉ byte ';' :: (params ++ [byte '>']) := by
    simp only [mem_cons, mem_append, not_or]
    exact ⟨by decide, hat, by decide, not_mem_nil⟩
  have hopen : parseAngleBrackets (parseDisplayName { url := {}, rest := byte '<' :: (text "sip:" ++
      byte ';' :: params) ++ [byte '>'] }) =
      { url := {}, rest := text "sip:" ++ byte ';' :: (params ++ [byte '>'])
        afterAngleBrackets := some [] } := by
    unfold parseDisplayName
    dsimp only
    rw [cons_append, matchAt_displayName_bracket]
    unfold parseAngleBrackets
    dsimp only
    rw [matchAt_angleBrackets (by simp [text]) hclose]
    simp [Match.group]
  have hscheme : skipSlashes (parseScheme .nameAddr
      { url := {}, rest := text "sip:" ++ byte ';' :: (params ++ [byte '>'])
        afterAngleBrackets := some [] }) =
      { url := {}, rest := byte ';' :: (params ++ [byte '>']), afterAngleBrackets := some [] } := by
    unfold parseScheme
    dsimp only
    rw [matchAt_sipScheme]
    rfl
  have huser : parseUser { url := {}, rest := byte ';' :: (params ++ [byte '>'])
                           afterAngleBrackets := some [] } =
      { url := {}, rest := byte ';' :: (params ++ [byte '>']), afterAngleBrackets := some [] } := by
    unfold parseUser
    dsimp only
    rw [if_neg (by decide), matchAt_user_eq_none hnoAt]
  have hhost : matchAt hostAndPortRegex (byte ';' :: (params ++ [byte '>'])) = none := by
    have hrun : run hostAndPortRegex 0 (byte ';' :: (params ++ [byte '>'])) = [] := rfl
    rw [matchAt, hrun, head?_nil]
  unfold fromString parseString
  rw [parseFront_nameAddr, hopen, hscheme, huser, parseHostAndPort]
  dsimp only
  rw [hhost]
  rfl

end Url

namespace SipXauthIdentity

open Url

/-! ## Times -/

theorem digitsValue_hexText (n : Nat) : digitsValue 16 (hexText n) = n := by
  have hdigits : ∀ d : Fin 16, hexValue (toUpper (byte (Nat.digitChar d))) =
      hexValue (byte (Nat.digitChar d)) := by decide
  have hupper : ∀ (s : List Char) (acc : Nat), (∀ c ∈ s, ∃ d < 16, c = Nat.digitChar d) →
      (s.map fun c => toUpper (byte c)).foldl (fun acc c => acc * 16 + hexValue c) acc =
        (s.map byte).foldl (fun acc c => acc * 16 + hexValue c) acc := by
    intro s
    induction s with
    | nil => intro acc _; rfl
    | cons c s ih =>
      intro acc hs
      obtain ⟨d, hd, rfl⟩ := hs c (by simp)
      rw [map_cons, map_cons, foldl_cons, foldl_cons, hdigits ⟨d, hd⟩]
      exact ih _ fun c hc => hs c (by simp [hc])
  rw [hexText, digitsValue, hupper _ _ fun c hc => exists_digit_of_mem_toDigits (by decide) hc]
  exact digitsValue_toDigits (by decide) (by decide) n

/-- The timestamp is read again. -/
theorem fromHexString_stamp (e : Encoding) : fromHexString e.stamp = unsignedLong e.seconds := by
  have hlt := (unsignedLong e.seconds).toNat_lt
  rw [fromHexString, Encoding.stamp, digitsValue_hexText, Nat.min_eq_left (by omega),
    UInt64.ofNat_toNat]

theorem toNat_unsignedLong (i : Int32) : ((unsignedLong i).toNat : Int) = i.toInt % 2 ^ 64 := by
  have hwide : i.toInt64.toBitVec.toInt = i.toInt := Int32.toInt_toInt64 i
  have hnat : (unsignedLong i).toNat = i.toInt64.toBitVec.toNat := rfl
  have hcond := BitVec.toInt_eq_toNat_cond i.toInt64.toBitVec
  have hlt := i.toInt64.toBitVec.isLt
  rw [hwide] at hcond
  rw [hnat]
  split at hcond <;> omega

/-- The decode time is not past the validity interval, which starts at the encode time. -/
def Fresh (config : Config) (e : Encoding) (secsSinceEpoch : UInt64) : Prop :=
  config.signatureValidityInterval.isNoWait = false →
    (secsSinceEpoch.toNat : Int) ≤ e.seconds.toInt + config.signatureValidityInterval.seconds.toInt

theorem Fresh.not_late {config : Config} {e : Encoding} {now : UInt64} (h : Fresh config e now) :
    ¬ (config.signatureValidityInterval.isNoWait = false ∧
      fromHexString e.stamp + unsignedLong config.signatureValidityInterval.seconds < now) := by
  rintro ⟨hwait, hlate⟩
  have hle := h hwait
  have hstamp := toNat_unsignedLong e.seconds
  have hinterval := toNat_unsignedLong config.signatureValidityInterval.seconds
  have hstampLt := e.seconds.toInt_lt
  have hintervalLt := config.signatureValidityInterval.seconds.toInt_lt
  rw [UInt64.lt_iff_toNat_lt, UInt64.toNat_add, fromHexString_stamp] at hlate
  omega

/-! ## What is signed -/

/-- Whether the signature is bound to a dialog. -/
def Encoding.isBound (e : Encoding) : Bool := e.bindRule == .requireDialogBinding

theorem signature_eq (md5 : NetMd5Codec) (secret : Text) (e : Encoding) : e.signature md5 secret =
    e.stamp ++ (separator e.isBound ++ md5.hash (e.signedBytes secret)) := by
  rw [Encoding.signature, Encoding.isBound]
  cases e.bindRule <;> simp [separator, signatureFieldSeparator, text]

section Signed

variable {user host port : Text} {value : Int} (huser : isEscapedText isUserByte user = true)
  (hhost : IsHost host) (hport : IsPortText port value)

/-- The URI that is printed for an identity with a user. -/
def signedUrl (user host : Text) (value : Int) (signature : Text) : Url where
  userId := user
  hostAddress := host
  hostPort := value
  urlParameters := [(signatureUrlParamName, signature)]

theorem isStableParam_signature {signature : Text} (hsig : (0 : Byte) ∉ signature) :
    ∀ nv ∈ [(signatureUrlParamName, signature)], IsStableParam nv := by
  intro nv hnv
  obtain rfl := mem_singleton.mp hnv
  have hname : (∀ c ∈ signatureUrlParamName.head?, isCgiBlank c = false) ∧
      (∀ c ∈ signatureUrlParamName.getLast?, isCgiBlank c = false) ∧
      (0 : Byte) ∉ signatureUrlParamName ∧ IsKeptName ";=%+?>," signatureUrlParamName := by
    decide +kernel
  exact ⟨⟨hname.1, hname.2.1, hname.2.2.1, hsig⟩, hname.2.2.2⟩

/-- What `encode` prints for an identity with a user. -/
theorem encode_eq (md5 : NetMd5Codec) (config : Config) (junk : Byte) {e : Encoding}
    (hidentity : e.identity = user ++ byte '@' :: (host ++ port)) (hne : user ≠ [])
    (huser : isEscapedText isUserByte user = true) (hhost : IsHost host)
    (hport : IsPortText port value) : encode md5 config junk e =
      (signedUrl user host value (e.signature md5 config.signatureSecret)).toString junk := by
  have hnil : e.identity ≠ [] := by
    rw [hidentity]
    simp
  have hread : ofText e.identity .nameAddr =
      { userId := user, hostAddress := host, hostPort := value } := by
    rw [ofText, if_neg hnil, hidentity]
    exact fromString_identity hne huser hhost hport
  rw [encode, hread]
  rfl

/-- **The printed value asserts what was signed.** -/
theorem readAssertion_encode (md5 : NetMd5Codec) (config : Config) (junk : Byte) {e : Encoding}
    (hidentity : e.identity = user ++ byte '@' :: (host ++ port)) (hne : user ≠ [])
    (huser : isEscapedText isUserByte user = true) (hhost : IsHost host)
    (hlower : host.map toLower = host) (hport : IsPortText port value) :
    readAssertion (encode md5 config junk e) = some
      { decodedIdentity := e.identity
        timestamp := e.stamp
        isBound := e.isBound
        signatureHash := md5.hash (e.signedBytes config.signatureSecret) } := by
  have hhash := md5.isHexLower_hash (e.signedBytes config.signatureSecret)
  have hbytes := bytes_signature e.isTimestamp_stamp hhash e.isBound
  have hsig : ∀ c ∈ e.signature md5 config.signatureSecret, (c != 0) = true := by
    rw [signature_eq]
    intro c hc
    rcases hbytes c hc with hc | rfl
    · exact bne_iff_ne.mpr (ne_of_class hc (by decide))
    · decide
  have hsign : (0 : Byte) ∉ e.signature md5 config.signatureSecret := fun hmem =>
    absurd (hsig 0 hmem) (by decide)
  have hreread : ofText (encode md5 config junk e) .nameAddr =
      signedUrl user host value (e.signature md5 config.signatureSecret) := by
    rw [ofText, encode_eq md5 config junk hidentity hne huser hhost hport,
      if_neg (toString_ne_nil _ _)]
    exact fromString_toString_identityUrl hne huser hhost hport (isStableParam_signature hsign) junk
  obtain ⟨m, hm, h₁, h₂, h₃⟩ := search_signatureRegEx e.isTimestamp_stamp
    (md5.length_hash (e.signedBytes config.signatureSecret)) hhash e.isBound
  have hparam : (signedUrl user host value (e.signature md5 config.signatureSecret)).getUrlParameter
      signatureUrlParamName = some (e.signature md5 config.signatureSecret) :=
    congrArg (Option.map Prod.snd) (find?_cons_of_pos (caseEq_refl signatureUrlParamName))
  have hback : (signedUrl user host value (e.signature md5 config.signatureSecret)).getIdentity =
      e.identity := by
    rw [hidentity]
    exact getIdentity_identityUrl hlower hport
  unfold readAssertion
  have hsip : (signedUrl user host value (e.signature md5 config.signatureSecret)).scheme = .sip :=
    rfl
  rw [hreread]
  dsimp only
  rw [if_pos hsip, hparam]
  dsimp only
  rw [cString_eq_self hsig, signature_eq, hm]
  dsimp only
  rw [h₁, h₂, h₃, ← signature_eq, hback]
  rfl

/-- What `encode` prints for the identity of a domain is not read. -/
theorem readAssertion_encode_domain (md5 : NetMd5Codec) (config : Config) (junk : Byte)
    {e : Encoding} (hidentity : e.identity = byte '@' :: (host ++ port)) (hhost : IsHost host)
    (hport : IsPortText port value) : readAssertion (encode md5 config junk e) = none := by
  have hread : ofText e.identity .nameAddr = { scheme := .unknown } := by
    rw [ofText, hidentity, if_neg (cons_ne_nil _ _)]
    exact fromString_identity_domain hhost hport
  have hprinted : encode md5 config junk e = byte '<' :: (text "sip:" ++ byte ';' ::
      (paramText escape (signatureUrlParamName, e.signature md5 config.signatureSecret))) ++
        [byte '>'] := by
    rw [encode, hread]
    simp [setUrlParameter, setFirst, Url.toString, needsBrackets, getUri, Scheme.name,
      Scheme.hasPath, Scheme.isSip, userText, portText, portIsValid, portNone, urlParamsText,
      headerParamsText, text]
  have hunknown : (ofText (encode md5 config junk e) .nameAddr).scheme = .unknown := by
    have hparam {c : Byte} (hc : c ∈ paramText escape (signatureUrlParamName,
        e.signature md5 config.signatureSecret)) : isUrlParamsByte c = true ∧ c ≠ byte '@' := by
      have hname : ∀ c ∈ signatureUrlParamName, isUrlParamsByte c = true ∧ c ≠ byte '@' := by decide
      have hescape : ∀ c, isEscapeByte c = true → isUrlParamsByte c = true ∧ c ≠ byte '@' := by
        decide +kernel
      rcases bytes_of_paramText hc with hc | hc | rfl
      · exact hname c hc
      · exact hescape c hc
      · decide
    rw [ofText, hprinted, if_neg (by simp)]
    exact scheme_of_no_host (fun c hc => (hparam hc).1) fun hmem => (hparam hmem).2 rfl
  unfold readAssertion
  dsimp only
  rw [hunknown, if_neg Scheme.noConfusion]

end Signed

/-! ## The round trip -/

/-- Signatures are good for five minutes. -/
def fiveMinutes : Config where
  signatureSecret := text "testsecret"
  signatureValidityInterval := ⟨300, 0⟩

end SipXauthIdentity

end SipXRouter
