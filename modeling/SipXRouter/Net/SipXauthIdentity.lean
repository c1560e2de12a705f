import SipXRouter.Net.NetMd5Codec
import SipXRouter.Net.UrlParse
import SipXRouter.Os.OsTime

/-!
# Signed identities

`SipXauthIdentity` asserts an identity in a header value
`<sip:user@host;signature=timestamp:hash>`.  The hash is taken over timestamp,
secret, From tag, Call-Id and identity, or without the dialog where the separator
is `::`.  Nothing stands between these parts, so that one hash is good for every way
to cut the bytes behind it.
-/

namespace SipXRouter

open List

/-- An `int` where an `unsigned long` is asked for. -/
def unsignedLong (i : Int32) : UInt64 := i.toInt64.toUInt64

/-- Whether a signature must be bound to the dialog. -/
inductive DialogRule where
  | requireDialogBinding | allowUnbound
deriving DecidableEq

variable {a : Assertion} {callId fromTag i v : Text} {e : Encoding}

namespace SipXauthIdentity

open Pattern

def signatureUrlParamName : Text := text "signature"

def signatureFieldSeparator : Text := text ":"

/-- The expression for a signature: time stamp, an optional second colon, and the digest. -/
def signatureRegEx : Pattern :=
  cat [group 1 (plus (cls isHexUpper)), lit ":", group 2 (opt (lit ":")),
    group 3 (times 32 (cls isHexLower))]

/-- `sSignatureSecret` and `sSignatureValidityInterval`. -/
structure Config where
  signatureSecret : Text
  signatureValidityInterval : OsTime := ⟨0, 0⟩

/-! ## Encoding -/

/-- The arguments of a call of `encode`: the identity of the object, the dialog, the
seconds of the timestamp and the rule. -/
structure Encoding where
  identity : Text
  callId : Text
  fromTag : Text
  seconds : Int32
  bindRule : DialogRule := .requireDialogBinding
deriving DecidableEq

namespace Encoding

/-- `sprintf(stamp, "%lX", seconds)`. -/
def stamp (e : Encoding) : Text := hexText (unsignedLong e.seconds).toNat

/-- The part of the signed bytes that binds to the dialog. -/
def dialog (e : Encoding) : Text :=
  match e.bindRule with
  | .requireDialogBinding => e.fromTag ++ e.callId
  | .allowUnbound => []

/-- The bytes that are hashed. -/
def signedBytes (secret : Text) (e : Encoding) : Text :=
  e.stamp ++ secret ++ e.dialog ++ e.identity

/-- The value of the signature parameter. -/
def signature (md5 : NetMd5Codec) (secret : Text) (e : Encoding) : Text :=
  e.stamp ++ signatureFieldSeparator ++
    (match e.bindRule with
      | .requireDialogBinding => []
      | .allowUnbound => signatureFieldSeparator) ++
    md5.hash (e.signedBytes secret)

end Encoding

/-- `SipXauthIdentity::encode`. -/
def encode (md5 : NetMd5Codec) (config : Config) (junk : Byte) (e : Encoding) : Text :=
  let encodedUrl : Url := { Url.ofText e.identity .nameAddr with scheme := .sip }
  (encodedUrl.setUrlParameter signatureUrlParamName
    (e.signature md5 config.signatureSecret)).toString junk

/-! ## Decoding -/

/-- `from_string` on the hexadecimal digits of a timestamp: `strtoul` reads them all
and stops at `ULONG_MAX`. -/
def fromHexString (s : Text) : UInt64 := UInt64.ofNat (min (digitsValue 16 s) (2 ^ 64 - 1))

/-- What a header value asserts: the decoded identity, the timestamp, whether there is
only one separator, and the signature hash. -/
structure Assertion where
  decodedIdentity : Text
  timestamp : Text
  isBound : Bool
  signatureHash : Text
deriving DecidableEq

/-- The part of `decode` that takes a header value apart. -/
def readAssertion (identityValue : Text) : Option Assertion :=
  let encodedUrl := Url.ofText identityValue .nameAddr
  if encodedUrl.scheme = .sip then
    match encodedUrl.getUrlParameter signatureUrlParamName with
    | none => none
    | some signatureParamValue =>
      match search signatureRegEx (cString signatureParamValue) with
      | none => none
      | some m =>
        some
          { decodedIdentity := encodedUrl.getIdentity
            timestamp := (m.group 1).getD []
            isBound := m.group 2 == some []
            signatureHash := (m.group 3).getD [] }
  else none

/-- The dialog part of the bytes that `decode` hashes. -/
def Assertion.dialog (a : Assertion) (callId fromTag : Text) : Text :=
  if a.isBound then fromTag ++ callId else []

/-- `SipXauthIdentity::decode`: the identity, if the value is accepted. -/
def decode (md5 : NetMd5Codec) (config : Config) (secsSinceEpoch : UInt64)
    (identityValue callId fromTag : Text) (bindRule : DialogRule) : Option Text :=
  match readAssertion identityValue with
  | none => none
  | some a =>
    if bindRule = .requireDialogBinding ∧ a.isBound = false then none
    else if config.signatureValidityInterval.isNoWait = false ∧
        fromHexString a.timestamp + unsignedLong config.signatureValidityInterval.seconds <
          secsSinceEpoch then none
    else
      let validSignature := md5.hash
        (a.timestamp ++ config.signatureSecret ++ a.dialog callId fromTag ++ a.decodedIdentity)
      if validSignature = a.signatureHash then some a.decodedIdentity else none

/-! ## What header values assert -/

/-- A timestamp as the pattern takes it. -/
def IsTimestamp (s : Text) : Prop := s ≠ [] ∧ ∀ c ∈ s, isHexUpper c = true

theorem Encoding.isTimestamp_stamp (e : Encoding) : IsTimestamp e.stamp :=
  ⟨hexText_ne_nil _, isHexUpper_of_mem_hexText⟩

/-- What a readable assertion consists of. -/
theorem readAssertion_spec (ha : readAssertion v = some a) :
    IsTimestamp a.timestamp ∧ Url.IsIdentity a.decodedIdentity := by
  unfold readAssertion at ha
  by_cases hsip : (Url.ofText v .nameAddr).scheme = .sip
  · simp only [hsip, if_true] at ha
    cases hparam : (Url.ofText v .nameAddr).getUrlParameter signatureUrlParamName with
    | none => simp [hparam] at ha
    | some param =>
      simp only [hparam] at ha
      cases hsearch : search signatureRegEx (cString param) with
      | none => simp [hsearch] at ha
      | some m =>
        simp only [hsearch, Option.some.injEq] at ha
        subst ha
        constructor
        · obtain ⟨-, k, -, hm⟩ := searchFrom_append hsearch
          obtain ⟨ts, hts⟩ := Option.isSome_iff_exists.mp (isSome_group_of_mem_run hm)
          obtain ⟨body, hbody, hlang⟩ := exists_of_group hm hts
          have hgroups : groups signatureRegEx = [(1, plus (cls isHexUpper)),
              (2, opt (lit ":")), (3, times 32 (cls isHexLower))] := rfl
          have heq : body = plus (cls isHexUpper) := by simpa [hgroups] using hbody
          rw [heq] at hlang
          simp only [hts, Option.getD_some]
          exact mem_lang_plus_cls.mp hlang
        · -- the empty text has no parameters
          have hne : v ≠ [] := by
            rintro rfl
            simp [Url.ofText, Url.getUrlParameter] at hparam
          simp only [Url.ofText, hne, if_false] at hsip ⊢
          exact Url.isIdentity_getIdentity hsip
  · simp [hsip] at ha

/-- The separator of the two modes. -/
def separator (isBound : Bool) : Text := if isBound then text ":" else text "::"

section Complete

variable {ts hash : Text} (hts : IsTimestamp ts) (hlen : hash.length = 32)
  (hhash : ∀ c ∈ hash, isHexLower c = true) (isBound : Bool)

include hts hlen hhash

/-- The expression cuts a signature at its separator. -/
theorem search_signatureRegEx :
    ∃ m, search signatureRegEx (ts ++ (separator isBound ++ hash)) = some m ∧
      m.group 1 = some ts ∧ (m.group 2 == some []) = isBound ∧ m.group 3 = some hash := by
  have hstamp : ∀ s, (run (group 1 (plus (cls isHexUpper))) 0 (ts ++ byte ':' :: s)).head? =
      some ⟨ts, byte ':' :: s, [(1, ts)]⟩ := by
    intro s
    exact head?_run_group (head?_run_plus_cls hts.1 hts.2 (by simp; decide) 0)
  have hcolon : ∀ s n, (run (lit ":") n (byte ':' :: s)).head? = some ⟨[byte ':'], s, []⟩ :=
    fun s n => rfl
  have hdigest : ∀ n, (run (cat [group 3 (times 32 (cls isHexLower))]) n hash).head? =
      some ⟨hash, [], [(3, hash)]⟩ := by
    intro n
    have hrun : (run (times 32 (cls isHexLower)) n (hash ++ [])).head? = some ⟨hash, [], []⟩ :=
      head?_run_times_cls hhash hlen n
    rw [append_nil] at hrun
    have hend : ∀ n, (run (cat []) n []).head? = some ⟨[], [], []⟩ := fun n => rfl
    exact (head?_run_seq (head?_run_group hrun) (hend _)).trans (by simp [Match.append])
  cases isBound with
  | true =>
    have hsecond : ∀ n, (run (group 2 (opt (lit ":"))) n hash).head? =
        some ⟨[], hash, [(2, [])]⟩ := by
      intro n
      have hclass : ∀ c ∈ hash.head?, (c == byte ':') = false := by
        intro c hc
        have hlower := hhash c (mem_of_head? hc)
        exact beq_false_of_ne (ne_of_class hlower (by decide))
      have hnone : run (lit ":") n hash = [] := run_seq_eq_nil (run_cls_eq_nil hclass)
      rw [opt, head?_run_group (m := ⟨[], hash, []⟩)]
      rw [run_alt_right hnone]
      rfl
    have h := head?_run_seq (hstamp hash)
      (head?_run_seq (hcolon hash _) (head?_run_seq (hsecond _) (hdigest _)))
    exact ⟨_, search_of_matchAt h, rfl, rfl, rfl⟩
  | false =>
    have hsecond : ∀ n, (run (group 2 (opt (lit ":"))) n (byte ':' :: hash)).head? =
        some ⟨[byte ':'], hash, [(2, [byte ':'])]⟩ := fun n => rfl
    have h := head?_run_seq (hstamp (byte ':' :: hash))
      (head?_run_seq (hcolon _ _) (head?_run_seq (hsecond _) (hdigest _)))
    exact ⟨_, search_of_matchAt h, rfl, rfl, rfl⟩

omit hlen in
theorem bytes_signature : ∀ c ∈ ts ++ (separator isBound ++ hash),
    isHex c = true ∨ c = byte ':' := by
  have hupper : ∀ c, isHexUpper c = true → isHex c = true := by
    intro c hc
    rw [isHexUpper, Bool.or_eq_true] at hc
    rcases hc with hc | hc <;> simp [isHex, hc]
  have hsep : ∀ isBound, ∀ c ∈ separator isBound, c = byte ':' := by decide
  intro c hc
  rw [mem_append, mem_append] at hc
  rcases hc with hc | hc | hc
  · exact Or.inl (hupper c (hts.2 c hc))
  · exact Or.inr (hsep isBound c hc)
  · exact Or.inl (NetMd5Codec.isHex_of_isHexLower (hhash c hc))

omit hlen in
theorem parseCgiVariables_signature :
    parseCgiVariables (byte ';') (signatureUrlParamName ++ byte '=' :: (ts ++ (separator isBound ++ hash))) =
      [(signatureUrlParamName, ts ++ (separator isBound ++ hash))] := by
  have hbytes := bytes_signature hts hhash isBound
  generalize ts ++ (separator isBound ++ hash) = value at hbytes
  have hplain : ∀ c, isHex c = true ∨ c = byte ':' →
      (c == byte ';') = false ∧ (c == byte '=') = false ∧ isCgiBlank c = false ∧
        c ≠ byte '+' ∧ c ≠ byte '%' ∧ c ≠ 0 := by
    rintro c (hc | rfl)
    · exact ⟨beq_false_of_ne (ne_of_class hc (by decide)), beq_false_of_ne (ne_of_class hc (by decide)),
        oneOf_of_class hc (by decide), ne_of_class hc (by decide), ne_of_class hc (by decide),
        ne_of_class hc (by decide)⟩
    · decide
  have hnameByte : ∀ c ∈ signatureUrlParamName,
      (c == byte ';') = false ∧ (c == byte '=') = false := by decide
  have hsplit : segments (· == byte ';') (signatureUrlParamName ++ byte '=' :: value) =
      [signatureUrlParamName ++ byte '=' :: value] := by
    refine segments_eq_singleton (by simp) ?_
    intro c hc
    rw [mem_append, mem_cons] at hc
    rcases hc with hc | rfl | hc
    · exact (hnameByte c hc).1
    · decide
    · exact (hplain c (hbytes c hc)).1
  have hname : NameValueTokenizer.getSubFieldPtr (signatureUrlParamName ++ byte '=' :: value) 0
      (· == byte '=') = some (signatureUrlParamName, byte '=' :: value) :=
    NameValueTokenizer.getSubFieldPtr_zero (by decide) (fun c hc => (hnameByte c hc).2)
      (by decide) value
  have htrim : trim isCgiBlank value = value := by
    refine trim_eq_self ?_ ?_
    · intro c hc
      exact (hplain c (hbytes c (mem_of_head? hc))).2.2.1
    · intro c hc
      exact (hplain c (hbytes c (mem_of_getLast? hc))).2.2.1
  have hvalue : (byte '=' :: value).dropWhile (· == byte '=') = value := by
    rw [dropWhile_cons_of_pos (by decide)]
    cases value with
    | nil => rfl
    | cons c cs => rw [dropWhile_cons_of_neg (by simp [(hplain c (hbytes c (by simp))).2.1])]
  have hself : unescape value = value :=
    unescape_eq_self fun c hc => (hplain c (hbytes c hc)).2.2.2
  have hblank : signatureUrlParamName.dropWhile NameValueTokenizer.isBlank =
      signatureUrlParamName := by decide
  have hparam : trim isCgiBlank (unescape signatureUrlParamName) = signatureUrlParamName := by
    decide +kernel
  have hpair : parseCgiVariable (signatureUrlParamName ++ byte '=' :: value) =
      some (signatureUrlParamName, value) := by
    unfold parseCgiVariable
    rw [hname]
    simp only [hblank, hvalue, htrim, hself, hparam]
    rw [if_neg (by decide +kernel)]
  rw [parseCgiVariables, hsplit, filterMap_cons, hpair, filterMap_nil]

/-- What was written for an identity is read back. -/
theorem exists_readAssertion (hi : Url.IsIdentity i) :
    ∃ v, readAssertion v = some ⟨i, ts, isBound, hash⟩ := by
  have hbytes := bytes_signature hts hhash isBound
  obtain ⟨m, hm, h₁, h₂, h₃⟩ := search_signatureRegEx hts hlen hhash isBound
  have hparams := parseCgiVariables_signature hts hhash isBound
  generalize ts ++ (separator isBound ++ hash) = value at *
  have hplain : ∀ c, isHex c = true ∨ c = byte ':' →
      Url.isUrlParamsByte c = true ∧ c ≠ byte '@' ∧ (c != 0) = true := by
    rintro c (hc | rfl)
    · rw [Url.isUrlParamsByte, oneOf_of_class hc (by decide)]
      exact ⟨rfl, ne_of_class hc (by decide), bne_iff_ne.mpr (ne_of_class hc (by decide))⟩
    · decide
  have hnameByte : ∀ c ∈ signatureUrlParamName,
      Url.isUrlParamsByte c = true ∧ c ≠ byte '@' := by decide
  have hall : ∀ c ∈ signatureUrlParamName ++ byte '=' :: value,
      Url.isUrlParamsByte c = true ∧ c ≠ byte '@' := by
    intro c hc
    rw [mem_append, mem_cons] at hc
    rcases hc with hc | rfl | hc
    · exact hnameByte c hc
    · decide
    · exact ⟨(hplain c (hbytes c hc)).1, (hplain c (hbytes c hc)).2.1⟩
  obtain ⟨v, hne, hsip, hidentity, hparam⟩ := Url.exists_header hi
    (by simp : signatureUrlParamName ++ byte '=' :: value ≠ []) (fun c hc => (hall c hc).1)
    (fun hat => (hall _ hat).2 rfl)
  have hstring : cString value = value :=
    cString_eq_self fun c hc => (hplain c (hbytes c hc)).2.2
  have hsignature : (Url.fromString v .nameAddr).getUrlParameter signatureUrlParamName =
      some value := by
    rw [Url.getUrlParameter, hparam, hparams, find?_cons_of_pos (by simp)]
    rfl
  refine ⟨v, ?_⟩
  unfold readAssertion
  simp only [Url.ofText, hne, if_false, hsip, if_true, hsignature, hstring, hm, hidentity, h₁, h₂,
    h₃, Option.getD_some]

end Complete

/-! ## Binding -/

/-- **Signatures are bound.**  `log` holds the calls of `encode`, and only `encode` can
sign, so that a header value presented carries a hash from the log.  Where `decode`
accepts it, its identity was signed at its timestamp, and for the same dialog if for
one.  A hash that was made for a dialog is accepted for no other identity and no other
dialog, nor without one. -/
def SignaturesBound (md5 : NetMd5Codec) (config : Config) (log : List Encoding) : Prop :=
  ∀ (now : UInt64) (v callId fromTag : Text) (bindRule : DialogRule) (i : Text) (a : Assertion),
    decode md5 config now v callId fromTag bindRule = some i →
    readAssertion v = some a →
    (∃ e ∈ log, a.signatureHash = md5.hash (e.signedBytes config.signatureSecret)) →
      (∃ e ∈ log, e.identity = i ∧ unsignedLong e.seconds = fromHexString a.timestamp ∧
        (e.bindRule = .requireDialogBinding → e.callId = callId ∧ e.fromTag = fromTag)) ∧
      ∀ e ∈ log, e.bindRule = .requireDialogBinding →
        a.signatureHash = md5.hash (e.signedBytes config.signatureSecret) →
        i = e.identity ∧ callId = e.callId ∧ fromTag = e.fromTag ∧ a.isBound = true

/-- One way to cut signed bytes: a timestamp, the secret, whatever a dialog may supply,
and an identity. -/
def Reads (secret signed timestamp dialog identity : Text) : Prop :=
  IsTimestamp timestamp ∧ Url.IsIdentity identity ∧
    timestamp ++ secret ++ dialog ++ identity = signed

/-- What was signed for a dialog cannot be cut at all, and what was signed without one
only into timestamps and identities that were signed without one. -/
def Unambiguous (secret : Text) (log : List Encoding) : Prop :=
  ∀ e ∈ log, ∀ timestamp dialog identity,
    Reads secret (e.signedBytes secret) timestamp dialog identity →
      e.bindRule = .allowUnbound ∧
      ∃ e' ∈ log, e'.bindRule = .allowUnbound ∧ e'.identity = identity ∧
        unsignedLong e'.seconds = fromHexString timestamp

/-- What `decode` accepts carries the hash of its parts. -/
theorem decode_spec {md5 : NetMd5Codec} {config : Config} {now : UInt64} {bindRule : DialogRule}
    (ha : readAssertion v = some a)
    (hdecode : decode md5 config now v callId fromTag bindRule = some i) :
    i = a.decodedIdentity ∧ a.signatureHash = md5.hash (a.timestamp ++ config.signatureSecret ++
      a.dialog callId fromTag ++ a.decodedIdentity) := by
  simp only [decode, ha] at hdecode
  split at hdecode
  · cases hdecode
  · split at hdecode
    · cases hdecode
    · split at hdecode
      · next heq =>
          cases hdecode
          exact ⟨rfl, heq.symm⟩
      · cases hdecode

theorem decode_of_hash {md5 : NetMd5Codec} {config : Config} (ha : readAssertion v = some a)
    (hhash : a.signatureHash = md5.hash (a.timestamp ++ config.signatureSecret ++
      a.dialog callId fromTag ++ a.decodedIdentity)) :
    decode md5 config 0 v callId fromTag .allowUnbound = some a.decodedIdentity := by
  have hrule : ¬ (DialogRule.allowUnbound = .requireDialogBinding ∧ a.isBound = false) := by simp
  have hearly : ¬ (config.signatureValidityInterval.isNoWait = false ∧
      fromHexString a.timestamp + unsignedLong config.signatureValidityInterval.seconds < 0) := by
    rintro ⟨-, hlt⟩
    exact absurd hlt (by simp)
  simp only [decode, ha, if_neg hrule, if_neg hearly, hhash, if_true]

theorem Encoding.reads {secret : Text} (hi : Url.IsIdentity e.identity) :
    Reads secret (e.signedBytes secret) e.stamp e.dialog e.identity :=
  ⟨e.isTimestamp_stamp, hi, rfl⟩

section Binding

variable {md5 : NetMd5Codec} {config : Config} {log : List Encoding}

theorem reads_of_decode (hideal : md5.Ideal (log.map (Encoding.signedBytes config.signatureSecret)))
    {now : UInt64} {bindRule : DialogRule}
    (hdecode : decode md5 config now v callId fromTag bindRule = some i)
    (ha : readAssertion v = some a) (he : e ∈ log)
    (hsig : a.signatureHash = md5.hash (e.signedBytes config.signatureSecret)) :
    Reads config.signatureSecret (e.signedBytes config.signatureSecret) a.timestamp
      (a.dialog callId fromTag) i := by
  obtain ⟨rfl, hhash⟩ := decode_spec ha hdecode
  obtain ⟨htimestamp, hidentity⟩ := readAssertion_spec ha
  exact ⟨htimestamp, hidentity, hideal _ (mem_map_of_mem he) _ (hhash.symm.trans hsig)⟩

theorem exists_accepted (md5 : NetMd5Codec) {timestamp dialog : Text}
    (hreads : Reads config.signatureSecret (e.signedBytes config.signatureSecret) timestamp dialog i)
    (isBound : Bool) (callId fromTag : Text)
    (hdialog : (if isBound then fromTag ++ callId else []) = dialog) :
    ∃ v a, readAssertion v = some a ∧ a.timestamp = timestamp ∧ a.isBound = isBound ∧
      a.signatureHash = md5.hash (e.signedBytes config.signatureSecret) ∧
      decode md5 config 0 v callId fromTag .allowUnbound = some i := by
  obtain ⟨htimestamp, hi, heq⟩ := hreads
  obtain ⟨v, hv⟩ := exists_readAssertion htimestamp
    (md5.length_hash (e.signedBytes config.signatureSecret)) (md5.isHexLower_hash _) isBound hi
  refine ⟨v, _, hv, rfl, rfl, rfl, decode_of_hash hv ?_⟩
  simp only [Assertion.dialog, hdialog, heq]

theorem exists_other_dialog {dialog : Text} (hne : dialog ≠ []) (callId fromTag : Text) :
    ∃ callId' fromTag', fromTag' ++ callId' = dialog ∧ ¬ (callId' = callId ∧ fromTag' = fromTag) := by
  by_cases hcut : fromTag = []
  · refine ⟨[], dialog, by simp, ?_⟩
    rintro ⟨-, rfl⟩
    exact hne hcut
  · refine ⟨dialog, [], by simp, ?_⟩
    rintro ⟨-, rfl⟩
    exact hcut rfl

theorem SignaturesBound.allowUnbound (hbound : SignaturesBound md5 config log)
    (he : e ∈ log) {timestamp dialog : Text}
    (hreads : Reads config.signatureSecret (e.signedBytes config.signatureSecret) timestamp dialog i) :
    e.bindRule = .allowUnbound := by
  by_contra hrule
  have hrule : e.bindRule = .requireDialogBinding := by
    cases hr : e.bindRule with
    | requireDialogBinding => rfl
    | allowUnbound => exact absurd hr hrule
  by_cases hne : dialog = []
  · -- without a dialog, the value passes as an unbound assertion
    obtain ⟨v, a, hv, -, hmode, hsig, hdecode⟩ := exists_accepted md5 hreads
      false [] [] (by rw [hne]; rfl)
    have h := ((hbound _ _ _ _ _ _ _ hdecode hv ⟨e, he, hsig⟩).2 e he hrule hsig).2.2.2
    rw [hmode] at h
    cases h
  · obtain ⟨callId, fromTag, hcut, hother⟩ := exists_other_dialog hne e.callId e.fromTag
    obtain ⟨v, a, hv, -, -, hsig, hdecode⟩ := exists_accepted md5 hreads
      true callId fromTag (by simpa using hcut)
    have h := (hbound _ _ _ _ _ _ _ hdecode hv ⟨e, he, hsig⟩).2 e he hrule hsig
    exact hother ⟨h.2.1, h.2.2.1⟩

/-- Signatures are bound exactly if nothing that was signed can be cut in a way that
was not signed. -/
theorem signaturesBound_iff
    (hideal : md5.Ideal (log.map (Encoding.signedBytes config.signatureSecret))) :
    SignaturesBound md5 config log ↔ Unambiguous config.signatureSecret log := by
  constructor
  · intro hbound e he timestamp dialog i hreads
    refine ⟨hbound.allowUnbound he hreads, ?_⟩
    obtain ⟨v, a, hv, rfl, -, hsig, hdecode⟩ := exists_accepted md5 hreads
      true [] dialog (by simp)
    obtain ⟨e', he', hidentity, hseconds, -⟩ :=
      (hbound _ _ _ _ _ _ _ hdecode hv ⟨e, he, hsig⟩).1
    refine ⟨e', he', ?_, hidentity, hseconds⟩
    exact hbound.allowUnbound he' (Encoding.reads (hidentity ▸ hreads.2.1))
  · intro hun now v callId fromTag bindRule i a hdecode ha hissued
    refine ⟨?_, ?_⟩
    · obtain ⟨e, he, hsig⟩ := hissued
      obtain ⟨-, e', he', hrule, hidentity, hseconds⟩ :=
        hun e he _ _ _ (reads_of_decode hideal hdecode ha he hsig)
      exact ⟨e', he', hidentity, hseconds, fun h => by rw [hrule] at h; cases h⟩
    · intro e he hrule hsig
      have h := (hun e he _ _ _ (reads_of_decode hideal hdecode ha he hsig)).1
      rw [hrule] at h
      cases h

end Binding

/-- The identity of a whole domain, signed without a dialog. -/
def domainCall : Encoding :=
  { identity := text "@example.com", callId := [], fromTag := [], seconds := 1185242419
    bindRule := .allowUnbound }

/-- A digest that knows what was signed for `domainCall`. -/
def domainMd5 : NetMd5Codec :=
  NetMd5Codec.ofTable [(domainCall.signedBytes (text "testsecret"),
    text "f5918ba63f89824a258e4e187257ddb0")] (by decide +kernel)

theorem signaturesBound_domainCall :
    SignaturesBound domainMd5 { signatureSecret := text "testsecret" } [domainCall] := by
  refine (signaturesBound_iff ?_).mpr ?_
  · exact NetMd5Codec.ideal_ofTable _ _ (by decide +kernel) (by simp) (by simp)
  · rintro e he timestamp dialog i ⟨htimestamp, ⟨user, host, port, -, -, -, -, -, rfl⟩, heq⟩
    obtain rfl := mem_singleton.mp he
    -- the secret does not start with a digit, and there is one `@` only
    obtain ⟨rfl, hrest⟩ := append_inj_of_class htimestamp.2 domainCall.isTimestamp_stamp.2
      (x := text "testsecret" ++ (dialog ++ (user ++ byte '@' :: (host ++ port))))
      (y := text "testsecret" ++ byte '@' :: text "example.com")
      (by simp [text]; decide) (by simp [text]; decide)
      (by simpa [Encoding.signedBytes, Encoding.dialog, domainCall, text] using heq)
    have hat : (dialog ++ user) ++ byte '@' :: (host ++ port) = byte '@' :: text "example.com" := by
      simpa using append_cancel_left hrest
    obtain ⟨hnil, hhost⟩ := eq_nil_of_append_cons hat (by decide +kernel)
    obtain ⟨rfl, rfl⟩ := append_eq_nil_iff.mp hnil
    refine ⟨rfl, domainCall, by simp, rfl, ?_, by decide +kernel⟩
    rw [hhost]
    decide +kernel

/-- A caller with tag and Call-Id. -/
def dialogCall : Encoding :=
  { identity := text "identity@example.com"
    callId := text "f88dfabce84b6a2787ef024a7dbe8749"
    fromTag := text "30543f3483e1cb11ecb40866edd3295b"
    seconds := 1185242419 }

/-- A digest that knows what was signed for `dialogCall`. -/
def dialogMd5 : NetMd5Codec :=
  NetMd5Codec.ofTable [(dialogCall.signedBytes (text "testsecret"),
    text "56681beb4f29fc796f6ae9d0ad0269d2")] (by decide +kernel)

/-- The last byte of the tag moves into the Call-Id, and the value that was made for
the one dialog is accepted for the other. -/
theorem dialogCall_other_dialog :
    dialogMd5.Ideal ([dialogCall].map (Encoding.signedBytes (text "testsecret"))) ∧
    ¬ SignaturesBound dialogMd5 { signatureSecret := text "testsecret" } [dialogCall] := by
  refine ⟨NetMd5Codec.ideal_ofTable _ _ (by decide +kernel) (by simp) (by simp), ?_⟩
  intro hbound
  have hvalue : encode dialogMd5 { signatureSecret := text "testsecret" } 0 dialogCall =
      text "<sip:identity@example.com;signature=46A55D33%3A56681beb4f29fc796f6ae9d0ad0269d2>" := by
    decide +kernel
  have hread : readAssertion
      (encode dialogMd5 { signatureSecret := text "testsecret" } 0 dialogCall) =
        some ⟨text "identity@example.com", text "46A55D33", true,
          text "56681beb4f29fc796f6ae9d0ad0269d2"⟩ := by
    rw [hvalue]
    decide +kernel
  have hdecode : decode dialogMd5 { signatureSecret := text "testsecret" } 1185242420
      (encode dialogMd5 { signatureSecret := text "testsecret" } 0 dialogCall)
      (text "bf88dfabce84b6a2787ef024a7dbe8749") (text "30543f3483e1cb11ecb40866edd3295")
      .requireDialogBinding = some (text "identity@example.com") := by
    rw [hvalue]
    decide +kernel
  have hsig : text "56681beb4f29fc796f6ae9d0ad0269d2" =
      dialogMd5.hash (dialogCall.signedBytes (text "testsecret")) := by decide +kernel
  have h := (hbound _ _ _ _ _ _ _ hdecode hread ⟨dialogCall, by simp, hsig⟩).2 dialogCall
    (by simp) rfl hsig
  exact absurd h.2.1 (by decide +kernel)

end SipXauthIdentity

end SipXRouter
