import SipXRouter.Net.NetMd5Codec

/-!
# Nonces of authentication challenges

A nonce is a signature followed by the time it was made at, eight hexadecimal
digits in the clear.  The signature is the digest of these digits, the Call-Id,
the tag of the From header, a secret and the realm, with commas between those that
have no fixed length.  A server needs no table of nonces: `isNonceValid` computes
the signature again from the request it has.
-/

namespace SipXRouter

open List

/-- `strtol` in base 16, of a text too short to overflow. -/
def strtolHex (s : Text) : Int :=
  let start := (cString s).dropWhile fun c => isSpace c || c == 11
  let sign := start.take 1
  let rest := if sign = [byte '-'] ∨ sign = [byte '+'] then start.drop 1 else start
  -- a prefix counts only in front of a digit
  let digits :=
    if caseEq (rest.take 2) (text "0x") ∧ ((rest.drop 2).takeWhile isHex) ≠ [] then rest.drop 2
    else rest
  let value : Int := digitsValue 16 (digits.takeWhile isHex)
  if sign = [byte '-'] then -value else value

namespace SipNonceDb

/-- `MD5_SIZE`. -/
def md5Size : Nat := 32

/-- `HEX_TIMESTAMP_LENGTH`. -/
def hexTimestampLength : Nat := 8

/-- `%08x`. -/
def hex8 (n : Nat) : Text :=
  replicate (hexTimestampLength - (Nat.toDigits 16 n).length) (byte '0') ++
    (Nat.toDigits 16 n).map byte

/-- What the digest is taken of. -/
def signedBytes (secret callId fromTag realm timestamp : Text) : Text :=
  timestamp ++ callId ++ byte ',' :: fromTag ++ byte ',' :: secret ++ byte ',' :: realm

def nonceSignature (md5 : NetMd5Codec) (secret callId fromTag realm timestamp : Text) : Text :=
  md5.hash (signedBytes secret callId fromTag realm timestamp)

/-- `createNewNonce` at time `now`. -/
def createNewNonce (md5 : NetMd5Codec) (secret : Text) (now : Nat) (callId fromTag realm : Text) :
    Text :=
  let dateString := hex8 (now % 2 ^ 32)
  nonceSignature md5 secret callId fromTag realm dateString ++ dateString

/-- `isNonceValid` at time `now`. -/
def isNonceValid (md5 : NetMd5Codec) (secret : Text) (now : Nat)
    (nonce callId fromTag realm : Text) (expiredTime : Int) : Bool :=
  if nonce.length = md5Size + hexTimestampLength then
    let timestamp := (nonce.drop md5Size).take hexTimestampLength
    let rcvdSignature := nonce.take md5Size
    let msgSignature := nonceSignature md5 secret callId fromTag realm timestamp
    if cString rcvdSignature = cString msgSignature then
      decide (now ≤ (toUInt64 (strtolHex timestamp) + toUInt64 expiredTime) % 2 ^ 64)
    else false
  else false

/-! ## The time stamp -/

theorem isHexLower_of_mem_hex8 {n : Nat} : ∀ c ∈ hex8 n, isHexLower c = true :=
  forall_mem_padded (by decide) (by decide) _ _

theorem length_hex8 {n : Nat} (hn : n < 2 ^ 32) : (hex8 n).length = hexTimestampLength := by
  have hle : (Nat.toDigits 16 n).length ≤ 8 :=
    (Nat.length_toDigits_le_iff (by decide) (by decide)).mpr hn
  rw [hex8, length_append, length_replicate, length_map]
  simp only [hexTimestampLength]
  omega

theorem digitsValue_hex8 (n : Nat) : digitsValue 16 (hex8 n) = n :=
  (digitsValue_zeros _ _ _).trans (digitsValue_toDigits (by decide) (by decide) n)

theorem isHexLower_spec : ∀ c : Byte, isHexLower c = true →
    (c != 0) = true ∧ (isSpace c || c == 11) = false ∧ c ≠ byte '-' ∧ c ≠ byte '+' ∧
      toLower c ≠ byte 'x' ∧ isHex c = true := by
  decide +kernel

/-- On hexadecimal digits the reading is their value. -/
theorem strtolHex_of_isHexLower {s : Text} (hs : ∀ c ∈ s, isHexLower c = true) :
    strtolHex s = digitsValue 16 s := by
  have hc : cString s = s := cString_eq_self fun c hc => (isHexLower_spec c (hs c hc)).1
  have hdigits : s.takeWhile isHex = s :=
    takeWhile_eq_self_iff.mpr fun c hc => (isHexLower_spec c (hs c hc)).2.2.2.2.2
  have hblank : s.dropWhile (fun c => isSpace c || c == 11) = s := by
    cases s with
    | nil => rfl
    | cons c s => simp only [dropWhile_cons, (isHexLower_spec c (hs c (by simp))).2.1,
        Bool.false_eq_true, if_false]
  have hsign : ∀ b : Byte, (b = byte '-' ∨ b = byte '+') → s.take 1 ≠ [b] := by
    intro b hb htake
    have hmem : b ∈ s := mem_of_mem_take (htake ▸ mem_singleton_self b)
    have hspec := isHexLower_spec b (hs b hmem)
    exact hb.elim hspec.2.2.1 hspec.2.2.2.1
  have hprefix : ¬ (caseEq (s.take 2) (text "0x") = true ∧ (s.drop 2).takeWhile isHex ≠ []) := by
    rintro ⟨hcase, -⟩
    rw [caseEq_iff] at hcase
    have hmem : byte 'x' ∈ (s.take 2).map toLower := by
      rw [hcase]
      decide
    obtain ⟨c, hc, hx⟩ := mem_map.mp hmem
    exact (isHexLower_spec c (hs c (mem_of_mem_take hc))).2.2.2.2.1 hx
  simp only [strtolHex, hc, hblank, hsign (byte '-') (Or.inl rfl), hsign (byte '+') (Or.inr rfl),
    or_self, if_false, hprefix, hdigits]

theorem strtolHex_hex8 (n : Nat) : strtolHex (hex8 n) = n := by
  rw [strtolHex_of_isHexLower isHexLower_of_mem_hex8, digitsValue_hex8]

/-! ## What is accepted -/

section Accepted

variable {md5 : NetMd5Codec} {secret : Text} {now : Nat} {nonce callId fromTag realm : Text}
  {expiredTime : Int}

theorem length_nonceSignature (timestamp : Text) :
    (nonceSignature md5 secret callId fromTag realm timestamp).length = md5Size :=
  md5.length_hash _

theorem cString_eq_hash_iff {s x : Text} (hs : s.length = md5Size) :
    cString s = cString (md5.hash x) ↔ s = md5.hash x := by
  have hhash : cString (md5.hash x) = md5.hash x :=
    cString_eq_self fun c hc => (isHexLower_spec c (md5.isHexLower_hash x c hc)).1
  rw [hhash]
  constructor
  · intro h
    have hlength : (cString s).length = s.length := by
      rw [h, md5.length_hash, hs]
      rfl
    rw [← h]
    exact ((takeWhile_sublist _).eq_of_length hlength).symm
  · rintro rfl
    exact hhash

/-- **What is accepted**: a signature of the call, tag and realm together with the eight
bytes that follow it, which are read as the time it was made at. -/
theorem isNonceValid_iff :
    isNonceValid md5 secret now nonce callId fromTag realm expiredTime = true ↔
      ∃ timestamp : Text, timestamp.length = hexTimestampLength ∧
        nonce = nonceSignature md5 secret callId fromTag realm timestamp ++ timestamp ∧
        now ≤ (toUInt64 (strtolHex timestamp) + toUInt64 expiredTime) % 2 ^ 64 := by
  constructor
  · intro h
    simp only [isNonceValid] at h
    split at h
    · next hlength =>
      split at h
      · next hsignature =>
        have hdrop : (nonce.drop md5Size).take hexTimestampLength = nonce.drop md5Size :=
          take_of_length_le (by rw [length_drop]; omega)
        have htake : (nonce.take md5Size).length = md5Size := by
          rw [length_take]
          omega
        rw [hdrop] at h hsignature
        refine ⟨nonce.drop md5Size, by rw [length_drop]; omega, ?_, of_decide_eq_true h⟩
        rw [nonceSignature, ← (cString_eq_hash_iff htake).mp hsignature, take_append_drop]
      · exact absurd h Bool.false_ne_true
    · exact absurd h Bool.false_ne_true
  · rintro ⟨timestamp, hlength, rfl, htime⟩
    have hsignature : (nonceSignature md5 secret callId fromTag realm timestamp).length = md5Size :=
      length_nonceSignature timestamp
    simp only [isNonceValid, length_append, hsignature, hlength, if_true,
      drop_left' hsignature, take_left' hsignature,
      take_of_length_le hlength.le, htime, decide_true]

end Accepted

/-! ## Issued nonces -/

/-- A call of `createNewNonce`.  Call-Id and tag are words of the grammar, without a
comma, and the clock reads a number of 32 bits. -/
structure Issue where
  callId : Text
  fromTag : Text
  realm : Text
  seconds : Nat
  comma_callId : byte ',' ∉ callId
  comma_fromTag : byte ',' ∉ fromTag
  seconds_lt : seconds < 2 ^ 32

namespace Issue

/-- The time stamp of the nonce. -/
def timestamp (i : Issue) : Text := hex8 (i.seconds % 2 ^ 32)

def signed (secret : Text) (i : Issue) : Text :=
  signedBytes secret i.callId i.fromTag i.realm i.timestamp

/-- The signature of the nonce. -/
def signature (md5 : NetMd5Codec) (secret : Text) (i : Issue) : Text :=
  nonceSignature md5 secret i.callId i.fromTag i.realm i.timestamp

/-- What `createNewNonce` returned. -/
def nonce (md5 : NetMd5Codec) (secret : Text) (i : Issue) : Text :=
  createNewNonce md5 secret i.seconds i.callId i.fromTag i.realm

theorem nonce_eq (md5 : NetMd5Codec) (secret : Text) (i : Issue) :
    i.nonce md5 secret = i.signature md5 secret ++ i.timestamp := rfl

theorem length_timestamp (i : Issue) : i.timestamp.length = hexTimestampLength :=
  length_hex8 (Nat.mod_lt _ (by decide))

theorem strtolHex_timestamp (i : Issue) : strtolHex i.timestamp = i.seconds := by
  rw [timestamp, strtolHex_hex8, Nat.mod_eq_of_lt i.seconds_lt]

end Issue

theorem append_comma_inj {a b x y : Text} (ha : byte ',' ∉ a) (hb : byte ',' ∉ b)
    (h : a ++ byte ',' :: x = b ++ byte ',' :: y) : a = b ∧ x = y := by
  have hne {s : Text} (hs : byte ',' ∉ s) : ∀ c ∈ s, (c != byte ',') = true := by
    rintro c hc
    rw [bne_iff_ne]
    rintro rfl
    exact hs hc
  obtain ⟨hab, hxy⟩ := append_inj_of_class (hne ha) (hne hb) (by simp) (by simp) h
  exact ⟨hab, tail_eq_of_cons_eq hxy⟩

/-- **The signed bytes can be cut in one way only.** -/
theorem signedBytes_inj {secret callId fromTag realm timestamp callId' fromTag' realm' timestamp' : Text}
    (hlength : timestamp.length = timestamp'.length)
    (hcallId : byte ',' ∉ callId) (hcallId' : byte ',' ∉ callId')
    (hfromTag : byte ',' ∉ fromTag) (hfromTag' : byte ',' ∉ fromTag')
    (h : signedBytes secret callId fromTag realm timestamp =
      signedBytes secret callId' fromTag' realm' timestamp') :
    timestamp = timestamp' ∧ callId = callId' ∧ fromTag = fromTag' ∧ realm = realm' := by
  simp only [signedBytes, append_assoc, cons_append] at h
  obtain ⟨htimestamp, h⟩ := append_inj h hlength
  obtain ⟨hcall, h⟩ := append_comma_inj hcallId hcallId' h
  obtain ⟨htag, h⟩ := append_comma_inj hfromTag hfromTag' h
  exact ⟨htimestamp, hcall, htag, tail_eq_of_cons_eq (append_cancel_left h)⟩

section Issued

variable {md5 : NetMd5Codec} {secret : Text} {issued : List Issue}
  (hideal : md5.Ideal (issued.map (Issue.signed secret)))
  {now : Nat} {callId fromTag realm : Text} {expiredTime : Int}
  (hcallId : byte ',' ∉ callId) (hfromTag : byte ',' ∉ fromTag)

theorem deadline_eq {seconds : Nat} (hseconds : seconds < 2 ^ 32) (hexpired : 0 ≤ expiredTime)
    (hlong : expiredTime < 2 ^ 63) :
    now ≤ (toUInt64 seconds + toUInt64 expiredTime) % 2 ^ 64 ↔ (now : Int) ≤ seconds + expiredTime := by
  simp only [toUInt64]
  omega

include hideal hcallId hfromTag in
theorem signature_binds {i : Issue} (hi : i ∈ issued) {timestamp : Text}
    (hlength : timestamp.length = hexTimestampLength)
    (h : nonceSignature md5 secret callId fromTag realm timestamp = i.signature md5 secret) :
    timestamp = i.timestamp ∧ callId = i.callId ∧ fromTag = i.fromTag ∧ realm = i.realm := by
  have hbytes := hideal (i.signed secret) (mem_map_of_mem hi) _ h
  exact signedBytes_inj (hlength.trans i.length_timestamp.symm) hcallId i.comma_callId hfromTag
    i.comma_fromTag hbytes

include hideal hcallId hfromTag in
theorem accepted_of_signature {i : Issue} (hi : i ∈ issued) {nonce : Text}
    (hsignature : nonce.take md5Size = i.signature md5 secret)
    (hvalid : isNonceValid md5 secret now nonce callId fromTag realm expiredTime = true) :
    nonce = i.nonce md5 secret ∧ callId = i.callId ∧ fromTag = i.fromTag ∧ realm = i.realm ∧
      now ≤ (toUInt64 i.seconds + toUInt64 expiredTime) % 2 ^ 64 := by
  obtain ⟨timestamp, hlength, rfl, htime⟩ := isNonceValid_iff.mp hvalid
  rw [take_left' (length_nonceSignature timestamp)] at hsignature
  obtain ⟨rfl, hcall, htag, hrealm⟩ := signature_binds hideal hcallId hfromTag hi hlength hsignature
  rw [i.strtolHex_timestamp] at htime
  exact ⟨by rw [hsignature, Issue.nonce_eq], hcall, htag, hrealm, htime⟩

include hideal hcallId hfromTag in
/-- **Nonces are bound to their call.**  Whatever the text, only the signature of the
call, tag and realm over the time stamp is accepted.  A text with an issued signature
is accepted exactly when it is an issued nonce of the same call, tag and realm whose
time has not passed; with another time stamp, call, tag or realm it is not. -/
theorem isNonceValid_iff_issued (hexpired : 0 ≤ expiredTime) (hlong : expiredTime < 2 ^ 63) :
    (∀ nonce, isNonceValid md5 secret now nonce callId fromTag realm expiredTime = true ↔
      ∃ timestamp : Text, timestamp.length = hexTimestampLength ∧
        nonce = nonceSignature md5 secret callId fromTag realm timestamp ++ timestamp ∧
        now ≤ (toUInt64 (strtolHex timestamp) + toUInt64 expiredTime) % 2 ^ 64) ∧
    (∀ nonce, (∃ i ∈ issued, nonce.take md5Size = i.signature md5 secret) →
      (isNonceValid md5 secret now nonce callId fromTag realm expiredTime = true ↔
        ∃ i ∈ issued, i.callId = callId ∧ i.fromTag = fromTag ∧ i.realm = realm ∧
          nonce = i.nonce md5 secret ∧ (now : Int) ≤ i.seconds + expiredTime)) ∧
    (∀ i ∈ issued, ∀ timestamp,
      isNonceValid md5 secret now (i.signature md5 secret ++ timestamp) callId fromTag realm
          expiredTime = true →
        timestamp = i.timestamp ∧ callId = i.callId ∧ fromTag = i.fromTag ∧ realm = i.realm) := by
  have hlength (i : Issue) : (i.signature md5 secret).length = md5Size := md5.length_hash _
  refine ⟨fun nonce => isNonceValid_iff, ?_, ?_⟩
  · rintro nonce ⟨i, hi, hsignature⟩
    constructor
    · intro hvalid
      obtain ⟨hnonce, rfl, rfl, rfl, htime⟩ :=
        accepted_of_signature hideal hcallId hfromTag hi hsignature hvalid
      exact ⟨i, hi, rfl, rfl, rfl, hnonce, (deadline_eq i.seconds_lt hexpired hlong).mp htime⟩
    · rintro ⟨j, -, rfl, rfl, rfl, rfl, htime⟩
      refine isNonceValid_iff.mpr ⟨j.timestamp, j.length_timestamp, rfl, ?_⟩
      rw [j.strtolHex_timestamp]
      exact (deadline_eq j.seconds_lt hexpired hlong).mpr htime
  · intro i hi timestamp hvalid
    obtain ⟨hnonce, hcall, htag, hrealm, -⟩ :=
      accepted_of_signature hideal hcallId hfromTag hi (take_left' (hlength i)) hvalid
    exact ⟨append_cancel_left hnonce, hcall, htag, hrealm⟩

end Issued

/-- A challenge in one call. -/
def challenge : Issue :=
  { callId := text "call-1@10.0.0.1", fromTag := text "30543f34", realm := text "example.com"
    seconds := 1185242419
    comma_callId := by decide +kernel
    comma_fromTag := by decide +kernel
    seconds_lt := by decide }

/-- A digest that knows what was signed for `challenge`. -/
def challengeMd5 : NetMd5Codec :=
  NetMd5Codec.ofTable [(challenge.signed (text "secret"), text "f5918ba63f89824a258e4e187257ddb0")]
    (by decide +kernel)

theorem challenge_valid :
    isNonceValid challengeMd5 (text "secret") 1185242500 (challenge.nonce challengeMd5 (text "secret"))
      challenge.callId challenge.fromTag challenge.realm 300 = true := by
  have hideal : challengeMd5.Ideal ([challenge].map (Issue.signed (text "secret"))) :=
    NetMd5Codec.ideal_ofTable _ _ (by decide +kernel) (by simp) (by simp)
  refine ((isNonceValid_iff_issued hideal challenge.comma_callId challenge.comma_fromTag
    (by decide) (by decide)).2.1 _ ⟨challenge, by simp, ?_⟩).mpr
    ⟨challenge, by simp, rfl, rfl, rfl, rfl, by decide⟩
  exact take_left' (challengeMd5.length_hash _)

/-- A digest that knows the signature over a time stamp in capital letters. -/
def capitalMd5 : NetMd5Codec :=
  NetMd5Codec.ofTable
    [(signedBytes (text "secret") challenge.callId challenge.fromTag challenge.realm (text "46A55D33"),
      text "f5918ba63f89824a258e4e187257ddb0")] (by decide +kernel)

/-- The format of the time stamp is not looked at: behind the right signature, capital
letters are accepted, although no nonce is made with them. -/
theorem capital_timestamp_accepted :
    capitalMd5.Ideal [signedBytes (text "secret") challenge.callId challenge.fromTag
        challenge.realm (text "46A55D33")] ∧
      isNonceValid capitalMd5 (text "secret") 1185242500
        (text "f5918ba63f89824a258e4e187257ddb046A55D33")
        challenge.callId challenge.fromTag challenge.realm 300 = true ∧
      ∀ s, text "f5918ba63f89824a258e4e187257ddb046A55D33" ≠
        createNewNonce capitalMd5 (text "secret") s challenge.callId challenge.fromTag
          challenge.realm := by
  refine ⟨NetMd5Codec.ideal_ofTable _ _ (by decide +kernel) (by simp) (by simp),
    by decide +kernel, fun s h => ?_⟩
  have hlength : (nonceSignature capitalMd5 (text "secret") challenge.callId challenge.fromTag
      challenge.realm (hex8 (s % 2 ^ 32))).length = md5Size := length_nonceSignature _
  have hdrop : text "46A55D33" = hex8 (s % 2 ^ 32) := by
    have := congrArg (drop md5Size) h
    rwa [createNewNonce, drop_left' hlength] at this
  have hcapital : isHexLower (byte 'A') = true :=
    isHexLower_of_mem_hex8 (n := s % 2 ^ 32) _ (by rw [← hdrop]; decide +kernel)
  exact absurd hcapital (by decide)

end SipNonceDb

end SipXRouter
