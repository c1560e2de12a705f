import Mathlib.Data.List.DropRight
import SipXRouter.Net.NetBase64Buffers
import SipXRouter.Net.SdpBody

/-!
# Keys in session descriptions

`addSrtpCryptoField` writes a master key in base64 behind `inline:`, and `getSrtpCryptoField`
reads it back with a tokenizer that takes a `/` for a separator, decodes it into an array on the
stack, and copies that as a C string.  It looks for the attribute behind the `m` field of the
section, without an end.
-/

namespace SipXRouter

open List

/-- `SRTP_KEY_LENGTH`. -/
def srtpKeyLength : Nat := 30

/-- The supported values of `cipherType`. -/
inductive CipherType where
  | aesCm128HmacSha180 | aesCm128HamcSha132 | f8128HmacSha180
deriving DecidableEq

/-- The name of a crypto suite. -/
def CipherType.suite : CipherType → Text
  | aesCm128HmacSha180 => text "AES_CM_128_HMAC_SHA1_80"
  | aesCm128HamcSha132 => text "AES_CM_128_HAMC_SHA1_32"
  | f8128HmacSha180 => text "F8_128_HMAC_SHA1_80"

abbrev MasterKey := {key : Text // key.length = srtpKeyLength}

/-- `SdpSrtpParameters`; a cipher that is not supported is `none`. -/
@[ext]
structure SdpSrtpParameters where
  cipherType : Option CipherType
  securityLevel : Int
  masterKey : MasterKey
deriving DecidableEq

variable {j n size : Nat} {w : Text}

namespace SdpBody

open NetBase64Codec NameValueTokenizer

/-! ## Writing -/

/-- The bit `SRTP_ENCRYPTION`. -/
def encryption (securityLevel : Int) : Int := securityLevel % 2

/-- The bit `SRTP_AUTHENTICATION`. -/
def authentication (securityLevel : Int) : Int := securityLevel / 2 % 2 * 2

/-- What is switched off is named behind the key. -/
def sessionParameters (securityLevel : Int) : Text :=
  (if encryption securityLevel = 0 then text " UNENCRYPTED_SRTP" else []) ++
    if authentication securityLevel = 0 then text " UNAUTHENTICATED_SRTP" else []

def base64Key (params : SdpSrtpParameters) : Text := encode .rfc4648Mime params.masterKey.1

/-- The value of the attribute, with the padding of the key removed. -/
def cryptoValue (params : SdpSrtpParameters) : Text :=
  text "crypto:1 " ++ (params.cipherType.elim [] fun c => c.suite ++ text " ") ++ text "inline:" ++
    (base64Key params).rdropWhile (· == byte '=') ++ sessionParameters params.securityLevel

def addSrtpCryptoField (body : SdpBody) (params : SdpSrtpParameters) : SdpBody :=
  body ++ [⟨text "a", cryptoValue params⟩]

/-! ## Reading -/

/-- The separators of the key and the session parameters. -/
def keySeparators : Text := text " \t/:|"

/-- The first `crypto` attribute, and what is left behind it. -/
def findCrypto : (aFieldType : Text) → SdpBody → Option (Text × SdpBody)
  | _, [] => none
  | aFieldType, field :: rest =>
    if field.name = text "a" then
      let aFieldType := (subField field.value 0 attributeSeparators aFieldType).2
      if aFieldType = text "crypto" then some (field.value, rest) else findCrypto aFieldType rest
    else findCrypto aFieldType rest

/-- The cipher of a suite by its name. -/
def suiteOf (cryptoSuite : Text) : Option CipherType :=
  [CipherType.aesCm128HmacSha180, .aesCm128HamcSha132, .f8128HmacSha180].find?
    (·.suite = cryptoSuite)

/-- What a session parameter turns off. -/
def turnOff (securityLevel : Int) (param : Text) : Int :=
  if param = text "UNENCRYPTED_SRTP" then securityLevel - encryption securityLevel
  else if param = text "UNAUTHENTICATED_SRTP" then securityLevel - authentication securityLevel
  else securityLevel

/-- The loop over the session parameters. -/
def levelFrom (value : Text) : (fuel index : Nat) → (temp : Text) → Int → Int
  | 0, _, _, securityLevel => securityLevel
  | fuel + 1, index, temp, securityLevel =>
    let param := subField value index keySeparators temp
    if param.1 then
      levelFrom value fuel (index + 1) param.2 (turnOff securityLevel param.2)
    else securityLevel

/-- The array after the writes, in their order. -/
def written (data : List (Byte × Nat)) (array : Nat → Byte) : Nat → Byte :=
  data.foldl (fun array w => Function.update array w.2 w.1) array

/-- `strncpy`: up to a NUL, and NULs for the rest. -/
def strncpy (source : Nat → Byte) : (size start : Nat) → Text
  | 0, _ => []
  | size + 1, start =>
    if source start = 0 then replicate (size + 1) 0
    else source start :: strncpy source size (start + 1)

theorem length_strncpy (source : Nat → Byte) (size start : Nat) :
    (strncpy source size start).length = size := by
  induction size generalizing start with
  | zero => rfl
  | succ size ih =>
    rw [strncpy]
    split
    · exact length_replicate
    · rw [length_cons, ih]

section

variable (stray : Byte → Byte) (behind : Nat → Byte) (srtpKey : Nat → Byte)

/-- The piece of a value that holds the key. -/
def keyText (value : Text) : Text := (subField value 4 keySeparators []).2

/-- What is decoded into `srtpKey`. -/
def decodedKey (value : Text) : List (Byte × Nat) :=
  (decodeInto .rfc4648Mime stray behind (keyText value)).data

/-- What an attribute with the right number says.  A suite that is not known leaves the cipher,
and turns off the security. -/
def readCrypto (value : Text) (params : SdpSrtpParameters) : SdpSrtpParameters :=
  let suite := suiteOf (subField value 2 attributeSeparators []).2
  { cipherType := suite.or params.cipherType
    securityLevel :=
      if (subField value 4 keySeparators []).1 then
        levelFrom value (value.length + 1) 5 (keyText value) (if suite.isSome then 3 else 0)
      else if suite.isSome then 3 else 0
    masterKey :=
      ⟨strncpy (written (decodedKey stray behind value) srtpKey) srtpKeyLength 0,
        length_strncpy ..⟩ }

/-- The attribute that is looked at, if it has the number. -/
def numbered (index : Int) (found : Option (Text × SdpBody)) : Option Text :=
  (found.map (·.1)).filter fun value => atoi (subField value 1 attributeSeparators []).2 = index

/-- Whether the field with a number was read, and the parameters afterwards. -/
def readFields (index : Int) (params : SdpSrtpParameters) (fields : SdpBody) :
    Bool × SdpSrtpParameters :=
  match numbered index (findCrypto [] fields) with
  | none => (false, params)
  | some value => (true, readCrypto stray behind srtpKey value params)

/-- `getSrtpCryptoField`, with what `srtpKey` holds at first. -/
def getSrtpCryptoField (body : SdpBody) (mediaIndex index : Int) (params : SdpSrtpParameters) :
    Bool × SdpSrtpParameters :=
  readFields stray behind srtpKey index params
    (body.positionFieldInstance mediaIndex (text "m")).2

end

/-! ## What should hold -/

/-- The fields of a section behind its `m` field. -/
def sectionFields (body : SdpBody) (mediaIndex : Int) : SdpBody :=
  match body.positionFieldInstance mediaIndex (text "m") with
  | (none, _) => []
  | (some _, rest) => fieldsBefore (text "m") rest

/-- The number of the section that fields are added to. -/
def lastIndex (body : SdpBody) : Int := body.getMediaSetCount - 1

/-- The attribute added to the last section is the one that is read, and gives its parameters. -/
def Restores (pre post : SdpBody) (params : SdpSrtpParameters) : Prop :=
  let body := pre.addSrtpCryptoField params ++ post
  (findCrypto [] (body.positionFieldInstance pre.lastIndex (text "m")).2).map (·.2) = some post ∧
    ∀ stray behind srtpKey old,
      getSrtpCryptoField stray behind srtpKey body pre.lastIndex 1 old = (true, params)

/-- What is read is what the section alone would give. -/
def TakesFromSection (body : SdpBody) (mediaIndex index : Int) : Prop :=
  ∀ stray behind srtpKey params,
    getSrtpCryptoField stray behind srtpKey body mediaIndex index params =
      readFields stray behind srtpKey index params (body.sectionFields mediaIndex)

/-- The attribute that is read. -/
def usedCrypto (body : SdpBody) (mediaIndex index : Int) : Option Text :=
  numbered index (findCrypto [] (body.positionFieldInstance mediaIndex (text "m")).2)

/-- No byte is written behind `srtpKey`. -/
def FitsKey (body : SdpBody) (mediaIndex index : Int) : Prop :=
  ∀ stray behind, ∀ value ∈ body.usedCrypto mediaIndex index,
    ∀ w ∈ decodedKey stray behind value, w.2 < srtpKeyLength + 1

/-! ## The section and the array -/

theorem findCrypto_append_of_some {fields : SdpBody} {found : Text × SdpBody} :
    ∀ {old : Text}, findCrypto old fields = some found →
      ∀ more, findCrypto old (fields ++ more) = some (found.1, found.2 ++ more) := by
  induction fields with
  | nil => intro old h; cases h
  | cons field rest ih =>
    intro old h more
    rw [findCrypto] at h
    rw [cons_append, findCrypto]
    by_cases hname : field.name = text "a"
    · rw [if_pos hname] at h ⊢
      by_cases hcrypto : (subField field.value 0 attributeSeparators old).2 = text "crypto"
      · rw [if_pos hcrypto] at h ⊢
        rw [← Option.some_inj.mp h]
      · rw [if_neg hcrypto] at h ⊢
        exact ih h more
    · rw [if_neg hname] at h ⊢
      exact ih h more

theorem findCrypto_append_of_none {fields : SdpBody} :
    ∀ {old : Text}, findCrypto old fields = none →
      ∃ old', ∀ more, findCrypto old (fields ++ more) = findCrypto old' more := by
  induction fields with
  | nil => exact fun {old} _ => ⟨old, fun _ => rfl⟩
  | cons field rest ih =>
    intro old h
    rw [findCrypto] at h
    by_cases hname : field.name = text "a"
    · rw [if_pos hname] at h
      by_cases hcrypto : (subField field.value 0 attributeSeparators old).2 = text "crypto"
      · rw [if_pos hcrypto] at h
        cases h
      · rw [if_neg hcrypto] at h
        obtain ⟨old', hmore⟩ := ih h
        refine ⟨old', fun more => ?_⟩
        rw [cons_append, findCrypto, if_pos hname, if_neg hcrypto, hmore]
    · rw [if_neg hname] at h
      obtain ⟨old', hmore⟩ := ih h
      refine ⟨old', fun more => ?_⟩
      rw [cons_append, findCrypto, if_neg hname, hmore]

theorem exists_sectionFields_append (body : SdpBody) (mediaIndex : Int) :
    ∃ more, (body.positionFieldInstance mediaIndex (text "m")).2 =
      body.sectionFields mediaIndex ++ more := by
  rw [sectionFields]
  rcases body.positionFieldInstance mediaIndex (text "m") with ⟨_ | value, rest⟩
  · exact ⟨rest, rfl⟩
  · exact ⟨rest.dropWhile (·.name ≠ text "m"), takeWhile_append_dropWhile.symm⟩

theorem takesFromSection_iff (body : SdpBody) (mediaIndex index : Int) :
    body.TakesFromSection mediaIndex index ↔ (findCrypto [] (body.sectionFields mediaIndex) = none →
        body.usedCrypto mediaIndex index = none) := by
  obtain ⟨more, hmore⟩ := body.exists_sectionFields_append mediaIndex
  cases hfound : findCrypto [] (body.sectionFields mediaIndex) with
  | none =>
    have hnone (stray behind srtpKey params) :
        readFields stray behind srtpKey index params (body.sectionFields mediaIndex) =
          (false, params) := by
      rw [readFields, hfound]
      rfl
    refine ⟨fun h _ => ?_, fun h stray behind srtpKey params => ?_⟩
    · have hread := h id (fun _ => 0) (fun _ => 0) ⟨none, 0, ⟨_, length_replicate (a := 0)⟩⟩
      rw [hnone, getSrtpCryptoField, readFields] at hread
      split at hread
      · assumption
      · cases hread
    · rw [hnone, getSrtpCryptoField, readFields]
      have hused := h rfl
      rw [usedCrypto] at hused
      rw [hused]
  | some found =>
    refine ⟨fun _ h => absurd h (Option.some_ne_none _), fun _ stray behind srtpKey params => ?_⟩
    rw [getSrtpCryptoField, readFields, readFields, hmore, findCrypto_append_of_some hfound,
      hfound]
    rfl

theorem forall_mem_decodeTurn_iff {stray : Byte → Byte} {c₀ c₁ c₂ c₃ : Byte} :
    (∀ w ∈ decodeTurn .rfc4648Mime stray size j c₀ c₁ c₂ c₃, w.2 < n) ↔
      j < n ∧ (j + 1 < size → j + 1 < n) ∧ (j + 2 < size → j + 2 < n) := by
  rw [decodeTurn, forall_mem_cons]
  refine and_congr_right' ?_
  by_cases h₁ : j + 1 < size
  · rw [if_pos h₁, forall_mem_cons]
    refine and_congr ⟨fun h _ => h, fun h => h h₁⟩ ?_
    by_cases h₂ : j + 2 < size
    · rw [if_pos h₂, forall_mem_singleton]
      exact ⟨fun h _ => h, fun h => h h₂⟩
    · rw [if_neg h₂]
      exact iff_of_true (fun w hw => absurd hw not_mem_nil) fun h => absurd h h₂
  · rw [if_neg h₁]
    refine iff_of_true (fun w hw => absurd hw not_mem_nil) ?_
    omega

theorem turn_iff {k : Nat} (hk : 0 < k) (hk4 : k ≤ 4) :
    (j < n ∧ (j + 1 < size → j + 1 < n) ∧ (j + 2 < size → j + 2 < n)) ↔
      ∀ turn, 4 * turn < k → j + 3 * turn < n ∧ (j + 3 * turn + 1 < size → j + 3 * turn + 1 < n) ∧
        (j + 3 * turn + 2 < size → j + 3 * turn + 2 < n) := by
  refine ⟨fun h turn hturn => ?_, fun h => h 0 (by omega)⟩
  obtain rfl : turn = 0 := by omega
  exact h

theorem forall_mem_decodeLoop_iff {stray : Byte → Byte} {behind : Nat → Byte}
    (j : Nat) (encoded : Text) :
    (∀ w ∈ decodeLoop .rfc4648Mime stray behind size j encoded, w.2 < n) ↔
      ∀ turn, 4 * turn < encoded.length → j + 3 * turn < n ∧
        (j + 3 * turn + 1 < size → j + 3 * turn + 1 < n) ∧
        (j + 3 * turn + 2 < size → j + 3 * turn + 2 < n) := by
  match encoded with
  | c₀ :: c₁ :: c₂ :: c₃ :: rest =>
    rw [decodeLoop, forall_mem_append, forall_mem_decodeTurn_iff,
      forall_mem_decodeLoop_iff (j + 3) rest]
    refine ⟨fun h turn hturn => ?_, fun h => ⟨h 0 (by simp), fun turn hturn => ?_⟩⟩
    · rcases turn with _ | turn
      · exact h.1
      · have := h.2 turn (by simp only [length_cons] at hturn; omega)
        omega
    · have := h (turn + 1) (by simp only [length_cons]; omega)
      omega
  | [c₀, c₁, c₂] => exact forall_mem_decodeTurn_iff.trans (turn_iff (k := 3) (by omega) (by omega))
  | [c₀, c₁] => exact forall_mem_decodeTurn_iff.trans (turn_iff (k := 2) (by omega) (by omega))
  | [c₀] => exact forall_mem_decodeTurn_iff.trans (turn_iff (k := 1) (by omega) (by omega))
  | [] => simp [decodeLoop]

/-- The text of a key fits into `srtpKey`. -/
def Fits (encoded : Text) : Prop :=
  isValid .rfc4648Mime encoded = true →
    encoded.length ≤ 40 ∨ encoded.length ≤ 44 ∧ decodedSize .rfc4648Mime encoded ≤ 31

theorem fitsKey_iff (body : SdpBody) (mediaIndex index : Int) : body.FitsKey mediaIndex index ↔
    ∀ value ∈ body.usedCrypto mediaIndex index, Fits (keyText value) := by
  have hvalue (stray behind) (value : Text) :
      (∀ w ∈ decodedKey stray behind value, w.2 < srtpKeyLength + 1) ↔ Fits (keyText value) := by
    rw [decodedKey, decodeInto, Fits]
    by_cases hvalid : isValid .rfc4648Mime (keyText value) = true
    · rw [if_pos hvalid, forall_mem_decodeLoop_iff]
      refine ⟨fun h _ => ?_, fun h turn hturn => ?_⟩
      · have h10 := h 10
        have h11 := h 11
        rw [srtpKeyLength] at h10 h11
        omega
      · have := h hvalid
        rw [srtpKeyLength]
        omega
    · rw [if_neg hvalid]
      exact iff_of_true (fun w hw => absurd hw not_mem_nil) fun h => absurd h hvalid
  exact ⟨fun h value hused => (hvalue id (fun _ => 0) value).mp (h _ _ value hused),
    fun h stray behind value hused => (hvalue stray behind value).mpr (h value hused)⟩

/-! ## What is written -/

section Written

variable {value : Text} (hvalue : ∀ c ∈ value, (c != 0) = true)
  (hlength : value.length ≤ maxFieldLength)

include hvalue hlength

theorem reportedText_subField (index : Nat) (separators old : Text) :
    reportedText (subField value index separators old) =
      (countedPieces (isSeparator separators) [] value)[index]? := by
  have hstring : cString value = value := cString_eq_self hvalue
  have hfield := fieldOf_length_cString value
  have hpiece := getSubFieldAt_value value value.length index separators
  rw [hstring] at hfield
  rw [hfield] at hpiece
  rw [subField, reportedText_getSubFieldText, hstring, if_neg (Nat.not_lt.mpr hlength), hpiece]

theorem subField_of_piece {i : Nat} {separators : Text}
    (h : (countedPieces (isSeparator separators) [] value)[i]? = some w) (old : Text) :
    subField value i separators old = (true, w) := by
  rw [← reportedText_subField hvalue hlength i separators old, reportedText] at h
  split at h
  · exact Prod.ext ‹_› (Option.some_inj.mp h)
  · cases h

/-- The loop over the session parameters is a fold over the pieces between the separators. -/
theorem levelFrom_eq (fuel : Nat) : ∀ (index : Nat) (temp : Text) (securityLevel : Int),
    (countedPieces (isSeparator keySeparators) [] value).length ≤ index + fuel →
      levelFrom value fuel index temp securityLevel =
        ((countedPieces (isSeparator keySeparators) [] value).drop index).foldl turnOff
          securityLevel := by
  induction fuel with
  | zero =>
    intro index temp securityLevel h
    rw [drop_eq_nil_of_le (Nat.add_zero index ▸ h)]
    rfl
  | succ fuel ih =>
    intro index temp securityLevel h
    rw [levelFrom]
    cases hpiece : (countedPieces (isSeparator keySeparators) [] value)[index]? with
    | none =>
      have hfalse : ¬ (subField value index keySeparators temp).1 = true := by
        intro htrue
        have hnone := reportedText_subField hvalue hlength index keySeparators temp
        rw [reportedText, if_pos htrue, hpiece] at hnone
        cases hnone
      rw [drop_eq_nil_of_le (List.getElem?_eq_none_iff.mp hpiece)]
      exact if_neg hfalse
    | some piece =>
      obtain ⟨hlt, hget⟩ := List.getElem?_eq_some_iff.mp hpiece
      rw [subField_of_piece hvalue hlength hpiece, drop_eq_getElem_cons hlt, hget,
        foldl_cons, ← ih (index + 1) piece _ (by omega)]
      exact if_pos rfl

end Written

theorem countedPieces_word {sep : Byte → Bool} (hw : ∀ c ∈ w, ¬ sep c = true)
    (cur rest : Text) : countedPieces sep cur (w ++ rest) = countedPieces sep (cur ++ w) rest := by
  induction w generalizing cur with
  | nil => rw [append_nil]; rfl
  | cons c w ih =>
    rw [cons_append, countedPieces_plain (hw c mem_cons_self),
      ih (fun x hx => hw x (mem_cons_of_mem _ hx)), append_assoc]
    rfl

theorem countedPieces_word_sep {sep : Byte → Bool} {c : Byte} (hne : w ≠ [])
    (hw : ∀ c ∈ w, ¬ sep c = true) (hc : sep c = true) (rest : Text) :
    countedPieces sep [] (w ++ c :: rest) = w :: countedPieces sep [] rest := by
  rw [countedPieces_word hw, nil_append, countedPieces_counted hc hne]

theorem head?_countedPieces (sep : Byte → Bool) (s : Text) :
    (countedPieces sep [] s)[0]? = some ((s.dropWhile sep).takeWhile fun c => !sep c) := by
  have hcur (s cur : Text) (hcur : cur ≠ []) :
      (countedPieces sep cur s)[0]? = some (cur ++ s.takeWhile fun c => !sep c) := by
    induction s generalizing cur with
    | nil => rw [countedPieces_nil, takeWhile_nil, append_nil]; rfl
    | cons c s ih =>
      by_cases hc : sep c = true
      · rw [countedPieces_counted hc hcur, takeWhile_cons_of_neg (by simp [hc]),
          append_nil]
        rfl
      · rw [countedPieces_plain hc, ih _ (by simp), takeWhile_cons_of_pos (by simp [hc]),
          append_assoc]
        rfl
  induction s with
  | nil => rw [countedPieces_nil]; rfl
  | cons c s ih =>
    by_cases hc : sep c = true
    · rw [countedPieces_empty hc, ih, dropWhile_cons_of_pos hc]
    · rw [countedPieces_plain hc, nil_append, hcur s [c] (cons_ne_nil _ _),
        dropWhile_cons_of_neg hc, takeWhile_cons_of_pos (by simp [hc])]
      rfl

/-- What is behind the last `m` field, with more added. -/
theorem positionFieldInstance_lastIndex (pre more : SdpBody) :
    ((pre ++ more).positionFieldInstance pre.lastIndex (text "m")).2 =
      (pre.positionFieldInstance pre.lastIndex (text "m")).2 ++ more := by
  cases hcount : pre.mediaLines.length with
  | zero =>
    have hneg : ¬ 0 ≤ pre.lastIndex := by
      rw [lastIndex, getMediaSetCount, hcount]
      decide
    rw [positionFieldInstance, positionFieldInstance, if_neg hneg, if_neg hneg]
  | succ n =>
    have hindex : pre.lastIndex = n := by
      rw [lastIndex, getMediaSetCount, hcount]
      omega
    have hmedia := (positionFrom_media n pre).1
    rw [getElem?_eq_getElem (by omega)] at hmedia
    rw [positionFieldInstance, positionFieldInstance, hindex, if_pos (Int.natCast_nonneg n),
      if_pos (Int.natCast_nonneg n), Int.toNat_natCast]
    rw [positionFrom_append n (Prod.ext hmedia rfl) more]

theorem isSymbol_spec {b : Byte} (h : Base64Alphabet.rfc4648Mime.isSymbol b = true) :
    (b != 0) = true ∧ ¬ (b == byte '=') = true ∧
      (isSeparator keySeparators b = true ↔ b = byte '/') := by
  revert b
  decide +kernel

section

variable {c : CipherType} {p : SdpSrtpParameters}

theorem base64Key_spec (p : SdpSrtpParameters) : (base64Key p).length = 40 ∧
    ∀ b ∈ base64Key p, Base64Alphabet.rfc4648Mime.isSymbol b = true := by
  obtain ⟨body, k, heq, hbody, -, hsize, -⟩ := encode_shape (a := .rfc4648Mime) p.masterKey.1
  have hlength : (base64Key p).length = 40 := by rw [base64Key, length_encode, p.masterKey.2]; rfl
  have hk : k = 0 := by
    rw [base64Key, heq, length_append, length_replicate] at hlength
    rw [p.masterKey.2, srtpKeyLength] at hsize
    omega
  refine ⟨hlength, ?_⟩
  rwa [base64Key, heq, hk, replicate_zero, append_nil]

variable (hp : p.cipherType = some c)

include hp

theorem cryptoValue_eq : cryptoValue p = text "crypto" ++ byte ':' :: (text "1" ++ byte ' ' ::
    (c.suite ++ byte ' ' :: (text "inline" ++ byte ':' ::
      (base64Key p ++ sessionParameters p.securityLevel)))) := by
  have hkey : (base64Key p).rdropWhile (· == byte '=') = base64Key p := by
    rw [rdropWhile_eq_self_iff]
    exact fun hne => (isSymbol_spec ((base64Key_spec p).2 _ (getLast_mem hne))).2.1
  rw [cryptoValue, hkey, hp]
  cases c <;> simp [CipherType.suite, text, byte]

theorem cryptoValue_isField :
    (∀ b ∈ cryptoValue p, (b != 0) = true) ∧ (cryptoValue p).length ≤ maxFieldLength := by
  have hsession : (∀ b ∈ sessionParameters p.securityLevel, (b != 0) = true) ∧
      (sessionParameters p.securityLevel).length ≤ 40 := by
    rw [sessionParameters]
    split <;> split <;> decide
  have hsuite : (∀ b ∈ c.suite, (b != 0) = true) ∧ c.suite.length ≤ 40 := by
    cases c <;> decide
  obtain ⟨hlength, hsymbol⟩ := base64Key_spec p
  rw [cryptoValue_eq hp]
  constructor
  · simp only [forall_mem_append, forall_mem_cons]
    exact ⟨by decide, by decide, by decide, by decide, hsuite.1, by decide, by decide, by decide,
      fun b hb => (isSymbol_spec (hsymbol b hb)).1, hsession.1⟩
  · have h₁ : (text "crypto").length = 6 := rfl
    have h₂ : (text "1").length = 1 := rfl
    have h₃ : (text "inline").length = 6 := rfl
    simp only [length_append, length_cons, hlength, h₁, h₂, h₃, maxFieldLength]
    omega

theorem pieces_cryptoValue {separators : Text}
    (hseparators : separators = attributeSeparators ∨ separators = keySeparators) :
    countedPieces (isSeparator separators) [] (cryptoValue p) =
      [text "crypto", text "1", c.suite, text "inline"] ++
        countedPieces (isSeparator separators) []
          (base64Key p ++ sessionParameters p.securityLevel) := by
  have hsep : isSeparator separators (byte ':') = true ∧ isSeparator separators (byte ' ') = true ∧
      ∀ w ∈ [text "crypto", text "1", c.suite, text "inline"],
        w ≠ [] ∧ ∀ b ∈ w, ¬ isSeparator separators b = true := by
    rcases hseparators with rfl | rfl <;> cases c <;> decide
  obtain ⟨hcolon, hblank, hwords⟩ := hsep
  simp only [forall_mem_cons] at hwords
  obtain ⟨⟨hne, hw⟩, ⟨hne₁, hw₁⟩, ⟨hne₂, hw₂⟩, ⟨hne₃, hw₃⟩, -⟩ := hwords
  rw [cryptoValue_eq hp, countedPieces_word_sep hne hw hcolon,
    countedPieces_word_sep hne₁ hw₁ hblank, countedPieces_word_sep hne₂ hw₂ hblank,
    countedPieces_word_sep hne₃ hw₃ hcolon]
  rfl

omit hp in
variable (p) in
/-- The subfield that is taken for the key. -/
def keyPiece : Text :=
  ((base64Key p ++ sessionParameters p.securityLevel).dropWhile
    (isSeparator keySeparators)).takeWhile fun b => !isSeparator keySeparators b

theorem keyText_cryptoValue : subField (cryptoValue p) 4 keySeparators [] = (true, keyPiece p) := by
  obtain ⟨hvalue, hlength⟩ := cryptoValue_isField hp
  refine subField_of_piece hvalue hlength ?_ []
  rw [pieces_cryptoValue hp (.inr rfl), getElem?_append_right (Nat.le_refl 4)]
  exact head?_countedPieces _ _

theorem numbered_added (old : Text) (post : SdpBody) :
    findCrypto old (⟨text "a", cryptoValue p⟩ :: post) = some (cryptoValue p, post) ∧
      numbered 1 (some (cryptoValue p, post)) = some (cryptoValue p) := by
  obtain ⟨hvalue, hlength⟩ := cryptoValue_isField hp
  have hpieces := pieces_cryptoValue hp (.inl rfl)
  have hcrypto := subField_of_piece hvalue hlength (i := 0) (w := text "crypto")
    (by rw [hpieces]; rfl) old
  have hnumber := subField_of_piece hvalue hlength (i := 1) (w := text "1")
    (by rw [hpieces]; rfl) []
  constructor
  · rw [findCrypto, if_pos rfl, hcrypto]
    exact if_pos rfl
  · rw [numbered, Option.map_some, Option.filter_some, hnumber]
    exact if_pos (by decide)

theorem readCrypto_cryptoValue (stray : Byte → Byte) (behind srtpKey : Nat → Byte)
    (old : SdpSrtpParameters) : readCrypto stray behind srtpKey (cryptoValue p) old =
      { cipherType := some c
        securityLevel := ((countedPieces (isSeparator keySeparators) []
          (base64Key p ++ sessionParameters p.securityLevel)).drop 1).foldl turnOff 3
        masterKey :=
          ⟨strncpy (written (decodeInto .rfc4648Mime stray behind (keyPiece p)).data srtpKey)
            srtpKeyLength 0, length_strncpy ..⟩ } := by
  obtain ⟨hvalue, hlength⟩ := cryptoValue_isField hp
  have hsuite := subField_of_piece hvalue hlength (i := 2) (w := c.suite)
    (by rw [pieces_cryptoValue hp (.inl rfl)]; rfl) []
  have hknown : suiteOf c.suite = some c := by cases c <;> decide
  have hkey : keyText (cryptoValue p) = keyPiece p := by rw [keyText, keyText_cryptoValue hp]
  have hcount := length_countedPieces_le (isSeparator keySeparators) (cryptoValue p) []
  have hlevel := levelFrom_eq hvalue hlength ((cryptoValue p).length + 1) 5 (keyPiece p) 3
    (by omega)
  rw [pieces_cryptoValue hp (.inr rfl)] at hlevel
  simp only [readCrypto, decodedKey, hsuite, hknown, hkey, keyText_cryptoValue hp, if_true,
    Option.isSome_some, Option.some_or, hlevel]
  rfl

theorem restores_iff_readCrypto (pre post : SdpBody) : Restores pre post p ↔
    findCrypto [] (pre.positionFieldInstance pre.lastIndex (text "m")).2 = none ∧
      ∀ stray behind srtpKey old, readCrypto stray behind srtpKey (cryptoValue p) old = p := by
  have hbehind : ((pre.addSrtpCryptoField p ++ post).positionFieldInstance pre.lastIndex
      (text "m")).2 = (pre.positionFieldInstance pre.lastIndex (text "m")).2 ++
        ⟨text "a", cryptoValue p⟩ :: post := by
    rw [addSrtpCryptoField, append_assoc, positionFieldInstance_lastIndex]
    rfl
  rw [Restores, hbehind]
  cases hearlier : findCrypto [] (pre.positionFieldInstance pre.lastIndex (text "m")).2 with
  | some found =>
    refine iff_of_false (fun h => ?_) fun h => absurd h.1 (Option.some_ne_none _)
    have hrest := h.1
    rw [findCrypto_append_of_some hearlier, Option.map_some] at hrest
    have hlength := congrArg length (Option.some_inj.mp hrest)
    rw [length_append, length_cons] at hlength
    omega
  | none =>
    obtain ⟨old', hmore⟩ := findCrypto_append_of_none hearlier
    obtain ⟨hfound, hnumber⟩ := numbered_added hp old' post
    rw [hmore, hfound, Option.map_some, and_iff_right rfl, and_iff_right rfl]
    refine forall_congr' fun stray => forall_congr' fun behind => forall_congr' fun srtpKey =>
      forall_congr' fun old => ?_
    rw [getSrtpCryptoField, hbehind, readFields, hmore, hfound, hnumber, Prod.mk.injEq,
      and_iff_right rfl]

end

/-! ## Which keys come back -/

/-- `strncpy` copies up to the first zero and writes zeros from there. -/
theorem getElem?_strncpy (source : Nat → Byte) (size : Nat) : ∀ start j : Nat, j < size →
    (strncpy source size start)[j]? =
      some (if ∀ k < j, source (start + k) ≠ 0 then source (start + j) else 0) := by
  induction size with
  | zero => exact fun _ j hj => absurd hj (Nat.not_lt_zero j)
  | succ size ih =>
    intro start j hj
    rw [strncpy]
    by_cases hzero : source start = 0
    · rw [if_pos hzero, getElem?_replicate, if_pos hj]
      split
      · rename_i hall
        cases j with
        | zero => rw [Nat.add_zero, hzero]
        | succ j => exact absurd hzero (hall 0 (Nat.succ_pos j))
      · rfl
    · rw [if_neg hzero]
      cases j with
      | zero => rw [if_pos fun k hk => absurd hk (Nat.not_lt_zero k)]; rfl
      | succ j =>
        rw [getElem?_cons_succ, ih (start + 1) j (by omega), Nat.add_assoc,
          Nat.add_comm 1 j]
        congr 1
        refine if_congr ⟨fun h k hk => ?_, fun h k hk => ?_⟩ rfl rfl
        · cases k with
          | zero => exact hzero
          | succ k => rw [← Nat.add_assoc, Nat.add_right_comm]; exact h k (by omega)
        · rw [Nat.add_right_comm, Nat.add_assoc]
          exact h (k + 1) (by omega)

theorem strncpy_congr {source source' : Nat → Byte}
    (h : ∀ j < size, source j = source' j) : strncpy source size 0 = strncpy source' size 0 := by
  refine ext_getElem? fun j => ?_
  rcases Nat.lt_or_ge j size with hj | hj
  · rw [getElem?_strncpy source size 0 j hj, getElem?_strncpy source' size 0 j hj]
    simp only [Nat.zero_add]
    congr 1
    refine if_congr (forall_congr' fun k => forall_congr' fun hk => ?_) (h j hj) rfl
    rw [h k (by omega)]
  · rw [getElem?_eq_none (by rw [length_strncpy]; exact hj),
      getElem?_eq_none (by rw [length_strncpy]; exact hj)]

theorem written_zipIdx (d : Text) (array : Nat → Byte) (start j : Nat) :
    written (d.zipIdx start) array j =
      if start ≤ j ∧ j < start + d.length then d.getD (j - start) 0 else array j := by
  induction d generalizing start array with
  | nil => exact (if_neg (by simp only [length_nil]; omega)).symm
  | cons b d ih =>
    show written (d.zipIdx (start + 1)) (Function.update array start b) j = _
    rw [ih]
    by_cases hj : j = start
    · subst hj
      rw [if_neg (by omega), Function.update_self,
        if_pos (by simp only [length_cons]; omega), Nat.sub_self]
      rfl
    · rw [Function.update_of_ne hj, length_cons]
      by_cases hin : start + 1 ≤ j ∧ j < start + 1 + d.length
      · have hsub : j - start = j - (start + 1) + 1 := by omega
        rw [if_pos hin, if_pos (by omega), hsub]
        rfl
      · rw [if_neg hin, if_neg (by omega)]

theorem encode_append {d : Text} (e : Text) (h : d.length % 3 = 0) :
    encode .rfc4648Mime (d ++ e) = encode .rfc4648Mime d ++ encode .rfc4648Mime e := by
  match d with
  | d₀ :: d₁ :: d₂ :: rest =>
    have hrest := encode_append e (d := rest) (by simp only [length_cons] at h; omega)
    simp only [cons_append, encode, hrest]
  | [_, _] => exact absurd h (Nat.succ_ne_zero 1)
  | [_] => exact absurd h (Nat.succ_ne_zero 0)
  | [] => rfl

/-- A `/` in front is a byte from 252 on. -/
theorem div_of_encode_eq {b : Byte} {d v : Text}
    (h : encode .rfc4648Mime (b :: d) = byte '/' :: v) : b.toNat / 4 = 63 := by
  have hhead : ∃ w, encode .rfc4648Mime (b :: d) = symbolAt .rfc4648Mime (b.toNat / 4) :: w := by
    match d with
    | [] | [_] | _ :: _ :: _ => exact ⟨_, rfl⟩
  obtain ⟨w, hw⟩ := hhead
  have hdecode := decodeChar_symbolAt (a := .rfc4648Mime)
    (show b.toNat / 4 < 64 by have := b.toNat_lt; omega)
  rw [head_eq_of_cons_eq (hw.symm.trans h)] at hdecode
  exact hdecode.symm

theorem le_of_mem_decodeTurn {stray : Byte → Byte} (c₀ c₁ c₂ c₃ : Byte) :
    ∀ w ∈ decodeTurn .rfc4648Mime stray size j c₀ c₁ c₂ c₃, j ≤ w.2 := by
  rw [decodeTurn]
  split
  · split <;> simp
  · simp

theorem le_of_mem_decodeLoop {stray : Byte → Byte} {behind : Nat → Byte} {size : Nat} (j : Nat)
    (encoded : Text) : ∀ w ∈ decodeLoop .rfc4648Mime stray behind size j encoded, j ≤ w.2 := by
  match encoded with
  | c₀ :: c₁ :: c₂ :: c₃ :: rest =>
    rw [decodeLoop, forall_mem_append]
    have hrest := @le_of_mem_decodeLoop stray behind size (j + 3) rest
    exact ⟨le_of_mem_decodeTurn c₀ c₁ c₂ c₃, fun w hw => Nat.le_of_add_right_le (hrest w hw)⟩
  | [c₀, c₁, c₂] => exact le_of_mem_decodeTurn c₀ c₁ c₂ (behind 0)
  | [c₀, c₁] => exact le_of_mem_decodeTurn c₀ c₁ (behind 0) (behind 1)
  | [c₀] => exact le_of_mem_decodeTurn c₀ (behind 0) (behind 1) (behind 2)
  | [] => simp [decodeLoop]

theorem exists_decodeLoop_cons {stray : Byte → Byte} {behind : Nat → Byte} {size : Nat} (c : Byte)
    (cs : Text) : ∃ (r : Nat) (rest : List (Byte × Nat)), r < 4 ∧ (∀ w ∈ rest, w.2 ≠ 0) ∧
      decodeLoop .rfc4648Mime stray behind size 0 (c :: cs) =
        (UInt8.ofNat (decodeCharRaw .rfc4648Mime stray c * 4 + r), 0) :: rest := by
  have hturn (c₁ c₂ c₃ : Byte) : ∃ (r : Nat) (rest : List (Byte × Nat)), r < 4 ∧
      (∀ w ∈ rest, w.2 ≠ 0) ∧ decodeTurn .rfc4648Mime stray size 0 c c₁ c₂ c₃ =
        (UInt8.ofNat (decodeCharRaw .rfc4648Mime stray c * 4 + r), 0) :: rest := by
    refine ⟨_, _, Nat.mod_lt _ (by decide), ?_, rfl⟩
    split
    · split <;> simp
    · simp
  match cs with
  | c₁ :: c₂ :: c₃ :: cs =>
    obtain ⟨r, rest, hr, hrest, hfirst⟩ := hturn c₁ c₂ c₃
    refine ⟨r, rest ++ decodeLoop .rfc4648Mime stray behind size 3 cs, hr, ?_, ?_⟩
    · rw [forall_mem_append]
      refine ⟨hrest, fun w hw => ?_⟩
      have := le_of_mem_decodeLoop 3 cs w hw
      omega
    · rw [decodeLoop, hfirst]
      rfl
  | [c₁, c₂] => exact hturn c₁ c₂ (behind 0)
  | [c₁] => exact hturn c₁ (behind 0) (behind 1)
  | [] => exact hturn (behind 0) (behind 1) (behind 2)

theorem decodeCharRaw_of_not_sep {c : Byte} (h : (!isSeparator keySeparators c) = true) :
    decodeCharRaw .rfc4648Mime (fun _ => 0) c ≤ 62 ∨
      decodeCharRaw .rfc4648Mime (fun _ => 0) c = 65 := by
  revert c
  decide +kernel

theorem written_of_not_mem {data : List (Byte × Nat)} (h : ∀ w ∈ data, w.2 ≠ j)
    (array : Nat → Byte) : written data array j = array j := by
  induction data generalizing array with
  | nil => rfl
  | cons w data ih =>
    obtain ⟨hw, hdata⟩ := forall_mem_cons.mp h
    exact (ih hdata _).trans (Function.update_of_ne hw.symm ..)

section

variable {p : SdpSrtpParameters}

/-- Without a `/` the key is one piece, and the session parameters are the others. -/
theorem pieces_of_no_slash (hslash : byte '/' ∉ base64Key p) : keyPiece p = base64Key p ∧
    ((countedPieces (isSeparator keySeparators) []
      (base64Key p ++ sessionParameters p.securityLevel)).drop 1).foldl turnOff 3 =
        p.securityLevel % 4 := by
  obtain ⟨hlength, hsymbol⟩ := base64Key_spec p
  have hne : base64Key p ≠ [] := by
    rw [← length_pos_iff, hlength]
    decide
  have hplain : ∀ b ∈ base64Key p, ¬ isSeparator keySeparators b = true := by
    intro b hb hsep
    exact hslash ((isSymbol_spec (hsymbol b hb)).2.2.mp hsep ▸ hb)
  have hsession : sessionParameters p.securityLevel = [] ∧ p.securityLevel % 4 = 3 ∨
      ∃ w, sessionParameters p.securityLevel = byte ' ' :: w ∧
        (countedPieces (isSeparator keySeparators) [] w).foldl turnOff 3 = p.securityLevel % 4 := by
    rw [sessionParameters, encryption, authentication]
    by_cases henc : p.securityLevel % 2 = 0 <;> by_cases hauth : p.securityLevel / 2 % 2 * 2 = 0
    · rw [if_pos henc, if_pos hauth, show p.securityLevel % 4 = 0 by omega]
      exact .inr ⟨text "UNENCRYPTED_SRTP UNAUTHENTICATED_SRTP", rfl, by decide⟩
    · rw [if_pos henc, if_neg hauth, show p.securityLevel % 4 = 2 by omega]
      exact .inr ⟨text "UNENCRYPTED_SRTP", rfl, by decide⟩
    · rw [if_neg henc, if_pos hauth, show p.securityLevel % 4 = 1 by omega]
      exact .inr ⟨text "UNAUTHENTICATED_SRTP", rfl, by decide⟩
    · rw [if_neg henc, if_neg hauth]
      exact .inl ⟨rfl, by omega⟩
  have hhead := head?_countedPieces (isSeparator keySeparators)
    (base64Key p ++ sessionParameters p.securityLevel)
  rw [← keyPiece] at hhead
  rcases hsession with ⟨hnil, hlevel⟩ | ⟨w, hw, hlevel⟩
  · rw [hnil, countedPieces_word hplain, nil_append, countedPieces_nil] at hhead ⊢
    exact ⟨(Option.some_inj.mp hhead).symm, hlevel.symm⟩
  · rw [hw, countedPieces_word_sep hne hplain (by decide)] at hhead ⊢
    exact ⟨(Option.some_inj.mp hhead).symm, hlevel⟩

/-- A `/` cuts the key: there is an array for which something else is read. -/
theorem exists_strncpy_ne_of_slash (hslash : byte '/' ∈ base64Key p) :
    ∃ srtpKey, strncpy (written (decodeInto .rfc4648Mime (fun _ => 0) (fun _ => 0)
      (keyPiece p)).data srtpKey) srtpKeyLength 0 ≠ p.masterKey.1 := by
  obtain ⟨hlength, hsymbol⟩ := base64Key_spec p
  -- the array holds a different byte at each place of the key
  have hother (b : Byte) : b + 1 ≠ b := by
    revert b
    decide +kernel
  obtain ⟨u, v, hu, hnot⟩ := eq_append_cons_of_mem hslash
  obtain ⟨b, d, hkey⟩ : ∃ b d, p.masterKey.1 = b :: d := by
    refine exists_cons_of_ne_nil fun hnil => ?_
    have hsize := p.masterKey.2
    rw [hnil] at hsize
    cases hsize
  refine ⟨fun j => p.masterKey.1.getD j 0 + 1, fun hread => ?_⟩
  generalize hm : written (decodeInto .rfc4648Mime (fun _ => 0) (fun _ => 0)
    (keyPiece p)).data (fun j => p.masterKey.1.getD j 0 + 1) = m at hread
  -- the first byte is the one in the array
  have hfirst : m 0 = b := by
    have hzero := getElem?_strncpy m srtpKeyLength 0 0 (by decide)
    rw [hread, hkey, if_pos fun k hk => absurd hk (Nat.not_lt_zero k)] at hzero
    exact (Option.some_inj.mp hzero).symm
  by_cases hvalid : isValid .rfc4648Mime (keyPiece p) = true
  swap
  · rw [← hm, decodeInto, if_neg hvalid, hkey] at hfirst
    exact hother b hfirst
  rw [decodeInto, if_pos hvalid] at hm
  cases u with
  | nil =>
    -- the piece begins behind the separators
    have hb : b.toNat / 4 = 63 := by
      rw [base64Key, hkey] at hu
      exact div_of_encode_eq hu
    cases hcs : keyPiece p with
    | nil =>
      rw [hcs, isValid_nil] at hvalid
      cases hvalid
    | cons c cs =>
      have hmem : c ∈ keyPiece p := by
        rw [hcs]
        exact mem_cons_self
      have hc := decodeCharRaw_of_not_sep
        (mem_takeWhile_imp (p := fun b => !isSeparator keySeparators b) hmem)
      obtain ⟨r, rest, hr, hrest, hdata⟩ := @exists_decodeLoop_cons (fun _ => 0)
        (fun _ => 0) (decodedSize .rfc4648Mime (c :: cs)) c cs
      have hkept : m 0 = UInt8.ofNat (decodeCharRaw .rfc4648Mime (fun _ => 0) c * 4 + r) := by
        rw [← hm, hcs, hdata]
        exact (written_of_not_mem hrest _).trans (Function.update_self ..)
      have hvalue := congrArg UInt8.toNat (hkept.symm.trans hfirst)
      rw [UInt8.toNat_ofNat'] at hvalue
      omega
  | cons c u =>
    have hu' : ∀ x ∈ c :: u, Base64Alphabet.rfc4648Mime.isSymbol x = true := fun x hx =>
      hsymbol x (hu ▸ mem_append_left _ hx)
    have hpiece : keyPiece p = c :: u := by
      have hhead := head?_countedPieces (isSeparator keySeparators)
        (base64Key p ++ sessionParameters p.securityLevel)
      rw [← keyPiece, hu, append_assoc, cons_append (a := byte '/'),
        countedPieces_word_sep (cons_ne_nil _ _) (fun x hx hsep => hnot
          ((isSymbol_spec (hu' x hx)).2.2.mp hsep ▸ hx)) (by decide)] at hhead
      exact (Option.some_inj.mp hhead).symm
    rw [hpiece] at hvalid hm
    -- only whole quadruples are decoded
    have hfour : (c :: u).length % 4 = 0 := by
      by_contra hnot4
      have hsize := validEncodingBytes_eq (k := 0) (cons_ne_nil c u) hu' (by decide)
      rw [replicate_zero, append_nil, paddingFits, if_neg (by simpa using hnot4)]
        at hsize
      rw [isValid, hsize] at hvalid
      cases hvalid
    obtain ⟨t, ht⟩ := Nat.dvd_of_mod_eq_zero hfour
    have hlt : 3 * t < srtpKeyLength := by
      rw [hu, length_append, length_cons (a := byte '/')] at hlength
      rw [srtpKeyLength]
      omega
    have htake : (p.masterKey.1.take (3 * t)).length = 3 * t := by
      rw [length_take, p.masterKey.2]
      omega
    obtain ⟨hfront, hbehind⟩ : encode .rfc4648Mime (p.masterKey.1.take (3 * t)) = c :: u ∧
        encode .rfc4648Mime (p.masterKey.1.drop (3 * t)) = byte '/' :: v := by
      have hcut := encode_append (p.masterKey.1.drop (3 * t)) (d := p.masterKey.1.take (3 * t))
        (by rw [htake]; omega)
      rw [take_append_drop, ← base64Key, hu] at hcut
      refine append_inj hcut.symm ?_
      rw [length_encode, htake, ht]
      omega
    have hlt' : 3 * t < p.masterKey.1.length := by rwa [p.masterKey.2]
    have hget : p.masterKey.1[3 * t]? = some (p.masterKey.1.getD (3 * t) 0) := by
      rw [getElem?_eq_getElem hlt', getD_eq_getElem?_getD,
        getElem?_eq_getElem hlt', Option.getD_some]
    -- the byte of the `/` is not zero, and what is read there is zero or what the array held
    have hnext : (p.masterKey.1.getD (3 * t) 0).toNat / 4 = 63 := by
      rw [drop_eq_getElem_cons hlt'] at hbehind
      rw [getD_eq_getElem?_getD, getElem?_eq_getElem hlt']
      exact div_of_encode_eq hbehind
    have hheld : m (3 * t) = p.masterKey.1.getD (3 * t) 0 + 1 := by
      have hne : p.masterKey.1.take (3 * t) ≠ [] := by
        intro hnil
        rw [hnil] at hfront
        cases hfront
      have hloop := @decodeLoop_encode .rfc4648Mime (fun _ => 0) (fun _ => 0)
        (p.masterKey.1.take (3 * t)) 0
      rw [← hm, ← hfront, decodedSize_encode hne]
      rw [Nat.zero_add] at hloop
      rw [hloop, written_zipIdx, if_neg (by rw [htake]; omega)]
    have hcopied := getElem?_strncpy m srtpKeyLength 0 (3 * t) hlt
    rw [hread, hget, Option.some_inj, Nat.zero_add, hheld] at hcopied
    split at hcopied
    · exact hother _ hcopied.symm
    · rw [hcopied] at hnext
      cases hnext

/-- The crypto line comes back exactly when its key and its level survive being written. -/
theorem readCrypto_restores_iff {c : CipherType} (hp : p.cipherType = some c) :
    (∀ stray behind srtpKey old, readCrypto stray behind srtpKey (cryptoValue p) old = p) ↔
      byte '/' ∉ base64Key p ∧ strncpy (p.masterKey.1.getD · 0) srtpKeyLength 0 = p.masterKey.1 ∧
        0 ≤ p.securityLevel ∧ p.securityLevel < 4 := by
  by_cases hslash : byte '/' ∈ base64Key p
  · refine iff_of_false (fun h => ?_) fun h => h.1 hslash
    obtain ⟨srtpKey, hne⟩ := exists_strncpy_ne_of_slash hslash
    have hread := h (fun _ => 0) (fun _ => 0) srtpKey p
    rw [readCrypto_cryptoValue hp] at hread
    exact hne (congrArg (·.masterKey.1) hread)
  obtain ⟨hpiece, hlevel⟩ := pieces_of_no_slash hslash
  have hne : p.masterKey.1 ≠ [] := by
    rw [← length_pos_iff, p.masterKey.2]
    decide
  have hcopy (stray : Byte → Byte) (behind srtpKey : Nat → Byte) :
      strncpy (written (decodeInto .rfc4648Mime stray behind (keyPiece p)).data srtpKey)
        srtpKeyLength 0 = strncpy (p.masterKey.1.getD · 0) srtpKeyLength 0 := by
    have hloop := @decodeLoop_encode .rfc4648Mime stray behind p.masterKey.1 0
    rw [Nat.zero_add] at hloop
    rw [hpiece, decodeInto, base64Key, if_pos (isValid_encode hne), decodedSize_encode hne, hloop]
    refine strncpy_congr fun j hj => ?_
    rw [written_zipIdx, if_pos ⟨Nat.zero_le j, by rw [p.masterKey.2]; omega⟩, Nat.sub_zero]
  have hread (stray behind srtpKey old) :
      readCrypto stray behind srtpKey (cryptoValue p) old = p ↔
        p.securityLevel % 4 = p.securityLevel ∧
          strncpy (p.masterKey.1.getD · 0) srtpKeyLength 0 = p.masterKey.1 := by
    rw [readCrypto_cryptoValue hp, hlevel, SdpSrtpParameters.ext_iff, and_iff_right hp.symm,
      Subtype.ext_iff, ← hcopy stray behind srtpKey]
  simp only [hread, and_iff_right hslash]
  refine ⟨fun h => ?_, fun h _ _ _ _ => ⟨by omega, h.1⟩⟩
  have hkey := h (fun _ => 0) (fun _ => 0) (fun _ => 0) p
  exact ⟨hkey.2, by omega⟩

end

/-- **`getSrtpCryptoField`** gives a key back exactly if its encoding has no `/`, no byte of it is
behind a NUL but NULs, and no other attribute stands in front; it stays inside exactly if the
section has an attribute, or none with the number follows, and the key is not too long. -/
theorem getSrtpCryptoField_restores_and_staysInside_iff (c : CipherType) (level : Int)
    (key : MasterKey) (pre post body : SdpBody) (mediaIndex index : Int) :
    (Restores pre post ⟨some c, level, key⟩ ↔
      findCrypto [] (pre.positionFieldInstance pre.lastIndex (text "m")).2 = none ∧
        byte '/' ∉ base64Key ⟨some c, level, key⟩ ∧
          strncpy (key.1.getD · 0) srtpKeyLength 0 = key.1 ∧ 0 ≤ level ∧ level < 4) ∧
      (body.TakesFromSection mediaIndex index ∧ body.FitsKey mediaIndex index ↔
        (findCrypto [] (body.sectionFields mediaIndex) = none →
          body.usedCrypto mediaIndex index = none) ∧
            ∀ value ∈ body.usedCrypto mediaIndex index, Fits (keyText value)) :=
  ⟨(restores_iff_readCrypto rfl _ _).trans (and_congr_right' (readCrypto_restores_iff rfl)),
    and_congr (takesFromSection_iff _ _ _) (fitsKey_iff _ _ _)⟩

/-- A key of bytes 255, and an attribute of a later section. -/
theorem not_restores_and_not_staysInside :
    (¬ ∀ (c : CipherType) (level : Int) (key : MasterKey), 0 ≤ level → level < 4 →
      Restores [⟨text "m", text "audio 5000 RTP/SAVP 0"⟩] [] ⟨some c, level, key⟩) ∧
      ¬ ∀ (body : SdpBody) (mediaIndex index : Int),
        body.TakesFromSection mediaIndex index ∧ body.FitsKey mediaIndex index := by
  constructor
  · intro h
    have hread := (restores_iff_readCrypto rfl _ _).mp (h .aesCm128HmacSha180 3
      ⟨replicate 30 255, length_replicate⟩ (by decide) (by decide))
    exact ((readCrypto_restores_iff rfl).mp hread.2).1 (by decide)
  · intro h
    have hused := (takesFromSection_iff _ _ _).mp (h [⟨text "m", text "audio 5000 RTP/SAVP 0"⟩,
      ⟨text "m", text "video 5002 RTP/SAVP 31"⟩, ⟨text "a", text "crypto:1"⟩] 0 1).1 rfl
    exact absurd hused (by decide)

end SdpBody

end SipXRouter
