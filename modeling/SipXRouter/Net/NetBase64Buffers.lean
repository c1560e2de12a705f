import SipXRouter.Net.NetBase64Codec

/-!
# Base64 in arrays

The overloads of `NetBase64Codec` that work on arrays count in `int`.  The encoder works out
the size of the encoding beside writing it; the decoder writes the first byte of every quadruple
and holds the second and third against the size that `decodedSize` has worked out.
-/

namespace SipXRouter

open List

namespace NetBase64Codec

open Base64Alphabet

/-! ## Encoding -/

/-- `NetBase64Codec::encodedSize`. -/
def encodedSize (dataSize : Int) : Int :=
  let size := dataSize.tdiv 3
  let size := if dataSize.tmod 3 ≠ 0 then size + 1 else size
  toInt32 (size * 4)

/-- What `NetBase64Codec::encode` leaves in its output parameters: the computed size, and what is
written.  The size of the data arrives in an `int`; a negative one makes it write nothing. -/
def encodeInto (a : Base64Alphabet) (data : Text) : Int × Text :=
  let dataSize := toInt32 data.length
  (encodedSize dataSize, encode a (data.take dataSize.toNat))

/-! ## Decoding -/

section Decoding

variable (a : Base64Alphabet) (stray : Byte → Byte) (behind : Nat → Byte)

/-- `decodeChar` as it is written.  Outside of the alphabet it is the distance from nowhere, which
is left to `stray`; the NUL at its end is found. -/
def decodeCharRaw (c : Byte) : Nat :=
  if c = a.pad then 0
  else if c ∈ a.symbols then a.symbols.idxOf c
  else if c = 0 then 65 else (stray c).toNat

/-- One turn of the loop of `NetBase64Codec::decode`: the bytes it writes, with their places. -/
def decodeTurn (dataSize j : Nat) (c₀ c₁ c₂ c₃ : Byte) : List (Byte × Nat) :=
  let k := decodeCharRaw a stray
  (UInt8.ofNat (k c₀ * 4 + k c₁ / 16 % 4), j) ::
    if j + 1 < dataSize then
      (UInt8.ofNat (k c₁ % 16 * 16 + k c₂ / 4 % 16), j + 1) ::
        if j + 2 < dataSize then [(UInt8.ofNat (k c₂ % 4 * 64 + k c₃ % 64), j + 2)] else []
    else []

/-- The loop of `NetBase64Codec::decode`.  A last turn with fewer than four characters reads what
lies behind the encoded data. -/
def decodeLoop (dataSize : Nat) : Nat → Text → List (Byte × Nat)
  | j, c₀ :: c₁ :: c₂ :: c₃ :: rest =>
    decodeTurn a stray dataSize j c₀ c₁ c₂ c₃ ++ decodeLoop dataSize (j + 3) rest
  | j, [c₀, c₁, c₂] => decodeTurn a stray dataSize j c₀ c₁ c₂ (behind 0)
  | j, [c₀, c₁] => decodeTurn a stray dataSize j c₀ c₁ (behind 0) (behind 1)
  | j, [c₀] => decodeTurn a stray dataSize j c₀ (behind 0) (behind 1) (behind 2)
  | _, [] => []

/-- What `NetBase64Codec::decode` returns and leaves in its output parameters. -/
structure Decoded where
  valid : Bool
  dataSize : Nat
  data : List (Byte × Nat)
deriving DecidableEq

/-- `NetBase64Codec::decode` into an array. -/
def decodeInto (encoded : Text) : Decoded :=
  if isValid a encoded then
    { valid := true
      dataSize := decodedSize a encoded
      data := decodeLoop a stray behind (decodedSize a encoded) 0 encoded }
  else { valid := false, dataSize := 0, data := [] }

end Decoding

variable {a : Base64Alphabet} {stray : Byte → Byte} {behind : Nat → Byte}

/-! ## Sizes -/

/-- Four characters for every three bytes or fewer. -/
theorem length_encode (d : Text) : (encode a d).length = 4 * ((d.length + 2) / 3) := by
  induction d using encode.induct with
  | case1 d₀ d₁ d₂ rest ih =>
    simp only [encode, length_cons, ih]
    omega
  | case2 d₀ d₁ => simp [encode]
  | case3 d₀ => simp [encode]
  | case4 => rfl

theorem encodedSize_eq {n : Nat} (hn : 4 * ((n + 2) / 3) < 2 ^ 31) :
    encodedSize n = (4 * ((n + 2) / 3) : Nat) := by
  have hdiv : (n : Int).tdiv 3 = (n / 3 : Nat) := rfl
  have hmod : (n : Int).tmod 3 = (n % 3 : Nat) := rfl
  simp only [encodedSize, hdiv, hmod, toInt32]
  split
  · omega
  · omega

theorem encodedSize_lt (n : Int) : encodedSize n < 2 ^ 31 := by
  simp only [encodedSize, toInt32]
  omega

/-- The check wants a character before the padding. -/
theorem isValid_nil (a : Base64Alphabet) : isValid a [] = false := by
  cases a <;> rfl

/-! ## Writing -/

theorem decodeCharRaw_symbolAt {k : Nat} (hk : k < 64) :
    decodeCharRaw a stray (symbolAt a k) = k := by
  have hdecode := decodeChar_symbolAt (a := a) hk
  have hmem : symbolAt a k ∈ a.symbols := by
    have hlen : k < a.symbols.length := by rwa [a.symbols_spec.1]
    rw [symbolAt, getD_eq_getElem?_getD, getElem?_eq_getElem hlen, Option.getD_some]
    exact getElem_mem hlen
  rw [decodeChar] at hdecode
  rw [decodeCharRaw, if_pos hmem]
  exact hdecode

/-- Decoding an encoded text writes its bytes, each at its own place. -/
theorem decodeLoop_encode (d : Text) (j : Nat) :
    decodeLoop a stray behind (j + d.length) j (encode a d) = d.zipIdx j := by
  have hbyte (b : Byte) (n : Nat) (hn : n = b.toNat) : UInt8.ofNat n = b := by
    rw [hn, UInt8.ofNat_toNat]
  induction d using encode.induct generalizing j with
  | case1 d₀ d₁ d₂ rest ih =>
    have h₀ := d₀.toNat_lt
    have h₁ := d₁.toNat_lt
    have h₂ := d₂.toNat_lt
    have hsize : j + (d₀ :: d₁ :: d₂ :: rest).length = j + 3 + rest.length := by
      simp only [length_cons]
      omega
    rw [hsize, encode, decodeLoop, ih, decodeTurn, if_pos (by omega), if_pos (by omega),
      decodeCharRaw_symbolAt (by omega), decodeCharRaw_symbolAt (by omega),
      decodeCharRaw_symbolAt (by omega), decodeCharRaw_symbolAt (by omega),
      hbyte d₀ _ (by omega), hbyte d₁ _ (by omega), hbyte d₂ _ (by omega)]
    rfl
  | case2 d₀ d₁ =>
    have h₀ := d₀.toNat_lt
    have h₁ := d₁.toNat_lt
    have hsize : j + [d₀, d₁].length = j + 2 := rfl
    rw [hsize, encode, decodeLoop, decodeLoop, decodeTurn, if_pos (by omega), if_neg (by omega),
      decodeCharRaw_symbolAt (by omega), decodeCharRaw_symbolAt (by omega),
      decodeCharRaw_symbolAt (by omega), hbyte d₀ _ (by omega), hbyte d₁ _ (by omega)]
    rfl
  | case3 d₀ =>
    have h₀ := d₀.toNat_lt
    have hsize : j + [d₀].length = j + 1 := rfl
    rw [hsize, encode, decodeLoop, decodeLoop, decodeTurn, if_neg (by omega),
      decodeCharRaw_symbolAt (by omega), decodeCharRaw_symbolAt (by omega),
      hbyte d₀ _ (by omega)]
    rfl
  | case4 => rfl

/-! ## The round trip -/

/-- What is expected of the codec for a text, whatever lies behind the arrays. -/
structure RoundTrips (a : Base64Alphabet) (d : Text) : Prop where
  /-- As much is written as was computed. -/
  size : ((encodeInto a d).2.length : Int) = (encodeInto a d).1
  accepted : isValid a (encodeInto a d).2 = true
  /-- The bytes of the text are written, each at its place. -/
  decoded : ∀ stray behind, decodeInto a stray behind (encodeInto a d).2 =
    { valid := true, dataSize := d.length, data := d.zipIdx }
  string : decode a (encodeInto a d).2 = some d
  /-- Nothing is written beyond the size that was computed. -/
  within : ∀ stray behind, ∀ w ∈ (decodeInto a stray behind (encodeInto a d).2).data,
    w.2 < decodedSize a (encodeInto a d).2

/-- While the size of the encoding is an `int`, so is the size of the data. -/
theorem encodeInto_eq {d : Text} (hd : 4 * ((d.length + 2) / 3) < 2 ^ 31) :
    encodeInto a d = (((4 * ((d.length + 2) / 3) : Nat) : Int), encode a d) := by
  have hint : toInt32 d.length = d.length := by
    simp only [toInt32]
    omega
  simp only [encodeInto, hint, encodedSize_eq hd, Int.toNat_natCast, take_length]

/-- The codec does what is expected of it for the texts that have a byte and whose encoding has a
size of type `int`; and what it decodes has passed the check. -/
theorem roundTrips_iff (a : Base64Alphabet) (d : Text) :
    (RoundTrips a d ↔ d ≠ [] ∧ 4 * ((d.length + 2) / 3) < 2 ^ 31) ∧
      ∀ stray behind s, (decodeInto a stray behind s).valid = true → isValid a s = true := by
  refine ⟨⟨fun h => ?_, fun ⟨hne, hsize⟩ => ?_⟩, fun stray behind s hs => ?_⟩
  · -- what was encoded is a beginning of the text, and it is decoded to the whole
    obtain ⟨size, accepted, -, string, -⟩ := h
    have hwritten : (encodeInto a d).2 = encode a (d.take (toInt32 d.length).toNat) := by
      simp only [encodeInto]
    rw [hwritten] at size accepted string
    have htake : d.take (toInt32 d.length).toNat ≠ [] := by
      intro hnil
      rw [hnil, encode, isValid_nil] at accepted
      exact absurd accepted (by simp)
    have hwhole : d.take (toInt32 d.length).toNat = d := by
      rw [decode_encode htake] at string
      exact Option.some.inj string
    refine ⟨hwhole ▸ htake, ?_⟩
    rw [hwhole, length_encode] at size
    have hlt : (encodeInto a d).1 < 2 ^ 31 := encodedSize_lt _
    omega
  · have hinto : encodeInto a d = _ := encodeInto_eq hsize
    have hdecoded (stray behind) : decodeInto a stray behind (encode a d) =
        { valid := true, dataSize := d.length, data := d.zipIdx } := by
      have hloop : decodeLoop a stray behind (0 + d.length) 0 (encode a d) = d.zipIdx 0 :=
        decodeLoop_encode d 0
      rw [Nat.zero_add] at hloop
      rw [decodeInto, if_pos (isValid_encode hne), decodedSize_encode hne, hloop]
    refine ⟨?_, ?_, ?_, ?_, ?_⟩
    · rw [hinto, length_encode]
    · rw [hinto]
      exact isValid_encode hne
    · intro stray behind
      rw [hinto]
      exact hdecoded stray behind
    · rw [hinto]
      exact decode_encode hne
    · intro stray behind w hw
      rw [hinto] at hw ⊢
      rw [hdecoded] at hw
      rw [decodedSize_encode hne]
      exact snd_lt_of_mem_zipIdx hw
  · rw [decodeInto] at hs
    split at hs
    · next hvalid => exact hvalid
    · exact absurd hs (by simp)

theorem roundTrips_iff_man :
    RoundTrips .sipTokenSafe (text "Man") ∧
      isValid .sipTokenSafe (encode .sipTokenSafe (text "Man")) = true :=
  ⟨(roundTrips_iff _ _).1.mpr ⟨by decide, by decide⟩,
    (roundTrips_iff _ (text "Man")).2 id (fun _ => 0) _ (by decide)⟩

/-- The check does not accept the encoding of no bytes. -/
theorem not_roundTrips_nil :
    (encodeInto .rfc4648Mime []).2 = [] ∧ ¬ RoundTrips .rfc4648Mime [] := by
  refine ⟨rfl, fun h => ?_⟩
  have haccepted : isValid .rfc4648Mime [] = true := h.accepted
  exact absurd haccepted (by decide)

end NetBase64Codec

end SipXRouter
