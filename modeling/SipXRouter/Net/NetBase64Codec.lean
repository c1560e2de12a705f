import SipXRouter.Pattern

/-!
# Base64

`NetBase64Codec` with its three alphabets: the encoder, the syntax check and the
decoder.

## Design notes

The source picks six bits at a time with masks and shifts; here they are the
quotients and remainders of the byte values.  A text that passes the check but ends
in a newline makes the decoder start a quadruple there, whose bytes lie beyond the
decoded size; only complete quadruples are decoded here.
-/

namespace SipXRouter

open List

/-- The encoding alphabets. -/
inductive Base64Alphabet where
  | rfc4648Mime | rfc4648UrlSafe | sipTokenSafe
deriving DecidableEq

namespace Base64Alphabet

/-- The letters and digits, then the two symbols that differ. -/
def symbols : Base64Alphabet → Text
  | rfc4648Mime => text "ABCDEFGHIJKLMNOPQRSTUVWXYZabcdefghijklmnopqrstuvwxyz0123456789+/"
  | rfc4648UrlSafe => text "ABCDEFGHIJKLMNOPQRSTUVWXYZabcdefghijklmnopqrstuvwxyz0123456789-_"
  | sipTokenSafe => text "ABCDEFGHIJKLMNOPQRSTUVWXYZabcdefghijklmnopqrstuvwxyz0123456789_\x60"

/-- `alphabet[PAD_CHAR]`. -/
def pad : Base64Alphabet → Byte
  | rfc4648Mime | rfc4648UrlSafe => byte '='
  | sipTokenSafe => byte '\''

/-- The class of the encoding characters in the check of the alphabet. -/
def isSymbol : Base64Alphabet → Byte → Bool
  | rfc4648Mime, c => isAlnum c || oneOf "+/" c
  | rfc4648UrlSafe, c => isAlnum c || oneOf "_-" c
  | sipTokenSafe, c => isAlnum c || oneOf "_\x60" c

@[simp] theorem isSymbol_pad (a : Base64Alphabet) : a.isSymbol a.pad = false := by
  cases a <;> decide

theorem symbols_spec (a : Base64Alphabet) :
    a.symbols.length = 64 ∧ a.symbols.Nodup ∧ ∀ c ∈ a.symbols, a.isSymbol c = true := by
  cases a <;> decide

end Base64Alphabet

variable {body d : Text} {k : Nat}

namespace NetBase64Codec

open Pattern Base64Alphabet

variable (a : Base64Alphabet)

/-! ## Encoding -/

/-- `alphabet[k]`. -/
def symbolAt (k : Nat) : Byte := a.symbols.getD k a.pad

/-- `NetBase64Codec::encode`: three bytes at a time, then one or two with padding. -/
def encode : Text → Text
  | d₀ :: d₁ :: d₂ :: rest =>
    symbolAt a (d₀.toNat / 4) :: symbolAt a (d₀.toNat % 4 * 16 + d₁.toNat / 16) ::
      symbolAt a (d₁.toNat % 16 * 4 + d₂.toNat / 64) :: symbolAt a (d₂.toNat % 64) ::
        encode rest
  | [d₀, d₁] =>
    [symbolAt a (d₀.toNat / 4), symbolAt a (d₀.toNat % 4 * 16 + d₁.toNat / 16),
      symbolAt a (d₁.toNat % 16 * 4), a.pad]
  | [d₀] => [symbolAt a (d₀.toNat / 4), symbolAt a (d₀.toNat % 4 * 16), a.pad, a.pad]
  | [] => []

/-! ## Checking -/

/-- `Valid_RFC4648MimeAlphabet` and its siblings. -/
def validBase64Regex : Pattern :=
  cat [bol, group 1 (plus (cls a.isSymbol)), group 2 (upTo 2 (cls (· == a.pad))), eol]

/-- Whether the padding is right for a number of encoding characters. -/
def paddingFits (encodingBytes paddingBytes : Nat) : Bool :=
  match paddingBytes with
  | 0 => encodingBytes % 4 == 0
  | 1 => encodingBytes % 4 == 3
  | 2 => encodingBytes % 4 == 2
  | _ => false

/-- `NetBase64Codec::validEncodingBytes`: the number of characters before the
padding, or zero. -/
def validEncodingBytes (encoded : Text) : Nat :=
  match search (validBase64Regex a) encoded with
  | none => 0
  | some m =>
    let encodingBytes := ((m.group 1).getD []).length
    if paddingFits encodingBytes ((m.group 2).getD []).length then encodingBytes else 0

/-- `NetBase64Codec::isValid`. -/
def isValid (encoded : Text) : Bool := decide (0 < validEncodingBytes a encoded)

/-- `NetBase64Codec::decodedSize`. -/
def decodedSize (encoded : Text) : Nat := validEncodingBytes a encoded * 3 / 4

/-! ## Decoding -/

/-- `NetBase64Codec::decodeChar`. -/
def decodeChar (c : Byte) : Nat := if c = a.pad then 0 else a.symbols.idxOf c

/-- The bytes of the complete quadruples. -/
def decodeQuads : Text → Text
  | c₀ :: c₁ :: c₂ :: c₃ :: rest =>
    UInt8.ofNat (decodeChar a c₀ * 4 + decodeChar a c₁ / 16 % 4) ::
      UInt8.ofNat (decodeChar a c₁ % 16 * 16 + decodeChar a c₂ / 4 % 16) ::
        UInt8.ofNat (decodeChar a c₂ % 4 * 64 + decodeChar a c₃ % 64) :: decodeQuads rest
  | _ => []

/-- `NetBase64Codec::decode`. -/
def decode (encoded : Text) : Option Text :=
  if isValid a encoded then some ((decodeQuads a encoded).take (decodedSize a encoded)) else none

/-! ## What the encoder writes -/

variable {a}

theorem isSymbol_symbolAt (hk : k < 64) : a.isSymbol (symbolAt a k) = true := by
  obtain ⟨hlength, -, hsymbol⟩ := a.symbols_spec
  have hlen : k < a.symbols.length := by rwa [hlength]
  rw [symbolAt, getD_eq_getElem?_getD, getElem?_eq_getElem hlen, Option.getD_some]
  exact hsymbol _ (getElem_mem hlen)

/-- An encoded text is symbols and then the padding that fits their number. -/
theorem encode_shape (d : Text) : ∃ body k, encode a d = body ++ replicate k a.pad ∧
    (∀ c ∈ body, a.isSymbol c = true) ∧ paddingFits body.length k = true ∧
    body.length * 3 / 4 = d.length ∧ (d ≠ [] → body ≠ []) := by
  induction d using encode.induct with
  | case1 d₀ d₁ d₂ rest ih =>
    obtain ⟨body, k, heq, hbody, hfits, hlen, -⟩ := ih
    have h₀ := d₀.toNat_lt
    have h₁ := d₁.toNat_lt
    have h₂ := d₂.toNat_lt
    refine ⟨symbolAt a (d₀.toNat / 4) :: symbolAt a (d₀.toNat % 4 * 16 + d₁.toNat / 16) ::
      symbolAt a (d₁.toNat % 16 * 4 + d₂.toNat / 64) :: symbolAt a (d₂.toNat % 64) :: body,
      k, ?_, ?_, ?_, ?_, by simp⟩
    · simp [encode, heq]
    · intro c hc
      simp only [mem_cons] at hc
      rcases hc with rfl | rfl | rfl | rfl | hc
      · exact isSymbol_symbolAt (by omega)
      · exact isSymbol_symbolAt (by omega)
      · exact isSymbol_symbolAt (by omega)
      · exact isSymbol_symbolAt (by omega)
      · exact hbody c hc
    · simpa [paddingFits, Nat.add_mod_right, Nat.add_assoc] using hfits
    · simp only [length_cons]
      omega
  | case2 d₀ d₁ =>
    have h₀ := d₀.toNat_lt
    have h₁ := d₁.toNat_lt
    refine ⟨[symbolAt a (d₀.toNat / 4), symbolAt a (d₀.toNat % 4 * 16 + d₁.toNat / 16),
      symbolAt a (d₁.toNat % 16 * 4)], 1, rfl, ?_, rfl, by simp, by simp⟩
    intro c hc
    simp only [mem_cons, not_mem_nil, or_false] at hc
    rcases hc with rfl | rfl | rfl
    · exact isSymbol_symbolAt (by omega)
    · exact isSymbol_symbolAt (by omega)
    · exact isSymbol_symbolAt (by omega)
  | case3 d₀ =>
    have h₀ := d₀.toNat_lt
    refine ⟨[symbolAt a (d₀.toNat / 4), symbolAt a (d₀.toNat % 4 * 16)], 2, rfl, ?_, rfl,
      by simp, by simp⟩
    intro c hc
    simp only [mem_cons, not_mem_nil, or_false] at hc
    rcases hc with rfl | rfl
    · exact isSymbol_symbolAt (by omega)
    · exact isSymbol_symbolAt (by omega)
  | case4 => exact ⟨[], 0, rfl, by simp, rfl, rfl, by simp⟩

theorem exists_mem_validBase64 (hne : body ≠ [])
    (hbody : ∀ c ∈ body, a.isSymbol c = true) (hk : k ≤ 2) :
    ∃ m, m ∈ run (validBase64Regex a) 0 (body ++ replicate k a.pad) := by
  have hplain : Plain (plus (cls a.isSymbol)) := ⟨trivial, trivial⟩
  have hpads : Plain (upTo 2 (cls (· == a.pad))) := by simp [upTo, opt, Plain]
  obtain ⟨m₁, hm₁, -, hrest₁⟩ := exists_mem_run hplain body
    (mem_lang_plus_cls.mpr ⟨hne, hbody⟩) 0 (replicate k a.pad)
  obtain ⟨m₂, hm₂, -, hrest₂⟩ := exists_mem_run hpads (replicate k a.pad)
    (mem_lang_upTo_cls.mpr ⟨by simpa using hk, by simp⟩) (0 + m₁.text.length) []
  refine ⟨_, mem_run_seq.mpr ⟨_, mem_run_bol.mpr ⟨rfl, rfl⟩, _, mem_run_seq.mpr
    ⟨_, mem_run_group.mpr ⟨m₁, hm₁, rfl⟩, _, mem_run_seq.mpr
      ⟨_, mem_run_group.mpr ⟨m₂, ?_, rfl⟩, _, mem_run_seq.mpr
        ⟨_, mem_run_eol.mpr ⟨Or.inl hrest₂, rfl⟩, _, mem_run_eps.mpr rfl, rfl⟩, rfl⟩, rfl⟩, rfl⟩⟩
  rw [hrest₁]
  simpa using hm₂

theorem groups_validBase64 (hbody : ∀ c ∈ body, a.isSymbol c = true) :
    ∀ m ∈ run (validBase64Regex a) 0 (body ++ replicate k a.pad),
      m.group 1 = some body ∧ m.group 2 = some (replicate k a.pad) := by
  intro m hm
  obtain ⟨_, hbol, t₁, htail₁, rfl⟩ := mem_run_seq.mp hm
  obtain ⟨-, rfl⟩ := mem_run_bol.mp hbol
  obtain ⟨_, hg₁, t₂, htail₂, rfl⟩ := mem_run_seq.mp htail₁
  obtain ⟨m₁, hm₁, rfl⟩ := mem_run_group.mp hg₁
  obtain ⟨_, hg₂, t₃, htail₃, rfl⟩ := mem_run_seq.mp htail₂
  obtain ⟨m₂, hm₂, rfl⟩ := mem_run_group.mp hg₂
  obtain ⟨_, heol, t₄, heps, rfl⟩ := mem_run_seq.mp htail₃
  obtain ⟨hend, rfl⟩ := mem_run_eol.mp heol
  obtain rfl := mem_run_eps.mp heps
  replace hend : m₂.rest = [] ∨ m₂.rest = [10] := hend
  obtain ⟨-, hsym⟩ := mem_lang_plus_cls.mp (text_mem_lang hm₁)
  obtain ⟨-, hpad⟩ := mem_lang_upTo_cls.mp (text_mem_lang hm₂)
  have hsplit : body ++ replicate k a.pad = m₁.text ++ (m₂.text ++ m₂.rest) := by
    have h₁ : body ++ replicate k a.pad = m₁.text ++ m₁.rest := append_of_mem_run hm₁
    have h₂ : m₁.rest = m₂.text ++ m₂.rest := append_of_mem_run hm₂
    rw [h₁, h₂]
  have hcaps₁ : m₁.caps = [] := caps_eq_nil rfl hm₁
  have hcaps₂ : m₂.caps = [] := caps_eq_nil rfl hm₂
  -- neither a pad nor a newline is an encoding character
  have hhead : ∀ c ∈ (m₂.text ++ m₂.rest).head?, a.isSymbol c = false := by
    intro c hc
    cases htext : m₂.text with
    | nil =>
      rcases hend with hnil | hnl
      · simp [htext, hnil] at hc
      · simp only [htext, hnl, nil_append, head?_cons, Option.mem_some_iff] at hc
        subst hc
        cases a <;> decide
    | cons d ds =>
      simp only [htext, cons_append, head?_cons, Option.mem_some_iff] at hc
      subst hc
      rw [eq_of_beq (hpad d (by simp [htext])), isSymbol_pad]
  have head_pads : ∀ c ∈ (replicate k a.pad).head?, a.isSymbol c = false := by
    intro c hc
    rw [eq_of_mem_replicate (mem_of_mem_head? hc), isSymbol_pad]
  obtain ⟨hbody₁, hpads⟩ := append_inj_of_class hbody hsym head_pads hhead hsplit
  have hrest : m₂.rest = [] := by
    rcases hend with hnil | hnl
    · exact hnil
    · have hmem : (10 : Byte) ∈ replicate k a.pad := by
        rw [hpads, hnl]
        simp
      have hpadnl : a.pad ≠ 10 := by cases a <;> decide
      exact absurd (eq_of_mem_replicate hmem).symm hpadnl
  rw [hrest, append_nil] at hpads
  simp [Match.group, Match.append, lookup_cons, hcaps₁, hcaps₂, hbody₁, hpads]

theorem validEncodingBytes_eq (hne : body ≠ [])
    (hbody : ∀ c ∈ body, a.isSymbol c = true) (hk : k ≤ 2) :
    validEncodingBytes a (body ++ replicate k a.pad) =
      if paddingFits body.length k then body.length else 0 := by
  obtain ⟨m, hm, h₁, h₂⟩ := exists_matchAt
    (exists_mem_validBase64 hne hbody hk) (groups_validBase64 hbody)
  have hsearch : search (validBase64Regex a) (body ++ replicate k a.pad) = some m := by
    rw [← hm]
    exact search_bol _ _
  simp [validEncodingBytes, hsearch, h₁, h₂]

theorem validEncodingBytes_append (hne : body ≠ [])
    (hbody : ∀ c ∈ body, a.isSymbol c = true) (hk : paddingFits body.length k = true) :
    validEncodingBytes a (body ++ replicate k a.pad) = body.length := by
  have hle : k ≤ 2 := by
    match k, hk with
    | 0, _ | 1, _ | 2, _ => omega
  rw [validEncodingBytes_eq hne hbody hle, if_pos hk]

theorem isValid_encode (hd : d ≠ []) : isValid a (encode a d) = true := by
  obtain ⟨body, k, heq, hbody, hfits, -, hne⟩ := encode_shape (a := a) d
  rw [isValid, heq, validEncodingBytes_append (hne hd) hbody hfits]
  exact decide_eq_true (length_pos_of_ne_nil (hne hd))

/-! ## Decoding what was encoded -/

theorem decodeChar_symbolAt (hk : k < 64) : decodeChar a (symbolAt a k) = k := by
  obtain ⟨hlength, hnodup, -⟩ := a.symbols_spec
  have hlen : k < a.symbols.length := by rwa [hlength]
  have hpad : symbolAt a k ≠ a.pad := by
    intro heq
    have hsymbol := isSymbol_symbolAt (a := a) hk
    rw [heq, isSymbol_pad] at hsymbol
    simp at hsymbol
  rw [decodeChar, if_neg hpad, symbolAt, getD_eq_getElem?_getD,
    getElem?_eq_getElem hlen, Option.getD_some]
  exact hnodup.idxOf_getElem k hlen

theorem decodeChar_pad : decodeChar a a.pad = 0 := if_pos rfl

/-- The groups of four give the data back, and zeros behind it. -/
theorem decodeQuads_encode (d : Text) : ∃ zeros, decodeQuads a (encode a d) = d ++ zeros := by
  have hbyte (b : Byte) (n : Nat) (hn : n = b.toNat) : UInt8.ofNat n = b := by
    rw [hn, UInt8.ofNat_toNat]
  induction d using encode.induct with
  | case1 d₀ d₁ d₂ rest ih =>
    obtain ⟨zeros, hzeros⟩ := ih
    have h₀ := d₀.toNat_lt
    have h₁ := d₁.toNat_lt
    have h₂ := d₂.toNat_lt
    refine ⟨zeros, ?_⟩
    rw [encode, decodeQuads, hzeros, decodeChar_symbolAt (by omega),
      decodeChar_symbolAt (by omega), decodeChar_symbolAt (by omega),
      decodeChar_symbolAt (by omega), hbyte d₀ _ (by omega), hbyte d₁ _ (by omega),
      hbyte d₂ _ (by omega)]
    rfl
  | case2 d₀ d₁ =>
    have h₀ := d₀.toNat_lt
    have h₁ := d₁.toNat_lt
    refine ⟨[UInt8.ofNat (d₁.toNat % 16 * 4 % 4 * 64 + 0 % 64)], ?_⟩
    rw [encode, decodeQuads, decodeChar_symbolAt (by omega),
      decodeChar_symbolAt (by omega), decodeChar_symbolAt (by omega), decodeChar_pad,
      hbyte d₀ _ (by omega), hbyte d₁ _ (by omega)]
    rfl
  | case3 d₀ =>
    have h₀ := d₀.toNat_lt
    refine ⟨[UInt8.ofNat (d₀.toNat % 4 * 16 % 16 * 16 + 0 / 4 % 16),
      UInt8.ofNat (0 % 4 * 64 + 0 % 64)], ?_⟩
    rw [encode, decodeQuads, decodeChar_symbolAt (by omega),
      decodeChar_symbolAt (by omega), decodeChar_pad, hbyte d₀ _ (by omega)]
    rfl
  | case4 => exact ⟨[], rfl⟩

theorem decodedSize_encode (hd : d ≠ []) : decodedSize a (encode a d) = d.length := by
  obtain ⟨body, k, heq, hbody, hfits, hlen, hne⟩ := encode_shape (a := a) d
  rw [decodedSize, heq, validEncodingBytes_append (hne hd) hbody hfits, hlen]

/-- **Round trip.**  The decoder gives back every text but the empty one, whose encoding
the check does not accept. -/
theorem decode_encode (hd : d ≠ []) : decode a (encode a d) = some d := by
  obtain ⟨zeros, hzeros⟩ := decodeQuads_encode (a := a) d
  rw [decode, if_pos (isValid_encode hd), decodedSize_encode hd, hzeros, take_left]

end NetBase64Codec

end SipXRouter
