import SipXRouter.Net.NetBase64Codec
import SipXRouter.Net.NetMd5Codec
import SipXRouter.Net.SipMessage

/-!
# Branch identifiers

A branch identifier of this proxy is a cookie, a counter and a signature over the secret,
the counter and the Call-Id, with a key for the detection of loops behind a tilde where
the request was forked.  `BranchId` makes these values and takes them apart again.

## Design notes

* A contact is given by what `getUri` prints of it without the header parameter that
  `addFork` removes.
* The counter is handed in: each constructor uses the next of `0 .. 65535`.
-/

namespace SipXRouter

open List

namespace NetMd5Codec

/-- The bytes that a text of hexadecimal digits stands for. -/
def hexBytes : Text → Text
  | [] => []
  | [_] => []
  | a :: b :: rest => UInt8.ofNat (hexValue a * 16 + hexValue b) :: hexBytes rest

/-- `appendBase64Sig`: the digest in 22 characters. -/
def base64Sig (md5 : NetMd5Codec) (x : Text) : Text :=
  (NetBase64Codec.encode .sipTokenSafe (hexBytes (md5.hash x))).take 22

theorem length_hexBytes : ∀ s : Text, (hexBytes s).length = s.length / 2
  | [] => rfl
  | [_] => by simp [hexBytes]
  | _ :: _ :: rest => by
      rw [hexBytes, length_cons, length_hexBytes rest, length_cons, length_cons]
      omega

end NetMd5Codec

namespace BranchId

open Pattern NameValueTokenizer SipMessage

/-! ## Parts -/

/-- `SIPXECS_MAGIC_COOKIE`. -/
def magicCookie : Text := text "z9hG4bK-XX-"

/-- `%04x` of a number with 16 bits. -/
def hex4 (n : Nat) : Text :=
  [n / 4096 % 16, n / 256 % 16, n / 16 % 16, n % 16].map fun d => byte (Nat.digitChar d)

/-- The bytes of a `size_t`, lowest first. -/
def sizeBytes (n : Nat) : Text := (range 8).map fun i => UInt8.ofNat (n / 256 ^ i % 256)

/-- The characters of `MD5_B64SIG_REGEX`. -/
def isSigByte : Byte → Bool := Base64Alphabet.sipTokenSafe.isSymbol

/-- What `MD5_B64SIG_REGEX` describes. -/
def IsSignature (s : Text) : Prop := s.length = 22 ∧ ∀ c ∈ s, isSigByte c = true

/-- A loop detection key is missing or looks like a signature. -/
def IsLoopKey (key : Text) : Prop := key = [] ∨ IsSignature key

/-- The signature of `generateUniquePart`. -/
def signature (md5 : NetMd5Codec) (secret callId : Text) (uniqueCounter : Nat) : Text :=
  md5.base64Sig (secret ++ sizeBytes uniqueCounter ++ callId)

/-- The part of a value that is made for each branch: the cookie, the counter and its signature. -/
def generateUniquePart (md5 : NetMd5Codec) (secret callId : Text) (uniqueCounter : Nat) : Text :=
  magicCookie ++ hex4 (uniqueCounter % 65536) ++ signature md5 secret callId uniqueCounter

/-- The key behind its separator, if there is one. -/
def separated (loopDetectionKey : Text) : Text :=
  if loopDetectionKey = [] then [] else byte '~' :: loopDetectionKey

/-- The expression for a value of this proxy, with the counter, the signature and the key as groups.
-/
def sipXBranchRecognizer : Pattern :=
  cat [bol, lit "z9hG4bK-XX-", group 1 (times 4 (cls isHex)), group 2 (times 22 (cls isSigByte)),
    opt (cat [lit "~", group 3 (times 22 (cls isSigByte))]), eol]

/-- `BranchId::parse`: the counter, the signature and the key. -/
def parse (branchValue : Text) : Option (Nat × Text × Text) :=
  (search sipXBranchRecognizer (cString branchValue)).map fun m =>
    (digitsValue 16 ((m.group 1).getD []), (m.group 2).getD [], (m.group 3).getD [])

end BranchId

/-- A branch identifier. -/
structure BranchId where
  value : Text
  parentStringValid : Bool := true
  loopDetectionKey : Text := []
  forks : List Text := []
  isLoopKey : BranchId.IsLoopKey loopDetectionKey

namespace BranchId

open Pattern NameValueTokenizer SipMessage

variable (md5 : NetMd5Codec) (secret callId : Text)

theorem isSignature_base64Sig (x : Text) : IsSignature (md5.base64Sig x) := by
  have hlen : (NetMd5Codec.hexBytes (md5.hash x)).length = 16 := by
    rw [NetMd5Codec.length_hexBytes, md5.length_hash]
  obtain ⟨body, k, henc, hbody, -, hsize, -⟩ :=
    @NetBase64Codec.encode_shape .sipTokenSafe (NetMd5Codec.hexBytes (md5.hash x))
  have hle : 22 ≤ body.length := by omega
  rw [NetMd5Codec.base64Sig, henc, take_append_of_le_length hle]
  exact ⟨by rw [length_take]; omega, fun c hc => hbody c (mem_of_mem_take hc)⟩

/-! ## Making identifiers -/

/-- The identifier of a client transaction of a user agent. -/
def ofMessage (uniqueCounter : Nat) : BranchId where
  value := generateUniquePart md5 secret callId uniqueCounter
  isLoopKey := .inl rfl

/-- The identifier of a server transaction. -/
def ofExisting (existingBranchIdValue : Text) : BranchId where
  value := existingBranchIdValue
  isLoopKey := .inl rfl

/-- `UtlSortedList::insert`. -/
def insertFork (contactUri : Text) : List Text → List Text
  | [] => [contactUri]
  | c :: cs => if c < contactUri then c :: insertFork contactUri cs else contactUri :: c :: cs

/-- A contact joins the set, and the value kept so far is no longer valid. -/
def addFork (b : BranchId) (contactUri : Text) : BranchId :=
  { b with
    parentStringValid := false
    forks := if b.forks.contains contactUri then b.forks else insertFork contactUri b.forks }

/-- The value with the key for the contacts, made again where contacts were added. -/
def generateFullValue (b : BranchId) : BranchId :=
  if b.parentStringValid then b
  else
    let key := md5.base64Sig b.forks.flatten
    match parse b.value with
    | none => { b with loopDetectionKey := key, isLoopKey := .inr (isSignature_base64Sig md5 _) }
    | some (existingCounter, existingUniquePart, _) =>
      { b with
        value := magicCookie ++ hex4 (existingCounter % 65536) ++ existingUniquePart ++
          separated key
        loopDetectionKey := key
        parentStringValid := true
        isLoopKey := .inr (isSignature_base64Sig md5 _) }

def data (b : BranchId) : Text := (b.generateFullValue md5).value

/-- The identifier of a client transaction of the proxy. -/
def ofParent (parentId : BranchId) (uniqueCounter : Nat) : BranchId where
  value := generateUniquePart md5 secret callId uniqueCounter ++
    separated (parentId.generateFullValue md5).loopDetectionKey
  loopDetectionKey := (parentId.generateFullValue md5).loopDetectionKey
  isLoopKey := (parentId.generateFullValue md5).isLoopKey

/-- The identifiers that this proxy makes for a call, with any forks recorded for them, and
those that take over the value of one. -/
inductive Made : BranchId → Prop where
  | ofMessage (uniqueCounter : Nat) (hcounter : uniqueCounter < 65536) :
      Made (ofMessage md5 secret callId uniqueCounter)
  | ofParent (parentId : BranchId) (uniqueCounter : Nat) (hcounter : uniqueCounter < 65536) :
      Made (ofParent md5 secret callId parentId uniqueCounter)
  | ofExisting {b : BranchId} (hb : Made b) : Made (ofExisting (b.data md5))
  | addFork {b : BranchId} (hb : Made b) (contactUri : Text) : Made (b.addFork contactUri)
  | generateFullValue {b : BranchId} (hb : Made b) : Made (b.generateFullValue md5)

/-! ## Values are taken apart again -/

/-- A value with the given parts. -/
def branchValue (uniqueCounter : Nat) (sig key : Text) : Text :=
  magicCookie ++ hex4 uniqueCounter ++ sig ++ separated key

theorem hexDigit_spec {d : Nat} (hd : d < 16) :
    isHex (byte (Nat.digitChar d)) = true ∧ hexValue (byte (Nat.digitChar d)) = d := by
  have hall : ∀ d : Fin 16, isHex (byte (Nat.digitChar d)) = true ∧
      hexValue (byte (Nat.digitChar d)) = d := by decide
  exact hall ⟨d, hd⟩

theorem hex4_spec {n : Nat} (hn : n < 65536) :
    (hex4 n).length = 4 ∧ (∀ c ∈ hex4 n, isHex c = true) ∧ digitsValue 16 (hex4 n) = n := by
  refine ⟨rfl, fun c hc => ?_, ?_⟩
  · obtain ⟨d, hd, rfl⟩ := mem_map.mp hc
    refine (hexDigit_spec ?_).1
    simp only [mem_cons, not_mem_nil, or_false] at hd
    omega
  · simp only [hex4, map_cons, map_nil, digitsValue, foldl_cons, foldl_nil]
    rw [(hexDigit_spec (Nat.mod_lt _ (by decide))).2, (hexDigit_spec (Nat.mod_lt _ (by decide))).2,
      (hexDigit_spec (Nat.mod_lt _ (by decide))).2, (hexDigit_spec (Nat.mod_lt _ (by decide))).2]
    omega

/-- A literal in front is matched. -/
theorem head?_run_lit (s : String) (tail : Text) (n : Nat) :
    (run (lit s) n (text s ++ tail)).head? = some ⟨text s, tail, []⟩ := by
  rw [lit]
  generalize text s = w
  induction w generalizing n with
  | nil => rfl
  | cons c w ih =>
    have hfirst : (run (cls (· == c)) n (c :: (w ++ tail))).head? =
        some ⟨[c], w ++ tail, []⟩ := by
      rw [run_cls_cons (p := fun d => d == c) (beq_self_eq_true c)]
      rfl
    exact head?_run_seq hfirst (ih _)

theorem head?_run_loopKey {key : Text} (hkey : IsLoopKey key) (n : Nat) :
    (run (cat [opt (cat [lit "~", group 3 (times 22 (cls isSigByte))]), eol]) n
      (separated key)).head? =
      some ⟨separated key, [], if key = [] then [] else [(3, key)]⟩ := by
  rw [cat, foldr_cons, opt, run_seq_alt]
  obtain rfl | ⟨hlen, hall⟩ := hkey
  · rfl
  · have hne : key ≠ [] := ne_nil_of_length_eq_add_one hlen
    have hlit := head?_run_lit "~" key n
    have hsig := @head?_run_times_cls [] isSigByte key 22 hall hlen (n + 1)
    rw [append_nil] at hsig
    have hgroup := head?_run_seq (head?_run_group (k := 3) hsig)
      (rfl : (run eps (n + 1 + key.length) []).head? = some ⟨[], [], []⟩)
    have hboth := head?_run_seq (head?_run_seq hlit hgroup)
      (rfl : (run (seq eol eps) _ []).head? = some ⟨[], [], []⟩)
    rw [separated, if_neg hne, if_neg hne, head?_append]
    refine (congrArg (Option.or · _) hboth).trans ?_
    simp [Match.append, text]

/-- No byte of a branch value cuts it short. -/
theorem cString_branchValue {uniqueCounter : Nat} {sig key : Text} (hcounter : uniqueCounter < 65536)
    (hsig : IsSignature sig) (hkey : IsLoopKey key) :
    cString (branchValue uniqueCounter sig key) = branchValue uniqueCounter sig key := by
  have hmark {c : Byte} (hc : isSigByte c = true) : (c != 0) = true := by
    rw [bne_iff_ne]
    exact ne_of_class hc (by decide)
  refine cString_eq_self fun c hc => ?_
  rw [branchValue, mem_append, mem_append, mem_append] at hc
  obtain ((hc | hc) | hc) | hc := hc
  · exact (by decide : ∀ c ∈ magicCookie, (c != 0) = true) c hc
  · rw [bne_iff_ne]
    exact ne_of_class ((hex4_spec hcounter).2.1 c hc) (by decide)
  · exact hmark (hsig.2 c hc)
  · rw [separated] at hc
    split at hc
    · simp at hc
    · obtain rfl | hc := mem_cons.mp hc
      · decide
      · obtain rfl | hkey := hkey
        · simp at hc
        · exact hmark (hkey.2 c hc)

/-- **The parts of a value** are read back. -/
theorem parse_branchValue {uniqueCounter : Nat} {sig key : Text} (hcounter : uniqueCounter < 65536)
    (hsig : IsSignature sig) (hkey : IsLoopKey key) :
    parse (branchValue uniqueCounter sig key) = some (uniqueCounter, sig, key) := by
  obtain ⟨hlen, hhex, hvalue⟩ := hex4_spec hcounter
  have hcookie := head?_run_lit "z9hG4bK-XX-" (hex4 uniqueCounter ++ (sig ++ separated key)) 0
  have hgroup₁ (n : Nat) := head?_run_group (k := 1)
    (@head?_run_times_cls (sig ++ separated key) isHex _ 4 hhex hlen n)
  have hgroup₂ (n : Nat) := head?_run_group (k := 2)
    (@head?_run_times_cls (separated key) isSigByte _ 22 hsig.2 hsig.1 n)
  have hmatch := head?_run_seq (rfl : (run bol 0 _).head? = some ⟨[], _, []⟩)
    (head?_run_seq hcookie
      (head?_run_seq (hgroup₁ _) (head?_run_seq (hgroup₂ _) (head?_run_loopKey hkey _))))
  have hvalue' : branchValue uniqueCounter sig key =
      text "z9hG4bK-XX-" ++ (hex4 uniqueCounter ++ (sig ++ separated key)) := by
    rw [branchValue, append_assoc, append_assoc]
    rfl
  rw [parse, cString_branchValue hcounter hsig hkey, hvalue']
  rw [(search_of_matchAt hmatch : search sipXBranchRecognizer _ = _), Option.map_some]
  by_cases hnil : key = []
  · simp [Match.group, Match.append, hnil, lookup_cons, hvalue]
  · simp [Match.group, Match.append, hnil, lookup_cons, hvalue]

/-- What `generateUniquePart` makes is taken apart with what stands behind it. -/
theorem generateUniquePart_append {uniqueCounter : Nat} (hcounter : uniqueCounter < 65536)
    (key : Text) : generateUniquePart md5 secret callId uniqueCounter ++ separated key =
      branchValue uniqueCounter (signature md5 secret callId uniqueCounter) key := by
  rw [generateUniquePart, branchValue, Nat.mod_eq_of_lt hcounter]

variable {md5 secret callId}

/-! ## Recognizing identifiers -/

/-- The first subfield of a header; none if a character of it is not printable. -/
def firstSubfield (value : Text) : Text :=
  let sub := (value.dropWhile isComma).takeWhile fun c => !isComma c
  if value.length ≤ maxFieldLength ∧ sub.all isPrintableChar then sub else []

/-- `getViaFieldSubField` for the first subfield. -/
def topVia (m : SipMessage) : Option Text :=
  (((m.headerValues (text "VIA")).takeWhile (· ≠ [])).map firstSubfield).find? (· ≠ [])

/-- One parameter of a Via, or nothing where the name is blank. -/
def viaParameter (nameAndValue : Text) : Option (Text × Text) :=
  match getSubFieldPtr nameAndValue 0 (· == byte '=') with
  | none => none
  | some (name, rest) =>
    let name := name.dropWhile isBlank
    if name = [] then none
    else
      some (trim isCgiBlank name,
        trim isCgiBlank (rest.dropWhile (· == byte '=')))

def parseViaParameters (viaField : Text) : List (Text × Text) :=
  (segments (· == byte ';') (cString viaField)).filterMap viaParameter

/-- `getViaTag`.  Of equal names the bag hands out the one that was put in last. -/
def getViaTag (viaField tagName : Text) : Option Text :=
  ((parseViaParameters viaField).reverse.find? (·.1 == tagName)).map Prod.snd

def getCallIdField (m : SipMessage) : Text := (m.getHeaderValue 0 (text "CALL-ID")).getD []

def topBranch (m : SipMessage) : Option Text := (topVia m).bind (getViaTag · (text "branch"))

/-- The test of a response: its top Via is compared with the branch this proxy would have made. -/
def topViaIsMyBranch (md5 : NetMd5Codec) (secret : Text) (response : SipMessage) : Bool :=
  match topBranch response with
  | none => false
  | some branch =>
    match parse branch with
    | none => false
    | some (counter, uniqueKey, _) =>
      generateUniquePart md5 secret (getCallIdField response) counter == uniqueKey

/-- The branch parameter of the top Via was made here for the call of the message. -/
def TopViaMade (md5 : NetMd5Codec) (secret : Text) (m : SipMessage) : Prop :=
  ∃ b, Made md5 secret (getCallIdField m) b ∧ topBranch m = some (b.data md5)

/-- The signature that is found in a value holds no hyphen. -/
theorem isSigByte_of_parse {branch uniqueKey key : Text} {counter : Nat}
    (h : parse branch = some (counter, uniqueKey, key)) : ∀ c ∈ uniqueKey, isSigByte c = true := by
  obtain ⟨m, hm, hparts⟩ := Option.map_eq_some_iff.mp h
  obtain ⟨_, k, -, hrun⟩ := searchFrom_append (hm : searchFrom sipXBranchRecognizer 0 _ = some m)
  obtain ⟨-, hkey, -⟩ : _ ∧ (m.group 2).getD [] = uniqueKey ∧ _ := by simpa using hparts
  intro c hc
  cases hgroup : m.group 2 with
  | none => rw [← hkey, hgroup] at hc; simp at hc
  | some sig =>
    rw [← hkey, hgroup, Option.getD_some] at hc
    obtain ⟨body, hbody, hlang⟩ := exists_of_group hrun hgroup
    have hclass : body = times 22 (cls isSigByte) := by
      simpa [sipXBranchRecognizer, cat, groups, opt, lit, text, times] using hbody
    rw [hclass] at hlang
    exact (mem_lang_times_cls.mp hlang).2 c hc

theorem topViaIsMyBranch_eq_false (md5 : NetMd5Codec) (secret : Text) (m : SipMessage) :
    topViaIsMyBranch md5 secret m = false := by
  rw [topViaIsMyBranch]
  cases topBranch m with
  | none => rfl
  | some branch =>
    cases hparse : parse branch with
    | none => simp only [hparse]
    | some parts =>
      obtain ⟨counter, uniqueKey, key⟩ := parts
      simp only [hparse]
      rw [beq_eq_false_iff_ne]
      intro heq
      -- the cookie has a hyphen, a signature has none
      have hyphen : byte '-' ∈ uniqueKey := by
        rw [← heq, generateUniquePart, append_assoc]
        exact mem_append_left _ (by decide)
      exact absurd (isSigByte_of_parse hparse _ hyphen) (by decide)

/-- **The top Via is recognized** only where it was not made here: with its cookie and its
counter in front, the value that would be made is never the signature alone. -/
theorem topViaIsMyBranch_iff (md5 : NetMd5Codec) (secret : Text) (m : SipMessage) :
    (topViaIsMyBranch md5 secret m = true ↔ TopViaMade md5 secret m) ↔
      ¬ TopViaMade md5 secret m := by
  rw [topViaIsMyBranch_eq_false]
  constructor
  · intro h hmade
    exact Bool.false_ne_true (h.mpr hmade)
  · intro h
    exact ⟨fun hfalse => absurd hfalse Bool.false_ne_true, fun hmade => absurd hmade h⟩

/-! ### A response of this proxy's own request -/

/-- What is signed for the first request of the call. -/
def firstSigned : Text := text "1234567890" ++ sizeBytes 0 ++ text "f88dfabce84b6a2787ef024a7dbe8749"

/-- A digest that knows it. -/
def firstMd5 : NetMd5Codec :=
  NetMd5Codec.ofTable [(firstSigned, text "6db0a7ef44e15a0e4a93cc5917041ba5")] (by decide)

def ownResponse : SipMessage where
  firstHeaderLine := text "SIP/2.0 200 OK"
  nameValues :=
    [(text "VIA", text "SIP/2.0/TCP example.com;branch=z9hG4bK-XX-0000bbCn70ThWg5Kk8xZFwQbpQ"),
      (text "CALL-ID", text "f88dfabce84b6a2787ef024a7dbe8749")]

/-- The digest is ideal for it, the branch was made here for the call, and the response is
not recognized. -/
theorem not_recognized_ownResponse :
    firstMd5.Ideal [firstSigned] ∧ TopViaMade firstMd5 (text "1234567890") ownResponse ∧
      topViaIsMyBranch firstMd5 (text "1234567890") ownResponse = false := by
  refine ⟨?_, ?_, by decide⟩
  · exact NetMd5Codec.ideal_ofTable _ _ (by decide) (by decide)
      (by intro s hs; exact ⟨_, mem_singleton_self _, (mem_singleton.mp hs).symm⟩)
  · exact ⟨_, .ofMessage 0 (by decide), by decide⟩

end BranchId

end SipXRouter
