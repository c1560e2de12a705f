import SipXRouter.Digitmaps.Patterns
import SipXRouter.Net.SipTransportRateLimitStrategy

/-!
# Ranges and lists of a rate limit

`cidr_verify` takes a range `x.y.z.q/size` for the addresses from the one that is
written on, as many as the size leaves; that is the subnet if the address is the
first of its subnet.  `IPv4subnet` masks instead.

`setPermanentWhiteList` and `setPermanentBlackList` take a text apart at commas and
blanks.  A comma with a blank behind it leaves an empty entry between the two, and
the parser of addresses throws at it, inside the lock for the white list.
-/

namespace SipXRouter.RateLimit

open List
open Patterns (inetPton dotted addressValue cidrText)

/-! ## Ranges -/

/-- `string_to_number<unsigned>`: white space, a sign and digits; a number out of range
is read as the largest, and no number as 0. -/
def stringToNumber (str : Text) : Nat :=
  let read := fun (negative : Bool) (s : Text) =>
    let value := XmlRpc.digitsAt 10 isDigit s
    if 2 ^ 32 ≤ value then 2 ^ 32 - 1
    else if negative then (2 ^ 32 - value) % 2 ^ 32
    else value
  match (cString str).dropWhile isCSpace with
  | 45 :: s => read true s
  | 43 :: s => read false s
  | s => read false s

/-- `pow(2, (int)(32-bits)) - 1` as an `unsigned long`; `none` is a conversion out of
range. -/
def numHosts (bits : Nat) : Option Nat :=
  let exponent := (BitVec.ofInt 32 (32 - bits)).toInt
  if exponent < 0 then some 0
  else if exponent ≤ 64 then some (2 ^ exponent.toNat - 1)
  else none

/-- `address_v4::from_string`, as the number of the address. -/
def fromStringV4 (s : Text) : Option Nat := (inetPton true s).map BitVec.toNat

/-- `cidr_verify`. -/
def cidrVerify (ipv4 : BitVec 32) (cidr : Text) : Option Bool :=
  let cidrTokens := cidr.splitOn (byte '/')
  let (startIp, bits) :=
    match cidrTokens with
    | [ip, size] => (ip, stringToNumber size)
    | _ => (cidr, 24)
  match fromStringV4 startIp with
  | none => some false
  | some start =>
    (numHosts bits).map fun hosts =>
      let ceiling := (start + hosts) % 2 ^ 64
      decide (start ≤ ipv4.toNat) && decide (ipv4.toNat ≤ ceiling)

/-- `cidr_verify` of an address that is text. -/
def cidrVerifyText (ip cidr : Text) : Option Bool :=
  match inetPton true ip with
  | none => some false
  | some ipv4 => cidrVerify ipv4 cidr

/-- The first `p` bits of two addresses are the same. -/
def FirstBitsAgree (address network p : Nat) : Prop :=
  address / 2 ^ (32 - p) = network / 2 ^ (32 - p)

theorem stringToNumber_natText {p : Nat} (hp : p ≤ 32) : stringToNumber (natText p) = p := by
  have hall : ∀ p : Fin 33, stringToNumber (natText p) = (p : Nat) := by decide
  exact hall ⟨p, by omega⟩

theorem numHosts_of_le {p : Nat} (hp : p ≤ 32) : numHosts p = some (2 ^ (32 - p) - 1) := by
  have hall : ∀ p : Fin 33, numHosts p = some (2 ^ (32 - (p : Nat)) - 1) := by decide
  exact hall ⟨p, by omega⟩

theorem fromStringV4_dotted {net : List Nat} (hlength : net.length = 4)
    (hnet : ∀ o ∈ net, o < 256) : fromStringV4 (dotted net) = some (addressValue net) := by
  have hzero : (0 : Byte) ∉ dotted net := Patterns.notMem_dotted (by decide) (by decide) net
  have hread : inetPton true (dotted net) = some (.ofNat 32 (addressValue net)) :=
    Patterns.inetPton_eq_some_iff.mpr ⟨net, hlength, hnet, cString_of_notMem hzero, rfl⟩
  rw [fromStringV4, hread, Option.map_some, BitVec.toNat_ofNat,
    Nat.mod_eq_of_lt (Patterns.addressValue_lt hlength hnet)]

theorem splitOn_cidrText (net : List Nat) (p : Nat) :
    (cidrText net p).splitOn (byte '/') = [dotted net, natText p] := by
  have hnet : byte '/' ∉ dotted net := Patterns.notMem_dotted (by decide) (by decide) net
  have hsize : byte '/' ∉ natText p := Patterns.notMem_natText (by decide) p
  have hjoin : cidrText net p = [byte '/'].intercalate [dotted net, natText p] := by
    simp [cidrText, intercalate_cons_cons]
  rw [hjoin]
  refine splitOn_intercalate _ ?_ (cons_ne_nil _ _)
  intro l hl
  rcases mem_cons.mp hl with rfl | hl
  · exact hnet
  · rwa [mem_singleton.mp hl]

/-- A range is the addresses from the one that is written on. -/
theorem cidrVerify_eq_true_iff {net : List Nat} {p : Nat} (hlength : net.length = 4)
    (hnet : ∀ o ∈ net, o < 256) (hp : p ≤ 32) (a : BitVec 32) :
    cidrVerify a (cidrText net p) = some true ↔
      addressValue net ≤ a.toNat ∧ a.toNat < addressValue net + 2 ^ (32 - p) := by
  have hlt := Patterns.addressValue_lt hlength hnet
  have hpow : 2 ^ (32 - p) ≤ 2 ^ 32 := Nat.pow_le_pow_right (by decide) (Nat.sub_le _ _)
  have hpos : 0 < 2 ^ (32 - p) := Nat.two_pow_pos _
  have hceiling : (addressValue net + (2 ^ (32 - p) - 1)) % 2 ^ 64 =
      addressValue net + (2 ^ (32 - p) - 1) := by
    apply Nat.mod_eq_of_lt
    omega
  simp only [cidrVerify, splitOn_cidrText, stringToNumber_natText hp,
    fromStringV4_dotted hlength hnet, numHosts_of_le hp, Option.map_some, hceiling,
    Option.some_inj, Bool.and_eq_true, decide_eq_true_eq]
  omega

/-- From a number on, as many as the size of a block: what is left of the first block,
and the front of the next one. -/
theorem mem_interval_iff {S : Nat} (hS : 0 < S) (n a : Nat) :
    n ≤ a ∧ a < n + S ↔ if n % S ≤ a % S then a / S = n / S else a / S = n / S + 1 := by
  have ha := Nat.div_add_mod a S
  have hn := Nat.div_add_mod n S
  have hra := Nat.mod_lt a hS
  have hrn := Nat.mod_lt n hS
  have hstep {q r : Nat} (h : q < r) : S * q + S ≤ S * r := by
    rw [← Nat.mul_succ]
    exact Nat.mul_le_mul_left S h
  have hsucc : S * (n / S + 1) = S * (n / S) + S := Nat.mul_succ _ _
  split
  · next hle =>
    constructor
    · rintro ⟨hlo, hhi⟩
      rcases Nat.lt_trichotomy (a / S) (n / S) with hlt | heq | hgt
      · have hblocks := hstep hlt
        omega
      · exact heq
      · have hblocks := hstep hgt
        omega
    · intro heq
      rw [heq] at ha
      omega
  · next hlt =>
    constructor
    · rintro ⟨hlo, hhi⟩
      rcases Nat.lt_trichotomy (a / S) (n / S + 1) with hbefore | heq | hbehind
      · rcases Nat.lt_or_eq_of_le (Nat.lt_succ_iff.mp hbefore) with hbelow | heq
        · have hblocks := hstep hbelow
          omega
        · rw [heq] at ha
          omega
      · exact heq
      · have hblocks := hstep hbehind
        omega
    · intro heq
      rw [heq] at ha
      omega

/-- An address of four octets. -/
structure Quad where
  octets : List Nat
  length_eq : octets.length = 4
  lt : ∀ o ∈ octets, o < 256

/-- The address as a number. -/
def Quad.value (n : Quad) : Nat := addressValue n.octets

/-- The address as it is written. -/
def Quad.text (n : Quad) : Text := dotted n.octets

/-- The range `n/p`. -/
def Quad.range (n : Quad) (p : Fin 33) : Text := cidrText n.octets p

theorem Quad.value_lt (n : Quad) : n.value < 2 ^ 32 := Patterns.addressValue_lt n.length_eq n.lt

/-- As many addresses as a subnet of size `p` has. -/
def blockSize (p : Fin 33) : Nat := 2 ^ (32 - (p : Nat))

theorem blockSize_pos (p : Fin 33) : 0 < blockSize p := Nat.two_pow_pos _

/-- The check is right but for addresses of the block or the one behind, at a lower offset. -/
theorem cidrVerify_iff_agree_iff (a : BitVec 32) (n : Quad) (p : Fin 33) :
    (cidrVerify a (n.range p) = some true ↔ FirstBitsAgree a.toNat n.value p) ↔
      (a.toNat % blockSize p < n.value % blockSize p →
        a.toNat / blockSize p ≠ n.value / blockSize p ∧
          a.toNat / blockSize p ≠ n.value / blockSize p + 1) := by
  have hinterval := mem_interval_iff (blockSize_pos p) n.value a.toNat
  rw [Quad.range, cidrVerify_eq_true_iff n.length_eq n.lt (Nat.le_of_lt_succ p.isLt)]
  show (n.value ≤ a.toNat ∧ a.toNat < n.value + blockSize p ↔
    a.toNat / blockSize p = n.value / blockSize p) ↔ _
  rw [hinterval]
  by_cases hle : n.value % blockSize p ≤ a.toNat % blockSize p
  · rw [if_pos hle]
    exact iff_of_true Iff.rfl fun hlt => absurd hle (Nat.not_le.mpr hlt)
  · rw [if_neg hle]
    have hlt := Nat.lt_of_not_le hle
    constructor
    · intro h _
      constructor
      · intro hsame
        have hnext := h.mpr hsame
        omega
      · intro hnext
        have hsame := h.mp hnext
        omega
    · intro h
      exact iff_of_false (h hlt).2 (h hlt).1

theorem forall_cidrVerify_iff (n : Quad) (p : Fin 33) :
    (∀ a : BitVec 32, cidrVerify a (n.range p) = some true ↔ FirstBitsAgree a.toNat n.value p) ↔
      blockSize p ∣ n.value := by
  rw [Nat.dvd_iff_mod_eq_zero]
  constructor
  · intro h
    -- the first address of the subnet
    have hfirst := (cidrVerify_iff_agree_iff (.ofNat 32 (n.value - n.value % blockSize p)) n p).mp
      (h _)
    have hlt : n.value - n.value % blockSize p < 2 ^ 32 :=
      (Nat.sub_le _ _).trans_lt n.value_lt
    have hblock : n.value - n.value % blockSize p = blockSize p * (n.value / blockSize p) := by
      have hdiv := Nat.div_add_mod n.value (blockSize p)
      omega
    rw [BitVec.toNat_ofNat, Nat.mod_eq_of_lt hlt, hblock, Nat.mul_mod_right,
      Nat.mul_div_cancel_left _ (blockSize_pos p)] at hfirst
    by_contra hne
    exact (hfirst (Nat.pos_of_ne_zero hne)).1 rfl
  · intro hzero a
    rw [cidrVerify_iff_agree_iff, hzero]
    exact fun hlt => absurd hlt (Nat.not_lt_zero _)

theorem inetPton_text (a : Quad) : inetPton true a.text = some (.ofNat 32 a.value) :=
  Patterns.inetPton_eq_some_iff.mpr ⟨a.octets, a.length_eq, a.lt,
    cString_of_notMem (Patterns.notMem_dotted (by decide) (by decide) _), rfl⟩

theorem exists_cidrVerifyText (a n : Quad) (p : Fin 33) :
    ∃ b, cidrVerifyText a.text (n.range p) = some b ∧
      (b = true ↔ n.value ≤ a.value ∧ a.value < n.value + blockSize p) := by
  have hp : (p : Nat) ≤ 32 := Nat.le_of_lt_succ p.isLt
  have hvalue : (BitVec.ofNat 32 a.value).toNat = a.value := by
    rw [BitVec.toNat_ofNat, Nat.mod_eq_of_lt a.value_lt]
  have htrue := cidrVerify_eq_true_iff n.length_eq n.lt hp (.ofNat 32 a.value)
  rw [hvalue] at htrue
  rw [cidrVerifyText, inetPton_text]
  cases hverify : cidrVerify (.ofNat 32 a.value) (n.range p) with
  | none =>
    simp only [cidrVerify, Quad.range, splitOn_cidrText, stringToNumber_natText hp,
      fromStringV4_dotted n.length_eq n.lt, numHosts_of_le hp, Option.map_some,
      reduceCtorEq] at hverify
  | some b =>
    refine ⟨b, hverify, ?_⟩
    rw [← Option.some_inj, ← hverify]
    exact htrue

theorem cidrVerifyText_eq_IPv4subnet_iff (bigEndian : Bool) (a n : Quad) (p : Fin 33) :
    cidrVerifyText a.text (n.range p) = Patterns.IPv4subnet bigEndian a.text (n.range p) ↔
      0 < (p : Nat) ∧ blockSize p ∣ n.value ∨
        ¬ (n.value ≤ a.value ∧ a.value < n.value + blockSize p) := by
  obtain ⟨b, hb, htrue⟩ := exists_cidrVerifyText a n p
  obtain ⟨c, hc⟩ := Patterns.exists_iPv4subnet bigEndian a.text (n.range p)
  have hsubnet : Patterns.IPv4subnet bigEndian a.text (n.range p) = some true ↔
      0 < (p : Nat) ∧ Patterns.IsWithin a.value (addressValue (Patterns.complete n.octets)) p :=
    Patterns.iPv4subnet_eq_true_iff a.length_eq (by rw [n.length_eq]; decide) n.length_eq.le a.lt
      n.lt (Nat.le_of_lt_succ p.isLt)
  have hcomplete : Patterns.complete n.octets = n.octets := by
    rw [Patterns.complete, n.length_eq]
    exact append_nil _
  rw [hcomplete] at hsubnet
  have hc' : c = true ↔ 0 < (p : Nat) ∧ Patterns.IsWithin a.value n.value p := by
    rw [← Option.some_inj, ← hc]
    exact hsubnet
  have hinterval := mem_interval_iff (blockSize_pos p) n.value a.value
  rw [hb, hc, Option.some_inj, Bool.eq_iff_iff, htrue, hc']
  by_cases hsub : 0 < (p : Nat) ∧ blockSize p ∣ n.value
  · have hzero : n.value % blockSize p = 0 := Nat.dvd_iff_mod_eq_zero.mp hsub.2
    rw [hzero, if_pos (Nat.zero_le _)] at hinterval
    refine iff_of_true ?_ (Or.inl hsub)
    rw [hinterval]
    exact ⟨fun h => ⟨hsub.1, h, hsub.2⟩, fun h => h.2.1⟩
  · have hnot : ¬ (0 < (p : Nat) ∧ Patterns.IsWithin a.value n.value p) :=
      fun h => hsub ⟨h.1, h.2.2⟩
    rw [iff_false_right hnot, or_iff_right hsub]

/-! ## Lists -/

section Lists

variable {Address : Type}

def isListSeparator : Byte → Bool := oneOf ", "

/-- A token of a list: a range if it has a slash, else what the parser of addresses makes
of it; `none` is its exception. -/
def readEntry (fromString : Text → Option Address) (token : Text) : Option (Entry Address Text) :=
  if byte '/' ∈ token then some (.range token)
  else (fromString (cString token)).map .address

/-- The loop over the tokens, and whether it came to its end. -/
def recordTokens (fromString : Text → Option Address)
    (record : Strategy Address Text → Entry Address Text → Strategy Address Text) :
    List Text → Strategy Address Text → Strategy Address Text × Bool
  | [], s => (s, true)
  | token :: tokens, s =>
    match readEntry fromString token with
    | none => (s, false)
    | some entry => recordTokens fromString record tokens (record s entry)

/-- What a call leaves: the members, whether the mutex is held, and whether the call
returned. -/
structure Outcome (Address : Type) where
  strategy : Strategy Address Text
  mutexHeld : Bool
  returned : Bool

/-- `setPermanentWhiteList` of a text.  An exception leaves the mutex locked. -/
def permanentWhiteList [DecidableEq Address] (fromString : Text → Option Address)
    (s : Strategy Address Text) (whiteList : Text) : Outcome Address :=
  let loop := recordTokens fromString Strategy.whiteListEntry
    (whiteList.splitOnP isListSeparator) s
  ⟨loop.1, !loop.2, loop.2⟩

/-- `setPermanentBlackList` of a text.  The mutex is taken for each entry by itself, and
not around the parser. -/
def permanentBlackList [DecidableEq Address] (lib : Library Address Text)
    (fromString : Text → Option Address) (s : Strategy Address Text) (blackList : Text) :
    Outcome Address :=
  let loop := recordTokens fromString (Strategy.blackListEntry lib)
    (blackList.splitOnP isListSeparator) s
  ⟨loop.1, false, loop.2⟩

/-- An entry as it is written. -/
structure ListItem (fromString : Text → Option Address) where
  written : Text
  entry : Entry Address Text
  read : readEntry fromString written = some entry
  plain : ∀ c ∈ written, isListSeparator c = false

/-- A comma with blanks around it. -/
structure Gap where
  before : Nat
  after : Nat
deriving DecidableEq

/-- A gap between two entries as it is written. -/
def Gap.written (g : Gap) : Text :=
  replicate g.before (byte ' ') ++ byte ',' :: replicate g.after (byte ' ')

/-- The entries, each but the first with what stands in front of it. -/
def listText {fromString : Text → Option Address} : List (Gap × ListItem fromString) → Text
  | [] => []
  | first :: rest => first.2.written ++ rest.flatMap fun p => p.1.written ++ p.2.written

variable {fromString : Text → Option Address}
  {record : Strategy Address Text → Entry Address Text → Strategy Address Text}

theorem recordTokens_of_read (items : List (ListItem fromString)) (s : Strategy Address Text) :
    recordTokens fromString record (items.map (·.written)) s =
      ((items.map (·.entry)).foldl record s, true) := by
  induction items generalizing s with
  | nil => rfl
  | cons item items ih =>
    rw [map_cons, recordTokens, item.read]
    exact ih (record s item.entry)

theorem recordTokens_snd_of_mem {tokens : List Text} {token : Text} (hmem : token ∈ tokens)
    (hread : readEntry fromString token = none) (s : Strategy Address Text) :
    (recordTokens fromString record tokens s).2 = false := by
  induction tokens generalizing s with
  | nil => cases hmem
  | cons t tokens ih =>
    rw [recordTokens]
    cases ht : readEntry fromString t with
    | none => rfl
    | some entry =>
      rcases mem_cons.mp hmem with rfl | hmem
      · exact absurd (hread.symm.trans ht) (by simp)
      · exact ih hmem (record s entry)

theorem splitOnP_blanks (k : Nat) (t : Text) :
    (replicate k (byte ' ') ++ t).splitOnP isListSeparator =
      replicate k [] ++ t.splitOnP isListSeparator := by
  induction k with
  | zero => rfl
  | succ k ih =>
    rw [replicate_succ, replicate_succ, cons_append, cons_append, ← ih]
    have hnil : ∀ c ∈ ([] : Text), isListSeparator c = false := by simp
    exact splitOnP_append_cons_of_forall_mem hnil (byte ' ') (by decide) _

/-- Between two entries, one empty token for each blank. -/
theorem splitOnP_gap {w : Text} (hw : ∀ c ∈ w, isListSeparator c = false) (g : Gap) (t : Text) :
    (w ++ (g.written ++ t)).splitOnP isListSeparator =
      w :: (replicate (g.before + g.after) [] ++ t.splitOnP isListSeparator) := by
  have hcomma (u : Text) (v : Text) (hu : ∀ c ∈ u, isListSeparator c = false) :
      (u ++ byte ',' :: v).splitOnP isListSeparator = u :: v.splitOnP isListSeparator :=
    splitOnP_append_cons_of_forall_mem hu _ (by decide) _
  cases hbefore : g.before with
  | zero =>
    rw [Gap.written, hbefore, replicate_zero, nil_append, cons_append,
      hcomma w _ hw, splitOnP_blanks, Nat.zero_add]
  | succ k =>
    have hblank (v : Text) : (w ++ byte ' ' :: v).splitOnP isListSeparator =
        w :: v.splitOnP isListSeparator :=
      splitOnP_append_cons_of_forall_mem hw _ (by decide) _
    rw [Gap.written, hbefore, replicate_succ, cons_append, cons_append, hblank,
      append_assoc, splitOnP_blanks, cons_append]
    have hrest := hcomma [] (replicate g.after (byte ' ') ++ t) (by simp)
    rw [nil_append] at hrest
    have hcount : k + 1 + g.after = k + (g.after + 1) := by omega
    rw [hrest, splitOnP_blanks, hcount, ← replicate_append_replicate, append_assoc,
      replicate_succ, cons_append]

theorem splitOnP_listText (first : Gap × ListItem fromString) :
    ∀ rest : List (Gap × ListItem fromString),
      (listText (first :: rest)).splitOnP isListSeparator =
        first.2.written :: rest.flatMap fun p =>
          replicate (p.1.before + p.1.after) [] ++ [p.2.written] := by
  have htail : ∀ (rest : List (Gap × ListItem fromString)) (item : ListItem fromString),
      (item.written ++ rest.flatMap fun p => p.1.written ++ p.2.written).splitOnP isListSeparator =
        item.written :: rest.flatMap fun p =>
          replicate (p.1.before + p.1.after) [] ++ [p.2.written] := by
    intro rest
    induction rest with
    | nil =>
      intro item
      rw [flatMap_nil, append_nil, splitOnP_eq_singleton item.plain]
      rfl
    | cons p rest ih =>
      intro item
      rw [flatMap_cons, append_assoc, splitOnP_gap item.plain, ih p.2,
        flatMap_cons]
      simp
  exact fun rest => htail rest first.2

/-- The list is not empty, and there are commas without blanks. -/
def IsTight (items : List (Gap × ListItem fromString)) : Prop :=
  items ≠ [] ∧ ∀ p ∈ items.tail, p.1 = ⟨0, 0⟩

theorem recordTokens_of_tight {items : List (Gap × ListItem fromString)} (h : IsTight items)
    (s : Strategy Address Text) :
    recordTokens fromString record ((listText items).splitOnP isListSeparator) s =
      ((items.map (·.2.entry)).foldl record s, true) := by
  cases items with
  | nil => exact absurd rfl h.1
  | cons first rest =>
    have htokens : (listText (first :: rest)).splitOnP isListSeparator =
        ((first :: rest).map (·.2)).map (·.written) := by
      rw [splitOnP_listText, map_cons, map_cons]
      congr 1
      have hgaps : ∀ p ∈ rest, p.1 = ⟨0, 0⟩ := h.2
      clear h
      induction rest with
      | nil => rfl
      | cons p rest ih =>
        rw [flatMap_cons, hgaps p mem_cons_self,
          ih fun q hq => hgaps q (mem_cons_of_mem _ hq)]
        rfl
    rw [htokens, recordTokens_of_read, map_map]
    rfl

theorem nil_mem_of_not_tight {items : List (Gap × ListItem fromString)} (h : ¬ IsTight items) :
    [] ∈ (listText items).splitOnP isListSeparator := by
  cases items with
  | nil => exact mem_singleton_self _
  | cons first rest =>
    have hgap : ∃ p ∈ rest, p.1 ≠ ⟨0, 0⟩ := by
      by_contra hnone
      refine h ⟨cons_ne_nil _ _, fun p hp => ?_⟩
      by_contra hne
      exact hnone ⟨p, hp, hne⟩
    obtain ⟨p, hp, hne⟩ := hgap
    have hpos : p.1.before + p.1.after ≠ 0 := by
      intro hzero
      apply hne
      cases hg : p.1 with
      | mk before after =>
        rw [hg] at hzero
        obtain ⟨rfl, rfl⟩ := Nat.add_eq_zero_iff.mp hzero
        rfl
    rw [splitOnP_listText]
    refine mem_cons_of_mem _ (mem_flatMap.mpr ⟨p, hp, mem_append_left _ ?_⟩)
    exact mem_replicate.mpr ⟨hpos, rfl⟩

theorem recordTokens_eq_iff
    (record : Strategy Address Text → Entry Address Text → Strategy Address Text)
    (hempty : fromString [] = none) (items : List (Gap × ListItem fromString))
    (s : Strategy Address Text) :
    recordTokens fromString record ((listText items).splitOnP isListSeparator) s =
        ((items.map (·.2.entry)).foldl record s, true) ↔ IsTight items := by
  refine ⟨fun h => ?_, fun h => recordTokens_of_tight h s⟩
  by_contra hnot
  have hread : readEntry fromString [] = none := by
    rw [readEntry, if_neg not_mem_nil]
    show Option.map _ (fromString []) = none
    rw [hempty]
    rfl
  have hended : (recordTokens fromString record _ s).2 = false :=
    recordTokens_snd_of_mem (nil_mem_of_not_tight hnot) hread s
  rw [h] at hended
  exact Bool.false_ne_true hended.symm

variable [DecidableEq Address]

/-- What a list asks for: all its entries recorded, the mutex released, and the call
returned. -/
def Outcome.Records (outcome : Outcome Address) (s : Strategy Address Text) : Prop :=
  outcome = ⟨s, false, true⟩

theorem permanentWhiteList_records_iff (hempty : fromString [] = none) (s : Strategy Address Text)
    (items : List (Gap × ListItem fromString)) :
    (permanentWhiteList fromString s (listText items)).Records
        (s.setPermanentWhiteList (items.map (·.2.entry))) ↔ IsTight items := by
  have hloop := recordTokens_eq_iff Strategy.whiteListEntry hempty items s
  rw [← hloop, Outcome.Records, permanentWhiteList, Outcome.mk.injEq, Prod.ext_iff]
  simp [Strategy.setPermanentWhiteList]

theorem permanentBlackList_records_iff (hempty : fromString [] = none) (lib : Library Address Text)
    (s : Strategy Address Text) (items : List (Gap × ListItem fromString)) :
    (permanentBlackList lib fromString s (listText items)).Records
        (s.setPermanentBlackList lib (items.map (·.2.entry))) ↔ IsTight items := by
  have hloop := recordTokens_eq_iff (Strategy.blackListEntry lib) hempty items s
  rw [← hloop, Outcome.Records, permanentBlackList, Outcome.mk.injEq, Prod.ext_iff]
  simp [Strategy.setPermanentBlackList]

/-- **Ranges and lists.**  A range is the subnet for the addresses that do not stand, in
their subnet, in front of the address that the range is written with, here or in the next
subnet; a range is the subnet for all addresses if the other bits of what is written are
zero, and `IPv4subnet` then says the same if there is a first bit.  A text is recorded as
the list it is if it has an entry and no blanks. -/
theorem cidrVerify_and_lists_iff (lib : Library Address Text) (fromString : Text → Option Address)
    (hempty : fromString [] = none) :
    (∀ (a : BitVec 32) (n : Quad) (p : Fin 33),
      (cidrVerify a (n.range p) = some true ↔ FirstBitsAgree a.toNat n.value p) ↔
        (a.toNat % blockSize p < n.value % blockSize p →
          a.toNat / blockSize p ≠ n.value / blockSize p ∧
            a.toNat / blockSize p ≠ n.value / blockSize p + 1)) ∧
    (∀ (n : Quad) (p : Fin 33),
      (∀ a : BitVec 32,
          cidrVerify a (n.range p) = some true ↔ FirstBitsAgree a.toNat n.value p) ↔
        blockSize p ∣ n.value) ∧
    (∀ (bigEndian : Bool) (a n : Quad) (p : Fin 33),
      cidrVerifyText a.text (n.range p) = Patterns.IPv4subnet bigEndian a.text (n.range p) ↔
        0 < (p : Nat) ∧ blockSize p ∣ n.value ∨
          ¬ (n.value ≤ a.value ∧ a.value < n.value + blockSize p)) ∧
    ∀ (s : Strategy Address Text) (items : List (Gap × ListItem fromString)),
      ((permanentWhiteList fromString s (listText items)).Records
          (s.setPermanentWhiteList (items.map (·.2.entry))) ↔ IsTight items) ∧
        ((permanentBlackList lib fromString s (listText items)).Records
          (s.setPermanentBlackList lib (items.map (·.2.entry))) ↔ IsTight items) :=
  ⟨cidrVerify_iff_agree_iff, forall_cidrVerify_iff, cidrVerifyText_eq_IPv4subnet_iff,
    fun s items => ⟨permanentWhiteList_records_iff hempty s items,
      permanentBlackList_records_iff hempty lib s items⟩⟩

end Lists

/-- Addresses of version 4, with `cidr_verify` as the class has it. -/
def quadLibrary : Library (BitVec 32) Text where
  cidrVerify a r := cidrVerify a r = some true
  forever := 32503680000000000
  specialMilliseconds := 9223372036854775

/-- A source is in the ranges of the white list if it is in the subnet of one of them. -/
theorem isWhiteListedAddressRange_iff {s : Strategy (BitVec 32) Text}
    {ranges : List (Quad × Fin 33)} (hranges : s.whiteListRange = ranges.map fun r => r.1.range r.2)
    (haligned : ∀ r ∈ ranges, blockSize r.2 ∣ r.1.value) (source : BitVec 32) :
    s.isWhiteListedAddressRange quadLibrary source = true ↔
      ∃ r ∈ ranges, FirstBitsAgree source.toNat r.1.value r.2 := by
  rw [Strategy.isWhiteListedAddressRange, hranges, any_map, any_eq_true]
  refine exists_congr fun r => and_congr_right fun hr => ?_
  have hrange := (forall_cidrVerify_iff r.1 r.2).mpr (haligned r hr) source
  exact decide_eq_true_iff.trans hrange

/-- An entry that is read as a plain address. -/
def quadItem (written : Text) (a : BitVec 32) (hread : readEntry (inetPton true) written =
    some (.address a)) (hplain : ∀ c ∈ written, isListSeparator c = false) :
    ListItem (inetPton true) :=
  ⟨written, .address a, hread, hplain⟩

def twoAddresses (gap : Gap) : List (Gap × ListItem (inetPton true)) :=
  [(⟨0, 0⟩, quadItem (text "10.0.0.1") 0x0A000001#32 (by decide) (by decide)),
    (gap, quadItem (text "10.0.0.2") 0x0A000002#32 (by decide) (by decide))]

theorem permanentWhiteList_records_twoAddresses :
    (permanentWhiteList (inetPton true) { lastTime := 0 } (text "10.0.0.1,10.0.0.2")).Records
      { lastTime := 0, whiteList := [0x0A000001#32, 0x0A000002#32] } :=
  (((cidrVerify_and_lists_iff quadLibrary (inetPton true) (by decide)).2.2.2 { lastTime := 0 }
    (twoAddresses ⟨0, 0⟩)).1).mpr ⟨by decide, by decide⟩

/-- An address of the subnet is not in the range, and a blank leaves the mutex locked. -/
theorem not_cidrVerify_and_not_records :
    ¬ (cidrVerify 0x0A000001#32 (text "10.0.0.5/8") = some true ↔
        FirstBitsAgree 0x0A000001 0x0A000005 8) ∧
      (permanentWhiteList (inetPton true) { lastTime := 0 }
        (text "10.0.0.1, 10.0.0.2")).mutexHeld = true := by
  refine ⟨fun h => absurd (h.mpr rfl) ?_, ?_⟩
  · decide
  · decide

end SipXRouter.RateLimit
