import Mathlib.Data.BitVec
import Mathlib.Tactic.IntervalCases
import SipXRouter.Net.XmlRpcBody

/-!
# Subnets

`IPv4subnet` compares an address with a subnet `x.y.z.q/size`.  Octets of the subnet may be
missing at its end.  Addresses and masks are compared as they stand in memory, with the first
octet first.

## Design notes

The order of the octets in a number is that of the host: `htonl` has it as a parameter.
-/

namespace SipXRouter

open List

variable {bigEndian : Bool} {octets : List Nat} {s : Text}

namespace Patterns

/-! ## Addresses -/

/-- The octets of a number the other way round. -/
def swapOctets (x : BitVec 32) : BitVec 32 :=
  x.extractLsb' 0 8 ++ x.extractLsb' 8 8 ++ x.extractLsb' 16 8 ++ x.extractLsb' 24 8

def htonl (bigEndian : Bool) (x : BitVec 32) : BitVec 32 := if bigEndian then x else swapOctets x

/-- A decimal number of up to 255, without leading zeros. -/
def octet (s : Text) : Option Nat :=
  let value := digitsValue 10 s
  if value < 256 ∧ natText value = s then some value else none

/-- The number that octets stand for, the first one first. -/
def addressValue (octets : List Nat) : Nat := octets.foldl (fun value o => value * 256 + o) 0

/-- `inet_pton` with `AF_INET`: `s_addr` of four octets with dots between them. -/
def inetPton (bigEndian : Bool) (s : Text) : Option (BitVec 32) :=
  (((cString s).splitOn (byte '.')).mapM octet).bind fun octets =>
    if octets.length = 4 then some (htonl bigEndian (.ofNat 32 (addressValue octets))) else none

/-! ## The comparison -/

/-- A shift to the left, by less than the number of bits. -/
def shiftLeft (x : BitVec 32) (n : Int) : Option (BitVec 32) :=
  if 0 ≤ n ∧ n < 32 then some (x <<< n.toNat) else none

/-- What is put in place of missing octets. -/
def missingOctets (dots : Nat) : Text :=
  if dots = 0 then text ".0.0.0"
  else if dots = 1 then text ".0.0"
  else if dots = 2 then text ".0"
  else []

/-- Whether an address is in a subnet; with a size outside 1 to 32 none is. -/
def IPv4subnet (bigEndian : Bool) (ipv4 cidr : Text) : Option Bool :=
  match inetPton bigEndian ipv4 with
  | none => some false
  | some inAddress =>
    if byte '/' ∉ cidr then some false
    else
      let xmlNet := cidr.takeWhile (· != byte '/')
      match inetPton bigEndian (xmlNet ++ missingOctets (xmlNet.count (byte '.'))) with
      | none => some false
      | some inNetwork =>
        let maskSize := (XmlRpc.atoi ((cidr.dropWhile (· != byte '/')).drop 1)).toInt
        if maskSize ≤ 0 ∨ 32 < maskSize then some false
        else
          (shiftLeft (BitVec.allOnes 32) (32 - maskSize)).map fun mask =>
            htonl bigEndian mask &&& inAddress == inNetwork

/-! ## The texts -/

/-- Octets with dots between them. -/
def dotted (octets : List Nat) : Text := [byte '.'].intercalate (octets.map natText)

/-- The missing octets of a subnet are zero. -/
def complete (octets : List Nat) : List Nat := octets ++ replicate (4 - octets.length) 0

/-- A text, up to its first NUL, of four octets. -/
def IsQuad (s : Text) : Prop :=
  ∃ octets : List Nat, octets.length = 4 ∧ (∀ o ∈ octets, o < 256) ∧ cString s = dotted octets

/-- One to four octets, a slash, and a text that starts with a number from 1 to 32. -/
def IsSubnet (s : Text) : Prop :=
  ∃ net size : Text, s = net ++ byte '/' :: size ∧ byte '/' ∉ net ∧
    (∃ octets : List Nat, 0 < octets.length ∧ octets.length ≤ 4 ∧ (∀ o ∈ octets, o < 256) ∧
      cString net = dotted octets) ∧
    0 < (XmlRpc.atoi size).toInt ∧ (XmlRpc.atoi size).toInt ≤ 32

/-! ## Octets -/

theorem octet_eq_some_iff {o : Nat} : octet s = some o ↔ o < 256 ∧ s = natText o := by
  rw [octet]
  constructor
  · intro h
    split at h
    · next hvalue =>
      obtain rfl := Option.some.inj h
      exact ⟨hvalue.1, hvalue.2.symm⟩
    · exact absurd h (by simp)
  · rintro ⟨hlt, rfl⟩
    rw [digitsValue_natText, if_pos ⟨hlt, rfl⟩]

theorem mapM_octet_eq_some_iff {pieces : List Text} :
    pieces.mapM octet = some octets ↔ (∀ o ∈ octets, o < 256) ∧ pieces = octets.map natText := by
  induction pieces generalizing octets with
  | nil => cases octets <;> simp
  | cons piece pieces ih =>
    rw [mapM_cons]
    constructor
    · intro h
      obtain ⟨o, ho, h⟩ := Option.bind_eq_some_iff.mp h
      obtain ⟨rest, hrest, h⟩ := Option.bind_eq_some_iff.mp h
      obtain rfl := Option.some.inj h
      obtain ⟨hlt, rfl⟩ := octet_eq_some_iff.mp ho
      obtain ⟨hall, rfl⟩ := ih.mp hrest
      exact ⟨forall_mem_cons.mpr ⟨hlt, hall⟩, rfl⟩
    · rintro ⟨hall, h⟩
      cases octets with
      | nil => simp at h
      | cons o octets =>
        obtain ⟨rfl, rfl⟩ := List.cons.inj h
        obtain ⟨hlt, hall⟩ := forall_mem_cons.mp hall
        rw [octet_eq_some_iff.mpr ⟨hlt, rfl⟩, ih.mpr ⟨hall, rfl⟩]
        rfl

theorem notMem_natText {c : Byte} (hc : isDigit c = false) (n : Nat) : c ∉ natText n := fun h =>
  absurd (isDigit_of_mem_natText c h) (by simp [hc])

theorem splitOn_dotted (h : octets ≠ []) :
    (dotted octets).splitOn (byte '.') = octets.map natText := by
  refine splitOn_intercalate _ ?_ (by simpa using h)
  intro l hl
  obtain ⟨o, -, rfl⟩ := mem_map.mp hl
  exact notMem_natText (by decide) o

theorem splitOn_eq_map_iff :
    s.splitOn (byte '.') = octets.map natText ↔ octets ≠ [] ∧ s = dotted octets := by
  constructor
  · intro h
    have hs : s = dotted octets := by
      rw [dotted, ← h, intercalate_splitOn]
    refine ⟨?_, hs⟩
    rintro rfl
    exact absurd h (by simp)
  · rintro ⟨hne, rfl⟩
    exact splitOn_dotted hne

/-- `inet_pton` takes the texts of four octets, and no other. -/
theorem inetPton_eq_some_iff {a : BitVec 32} :
    inetPton bigEndian s = some a ↔ ∃ octets : List Nat, octets.length = 4 ∧
      (∀ o ∈ octets, o < 256) ∧ cString s = dotted octets ∧
        a = htonl bigEndian (.ofNat 32 (addressValue octets)) := by
  rw [inetPton, Option.bind_eq_some_iff]
  constructor
  · rintro ⟨octets, hmap, h⟩
    obtain ⟨hall, hsplit⟩ := mapM_octet_eq_some_iff.mp hmap
    split at h
    · next hlength =>
      exact ⟨octets, hlength, hall, (splitOn_eq_map_iff.mp hsplit).2, (Option.some.inj h).symm⟩
    · exact absurd h (by simp)
  · rintro ⟨octets, hlength, hall, hs, rfl⟩
    have hne : octets ≠ [] := by
      rintro rfl
      exact absurd hlength (by decide)
    exact ⟨octets, mapM_octet_eq_some_iff.mpr ⟨hall, splitOn_eq_map_iff.mpr ⟨hne, hs⟩⟩,
      if_pos hlength⟩

/-! ## Missing octets -/

theorem length_splitOn (s : Text) : (s.splitOn (byte '.')).length = s.count (byte '.') + 1 := by
  induction s with
  | nil => rfl
  | cons c s ih =>
    rw [splitOn_cons_eq_if_modifyHead, count_cons]
    split
    · rw [length_cons, ih]
    · rw [length_modifyHead, ih, Nat.add_zero]

theorem splitOn_missingOctets (s : Text) :
    (s ++ missingOctets (s.count (byte '.'))).splitOn (byte '.') =
      s.splitOn (byte '.') ++ replicate (4 - (s.splitOn (byte '.')).length) (natText 0) := by
  have hsplit := splitOn_append_cons_self (a := byte '.') s
  rw [length_splitOn, missingOctets]
  split
  · next h =>
    rw [h]
    exact hsplit _
  · split
    · next h =>
      rw [h]
      exact hsplit _
    · split
      · next h =>
        rw [h]
        exact hsplit _
      · rw [show 4 - (s.count (byte '.') + 1) = 0 by omega, replicate_zero, append_nil,
          append_nil]

theorem notMem_missingOctets (dots : Nat) : (0 : Byte) ∉ missingOctets dots := by
  unfold missingOctets
  repeat' split
  all_goals decide

theorem notMem_dotted {c : Byte} (hc : isDigit c = false) (hdot : c ≠ byte '.')
    (octets : List Nat) : c ∉ dotted octets := by
  induction octets with
  | nil => exact not_mem_nil
  | cons o octets ih =>
    cases octets with
    | nil => simpa [dotted] using notMem_natText hc o
    | cons p octets =>
      have hcons : dotted (o :: p :: octets) = natText o ++ byte '.' :: dotted (p :: octets) := by
        simp [dotted, intercalate_cons_cons]
      rw [hcons]
      exact fun h => (mem_append.mp h).elim (notMem_natText hc o) fun h =>
        (mem_cons.mp h).elim hdot ih

/-- An address with its missing octets filled in is read exactly when it is dotted octets. -/
theorem inetPton_missingOctets {a : BitVec 32} (hs : (0 : Byte) ∉ s) :
    inetPton bigEndian (s ++ missingOctets (s.count (byte '.'))) = some a ↔
      ∃ octets : List Nat, 0 < octets.length ∧ octets.length ≤ 4 ∧ (∀ o ∈ octets, o < 256) ∧
        s = dotted octets ∧ a = htonl bigEndian (.ofNat 32 (addressValue (complete octets))) := by
  have hzero : (0 : Byte) ∉ s ++ missingOctets (s.count (byte '.')) := fun h =>
    (mem_append.mp h).elim hs (notMem_missingOctets _)
  rw [inetPton_eq_some_iff, cString_of_notMem hzero]
  constructor
  · rintro ⟨octets, hlength, hall, htext, rfl⟩
    have hne : octets ≠ [] := by
      rintro rfl
      exact absurd hlength (by decide)
    have hsplit := splitOn_missingOctets s
    rw [htext, splitOn_dotted hne] at hsplit
    obtain ⟨net, rest, rfl, hnet, hrest⟩ := map_eq_append_iff.mp hsplit
    have hpos : 0 < net.length := by
      rw [← length_map (f := natText), hnet]
      exact length_pos_iff.mpr (splitOn_ne_nil _ _)
    have hlength' : rest.length = 4 - net.length := by
      rw [← length_map (f := natText), hrest, length_replicate, ← hnet, length_map]
    have hzeros : rest = replicate (4 - net.length) 0 := by
      refine eq_replicate_iff.mpr ⟨hlength', fun o ho => ?_⟩
      have hmem : natText o ∈ rest.map natText := mem_map_of_mem ho
      rw [hrest] at hmem
      have htext : natText o = natText 0 := eq_of_mem_replicate hmem
      rw [← digitsValue_natText o, htext, digitsValue_natText]
    subst hzeros
    refine ⟨net, hpos, ?_, fun o ho => hall o (mem_append_left _ ho), ?_, rfl⟩
    · rw [length_append, length_replicate] at hlength
      omega
    · exact (splitOn_eq_map_iff.mp hnet.symm).2
  · rintro ⟨net, hpos, hle, hall, rfl, rfl⟩
    have hne : net ≠ [] := length_pos_iff.mp hpos
    refine ⟨complete net, ?_, ?_, ?_, rfl⟩
    · rw [complete, length_append, length_replicate]
      omega
    · intro o ho
      rcases mem_append.mp ho with ho | ho
      · exact hall o ho
      · rw [eq_of_mem_replicate ho]
        decide
    · refine (splitOn_eq_map_iff.mp ?_).2
      rw [splitOn_missingOctets, splitOn_dotted hne, complete, map_append, map_replicate,
        length_map]

/-! ## Masks -/

theorem getLsbD_swapOctets (x : BitVec 32) {i : Nat} (hi : i < 32) :
    (swapOctets x).getLsbD i = x.getLsbD (24 - i / 8 * 8 + i % 8) := by
  simp only [swapOctets, BitVec.getLsbD_append, BitVec.getLsbD_extractLsb']
  interval_cases i <;> rfl

theorem swapOctets_swapOctets (x : BitVec 32) : swapOctets (swapOctets x) = x := by
  refine BitVec.eq_of_getLsbD_eq fun i hi => ?_
  rw [getLsbD_swapOctets _ hi, getLsbD_swapOctets _ (by omega)]
  congr 1
  omega

theorem htonl_and (bigEndian : Bool) (x y : BitVec 32) :
    htonl bigEndian (x &&& y) = htonl bigEndian x &&& htonl bigEndian y := by
  cases bigEndian
  · refine BitVec.eq_of_getLsbD_eq fun i hi => ?_
    show (swapOctets (x &&& y)).getLsbD i = (swapOctets x &&& swapOctets y).getLsbD i
    rw [BitVec.getLsbD_and, getLsbD_swapOctets _ hi, getLsbD_swapOctets _ hi,
      getLsbD_swapOctets _ hi, BitVec.getLsbD_and]
  · rfl

theorem htonl_inj {x y : BitVec 32} : htonl bigEndian x = htonl bigEndian y ↔ x = y := by
  refine ⟨fun h => ?_, fun h => h ▸ rfl⟩
  cases bigEndian
  · have hswap : swapOctets x = swapOctets y := h
    rw [← swapOctets_swapOctets x, hswap, swapOctets_swapOctets]
  · exact h

theorem mask_and (k : Nat) (a : BitVec 32) : (BitVec.allOnes 32 <<< k) &&& a = (a >>> k) <<< k := by
  refine BitVec.eq_of_getLsbD_eq fun i hi => ?_
  rw [BitVec.getLsbD_and, BitVec.getLsbD_shiftLeft, BitVec.getLsbD_shiftLeft,
    BitVec.getLsbD_allOnes, BitVec.getLsbD_ushiftRight]
  by_cases h : i < k
  · simp [h]
  · have hsum : k + (i - k) = i := by omega
    have hlt : i - k < 32 := by omega
    simp [h, hi, hsum, hlt]

theorem mask_and_eq_iff {k : Nat} (a n : BitVec 32) : (BitVec.allOnes 32 <<< k) &&& a = n ↔
    a.toNat / 2 ^ k = n.toNat / 2 ^ k ∧ 2 ^ k ∣ n.toNat := by
  have hle : a.toNat / 2 ^ k * 2 ^ k ≤ a.toNat := Nat.div_mul_le_self _ _
  have hlt : a.toNat / 2 ^ k * 2 ^ k < 2 ^ 32 := hle.trans_lt a.isLt
  have hpos : 0 < 2 ^ k := Nat.two_pow_pos k
  rw [mask_and, ← BitVec.toNat_inj, BitVec.toNat_shiftLeft, BitVec.toNat_ushiftRight,
    Nat.shiftRight_eq_div_pow, Nat.shiftLeft_eq, Nat.mod_eq_of_lt hlt]
  constructor
  · intro h
    rw [← h, Nat.mul_div_cancel _ hpos]
    exact ⟨rfl, Nat.dvd_mul_left _ _⟩
  · rintro ⟨hfirst, hrest⟩
    rw [hfirst, Nat.div_mul_cancel hrest]

/-! ## Subnets -/

/-- The first `p` bits of two addresses are the same, and the other bits of the second are zero. -/
def IsWithin (address network p : Nat) : Prop :=
  address / 2 ^ (32 - p) = network / 2 ^ (32 - p) ∧ 2 ^ (32 - p) ∣ network

theorem addressValue_lt (hlength : octets.length = 4)
    (hall : ∀ o ∈ octets, o < 256) : addressValue octets < 2 ^ 32 := by
  obtain ⟨a, b, c, d, rfl⟩ := length_eq_four.mp hlength
  simp only [forall_mem_cons] at hall
  obtain ⟨ha, hb, hc, hd, -⟩ := hall
  simp only [addressValue, foldl_cons, foldl_nil]
  omega

theorem takeWhile_slash {net : Text} (h : byte '/' ∉ net) (size : Text) :
    (net ++ byte '/' :: size).takeWhile (· != byte '/') = net ∧
      (net ++ byte '/' :: size).dropWhile (· != byte '/') = byte '/' :: size := by
  have hall : ∀ c ∈ net, (c != byte '/') = true := fun c hc =>
    bne_iff_ne.mpr fun heq => h (heq ▸ hc)
  constructor
  · rw [takeWhile_append_of_pos hall, takeWhile_cons_of_neg (by decide), append_nil]
  · rw [dropWhile_append_of_pos hall, dropWhile_cons_of_neg (by decide)]

/-- What is computed behind the first slash. -/
theorem iPv4subnet_eq (bigEndian : Bool) (ipv4 size : Text) {net : Text} (h : byte '/' ∉ net) :
    ∃ b, IPv4subnet bigEndian ipv4 (net ++ byte '/' :: size) = some b ∧
      (b = true ↔ ∃ a n : BitVec 32, inetPton bigEndian ipv4 = some a ∧
        inetPton bigEndian (net ++ missingOctets (net.count (byte '.'))) = some n ∧
        0 < (XmlRpc.atoi size).toInt ∧ (XmlRpc.atoi size).toInt ≤ 32 ∧
        htonl bigEndian (BitVec.allOnes 32 <<< (32 - (XmlRpc.atoi size).toInt).toNat) &&& a =
          n) := by
  obtain ⟨htake, hdrop⟩ := takeWhile_slash h size
  have hmem : ¬ byte '/' ∉ net ++ byte '/' :: size := not_not_intro (by simp)
  rw [IPv4subnet]
  cases ha : inetPton bigEndian ipv4 with
  | none => exact ⟨false, rfl, by simp⟩
  | some a =>
    simp only [if_neg hmem, htake, hdrop, drop_one, tail_cons]
    cases hn : inetPton bigEndian (net ++ missingOctets (net.count (byte '.'))) with
    | none => exact ⟨false, rfl, by simp⟩
    | some n =>
      by_cases hsize : (XmlRpc.atoi size).toInt ≤ 0 ∨ 32 < (XmlRpc.atoi size).toInt
      · refine ⟨false, if_pos hsize, iff_of_false (by decide) ?_⟩
        rintro ⟨-, -, -, -, hpos, hle, -⟩
        omega
      · have hshift : 0 ≤ 32 - (XmlRpc.atoi size).toInt ∧ 32 - (XmlRpc.atoi size).toInt < 32 := by
          omega
        simp only [if_neg hsize, shiftLeft, if_pos hshift, Option.map_some]
        refine ⟨_, rfl, ?_⟩
        rw [beq_iff_eq]
        constructor
        · exact fun heq => ⟨a, n, rfl, rfl, by omega, by omega, heq⟩
        · rintro ⟨a', n', ha', hn', -, -, heq⟩
          rwa [Option.some.inj ha', Option.some.inj hn']

/-- Nothing shifts out of range. -/
theorem exists_iPv4subnet (bigEndian : Bool) (ipv4 cidr : Text) :
    ∃ b, IPv4subnet bigEndian ipv4 cidr = some b := by
  by_cases h : byte '/' ∈ cidr
  · obtain ⟨net, size, rfl, hnet⟩ := eq_append_cons_of_mem h
    obtain ⟨b, hb, -⟩ := iPv4subnet_eq bigEndian ipv4 size hnet
    exact ⟨b, hb⟩
  · refine ⟨false, ?_⟩
    rw [IPv4subnet]
    cases inetPton bigEndian ipv4 with
    | none => rfl
    | some a => exact if_pos h

theorem cString_append_of_mem {t : Text} (h : (0 : Byte) ∈ s) : cString (s ++ t) = cString s := by
  obtain ⟨a, b, rfl, ha⟩ := eq_append_cons_of_mem h
  have hall : ∀ c ∈ a, (c != 0) = true := fun c hc => bne_iff_ne.mpr fun heq => ha (heq ▸ hc)
  rw [cString, cString, append_assoc, takeWhile_append_of_pos hall,
    takeWhile_append_of_pos hall]
  rfl

theorem isQuad_and_isSubnet {ipv4 cidr : Text}
    (h : IPv4subnet bigEndian ipv4 cidr = some true) : IsQuad ipv4 ∧ IsSubnet cidr := by
  have hslash : byte '/' ∈ cidr := by
    by_contra hslash
    rw [IPv4subnet] at h
    cases ha : inetPton bigEndian ipv4 with
    | none => simp [ha] at h
    | some a => simp [ha, hslash] at h
  obtain ⟨net, size, rfl, hnet⟩ := eq_append_cons_of_mem hslash
  obtain ⟨b, hb, htrue⟩ := iPv4subnet_eq bigEndian ipv4 size hnet
  obtain ⟨a, n, ha, hn, hpos, hle, -⟩ := htrue.mp (Option.some.inj (hb.symm.trans h))
  obtain ⟨octets, hlength, hall, htext, -⟩ := inetPton_eq_some_iff.mp ha
  refine ⟨⟨octets, hlength, hall, htext⟩, net, size, rfl, hnet, ?_, hpos, hle⟩
  by_cases hzero : (0 : Byte) ∈ net
  · obtain ⟨octets, hlength, hall, htext, -⟩ := inetPton_eq_some_iff.mp hn
    rw [cString_append_of_mem hzero] at htext
    exact ⟨octets, by omega, by omega, hall, htext⟩
  · obtain ⟨octets, hpos, hle, hall, htext, -⟩ := (inetPton_missingOctets hzero).mp hn
    exact ⟨octets, hpos, hle, hall, (cString_of_notMem hzero).trans htext⟩

/-- A subnet as it is written. -/
def cidrText (net : List Nat) (size : Nat) : Text := dotted net ++ byte '/' :: natText size

/-- On written addresses the comparison of masked words is that of the first bits. -/
theorem iPv4subnet_eq_true_iff {addr net : List Nat} {p : Nat}
    (hquad : addr.length = 4) (hpos : 0 < net.length) (hle : net.length ≤ 4)
    (haddr : ∀ o ∈ addr, o < 256) (hnet : ∀ o ∈ net, o < 256) (hp : p ≤ 32) :
    IPv4subnet bigEndian (dotted addr) (cidrText net p) = some true ↔
      0 < p ∧ IsWithin (addressValue addr) (addressValue (complete net)) p := by
  have hsize : (XmlRpc.atoi (natText p)).toInt = p := by
    have hall : ∀ p : Fin 33, (XmlRpc.atoi (natText p)).toInt = (p : Nat) := by decide
    exact hall ⟨p, by omega⟩
  have hslash : byte '/' ∉ dotted net := notMem_dotted (by decide) (by decide) net
  have hzero : ∀ octets, (0 : Byte) ∉ dotted octets := notMem_dotted (by decide) (by decide)
  have ha : inetPton bigEndian (dotted addr) =
      some (htonl bigEndian (.ofNat 32 (addressValue addr))) :=
    inetPton_eq_some_iff.mpr ⟨addr, hquad, haddr, cString_of_notMem (hzero addr), rfl⟩
  have hn : inetPton bigEndian (dotted net ++ missingOctets ((dotted net).count (byte '.'))) =
      some (htonl bigEndian (.ofNat 32 (addressValue (complete net)))) :=
    (inetPton_missingOctets (hzero net)).mpr ⟨net, hpos, hle, hnet, rfl, rfl⟩
  have hlength : (complete net).length = 4 := by
    rw [complete, length_append, length_replicate]
    omega
  have hcomplete : ∀ o ∈ complete net, o < 256 := by
    intro o ho
    rcases mem_append.mp ho with ho | ho
    · exact hnet o ho
    · rw [eq_of_mem_replicate ho]
      decide
  -- in the order of the host or of the network, the same bits are compared
  have hbits : htonl bigEndian (BitVec.allOnes 32 <<< (32 - (p : Int)).toNat) &&&
      htonl bigEndian (.ofNat 32 (addressValue addr)) =
        htonl bigEndian (.ofNat 32 (addressValue (complete net))) ↔
      IsWithin (addressValue addr) (addressValue (complete net)) p := by
    rw [← htonl_and, htonl_inj, mask_and_eq_iff, BitVec.toNat_ofNat, BitVec.toNat_ofNat,
      Nat.mod_eq_of_lt (addressValue_lt hquad haddr),
      Nat.mod_eq_of_lt (addressValue_lt hlength hcomplete),
      show (32 - (p : Int)).toNat = 32 - p by omega]
    rfl
  obtain ⟨b, hb, htrue⟩ := iPv4subnet_eq bigEndian (dotted addr) (natText p) hslash
  rw [cidrText, hb, Option.some_inj, htrue, hsize]
  constructor
  · rintro ⟨a, n, ha', hn', hpos', -, heq⟩
    rw [ha, Option.some_inj] at ha'
    rw [hn, Option.some_inj] at hn'
    subst ha' hn'
    exact ⟨by omega, hbits.mp heq⟩
  · rintro ⟨hpos', hwithin⟩
    exact ⟨_, _, ha, hn, by omega, by omega, hbits.mpr hwithin⟩

/-- **A quad matches a subnet** exactly if the first bits are the same and the other bits of the
subnet are zero, with at least one first bit; other texts match nothing, and no shift is out of
range. -/
theorem iPv4subnet_spec (bigEndian : Bool) :
    (∀ (addr net : List Nat) (p : Nat), addr.length = 4 → 0 < net.length → net.length ≤ 4 →
      (∀ o ∈ addr, o < 256) → (∀ o ∈ net, o < 256) → p ≤ 32 →
        (IPv4subnet bigEndian (dotted addr) (cidrText net p) = some true ↔
          0 < p ∧ IsWithin (addressValue addr) (addressValue (complete net)) p)) ∧
      (∀ ipv4 cidr : Text, ¬ (IsQuad ipv4 ∧ IsSubnet cidr) →
        IPv4subnet bigEndian ipv4 cidr = some false) ∧
      ∀ ipv4 cidr : Text, IPv4subnet bigEndian ipv4 cidr ≠ none := by
  refine ⟨fun addr net p hquad hpos hle haddr hnet hp =>
    iPv4subnet_eq_true_iff hquad hpos hle haddr hnet hp, fun ipv4 cidr h => ?_,
    fun ipv4 cidr h => ?_⟩
  · obtain ⟨b, hb⟩ := exists_iPv4subnet bigEndian ipv4 cidr
    cases b with
    | false => exact hb
    | true => exact absurd (isQuad_and_isSubnet hb) h
  · obtain ⟨b, hb⟩ := exists_iPv4subnet bigEndian ipv4 cidr
    exact absurd (h.symm.trans hb) (by simp)

theorem iPv4subnet_spec_privateNetwork :
    IPv4subnet false (text "192.168.1.5") (text "192.168/16") = some true := by
  have hlt : ∀ o ∈ [192, 168, 1, 5], o < 256 := by decide
  have hnet : ∀ o ∈ [192, 168], o < 256 := by decide
  exact ((iPv4subnet_spec false).1 [192, 168, 1, 5] [192, 168] 16 rfl (by decide) (by decide) hlt
    hnet (by decide)).mpr ⟨by decide, by unfold IsWithin; decide⟩

/-- No first bit matches nothing, and neither does a subnet with other bits. -/
theorem not_iPv4subnet_firstBits :
    IPv4subnet false (text "10.0.0.1") (text "0.0.0.0/0") = some false ∧
      addressValue [10, 0, 0, 1] / 2 ^ (32 - 0) = addressValue [0, 0, 0, 0] / 2 ^ (32 - 0) ∧
    IPv4subnet false (text "10.0.0.1") (text "10.0.0.5/8") = some false ∧
      addressValue [10, 0, 0, 1] / 2 ^ (32 - 8) = addressValue [10, 0, 0, 5] / 2 ^ (32 - 8) := by
  decide

end Patterns

end SipXRouter
