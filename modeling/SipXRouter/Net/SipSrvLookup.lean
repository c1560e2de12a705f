import SipXRouter.Bytes
import SipXRouter.Comparison
import Mathlib.Data.Prod.Lex
import Mathlib.Order.WithBot

/-!
# The order of servers

`SipSrvLookup::servers` collects the addresses that a domain name leads to, gives each
one a score, and sorts them with `server_compare`: by priority, then the own host before
all others, then by score, then by transport.

The test for the own host looks at the first entry before the second one.  Two entries of
the own host are therefore each put before the other, which `server_insert_addr` makes of
every address whose transport is not given, one for UDP and one for TCP.

## Design notes

`servers` computes finite scores only: the argument of its logarithm lies above zero and
is at most one.  They are rational numbers here.
-/

namespace SipXRouter

/-- `OsSocket::IpProtocolSocketType`. -/
inductive IpProtocolSocketType where
  | unknown | tcp | udp | multicast | sslSocket
deriving DecidableEq

/-- `sockaddr_in`. -/
structure SockAddr where
  address : UInt32
  port : UInt16
deriving DecidableEq

/-- `server_t`. -/
structure Server where
  host : Text
  type : IpProtocolSocketType
  sin : SockAddr
  priority : UInt32
  weight : UInt32
  score : ℚ := 0
deriving DecidableEq

namespace SipSrvLookup

open Comparison

/-! ## The comparison -/

/-- `SipSrvLookup::isOwnHostname`. -/
def isOwnHostname (mOwnHostname host : Text) : Bool := caseEq mOwnHostname host

/-- `server_compare`. -/
def serverCompare (mOwnHostname : Text)
    (leastPreferredProto1 leastPreferredProto2 : IpProtocolSocketType) (s1 s2 : Server) : Int :=
  if s2.priority < s1.priority then 1
  else if s1.priority < s2.priority then -1
  else if isOwnHostname mOwnHostname s1.host then -1
  else if isOwnHostname mOwnHostname s2.host then 1
  else if s1.score < s2.score then -1
  else if s2.score < s1.score then 1
  else if s1.type = leastPreferredProto1 ∧ s2.type ≠ leastPreferredProto1 then 1
  else if s1.type ≠ leastPreferredProto1 ∧ s2.type = leastPreferredProto1 then -1
  else if s1.type = leastPreferredProto2 ∧ s2.type ≠ leastPreferredProto2 then 1
  else if s1.type ≠ leastPreferredProto2 ∧ s2.type = leastPreferredProto2 then -1
  else 0

/-- `server_compare_prefer_udp`. -/
def serverComparePreferUdp (mOwnHostname : Text) : Server → Server → Int :=
  serverCompare mOwnHostname .tcp .sslSocket

/-- `server_compare_prefer_tcp`. -/
def serverComparePreferTcp (mOwnHostname : Text) : Server → Server → Int :=
  serverCompare mOwnHostname .udp .sslSocket

/-- `server_compare_prefer_tls`. -/
def serverComparePreferTls (mOwnHostname : Text) : Server → Server → Int :=
  serverCompare mOwnHostname .udp .tcp

/-- The comparison that `servers` sorts with. -/
def serversCompare (mOwnHostname : Text) (preferredTransport : IpProtocolSocketType) :
    Server → Server → Int :=
  match preferredTransport with
  | .udp => serverComparePreferUdp mOwnHostname
  | .tcp => serverComparePreferTcp mOwnHostname
  | _ => serverComparePreferTls mOwnHostname

/-- `server_insert`. -/
def serverInsert (list : List Server) (host : Text) (type : IpProtocolSocketType) (sin : SockAddr)
    (priority weight : UInt32) : List Server :=
  list ++ [{ host := host, type := type, sin := sin, priority := priority, weight := weight }]

/-- `server_insert_addr`. -/
def serverInsertAddr (noDefaultTCP : Bool) (list : List Server) (host : Text)
    (type : IpProtocolSocketType) (sin : SockAddr) (priority weight : UInt32) : List Server :=
  if type ≠ .unknown then serverInsert list host type sin priority weight
  else
    let list := serverInsert list host .udp sin priority weight
    if noDefaultTCP then list else serverInsert list host .tcp sin priority weight

/-! ## The rank of a server -/

/-- What a server is sorted by: its priority, and unless it is the own host its score and
whether its transport is one of the two least preferred ones. -/
def rank (mOwnHostname : Text) (leastPreferredProto1 leastPreferredProto2 : IpProtocolSocketType)
    (s : Server) : ℕ ×ₗ WithBot (ℚ ×ₗ Bool ×ₗ Bool) :=
  toLex (s.priority.toNat,
    if isOwnHostname mOwnHostname s.host then ⊥
    else ↑(toLex (s.score,
      toLex (decide (s.type = leastPreferredProto1), decide (s.type = leastPreferredProto2)))))

/-- Two entries of the own host with the same priority. -/
def OwnTie (mOwnHostname : Text) (s1 s2 : Server) : Prop :=
  s1.priority = s2.priority ∧ isOwnHostname mOwnHostname s1.host = true ∧
    isOwnHostname mOwnHostname s2.host = true

instance (mOwnHostname : Text) (s1 s2 : Server) : Decidable (OwnTie mOwnHostname s1 s2) :=
  inferInstanceAs (Decidable (_ ∧ _ ∧ _))

theorem tests_le_zero (p1 p2 q1 q2 : Prop) [Decidable p1] [Decidable p2] [Decidable q1]
    [Decidable q2] : (if p1 ∧ ¬ q1 then 1 else if ¬ p1 ∧ q1 then -1
      else if p2 ∧ ¬ q2 then 1 else if ¬ p2 ∧ q2 then -1 else (0 : Int)) ≤ 0 ↔
      toLex (decide p1, decide p2) ≤ toLex (decide q1, decide q2) := by
  by_cases hp1 : p1 <;> by_cases hq1 : q1 <;> by_cases hp2 : p2 <;> by_cases hq2 : q2 <;>
    simp [hp1, hq1, hp2, hq2, Prod.Lex.toLex_le_toLex]

section Compare

variable (mOwnHostname : Text) (leastPreferredProto1 leastPreferredProto2 : IpProtocolSocketType)

/-- **Not after** is the order of the ranks. -/
theorem serverCompare_ranked :
    Ranked (serverCompare mOwnHostname leastPreferredProto1 leastPreferredProto2)
      (rank mOwnHostname leastPreferredProto1 leastPreferredProto2) := by
  intro s1 s2
  simp only [rank, Prod.Lex.toLex_le_toLex]
  rcases lt_trichotomy s1.priority.toNat s2.priority.toNat with hlt | heq | hgt
  · simp [serverCompare, UInt32.lt_iff_toNat_lt, hlt, hlt.not_gt]
  · cases hown1 : isOwnHostname mOwnHostname s1.host <;>
      cases hown2 : isOwnHostname mOwnHostname s2.host
    · -- neither is the own host
      rcases lt_trichotomy s1.score s2.score with hs | hs | hs
      · simp [serverCompare, UInt32.lt_iff_toNat_lt, heq, hown1, hown2, hs, Prod.Lex.toLex_le_toLex]
      · have htypes := tests_le_zero (s1.type = leastPreferredProto1)
          (s1.type = leastPreferredProto2) (s2.type = leastPreferredProto1)
          (s2.type = leastPreferredProto2)
        simpa [serverCompare, UInt32.lt_iff_toNat_lt, heq, hown1, hown2, hs,
          Prod.Lex.toLex_le_toLex] using htypes
      · simp [serverCompare, UInt32.lt_iff_toNat_lt, heq, hown1, hown2, hs, hs.not_gt, hs.ne',
          Prod.Lex.toLex_le_toLex]
    · simp [serverCompare, UInt32.lt_iff_toNat_lt, heq, hown1, hown2]
    · simp [serverCompare, UInt32.lt_iff_toNat_lt, heq, hown1]
    · simp [serverCompare, UInt32.lt_iff_toNat_lt, heq, hown1]
  · simp [serverCompare, UInt32.lt_iff_toNat_lt, hgt, hgt.not_gt, hgt.ne']

/-- Swapping two servers swaps the sign but for ties of the own host. -/
theorem opposite_iff (s1 s2 : Server) :
    OppositeSigns (serverCompare mOwnHostname leastPreferredProto1 leastPreferredProto2) s1 s2 ↔
      ¬ OwnTie mOwnHostname s1 s2 := by
  rw [OppositeSigns, OwnTie, ← UInt32.toNat_inj]
  rcases lt_trichotomy s1.priority.toNat s2.priority.toNat with hlt | heq | hgt
  · simp [serverCompare, UInt32.lt_iff_toNat_lt, hlt, hlt.not_gt, hlt.ne]
  · cases hown1 : isOwnHostname mOwnHostname s1.host <;>
      cases hown2 : isOwnHostname mOwnHostname s2.host
    · rcases lt_trichotomy s1.score s2.score with hs | hs | hs
      · simp [serverCompare, UInt32.lt_iff_toNat_lt, heq, hown1, hown2, hs, hs.not_gt]
      · by_cases h11 : s1.type = leastPreferredProto1 <;>
          by_cases h21 : s2.type = leastPreferredProto1 <;>
          by_cases h12 : s1.type = leastPreferredProto2 <;>
          by_cases h22 : s2.type = leastPreferredProto2 <;>
          simp_all [serverCompare, UInt32.lt_iff_toNat_lt]
      · simp [serverCompare, UInt32.lt_iff_toNat_lt, heq, hown1, hown2, hs, hs.not_gt]
    · simp [serverCompare, UInt32.lt_iff_toNat_lt, heq, hown1, hown2]
    · simp [serverCompare, UInt32.lt_iff_toNat_lt, heq, hown1, hown2]
    · simp [serverCompare, UInt32.lt_iff_toNat_lt, heq, hown1, hown2]
  · simp [serverCompare, UInt32.lt_iff_toNat_lt, hgt, hgt.not_gt, hgt.ne']

/-- An arrangement starts with the lowest priorities. -/
theorem pairwise_priority {servers out : List Server}
    (h : Arranged (serverCompare mOwnHostname leastPreferredProto1 leastPreferredProto2)
      servers out) : out.Pairwise fun s1 s2 => s1.priority ≤ s2.priority := by
  refine (h.pairwise_rank (serverCompare_ranked mOwnHostname leastPreferredProto1
    leastPreferredProto2)).imp fun {s1 s2} hle => ?_
  rw [rank, rank, Prod.Lex.toLex_le_toLex] at hle
  rw [UInt32.le_iff_toNat_le]
  rcases hle with hlt | ⟨heq, -⟩
  · exact hlt.le
  · exact heq.le

end Compare

/-! ## Where the comparison is consistent -/

/-- What a sorting routine asks of three entries: opposite signs for the first two and
transitivity. -/
structure WellOrdered (cmp : Server → Server → Int) (a b c : Server) : Prop where
  opposite : OppositeSigns cmp a b
  trans : cmp a b ≤ 0 → cmp b c ≤ 0 → cmp a c ≤ 0

/-- Sorting a list is well defined, and orders it by priority first. -/
structure SortsByPriority (cmp : Server → Server → Int) (servers : List Server) : Prop where
  opposite : servers.Pairwise (OppositeSigns cmp)
  trans : ∀ a ∈ servers, ∀ b ∈ servers, ∀ c ∈ servers, cmp a b ≤ 0 → cmp b c ≤ 0 → cmp a c ≤ 0
  arranged : ∃ out, Arranged cmp servers out
  priority : ∀ out, Arranged cmp servers out →
    out.Pairwise fun s1 s2 => s1.priority ≤ s2.priority

/-- **The order of servers.**  Three entries are compared consistently exactly if the first
two are not both the own host with one priority, and a list is sorted in a well-defined way
exactly if it has no two such entries. -/
theorem wellOrdered_iff (mOwnHostname : Text)
    (leastPreferredProto1 leastPreferredProto2 : IpProtocolSocketType) :
    (∀ a b c,
      WellOrdered (serverCompare mOwnHostname leastPreferredProto1 leastPreferredProto2) a b c ↔
      ¬ OwnTie mOwnHostname a b) ∧
    ∀ servers, SortsByPriority
        (serverCompare mOwnHostname leastPreferredProto1 leastPreferredProto2) servers ↔
      servers.Pairwise fun a b => ¬ OwnTie mOwnHostname a b := by
  have hranked := serverCompare_ranked mOwnHostname leastPreferredProto1 leastPreferredProto2
  have hopposite := opposite_iff mOwnHostname leastPreferredProto1 leastPreferredProto2
  constructor
  · intro a b c
    exact ⟨fun h => (hopposite a b).mp h.opposite,
      fun h => ⟨(hopposite a b).mpr h, fun hab hbc => hranked.trans hab hbc⟩⟩
  · intro servers
    constructor
    · intro h
      exact h.opposite.imp fun {a b} hab => (hopposite a b).mp hab
    · intro h
      exact
        { opposite := h.imp fun {a b} hab => (hopposite a b).mpr hab
          trans := fun a _ b _ c _ hab hbc => hranked.trans hab hbc
          arranged := hranked.exists_arranged servers
          priority := fun out hout => pairwise_priority _ _ _ hout }

/-- The own host, found without a transport. -/
def ownEntries : List Server :=
  serverInsertAddr false [] (text "proxy.example.com") .unknown ⟨0x0a000001, 5060⟩ 0 0

/-- Each of the two entries is put before the other one. -/
theorem ownEntries_not_opposite :
    ∃ udp tcp, ownEntries = [udp, tcp] ∧
      serversCompare (text "proxy.example.com") .udp udp tcp = -1 ∧
      serversCompare (text "proxy.example.com") .udp tcp udp = -1 ∧
      ¬ WellOrdered (serversCompare (text "proxy.example.com") .udp) udp tcp udp ∧
      ¬ SortsByPriority (serversCompare (text "proxy.example.com") .udp) ownEntries := by
  refine ⟨_, _, rfl, by decide, by decide, ?_, ?_⟩
  · intro h
    exact absurd h.opposite (by decide)
  · intro h
    exact absurd (List.pairwise_cons.mp h.opposite).1 (by decide)

end SipSrvLookup

end SipXRouter
