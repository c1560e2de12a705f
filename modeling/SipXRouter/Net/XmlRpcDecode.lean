import SipXRouter.Net.XmlRpcDocument
import Mathlib.Data.List.Nodup
import Mathlib.Tactic.Set

/-!
# Decoding an XML-RPC value

What `parseValue` makes of the element of a value.
-/

namespace SipXRouter.XmlRpc

open List
open Xml (Node)

/-! ## Numbers that come back -/

theorem strtoll_of_head {c : Byte} (hc : isDigit c = true) (s : Text) :
    strtoll (c :: s) = saturate (anyBase (c :: s)) := by
  obtain ⟨hspace, hminus, hplus⟩ := isDigit_marks c hc
  rw [strtoll, dropWhile_cons_of_neg (Bool.eq_false_iff.mp hspace)]
  split
  · next heq => exact absurd (List.cons.inj heq).1 hminus
  · next heq => exact absurd (List.cons.inj heq).1 hplus
  · rfl

theorem atol_intText {i : Int} (hmin : -2 ^ 63 ≤ i) (hmax : i < 2 ^ 63) : atol (intText i) = i := by
  cases i with
  | ofNat n =>
    have hread := @strtol_digits _ [] (natText_ne_nil n) (isDigit_of_mem_natText (n := n))
      (by simp)
    rw [append_nil, digitsValue_natText] at hread
    rw [intText, atol, hread]
    exact saturate_eq_self hmin hmax
  | negSucc n =>
    have hdigits : (natText (n + 1)).takeWhile isDigit = natText (n + 1) :=
      takeWhile_eq_self_iff.mpr isDigit_of_mem_natText
    have hread : atol (intText (.negSucc n)) =
        (if (natText (n + 1)).takeWhile isDigit = [] then ((0 : Int), intText (.negSucc n))
        else (saturate (-(digitsValue 10 ((natText (n + 1)).takeWhile isDigit) : Nat)),
          (natText (n + 1)).dropWhile isDigit)).1 := rfl
    rw [hread, hdigits, if_neg (natText_ne_nil _), digitsValue_natText]
    exact saturate_eq_self hmin hmax

/-- A number of 64 bits comes back if it is no more than the greatest `long long`. -/
theorem strtoll_hex16 (n : Nat) : strtoll (hex16 n) = saturate n := by
  rw [hex16]
  split
  · next h => subst h; decide
  · set digits := (Nat.toDigits 16 n).map byte with hdigits
    have hhex : ∀ c ∈ replicate (14 - digits.length) (byte '0') ++ digits, isHex c = true :=
      forall_mem_padded (by decide) (by decide) _ _
    have hvalue : digitsAt 16 isHex (replicate (14 - digits.length) (byte '0') ++ digits) = n := by
      rw [digitsAt, takeWhile_eq_self_iff.mpr hhex, digitsValue_zeros, hdigits,
        digitsValue_toDigits (by decide) (by decide)]
    have hne : replicate (14 - digits.length) (byte '0') ++ digits ≠ [] := by
      have hpos : 0 < digits.length := by rw [hdigits, length_map]; exact Nat.length_toDigits_pos
      intro h
      rw [(append_eq_nil_iff.mp h).2] at hpos
      exact absurd hpos (by simp)
    rw [append_assoc]
    obtain ⟨c, s, hs⟩ := exists_cons_of_ne_nil hne
    rw [hs] at hhex hvalue ⊢
    show strtoll (48 :: 120 :: c :: s) = _
    rw [strtoll_of_head (by decide), anyBase, if_pos (hhex c mem_cons_self), hvalue]

/-! ## Values that come back -/

mutual

/-- The levels that the decoder needs for a value. -/
def depth : Value → Nat
  | .struct members => membersDepth members + 2
  | .array elements => elementsDepth elements + 2
  | .int _ | .longLong _ | .bool _ | .string _ | .dateTime _ => 1

/-- The levels of members. -/
def membersDepth : List (Text × Value) → Nat
  | [] => 0
  | (_, v) :: members => max (depth v) (membersDepth members)

/-- The levels of elements. -/
def elementsDepth : List Value → Nat
  | [] => 0
  | v :: elements => max (depth v) (elementsDepth elements)

end

theorem depth_le_of_mem_members {members : List (Text × Value)} {m : Text × Value}
    (hm : m ∈ members) : depth m.2 ≤ membersDepth members := by
  induction members with
  | nil => exact absurd hm not_mem_nil
  | cons m' members ih =>
    obtain ⟨name, v⟩ := m'
    rw [membersDepth]
    rcases mem_cons.mp hm with rfl | hm
    · exact le_max_left _ _
    · exact (ih hm).trans (le_max_right _ _)

theorem depth_le_of_mem_elements {elements : List Value} {v : Value} (hv : v ∈ elements) :
    depth v ≤ elementsDepth elements := by
  induction elements with
  | nil => exact absurd hv not_mem_nil
  | cons v' elements ih =>
    rw [elementsDepth]
    rcases mem_cons.mp hv with rfl | hv
    · exact le_max_left _ _
    · exact (ih hv).trans (le_max_right _ _)

/-- What a value needs in order to be decoded: it is not a negative number of 64 bits. -/
def Decodable : Value → Prop
  | .longLong n => 0 ≤ n.toInt
  | _ => True

/-- No two members of a structure have one name. -/
def NamesDiffer : Value → Prop
  | .struct members => (members.map Prod.fst).Nodup
  | _ => True

theorem firstValue_textNodes (name t : Text) :
    firstValue (.element name (textNodes t)) = if t = [] then none else some t := by
  rw [textNodes]
  split <;> rfl

theorem typeValue_textNodes {t : Text} (ht : t ≠ []) (name : String) (make : Text → Value) (type : Text) :
    typeValue name make (.element type (textNodes t)) = .ok (make t) := by
  rw [typeValue, firstValue_textNodes, if_neg ht]

/-- The element of a member. -/
def memberNode (m : Text × Value) : Node :=
  .element (text "member") [newline, .element (text "name") (textNodes m.1), node m.2, newline]

theorem childrenNamed_memberNodes (members : List (Text × Value)) :
    childrenNamed "member" (.element (text "struct") (newline :: memberNodes members)) =
      members.map memberNode := by
  have hmembers : (memberNodes members).filter (nodeValue · == text "member") =
      members.map memberNode := by
    induction members with
    | nil => rfl
    | cons m members ih =>
      rw [map_cons, ← ih]
      rfl
  exact hmembers

theorem childrenNamed_elementNodes (elements : List Value) :
    childrenNamed "value" (.element (text "data") (newline :: elementNodes elements)) =
      elements.map node := by
  have helements : (elementNodes elements).filter (nodeValue · == text "value") =
      elements.map node := by
    induction elements with
    | nil => rfl
    | cons v elements ih =>
      obtain ⟨content, hnode⟩ := isElement_node v
      rw [map_cons, ← ih, elementNodes, hnode]
      rfl
  exact helements

theorem parseMember_memberNode (parse : Node → Except Text Value) (m : Text × Value) :
    parseMember parse (memberNode m) =
      if m.1 = [] then .error (text "'name' element is empty")
      else
        match parse (node m.2) with
        | .ok value => .ok (m.1, value)
        | .error e => .error (e ++ text " in member '" ++ m.1 ++ text "'") := by
  have hname : firstChild "name" (memberNode m) =
      some (.element (text "name") (textNodes m.1)) := rfl
  have hvalue : firstChild "value" (memberNode m) = some (node m.2) := by
    obtain ⟨content, hnode⟩ := isElement_node m.2
    rw [memberNode, hnode]
    rfl
  rw [parseMember, hname]
  simp only [firstValue_textNodes, hvalue]
  by_cases hm : m.1 = []
  · simp [hm]
  · cases parse (node m.2) <;> simp [hm]

/-- The loop only appends. -/
theorem parseMembers_isPrefix {parse : Node → Except Text Value} {returned r : List (Text × Value)}
    {nodes : List Node} (h : parseMembers parse returned nodes = .ok r) : returned <+: r := by
  induction nodes generalizing returned with
  | nil =>
    obtain rfl := Except.ok.inj h
    exact prefix_rfl
  | cons n nodes ih =>
    rw [parseMembers] at h
    split at h
    · exact absurd h (by simp)
    · split at h
      · exact ih h
      · exact (prefix_append _ _).trans (ih h)

theorem parseElements_isPrefix {parse : Node → Except Text Value} {list r : List Value}
    {nodes : List Node} (h : parseElements parse list nodes = .ok r) : list <+: r := by
  induction nodes generalizing list with
  | nil =>
    obtain rfl := Except.ok.inj h
    exact prefix_rfl
  | cons n nodes ih =>
    rw [parseElements] at h
    split at h
    · exact absurd h (by simp)
    · exact (prefix_append _ _).trans (ih h)

theorem eq_of_isPrefix_append {α : Type} {a : List α} {x y : α} {b : List α}
    (h : a ++ [x] <+: a ++ y :: b) : x = y := by
  have h' := (prefix_append_right_inj a).mp h
  exact (cons_prefix_cons.mp h').1

/-- The members of a structure are read back exactly when each is, and has a name. -/
theorem parseMembers_iff (parse : Node → Except Text Value) (returned members : List (Text × Value))
    (hnodup : ((returned ++ members).map Prod.fst).Nodup) :
    parseMembers parse returned (members.map memberNode) = .ok (returned ++ members) ↔
      ∀ m ∈ members, m.1 ≠ [] ∧ parse (node m.2) = .ok m.2 := by
  induction members generalizing returned with
  | nil => simp [parseMembers]
  | cons m members ih =>
    have hfresh : m.1 ∉ returned.map Prod.fst := by
      rw [map_append, map_cons] at hnodup
      exact fun hmem => disjoint_of_nodup_append hnodup hmem mem_cons_self
    have happend : returned ++ m :: members = returned ++ [m] ++ members := by simp
    rw [happend] at hnodup
    rw [map_cons, parseMembers, parseMember_memberNode, forall_mem_cons]
    by_cases hm : m.1 = []
    · simp [hm]
    · rw [if_neg hm]
      rcases hparse : parse (node m.2) with e | w
      · simp
      · simp only [if_neg hfresh]
        constructor
        · intro h
          obtain rfl : w = m.2 := congrArg Prod.snd
            (eq_of_isPrefix_append (parseMembers_isPrefix h))
          rw [happend] at h
          exact ⟨⟨hm, rfl⟩, (ih _ hnodup).mp h⟩
        · rintro ⟨⟨-, hw⟩, hms⟩
          obtain rfl := Except.ok.inj hw
          rw [happend]
          exact (ih _ hnodup).mpr hms

theorem parseElements_iff (parse : Node → Except Text Value) (list elements : List Value) :
    parseElements parse list (elements.map node) = .ok (list ++ elements) ↔
      ∀ v ∈ elements, parse (node v) = .ok v := by
  induction elements generalizing list with
  | nil => simp [parseElements]
  | cons v elements ih =>
    have happend : list ++ v :: elements = list ++ [v] ++ elements := by simp
    rw [map_cons, parseElements, forall_mem_cons]
    rcases hparse : parse (node v) with e | w
    · simp
    · constructor
      · intro h
        obtain rfl := eq_of_isPrefix_append (parseElements_isPrefix h)
        rw [happend] at h
        exact ⟨rfl, (ih _).mp h⟩
      · rintro ⟨hw, hvs⟩
        obtain rfl := Except.ok.inj hw
        rw [happend]
        exact (ih _).mpr hvs

theorem intText_ne_nil (i : Int) : intText i ≠ [] := by
  cases i with
  | ofNat n => exact natText_ne_nil n
  | negSucc n => exact cons_ne_nil _ _

theorem ofInt_strtoll_hex16_iff (n : Int64) :
    Int64.ofInt (strtoll (hex16 n.toUInt64.toNat)) = n ↔ 0 ≤ n.toInt := by
  have hbits : n.toInt = if 2 * n.toUInt64.toNat < 2 ^ 64 then (n.toUInt64.toNat : Int)
      else n.toUInt64.toNat - 2 ^ 64 := by
    rw [← Int64.toInt_toBitVec, BitVec.toInt_eq_toNat_cond]
    rfl
  have hlt : n.toUInt64.toNat < 2 ^ 64 := n.toUInt64.toNat_lt
  rw [strtoll_hex16, ← Int64.toInt_inj]
  constructor
  · intro h
    by_contra hneg
    have hsat : saturate n.toUInt64.toNat = 2 ^ 63 - 1 := by
      rw [saturate]
      split at hbits <;> omega
    rw [hsat] at h
    have hmax : (Int64.ofInt (2 ^ 63 - 1)).toInt = 2 ^ 63 - 1 := by decide
    omega
  · intro hnonneg
    have hsat : saturate n.toUInt64.toNat = n.toInt := by
      rw [saturate]
      split at hbits <;> omega
    rw [hsat, Int64.ofInt_toInt]

/-- What `parseValue` makes of the members of a structure. -/
def structOf : Except Text (List (Text × Value)) → Except Text Value
  | .ok members => .ok (.struct members)
  | .error e => .error (e ++ text " in 'struct' element")

/-- **What the decoder gives back**: the values whose names are not empty and that have no
negative number of 64 bits. -/
theorem parseValue_node_iff {v : Value} (hparsable : v.All Parsable fun _ => True)
    (hnames : v.All NamesDiffer fun _ => True) {left : Nat} (hdepth : depth v ≤ left) :
    parseValue left (node v) = .ok v ↔ v.All Decodable (· ≠ []) := by
  induction v using Value.tree_induction generalizing left with
  | int i =>
    obtain ⟨left, rfl⟩ := Nat.exists_eq_add_of_le' hdepth
    have hparse : parseValue (left + 1) (node (.int i)) =
        .ok (.int (Int64.ofInt (atol (intText i.toInt)))) :=
      typeValue_textNodes (intText_ne_nil _) _ _ _
    rw [show depth (.int i) = 1 from rfl, hparse, atol_intText i.le_toInt i.toInt_lt, Int64.ofInt_toInt]
    exact iff_of_true rfl trivial
  | longLong n =>
    obtain ⟨left, rfl⟩ := Nat.exists_eq_add_of_le' hdepth
    have hne : hex16 n.toUInt64.toNat ≠ [] := by
      rw [hex16]
      split <;> exact cons_ne_nil _ _
    have hparse : parseValue (left + 1) (node (.longLong n)) =
        .ok (.longLong (Int64.ofInt (strtoll (hex16 n.toUInt64.toNat)))) :=
      typeValue_textNodes hne _ _ _
    rw [show depth (.longLong n) = 1 from rfl, hparse, Except.ok.injEq, Value.longLong.injEq,
      ofInt_strtoll_hex16_iff]
    exact Iff.rfl
  | bool b =>
    obtain ⟨left, rfl⟩ := Nat.exists_eq_add_of_le' hdepth
    refine iff_of_true ?_ trivial
    cases b <;> rfl
  | string s =>
    obtain ⟨left, rfl⟩ := Nat.exists_eq_add_of_le' hdepth
    refine iff_of_true ?_ trivial
    show Except.ok (stringValue (.element (text "string") (textNodes s))) = _
    rw [stringValue, firstValue_textNodes]
    by_cases hs : s = []
    · rw [if_pos hs, hs]
      rfl
    · rw [if_neg hs]
      rfl
  | dateTime t => exact absurd hparsable (by simp [Value.All, Parsable])
  | struct members ih =>
    obtain ⟨-, hparsable⟩ := Value.all_struct.mp hparsable
    obtain ⟨hnodup, hnames⟩ := Value.all_struct.mp hnames
    have hmembers : membersDepth members + 2 ≤ left := hdepth
    obtain ⟨left, rfl⟩ := Nat.exists_eq_add_of_le' ((Nat.le_add_left 2 _).trans hmembers)
    have hparse : parseValue (left + 2) (node (.struct members)) =
        structOf (parseMembers (parseValue left) [] (members.map memberNode)) := by
      rw [← childrenNamed_memberNodes]
      rfl
    have hiff := parseMembers_iff (parseValue left) [] members hnodup
    rw [nil_append] at hiff
    have hok : parseValue (left + 2) (node (.struct members)) = .ok (.struct members) ↔
        parseMembers (parseValue left) [] (members.map memberNode) = .ok members := by
      rw [hparse]
      cases parseMembers (parseValue left) [] (members.map memberNode) <;> simp [structOf]
    rw [hok, hiff, Value.all_struct]
    have hdecodable : Decodable (.struct members) := trivial
    simp only [hdecodable, true_and]
    refine forall₂_congr fun m hm => and_congr_right fun _ => ?_
    have hle := (depth_le_of_mem_members hm).trans (by omega : membersDepth members ≤ left)
    exact ih m hm (hparsable m hm).2 (hnames m hm).2 hle
  | array elements ih =>
    obtain ⟨-, hparsable⟩ := Value.all_array.mp hparsable
    obtain ⟨-, hnames⟩ := Value.all_array.mp hnames
    have helements : elementsDepth elements + 2 ≤ left := hdepth
    obtain ⟨left, rfl⟩ := Nat.exists_eq_add_of_le' ((Nat.le_add_left 2 _).trans helements)
    have hparse : parseValue (left + 2) (node (.array elements)) =
        (parseElements (parseValue left) [] (elements.map node)).map .array := by
      rw [← childrenNamed_elementNodes]
      rfl
    have hiff := parseElements_iff (parseValue left) [] elements
    rw [nil_append] at hiff
    have hok : parseValue (left + 2) (node (.array elements)) = .ok (.array elements) ↔
        parseElements (parseValue left) [] (elements.map node) = .ok elements := by
      rw [hparse]
      cases parseElements (parseValue left) [] (elements.map node) <;> simp [Except.map]
    rw [hok, hiff, Value.all_array]
    have hdecodable : Decodable (.array elements) := trivial
    simp only [hdecodable, true_and]
    refine forall₂_congr fun v hv => ?_
    have hle := (depth_le_of_mem_elements hv).trans (by omega : elementsDepth elements ≤ left)
    exact ih v hv (hparsable v hv) (hnames v hv) hle

end SipXRouter.XmlRpc
