import SipXRouter.Net.XmlRpcDecode

/-!
# The round trip of an XML-RPC value

The names of the members of a struct are not escaped.  What a parser makes of a name
with markup can be a document in its own right, with other members in it; that it never
is the document of the value follows by counting marks.
-/

namespace SipXRouter.XmlRpc

open List Xml

/-! ## Names with markup -/

namespace Value

mutual

/-- The sum of a weight of the strings in a value and one of the names. -/
def total (string name : Text → Int) : Value → Int
  | .string s => string s
  | .dateTime t => string t.text
  | .struct members => membersTotal string name members
  | .array elements => elementsTotal string name elements
  | .int _ | .longLong _ | .bool _ => 0

/-- The sum over members. -/
def membersTotal (string name : Text → Int) : List (Text × Value) → Int
  | [] => 0
  | (n, v) :: members => name n + total string name v + membersTotal string name members

/-- The sum over elements. -/
def elementsTotal (string name : Text → Int) : List Value → Int
  | [] => 0
  | v :: elements => total string name v + elementsTotal string name elements

end

theorem membersTotal_append (string name : Text → Int) (a b : List (Text × Value)) :
    membersTotal string name (a ++ b) = membersTotal string name a + membersTotal string name b := by
  induction a with
  | nil => simp [membersTotal]
  | cons m a ih =>
    obtain ⟨n, v⟩ := m
    rw [cons_append, membersTotal, membersTotal, ih]
    ring

theorem elementsTotal_append (string name : Text → Int) (a b : List Value) :
    elementsTotal string name (a ++ b) =
      elementsTotal string name a + elementsTotal string name b := by
  induction a with
  | nil => simp [elementsTotal]
  | cons v a ih =>
    rw [cons_append, elementsTotal, elementsTotal, ih]
    ring

end Value

/-- The marks in the strings and names of a value. -/
def marks (v : Value) : Int := v.total (weigh mark) (weigh mark)

theorem marks_childNodes_le (n : Node) : Node.marksList (childNodes n) ≤ n.marks := by
  cases n with
  | text t => exact Xml.Node.marks_nonneg _
  | element name children =>
    exact le_add_of_nonneg_left (weigh_nonneg mark_nonneg name)

variable {n : Node}

theorem marks_firstChild_le {name : String} {c : Node} (h : firstChild name n = some c) :
    c.marks ≤ n.marks :=
  (marks_le_of_mem (mem_of_find?_eq_some h)).trans (marks_childNodes_le n)

theorem weigh_nodeValue_le (n : Node) : weigh mark (nodeValue n) ≤ n.marks := by
  cases n with
  | text t => exact le_rfl
  | element name children => exact le_add_of_nonneg_right (Xml.Node.marksList_nonneg children)

variable {t : Text}

theorem weigh_firstValue_le (h : firstValue n = some t) : weigh mark t ≤ n.marks := by
  obtain ⟨c, hc, rfl⟩ := Option.map_eq_some_iff.mp h
  have hmem : c ∈ childNodes n := mem_of_head? hc
  exact (weigh_nodeValue_le c).trans ((marks_le_of_mem hmem).trans (marks_childNodes_le n))

theorem marks_stringValue_le (n : Node) : marks (stringValue n) ≤ n.marks := by
  rw [stringValue]
  cases h : firstValue n with
  | none => exact n.marks_nonneg
  | some t => exact weigh_firstValue_le h

/-- A decoder that gives no more marks than it finds. -/
def Sound (parse : Node → Except Text Value) : Prop :=
  ∀ n v, parse n = .ok v → marks v ≤ n.marks

theorem marks_parseMember_le {parse : Node → Except Text Value} (hparse : Sound parse)
    {m : Text × Value} (h : parseMember parse n = .ok m) :
    weigh mark m.1 + marks m.2 ≤ n.marks := by
  rw [parseMember] at h
  split at h
  · exact absurd h (by simp)
  · next memberName hname =>
      split at h
      · exact absurd h (by simp)
      · next name hfirst =>
          split at h
          · exact absurd h (by simp)
          · next memberValue hvalue =>
              split at h
              · next value hv =>
                  obtain rfl := Except.ok.inj h
                  have hdiffer : ∀ n, (nodeValue n == text "name") = true →
                      (nodeValue n == text "value") = false := by
                    intro n hn
                    rw [beq_iff_eq.mp hn]
                    decide
                  have hboth := marks_add_le_of_find hdiffer hname hvalue
                  have hfirst := weigh_firstValue_le hfirst
                  have hv := hparse _ _ hv
                  have hchildren := marks_childNodes_le n
                  show weigh mark name + marks value ≤ _
                  linarith
              · exact absurd h (by simp)

/-- Reading members brings in no marks. -/
theorem marks_parseMembers_le {parse : Node → Except Text Value} (hparse : Sound parse)
    {returned r : List (Text × Value)} {nodes : List Node}
    (h : parseMembers parse returned nodes = .ok r) :
    marks (.struct r) ≤ marks (.struct returned) + Node.marksList nodes := by
  induction nodes generalizing returned with
  | nil =>
    obtain rfl := Except.ok.inj h
    simp [Xml.Node.marksList]
  | cons n nodes ih =>
    rw [parseMembers] at h
    rw [Xml.Node.marksList]
    split at h
    · exact absurd h (by simp)
    · next name value hmember =>
        have hm := marks_parseMember_le hparse hmember
        have hn := n.marks_nonneg
        split at h
        · have hrest := ih h
          linarith
        · have hrest := ih h
          have happend : marks (.struct (returned ++ [(name, value)])) =
              marks (.struct returned) + (weigh mark name + marks value) := by
            rw [marks, Value.total, Value.membersTotal_append]
            simp [marks, Value.total, Value.membersTotal]
          linarith

theorem marks_parseElements_le {parse : Node → Except Text Value} (hparse : Sound parse)
    {list r : List Value} {nodes : List Node} (h : parseElements parse list nodes = .ok r) :
    marks (.array r) ≤ marks (.array list) + Node.marksList nodes := by
  induction nodes generalizing list with
  | nil =>
    obtain rfl := Except.ok.inj h
    simp [Xml.Node.marksList]
  | cons n nodes ih =>
    rw [parseElements] at h
    rw [Xml.Node.marksList]
    split at h
    · exact absurd h (by simp)
    · next value hvalue =>
        have hv := hparse _ _ hvalue
        have hrest := ih h
        have happend : marks (.array (list ++ [value])) = marks (.array list) + marks value := by
          rw [marks, Value.total, Value.elementsTotal_append]
          simp [marks, Value.total, Value.elementsTotal]
        linarith

theorem marks_childrenNamed_le (name : String) (n : Node) :
    Node.marksList (childrenNamed name n) ≤ n.marks :=
  (marksList_le_of_sublist filter_sublist).trans (marks_childNodes_le n)

variable {v : Value}

theorem marks_typeValue_le {name : String} {make : Text → Value}
    (h : typeValue name make n = .ok v) (hmake : ∀ t, marks (make t) ≤ weigh mark t) :
    marks v ≤ n.marks := by
  rw [typeValue] at h
  split at h
  · next t ht =>
      obtain rfl := Except.ok.inj h
      exact (hmake t).trans (weigh_firstValue_le ht)
  · exact absurd h (by simp)

/-- **The decoder** gives no more marks than the nodes have. -/
theorem sound_parseValue (left : Nat) : Sound (parseValue left) := by
  induction left using Nat.strong_induction_on with
  | h left ih =>
    intro n v h
    have hzero : ∀ t, (0 : Int) ≤ weigh mark t := weigh_nonneg mark_nonneg
    cases left with
    | zero => exact absurd h (by simp [parseValue])
    | succ left =>
      rw [parseValue] at h
      split at h
      · next hc => exact (marks_typeValue_le h hzero).trans (marks_firstChild_le hc)
      split at h
      · next hc => exact (marks_typeValue_le h hzero).trans (marks_firstChild_le hc)
      split at h
      · next hc => exact (marks_typeValue_le h hzero).trans (marks_firstChild_le hc)
      split at h
      · next hc => exact (marks_typeValue_le h hzero).trans (marks_firstChild_le hc)
      split at h
      · next hc =>
          obtain rfl := Except.ok.inj h
          exact (marks_stringValue_le _).trans (marks_firstChild_le hc)
      split at h
      · next hc => exact (marks_typeValue_le h fun t => le_rfl).trans (marks_firstChild_le hc)
      split at h
      · next typeNode hc =>
          cases left with
          | zero => exact absurd h (by simp)
          | succ left =>
            dsimp only at h
            split at h
            · next members hmembers =>
                obtain rfl := Except.ok.inj h
                have hle := marks_parseMembers_le (ih left (by omega)) hmembers
                have hnamed := marks_childrenNamed_le "member" typeNode
                have hchild := marks_firstChild_le hc
                have hnil : marks (.struct []) = 0 := rfl
                linarith
            · exact absurd h (by simp)
      split at h
      · next typeNode hc =>
          cases left with
          | zero => exact absurd h (by simp)
          | succ left =>
            dsimp only at h
            rw [parseArray] at h
            split at h
            · exact absurd h (by simp [Except.map])
            · next dataNode hdata =>
                cases helements : parseElements (parseValue left) []
                    (childrenNamed "value" dataNode) with
                | error e =>
                  rw [helements] at h
                  exact absurd h (by simp [Except.map])
                | ok elements =>
                  rw [helements] at h
                  obtain rfl := Except.ok.inj h
                  have hle := marks_parseElements_le (ih left (by omega)) helements
                  have hnamed := marks_childrenNamed_le "value" dataNode
                  have hchild := marks_firstChild_le hc
                  have hchild' := marks_firstChild_le hdata
                  have hnil : marks (.array []) = 0 := rfl
                  linarith
      · obtain rfl := Except.ok.inj h
        exact marks_stringValue_le n

/-- The string can be printed. -/
def Printable : Value → Prop
  | .string s => ∀ c ∈ s, 32 ≤ c
  | _ => True

theorem weigh_escapedChar : ∀ c : Byte, 32 ≤ c →
    weigh cost (if isXmlChar c then [c] else escapedChar c) = mark c ∧
      byte '\r' ∉ if isXmlChar c then [c] else escapedChar c := by
  decide +kernel

theorem weigh_xmlEscape {s : Text} (hs : ∀ c ∈ s, 32 ≤ c) :
    weigh cost (xmlEscape s) = weigh mark s := by
  induction s with
  | nil => rfl
  | cons c s ih =>
    have hrest := ih fun d hd => hs d (mem_cons_of_mem _ hd)
    rw [weigh_cons, ← (weigh_escapedChar c (hs c mem_cons_self)).1, ← hrest,
      ← weigh_append]
    rfl

theorem weigh_number (ht : ∀ c ∈ t, isNumberByte c = true) : weigh cost t = 0 :=
  weigh_eq_zero fun c hc => (isNumberByte_spec c (ht c hc)).2.1

/-- **What a value is written for**: the tags cost nothing. -/
theorem weigh_body (h : v.All Printable fun _ => True) :
    weigh cost (body v) = v.total (weigh mark) (weigh cost) := by
  induction v using Value.tree_induction with
  | int i =>
    have htags : weigh cost (text "<value><int>") = 0 ∧
        weigh cost (text "</int></value>\n") = 0 := by decide
    simp [body, Value.total, htags, weigh_number (isNumberByte_intText _)]
  | longLong n =>
    have htags : weigh cost (text "<value><i8>") = 0 ∧
        weigh cost (text "</i8></value>\n") = 0 := by decide
    simp [body, Value.total, htags, weigh_number (isNumberByte_hex16 _)]
  | bool b =>
    have htags : ∀ b, weigh cost (body (.bool b)) = 0 := by decide
    exact htags b
  | string s =>
    have htags : weigh cost (text "<value><string>") = 0 ∧
        weigh cost (text "</string></value>\n") = 0 := by decide
    simp [body, Value.total, htags, weigh_xmlEscape h]
  | dateTime t =>
    have htags : weigh cost (text "<value><dateTime.iso8601>") = 0 ∧
        weigh cost (text "</dataTime.iso8601></value>\n") = 0 := by decide
    have hbyte : ∀ c, (isDigit c || oneOf " -:.TZ" c) = true → cost c = mark c := by
      decide +kernel
    have hiso : weigh cost t.text = weigh mark t.text :=
      congrArg sum (map_congr_left fun c hc => hbyte c (t.isDigits c hc))
    simp [body, Value.total, htags, hiso]
  | struct members ih =>
    obtain ⟨-, hms⟩ := Value.all_struct.mp h
    have htags : weigh cost (text "<value><struct>\n") = 0 ∧
        weigh cost (text "</struct></value>\n") = 0 ∧
        weigh cost (text "<member>\n") = 0 ∧ weigh cost (text "<name>") = 0 ∧
        weigh cost (text "</name>") = 0 ∧ weigh cost (text "</member>\n") = 0 := by
      decide
    obtain ⟨hstart, hend, hmember, hname, hname', hmember'⟩ := htags
    have hmembers : weigh cost (membersBody members) =
        Value.membersTotal (weigh mark) (weigh cost) members := by
      clear h
      induction members with
      | nil => rfl
      | cons m members ihm =>
        obtain ⟨n, v⟩ := m
        have hv := ih (n, v) mem_cons_self (hms (n, v) mem_cons_self).2
        have hrest := ihm (fun m hm => ih m (mem_cons_of_mem _ hm))
          fun m hm => hms m (mem_cons_of_mem _ hm)
        simp only [membersBody, addMembers.member, weigh_append, Value.membersTotal, hrest,
          hmember, hname, hname', hmember', hv]
        ring
    simp [body, Value.total, hstart, hend, hmembers]
  | array elements ih =>
    obtain ⟨-, hvs⟩ := Value.all_array.mp h
    have htags : weigh cost (text "<value><array><data>\n") = 0 ∧
        weigh cost (text "</data></array></value>\n") = 0 := by decide
    have helements : weigh cost (elementsBody elements) =
        Value.elementsTotal (weigh mark) (weigh cost) elements := by
      clear h
      induction elements with
      | nil => rfl
      | cons v elements ihe =>
        have hv := ih v mem_cons_self (hvs v mem_cons_self)
        have hrest := ihe (fun v hv => ih v (mem_cons_of_mem _ hv))
          fun v hv => hvs v (mem_cons_of_mem _ hv)
        simp only [elementsBody, weigh_append, Value.elementsTotal, hrest, hv]
    simp [body, Value.total, htags, helements]

section Names

variable (string : Text → Int) {f g : Text → Int}

theorem total_le (hfg : ∀ n, g n ≤ f n) (v : Value) : v.total string g ≤ v.total string f := by
  induction v using Value.tree_induction with
  | struct members ih =>
    rw [Value.total, Value.total]
    induction members with
    | nil => exact le_rfl
    | cons m members ihm =>
      obtain ⟨n, v⟩ := m
      have hv := ih (n, v) mem_cons_self
      have hrest := ihm fun m hm => ih m (mem_cons_of_mem _ hm)
      simp only [Value.membersTotal]
      exact add_le_add (add_le_add (hfg n) hv) hrest
  | array elements ih =>
    rw [Value.total, Value.total]
    induction elements with
    | nil => exact le_rfl
    | cons v elements ihe =>
      have hrest := ihe fun v hv => ih v (mem_cons_of_mem _ hv)
      simp only [Value.elementsTotal]
      exact add_le_add (ih v mem_cons_self) hrest
  | _ => exact le_rfl

theorem membersTotal_le (hfg : ∀ n, g n ≤ f n) (members : List (Text × Value)) :
    Value.membersTotal string g members ≤ Value.membersTotal string f members :=
  total_le string hfg (.struct members)

theorem elementsTotal_le (hfg : ∀ n, g n ≤ f n) (elements : List Value) :
    Value.elementsTotal string g elements ≤ Value.elementsTotal string f elements :=
  total_le string hfg (.array elements)

/-- Where the names weigh the same as a whole, each of them does. -/
theorem all_of_total_le (hfg : ∀ n, g n ≤ f n) (h : v.total string f ≤ v.total string g) :
    v.All (fun _ => True) fun n => f n ≤ g n := by
  induction v using Value.tree_induction with
  | struct members ih =>
    refine Value.all_struct.mpr ⟨trivial, ?_⟩
    rw [Value.total, Value.total] at h
    induction members with
    | nil => exact fun _ hm => absurd hm not_mem_nil
    | cons m members ihm =>
      obtain ⟨n, v⟩ := m
      simp only [Value.membersTotal] at h
      have hn := hfg n
      have hv := total_le string hfg v
      have hms := membersTotal_le string hfg members
      refine forall_mem_cons.mpr ⟨⟨by linarith, ?_⟩, ?_⟩
      · exact ih (n, v) mem_cons_self (by linarith)
      · exact ihm (fun m hm => ih m (mem_cons_of_mem _ hm)) (by linarith)
  | array elements ih =>
    refine Value.all_array.mpr ⟨trivial, ?_⟩
    rw [Value.total, Value.total] at h
    induction elements with
    | nil => exact fun _ hv => absurd hv not_mem_nil
    | cons v elements ihe =>
      simp only [Value.elementsTotal] at h
      have hv := total_le string hfg v
      have hvs := elementsTotal_le string hfg elements
      refine forall_mem_cons.mpr ⟨ih v mem_cons_self (by linarith), ?_⟩
      exact ihe (fun v hv => ih v (mem_cons_of_mem _ hv)) (by linarith)
  | _ => trivial

end Names

theorem cost_le_mark : ∀ c, cost c ≤ mark c ∧
    (mark c ≤ cost c → c ≠ byte '<' ∧ c ≠ byte '&' ∧ c ≠ byte '\r') := by
  decide +kernel

theorem weigh_cost_le (n : Text) : weigh cost n ≤ weigh mark n := by
  induction n with
  | nil => exact le_rfl
  | cons c n ih =>
    rw [weigh_cons, weigh_cons]
    exact add_le_add (cost_le_mark c).1 ih

theorem not_mem_of_weigh_le {n : Text} (h : weigh mark n ≤ weigh cost n) :
    NoMarkup n ∧ byte '\r' ∉ n := by
  have hall : ∀ c ∈ n, c ≠ byte '<' ∧ c ≠ byte '&' ∧ c ≠ byte '\r' := by
    induction n with
    | nil => exact fun _ hc => absurd hc not_mem_nil
    | cons c n ih =>
      rw [weigh_cons, weigh_cons] at h
      have hn := weigh_cost_le n
      obtain ⟨hc, himp⟩ := cost_le_mark c
      exact forall_mem_cons.mpr ⟨himp (by linarith), ih (by linarith)⟩
  exact ⟨⟨fun hmem => (hall _ hmem).1 rfl, fun hmem => (hall _ hmem).2.1 rfl⟩,
    fun hmem => (hall _ hmem).2.2 rfl⟩

/-! ## Line ends -/

/-- The treatment of line ends before a document is parsed: a carriage return, with a newline
behind it or not, is a newline. -/
def endOfLines : Text → Text
  | 13 :: 10 :: t => 10 :: endOfLines t
  | 13 :: t => 10 :: endOfLines t
  | c :: t => c :: endOfLines t
  | [] => []

theorem not_mem_endOfLines (t : Text) : byte '\r' ∉ endOfLines t := by
  fun_induction endOfLines t with
  | case1 t ih => exact not_mem_cons_of_ne_of_not_mem (by decide) ih
  | case2 t _ ih => exact not_mem_cons_of_ne_of_not_mem (by decide) ih
  | case3 c t _ hc ih => exact not_mem_cons_of_ne_of_not_mem (fun h => hc h.symm) ih
  | case4 => exact not_mem_nil

theorem weigh_endOfLines (t : Text) : weigh cost (endOfLines t) = weigh cost t := by
  have hends : cost 13 = 0 ∧ cost 10 = 0 := by decide
  fun_induction endOfLines t with
  | case1 t ih => simp [hends, ih]
  | case2 t _ ih => simp [hends, ih]
  | case3 c t _ _ ih => simp [ih]
  | case4 => rfl

theorem endOfLines_eq_self (h : byte '\r' ∉ t) : endOfLines t = t := by
  fun_induction endOfLines t with
  | case1 t ih => exact absurd mem_cons_self h
  | case2 t _ ih => exact absurd mem_cons_self h
  | case3 c t _ _ ih => rw [ih (not_mem_of_not_mem_cons h)]
  | case4 => rfl

theorem not_mem_number (ht : ∀ c ∈ t, isNumberByte c = true) : byte '\r' ∉ t :=
  fun hmem => (isNumberByte_spec _ (ht _ hmem)).2.2 rfl

theorem not_mem_xmlEscape {s : Text} (hs : ∀ c ∈ s, 32 ≤ c) : byte '\r' ∉ xmlEscape s := by
  intro hmem
  obtain ⟨c, hc, hmem⟩ := mem_flatMap.mp hmem
  exact (weigh_escapedChar c (hs c hc)).2 hmem

theorem not_mem_body (h : v.All Printable (byte '\r' ∉ ·)) : byte '\r' ∉ body v := by
  induction v using Value.tree_induction with
  | int i =>
    have htags : byte '\r' ∉ text "<value><int>" ∧ byte '\r' ∉ text "</int></value>\n" := by decide
    simp [body, htags, not_mem_number (isNumberByte_intText _)]
  | longLong n =>
    have htags : byte '\r' ∉ text "<value><i8>" ∧ byte '\r' ∉ text "</i8></value>\n" := by decide
    simp [body, htags, not_mem_number (isNumberByte_hex16 _)]
  | bool b =>
    have htags : ∀ b, byte '\r' ∉ body (.bool b) := by decide
    exact htags b
  | string s =>
    have htags : byte '\r' ∉ text "<value><string>" ∧ byte '\r' ∉ text "</string></value>\n" := by
      decide
    simp [body, htags, not_mem_xmlEscape h]
  | dateTime t =>
    have htags : byte '\r' ∉ text "<value><dateTime.iso8601>" ∧
        byte '\r' ∉ text "</dataTime.iso8601></value>\n" := by decide
    have hiso : byte '\r' ∉ t.text := fun hmem => absurd (t.isDigits _ hmem) (by decide)
    simp [body, htags, hiso]
  | struct members ih =>
    obtain ⟨-, hms⟩ := Value.all_struct.mp h
    have htags : byte '\r' ∉ text "<value><struct>\n" ∧ byte '\r' ∉ text "</struct></value>\n" ∧
        byte '\r' ∉ text "<member>\n" ∧ byte '\r' ∉ text "<name>" ∧ byte '\r' ∉ text "</name>" ∧
        byte '\r' ∉ text "</member>\n" := by decide
    obtain ⟨hstart, hend, hmember, hname, hname', hmember'⟩ := htags
    have hmembers : byte '\r' ∉ membersBody members := by
      clear h
      induction members with
      | nil => exact not_mem_nil
      | cons m members ihm =>
        obtain ⟨n, v⟩ := m
        obtain ⟨hn, hall⟩ := hms (n, v) mem_cons_self
        have hv := ih (n, v) mem_cons_self hall
        have hrest := ihm (fun m hm => ih m (mem_cons_of_mem _ hm))
          fun m hm => hms m (mem_cons_of_mem _ hm)
        simp only [membersBody, addMembers.member, mem_append, not_or]
        exact ⟨⟨⟨⟨⟨⟨hmember, hname⟩, hn⟩, hname'⟩, hv⟩, hmember'⟩, hrest⟩
    simp [body, hstart, hend, hmembers]
  | array elements ih =>
    obtain ⟨-, hvs⟩ := Value.all_array.mp h
    have htags : byte '\r' ∉ text "<value><array><data>\n" ∧
        byte '\r' ∉ text "</data></array></value>\n" := by decide
    have helements : byte '\r' ∉ elementsBody elements := by
      clear h
      induction elements with
      | nil => exact not_mem_nil
      | cons v elements ihe =>
        have hv := ih v mem_cons_self (hvs v mem_cons_self)
        have hrest := ihe (fun v hv => ih v (mem_cons_of_mem _ hv))
          fun v hv => hvs v (mem_cons_of_mem _ hv)
        simp only [elementsBody, mem_append, not_or]
        exact ⟨hv, hrest⟩
    simp [body, htags, helements]

/-! ## The round trip -/

namespace Value

mutual

/-- The value with its date-times as texts. -/
def isoTexts : Value → Value
  | .dateTime t => .string t.text
  | .struct members => .struct (isoTextsMembers members)
  | .array elements => .array (isoTextsElements elements)
  | .int i => .int i
  | .longLong n => .longLong n
  | .bool b => .bool b
  | .string s => .string s

def isoTextsMembers : List (Text × Value) → List (Text × Value)
  | [] => []
  | (n, v) :: members => (n, isoTexts v) :: isoTextsMembers members

def isoTextsElements : List Value → List Value
  | [] => []
  | v :: elements => isoTexts v :: isoTextsElements elements

end

theorem total_isoTexts (string name : Text → Int) (v : Value) :
    v.isoTexts.total string name = v.total string name := by
  induction v using tree_induction with
  | struct members ih =>
    rw [isoTexts, total, total]
    induction members with
    | nil => rfl
    | cons m members ihm =>
      obtain ⟨n, v⟩ := m
      have hv := ih (n, v) mem_cons_self
      rw [isoTextsMembers, membersTotal, membersTotal,
        ihm fun m hm => ih m (mem_cons_of_mem _ hm), hv]
  | array elements ih =>
    rw [isoTexts, total, total]
    induction elements with
    | nil => rfl
    | cons v elements ihe =>
      rw [isoTextsElements, elementsTotal, elementsTotal,
        ihe fun v hv => ih v (mem_cons_of_mem _ hv), ih v mem_cons_self]
  | _ => rfl

/-- Texts of plain characters stay as they are. -/
theorem isoTexts_eq_self {name : Text → Prop} (h : v.All Parsable name) : v.isoTexts = v := by
  induction v using tree_induction with
  | dateTime t => exact absurd h (by simp [All, Parsable])
  | struct members ih =>
    obtain ⟨-, hms⟩ := all_struct.mp h
    rw [isoTexts]
    congr 1
    clear h
    induction members with
    | nil => rfl
    | cons m members ihm =>
      obtain ⟨n, v⟩ := m
      have hv := ih (n, v) mem_cons_self (hms (n, v) mem_cons_self).2
      rw [isoTextsMembers, hv, ihm (fun m hm => ih m (mem_cons_of_mem _ hm))
        fun m hm => hms m (mem_cons_of_mem _ hm)]
  | array elements ih =>
    obtain ⟨-, hvs⟩ := all_array.mp h
    rw [isoTexts]
    congr 1
    clear h
    induction elements with
    | nil => rfl
    | cons v elements ihe =>
      rw [isoTextsElements, ih v mem_cons_self (hvs v mem_cons_self),
        ihe (fun v hv => ih v (mem_cons_of_mem _ hv))
          fun v hv => hvs v (mem_cons_of_mem _ hv)]
  | _ => rfl

end Value

/-- A tree of values: the names of a struct differ, the strings can be printed, and the nesting is
within the limit. -/
def IsTree (v : Value) : Prop :=
  v.All (fun v => NamesDiffer v ∧ Printable v) (fun _ => True) ∧ depth v ≤ maxValueNestingDepth

/-- **The round trip**: the encoder returns `true` without a write past its buffers, what it
appends is parsed, and the decoder gives the value back. -/
def RoundTrips (v : Value) : Prop :=
  ∃ t, addValue v = some (true, t) ∧ ∃ nodes, Xml.parse (endOfLines t) = some nodes ∧
    ∃ n, nodes.find? (nodeValue · == text "value") = some n ∧
      parseValue maxValueNestingDepth n = .ok v.isoTexts

/-- What the code asks of a value. -/
def Kept (v : Value) : Prop := Writable v ∧ Parsable v ∧ Decodable v

/-- What the code asks of a member name, which it does not escape. -/
def NameKept (n : Text) : Prop := n ≠ [] ∧ NameIsCharData n ∧ byte '\r' ∉ n

theorem parse_of_read (h : Read v) : Xml.parse (body v) = some [node v, newline] := by
  have hparse := parse_of_reads h
  obtain ⟨content, hnode⟩ := isElement_node v
  rw [hnode] at hparse ⊢
  exact hparse

theorem find_node (v : Value) :
    [node v, newline].find? (nodeValue · == text "value") = some (node v) := by
  obtain ⟨content, hnode⟩ := isElement_node v
  rw [hnode]
  rfl

theorem RoundTrips.of_kept (hv : IsTree v) (h : v.All Kept NameKept) : RoundTrips v := by
  obtain ⟨htree, hdepth⟩ := hv
  have hparsable : v.All Parsable NameIsCharData := h.imp (fun _ h => h.2.1) fun _ h => h.2.1
  have hread := read_of_parsable hparsable
  have hbody : byte '\r' ∉ body v :=
    not_mem_body ((htree.and h).imp (fun _ h => h.1.2) fun _ h => h.2.2.2)
  refine ⟨body v, (written v _).mpr ⟨h.imp (fun _ h => h.1) fun _ _ => trivial, rfl⟩,
    [node v, newline], ?_, node v, find_node v, ?_⟩
  · rw [endOfLines_eq_self hbody, parse_of_read hread]
  · rw [Value.isoTexts_eq_self hparsable]
    refine (parseValue_node_iff (hparsable.imp (fun _ h => h) fun _ _ => trivial)
      (htree.imp (fun _ h => h.1) fun _ _ => trivial) hdepth).mpr ?_
    exact h.imp (fun _ h => h.2.2) fun _ h => h.1

theorem RoundTrips.noMarkup (hv : IsTree v) (h : RoundTrips v) :
    v.All (fun _ => True) fun n => NoMarkup n ∧ byte '\r' ∉ n := by
  obtain ⟨t, hadd, nodes, hparse, n, hfind, hvalue⟩ := h
  obtain ⟨-, rfl⟩ := (written v t).mp hadd
  have hprintable : v.All Printable fun _ => True := hv.1.imp (fun _ h => h.2) fun _ _ => trivial
  have hmarks : marks v ≤ v.total (weigh mark) (weigh cost) :=
    calc marks v = marks v.isoTexts := (Value.total_isoTexts _ _ v).symm
      _ ≤ n.marks := sound_parseValue _ _ _ hvalue
      _ ≤ Node.marksList nodes := marks_le_of_mem (mem_of_find?_eq_some hfind)
      _ ≤ weigh cost (endOfLines (body v)) :=
          marks_parse_le (not_mem_endOfLines _) hparse
      _ = weigh cost (body v) := weigh_endOfLines _
      _ = v.total (weigh mark) (weigh cost) := weigh_body hprintable
  exact (all_of_total_le _ weigh_cost_le hmarks).imp (fun _ h => h) fun _ h => not_mem_of_weigh_le h

theorem RoundTrips.kept (hv : IsTree v) (h : RoundTrips v) : v.All Kept NameKept := by
  have hmarkup := h.noMarkup hv
  obtain ⟨htree, hdepth⟩ := hv
  obtain ⟨t, hadd, nodes, hparse, n, hfind, hvalue⟩ := h
  obtain ⟨hwritable, rfl⟩ := (written v t).mp hadd
  have hbody : byte '\r' ∉ body v :=
    not_mem_body ((htree.and hmarkup).imp (fun _ h => h.1.2) fun _ h => h.2.2)
  rw [endOfLines_eq_self hbody] at hparse
  rcases read_or_fails (hmarkup.imp (fun _ h => h) fun _ h => h.1) with ⟨hparsable, hread⟩ | hfails
  · rw [parse_of_read hread] at hparse
    obtain rfl := Option.some.inj hparse
    obtain rfl := Option.some.inj ((find_node v).symm.trans hfind)
    rw [Value.isoTexts_eq_self hparsable] at hvalue
    have hdecodable := (parseValue_node_iff (hparsable.imp (fun _ h => h) fun _ _ => trivial)
      (htree.imp (fun _ h => h.1) fun _ _ => trivial) hdepth).mp hvalue
    exact ((hwritable.and hparsable).and (hdecodable.and hmarkup)).imp
      (fun _ h => ⟨h.1.1, h.1.2, h.2.1⟩) fun _ h => ⟨h.2.1, h.1.2, h.2.2.2⟩
  · rw [parse_of_fails hfails] at hparse
    exact absurd hparse (by simp)

/-- **The values that come back** are those whose integers fit the buffer, whose 64-bit numbers are
not negative, that have no date-time and no empty array, and whose member names are not empty and
are character data without a carriage return. -/
theorem roundTrip_iff {v : Value} (hv : IsTree v) : RoundTrips v ↔ v.All Kept NameKept :=
  ⟨fun h => h.kept hv, RoundTrips.of_kept hv⟩

/-- A struct with an array in it. -/
def sample : Value :=
  .struct [(text "id", .int (-7)), (text "list", .array [.longLong 162162, .string (text "a<b")])]

theorem roundTrips_sample : IsTree sample ∧ RoundTrips sample := by
  have htree : IsTree sample := by
    refine ⟨Value.all_struct.mpr ⟨⟨by unfold NamesDiffer; decide, trivial⟩, ?_⟩, by decide⟩
    refine forall_mem_cons.mpr ⟨⟨trivial, trivial, trivial⟩, forall_mem_cons.mpr
      ⟨⟨trivial, Value.all_array.mpr ⟨⟨trivial, trivial⟩, ?_⟩⟩, by simp⟩⟩
    refine forall_mem_cons.mpr ⟨⟨trivial, trivial⟩, forall_mem_cons.mpr
      ⟨⟨trivial, by unfold Printable; decide⟩, by simp⟩⟩
  have hnames : NameKept (text "id") ∧ NameKept (text "list") := by unfold NameKept; decide
  have hint : Kept (.int (-7)) := ⟨by unfold Writable; decide, trivial, trivial⟩
  have hlongLong : Kept (.longLong 162162) := ⟨trivial, trivial, by unfold Decodable; decide⟩
  refine ⟨htree, (roundTrip_iff htree).mpr (Value.all_struct.mpr ⟨⟨trivial, trivial, trivial⟩, ?_⟩)⟩
  refine forall_mem_cons.mpr ⟨⟨hnames.1, hint⟩, forall_mem_cons.mpr
    ⟨⟨hnames.2, Value.all_array.mpr ⟨⟨cons_ne_nil _ _, trivial, trivial⟩, ?_⟩⟩, by simp⟩⟩
  exact forall_mem_cons.mpr ⟨hlongLong, forall_mem_cons.mpr
    ⟨⟨trivial, trivial, trivial⟩, by simp⟩⟩

def endOfEpoch : IsoTime := ⟨text "2038-01-19T03:14:07.000Z", by decide⟩

/-- The least integer needs one byte more than its buffer has; a negative number of 64 bits, a
date-time, an empty array and a name with an ampersand do not come back. -/
theorem not_roundTrips :
    (IsTree (.int Int64.minValue) ∧ ¬ RoundTrips (.int Int64.minValue)) ∧
    (IsTree (.longLong (-1)) ∧ ¬ RoundTrips (.longLong (-1))) ∧
    (IsTree (.dateTime endOfEpoch) ∧ ¬ RoundTrips (.dateTime endOfEpoch)) ∧
    (IsTree (.array []) ∧ ¬ RoundTrips (.array [])) ∧
    (IsTree (.struct [(text "a&b", .bool true)]) ∧ ¬ RoundTrips (.struct [(text "a&b", .bool true)])) := by
  have hstruct : IsTree (.struct [(text "a&b", .bool true)]) :=
    ⟨Value.all_struct.mpr ⟨⟨by unfold NamesDiffer; decide, trivial⟩,
      forall_mem_cons.mpr ⟨⟨trivial, trivial, trivial⟩, by simp⟩⟩, by decide⟩
  have harray : IsTree (.array []) :=
    ⟨Value.all_array.mpr ⟨⟨trivial, trivial⟩, by simp⟩, by decide⟩
  have hscalar : ∀ v ∈ [Value.int Int64.minValue, .longLong (-1), .dateTime endOfEpoch], IsTree v := by
    simp only [forall_mem_cons]
    exact ⟨⟨⟨trivial, trivial⟩, by decide⟩, ⟨⟨trivial, trivial⟩, by decide⟩,
      ⟨⟨trivial, trivial⟩, by decide⟩, by simp⟩
  simp only [forall_mem_cons] at hscalar
  obtain ⟨hint, hlongLong, hdateTime, -⟩ := hscalar
  refine ⟨⟨hint, fun h => ?_⟩, ⟨hlongLong, fun h => ?_⟩, ⟨hdateTime, fun h => ?_⟩,
    ⟨harray, fun h => ?_⟩, ⟨hstruct, fun h => ?_⟩⟩
  · have hwritable : Writable (.int Int64.minValue) := (h.kept hint).1
    exact absurd hwritable (by unfold Writable; decide)
  · have hdecodable : Decodable (.longLong (-1)) := (h.kept hlongLong).2.2
    exact absurd hdecodable (by unfold Decodable; decide)
  · exact (h.kept hdateTime).2.1
  · exact (Value.all_array.mp (h.kept harray)).1.1 rfl
  · have hname := ((Value.all_struct.mp (h.kept hstruct)).2 _ mem_cons_self).1
    exact absurd hname.2.1 (by decide)

end SipXRouter.XmlRpc
