import SipXRouter.Net.XmlRpcBody
import SipXRouter.XmlMarks

/-!
# The document of an XML-RPC value

What a parser of XML makes of the text that `addValue` appends.  A value without
date-times whose member names are character data is read as the element that it should
be.  The end tag of a date-time is misspelt, so that it is never read.
-/

namespace SipXRouter.XmlRpc

open List Xml

/-! ## What is read -/

/-- Character data as the children of an element. -/
def textNodes (t : Text) : List Node := if t = [] then [] else [.text t]

/-- A newline between elements. -/
def newline : Node := .text (text "\n")

/-- An element with one child in a `<value>`. -/
def valueNode (type : String) (children : List Node) : Node :=
  .element (text "value") [.element (text type) children]

mutual

/-- The element of a value. -/
def node : Value → Node
  | .int i => valueNode "int" (textNodes (intText i.toInt))
  | .longLong n => valueNode "i8" (textNodes (hex16 n.toUInt64.toNat))
  | .bool b => valueNode "boolean" (textNodes (text (if b then "1" else "0")))
  | .string s => valueNode "string" (textNodes s)
  | .dateTime t => valueNode "dateTime.iso8601" (textNodes t.text)
  | .struct members => valueNode "struct" (newline :: memberNodes members)
  | .array elements => valueNode "array" [.element (text "data") (newline :: elementNodes elements)]

/-- The elements of members. -/
def memberNodes : List (Text × Value) → List Node
  | [] => []
  | (name, v) :: members =>
    .element (text "member") [newline, .element (text "name") (textNodes name), node v, newline] ::
      newline :: memberNodes members

def elementNodes : List Value → List Node
  | [] => []
  | v :: elements => node v :: newline :: elementNodes elements

end

/-- What a value needs in order to be read by a parser of XML. -/
def Parsable : Value → Prop
  | .dateTime _ => False
  | _ => True

/-- The value is read as its element, with a newline behind it. -/
def Read (v : Value) : Prop := Reads (body v) [node v, newline]

theorem normal_text (t : Text) : normal [.text t] = textNodes t := by
  rw [normal, textNodes]
  by_cases ht : t = []
  · simp [ht, addNode, addText]
  · simp [ht, addNode, addText]

theorem reads_value (type : String) (htype : isName (text type) = true) {t : Text} {ns : List Node}
    (ht : Reads t ns) {opening closing : Text}
    (hopening : opening = startTag (text "value") ++ startTag (text type))
    (hclosing : closing = closeTag (text type) ++ (closeTag (text "value") ++ text "\n")) :
    Reads (opening ++ t ++ closing) [valueNode type (normal ns), newline] := by
  have hinner := (ht.element _ htype).element (text "value") (by decide)
  have hwhole := hinner.append (Reads.plain (t := text "\n") (by decide))
  simp only [append_assoc] at hwhole
  simp only [hopening, hclosing, append_assoc]
  exact hwhole

theorem reads_newline : Reads (text "\n") [newline] := Reads.plain (by decide)

theorem isElement_node (v : Value) : ∃ children, node v = .element (text "value") children := by
  cases v <;> exact ⟨_, rfl⟩

theorem foldl_memberNodes (members : List (Text × Value)) (t : Text) (children : List Node) :
    (memberNodes members).foldl addNode (.text t :: children) =
      (memberNodes members).reverse ++ (.text t :: children) := by
  induction members generalizing t children with
  | nil => rfl
  | cons m members ih =>
    rw [memberNodes, foldl_cons, foldl_cons]
    show (memberNodes members).foldl addNode (newline :: _ :: .text t :: children) = _
    rw [newline, ih]
    simp

theorem foldl_elementNodes (elements : List Value) (t : Text) (children : List Node) :
    (elementNodes elements).foldl addNode (.text t :: children) =
      (elementNodes elements).reverse ++ (.text t :: children) := by
  induction elements generalizing t children with
  | nil => rfl
  | cons v elements ih =>
    obtain ⟨content, hnode⟩ := isElement_node v
    rw [elementNodes, foldl_cons, foldl_cons, hnode]
    show (elementNodes elements).foldl addNode (newline :: _ :: .text t :: children) = _
    rw [newline, ih]
    simp

theorem normal_memberNodes (members : List (Text × Value)) :
    normal (newline :: memberNodes members) = newline :: memberNodes members := by
  show ((memberNodes members).foldl addNode [newline]).reverse = _
  rw [newline, foldl_memberNodes]
  simp

theorem normal_elementNodes (elements : List Value) :
    normal (newline :: elementNodes elements) = newline :: elementNodes elements := by
  show ((elementNodes elements).foldl addNode [newline]).reverse = _
  rw [newline, foldl_elementNodes]
  simp

theorem reads_member {name : Text} (hname : isCharData 0 name = true) {v : Value} (hv : Read v) :
    Reads (addMembers.member name (body v))
      [.element (text "member") [newline, .element (text "name") (textNodes name), node v, newline],
        newline] := by
  have hinner := (reads_newline.append (reads_charData_element (text "name") (by decide)
    hname)).append hv
  have hwhole := (hinner.element (text "member") (by decide)).append reads_newline
  have hnormal : normal ([newline] ++ [.element (text "name") (normal [.text name])] ++
      [node v, newline]) =
      [newline, .element (text "name") (textNodes name), node v, newline] := by
    obtain ⟨content, hnode⟩ := isElement_node v
    rw [normal_text, hnode]
    rfl
  rw [hnormal] at hwhole
  simp only [append_assoc] at hwhole
  simp only [addMembers.member, append_assoc]
  exact hwhole

theorem reads_members {members : List (Text × Value)}
    (h : ∀ m ∈ members, isCharData 0 m.1 = true ∧ Read m.2) :
    Reads (membersBody members) (memberNodes members) := by
  induction members with
  | nil => exact Reads.nil
  | cons m members ih =>
    obtain ⟨hname, hv⟩ := h m mem_cons_self
    have hrest := ih fun m hm => h m (mem_cons_of_mem _ hm)
    exact (reads_member hname hv).append hrest

theorem reads_elements {elements : List Value} (h : ∀ v ∈ elements, Read v) :
    Reads (elementsBody elements) (elementNodes elements) := by
  induction elements with
  | nil => exact Reads.nil
  | cons v elements ih =>
    have hrest := ih fun v hv => h v (mem_cons_of_mem _ hv)
    exact (h v mem_cons_self).append hrest

/-- Digits, letters and the signs of numbers. -/
def isNumberByte (c : Byte) : Bool := isAlnum c || c == byte '-'

theorem isNumberByte_spec : ∀ c, isNumberByte c = true →
    isPlain c = true ∧ cost c = 0 ∧ c ≠ byte '\r' := by
  decide +kernel

theorem isNumberByte_intText (i : Int) : ∀ c ∈ intText i, isNumberByte c = true := by
  have hnat : ∀ n, ∀ c ∈ natText n, isNumberByte c = true := fun n c hc => by
    simp [isNumberByte, isAlnum, isDigit_of_mem_natText c hc]
  cases i with
  | ofNat n => exact hnat n
  | negSucc n => exact forall_mem_cons.mpr ⟨by decide, hnat _⟩

theorem isNumberByte_hex16 (n : Nat) : ∀ c ∈ hex16 n, isNumberByte c = true := by
  rw [hex16]
  split
  · intro c hc
    rw [eq_of_mem_replicate hc]
    decide
  · rw [append_assoc]
    exact forall_mem_append.mpr ⟨by decide, forall_mem_padded (by decide) (by decide) _ _⟩

theorem reads_number {t : Text} (ht : ∀ c ∈ t, isNumberByte c = true) : Reads t [.text t] :=
  Reads.plain fun c hc => (isNumberByte_spec c (ht c hc)).1

/-- **What can be read is read** as the element of the value. -/
theorem read_of_parsable {v : Value}
    (h : v.All Parsable fun n => isCharData 0 n = true) : Read v := by
  induction v using Value.tree_induction with
  | int i =>
    rw [Read, body, node, ← normal_text]
    exact reads_value _ (by decide) (reads_number (isNumberByte_intText _)) rfl rfl
  | longLong n =>
    rw [Read, body, node, ← normal_text]
    exact reads_value _ (by decide) (reads_number (isNumberByte_hex16 _)) rfl rfl
  | bool b =>
    rw [Read, body, node, ← normal_text]
    refine reads_value _ (by decide) (Reads.plain ?_) rfl rfl
    cases b <;> decide
  | string s =>
    rw [Read, body, node, ← normal_text, xmlEscape_eq]
    exact reads_value _ (by decide) (Reads.escape s) rfl rfl
  | dateTime t => exact absurd h (by simp [Value.All, Parsable])
  | struct members ih =>
    obtain ⟨-, hms⟩ := Value.all_struct.mp h
    have hmembers := reads_members fun m hm => ⟨(hms m hm).1, ih m hm (hms m hm).2⟩
    have hwhole := reads_value "struct" (by decide) (reads_newline.append hmembers) rfl rfl
    rw [singleton_append, normal_memberNodes] at hwhole
    simp only [append_assoc] at hwhole
    simp only [Read, body, append_assoc]
    exact hwhole
  | array elements ih =>
    obtain ⟨-, hvs⟩ := Value.all_array.mp h
    have helements := reads_elements fun v hv => ih v hv (hvs v hv)
    have hdata := (reads_newline.append helements).element (text "data") (by decide)
    have hwhole := reads_value "array" (by decide) hdata rfl rfl
    rw [singleton_append, normal_elementNodes] at hwhole
    simp only [append_assoc] at hwhole
    simp only [Read, body, append_assoc]
    exact hwhole

/-! ## Values that cannot be read -/

/-- A name has no markup. -/
def NoMarkup (n : Text) : Prop := byte '<' ∉ n ∧ byte '&' ∉ n

/-- A name that can be read. -/
abbrev NameIsCharData (n : Text) : Prop := isCharData 0 n = true

theorem fails_member {name : Text} (hmarkup : NoMarkup name) {v : Value}
    (h : ¬ NameIsCharData name ∨ Fails (body v)) :
    Fails (addMembers.member name (body v)) := by
  have hname : Fails (startTag (text "name") ++ (name ++ (closeTag (text "name") ++
      (body v ++ text "</member>\n")))) := by
    by_cases hchars : NameIsCharData name
    · have hbody := (h.resolve_left fun hne => hne hchars).append (text "</member>\n")
      have hread := reads_charData_element (text "name") (by decide) hchars
      have hwhole := hread.append_fails hbody
      simp only [append_assoc] at hwhole
      exact hwhole
    · exact fails_startTag_of_not_charData (by decide) (Bool.eq_false_of_not_eq_true hchars)
        hmarkup.1 hmarkup.2 _
  have hmember := (reads_newline.append_fails hname).startTag (text "member") (by decide)
  simp only [addMembers.member, append_assoc]
  exact hmember

theorem fails_members {members : List (Text × Value)} (hmarkup : ∀ m ∈ members, NoMarkup m.1)
    (hread : ∀ m ∈ members, Read m.2 ∨ Fails (body m.2))
    (h : ∃ m ∈ members, ¬ NameIsCharData m.1 ∨ Fails (body m.2)) :
    Fails (membersBody members) := by
  induction members with
  | nil =>
    obtain ⟨m, hm, -⟩ := h
    exact absurd hm not_mem_nil
  | cons m members ih =>
    obtain ⟨name, v⟩ := m
    have hname := hmarkup (name, v) mem_cons_self
    rw [membersBody]
    by_cases hfirst : ¬ NameIsCharData name ∨ Fails (body v)
    · exact (fails_member hname hfirst).append _
    · obtain ⟨hchars, hv⟩ := not_or.mp hfirst
      have hrest : ∃ m ∈ members, ¬ NameIsCharData m.1 ∨ Fails (body m.2) := by
        obtain ⟨m, hm, hbad⟩ := h
        rcases mem_cons.mp hm with rfl | hm
        · exact absurd hbad hfirst
        · exact ⟨m, hm, hbad⟩
      have hv' := (hread (name, v) mem_cons_self).resolve_right hv
      exact (reads_member (not_not.mp hchars) hv').append_fails
        (ih (fun m hm => hmarkup m (mem_cons_of_mem _ hm))
          (fun m hm => hread m (mem_cons_of_mem _ hm)) hrest)

theorem fails_elements {elements : List Value}
    (hread : ∀ v ∈ elements, Read v ∨ Fails (body v)) (h : ∃ v ∈ elements, Fails (body v)) :
    Fails (elementsBody elements) := by
  induction elements with
  | nil =>
    obtain ⟨v, hv, -⟩ := h
    exact absurd hv not_mem_nil
  | cons v elements ih =>
    rw [elementsBody]
    by_cases hfirst : Fails (body v)
    · exact hfirst.append _
    · have hrest : ∃ v ∈ elements, Fails (body v) := by
        obtain ⟨w, hw, hbad⟩ := h
        rcases mem_cons.mp hw with rfl | hw
        · exact absurd hbad hfirst
        · exact ⟨w, hw, hbad⟩
      exact ((hread v mem_cons_self).resolve_right hfirst).append_fails
        (ih (fun v hv => hread v (mem_cons_of_mem _ hv)) hrest)

theorem fails_dateTime (t : IsoTime) : Fails (body (.dateTime t)) := by
  have hplain : ∀ c ∈ t.text, isPlain c = true := by
    have hall : ∀ c, (isDigit c || oneOf " -:.TZ" c) = true → isPlain c = true := by
      decide +kernel
    exact fun c hc => hall c (t.isDigits c hc)
  intro brackets children parents
  obtain ⟨brackets', hiso⟩ := Reads.plain hplain 0 []
    ((text "dateTime.iso8601", []) :: (text "value", children) :: parents)
  have hopening : text "<value><dateTime.iso8601>" =
      startTag (text "value") ++ startTag (text "dateTime.iso8601") := rfl
  have hclosing : text "</dataTime.iso8601></value>\n" =
      closeTag (text "dataTime.iso8601") ++ text "</value>\n" := rfl
  rw [body, hopening, hclosing, append_assoc, append_assoc, run_append,
    run_startTag (by decide), Option.bind_some, run_append, run_startTag (by decide),
    Option.bind_some, run_append, hiso, Option.bind_some, run_append,
    run_closeTag_ne (by decide) (by decide)]
  rfl

/-- **What cannot be read fails**, as long as no name has markup. -/
theorem read_or_fails {v : Value} (hmarkup : v.All (fun _ => True) NoMarkup) :
    v.All Parsable NameIsCharData ∧ Read v ∨ Fails (body v) := by
  induction v using Value.tree_induction with
  | dateTime t => exact Or.inr (fails_dateTime t)
  | struct members ih =>
    obtain ⟨-, hms⟩ := Value.all_struct.mp hmarkup
    by_cases hall : (Value.struct members).All Parsable NameIsCharData
    · exact Or.inl ⟨hall, read_of_parsable hall⟩
    · right
      have hbad : ∃ m ∈ members, ¬ NameIsCharData m.1 ∨ Fails (body m.2) := by
        by_contra hgood
        push Not at hgood
        refine hall (Value.all_struct.mpr ⟨trivial, fun m hm => ?_⟩)
        obtain ⟨hchars, hread⟩ := hgood m hm
        exact ⟨hchars, ((ih m hm (hms m hm).2).resolve_right hread).1⟩
      have hfails := fails_members (fun m hm => (hms m hm).1)
        (fun m hm => (ih m hm (hms m hm).2).imp And.right id) hbad
      have hstruct := (reads_newline.append_fails (hfails.append (text "</struct></value>\n"))).startTag
        (text "struct") (by decide)
      have hvalue := hstruct.startTag (text "value") (by decide)
      simp only [body, append_assoc]
      exact hvalue
  | array elements ih =>
    obtain ⟨-, hvs⟩ := Value.all_array.mp hmarkup
    by_cases hall : (Value.array elements).All Parsable NameIsCharData
    · exact Or.inl ⟨hall, read_of_parsable hall⟩
    · right
      have hbad : ∃ v ∈ elements, Fails (body v) := by
        by_contra hgood
        push Not at hgood
        refine hall (Value.all_array.mpr ⟨trivial, fun v hv => ?_⟩)
        exact ((ih v hv (hvs v hv)).resolve_right (hgood v hv)).1
      have hfails := fails_elements (fun v hv => (ih v hv (hvs v hv)).imp And.right id) hbad
      have hdata := (reads_newline.append_fails
        (hfails.append (text "</data></array></value>\n"))).startTag (text "data") (by decide)
      have hvalue := (hdata.startTag (text "array") (by decide)).startTag
        (text "value") (by decide)
      simp only [body, append_assoc]
      exact hvalue
  | _ => exact Or.inl ⟨trivial, read_of_parsable trivial⟩

end SipXRouter.XmlRpc
