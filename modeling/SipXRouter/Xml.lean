import SipXRouter.Bytes

/-!
# Elements and character data

The part of XML that has elements without attributes, character data and references.
A text is read byte by byte, with the elements that are open on a stack; characters
that follow each other make one text node, as a parser that keeps all character data
reports them.

## Design notes

A reference to a number may stand for every byte, also for a control character that
the recommendation does not allow.
-/

namespace SipXRouter.Xml

open List

/-- An element with what it contains, or character data. -/
inductive Node where
  | text (t : Text)
  | element (name : Text) (children : List Node)

/-! ## Names and references -/

def isNameByte (c : Byte) : Bool := isAlnum c || oneOf "._-:" c

/-- A name starts with a letter, an underscore or a colon. -/
def isName : Text → Bool
  | [] => false
  | c :: name => (isAlpha c || oneOf "_:" c) && name.all isNameByte

/-- The bytes that may stand in a document. -/
def isXmlByte (c : Byte) : Bool := decide (32 ≤ c) || oneOf "\t\n\r" c

/-- The bytes that stand for themselves wherever they are. -/
def isPlain (c : Byte) : Bool := isXmlByte c && !oneOf "<>&" c

/-- What a reference stands for. -/
def decodeReference (r : Text) : Option Byte :=
  if r = text "quot" then some (byte '"')
  else if r = text "amp" then some (byte '&')
  else if r = text "apos" then some (byte '\'')
  else if r = text "lt" then some (byte '<')
  else if r = text "gt" then some (byte '>')
  else
    let decode (base : Nat) (isIn : Byte → Bool) (digits : Text) : Option Byte :=
      if digits ≠ [] ∧ digits.all isIn ∧ digitsValue base digits < 256 then
        some (UInt8.ofNat (digitsValue base digits))
      else none
    match r with
    | 35 :: 120 :: digits => decode 16 isHex digits
    | 35 :: digits => decode 10 isDigit digits
    | _ => none

/-! ## Reading -/

/-- What is being read.  In character data the brackets just before are counted, because
`]]>` may not stand there. -/
inductive Mode where
  | content (brackets : Nat)
  | tag (read : Text)
  | reference (read : Text)

/-- The children read so far of the innermost open element, last first, and the elements
around it, each with the children that come before it. -/
structure State where
  mode : Mode
  children : List Node
  parents : List (Text × List Node)

/-- Character data behind the children read so far. -/
def addText (t : Text) : List Node → List Node
  | .text t' :: children => .text (t' ++ t) :: children
  | children => if t = [] then children else .text t :: children

/-- What a tag does at its end: it opens an element, or closes the one that is open. -/
def endTag (read : Text) (s : State) : Option State :=
  match read with
  | 47 :: name =>
    match s.parents with
    | (opened, before) :: parents =>
      if opened = name then
        some ⟨.content 0, .element name s.children.reverse :: before, parents⟩
      else none
    | [] => none
  | name => if isName name then some ⟨.content 0, [], (name, s.children) :: s.parents⟩ else none

/-- The parser at the next byte. -/
def step (s : State) (c : Byte) : Option State :=
  match s.mode with
  | .content brackets =>
    if c = byte '<' then some { s with mode := .tag [] }
    else if c = byte '&' then some { s with mode := .reference [] }
    else if c = byte '>' ∧ 2 ≤ brackets then none
    else if isXmlByte c then
      some { s with
        mode := .content (if c = byte ']' then brackets + 1 else 0)
        children := addText [c] s.children }
    else none
  | .tag read =>
    if c = byte '>' then endTag read s
    else if c = byte '<' then none
    else some { s with mode := .tag (read ++ [c]) }
  | .reference read =>
    if c = byte ';' then
      (decodeReference read).map fun d =>
        { s with mode := .content 0, children := addText [d] s.children }
    else some { s with mode := .reference (read ++ [c]) }

/-- The bytes of a text one after the other. -/
def run (s : State) (t : Text) : Option State := t.foldlM step s

/-- The nodes of a document whose elements are all closed. -/
def parse (t : Text) : Option (List Node) :=
  match run ⟨.content 0, [], []⟩ t with
  | some ⟨.content _, children, []⟩ => some children.reverse
  | _ => none

theorem run_append (s : State) (a b : Text) : run s (a ++ b) = (run s a).bind (run · b) :=
  foldlM_append ..

theorem run_cons (s : State) (c : Byte) (t : Text) : run s (c :: t) = (step s c).bind (run · t) :=
  foldlM_cons ..

@[simp] theorem run_nil (s : State) : run s [] = some s := rfl

/-! ## Pieces of a document -/

/-- A node behind the children read so far. -/
def addNode (children : List Node) : Node → List Node
  | .text t => addText t children
  | .element name content => .element name content :: children

/-- The nodes with texts that follow each other put together. -/
def normal (nodes : List Node) : List Node := (nodes.foldl addNode []).reverse

/-- Wherever the piece stands, it adds the nodes. -/
def Reads (piece : Text) (nodes : List Node) : Prop :=
  ∀ brackets children parents, ∃ brackets',
    run ⟨.content brackets, children, parents⟩ piece =
      some ⟨.content brackets', nodes.foldl addNode children, parents⟩

def startTag (name : Text) : Text := [byte '<'] ++ name ++ [byte '>']

/-- The end tag of an element. -/
def closeTag (name : Text) : Text := [byte '<', byte '/'] ++ name ++ [byte '>']

theorem Reads.nil : Reads [] [] := fun brackets _ _ => ⟨brackets, rfl⟩

variable {a b : Text} {nodes : List Node}

theorem Reads.append {nodes' : List Node} (ha : Reads a nodes)
    (hb : Reads b nodes') : Reads (a ++ b) (nodes ++ nodes') := by
  intro brackets children parents
  obtain ⟨brackets', ha⟩ := ha brackets children parents
  obtain ⟨brackets'', hb⟩ := hb brackets' (nodes.foldl addNode children) parents
  refine ⟨brackets'', ?_⟩
  rw [run_append, ha, Option.bind_some, hb, foldl_append]

variable {t : Text}

theorem run_tag (ht : ∀ c ∈ t, c ≠ byte '<' ∧ c ≠ byte '>') (read : Text)
    (children : List Node) (parents : List (Text × List Node)) :
    run ⟨.tag read, children, parents⟩ t = some ⟨.tag (read ++ t), children, parents⟩ := by
  induction t generalizing read with
  | nil => simp
  | cons c t ih =>
    obtain ⟨hlt, hgt⟩ := ht c mem_cons_self
    have hstep : step ⟨.tag read, children, parents⟩ c =
        some ⟨.tag (read ++ [c]), children, parents⟩ := by
      simp only [step, if_neg hlt, if_neg hgt]
    rw [run_cons, hstep, Option.bind_some, ih fun c hc => ht c (mem_cons_of_mem _ hc),
      append_assoc]
    rfl

variable {name : Text}

theorem isNameByte_of_isName (h : isName name = true) : ∀ c ∈ name, isNameByte c = true := by
  cases name with
  | nil => exact absurd h Bool.false_ne_true
  | cons c name =>
    obtain ⟨hfirst, hrest⟩ := Bool.and_eq_true_iff.mp h
    have hc : isNameByte c = true := by
      simp only [isNameByte, isAlnum, oneOf, Bool.or_eq_true] at hfirst ⊢
      rcases hfirst with hfirst | hfirst
      · exact Or.inl (Or.inl hfirst)
      · refine Or.inr (contains_iff_mem.mpr ?_)
        have hmem := contains_iff_mem.mp hfirst
        exact (by decide : ∀ d ∈ text "_:", d ∈ text "._-:") c hmem
    exact forall_mem_cons.mpr ⟨hc, all_eq_true.mp hrest⟩

theorem ne_of_isName (h : isName name = true) :
    ∀ c ∈ name, c ≠ byte '<' ∧ c ≠ byte '>' := fun c hc =>
  ⟨ne_of_class (isNameByte_of_isName h c hc) (by decide),
    ne_of_class (isNameByte_of_isName h c hc) (by decide)⟩

theorem run_tag_whole (ht : ∀ c ∈ t, c ≠ byte '<' ∧ c ≠ byte '>') (brackets : Nat)
    (children : List Node) (parents : List (Text × List Node)) :
    run ⟨.content brackets, children, parents⟩ (byte '<' :: (t ++ [byte '>'])) =
      endTag t ⟨.tag t, children, parents⟩ := by
  have hstart : step ⟨.content brackets, children, parents⟩ (byte '<') =
      some ⟨.tag [], children, parents⟩ := rfl
  have hend : step ⟨.tag t, children, parents⟩ (byte '>') =
      endTag t ⟨.tag t, children, parents⟩ := rfl
  rw [run_cons, hstart, Option.bind_some, run_append, run_tag ht, Option.bind_some, run_cons,
    nil_append, hend]
  exact Option.bind_fun_some _

theorem run_startTag (h : isName name = true) (brackets : Nat)
    (children : List Node) (parents : List (Text × List Node)) :
    run ⟨.content brackets, children, parents⟩ (startTag name) =
      some ⟨.content 0, [], (name, children) :: parents⟩ := by
  have hslash : ∀ rest, name ≠ 47 :: rest := by
    rintro rest rfl
    exact absurd (isNameByte_of_isName h 47 mem_cons_self) (by decide)
  rw [startTag, append_assoc, singleton_append, run_tag_whole (ne_of_isName h), endTag,
    if_pos h]
  exact hslash

/-- A tag that closes ends the element it names, and no other. -/
theorem run_closeTag_eq {opened : Text} (h : isName name = true) (brackets : Nat)
    (children before : List Node) (parents : List (Text × List Node)) :
    run ⟨.content brackets, children, (opened, before) :: parents⟩ (closeTag name) =
      if opened = name then some ⟨.content 0, .element name children.reverse :: before, parents⟩
      else none := by
  have hmarks : ∀ c ∈ byte '/' :: name, c ≠ byte '<' ∧ c ≠ byte '>' :=
    forall_mem_cons.mpr ⟨by decide, ne_of_isName h⟩
  rw [closeTag, append_assoc]
  show run _ (byte '<' :: (byte '/' :: name ++ [byte '>'])) = _
  rw [run_tag_whole hmarks]
  rfl

theorem run_closeTag (h : isName name = true) (brackets : Nat)
    (children before : List Node) (parents : List (Text × List Node)) :
    run ⟨.content brackets, children, (name, before) :: parents⟩ (closeTag name) =
      some ⟨.content 0, .element name children.reverse :: before, parents⟩ :=
  (run_closeTag_eq h brackets children before parents).trans (if_pos rfl)

theorem run_closeTag_ne {opened : Text} (h : isName name = true) (hne : opened ≠ name)
    (brackets : Nat) (children before : List Node) (parents : List (Text × List Node)) :
    run ⟨.content brackets, children, (opened, before) :: parents⟩ (closeTag name) = none :=
  (run_closeTag_eq h brackets children before parents).trans (if_neg hne)

variable {piece : Text}

theorem Reads.element (h : Reads piece nodes) (name : Text) (hname : isName name = true) :
    Reads (startTag name ++ piece ++ closeTag name) [.element name (normal nodes)] := by
  intro brackets children parents
  obtain ⟨brackets', h⟩ := h 0 [] ((name, children) :: parents)
  refine ⟨0, ?_⟩
  rw [run_append, run_append, run_startTag hname, Option.bind_some, h, Option.bind_some,
    run_closeTag hname]
  rfl

theorem parse_of_reads (h : Reads piece nodes) : parse piece = some (normal nodes) := by
  obtain ⟨brackets', h⟩ := h 0 [] []
  rw [parse, h]
  rfl

/-! ## Character data -/

theorem addText_addText (a b : Text) (children : List Node) :
    addText b (addText a children) = addText (a ++ b) children := by
  rcases children with _ | ⟨_ | _, children⟩
  · by_cases ha : a = []
    · simp [addText, ha]
    · simp [addText, ha]
  · simp [addText]
  · by_cases ha : a = []
    · simp [addText, ha]
    · simp [addText, ha]

theorem addText_nil (children : List Node) : addText [] children = children := by
  rcases children with _ | ⟨_ | _, children⟩ <;> simp [addText]

theorem Reads.flatMap (write : Byte → Text) (h : ∀ c ∈ t, Reads (write c) [.text [c]]) :
    Reads (t.flatMap write) [.text t] := by
  induction t with
  | nil => exact fun brackets children _ => ⟨brackets, by simp [addNode, addText_nil]⟩
  | cons c t ih =>
    have hboth := (h c mem_cons_self).append (ih fun d hd => h d (mem_cons_of_mem _ hd))
    intro brackets children parents
    obtain ⟨brackets', hrun⟩ := hboth brackets children parents
    refine ⟨brackets', ?_⟩
    rw [flatMap_cons, hrun]
    simp [addNode, addText_addText]

theorem reads_of_isPlain {c : Byte} (hc : isPlain c = true) : Reads [c] [.text [c]] := by
  obtain ⟨hxml, hmark⟩ := Bool.and_eq_true_iff.mp hc
  have hne : ∀ d ∈ text "<>&", c ≠ d := by
    rintro d hd rfl
    have hin : oneOf "<>&" c = true := contains_iff_mem.mpr hd
    rw [hin] at hmark
    exact Bool.false_ne_true hmark
  intro brackets children parents
  refine ⟨if c = byte ']' then brackets + 1 else 0, ?_⟩
  rw [run_cons, step]
  simp only [if_neg (hne (byte '<') (by decide)), if_neg (hne (byte '&') (by decide)),
    if_neg fun h : c = byte '>' ∧ 2 ≤ brackets => hne (byte '>') (by decide) h.1, if_pos hxml]
  rfl

/-- Character data that is written as it is. -/
theorem Reads.plain {t : Text} (ht : ∀ c ∈ t, isPlain c = true) : Reads t [.text t] := by
  have h := Reads.flatMap (fun c => [c]) fun c hc => reads_of_isPlain (ht c hc)
  rwa [flatMap_singleton'] at h

theorem run_reference {r : Text} (hr : byte ';' ∉ r) (read : Text) (children : List Node)
    (parents : List (Text × List Node)) :
    run ⟨.reference read, children, parents⟩ r =
      some ⟨.reference (read ++ r), children, parents⟩ := by
  induction r generalizing read with
  | nil => simp
  | cons c r ih =>
    obtain ⟨hc, hr⟩ := ne_and_not_mem_of_not_mem_cons hr
    have hstep : step ⟨.reference read, children, parents⟩ c =
        some ⟨.reference (read ++ [c]), children, parents⟩ := by
      simp only [step, if_neg hc.symm]
    rw [run_cons, hstep, Option.bind_some, ih hr, append_assoc]
    rfl

theorem reads_reference {r : Text} {c : Byte} (hr : byte ';' ∉ r) (hc : decodeReference r = some c) :
    Reads (byte '&' :: (r ++ [byte ';'])) [.text [c]] := by
  intro brackets children parents
  have hstart : step ⟨.content brackets, children, parents⟩ (byte '&') =
      some ⟨.reference [], children, parents⟩ := rfl
  have hend : step ⟨.reference r, children, parents⟩ (byte ';') =
      some ⟨.content 0, addText [c] children, parents⟩ := by
    show (decodeReference r).map _ = _
    rw [hc]
    rfl
  refine ⟨0, ?_⟩
  rw [run_cons, hstart, Option.bind_some, run_append, run_reference hr, Option.bind_some,
    nil_append, run_cons, hend]
  rfl

/-- The reference that a byte is written with, if it is not written as it is. -/
def referenceOf (c : Byte) : Option Text :=
  if c = byte '"' then some (text "quot")
  else if c = byte '&' then some (text "amp")
  else if c = byte '\'' then some (text "apos")
  else if c = byte '<' then some (text "lt")
  else if c = byte '>' then some (text "gt")
  else if isXmlByte c then none
  else some (text "#x" ++ [byte (Nat.digitChar (c.toNat / 16)), byte (Nat.digitChar (c.toNat % 16))])

theorem referenceOf_spec : ∀ c : Byte,
    (referenceOf c = none → isPlain c = true) ∧
    (∀ r ∈ referenceOf c, byte ';' ∉ r ∧ decodeReference r = some c) := by
  decide +kernel

/-- One byte of character data. -/
def escapeByte (c : Byte) : Text :=
  match referenceOf c with
  | none => [c]
  | some r => byte '&' :: (r ++ [byte ';'])

/-- Character data. -/
def escape (t : Text) : Text := t.flatMap escapeByte

/-- **Character data** is read as it was given. -/
theorem Reads.escape (t : Text) : Reads (escape t) [.text t] := by
  refine Reads.flatMap _ fun c _ => ?_
  obtain ⟨hplain, href⟩ := referenceOf_spec c
  rw [escapeByte]
  cases hc : referenceOf c with
  | none => exact reads_of_isPlain (hplain hc)
  | some r =>
    obtain ⟨hr, hdecode⟩ := href r hc
    exact reads_reference hr hdecode

/-- Character data behind a number of brackets. -/
def isCharData : Nat → Text → Bool
  | _, [] => true
  | brackets, c :: t =>
    (c != byte '<' && c != byte '&' && !(c == byte '>' && decide (2 ≤ brackets)) && isXmlByte c) &&
      isCharData (if c = byte ']' then brackets + 1 else 0) t

theorem run_charData {brackets : Nat} (ht : isCharData brackets t = true)
    (children : List Node) (parents : List (Text × List Node)) :
    ∃ brackets', run ⟨.content brackets, children, parents⟩ t =
      some ⟨.content brackets', addText t children, parents⟩ := by
  induction t generalizing brackets children with
  | nil => exact ⟨brackets, by rw [addText_nil]; rfl⟩
  | cons c t ih =>
    simp only [isCharData, Bool.and_eq_true, bne_iff_ne, Bool.not_eq_true', Bool.and_eq_false_iff,
      beq_eq_false_iff_ne, decide_eq_false_iff_not] at ht
    obtain ⟨⟨⟨⟨hlt, hamp⟩, hgt⟩, hxml⟩, ht⟩ := ht
    have hgt' : ¬ (c = byte '>' ∧ 2 ≤ brackets) := by
      rintro ⟨hc, hle⟩
      exact hgt.elim (fun h => h hc) fun h => h hle
    have hstep : step ⟨.content brackets, children, parents⟩ c =
        some ⟨.content (if c = byte ']' then brackets + 1 else 0), addText [c] children, parents⟩ := by
      simp only [step, if_neg hlt, if_neg hamp, if_neg hgt', if_pos hxml]
    obtain ⟨brackets', hrun⟩ := ih ht (addText [c] children)
    refine ⟨brackets', ?_⟩
    rw [run_cons, hstep, Option.bind_some, hrun, addText_addText]
    rfl

theorem reads_charData_element (name : Text) (hname : isName name = true)
    (ht : isCharData 0 t = true) :
    Reads (startTag name ++ t ++ closeTag name) [.element name (normal [.text t])] := by
  intro brackets children parents
  obtain ⟨brackets', hrun⟩ := run_charData ht [] ((name, children) :: parents)
  refine ⟨0, ?_⟩
  rw [run_append, run_append, run_startTag hname, Option.bind_some, hrun, Option.bind_some,
    run_closeTag hname]
  rfl

/-! ## Pieces that cannot be read -/

/-- The piece cannot be read wherever it stands. -/
def Fails (piece : Text) : Prop :=
  ∀ brackets children parents, run ⟨.content brackets, children, parents⟩ piece = none

theorem Fails.append (ha : Fails a) (b : Text) : Fails (a ++ b) := by
  intro brackets children parents
  rw [run_append, ha]
  rfl

theorem Reads.append_fails (ha : Reads a nodes) (hb : Fails b) : Fails (a ++ b) := by
  intro brackets children parents
  obtain ⟨brackets', ha⟩ := ha brackets children parents
  rw [run_append, ha, Option.bind_some, hb]

theorem Fails.startTag (h : Fails piece) (name : Text) (hname : isName name = true) :
    Fails (startTag name ++ piece) := by
  intro brackets children parents
  rw [run_append, run_startTag hname, Option.bind_some, h]

theorem parse_of_fails (h : Fails piece) : parse piece = none := by
  rw [parse, h]

theorem run_not_charData {brackets : Nat} (ht : isCharData brackets t = false)
    (hlt : byte '<' ∉ t) (hamp : byte '&' ∉ t) (children : List Node)
    (parents : List (Text × List Node)) : run ⟨.content brackets, children, parents⟩ t = none := by
  induction t generalizing brackets children with
  | nil => exact absurd ht.symm Bool.false_ne_true
  | cons c t ih =>
    obtain ⟨hc, hlt⟩ := ne_and_not_mem_of_not_mem_cons hlt
    obtain ⟨hc', hamp⟩ := ne_and_not_mem_of_not_mem_cons hamp
    rw [run_cons, step]
    simp only [if_neg hc.symm, if_neg hc'.symm]
    by_cases hgt : c = byte '>' ∧ 2 ≤ brackets
    · rw [if_pos hgt]
      rfl
    · rw [if_neg hgt]
      by_cases hxml : isXmlByte c = true
      · rw [if_pos hxml, Option.bind_some]
        refine ih ?_ hlt hamp _
        have hhead : (c != byte '<' && c != byte '&' &&
            !(c == byte '>' && decide (2 ≤ brackets)) && isXmlByte c) = true := by
          simp only [Bool.and_eq_true, bne_iff_ne, hxml, and_true]
          refine ⟨⟨hc.symm, hc'.symm⟩, ?_⟩
          rw [Bool.not_eq_true', Bool.and_eq_false_iff, beq_eq_false_iff_ne, decide_eq_false_iff_not]
          exact not_and_or.mp hgt
        rw [isCharData, hhead, Bool.true_and] at ht
        exact ht
      · rw [if_neg hxml]
        rfl

theorem fails_startTag_of_not_charData (hname : isName name = true)
    (ht : isCharData 0 t = false) (hlt : byte '<' ∉ t) (hamp : byte '&' ∉ t) (rest : Text) :
    Fails (startTag name ++ (t ++ rest)) := by
  intro brackets children parents
  rw [run_append, run_startTag hname, Option.bind_some, run_append, run_not_charData ht hlt hamp]
  rfl

/-! ## Well formed content -/

/-- A piece in which every element is closed. -/
def Content (piece : Text) : Prop := ∃ nodes, Reads piece nodes

theorem Content.nil : Content [] := ⟨[], Reads.nil⟩

theorem Content.append : Content a → Content b → Content (a ++ b)
  | ⟨_, ha⟩, ⟨_, hb⟩ => ⟨_, ha.append hb⟩

theorem Content.element (h : Content piece) (name : Text)
    (hname : isName name = true) : Content (startTag name ++ piece ++ closeTag name) := by
  obtain ⟨_, h⟩ := h
  exact ⟨_, h.element name hname⟩

theorem Content.escape (t : Text) : Content (Xml.escape t) := ⟨_, Reads.escape t⟩

theorem Content.plain {t : Text} (ht : ∀ c ∈ t, isPlain c = true) : Content t :=
  ⟨_, Reads.plain ht⟩

theorem Content.flatMap {α : Type*} {write : α → Text} {xs : List α}
    (h : ∀ x ∈ xs, Content (write x)) : Content (xs.flatMap write) := by
  induction xs with
  | nil => exact Content.nil
  | cons x xs ih =>
    have hrest := ih fun y hy => h y (mem_cons_of_mem _ hy)
    exact (h x mem_cons_self).append hrest

theorem Content.parse_element (h : Content piece) (name : Text)
    (hname : isName name = true) (space : Byte) (hspace : isPlain space = true) :
    ∃ children, parse (startTag name ++ piece ++ closeTag name ++ [space]) =
      some [.element name children, .text [space]] := by
  obtain ⟨nodes, h⟩ := h
  have hwhole := (h.element name hname).append (reads_of_isPlain hspace)
  exact ⟨normal nodes, parse_of_reads hwhole⟩

end SipXRouter.Xml
