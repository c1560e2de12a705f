import SipXRouter.Utl.XmlContent

/-!
# Values of XML-RPC

`XmlRpcBody::addValue` appends the XML of a value to the body of a message, and
`XmlRpcBody::parseValue` makes a value from a `<value>` element.

## Design notes

The members of a struct stand in the order in which the iterator of the hash map gives
them.
-/

namespace SipXRouter.XmlRpc

open List
open Xml (Node)

/-! ## Numbers in C -/

/-- The digits at the start of a text, as a number. -/
def digitsAt (base : Nat) (isIn : Byte → Bool) (s : Text) : Nat := digitsValue base (s.takeWhile isIn)

/-- What `strtoll` reads behind the sign with a base of zero: hexadecimal digits behind `0x`, octal
ones behind another zero, and else decimal ones. -/
def anyBase : Text → Nat
  | 48 :: 120 :: c :: s => if isHex c then digitsAt 16 isHex (c :: s) else 0
  | 48 :: 88 :: c :: s => if isHex c then digitsAt 16 isHex (c :: s) else 0
  | 48 :: s => digitsAt 8 (inRange '0' '7') s
  | s => digitsAt 10 isDigit s

def atol (s : Text) : Int := (strtol s).1

def atoi (s : Text) : Int32 := Int32.ofInt (atol s)

/-- `strtoll` with a base of zero: white space, a sign, and digits. -/
def strtoll (s : Text) : Int :=
  match s.dropWhile isCSpace with
  | 45 :: s => saturate (-anyBase s)
  | 43 :: s => saturate (anyBase s)
  | s => saturate (anyBase s)

/-- `sprintf` into a local buffer; `none` is a write past its end. -/
def sprintf (size : Nat) (s : Text) : Option Text := if s.length < size then some s else none

/-- The format `%0#16llx`. -/
def hex16 (n : Nat) : Text :=
  if n = 0 then replicate 16 (byte '0')
  else
    let digits := (Nat.toDigits 16 n).map byte
    text "0x" ++ replicate (14 - digits.length) (byte '0') ++ digits

/-! ## Values -/

/-- A date and time, by the text that `getIsoTimeStringZ` prints. -/
structure IsoTime where
  text : Text
  isDigits : ∀ c ∈ text, (isDigit c || oneOf " -:.TZ" c) = true

/-- `UtlContainable`, as far as XML-RPC knows it. -/
inductive Value where
  | int (i : Int64)
  | longLong (n : Int64)
  | bool (b : Bool)
  | string (s : Text)
  | dateTime (t : IsoTime)
  | struct (members : List (Text × Value))
  | array (elements : List Value)

/-! ## The encoder -/

mutual

/-- `addValue`: what it returns and what it appends to the body.  `none` is a write past the end of
a local buffer. -/
def addValue : Value → Option (Bool × Text)
  | .int i =>
    (sprintf 20 (intText i.toInt)).map fun temp =>
      (true, text "<value><int>" ++ temp ++ text "</int></value>\n")
  | .longLong n =>
    (sprintf 19 (hex16 n.toUInt64.toNat)).map fun temp =>
      (true, text "<value><i8>" ++ temp ++ text "</i8></value>\n")
  | .bool b =>
    some (true, text "<value><boolean>" ++ text (if b then "1" else "0") ++
      text "</boolean></value>\n")
  | .string s =>
    some (true, text "<value><string>" ++ xmlEscape s ++ text "</string></value>\n")
  | .dateTime t =>
    some (true, text "<value><dateTime.iso8601>" ++ t.text ++ text "</dataTime.iso8601></value>\n")
  | .struct members =>
    (addMembers members).map fun r =>
      (r.1, text "<value><struct>\n" ++ r.2 ++ text "</struct></value>\n")
  | .array elements =>
    (addElements false elements).map fun r =>
      (r.1, text "<value><array><data>\n" ++ r.2 ++ text "</data></array></value>\n")

/-- The loop of `addArray`, with the value of `result` before it. -/
def addElements : Bool → List Value → Option (Bool × Text)
  | result, [] => some (result, [])
  | _, v :: elements =>
    match addValue v with
    | none => none
    | some (false, body) => some (false, body)
    | some (true, body) => (addElements true elements).map fun r => (r.1, body ++ r.2)

/-- The loop of `addStruct`. -/
def addMembers : List (Text × Value) → Option (Bool × Text)
  | [] => some (true, [])
  | (name, v) :: members =>
    match addValue v with
    | none => none
    | some (false, body) => some (false, member name body)
    | some (true, body) => (addMembers members).map fun r => (r.1, member name body ++ r.2)
where
  member (name body : Text) : Text :=
    text "<member>\n" ++ text "<name>" ++ name ++ text "</name>" ++ body ++ text "</member>\n"

end

/-! ## The decoder -/

/-- `TiXmlNode::Value`: the name of an element, or a text. -/
def nodeValue : Node → Text
  | .text t => t
  | .element name _ => name

/-- The children of a node. -/
def childNodes : Node → List Node
  | .text _ => []
  | .element _ children => children

/-- `FirstChild` with a name. -/
def firstChild (name : String) (n : Node) : Option Node :=
  (childNodes n).find? (nodeValue · == text name)

/-- `FirstChild` without a name, and its value. -/
def firstValue (n : Node) : Option Text := (childNodes n).head?.map nodeValue

/-- `FirstChild` and the `NextSibling`s with a name. -/
def childrenNamed (name : String) (n : Node) : List Node :=
  (childNodes n).filter (nodeValue · == text name)

/-- `MAX_VALUE_NESTING_DEPTH`. -/
def maxValueNestingDepth : Nat := 12

/-- The error of a value that is nested too deep. -/
def nestingError : Text := text "parameter nesting depth exceeds maximum allowed (12)"

/-- What a type node contains, or an error where it is empty. -/
def typeValue (name : String) (make : Text → Value) (typeNode : Node) : Except Text Value :=
  match firstValue typeNode with
  | some paramValue => .ok (make paramValue)
  | none => .error (text ("'" ++ name ++ "' element is empty"))

/-- A string, which may be empty. -/
def stringValue (n : Node) : Value := .string ((firstValue n).getD [])

/-- One member of a struct. -/
def parseMember (parse : Node → Except Text Value) (memberNode : Node) :
    Except Text (Text × Value) :=
  match firstChild "name" memberNode with
  | none => .error (text "'member' element does not have a 'name' child")
  | some memberName =>
    match firstValue memberName with
    | none => .error (text "'name' element is empty")
    | some name =>
      match firstChild "value" memberNode with
      | none => .error (text " 'member' element name '" ++ name ++ text "' does not have a value")
      | some memberValue =>
        match parse memberValue with
        | .ok value => .ok (name, value)
        | .error e => .error (e ++ text " in member '" ++ name ++ text "'")

/-- The loop of `parseStruct`.  `insertKeyAndValue` does not replace the value of a key. -/
def parseMembers (parse : Node → Except Text Value) :
    List (Text × Value) → List Node → Except Text (List (Text × Value))
  | returned, [] => .ok returned
  | returned, memberNode :: rest =>
    match parseMember parse memberNode with
    | .error e => .error e
    | .ok (name, value) =>
      if name ∈ returned.map Prod.fst then parseMembers parse returned rest
      else parseMembers parse (returned ++ [(name, value)]) rest

/-- The loop of `parseArray`. -/
def parseElements (parse : Node → Except Text Value) :
    List Value → List Node → Except Text (List Value)
  | list, [] => .ok list
  | list, valueNode :: rest =>
    match parse valueNode with
    | .error e => .error (e ++ text " in value " ++ natText list.length ++ text " of array")
    | .ok value => parseElements parse (list ++ [value]) rest

def parseArray (parse : Node → Except Text Value) (arrayNode : Node) : Except Text (List Value) :=
  match firstChild "data" arrayNode with
  | none => .error (text "'array' element does not have 'data' child")
  | some dataNode => parseElements parse [] (childrenNamed "value" dataNode)

/-- `parseValue`, with the number of levels that are left. -/
def parseValue : Nat → Node → Except Text Value
  | 0, _ => .error nestingError
  | left + 1, valueNode =>
    match firstChild "i4" valueNode with
    | some typeNode => typeValue "i4" (fun s => .int (Int64.ofInt (atoi s).toInt)) typeNode
    | none =>
    match firstChild "int" valueNode with
    | some typeNode => typeValue "int" (fun s => .int (Int64.ofInt (atol s))) typeNode
    | none =>
    match firstChild "i8" valueNode with
    | some typeNode => typeValue "i8" (fun s => .longLong (Int64.ofInt (strtoll s))) typeNode
    | none =>
    match firstChild "boolean" valueNode with
    | some typeNode => typeValue "boolean" (fun s => .bool (atoi s == 1)) typeNode
    | none =>
    match firstChild "string" valueNode with
    | some typeNode => .ok (stringValue typeNode)
    | none =>
    match firstChild "dateTime.iso8601" valueNode with
    | some typeNode => typeValue "dateTime.iso8601" .string typeNode
    | none =>
    match firstChild "struct" valueNode with
    | some typeNode =>
      match left with
      | 0 => .error (nestingError ++ text " in 'struct' element")
      | left + 1 =>
        match parseMembers (parseValue left) [] (childrenNamed "member" typeNode) with
        | .ok members => .ok (.struct members)
        | .error e => .error (e ++ text " in 'struct' element")
    | none =>
    match firstChild "array" valueNode with
    | some typeNode =>
      match left with
      | 0 => .error nestingError
      | left + 1 => (parseArray (parseValue left) typeNode).map .array
    | none => .ok (stringValue valueNode)

/-! ## Trees of values -/

variable {elements : List Value} {members : List (Text × Value)} {v : Value}

namespace Value

theorem tree_induction {P : Value → Prop} (int : ∀ i, P (.int i)) (longLong : ∀ n, P (.longLong n))
    (bool : ∀ b, P (.bool b)) (string : ∀ s, P (.string s)) (dateTime : ∀ t, P (.dateTime t))
    (struct : ∀ members, (∀ m ∈ members, P m.2) → P (.struct members))
    (array : ∀ elements, (∀ v ∈ elements, P v) → P (.array elements)) (v : Value) : P v := by
  refine @Value.rec P (fun ms => ∀ m ∈ ms, P m.2) (fun vs => ∀ v ∈ vs, P v) (fun m => P m.2)
    int longLong bool string dateTime struct array ?_ ?_ ?_ ?_ ?_ v
  · exact fun _ hm => absurd hm not_mem_nil
  · exact fun m ms hm hms => forall_mem_cons.mpr ⟨hm, hms⟩
  · exact fun _ hv => absurd hv not_mem_nil
  · exact fun v vs hv hvs => forall_mem_cons.mpr ⟨hv, hvs⟩
  · exact fun _ _ hv => hv

mutual

/-- A condition on every value in a value, and one on every member name. -/
def All (here : Value → Prop) (name : Text → Prop) : Value → Prop
  | .struct members => here (.struct members) ∧ AllMembers here name members
  | .array elements => here (.array elements) ∧ AllElements here name elements
  | .int i => here (.int i)
  | .longLong n => here (.longLong n)
  | .bool b => here (.bool b)
  | .string s => here (.string s)
  | .dateTime t => here (.dateTime t)

/-- The conditions on the members of a struct. -/
def AllMembers (here : Value → Prop) (name : Text → Prop) : List (Text × Value) → Prop
  | [] => True
  | (n, v) :: members => name n ∧ All here name v ∧ AllMembers here name members

/-- The conditions on the elements of an array. -/
def AllElements (here : Value → Prop) (name : Text → Prop) : List Value → Prop
  | [] => True
  | v :: elements => All here name v ∧ AllElements here name elements

end

section All

variable {here here' : Value → Prop} {name name' : Text → Prop}

theorem all_struct : All here name (.struct members) ↔
    here (.struct members) ∧ ∀ m ∈ members, name m.1 ∧ All here name m.2 := by
  have hmembers : ∀ ms : List (Text × Value),
      AllMembers here name ms ↔ ∀ m ∈ ms, name m.1 ∧ All here name m.2 := by
    intro ms
    induction ms with
    | nil => simp [AllMembers]
    | cons m ms ih => rw [AllMembers, ih, forall_mem_cons, and_assoc]
  rw [All, hmembers]

theorem all_array : All here name (.array elements) ↔
    here (.array elements) ∧ ∀ v ∈ elements, All here name v := by
  have helements : ∀ vs : List Value,
      AllElements here name vs ↔ ∀ v ∈ vs, All here name v := by
    intro vs
    induction vs with
    | nil => simp [AllElements]
    | cons v vs ih => rw [AllElements, ih, forall_mem_cons]
  rw [All, helements]

theorem All.and (h : All here name v) (h' : All here' name' v) :
    All (fun v => here v ∧ here' v) (fun n => name n ∧ name' n) v := by
  induction v using tree_induction with
  | struct members ih =>
    obtain ⟨h, hms⟩ := all_struct.mp h
    obtain ⟨h', hms'⟩ := all_struct.mp h'
    exact all_struct.mpr ⟨⟨h, h'⟩, fun m hm =>
      ⟨⟨(hms m hm).1, (hms' m hm).1⟩, ih m hm (hms m hm).2 (hms' m hm).2⟩⟩
  | array elements ih =>
    obtain ⟨h, hvs⟩ := all_array.mp h
    obtain ⟨h', hvs'⟩ := all_array.mp h'
    exact all_array.mpr ⟨⟨h, h'⟩, fun v hv => ih v hv (hvs v hv) (hvs' v hv)⟩
  | _ => exact ⟨h, h'⟩

theorem All.imp (h : All here name v) (hhere : ∀ v, here v → here' v)
    (hname : ∀ n, name n → name' n) : All here' name' v := by
  induction v using tree_induction with
  | struct members ih =>
    obtain ⟨h, hms⟩ := all_struct.mp h
    exact all_struct.mpr ⟨hhere _ h, fun m hm =>
      ⟨hname _ (hms m hm).1, ih m hm (hms m hm).2⟩⟩
  | array elements ih =>
    obtain ⟨h, hvs⟩ := all_array.mp h
    exact all_array.mpr ⟨hhere _ h, fun v hv => ih v hv (hvs v hv)⟩
  | _ => exact hhere _ h

end All

end Value

/-! ## What is written -/

mutual

/-- The XML of a value. -/
def body : Value → Text
  | .int i => text "<value><int>" ++ intText i.toInt ++ text "</int></value>\n"
  | .longLong n => text "<value><i8>" ++ hex16 n.toUInt64.toNat ++ text "</i8></value>\n"
  | .bool b =>
    text "<value><boolean>" ++ text (if b then "1" else "0") ++ text "</boolean></value>\n"
  | .string s => text "<value><string>" ++ xmlEscape s ++ text "</string></value>\n"
  | .dateTime t => text "<value><dateTime.iso8601>" ++ t.text ++ text "</dataTime.iso8601></value>\n"
  | .struct members => text "<value><struct>\n" ++ membersBody members ++ text "</struct></value>\n"
  | .array elements =>
    text "<value><array><data>\n" ++ elementsBody elements ++ text "</data></array></value>\n"

/-- The XML of members. -/
def membersBody : List (Text × Value) → Text
  | [] => []
  | (name, v) :: members => addMembers.member name (body v) ++ membersBody members

/-- The XML of elements. -/
def elementsBody : List Value → Text
  | [] => []
  | v :: elements => body v ++ elementsBody elements

end

/-- What a value needs in order to be written: a number that fits its buffer, and an element in an
array. -/
def Writable : Value → Prop
  | .int i => (intText i.toInt).length < 20
  | .array elements => elements ≠ []
  | _ => True

theorem length_hex16_lt {n : Nat} (hn : n < 2 ^ 64) : (hex16 n).length < 19 := by
  have hdigits : (Nat.toDigits 16 n).length ≤ 16 :=
    (Nat.length_toDigits_le_iff (by decide) (by decide)).mpr hn
  rw [hex16]
  split
  · decide
  · have htext : (text "0x").length = 2 := rfl
    simp only [length_append, length_replicate, length_map, htext]
    omega

theorem addMembers_cons {name : Text} {t : Text} :
    addMembers ((name, v) :: members) = some (true, t) ↔
      ∃ b, addValue v = some (true, b) ∧ ∃ b', addMembers members = some (true, b') ∧
        addMembers.member name b ++ b' = t := by
  rw [addMembers]
  rcases addValue v with _ | ⟨_ | _, b⟩
  · simp
  · simp
  · simp [Option.map_eq_some_iff]

theorem addElements_cons {result : Bool} {t : Text} :
    addElements result (v :: elements) = some (true, t) ↔
      ∃ b, addValue v = some (true, b) ∧ ∃ b', addElements true elements = some (true, b') ∧
        b ++ b' = t := by
  rw [addElements]
  rcases addValue v with _ | ⟨_ | _, b⟩
  · simp
  · simp
  · simp [Option.map_eq_some_iff]

/-- A value is written as its body if and only if all in it can be written. -/
def Written (v : Value) : Prop :=
  ∀ t, addValue v = some (true, t) ↔ v.All Writable (fun _ => True) ∧ body v = t

theorem addMembers_eq_some_iff (h : ∀ m ∈ members, Written m.2)
    (t : Text) : addMembers members = some (true, t) ↔
      (∀ m ∈ members, True ∧ m.2.All Writable fun _ => True) ∧ membersBody members = t := by
  induction members generalizing t with
  | nil => simp [addMembers, membersBody]
  | cons m members ih =>
    obtain ⟨name, v⟩ := m
    have hv := h (name, v) mem_cons_self
    have hms := ih fun m hm => h m (mem_cons_of_mem _ hm)
    rw [addMembers_cons, forall_mem_cons, membersBody]
    constructor
    · rintro ⟨b, hb, b', hb', rfl⟩
      obtain ⟨hall, rfl⟩ := (hv b).mp hb
      obtain ⟨hall', rfl⟩ := (hms b').mp hb'
      exact ⟨⟨⟨trivial, hall⟩, hall'⟩, rfl⟩
    · rintro ⟨⟨⟨-, hall⟩, hall'⟩, rfl⟩
      exact ⟨body v, (hv _).mpr ⟨hall, rfl⟩, membersBody members, (hms _).mpr ⟨hall', rfl⟩, rfl⟩

theorem addElements_eq_some_iff (h : ∀ v ∈ elements, Written v) (t : Text) :
    addElements true elements = some (true, t) ↔
      (∀ v ∈ elements, v.All Writable fun _ => True) ∧ elementsBody elements = t := by
  induction elements generalizing t with
  | nil => simp [addElements, elementsBody]
  | cons v elements ih =>
    have hv := h v mem_cons_self
    have hvs := ih fun v hv => h v (mem_cons_of_mem _ hv)
    rw [addElements_cons, forall_mem_cons, elementsBody]
    constructor
    · rintro ⟨b, hb, b', hb', rfl⟩
      obtain ⟨hall, rfl⟩ := (hv b).mp hb
      obtain ⟨hall', rfl⟩ := (hvs b').mp hb'
      exact ⟨⟨hall, hall'⟩, rfl⟩
    · rintro ⟨⟨hall, hall'⟩, rfl⟩
      exact ⟨body v, (hv _).mpr ⟨hall, rfl⟩, elementsBody elements, (hvs _).mpr ⟨hall', rfl⟩, rfl⟩

/-- **The encoder succeeds** exactly on values with numbers that fit and without empty arrays. -/
theorem written (v : Value) : Written v := by
  induction v using Value.tree_induction with
  | int i =>
    intro t
    rw [addValue, sprintf, Value.All, Writable]
    split
    · simp_all [body]
    · simp_all
  | longLong n =>
    intro t
    rw [addValue, sprintf, if_pos (length_hex16_lt n.toUInt64.toNat_lt)]
    simp [Value.All, Writable, body]
  | bool b => simp [Written, addValue, Value.All, Writable, body]
  | string s => simp [Written, addValue, Value.All, Writable, body]
  | dateTime t => simp [Written, addValue, Value.All, Writable, body]
  | struct members ih =>
    intro t
    rw [Value.all_struct, body, addValue]
    simp only [Option.map_eq_some_iff, Prod.mk.injEq, Prod.exists, Writable, true_and]
    constructor
    · rintro ⟨r, b, hb, rfl, rfl⟩
      obtain ⟨hall, rfl⟩ := (addMembers_eq_some_iff ih b).mp hb
      exact ⟨by simpa using hall, rfl⟩
    · rintro ⟨hall, rfl⟩
      exact ⟨true, _, (addMembers_eq_some_iff ih _).mpr ⟨by simpa using hall, rfl⟩, rfl, rfl⟩
  | array elements ih =>
    intro t
    rw [Value.all_array, body, addValue]
    simp only [Option.map_eq_some_iff, Prod.mk.injEq, Prod.exists, Writable]
    cases elements with
    | nil => simp [addElements]
    | cons v elements =>
      have hstart : addElements false (v :: elements) = addElements true (v :: elements) := by
        rw [addElements, addElements]
      rw [hstart]
      constructor
      · rintro ⟨r, b, hb, rfl, rfl⟩
        obtain ⟨hall, rfl⟩ := (addElements_eq_some_iff ih b).mp hb
        exact ⟨⟨cons_ne_nil _ _, hall⟩, rfl⟩
      · rintro ⟨⟨-, hall⟩, rfl⟩
        exact ⟨true, _, (addElements_eq_some_iff ih _).mpr ⟨hall, rfl⟩, rfl, rfl⟩

end SipXRouter.XmlRpc
