import SipXRouter.Layout
import SipXRouter.Net.Url

/-!
# SIP messages

Reading and writing the multi-valued headers of a SIP message.  A header that
may occur several times, each time with a comma separated list of values, is
read through one flat index (`getFieldSubfield`, `getContactEntry`) and written
through the index of a whole header (`HttpMessage.setHeaderValue`).
-/

namespace SipXRouter

open List

abbrev SipMessage := HttpMessage

namespace SipMessage

open NameValueTokenizer HttpMessage

/-- `SIP_ROUTE_FIELD`. -/
def routeField : Text := text "ROUTE"

/-- `SIP_RECORD_ROUTE_FIELD`. -/
def recordRouteField : Text := text "RECORD-ROUTE"

/-- `SIP_CONTACT_FIELD`. -/
def contactField : Text := text "CONTACT"

/-- `SIP_MULTIFIELD_SEPARATOR`. -/
def isComma (c : Byte) : Bool := c == byte ','

/-! ## Subfields -/

/-- The inner loop of `getFieldSubfield`: go through the subfields of one header
while `left` more are to be passed over.  What is still to be passed over comes
back with the subfield last read. -/
def scanSubfields (value : Text) : (left subFieldIndex : Nat) → (url : Text) → Nat × Text
  | 0, _, url => (0, url)
  | left + 1, subFieldIndex, url =>
    if url = [] then (left + 1, url)
    else
      scanSubfields value left (subFieldIndex + 1)
        (getSubField value (subFieldIndex + 1) isComma url)

/-- The outer loop of `getFieldSubfield`, over the headers of the field.  It ends
at the first header without a value. -/
def scanHeaders : (values : List Text) → (left : Nat) → (url : Text) → Option Text
  | [], _, _ => none
  | value :: values, left, url =>
    if value = [] then none
    else
      let found := scanSubfields value left 0 (getSubField value 0 isComma url)
      if found.1 = 0 ∧ found.2 ≠ [] then some found.2
      else scanHeaders values found.1 found.2

/-- The subfield with a number, counted over all headers of the field. -/
def getFieldSubfield (m : SipMessage) (field : Text) (addressIndex : Nat) : Option Text :=
  scanHeaders (m.headerValues field) addressIndex []

/-- The subfields of one header: none of a header over the length limit. -/
def subfields (value : Text) : List Text :=
  if value.length ≤ maxFieldLength then segments isComma value else []

/-- A text that is read as one value: it is not empty, holds no comma and keeps to
the length limit. -/
structure OneValue (t : Text) : Prop where
  ne_nil : t ≠ []
  no_comma : ∀ c ∈ t, isComma c = false
  length_le : t.length ≤ maxFieldLength

instance (t : Text) : Decidable (OneValue t) :=
  decidable_of_iff (t ≠ [] ∧ (∀ c ∈ t, isComma c = false) ∧ t.length ≤ maxFieldLength)
    ⟨fun h => ⟨h.1, h.2.1, h.2.2⟩, fun h => ⟨h.1, h.2, h.3⟩⟩

theorem OneValue.subfields_eq {t : Text} (h : OneValue t) : subfields t = [t] := by
  rw [subfields, if_pos h.length_le]
  exact segments_eq_singleton h.ne_nil h.no_comma

/-- The subfields of a list of headers, up to the first one without a value. -/
def flatSubfields (values : List Text) : List Text :=
  (values.takeWhile (· ≠ [])).flatMap subfields

/-- The subfields of a field, over all its headers. -/
def fieldSubfields (m : SipMessage) (field : Text) : List Text :=
  flatSubfields (m.headerValues field)

theorem mem_subfields {value sub : Text} (h : sub ∈ subfields value) :
    sub ≠ [] ∧ ∀ c ∈ sub, isComma c = false := by
  rw [subfields] at h
  split at h
  · exact mem_segments h
  · simp at h

theorem mem_fieldSubfields {m : SipMessage} {field sub : Text}
    (h : sub ∈ fieldSubfields m field) : sub ≠ [] ∧ ∀ c ∈ sub, isComma c = false := by
  obtain ⟨value, -, hsub⟩ := mem_flatMap.mp h
  exact mem_subfields hsub

/-- Each read of a subfield of one header delivers the entry of `subfields`. -/
theorem getSubField_eq_subfields (value : Text) (index : Nat) (old : Text)
    (hold : value.length ≤ maxFieldLength ∨ old = []) :
    getSubField value index isComma old = (subfields value)[index]?.getD [] := by
  by_cases hlen : value.length ≤ maxFieldLength
  · rw [getSubField_eq hlen, subfields, if_pos hlen]
  · rcases hold with h | rfl
    · exact absurd h hlen
    · rw [getSubField_of_long (Nat.not_le.mp hlen), subfields, if_neg hlen]
      rfl

/-- The inner loop stops at the entry looked for, or behind the last one. -/
theorem scanSubfields_eq (value : Text) :
    ∀ (left index : Nat), index ≤ (subfields value).length →
      scanSubfields value left index ((subfields value)[index]?.getD []) =
        if index + left < (subfields value).length then
          (0, (subfields value)[index + left]?.getD [])
        else (index + left - (subfields value).length, []) := by
  intro left
  induction left with
  | zero =>
    intro index hindex
    by_cases hlt : index < (subfields value).length
    · simp [scanSubfields, hlt]
    · have heq : index = (subfields value).length := Nat.le_antisymm hindex (Nat.not_lt.mp hlt)
      simp [scanSubfields, heq]
  | succ left ih =>
    intro index hindex
    by_cases hlt : index < (subfields value).length
    · have hne : (subfields value)[index] ≠ [] :=
        (mem_subfields (getElem_mem hlt)).1
      have hlen : value.length ≤ maxFieldLength := by
        by_contra hlong
        simp [subfields, hlong] at hlt
      have hstep := ih (index + 1) hlt
      rw [getElem?_eq_getElem hlt, Option.getD_some, scanSubfields, if_neg hne,
        getSubField_eq_subfields _ _ _ (Or.inl hlen), hstep]
      simp only [Nat.add_right_comm index 1 left, Nat.add_assoc]
    · have heq : index = (subfields value).length := Nat.le_antisymm hindex (Nat.not_lt.mp hlt)
      simp [scanSubfields, heq]

theorem scanHeaders_eq : ∀ (values : List Text) (left : Nat),
    scanHeaders values left [] = (flatSubfields values)[left]? := by
  intro values
  induction values with
  | nil => intro left; simp [scanHeaders, flatSubfields]
  | cons value values ih =>
    intro left
    by_cases hnil : value = []
    · simp [scanHeaders, flatSubfields, hnil]
    have hflat : flatSubfields (value :: values) = subfields value ++ flatSubfields values := by
      simp [flatSubfields, hnil]
    have hscan := scanSubfields_eq value left 0 (Nat.zero_le _)
    rw [← getSubField_eq_subfields value 0 [] (Or.inr rfl), Nat.zero_add] at hscan
    rw [hflat, scanHeaders, if_neg hnil]
    simp only [hscan]
    by_cases hlt : left < (subfields value).length
    · have hne : (subfields value)[left] ≠ [] := (mem_subfields (getElem_mem hlt)).1
      simp [hlt, hne, getElem?_append_left]
    · simp [hlt, ih, getElem?_append_right (Nat.not_lt.mp hlt)]

/-- The flat index of `getFieldSubfield` runs over the subfields of all headers
of the field. -/
theorem getFieldSubfield_eq (m : SipMessage) (field : Text) (index : Nat) :
    getFieldSubfield m field index = (fieldSubfields m field)[index]? :=
  scanHeaders_eq _ _

/-! ## Route -/

/-- The Route value with a number; a blank one counts as none. -/
def getRouteUri (m : SipMessage) (index : Nat) : Option Text :=
  match getFieldSubfield m routeField index with
  | none => none
  | some value => if trim isBlank value = [] then none else some (trim isBlank value)

/-- A value without an angle bracket is put in brackets. -/
def bracketed (value : Text) : Text :=
  if value.contains (byte '<') then value else byte '<' :: value ++ [byte '>']

/-- Values joined by commas. -/
def joined : List Text → Text
  | [] => []
  | [value] => value
  | value :: values => value ++ byte ',' :: joined values

/-- `removeRouteUri`: all other values go into one new header at the top. -/
def removeRouteUri (m : SipMessage) (index : Nat) : SipMessage :=
  let newRouteField := joined (((fieldSubfields m routeField).eraseIdx index).map bracketed)
  let m := m.removeHeaders routeField
  if newRouteField = [] then m else m.insertHeaderField routeField newRouteField

/-! ## Rows of values -/

/-- The headers of a field that are read: those before the first one without a value. -/
def liveValues (m : SipMessage) (field : Text) : List Text :=
  (m.headerValues field).takeWhile (· ≠ [])

/-- The values of a field, one row for each header. -/
def fieldRows (read : Text → List Text) (m : SipMessage) (field : Text) : List (List Text) :=
  (m.liveValues field).map read

theorem fieldSubfields_eq_flatten (m : SipMessage) (field : Text) :
    fieldSubfields m field = (fieldRows subfields m field).flatten :=
  flatMap_def

theorem takeWhile_set {p : Text → Bool} {t : Text} (ht : p t = true) :
    ∀ {values : List Text} {q : Nat}, q < (values.takeWhile p).length →
      (values.set q t).takeWhile p = (values.takeWhile p).set q t := by
  intro values
  induction values with
  | nil => intro q hq; simp at hq
  | cons value values ih =>
    intro q hq
    by_cases hvalue : p value = true
    · rw [takeWhile_cons_of_pos hvalue] at hq ⊢
      cases q with
      | zero => simp [ht]
      | succ q =>
        have hrec := ih (by simpa using hq : q < (values.takeWhile p).length)
        simp [hvalue, hrec]
    · simp [hvalue] at hq

theorem fieldRows_setHeaderValue {read : Text → List Text} {m : SipMessage} {field t : Text}
    {q : Nat} (hq : q < (fieldRows read m field).length) (ht : t ≠ []) (hread : read t = [t]) :
    fieldRows read (m.setHeaderValue field t q) field =
      Layout.putRow (fieldRows read m field) q t := by
  have hlive : q < (m.liveValues field).length := by simpa [fieldRows] using hq
  have hlen : q < (m.headerValues field).length :=
    Nat.lt_of_lt_of_le hlive (List.takeWhile_prefix _).length_le
  have hset : liveValues (m.setHeaderValue field t q) field = (m.liveValues field).set q t := by
    rw [liveValues, headerValues_setHeaderValue, if_pos hlen]
    exact takeWhile_set (by simpa using ht) hlive
  rw [fieldRows, hset, map_set, hread, Layout.putRow, if_pos hq]
  rfl

/-- Write the header whose number is that of a value, with a function of that value. -/
def rewriteField (read : Text → List Text) (field : Text) (f : Option Text → Text)
    (m : SipMessage) (q : Nat) : SipMessage :=
  m.setHeaderValue field (f (fieldRows read m field).flatten[q]?) q

/-- Rewriting places one after the other is rewriting them all at once. -/
theorem fieldRows_foldl_rewriteField {read : Text → List Text} {field : Text}
    {f : Option Text → Text} : ∀ {places : List Nat} {m : SipMessage}, places.Nodup →
      (∀ q ∈ places, Layout.AlignedAt (fieldRows read m field) q) →
      (∀ q ∈ places, ∀ x, (fieldRows read m field).flatten[q]? = some x →
        f (some x) ≠ [] ∧ read (f (some x)) = [f (some x)]) →
      fieldRows read (places.foldl (rewriteField read field f) m) field =
        Layout.rewriteAll f places (fieldRows read m field) := by
  intro places
  induction places with
  | nil => intro m _ _ _; rfl
  | cons q places ih =>
    intro m hnodup haligned hone
    obtain ⟨hq, hnodup⟩ := nodup_cons.mp hnodup
    obtain ⟨hhead, htail⟩ := forall_mem_cons.mp haligned
    obtain ⟨x, -, hx⟩ := hhead.getElem?
    obtain ⟨hne, hread⟩ := hone q (by simp) x hx
    have hstep : fieldRows read (rewriteField read field f m q) field =
        Layout.putRow (fieldRows read m field) q (f (some x)) := by
      rw [rewriteField, hx]
      exact fieldRows_setHeaderValue hhead.lt_length hne hread
    rw [foldl_cons, ih hnodup, hstep, Layout.rewriteAll, Layout.rewriteAll,
      foldl_cons, hx]
    · intro r hr
      rw [hstep]
      exact (Layout.alignedAt_putRow hhead _ r).mpr (htail r hr)
    · intro r hr y hy
      -- the value at another place is the one that stood there before
      have hne : q ≠ r := by
        rintro rfl
        exact hq hr
      rw [hstep, Layout.flatten_putRow hhead, getElem?_set_ne hne] at hy
      exact hone r (by simp [hr]) y hy

/-! ## Record-Route -/

/-- `getRecordRouteUri`: the text it delivers, which is empty where there is no value. -/
def getRecordRouteUri (m : SipMessage) (index : Nat) : Text :=
  trim isBlank ((getFieldSubfield m recordRouteField index).getD [])

def setRecordRouteField (m : SipMessage) (recordRoute : Text) (index : Nat) : SipMessage :=
  m.setHeaderValue recordRouteField recordRoute index

/-- Put a pair before the first one of its name, or at the top. -/
def insertBefore (nv : Text × Text) (nvs : List (Text × Text)) : List (Text × Text) :=
  match nvs.findIdx? (·.1 == nv.1) with
  | none => nv :: nvs
  | some index => nvs.insertIdx index nv

/-- A value is put in front of the first Record-Route header. -/
def addRecordRouteUri (m : SipMessage) (recordRouteUri : Text) : SipMessage :=
  { m with
    nameValues := insertBefore (recordRouteField, bracketed recordRouteUri) m.nameValues }

theorem filter_insertBefore (nv : Text × Text) (nvs : List (Text × Text)) :
    (insertBefore nv nvs).filter (·.1 == nv.1) = nv :: nvs.filter (·.1 == nv.1) := by
  unfold insertBefore
  cases hfind : nvs.findIdx? (·.1 == nv.1) with
  | none => simp
  | some index =>
    -- no pair of that name stands before the place
    simp only
    induction nvs generalizing index with
    | nil => simp at hfind
    | cons x xs ih =>
      rw [findIdx?_cons] at hfind
      by_cases hx : (x.1 == nv.1) = true
      · simp only [hx, if_true, Option.some.injEq] at hfind
        subst hfind
        simp
      · simp only [hx, Bool.false_eq_true, if_false, Option.map_eq_some_iff] at hfind
        obtain ⟨k, hk, rfl⟩ := hfind
        have hrec := ih k hk
        simp [hx, hrec]

/-- The pairs of other names stay. -/
theorem filter_insertBefore_of_ne {nv : Text × Text} {other : Text} (hne : nv.1 ≠ other)
    (nvs : List (Text × Text)) :
    (insertBefore nv nvs).filter (·.1 == other) = nvs.filter (·.1 == other) := by
  have hother : ¬ (nv.1 == other) = true := by simpa using hne
  unfold insertBefore
  cases nvs.findIdx? (·.1 == nv.1) with
  | none => exact filter_cons_of_neg hother
  | some index =>
    show (nvs.insertIdx index nv).filter _ = _
    induction nvs generalizing index with
    | nil =>
      cases index with
      | zero => exact filter_cons_of_neg hother
      | succ index => rfl
    | cons x xs ih =>
      cases index with
      | zero => exact filter_cons_of_neg hother
      | succ index =>
        rw [insertIdx_succ_cons, filter_cons, filter_cons, ih index]

theorem headerValues_addRecordRouteUri (m : SipMessage) (recordRouteUri : Text) :
    (addRecordRouteUri m recordRouteUri).headerValues recordRouteField =
      bracketed recordRouteUri :: m.headerValues recordRouteField := by
  have h := filter_insertBefore (recordRouteField, bracketed recordRouteUri) m.nameValues
  rw [headerValues, headerValues, addRecordRouteUri, h, map_cons]

theorem headerValues_addRecordRouteUri_of_ne (m : SipMessage) {other : Text}
    (hne : recordRouteField ≠ other) (recordRouteUri : Text) :
    (addRecordRouteUri m recordRouteUri).headerValues other = m.headerValues other := by
  unfold headerValues addRecordRouteUri
  rw [filter_insertBefore_of_ne hne]

/-! ## Contact -/

/-- The scan of `getContactEntry` through one header, while `left` more entries are to
be passed over.  A comma counts where the number of quotes before it is even, and so
does the end.  Without success, what is left to be passed over comes back. -/
def scanContact : (left : Nat) → (inQuotes : Bool) → (entry : Text) → Text → Except Nat Text
  | left, inQuotes, entry, [] =>
    if inQuotes then .error left
    else
      match left with
      | 0 => .ok entry
      | left + 1 => .error left
  | left, inQuotes, entry, c :: cs =>
    let inQuotes := if c = byte '"' then !inQuotes else inQuotes
    if isComma c ∧ inQuotes = false then
      match left with
      | 0 => .ok entry
      | left + 1 => scanContact left inQuotes [] cs
    else scanContact left inQuotes (entry ++ [c]) cs

/-- The loop of `getContactEntry` over the headers. -/
def scanContacts : List Text → (left : Nat) → Option Text
  | [], _ => none
  | value :: values, left =>
    if value = [] then none
    else
      match scanContact left false [] value with
      | .ok entry => some entry
      | .error left => scanContacts values left

def getContactEntry (m : SipMessage) (addressIndex : Nat) : Option Text :=
  scanContacts (m.headerValues contactField) addressIndex

def setContactField (m : SipMessage) (contact : Text) (index : Nat) : SipMessage :=
  m.setHeaderValue contactField contact index

/-- The entries of one header, from a place in it. -/
def contactEntriesAux : (inQuotes : Bool) → (entry : Text) → Text → List Text
  | inQuotes, entry, [] => if inQuotes then [] else [entry]
  | inQuotes, entry, c :: cs =>
    let inQuotes := if c = byte '"' then !inQuotes else inQuotes
    if isComma c ∧ inQuotes = false then entry :: contactEntriesAux inQuotes [] cs
    else contactEntriesAux inQuotes (entry ++ [c]) cs

/-- The entries of one header. -/
def contactEntries (value : Text) : List Text := contactEntriesAux false [] value

/-- The scan for a contact answers with the entry of its number. -/
theorem scanContact_eq :
    ∀ (value : Text) (left : Nat) (inQuotes : Bool) (entry : Text),
      scanContact left inQuotes entry value =
        match (contactEntriesAux inQuotes entry value)[left]? with
        | some e => .ok e
        | none => .error (left - (contactEntriesAux inQuotes entry value).length) := by
  intro value
  induction value with
  | nil =>
    intro left inQuotes entry
    cases inQuotes <;> cases left <;> simp [scanContact, contactEntriesAux]
  | cons c cs ih =>
    intro left inQuotes entry
    simp only [scanContact, contactEntriesAux]
    generalize (if c = byte '"' then !inQuotes else inQuotes) = quoted
    by_cases hcomma : isComma c = true ∧ quoted = false
    · cases left with
      | zero => simp [hcomma]
      | succ left => simp [hcomma, ih]
    · rw [if_neg hcomma, if_neg hcomma]
      exact ih _ _ _

/-- The flat index of `getContactEntry` runs over the entries of all headers. -/
theorem getContactEntry_eq (m : SipMessage) (index : Nat) :
    getContactEntry m index = (fieldRows contactEntries m contactField).flatten[index]? := by
  unfold getContactEntry fieldRows liveValues
  generalize m.headerValues contactField = values
  induction values generalizing index with
  | nil => simp [scanContacts]
  | cons value values ih =>
    by_cases hnil : value = []
    · simp [scanContacts, hnil]
    rw [scanContacts, if_neg hnil, scanContact_eq,
      takeWhile_cons_of_pos (by simpa using hnil), map_cons, flatten_cons,
      contactEntries]
    by_cases hlt : index < (contactEntriesAux false [] value).length
    · rw [getElem?_eq_getElem hlt, getElem?_append_left hlt]
      exact (getElem?_eq_getElem hlt).symm
    · have hle := Nat.not_lt.mp hlt
      rw [getElem?_eq_none hle, getElem?_append_right hle]
      exact ih _

end SipMessage

end SipXRouter
