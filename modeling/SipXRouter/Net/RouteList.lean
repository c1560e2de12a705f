import SipXRouter.Net.TargetUriHeaderParams
import SipXRouter.Net.UrlParams
import SipXRouter.Net.ViaField

/-!
# Routes and Vias as lists

A Route or Via header holds a list of values between commas, and a message holds a list of such
headers.  Seen as one list of values, `addRouteUri`, `removeRouteUri` and `removeTopVia` change
its front or one place of it, however the values are distributed over headers.

## Design notes

A value holds no comma, neither in quotes nor in brackets: the operations on these headers take
every comma for a separator.
-/

namespace SipXRouter

open List

variable {value : Text} {values : List Text}

namespace SipMessage

open NameValueTokenizer HttpMessage

/-! ## Vias -/

/-- `addViaField`: in front of the other Via headers, or at the end. -/
def addViaField (m : SipMessage) (via : Text) : SipMessage :=
  { m with
    nameValues :=
      match m.nameValues.findIdx? (·.1 == viaField) with
      | none => m.nameValues ++ [(viaField, via)]
      | some fieldIndex => m.nameValues.insertIdx fieldIndex (viaField, via) }

/-- What `removeTopVia` leaves of the first Via header: what stands behind the first comma,
without spaces around. -/
def newViaHeader (value : Text) : Text :=
  trim (· == byte ' ') ((value.dropWhile fun c => !isComma c).drop 1)

/-- `removeTopVia`: whether there was a Via header, and the message. -/
def removeTopVia (m : SipMessage) : Bool × SipMessage :=
  let newVia := newViaHeader ((m.getHeaderValue 0 viaField).getD [])
  let removed := m.removeHeader viaField
  (m.headerValues viaField != [], if newVia = [] then removed else removed.addViaField newVia)

/-! ## Routes -/

/-- What `removeRouteUri` hands out. -/
def removedRouteUri (m : SipMessage) (index : Nat) : Option Text :=
  getFieldSubfield m routeField index

/-- A route as `addRouteUri` writes it: each bracket is added where there is none. -/
def angled (routeUri : Text) : Text :=
  (if routeUri.contains (byte '<') then [] else [byte '<']) ++ routeUri ++
    (if routeUri.contains (byte '>') then [] else [byte '>'])

/-! ## Rows of values -/

/-- A value in a header: no commas, and not only blanks. -/
structure IsListed (value : Text) : Prop where
  plain : ∀ c ∈ value, isComma c = false ∧ c ≠ 0
  visible : ∃ c ∈ value, isBlank c = false

/-- The values that a header can hold. -/
structure IsValueList (values : List Text) : Prop where
  ne_nil : values ≠ []
  listed : ∀ value ∈ values, IsListed value
  length_le : (joined values).length ≤ maxFieldLength

/-- The headers of a field, each with its values. -/
structure HasRows (m : SipMessage) (field : Text) (rows : List (List Text)) : Prop where
  headers : m.headerValues field = rows.map joined
  lists : ∀ row ∈ rows, IsValueList row

/-- **The list of values of a field**: those of its headers one after another, each header with
at least one. -/
def Holds (m : SipMessage) (field : Text) (values : List Text) : Prop :=
  ∃ rows, HasRows m field rows ∧ rows.flatten = values

theorem IsListed.ne_nil (h : IsListed value) : value ≠ [] := by
  rintro rfl
  obtain ⟨c, hc, -⟩ := h.visible
  exact absurd hc not_mem_nil

theorem IsListed.trim_ne_nil (h : IsListed value) : trim isBlank value ≠ [] := by
  obtain ⟨c, hc, hblank⟩ := h.visible
  exact ne_nil_of_mem (mem_trim hc hblank)

theorem joined_ne_nil (hne : values ≠ [])
    (h : ∀ value ∈ values, IsListed value) : joined values ≠ [] := by
  obtain ⟨value, values, rfl⟩ := exists_cons_of_ne_nil hne
  intro hnil
  have hlength := length_joined (cons_ne_nil value values)
  have hpos := length_pos_of_ne_nil (h value mem_cons_self).ne_nil
  rw [hnil, length_nil, spread_cons] at hlength
  omega

theorem subfields_joined (h : IsValueList values) : subfields (joined values) = values := by
  rw [subfields, if_pos h.length_le,
    segments_joined values fun value hvalue c hc => ((h.listed value hvalue).plain c hc).1]
  exact filter_eq_self.mpr fun value hvalue => by simpa using (h.listed value hvalue).ne_nil

/-- **All values of a field are read**, row by row. -/
theorem fieldSubfields_of_hasRows {m : SipMessage} {field : Text} {rows : List (List Text)}
    (h : HasRows m field rows) : fieldSubfields m field = rows.flatten := by
  have hlists := h.lists
  rw [fieldSubfields, h.headers]
  clear h
  induction rows with
  | nil => rfl
  | cons row rows ih =>
    obtain ⟨hrow, hrest⟩ := forall_mem_cons.mp hlists
    have hne := joined_ne_nil hrow.ne_nil hrow.listed
    have hrec := ih hrest
    rw [flatSubfields] at hrec ⊢
    rw [map_cons, takeWhile_cons_of_pos (by simpa using hne), flatMap_cons, hrec,
      subfields_joined hrow, flatten_cons]

/-! ## Reading and removing routes -/

theorem length_bracketed (value : Text) : value.length ≤ (bracketed value).length := by
  rw [bracketed]
  split
  · exact Nat.le_refl _
  · rw [length_append, length_cons]
    omega

theorem IsListed.bracketed (h : IsListed value) : IsListed (SipMessage.bracketed value) := by
  obtain ⟨c, hc, hblank⟩ := h.visible
  rw [SipMessage.bracketed]
  split
  · exact h
  · refine ⟨fun d hd => ?_, c, by simp [hc], hblank⟩
    rcases mem_append.mp hd with hd | hd
    · rcases mem_cons.mp hd with rfl | hd
      · decide
      · exact h.plain d hd
    · rw [mem_singleton.mp hd]
      decide

theorem spread_map_bracketed_le : ∀ {l l' : List Text}, l.Sublist l' →
    spread (l.map bracketed) ≤ spread (l'.map bracketed)
  | _, _, .slnil => Nat.le_refl _
  | l, _, .cons v h => by
      have hrest := spread_map_bracketed_le h
      rw [map_cons, spread_cons]
      omega
  | _, _, .cons_cons v h => by
      have hrest := spread_map_bracketed_le h
      rw [map_cons, map_cons, spread_cons, spread_cons]
      omega

theorem spread_le_bracketed (l : List Text) : spread l ≤ spread (l.map bracketed) := by
  induction l with
  | nil => exact Nat.le_refl _
  | cons v l ih =>
    have hv := length_bracketed v
    rw [map_cons, spread_cons, spread_cons]
    omega

theorem isValueList_bracketed {l l' : List Text} (hne : l ≠ []) (hsub : l.Sublist l')
    (hlisted : ∀ v ∈ l', IsListed v) (hroom : spread (l'.map bracketed) ≤ maxFieldLength) :
    IsValueList (l.map bracketed) := by
  have hmap : l.map bracketed ≠ [] := by simpa using hne
  refine ⟨hmap, fun v hv => ?_, ?_⟩
  · obtain ⟨v', hv', rfl⟩ := mem_map.mp hv
    exact (hlisted v' (hsub.subset hv')).bracketed
  · have hlength := length_joined hmap
    have hspread := spread_map_bracketed_le hsub
    omega

section Routes

variable {m : SipMessage} {rows : List (List Text)}

theorem getRouteUri_of_hasRows (h : HasRows m routeField rows) (i : Nat) :
    getRouteUri m i = rows.flatten[i]?.map (trim isBlank) := by
  rw [getRouteUri, getFieldSubfield_eq, fieldSubfields_of_hasRows h]
  cases hvalue : rows.flatten[i]? with
  | none => rfl
  | some value =>
    obtain ⟨row, hrow, hmem⟩ := mem_flatten.mp (mem_of_getElem? hvalue)
    have hne := ((h.lists row hrow).listed value hmem).trim_ne_nil
    dsimp only
    rw [if_neg hne]
    rfl

theorem listed_of_hasRows {field : Text} (h : HasRows m field rows) :
    ∀ value ∈ rows.flatten, IsListed value := by
  intro value hvalue
  obtain ⟨row, hrow, hmem⟩ := mem_flatten.mp hvalue
  exact (h.lists row hrow).listed value hmem

theorem headerValues_removeHeaders (m : SipMessage) (field : Text) :
    headerValues (m.removeHeaders field) field = [] := by
  rw [headerValues, removeHeaders, map_eq_nil_iff, filter_filter]
  exact filter_eq_nil_iff.mpr fun nv _ => by simp

theorem headerValues_insertHeaderField (m : SipMessage) (field value : Text) :
    headerValues (m.insertHeaderField field value) field = value :: m.headerValues field := by
  rw [headerValues, insertHeaderField, filter_cons_of_pos (by simp)]
  rfl

theorem exists_hasRows_removeRouteUri (h : HasRows m routeField rows)
    (hroom : spread (rows.flatten.map bracketed) ≤ maxFieldLength) (i : Nat) :
    ∃ rows', HasRows (removeRouteUri m i) routeField rows' ∧
      rows'.flatten = (rows.flatten.eraseIdx i).map bracketed := by
  have hlisted := listed_of_hasRows h
  rw [removeRouteUri, fieldSubfields_of_hasRows h]
  by_cases hnil : rows.flatten.eraseIdx i = []
  · rw [hnil]
    refine ⟨[], ⟨?_, by simp⟩, rfl⟩
    exact headerValues_removeHeaders m routeField
  · have hlist := isValueList_bracketed hnil (eraseIdx_sublist _ _) hlisted hroom
    rw [if_neg (joined_ne_nil hlist.ne_nil hlist.listed)]
    refine ⟨[(rows.flatten.eraseIdx i).map bracketed], ⟨?_, by simpa using hlist⟩, by simp⟩
    rw [headerValues_insertHeaderField, headerValues_removeHeaders]
    rfl

theorem isListed_angled {routeUri : Text} (h : ∀ c ∈ routeUri, isComma c = false ∧ c ≠ 0) :
    IsListed (angled routeUri) := by
  refine ⟨fun c hc => ?_, byte '<', ?_, by decide⟩
  · have hopen : isComma (byte '<') = false ∧ byte '<' ≠ 0 := by decide
    have hclose : isComma (byte '>') = false ∧ byte '>' ≠ 0 := by decide
    rw [angled] at hc
    rcases mem_append.mp hc with hc | hc
    · rcases mem_append.mp hc with hc | hc
      · split at hc
        · exact absurd hc not_mem_nil
        · exact mem_singleton.mp hc ▸ hopen
      · exact h c hc
    · split at hc
      · exact absurd hc not_mem_nil
      · exact mem_singleton.mp hc ▸ hclose
  · rw [angled]
    split
    · next hmem =>
        exact mem_append_left _ (mem_append_right _ (by simpa using hmem))
    · simp

/-- A route is added in front of those that the message holds. -/
theorem holds_addRouteUri (h : HasRows m routeField rows) {routeUri : Text}
    (huri : ∀ c ∈ routeUri, isComma c = false ∧ c ≠ 0)
    (hroom : spread (angled routeUri :: rows.flatten) ≤ maxFieldLength) :
    Holds (addRouteUri m routeUri) routeField (angled routeUri :: rows.flatten) := by
  have hangled := isListed_angled huri
  cases rows with
  | nil =>
    have hadd : addRouteUri m routeUri = m.insertHeaderField routeField (angled routeUri) := by
      rw [addRouteUri, getHeaderValue, h.headers]
      rfl
    have hrows : HasRows (addRouteUri m routeUri) routeField [[angled routeUri]] := by
      refine ⟨?_, fun row hrow => ?_⟩
      · rw [hadd, headerValues_insertHeaderField, h.headers]
        rfl
      · rw [mem_singleton.mp hrow]
        refine ⟨by simp, by simpa using hangled, ?_⟩
        rw [spread_cons] at hroom
        show (angled routeUri).length ≤ maxFieldLength
        omega
    exact ⟨_, hrows, rfl⟩
  | cons row rows =>
    obtain ⟨hrow, hrest⟩ := forall_mem_cons.mp h.lists
    have hne := joined_ne_nil hrow.ne_nil hrow.listed
    have hjoin : joined (angled routeUri :: row) = angled routeUri ++ byte ',' :: joined row := by
      obtain ⟨value, values, rfl⟩ := exists_cons_of_ne_nil hrow.ne_nil
      rfl
    have hadd : addRouteUri m routeUri = (m.removeHeader routeField).insertHeaderField routeField
        (joined (angled routeUri :: row)) := by
      have hget : (m.headerValues routeField)[0]? = some (joined row) := by
        rw [h.headers]
        rfl
      have hvalue : m.getHeaderValue 0 routeField = some (joined row) := by
        rw [getHeaderValue, hget]
        exact if_neg hne
      rw [hjoin, addRouteUri, hvalue]
      rfl
    have hrows : HasRows (addRouteUri m routeUri) routeField
        ((angled routeUri :: row) :: rows) := by
      refine ⟨?_, forall_mem_cons.mpr ⟨⟨by simp, ?_, ?_⟩, hrest⟩⟩
      · rw [hadd, headerValues_insertHeaderField, headerValues_removeHeader, h.headers]
        rfl
      · exact forall_mem_cons.mpr ⟨hangled, hrow.listed⟩
      · have hlength := length_joined (cons_ne_nil (angled routeUri) row)
        rw [flatten_cons, spread_cons, spread_append] at hroom
        rw [spread_cons] at hlength
        omega
    exact ⟨_, hrows, rfl⟩

end Routes

/-! ## The top Via -/

section Vias

variable {m : SipMessage} {rows : List (List Text)}

/-- The class that `removeTopVia` strips. -/
def isSpaceChar (c : Byte) : Bool := c == byte ' '

def dropBack (p : Byte → Bool) (s : Text) : Text := (s.reverse.dropWhile p).reverse

theorem trim_eq_dropBack (p : Byte → Bool) (s : Text) : trim p s = dropBack p (s.dropWhile p) := rfl

theorem dropBack_append {p : Byte → Bool} {y : Text} (hy : ∃ c ∈ y, p c = false) (x : Text) :
    dropBack p (x ++ y) = x ++ dropBack p y := by
  obtain ⟨c, hc, hfalse⟩ := hy
  rw [dropBack, reverse_append,
    dropWhile_append_of_visible ⟨c, mem_reverse.mpr hc, hfalse⟩, reverse_append,
    reverse_reverse, dropBack]

theorem exists_dropBack (p : Byte → Bool) (s : Text) :
    ∃ back, s = dropBack p s ++ back ∧ ∀ c ∈ back, p c = true := by
  have hend := takeWhile_append_dropWhile (p := p) (l := s.reverse)
  refine ⟨(s.reverse.takeWhile p).reverse, ?_,
    fun c hc => mem_takeWhile_imp (mem_reverse.mp hc)⟩
  rw [dropBack, ← reverse_append, hend, reverse_reverse]

theorem isBlank_of_isSpaceChar {c : Byte} (h : isSpaceChar c = true) : isBlank c = true := by
  rw [eq_of_beq h]
  decide

theorem IsListed.strip {value' front back : Text} (h : IsListed value)
    (hvalue : value = front ++ (value' ++ back)) (hfront : ∀ c ∈ front, isSpaceChar c = true)
    (hback : ∀ c ∈ back, isSpaceChar c = true) :
    IsListed value' ∧ trim isBlank value' = trim isBlank value := by
  have hvisible : ∃ c ∈ value', isBlank c = false := by
    obtain ⟨c, hc, hblank⟩ := h.visible
    refine ⟨c, ?_, hblank⟩
    rw [hvalue] at hc
    rcases mem_append.mp hc with hc | hc
    · exact absurd (isBlank_of_isSpaceChar (hfront c hc)) (by rw [hblank]; simp)
    · rcases mem_append.mp hc with hc | hc
      · exact hc
      · exact absurd (isBlank_of_isSpaceChar (hback c hc)) (by rw [hblank]; simp)
  refine ⟨⟨fun c hc => h.plain c (by rw [hvalue]; simp [hc]), hvisible⟩, ?_⟩
  rw [hvalue, trim_of_blanks (fun c hc => isBlank_of_isSpaceChar (hfront c hc))
    (fun c hc => isBlank_of_isSpaceChar (hback c hc)) hvisible]

/-- Rows with the same values, but for blanks around them. -/
structure SameValues (values values' : List Text) : Prop where
  ne_nil : values' ≠ []
  listed : ∀ value ∈ values', IsListed value
  trims : values'.map (trim isBlank) = values.map (trim isBlank)

theorem exists_visible_joined (hne : values ≠ [])
    (h : ∀ value ∈ values, IsListed value) : ∃ c ∈ joined values, isSpaceChar c = false := by
  obtain ⟨value, values, rfl⟩ := exists_cons_of_ne_nil hne
  obtain ⟨c, hc, hblank⟩ := (h value mem_cons_self).visible
  refine ⟨c, ?_, ?_⟩
  · cases values with
    | nil => exact hc
    | cons _ _ => exact mem_append_left _ hc
  · cases hspace : isSpaceChar c with
    | false => rfl
    | true => exact absurd (isBlank_of_isSpaceChar hspace) (by rw [hblank]; simp)

/-- A joined list that is trimmed at its end joins the same values. -/
theorem dropBack_joined : ∀ {values : List Text}, values ≠ [] →
    (∀ value ∈ values, IsListed value) →
      ∃ values', dropBack isSpaceChar (joined values) = joined values' ∧ SameValues values values'
  | [value], _, h => by
      obtain ⟨back, hsplit, hback⟩ := exists_dropBack isSpaceChar value
      have hnone : ∀ c ∈ ([] : Text), isSpaceChar c = true := fun c hc => absurd hc not_mem_nil
      obtain ⟨hlisted, htrim⟩ := (h value mem_cons_self).strip hsplit hnone hback
      exact ⟨[dropBack isSpaceChar value], rfl, by simp, by simpa using hlisted,
        by simpa using htrim⟩
  | value :: next :: values, _, h => by
      obtain ⟨hvalue, hrest⟩ := forall_mem_cons.mp h
      obtain ⟨values', hjoined, hsame⟩ := dropBack_joined (cons_ne_nil next values) hrest
      obtain ⟨first, others, rfl⟩ := exists_cons_of_ne_nil hsame.ne_nil
      have hvisible := exists_visible_joined (cons_ne_nil next values) hrest
      refine ⟨value :: first :: others, ?_, by simp,
        forall_mem_cons.mpr ⟨hvalue, hsame.listed⟩, ?_⟩
      · have hassoc (t : Text) : value ++ byte ',' :: t = (value ++ [byte ',']) ++ t := by simp
        rw [joined_cons_cons, hassoc, dropBack_append hvisible, hjoined, ← hassoc,
          joined_cons_cons]
      · rw [map_cons, hsame.trims]
        rfl

theorem trim_joined (hne : values ≠ []) (h : ∀ value ∈ values, IsListed value) :
    ∃ values', trim isSpaceChar (joined values) = joined values' ∧ SameValues values values' := by
  obtain ⟨value, values, rfl⟩ := exists_cons_of_ne_nil hne
  obtain ⟨hvalue, hrest⟩ := forall_mem_cons.mp h
  have hvisible : ∃ c ∈ value, isSpaceChar c = false :=
    exists_visible_joined (cons_ne_nil value []) (by simpa using hvalue)
  have hfront : (joined (value :: values)).dropWhile isSpaceChar =
      joined (value.dropWhile isSpaceChar :: values) := by
    cases values with
    | nil => rfl
    | cons next values =>
      rw [joined_cons_cons, dropWhile_append_of_visible hvisible, joined_cons_cons]
  have hsplit : value = value.takeWhile isSpaceChar ++ (value.dropWhile isSpaceChar ++ []) := by
    rw [append_nil, takeWhile_append_dropWhile]
  obtain ⟨hlisted, htrim⟩ := hvalue.strip hsplit (fun c hc => mem_takeWhile_imp hc)
    fun c hc => absurd hc not_mem_nil
  obtain ⟨values', hjoined, hsame⟩ := dropBack_joined
    (cons_ne_nil (value.dropWhile isSpaceChar) values)
    (forall_mem_cons.mpr ⟨hlisted, hrest⟩)
  refine ⟨values', ?_, hsame.ne_nil, hsame.listed, ?_⟩
  · rw [trim_eq_dropBack, hfront, hjoined]
  · rw [hsame.trims, map_cons, map_cons, htrim]

theorem headerValues_addViaField (m : SipMessage) (via : Text) :
    headerValues (m.addViaField via) viaField = via :: m.headerValues viaField := by
  have hinsert := filter_insertBefore (viaField, via) m.nameValues
  rw [insertBefore] at hinsert
  unfold headerValues addViaField
  cases hfind : m.nameValues.findIdx? (·.1 == viaField) with
  | none =>
    have hnone : m.nameValues.filter (·.1 == viaField) = [] :=
      filter_eq_nil_iff.mpr fun nv hnv => by
        rw [findIdx?_eq_none_iff.mp hfind nv hnv]
        simp
    dsimp only
    rw [filter_append, hnone, nil_append, filter_cons_of_pos (by simp)]
    rfl
  | some fieldIndex =>
    dsimp only at hinsert ⊢
    rw [hfind] at hinsert
    rw [hinsert]
    rfl

theorem newViaHeader_joined (h : ∀ c ∈ value, isComma c = false) :
    newViaHeader (joined (value :: values)) = trim isSpaceChar (joined values) := by
  have hplain : ∀ c ∈ value, (!isComma c) = true := fun c hc => by rw [h c hc]; rfl
  rw [newViaHeader]
  cases values with
  | nil =>
    have hdrop : (joined [value]).dropWhile (fun c => !isComma c) = [] :=
      dropWhile_eq_nil_iff.mpr hplain
    rw [hdrop]
    rfl
  | cons next values =>
    rw [joined_cons_cons, dropWhile_append_of_pos hplain]
    rfl

/-- Removing the top Via leaves the others, but for blanks. -/
theorem exists_holds_removeTopVia (h : HasRows m viaField rows) :
    ∃ values, Holds (removeTopVia m).2 viaField values ∧
      values.map (trim isBlank) = (rows.flatten.drop 1).map (trim isBlank) := by
  have htail : headerValues (m.removeHeader viaField) viaField = rows.tail.map joined := by
    rw [headerValues_removeHeader, h.headers, map_tail]
  rw [removeTopVia]
  cases rows with
  | nil =>
    have hvalue : m.getHeaderValue 0 viaField = none := by
      have hget : (m.headerValues viaField)[0]? = none := by
        rw [h.headers]
        rfl
      rw [getHeaderValue, hget]
    have hrows : HasRows (m.removeHeader viaField) viaField [] := ⟨htail, by simp⟩
    rw [hvalue]
    exact ⟨[], ⟨[], hrows, rfl⟩, rfl⟩
  | cons row rows =>
    obtain ⟨hrow, hrest⟩ := forall_mem_cons.mp h.lists
    obtain ⟨value, values, rfl⟩ := exists_cons_of_ne_nil hrow.ne_nil
    obtain ⟨hvalue, hvalues⟩ := forall_mem_cons.mp hrow.listed
    have hget : m.getHeaderValue 0 viaField = some (joined (value :: values)) := by
      have hget : (m.headerValues viaField)[0]? = some (joined (value :: values)) := by
        rw [h.headers]
        rfl
      rw [getHeaderValue, hget]
      exact if_neg (joined_ne_nil hrow.ne_nil hrow.listed)
    rw [hget, Option.getD_some, newViaHeader_joined fun c hc => (hvalue.plain c hc).1]
    dsimp only
    by_cases hnil : values = []
    · have hrows : HasRows (m.removeHeader viaField) viaField rows := ⟨htail, hrest⟩
      rw [hnil, joined, trim_nil, if_pos rfl]
      exact ⟨_, ⟨rows, hrows, rfl⟩, rfl⟩
    · obtain ⟨values', hjoined, hsame⟩ := trim_joined hnil hvalues
      have hlength : (joined values').length ≤ maxFieldLength := by
        have hle := length_trim_le isSpaceChar (joined values)
        have hwhole := length_joined (cons_ne_nil value values)
        have hpart := length_joined hnil
        have hbound := hrow.length_le
        rw [spread_cons] at hwhole
        rw [hjoined] at hle
        omega
      have hrows : HasRows ((m.removeHeader viaField).addViaField (joined values')) viaField
          (values' :: rows) := by
        refine ⟨?_, forall_mem_cons.mpr ⟨⟨hsame.ne_nil, hsame.listed, hlength⟩, hrest⟩⟩
        rw [headerValues_addViaField, htail]
        rfl
      rw [hjoined, if_neg (joined_ne_nil hsame.ne_nil hsame.listed)]
      refine ⟨_, ⟨values' :: rows, hrows, rfl⟩, ?_⟩
      rw [flatten_cons, map_append, hsame.trims, ← map_append]
      rfl

end Vias

/-! ## The list of values -/

/-- **The operations on Routes and Vias are operations on lists of values**, for any distribution
of the values over headers: each route is found under its number and removed alone, with the
others in brackets, a route comes to the front, and the first Via value is dropped.  No header is
left without a value. -/
theorem listOperations (m : SipMessage) :
    (∀ routes, Holds m routeField routes →
      (∀ i, getRouteUri m i = routes[i]?.map (trim isBlank) ∧ removedRouteUri m i = routes[i]?) ∧
      (spread (routes.map bracketed) ≤ maxFieldLength → ∀ i,
        Holds (removeRouteUri m i) routeField ((routes.eraseIdx i).map bracketed)) ∧
      ∀ routeUri, (∀ c ∈ routeUri, isComma c = false ∧ c ≠ 0) →
        spread (angled routeUri :: routes) ≤ maxFieldLength →
          Holds (addRouteUri m routeUri) routeField (angled routeUri :: routes)) ∧
    ∀ vias, Holds m viaField vias →
      (removeTopVia m).1 = (vias != []) ∧
      ∃ vias', Holds (removeTopVia m).2 viaField vias' ∧
        vias'.map (trim isBlank) = (vias.drop 1).map (trim isBlank) := by
  constructor
  · rintro routes ⟨rows, hrows, rfl⟩
    refine ⟨fun i => ⟨getRouteUri_of_hasRows hrows i, ?_⟩, fun hroom i => ?_,
      fun routeUri huri hroom => holds_addRouteUri hrows huri hroom⟩
    · rw [removedRouteUri, getFieldSubfield_eq, fieldSubfields_of_hasRows hrows]
    · exact exists_hasRows_removeRouteUri hrows hroom i
  · rintro vias ⟨rows, hrows, rfl⟩
    refine ⟨?_, exists_holds_removeTopVia hrows⟩
    rw [removeTopVia, hrows.headers]
    cases rows with
    | nil => rfl
    | cons row rows =>
      obtain ⟨value, values, rfl⟩ :=
        exists_cons_of_ne_nil (hrows.lists row mem_cons_self).ne_nil
      rfl

/-! ### A message with three routes -/

/-- A request with three routes in two headers, and two Via values in one. -/
def threeRoutes : SipMessage where
  firstHeaderLine := text "BYE sip:user@example.com SIP/2.0"
  nameValues := [(routeField, text "<sip:a;lr>, sip:b"), (routeField, text "<sip:c>"),
    (viaField, text "SIP/2.0/UDP first, SIP/2.0/TCP second")]

theorem isValueList_of_forall (hne : values ≠ [])
    (hplain : ∀ value ∈ values, ∀ c ∈ value, isComma c = false ∧ c ≠ 0)
    (hvisible : ∀ value ∈ values, ∃ c ∈ value, isBlank c = false)
    (hlength : (joined values).length ≤ maxFieldLength) : IsValueList values :=
  ⟨hne, fun value hvalue => ⟨hplain value hvalue, hvisible value hvalue⟩, hlength⟩

theorem listOperations_threeRoutes :
    Holds (addRouteUri threeRoutes (text "sip:new")) routeField
        [text "<sip:new>", text "<sip:a;lr>", text " sip:b", text "<sip:c>"] ∧
      Holds (removeRouteUri threeRoutes 0) routeField [text "< sip:b>", text "<sip:c>"] ∧
      ∃ vias, Holds (removeTopVia threeRoutes).2 viaField vias ∧
        vias.map (trim isBlank) = [text "SIP/2.0/TCP second"] := by
  have hroutes : Holds threeRoutes routeField
      [text "<sip:a;lr>", text " sip:b", text "<sip:c>"] := by
    refine ⟨[[text "<sip:a;lr>", text " sip:b"], [text "<sip:c>"]], ⟨by decide, ?_⟩, rfl⟩
    refine forall_mem_cons.mpr ⟨?_, forall_mem_singleton.mpr ?_⟩
    · exact isValueList_of_forall (by decide) (by decide) (by decide) (by decide)
    · exact isValueList_of_forall (by decide) (by decide) (by decide) (by decide)
  have hvias : Holds threeRoutes viaField
      [text "SIP/2.0/UDP first", text " SIP/2.0/TCP second"] := by
    refine ⟨[[text "SIP/2.0/UDP first", text " SIP/2.0/TCP second"]], ⟨by decide, ?_⟩, rfl⟩
    refine forall_mem_singleton.mpr ?_
    exact isValueList_of_forall (by decide) (by decide) (by decide) (by decide)
  obtain ⟨hlist, htop⟩ := listOperations threeRoutes
  obtain ⟨-, hremove, hadd⟩ := hlist _ hroutes
  obtain ⟨-, vias, hleft, htrims⟩ := htop _ hvias
  exact ⟨hadd (text "sip:new") (by decide) (by decide), hremove (by decide) 0, vias, hleft,
    htrims.trans (by decide)⟩

/-- A request with two routes that are not in brackets. -/
def plainRoutes : SipMessage where
  firstHeaderLine := text "BYE sip:user@example.com SIP/2.0"
  nameValues := [(routeField, text "sip:a,sip:b")]

/-- Removing the first route changes the second one. -/
theorem getRouteUri_removeRouteUri_plainRoutes :
    getRouteUri plainRoutes 1 = some (text "sip:b") ∧
      getRouteUri (removeRouteUri plainRoutes 0) 0 = some (text "<sip:b>") := by
  decide

end SipMessage

end SipXRouter
