import SipXRouter.Net.BranchId

/-!
# Via values

A Via value is read under its number in the list of all of them, and a byte that is not printable
ends the reading of its header.  `setFieldSubfield`, which writes a value, counts without that
check and puts the values of the header together again.
-/

namespace SipXRouter

open List

namespace SipMessage

open NameValueTokenizer HttpMessage BranchId

/-- `SIP_VIA_FIELD`. -/
def viaField : Text := text "VIA"

/-- `BOTTOM_SUBFIELD`. -/
def bottomSubfield : Nat := 2147483647

/-! ## Reading a value -/

/-- The scan of `getSubField` with `validateChars`, which gives up at a byte that is not
printable. -/
def getValidLoop (sep : Byte → Bool) : Nat → Text → Text → Option Text
  | k, cur, [] => if k = 0 then some cur else none
  | k, cur, c :: cs =>
    if isPrintableChar c = false then none
    else if sep c then
      if cur = [] then getValidLoop sep k [] cs
      else
        match k with
        | 0 => some cur
        | k + 1 => getValidLoop sep k [] cs
    else getValidLoop sep k (cur ++ [c]) cs

/-- `getSubField` with `validateChars`, into a string that held `old`. -/
def getValidSubField (value : Text) (index : Nat) (old : Text) : Text :=
  if maxFieldLength < (cString value).length then old
  else (getValidLoop isComma index [] (cString value)).getD []

/-- The inner loop of `getFieldSubfield`, with the way a subfield is read. -/
def scanSubfieldsWith (read : Nat → Text → Text) : (left subFieldIndex : Nat) → (url : Text) →
    Nat × Text
  | 0, _, url => (0, url)
  | left + 1, subFieldIndex, url =>
    if url = [] then (left + 1, url)
    else scanSubfieldsWith read left (subFieldIndex + 1) (read (subFieldIndex + 1) url)

/-- The outer loop of `getFieldSubfield`, with the way a subfield is read. -/
def scanHeadersWith (read : Text → Nat → Text → Text) :
    (values : List Text) → (left : Nat) → (url : Text) → Option Text
  | [], _, _ => none
  | value :: values, left, url =>
    if value = [] then none
    else
      let found := scanSubfieldsWith (read value) left 0 (read value 0 url)
      if found.1 = 0 ∧ found.2 ≠ [] then some found.2
      else scanHeadersWith read values found.1 found.2

/-- `getViaFieldSubField`, for an index other than `BOTTOM_SUBFIELD`. -/
def getViaFieldSubField (m : SipMessage) (subFieldIndex : Nat) : Option Text :=
  scanHeadersWith getValidSubField (m.headerValues viaField) subFieldIndex []

/-! ## Writing a value -/

/-- The loops of `setFieldSubfield`: the number of the header that holds the value, and its new
text. -/
def setSubfieldLoop (newSubfieldValue : Text) : List Text → Nat → Option (Nat × Text)
  | [], _ => none
  | value :: values, left =>
    if value = [] then none
    else if left < (subfields value).length then
      some (0, joined ((subfields value).set left newSubfieldValue))
    else
      (setSubfieldLoop newSubfieldValue values (left - (subfields value).length)).map fun qt =>
        (qt.1 + 1, qt.2)

/-- `setFieldSubfield`: whether the value was found, and the message. -/
def setFieldSubfield (m : SipMessage) (field : Text) (addressIndex : Nat)
    (newSubfieldValue : Text) : Bool × SipMessage :=
  match setSubfieldLoop newSubfieldValue (m.headerValues field) addressIndex with
  | some (fieldIndex, modifiedField) => (true, m.setHeaderValue field modifiedField fieldIndex)
  | none => (false, m)

/-! ## Reading values -/

/-- The values of a header up to the one with a byte that is not printable. -/
def printablePieces (cur : Text) : Text → List Text
  | [] => if cur = [] then [] else [cur]
  | c :: cs =>
    if isPrintableChar c = false then []
    else if isComma c then
      if cur = [] then printablePieces [] cs else cur :: printablePieces [] cs
    else printablePieces (cur ++ [c]) cs

/-- The values of one Via header: none of a header over the length limit. -/
def viaPieces (value : Text) : List Text :=
  if maxFieldLength < (cString value).length then [] else printablePieces [] (cString value)

def viaValues (m : SipMessage) : List Text := (m.liveValues viaField).flatMap viaPieces

/-- The loop that checks its bytes cuts a field into its printable pieces. -/
theorem getD_getValidLoop : ∀ (field cur : Text) (k : Nat),
    (getValidLoop isComma k cur field).getD [] = (printablePieces cur field)[k]?.getD [] := by
  intro field
  induction field with
  | nil =>
    intro cur k
    rw [getValidLoop, printablePieces]
    by_cases hcur : cur = []
    · rw [if_pos hcur, hcur]
      split
      · rfl
      · rfl
    · rw [if_neg hcur]
      cases k with
      | zero => rfl
      | succ k => rfl
  | cons c field ih =>
    intro cur k
    rw [getValidLoop.eq_def, printablePieces]
    dsimp only
    by_cases hprint : isPrintableChar c = false
    · rw [if_pos hprint, if_pos hprint]
      rfl
    · rw [if_neg hprint, if_neg hprint]
      by_cases hcomma : isComma c = true
      · rw [if_pos hcomma, if_pos hcomma]
        by_cases hcur : cur = []
        · rw [if_pos hcur, if_pos hcur, ih]
        · rw [if_neg hcur, if_neg hcur]
          cases k with
          | zero => rfl
          | succ k => exact ih [] k
      · rw [if_neg hcomma, if_neg hcomma, ih]

theorem ne_nil_of_mem_printablePieces {piece : Text} : ∀ {field cur : Text},
    piece ∈ printablePieces cur field → piece ≠ [] := by
  intro field
  induction field with
  | nil =>
    intro cur h
    rw [printablePieces] at h
    split at h
    · exact absurd h not_mem_nil
    · next hcur => exact mem_singleton.mp h ▸ hcur
  | cons c field ih =>
    intro cur h
    rw [printablePieces] at h
    split at h
    · exact absurd h not_mem_nil
    · split at h
      · split at h
        · exact ih h
        · next hcur =>
            rcases mem_cons.mp h with rfl | h
            · exact hcur
            · exact ih h
      · exact ih h

theorem ne_nil_of_mem_viaPieces {value piece : Text} (h : piece ∈ viaPieces value) :
    piece ≠ [] := by
  rw [viaPieces] at h
  split at h
  · exact absurd h not_mem_nil
  · exact ne_nil_of_mem_printablePieces h

theorem getValidSubField_eq_viaPieces (value : Text) (index : Nat) {old : Text}
    (hold : viaPieces value ≠ [] ∨ old = []) :
    getValidSubField value index old = (viaPieces value)[index]?.getD [] := by
  rw [getValidSubField]
  by_cases hlong : maxFieldLength < (cString value).length
  · have hnone : viaPieces value = [] := by rw [viaPieces, if_pos hlong]
    rw [if_pos hlong, hnone]
    exact hold.resolve_left (fun h => h hnone)
  · rw [if_neg hlong, getD_getValidLoop, viaPieces, if_neg hlong]

/-- The inner loop stops at the entry looked for, or behind the last one. -/
theorem scanSubfieldsWith_eq_viaPieces (value : Text) : ∀ (left index : Nat),
    index ≤ (viaPieces value).length →
      scanSubfieldsWith (getValidSubField value) left index ((viaPieces value)[index]?.getD []) =
        if index + left < (viaPieces value).length then
          (0, (viaPieces value)[index + left]?.getD [])
        else (index + left - (viaPieces value).length, []) := by
  intro left
  induction left with
  | zero =>
    intro index hindex
    rw [scanSubfieldsWith, Nat.add_zero]
    by_cases hlt : index < (viaPieces value).length
    · rw [if_pos hlt]
    · have heq : index = (viaPieces value).length := by omega
      rw [if_neg hlt, heq, getElem?_eq_none (Nat.le_refl _), Nat.sub_self]
      rfl
  | succ left ih =>
    intro index hindex
    by_cases hlt : index < (viaPieces value).length
    · have hne : (viaPieces value)[index] ≠ [] := ne_nil_of_mem_viaPieces (getElem_mem hlt)
      have hsome : viaPieces value ≠ [] := ne_nil_of_length_pos (by omega)
      have hadd : index + 1 + left = index + (left + 1) := by omega
      rw [getElem?_eq_getElem hlt, Option.getD_some, scanSubfieldsWith, if_neg hne,
        getValidSubField_eq_viaPieces _ _ (.inl hsome), ih _ hlt, hadd]
    · have heq : index = (viaPieces value).length := by omega
      rw [heq, getElem?_eq_none (Nat.le_refl _), Option.getD_none, scanSubfieldsWith,
        if_pos rfl, if_neg (by omega), Nat.add_sub_cancel_left]

/-- **The number of a Via value** is its place among those that can be read. -/
theorem getViaFieldSubField_eq_viaValues (m : SipMessage) (i : Nat) :
    getViaFieldSubField m i = (viaValues m)[i]? := by
  have hscan : ∀ (values : List Text) (left : Nat),
      scanHeadersWith getValidSubField values left [] =
        ((values.takeWhile (· ≠ [])).flatMap viaPieces)[left]? := by
    intro values
    induction values with
    | nil => intro left; rfl
    | cons value values ih =>
      intro left
      rw [scanHeadersWith]
      by_cases hnil : value = []
      · rw [if_pos hnil, hnil]
        rfl
      · have hfound := scanSubfieldsWith_eq_viaPieces value left 0 (Nat.zero_le _)
        rw [Nat.zero_add] at hfound
        rw [if_neg hnil, takeWhile_cons_of_pos (by simpa using hnil), flatMap_cons,
          getValidSubField_eq_viaPieces value 0 (.inr rfl), hfound]
        by_cases hlt : left < (viaPieces value).length
        · have hne : (viaPieces value)[left] ≠ [] :=
            ne_nil_of_mem_viaPieces (getElem_mem hlt)
          rw [if_pos hlt, getElem?_append_left hlt, getElem?_eq_getElem hlt]
          exact if_pos ⟨rfl, hne⟩
        · rw [if_neg hlt, getElem?_append_right (by omega), ← ih]
          exact if_neg fun h => h.2 rfl
  exact hscan _ _

theorem printablePieces_eq : ∀ {field cur : Text}, (∀ c ∈ field, isPrintableChar c = true) →
    printablePieces cur field = segmentsAux isComma cur field := by
  intro field
  induction field with
  | nil => intro cur _; rfl
  | cons c field ih =>
    intro cur hfield
    obtain ⟨hc, hfield⟩ := forall_mem_cons.mp hfield
    have hvalid : ¬ isPrintableChar c = false := by rw [hc]; simp
    rw [printablePieces, segmentsAux, if_neg hvalid, ih hfield, ih hfield]

theorem viaPieces_eq_subfields {value : Text} (hvalue : ∀ c ∈ value, isPrintableChar c = true) :
    viaPieces value = subfields value := by
  rw [viaPieces, cString_of_class hvalue (by decide), subfields, printablePieces_eq hvalue]
  by_cases hlong : maxFieldLength < value.length
  · rw [if_pos hlong, if_neg (Nat.not_le.mpr hlong)]
  · rw [if_neg hlong, if_pos (Nat.not_lt.mp hlong)]
    rfl

theorem getViaFieldSubField_eq {m : SipMessage}
    (hm : ∀ value ∈ m.liveValues viaField, ∀ c ∈ value, isPrintableChar c = true) (i : Nat) :
    getViaFieldSubField m i = (fieldSubfields m viaField)[i]? := by
  have hvalues : viaValues m = fieldSubfields m viaField :=
    flatMap_congr fun value hvalue => viaPieces_eq_subfields (hm value hvalue)
  rw [getViaFieldSubField_eq_viaValues, hvalues]

theorem isPrintable_of_mem_printablePieces {piece : Text} : ∀ {field cur : Text},
    (∀ c ∈ cur, isPrintableChar c = true) → piece ∈ printablePieces cur field →
      ∀ c ∈ piece, isPrintableChar c = true := by
  intro field
  induction field with
  | nil =>
    intro cur hcur h
    rw [printablePieces] at h
    split at h
    · exact absurd h not_mem_nil
    · exact mem_singleton.mp h ▸ hcur
  | cons c field ih =>
    intro cur hcur h
    rw [printablePieces] at h
    split at h
    · exact absurd h not_mem_nil
    · next hc =>
        have hc : isPrintableChar c = true := by simpa using hc
        split at h
        · split at h
          · exact ih (by simp) h
          · rcases mem_cons.mp h with rfl | h
            · exact hcur
            · exact ih (by simp) h
        · refine ih (fun d hd => ?_) h
          rcases mem_append.mp hd with hd | hd
          · exact hcur d hd
          · rw [mem_singleton.mp hd]
            exact hc

theorem isPrintable_of_getViaFieldSubField {m : SipMessage} {i : Nat} {via : Text}
    (h : getViaFieldSubField m i = some via) : ∀ c ∈ via, isPrintableChar c = true := by
  rw [getViaFieldSubField_eq_viaValues] at h
  obtain ⟨value, -, hvia⟩ := mem_flatMap.mp (mem_of_getElem? h)
  rw [viaPieces] at hvia
  split at hvia
  · exact absurd hvia not_mem_nil
  · exact isPrintable_of_mem_printablePieces (by simp) hvia

/-! ## Writing a value -/

theorem segments_of_free {sep : Byte → Bool} {p : Text} (hp : ∀ c ∈ p, sep c = false) :
    segments sep p = [p].filter (· ≠ []) := by
  by_cases hnil : p = []
  · rw [hnil]
    rfl
  · rw [segments_eq_singleton hnil hp, filter_cons_of_pos (by simpa using hnil)]
    rfl

theorem joined_cons_cons (p q : Text) (l : List Text) :
    joined (p :: q :: l) = p ++ byte ',' :: joined (q :: l) := rfl

theorem segments_joined : ∀ (l : List Text), (∀ p ∈ l, ∀ c ∈ p, isComma c = false) →
    segments isComma (joined l) = l.filter (· ≠ [])
  | [], _ => rfl
  | [p], hl => segments_of_free (hl p mem_cons_self)
  | p :: q :: l, hl => by
      obtain ⟨hp, hrest⟩ := forall_mem_cons.mp hl
      have hcomma : isComma (byte ',') = true := by decide
      rw [joined_cons_cons, segments_append_sep hcomma, segments_joined (q :: l) hrest,
        segments_of_free hp, ← filter_append, singleton_append]

/-- How long the pieces are with a separator behind each. -/
def spread (l : List Text) : Nat := (l.map fun p => p.length + 1).sum

theorem spread_append (l l' : List Text) : spread (l ++ l') = spread l + spread l' := by
  rw [spread, map_append, sum_append]
  rfl

theorem spread_cons (p : Text) (l : List Text) : spread (p :: l) = p.length + 1 + spread l := rfl

theorem length_joined : ∀ {l : List Text}, l ≠ [] → (joined l).length + 1 = spread l
  | [p], _ => rfl
  | p :: q :: l, _ => by
      have hrest := length_joined (cons_ne_nil q l)
      rw [joined_cons_cons, length_append, length_cons, spread_cons, ← hrest]
      omega

theorem spread_segments_le (sep : Byte → Bool) (s : Text) :
    spread (segments sep s) ≤ s.length + 1 := by
  have haux : ∀ (s cur : Text), spread (segmentsAux sep cur s) ≤ cur.length + s.length + 1 := by
    intro s
    induction s with
    | nil =>
      intro cur
      rw [segmentsAux]
      split
      · exact Nat.zero_le _
      · rw [spread_cons]
        exact Nat.le_of_eq rfl
    | cons c s ih =>
      intro cur
      have hnil := ih []
      have hcur := ih (cur ++ [c])
      rw [length_nil] at hnil
      rw [length_append, length_singleton] at hcur
      rw [segmentsAux, length_cons]
      split
      · split
        · omega
        · rw [spread_cons]
          omega
      · omega
  have h := haux s []
  rwa [length_nil, Nat.zero_add] at h

/-- Where `setFieldSubfield` finds a value: the header it rewrites, and what is then read of the
field. -/
theorem setSubfieldLoop_spec {values : List Text} {left : Nat} {via : Text}
    (hvia : (flatSubfields values)[left]? = some via) (new : Text) :
    ∃ q pre post value before after,
      setSubfieldLoop new values left = some (q, joined (pre ++ new :: post)) ∧
      q < (values.takeWhile (· ≠ [])).length ∧ value ∈ values.takeWhile (· ≠ []) ∧
      subfields value = pre ++ via :: post ∧
      flatSubfields values = before ++ (pre ++ via :: post) ++ after ∧
      left = before.length + pre.length ∧
      ∀ t, flatSubfields (values.set q t) =
        before ++ if t = [] then [] else subfields t ++ after := by
  induction values generalizing left with
  | nil => exact absurd hvia (by simp [flatSubfields])
  | cons value values ih =>
    by_cases hnil : value = []
    · exact absurd hvia (by simp [flatSubfields, hnil])
    have hkept : (value :: values).takeWhile (· ≠ []) = value :: values.takeWhile (· ≠ []) :=
      takeWhile_cons_of_pos (by simpa using hnil)
    have hflat : flatSubfields (value :: values) = subfields value ++ flatSubfields values := by
      rw [flatSubfields, hkept, flatMap_cons]
      rfl
    rw [hflat] at hvia
    by_cases hlt : left < (subfields value).length
    · rw [getElem?_append_left hlt] at hvia
      obtain ⟨pre, post, hsplit, hlength⟩ : ∃ pre post, subfields value = pre ++ via :: post ∧
          pre.length = left := by
        obtain ⟨_, hget⟩ := List.getElem?_eq_some_iff.mp hvia
        refine ⟨(subfields value).take left, (subfields value).drop (left + 1), ?_, ?_⟩
        · rw [← hget, ← drop_eq_getElem_cons hlt, take_append_drop]
        · rw [length_take]
          omega
      refine ⟨0, pre, post, value, [], flatSubfields values, ?_, ?_, ?_, hsplit, ?_, ?_,
        fun t => ?_⟩
      · rw [setSubfieldLoop, if_neg hnil, if_pos hlt, hsplit, ← hlength,
          set_append_right _ _ (Nat.le_refl _), Nat.sub_self, set_cons_zero]
      · rw [hkept]
        exact Nat.succ_pos _
      · rw [hkept]
        exact mem_cons_self
      · rw [hflat, hsplit, nil_append]
      · rw [length_nil, Nat.zero_add, hlength]
      · rw [set_cons_zero, nil_append]
        split
        · next ht => rw [ht]; rfl
        · next ht =>
            rw [flatSubfields, takeWhile_cons_of_pos (by simpa using ht),
              flatMap_cons]
            rfl
    · have hle := Nat.not_lt.mp hlt
      rw [getElem?_append_right hle] at hvia
      obtain ⟨q, pre, post, found, before, after, hloop, hq, hmem, hsplit, hvalues, hleft,
        hset⟩ := ih hvia
      refine ⟨q + 1, pre, post, found, subfields value ++ before, after, ?_, ?_, ?_, hsplit, ?_,
        ?_, fun t => ?_⟩
      · rw [setSubfieldLoop, if_neg hnil, if_neg hlt, hloop]
        rfl
      · rw [hkept]
        exact Nat.succ_lt_succ hq
      · rw [hkept]
        exact mem_cons_of_mem _ hmem
      · rw [hflat, hvalues]
        simp only [append_assoc]
      · rw [length_append]
        omega
      · have hrest := hset t
        rw [flatSubfields] at hrest ⊢
        rw [set_cons_succ, takeWhile_cons_of_pos (by simpa using hnil),
          flatMap_cons, hrest, append_assoc]

/-! ## The rewritten header -/

/-- The Via headers that are read are printable, and each leaves room in the longest field that is
taken apart. -/
structure ReadableVias (m : SipMessage) (room : Nat) : Prop where
  printable : ∀ value ∈ m.liveValues viaField, ∀ c ∈ value, isPrintableChar c = true
  length_le : ∀ value ∈ m.liveValues viaField, value.length + room ≤ maxFieldLength
  /-- No value has the number `BOTTOM_SUBFIELD`. -/
  count_le : (fieldSubfields m viaField).length ≤ bottomSubfield

theorem mem_joined : ∀ {l : List Text} {c : Byte}, c ∈ joined l → c = byte ',' ∨ ∃ p ∈ l, c ∈ p
  | [], c, hc => absurd hc not_mem_nil
  | [p], c, hc => Or.inr ⟨p, mem_cons_self, hc⟩
  | p :: q :: l, c, hc => by
      rw [joined_cons_cons] at hc
      rcases mem_append.mp hc with hc | hc
      · exact Or.inr ⟨p, mem_cons_self, hc⟩
      · rcases mem_cons.mp hc with rfl | hc
        · exact Or.inl rfl
        · rcases mem_joined hc with rfl | ⟨p', hp', hc⟩
          · exact Or.inl rfl
          · exact Or.inr ⟨p', mem_cons_of_mem _ hp', hc⟩

section Header

variable {m : SipMessage} {i room : Nat} {via new : Text}

/-- **A value without commas that leaves room takes the place of the old one**; an empty one leaves
fewer values.  If it is printable, it is read under its number. -/
theorem setFieldSubfield_spec (hm : ReadableVias m room)
    (hvia : (fieldSubfields m viaField)[i]? = some via) (hcomma : ∀ c ∈ new, isComma c = false)
    (hlength : new.length ≤ via.length + room) : (setFieldSubfield m viaField i new).1 = true ∧
      (new ≠ [] → fieldSubfields (setFieldSubfield m viaField i new).2 viaField =
        (fieldSubfields m viaField).set i new) ∧
      (new = [] → (fieldSubfields (setFieldSubfield m viaField i new).2 viaField).length <
        (fieldSubfields m viaField).length) ∧
      (new ≠ [] → (∀ c ∈ new, isPrintableChar c = true) →
        getViaFieldSubField (setFieldSubfield m viaField i new).2 i = some new) := by
  obtain ⟨q, pre, post, value, before, after, hloop, hq, hlive, hpieces, hvalues, hi, hset⟩ :=
    setSubfieldLoop_spec hvia new
  have hpieces' : ∀ p ∈ pre ++ via :: post, p ≠ [] ∧ ∀ c ∈ p, isComma c = false := fun p hp =>
    mem_subfields (hpieces ▸ hp)
  -- the text of the rewritten header
  have hspread := spread_segments_le isComma value
  have hbound := hm.length_le value hlive
  have hsegments : segments isComma value = pre ++ via :: post := by
    rw [← hpieces, subfields, if_pos (by omega)]
  rw [hsegments, spread_append, spread_cons] at hspread
  have hjoined := length_joined (l := pre ++ new :: post) (by simp)
  rw [spread_append, spread_cons] at hjoined
  have hfree : ∀ p ∈ pre ++ new :: post, ∀ c ∈ p, isComma c = false := by
    intro p hp
    rcases mem_append.mp hp with hp | hp
    · exact (hpieces' p (mem_append_left _ hp)).2
    · rcases mem_cons.mp hp with rfl | hp
      · exact hcomma
      · exact (hpieces' p (mem_append_right _ (mem_cons_of_mem _ hp))).2
  have hsub : subfields (joined (pre ++ new :: post)) =
      pre ++ ([new].filter (· ≠ []) ++ post) := by
    have hself {l : List Text} (hl : ∀ p ∈ l, p ∈ pre ++ via :: post) :
        l.filter (· ≠ []) = l :=
      filter_eq_self.mpr fun p hp => by simpa using (hpieces' p (hl p hp)).1
    have hcons : pre ++ new :: post = pre ++ ([new] ++ post) := rfl
    rw [subfields, if_pos (by omega), segments_joined _ hfree, hcons, filter_append,
      filter_append, hself fun p hp => mem_append_left _ hp,
      hself fun p hp => mem_append_right _ (mem_cons_of_mem _ hp)]
  have hlen : q < (m.headerValues viaField).length :=
    Nat.lt_of_lt_of_le hq (List.takeWhile_prefix _).length_le
  have hheader : (m.setHeaderValue viaField (joined (pre ++ new :: post)) q).headerValues viaField =
      (m.headerValues viaField).set q (joined (pre ++ new :: post)) := by
    rw [headerValues_setHeaderValue, if_pos hlen]
  have hread : fieldSubfields (m.setHeaderValue viaField (joined (pre ++ new :: post)) q) viaField =
      before ++ if joined (pre ++ new :: post) = [] then []
        else subfields (joined (pre ++ new :: post)) ++ after := by
    rw [fieldSubfields, hheader, hset]
  have htext (hne : new ≠ []) : joined (pre ++ new :: post) ≠ [] := by
    intro hnil
    have hpos := length_pos_of_ne_nil hne
    rw [hnil, length_nil] at hjoined
    omega
  have hwritten (hne : new ≠ []) :
      fieldSubfields (m.setHeaderValue viaField (joined (pre ++ new :: post)) q) viaField =
        (fieldSubfields m viaField).set i new := by
    have hold : fieldSubfields m viaField = before ++ (pre ++ via :: post) ++ after := hvalues
    rw [hread, if_neg (htext hne), hsub, filter_cons_of_pos (by simpa using hne), hold, hi]
    simp
  have hmessage : setFieldSubfield m viaField i new =
      (true, m.setHeaderValue viaField (joined (pre ++ new :: post)) q) := by
    rw [setFieldSubfield, hloop]
  rw [hmessage]
  refine ⟨rfl, hwritten, fun hnil => ?_, fun hne hprintable => ?_⟩
  · have hold : fieldSubfields m viaField = before ++ (pre ++ via :: post) ++ after := hvalues
    show (fieldSubfields (m.setHeaderValue viaField _ q) viaField).length < _
    rw [hread, hold, hsub, hnil]
    split
    · simp
    · simp
  · have hprint : ∀ c ∈ joined (pre ++ new :: post), isPrintableChar c = true := by
      have hold : ∀ p ∈ pre ++ via :: post, ∀ c ∈ p, isPrintableChar c = true := by
        intro p hp c hc
        exact hm.printable value hlive c (segments_subset (hsegments ▸ hp) c hc)
      intro c hc
      rcases mem_joined hc with rfl | ⟨p, hp, hmem⟩
      · decide
      · rcases mem_append.mp hp with hp | hp
        · exact hold p (mem_append_left _ hp) c hmem
        · rcases mem_cons.mp hp with heq | hp
          · exact hprintable c (heq ▸ hmem)
          · exact hold p (mem_append_right _ (mem_cons_of_mem _ hp)) c hmem
    have hlives : ∀ v ∈ liveValues (m.setHeaderValue viaField (joined (pre ++ new :: post)) q)
        viaField, ∀ c ∈ v, isPrintableChar c = true := by
      intro v hv
      rw [liveValues, hheader, takeWhile_set (by simpa using htext hne) hq] at hv
      rcases mem_or_eq_of_mem_set hv with hv | rfl
      · exact hm.printable v hv
      · exact hprint
    have hlt : i < (fieldSubfields m viaField).length := (List.getElem?_eq_some_iff.mp hvia).1
    show getViaFieldSubField (m.setHeaderValue viaField _ q) i = _
    rw [getViaFieldSubField_eq hlives, hwritten hne, getElem?_set_self hlt]

end Header

end SipMessage

end SipXRouter
