import SipXRouter.Net.NameValueTokenizer

/-!
# The scan for a subfield

`NameValueTokenizer::getSubField` as written, with its counters, over a buffer and
a length; the scan of `NameValueTokenizer.lean` is what it comes to
(`getSubFieldAt_eq`).

Separators in a row do not count as subfields.  What stands behind the last one
counts even when it is empty, so that a text that is empty or ends with a
separator has one subfield more than it has pieces.
-/

namespace SipXRouter

open List

namespace NameValueTokenizer

/-- How the scan looks for a separator: one or two are compared directly, more
are searched for. -/
def isSeparator (subFieldSeparators : Text) (c : Byte) : Bool :=
  match subFieldSeparators with
  | [] => false
  | [s] => s == c
  | [s, t] => s == c || t == c
  | separators => separators.contains c

/-- The variables of the scan. -/
structure SubFieldScan where
  subFieldI : Int
  subFieldBegin : Int
  separatorIndex : Int

/-- Where a subfield was found: `subFieldPtr` as an offset, `subFieldLength` and
`lastCharIndex`. -/
structure SubField where
  subFieldPtr : Int
  subFieldLength : Int
  lastCharIndex : Int
deriving DecidableEq

/-- A separator, or the end of the field, at `charIndex`. -/
def SubFieldScan.closeAt (st : SubFieldScan) (charIndex : Nat) : SubFieldScan :=
  { st with subFieldBegin := st.separatorIndex + 1, separatorIndex := charIndex }

/-- The loop of `getSubField` in front of what is left of the field; `none` is the
return at a byte that `validateChars` forbids. -/
def scanLoop (subFieldSeparators : Text) (subFieldIndex : Int) (validateChars : Bool) :
    Text → Nat → SubFieldScan → Option SubFieldScan
  | [], charIndex, st =>
    if st.subFieldI < subFieldIndex then
      some { st.closeAt charIndex with subFieldI := st.subFieldI + 1 }
    else some st
  | c :: cs, charIndex, st =>
    if st.subFieldI < subFieldIndex then
      if validateChars && !isPrintableChar c then none
      else if isSeparator subFieldSeparators c then
        let st := st.closeAt charIndex
        -- empty subfields do not count
        if st.subFieldBegin ≠ st.separatorIndex then
          scanLoop subFieldSeparators subFieldIndex validateChars cs (charIndex + 1)
            { st with subFieldI := st.subFieldI + 1 }
        else scanLoop subFieldSeparators subFieldIndex validateChars cs (charIndex + 1) st
      else scanLoop subFieldSeparators subFieldIndex validateChars cs (charIndex + 1) st
    else some st

/-- What the scan reads of a buffer: a negative length means up to the first NUL. -/
def fieldOf (textField : Text) (textFieldLength : Int) : Text :=
  if 0 ≤ textFieldLength then cString (textField.take textFieldLength.toNat)
  else cString textField

/-- What is reported behind the loop. -/
def SubFieldScan.found (st : SubFieldScan) (subFieldIndex : Int) : Option SubField :=
  if st.subFieldI = subFieldIndex then
    some ⟨st.subFieldBegin, st.separatorIndex - st.subFieldBegin, st.separatorIndex⟩
  else none

/-- `getSubField` on a pointer and a length. -/
def getSubFieldAt (textField : Text) (textFieldLength subFieldIndex : Int)
    (subFieldSeparators : Text) (validateChars : Bool) : Option SubField :=
  (scanLoop subFieldSeparators subFieldIndex validateChars (fieldOf textField textFieldLength) 0
    ⟨-1, 0, -1⟩).bind (·.found subFieldIndex)

/-- The bytes a subfield stands for. -/
def SubField.value (textField : Text) (sub : SubField) : Text :=
  (textField.drop sub.subFieldPtr.toNat).take sub.subFieldLength.toNat

/-- `getSubField` into a string that held `old`, with what it returns. -/
def getSubFieldText (textField : Text) (subFieldIndex : Int) (subFieldSeparators : Text)
    (validateChars : Bool) (old : Text) : Bool × Text :=
  let fieldLen := (cString textField).length
  if maxFieldLength < fieldLen then (false, old)
  else
    match getSubFieldAt textField fieldLen subFieldIndex subFieldSeparators validateChars with
    | some sub => (true, if 0 < sub.subFieldLength then sub.value textField else [])
    | none => (false, [])

/-! ## The counters and the recursion -/

section Step

variable {sep : Byte → Bool} {c : Byte}

theorem getSubFieldLoop_plain (hc : ¬ sep c = true) (k : Nat) (cur cs : Text) :
    getSubFieldLoop sep k cur (c :: cs) = getSubFieldLoop sep k (cur ++ [c]) cs := by
  cases k <;> rw [getSubFieldLoop, if_neg hc]

theorem getSubFieldLoop_empty (hc : sep c = true) (k : Nat) (cs : Text) :
    getSubFieldLoop sep k [] (c :: cs) = getSubFieldLoop sep k [] cs := by
  cases k <;> rw [getSubFieldLoop, if_pos hc, if_pos rfl]

theorem getSubFieldLoop_zero (hc : sep c = true) {cur : Text} (hcur : cur ≠ []) (cs : Text) :
    getSubFieldLoop sep 0 cur (c :: cs) = some (cur, c :: cs) := by
  rw [getSubFieldLoop, if_pos hc, if_neg hcur]

theorem getSubFieldLoop_succ (hc : sep c = true) {cur : Text} (hcur : cur ≠ []) (k : Nat)
    (cs : Text) : getSubFieldLoop sep (k + 1) cur (c :: cs) = getSubFieldLoop sep k [] cs := by
  rw [getSubFieldLoop, if_pos hc, if_neg hcur]

end Step

theorem scanLoop_of_reached {subFieldIndex : Int} {st : SubFieldScan}
    (hst : ¬ st.subFieldI < subFieldIndex) (subFieldSeparators : Text) (validateChars : Bool)
    (rest : Text) (charIndex : Nat) :
    scanLoop subFieldSeparators subFieldIndex validateChars rest charIndex st = some st := by
  cases rest <;> rw [scanLoop, if_neg hst]

/-- The scan with `k` more subfields to pass over and `cur` read since the last
separator. -/
theorem scanLoop_found (subFieldSeparators : Text) (subFieldIndex : Int) :
    ∀ (rest cur : Text) (k charIndex : Nat) (st : SubFieldScan),
      st.subFieldI + 1 + k = subFieldIndex → st.separatorIndex + 1 + cur.length = charIndex →
      (scanLoop subFieldSeparators subFieldIndex false rest charIndex st).bind
          (·.found subFieldIndex) =
        (getSubFieldLoop (isSeparator subFieldSeparators) k cur rest).map fun p =>
          ⟨(charIndex + rest.length : Int) - p.2.length - p.1.length, p.1.length,
            (charIndex + rest.length : Int) - p.2.length⟩ := by
  intro rest
  induction rest with
  | nil =>
    intro cur k charIndex st hindex hchar
    have hlt : st.subFieldI < subFieldIndex := by omega
    rw [scanLoop, if_pos hlt, Option.bind_some, SubFieldScan.found, getSubFieldLoop]
    by_cases hk : k = 0
    · rw [if_pos hk, if_pos (show st.subFieldI + 1 = subFieldIndex by omega), Option.map_some]
      show some (SubField.mk (st.separatorIndex + 1) (charIndex - (st.separatorIndex + 1))
        charIndex) = _
      simp only [Option.some_inj, SubField.mk.injEq, length_nil]
      omega
    · rw [if_neg hk, if_neg (show ¬ st.subFieldI + 1 = subFieldIndex by omega)]
      rfl
  | cons c rest ih =>
    intro cur k charIndex st hindex hchar
    have hlt : st.subFieldI < subFieldIndex := by omega
    have hlength : ((charIndex + 1 : Nat) : Int) + rest.length =
        charIndex + (c :: rest).length := by
      rw [length_cons]
      omega
    rw [scanLoop, if_pos hlt, Bool.false_and, if_neg Bool.false_ne_true]
    by_cases hc : isSeparator subFieldSeparators c = true
    · rw [if_pos hc]
      by_cases hcur : cur = []
      · -- nothing since the last separator
        have hempty : ¬ (st.closeAt charIndex).subFieldBegin ≠
            (st.closeAt charIndex).separatorIndex := by
          show ¬ st.separatorIndex + 1 ≠ (charIndex : Int)
          rw [hcur, length_nil] at hchar
          omega
        have hrec := ih [] k (charIndex + 1) (st.closeAt charIndex) hindex (by
          show (charIndex : Int) + 1 + 0 = _
          omega)
        rw [if_neg hempty, hrec, hlength, hcur, getSubFieldLoop_empty hc]
      · have hpos : 0 < cur.length := length_pos_iff.mpr hcur
        have hcounts : (st.closeAt charIndex).subFieldBegin ≠
            (st.closeAt charIndex).separatorIndex := by
          show st.separatorIndex + 1 ≠ (charIndex : Int)
          omega
        rw [if_pos hcounts]
        cases k with
        | zero =>
          -- the next turn of the loop finds the count reached
          have hfound : st.subFieldI + 1 = subFieldIndex := by omega
          have hreached : ¬ st.subFieldI + 1 < subFieldIndex := by omega
          rw [scanLoop_of_reached hreached]
          rw [Option.bind_some, getSubFieldLoop_zero hc hcur, Option.map_some]
          show (if st.subFieldI + 1 = subFieldIndex then _ else _) = _
          rw [if_pos hfound]
          show some (SubField.mk (st.separatorIndex + 1) (charIndex - (st.separatorIndex + 1))
            charIndex) = _
          simp only [Option.some_inj, SubField.mk.injEq]
          omega
        | succ k =>
          have hrec := ih [] k (charIndex + 1)
            { st.closeAt charIndex with subFieldI := st.subFieldI + 1 }
            (by show st.subFieldI + 1 + 1 + k = _; omega)
            (by show (charIndex : Int) + 1 + 0 = _; omega)
          rw [← hlength, getSubFieldLoop_succ hc hcur]
          exact hrec
    · have hrec := ih (cur ++ [c]) k (charIndex + 1) st hindex (by
        rw [length_append, length_singleton]
        omega)
      rw [if_neg hc, hrec, hlength, getSubFieldLoop_plain hc]

theorem getSubFieldAt_eq (textField : Text) (textFieldLength : Int) (index : Nat)
    (subFieldSeparators : Text) :
    getSubFieldAt textField textFieldLength index subFieldSeparators false =
      (getSubFieldPtr (fieldOf textField textFieldLength) index
        (isSeparator subFieldSeparators)).map fun p =>
          ⟨((fieldOf textField textFieldLength).length : Int) - p.2.length - p.1.length, p.1.length,
            ((fieldOf textField textFieldLength).length : Int) - p.2.length⟩ := by
  have hloop := scanLoop_found subFieldSeparators index (fieldOf textField textFieldLength) [] index
    0 ⟨-1, 0, -1⟩ (by show (-1 : Int) + 1 + index = index; omega) rfl
  rw [getSubFieldAt, hloop, getSubFieldPtr]
  simp only [Nat.cast_zero, Int.zero_add]

/-! ## Which text is found -/

/-- Nothing stands behind the last separator, or there is no text at all. -/
def EndsEmpty (sep : Byte → Bool) (cur field : Text) : Prop :=
  (field = [] → cur = []) ∧ ∀ c ∈ field.getLast?, sep c = true

instance (sep : Byte → Bool) (cur field : Text) : Decidable (EndsEmpty sep cur field) :=
  inferInstanceAs (Decidable (_ ∧ _))

/-- The pieces that count, with what stands behind the last separator. -/
def countedPieces (sep : Byte → Bool) (cur field : Text) : List Text :=
  segmentsAux sep cur field ++ if EndsEmpty sep cur field then [[]] else []

theorem endsEmpty_of_sep {sep : Byte → Bool} {c : Byte} (hc : sep c = true) (cur cs : Text) :
    EndsEmpty sep cur (c :: cs) ↔ EndsEmpty sep [] cs := by
  cases cs with
  | nil => simp [EndsEmpty, hc]
  | cons d cs => simp [EndsEmpty, getLast?_cons_cons]

theorem endsEmpty_of_not_sep {sep : Byte → Bool} {c : Byte} (hc : ¬ sep c = true) (cur cs : Text) :
    EndsEmpty sep cur (c :: cs) ↔ EndsEmpty sep (cur ++ [c]) cs := by
  cases cs with
  | nil => simp [EndsEmpty, hc]
  | cons d cs => simp [EndsEmpty, getLast?_cons_cons]

theorem countedPieces_empty {sep : Byte → Bool} {c : Byte} (hc : sep c = true) (cs : Text) :
    countedPieces sep [] (c :: cs) = countedPieces sep [] cs := by
  simp only [countedPieces, segmentsAux, hc, if_true, endsEmpty_of_sep hc]

theorem countedPieces_counted {sep : Byte → Bool} {c : Byte} (hc : sep c = true) {cur : Text}
    (hcur : cur ≠ []) (cs : Text) :
    countedPieces sep cur (c :: cs) = cur :: countedPieces sep [] cs := by
  simp only [countedPieces, segmentsAux, hc, hcur, if_true, if_false, endsEmpty_of_sep hc,
    cons_append]

theorem countedPieces_plain {sep : Byte → Bool} {c : Byte} (hc : ¬ sep c = true) (cur cs : Text) :
    countedPieces sep cur (c :: cs) = countedPieces sep (cur ++ [c]) cs := by
  simp only [countedPieces, segmentsAux, if_neg hc, endsEmpty_of_not_sep hc]

theorem countedPieces_nil (sep : Byte → Bool) (cur : Text) : countedPieces sep cur [] = [cur] := by
  by_cases hcur : cur = [] <;> simp [countedPieces, segmentsAux, EndsEmpty, hcur]

theorem getSubFieldLoop_map_fst (sep : Byte → Bool) : ∀ (field cur : Text) (k : Nat),
    (getSubFieldLoop sep k cur field).map Prod.fst = (countedPieces sep cur field)[k]? := by
  intro field
  induction field with
  | nil =>
    intro cur k
    rw [getSubFieldLoop, countedPieces_nil]
    cases k <;> rfl
  | cons c cs ih =>
    intro cur k
    by_cases hc : sep c = true
    · by_cases hcur : cur = []
      · rw [hcur, countedPieces_empty hc, ← ih, getSubFieldLoop_empty hc]
      · rw [countedPieces_counted hc hcur]
        cases k with
        | zero => rw [getSubFieldLoop_zero hc hcur]; rfl
        | succ k => rw [getSubFieldLoop_succ hc hcur, ih, getElem?_cons_succ]
    · rw [countedPieces_plain hc, ← ih, getSubFieldLoop_plain hc]

theorem length_countedPieces_le (sep : Byte → Bool) :
    ∀ field cur : Text, (countedPieces sep cur field).length ≤ field.length + 1 := by
  intro field
  induction field with
  | nil =>
    intro cur
    rw [countedPieces_nil]
    rfl
  | cons c cs ih =>
    intro cur
    have hrest := ih []
    rw [length_cons]
    by_cases hc : sep c = true
    · by_cases hcur : cur = []
      · rw [hcur, countedPieces_empty hc]
        omega
      · rw [countedPieces_counted hc hcur, length_cons]
        omega
    · have hsame := ih (cur ++ [c])
      rw [countedPieces_plain hc]
      omega

theorem exists_lead_of_getSubFieldLoop {sep : Byte → Bool} {sub rest : Text} :
    ∀ {field cur : Text} {k : Nat}, getSubFieldLoop sep k cur field = some (sub, rest) →
      ∃ lead, cur ++ field = lead ++ (sub ++ rest) := by
  intro field
  induction field with
  | nil =>
    intro cur k h
    rw [getSubFieldLoop] at h
    split at h
    · obtain ⟨rfl, rfl⟩ := Prod.mk.inj (Option.some_inj.mp h)
      exact ⟨[], rfl⟩
    · cases h
  | cons c cs ih =>
    intro cur k h
    by_cases hc : sep c = true
    · have hnext {j : Nat} (hj : getSubFieldLoop sep j [] cs = some (sub, rest)) :
          ∃ lead, cur ++ c :: cs = lead ++ (sub ++ rest) := by
        obtain ⟨lead, hlead⟩ := ih hj
        exact ⟨cur ++ c :: lead, by rw [nil_append] at hlead; simp [hlead]⟩
      by_cases hcur : cur = []
      · rw [hcur, getSubFieldLoop_empty hc] at h
        exact hnext h
      · cases k with
        | zero =>
          rw [getSubFieldLoop_zero hc hcur] at h
          obtain ⟨rfl, rfl⟩ := Prod.mk.inj (Option.some_inj.mp h)
          exact ⟨[], rfl⟩
        | succ k =>
          rw [getSubFieldLoop_succ hc hcur] at h
          exact hnext h
    · rw [getSubFieldLoop_plain hc] at h
      obtain ⟨lead, hlead⟩ := ih h
      exact ⟨lead, by rw [← hlead, append_assoc, singleton_append]⟩

/-- What is scanned stands at the front of the buffer. -/
theorem fieldOf_prefix (textField : Text) (textFieldLength : Int) :
    fieldOf textField textFieldLength <+: textField := by
  unfold fieldOf
  split
  · exact (List.takeWhile_prefix _).trans (List.take_prefix _ _)
  · exact takeWhile_prefix _

theorem getSubFieldAt_value (textField : Text) (textFieldLength : Int) (index : Nat)
    (subFieldSeparators : Text) :
    (getSubFieldAt textField textFieldLength index subFieldSeparators false).map
        (·.value textField) = (countedPieces (isSeparator subFieldSeparators) []
        (fieldOf textField textFieldLength))[index]? := by
  rw [getSubFieldAt_eq, ← getSubFieldLoop_map_fst, Option.map_map]
  refine Option.map_congr fun p hp => ?_
  obtain ⟨lead, hlead⟩ := exists_lead_of_getSubFieldLoop hp
  obtain ⟨tail, htail⟩ := fieldOf_prefix textField textFieldLength
  rw [nil_append] at hlead
  have hoffset : (((fieldOf textField textFieldLength).length : Int) - p.2.length -
      p.1.length).toNat = lead.length := by
    rw [hlead]
    simp only [length_append]
    omega
  show (textField.drop _).take _ = p.1
  rw [hoffset, Int.toNat_natCast, ← htail, hlead]
  simp

/-! ## Against splitting and indexing -/

/-- What is reported is found for the indices of the pieces, and is then the piece of
that index. -/
def IsPieceAt (pieces : List Text) (index : Nat) (reported : Option Text) : Prop :=
  (reported.isSome = true ↔ index < pieces.length) ∧
    ∀ sub ∈ reported, pieces[index]? = some sub

theorem isPieceAt_iff (pieces : List Text) (index : Nat) (reported : Option Text) :
    IsPieceAt pieces index reported ↔ reported = pieces[index]? := by
  constructor
  · rintro ⟨hfound, hsub⟩
    cases hreported : reported with
    | none =>
      rw [hreported] at hfound
      exact (getElem?_eq_none (Nat.le_of_not_lt fun hlt => Bool.false_ne_true
        (hfound.mpr hlt))).symm
    | some sub => exact (hsub sub hreported).symm
  · rintro rfl
    exact ⟨by simp, fun sub hsub => hsub⟩

theorem getElem?_countedPieces_iff (sep : Byte → Bool) (field : Text) (index : Nat) :
    (countedPieces sep [] field)[index]? = (segments sep field)[index]? ↔
      ¬ (index = (segments sep field).length ∧ EndsEmpty sep [] field) := by
  rw [countedPieces]
  show (segments sep field ++ _)[index]? = _ ↔ _
  by_cases hends : EndsEmpty sep [] field
  · rw [if_pos hends]
    rcases Nat.lt_trichotomy index (segments sep field).length with hlt | rfl | hgt
    · rw [getElem?_append_left hlt]
      simp [Nat.ne_of_lt hlt]
    · simp [hends]
    · have hlen : (segments sep field ++ [[]]).length ≤ index := by
        rw [length_append, length_singleton]
        omega
      rw [getElem?_eq_none hlen, getElem?_eq_none (Nat.le_of_lt hgt)]
      simp [Nat.ne_of_gt hgt]
  · rw [if_neg hends, append_nil]
    simp [hends]

/-- The subfields that a loop over the indices sees, from an index on until one is not
found. -/
def visited (textField : Text) (textFieldLength : Int) (subFieldSeparators : Text) :
    (fuel index : Nat) → List Text
  | 0, _ => []
  | fuel + 1, index =>
    match getSubFieldAt textField textFieldLength index subFieldSeparators false with
    | none => []
    | some sub =>
      sub.value textField ::
        visited textField textFieldLength subFieldSeparators fuel (index + 1)

theorem visited_eq_drop (textField : Text) (textFieldLength : Int) (subFieldSeparators : Text) :
    ∀ fuel index : Nat, (countedPieces (isSeparator subFieldSeparators) []
        (fieldOf textField textFieldLength)).length ≤ index + fuel →
      visited textField textFieldLength subFieldSeparators fuel index =
        (countedPieces (isSeparator subFieldSeparators) []
          (fieldOf textField textFieldLength)).drop index := by
  intro fuel
  induction fuel with
  | zero =>
    intro index hlen
    rw [visited]
    exact (drop_eq_nil_of_le hlen).symm
  | succ fuel ih =>
    intro index hlen
    have hvalue := getSubFieldAt_value textField textFieldLength index subFieldSeparators
    rw [visited]
    cases hat : getSubFieldAt textField textFieldLength index subFieldSeparators false with
    | none =>
      rw [hat, Option.map_none] at hvalue
      exact (drop_eq_nil_of_le (List.getElem?_eq_none_iff.mp hvalue.symm)).symm
    | some sub =>
      rw [hat, Option.map_some] at hvalue
      obtain ⟨hindex, hsub⟩ := List.getElem?_eq_some_iff.mp hvalue.symm
      rw [drop_eq_getElem_cons hindex, hsub]
      exact congrArg _ (ih (index + 1) (by omega))

theorem fieldOf_length_cString (textField : Text) :
    fieldOf textField (cString textField).length = cString textField := by
  have hprefix : cString textField <+: textField := takeWhile_prefix _
  rw [fieldOf, if_pos (Int.natCast_nonneg _), Int.toNat_natCast,
    ← prefix_iff_eq_take.mp hprefix]
  exact cString_eq_self fun c hc => mem_takeWhile_imp (p := (· != 0)) hc

/-- A text that was found as the string holds it. -/
def reportedText (result : Bool × Text) : Option Text := if result.1 then some result.2 else none

/-- The two forms of `getSubField` report the same, but for a field over the limit. -/
theorem reportedText_getSubFieldText (textField : Text) (index : Int) (subFieldSeparators : Text)
    (validateChars : Bool) (old : Text) :
    reportedText (getSubFieldText textField index subFieldSeparators validateChars old) =
      if maxFieldLength < (cString textField).length then none
      else (getSubFieldAt textField (cString textField).length index subFieldSeparators
        validateChars).map (·.value textField) := by
  rw [getSubFieldText]
  by_cases hlong : maxFieldLength < (cString textField).length
  · rw [if_pos hlong, if_pos hlong]
    rfl
  · rw [if_neg hlong, if_neg hlong]
    cases getSubFieldAt textField (cString textField).length index subFieldSeparators
        validateChars with
    | none => rfl
    | some sub =>
      rw [Option.map_some]
      show some (if 0 < sub.subFieldLength then sub.value textField else []) = _
      by_cases hpos : 0 < sub.subFieldLength
      · rw [if_pos hpos]
      · have hzero : sub.subFieldLength.toNat = 0 := by omega
        rw [if_neg hpos, SubField.value, hzero, take_zero]

/-- `getSubField` splits and indexes, but for one index: behind the last piece of a text
that is empty or ends with a separator, it finds one more, empty subfield. -/
theorem getSubField_isPieceAt_iff (textField : Text) (textFieldLength : Int)
    (subFieldSeparators : Text) :
    let sep := isSeparator subFieldSeparators
    let field := fieldOf textField textFieldLength
    let string := cString textField
    (∀ index : Nat,
      IsPieceAt (segments sep field) index
          ((getSubFieldAt textField textFieldLength index subFieldSeparators false).map
            (·.value textField)) ↔
        ¬ (index = (segments sep field).length ∧ EndsEmpty sep [] field)) ∧
    (∀ (index : Nat) (old : Text),
      IsPieceAt (segments sep string) index
          (reportedText (getSubFieldText textField index subFieldSeparators false old)) ↔
        if maxFieldLength < string.length then (segments sep string).length ≤ index
        else ¬ (index = (segments sep string).length ∧ EndsEmpty sep [] string)) ∧
    ∀ extra : Nat,
      visited textField textFieldLength subFieldSeparators (field.length + 1 + extra) 0 =
          segments sep field ↔
        ¬ EndsEmpty sep [] field := by
  intro sep field string
  refine ⟨fun index => ?_, fun index old => ?_, fun extra => ?_⟩
  · rw [isPieceAt_iff, getSubFieldAt_value]
    exact getElem?_countedPieces_iff sep field index
  · rw [isPieceAt_iff, reportedText_getSubFieldText]
    by_cases hlong : maxFieldLength < string.length
    · rw [if_pos hlong, if_pos hlong, eq_comm]
      exact List.getElem?_eq_none_iff
    · rw [if_neg hlong, if_neg hlong, getSubFieldAt_value, fieldOf_length_cString]
      exact getElem?_countedPieces_iff sep string index
  · have hlen : (countedPieces sep [] field).length ≤ 0 + (field.length + 1 + extra) := by
      have hle := length_countedPieces_le sep field []
      omega
    have hvisited : visited textField textFieldLength subFieldSeparators
        (field.length + 1 + extra) 0 = countedPieces sep [] field :=
      visited_eq_drop textField textFieldLength subFieldSeparators _ 0 hlen
    rw [hvisited, countedPieces]
    show segments sep field ++ _ = segments sep field ↔ _
    by_cases hends : EndsEmpty sep [] field <;> simp only [hends] <;> simp

/-- Behind `a,` a second subfield is found. -/
theorem not_isPieceAt_trailing_separator :
    ¬ IsPieceAt (segments (isSeparator (text ",")) (text "a,")) 1
      ((getSubFieldAt (text "a,") 2 1 (text ",") false).map (·.value (text "a,"))) := by
  intro h
  exact absurd (h.1.mp (by decide)) (by decide)

end NameValueTokenizer

end SipXRouter
