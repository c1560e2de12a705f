import SipXRouter.Bytes

/-!
# Splitting fields into subfields

`NameValueTokenizer::getSubField` scans a field for its `i`-th subfield.  An
empty subfield is not counted, except that the scan also stops at the end of
the field: what it has read since the last separator, possibly nothing, then
counts as a subfield.  The text delivered for index `i` is the `i`-th entry of
`segments`, or nothing.
-/

namespace SipXRouter

namespace NameValueTokenizer

def isCtl (c : Byte) : Bool := decide (c ≤ 8) || (decide (14 ≤ c) && decide (c ≤ 31)) || c == 127

/-- `isPrintableChar`; a `char` from 128 on is negative. -/
def isPrintableChar (c : Byte) : Bool := !isCtl c && decide (c ≤ 127)

/-- The scan of `getSubField`: `k` more subfields are to be passed over, and
`cur` was read since the last separator.  The result is the subfield and what
stands from the byte that ended it (`lastCharIndex`). -/
def getSubFieldLoop (sep : Byte → Bool) : Nat → Text → Text → Option (Text × Text)
  | k, cur, [] => if k = 0 then some (cur, []) else none
  | k, cur, c :: cs =>
    if sep c then
      -- empty subfields do not count
      if cur = [] then getSubFieldLoop sep k [] cs
      else
        match k with
        | 0 => some (cur, c :: cs)
        | k + 1 => getSubFieldLoop sep k [] cs
    else getSubFieldLoop sep k (cur ++ [c]) cs

/-- `getSubField` on a pointer and a length. -/
def getSubFieldPtr (field : Text) (index : Nat) (sep : Byte → Bool) : Option (Text × Text) :=
  getSubFieldLoop sep index [] field

/-- The longest field `getSubField` takes apart. -/
def maxFieldLength : Nat := 65536

/-- `getSubField` into a string that held `old`.  A field over the limit leaves
that string alone; a subfield that is not found empties it. -/
def getSubField (field : Text) (index : Nat) (sep : Byte → Bool) (old : Text) : Text :=
  if maxFieldLength < field.length then old
  else
    match getSubFieldPtr field index sep with
    | some (sub, _) => sub
    | none => []

/-- The class of the blanks that `frontBackTrim(…, " \t")` removes. -/
def isBlank : Byte → Bool := oneOf " \t"

/-- The first subfield ends at the first separator. -/
theorem getSubFieldPtr_zero {sep : Byte → Bool} {sub : Text} {c : Byte} (hne : sub ≠ [])
    (hsub : ∀ d ∈ sub, sep d = false) (hc : sep c = true) (rest : Text) :
    getSubFieldPtr (sub ++ c :: rest) 0 sep = some (sub, c :: rest) := by
  have hloop : ∀ (t cur : Text), (∀ d ∈ t, sep d = false) → cur ++ t ≠ [] →
      getSubFieldLoop sep 0 cur (t ++ c :: rest) = some (cur ++ t, c :: rest) := by
    intro t
    induction t with
    | nil =>
      intro cur _ hcur
      rw [List.append_nil] at hcur
      simp [getSubFieldLoop, hc, hcur]
    | cons d t ih =>
      intro cur ht _
      have hrec := ih (cur ++ [d]) (fun e he => ht e (by simp [he])) (by simp)
      simpa [getSubFieldLoop, ht d (by simp)] using hrec
  exact hloop sub [] hsub hne

theorem getSubFieldLoop_eq (sep : Byte → Bool) : ∀ (field cur : Text) (k : Nat),
    ((getSubFieldLoop sep k cur field).map Prod.fst).getD [] =
      (segmentsAux sep cur field)[k]?.getD [] := by
  intro field
  induction field with
  | nil =>
    intro cur k
    by_cases hcur : cur = []
    · by_cases hk : k = 0 <;> simp [getSubFieldLoop, segmentsAux, hcur, hk]
    · cases k <;> simp [getSubFieldLoop, segmentsAux, hcur]
  | cons c cs ih =>
    intro cur k
    by_cases hc : sep c = true
    · by_cases hcur : cur = []
      · simp [getSubFieldLoop, segmentsAux, hc, hcur, ih]
      · cases k with
        | zero => simp [getSubFieldLoop, segmentsAux, hc, hcur]
        | succ k => simp [getSubFieldLoop, segmentsAux, hc, hcur, ih]
    · simp [getSubFieldLoop, segmentsAux, hc, ih]

theorem getSubField_eq {field : Text} (hlen : field.length ≤ maxFieldLength) (index : Nat)
    (sep : Byte → Bool) (old : Text) :
    getSubField field index sep old = (segments sep field)[index]?.getD [] := by
  have hloop := getSubFieldLoop_eq sep field [] index
  rw [getSubField, if_neg (Nat.not_lt.mpr hlen), segments, ← hloop, getSubFieldPtr]
  cases getSubFieldLoop sep index [] field <;> rfl

theorem getSubField_of_long {field : Text} (hlen : maxFieldLength < field.length) (index : Nat)
    (sep : Byte → Bool) (old : Text) : getSubField field index sep old = old := by
  rw [getSubField, if_pos hlen]

end NameValueTokenizer

end SipXRouter
