import Mathlib.Data.List.Basic
import Mathlib.Data.List.TakeWhile
import Mathlib.Tactic

/-!
# Byte texts

The programs modelled over this file handle `const char*` strings and string
objects that own a length and a buffer.  Both are lists of bytes here; a list
that stands for a C string holds no NUL byte.

## Design notes

`text` goes through the characters of the literal, so that closed texts
evaluate in the kernel and a concrete run is closed by `decide`.
-/

namespace SipXRouter

open List

/-- One `char` of the source. -/
abbrev Byte := UInt8

/-- A byte string. -/
abbrev Text := List Byte

instance : LawfulBEq Text := inferInstanceAs (LawfulBEq (List Byte))

/-- The byte of an ASCII character. -/
abbrev byte (c : Char) : Byte := c.toUInt8

/-- A property of bytes is decided by trying all of them. -/
instance (priority := low) decidableForallByte {P : Byte → Prop} [DecidablePred P] : Decidable (∀ c, P c) :=
  decidable_of_iff (∀ k : Fin 256, P (UInt8.ofFin k)) ⟨fun h c => h c.toFin, fun h _ => h _⟩

/-- A property of the bytes of a text is decided by going through the text. -/
instance (priority := 2000) decidableForallMemText {P : Byte → Prop} [DecidablePred P] (s : Text) :
    Decidable (∀ c ∈ s, P c) :=
  decidableBAll P s

/-- The bytes of an ASCII literal. -/
def text (s : String) : Text := s.toList.map byte

/-- The bytes of a string up to its first NUL, as a C string shows them. -/
def cString (s : Text) : Text := s.takeWhile (· != 0)

variable {s : Text}

theorem cString_eq_self (hs : ∀ c ∈ s, (c != 0) = true) : cString s = s :=
  takeWhile_eq_self_iff.mpr hs

/-! ## Character classes -/

/-- Membership in a range of bytes, as written `[lo-hi]` in a pattern. -/
def inRange (lo hi : Char) (c : Byte) : Bool :=
  decide (byte lo ≤ c) && decide (c ≤ byte hi)

/-- Membership in a list of bytes. -/
def oneOf (s : String) (c : Byte) : Bool := (text s).contains c

def isDigit : Byte → Bool := inRange '0' '9'

def isUpper : Byte → Bool := inRange 'A' 'Z'

def isLower : Byte → Bool := inRange 'a' 'z'

def isAlpha (c : Byte) : Bool := isLower c || isUpper c

def isAlnum (c : Byte) : Bool := isAlpha c || isDigit c

/-- `[0-9a-fA-F]`. -/
def isHex (c : Byte) : Bool := isDigit c || inRange 'a' 'f' c || inRange 'A' 'F' c

/-- `[0-9a-f]`, the digits `sprintf("%02x")` writes. -/
def isHexLower (c : Byte) : Bool := isDigit c || inRange 'a' 'f' c

/-- `[0-9A-F]`, the digits `sprintf("%lX")` writes. -/
def isHexUpper (c : Byte) : Bool := isDigit c || inRange 'A' 'F' c

/-- The bytes the class `\s` stands for: blank, tab, newline, form feed and
carriage return. -/
def isSpace : Byte → Bool := oneOf " \t\n\x0c\r"

/-! ## Case -/

def toLower (c : Byte) : Byte := if isUpper c then c + 32 else c

def toUpper (c : Byte) : Byte := if isLower c then c - 32 else c

theorem toLower_spec : ∀ c : Byte, toLower (toLower c) = toLower c ∧
    toUpper (toLower c) = toUpper c ∧ toLower (toUpper c) = toLower c ∧
    isAlnum (toLower c) = isAlnum c ∧ isHex (toLower c) = isHex c ∧
    (isAlnum c = false → toLower c = c) := by
  decide +kernel

variable {c : Byte}

theorem ne_of_class {p : Byte → Bool} {b : Byte} (hc : p c = true) (hb : p b = false) : c ≠ b := by
  rintro rfl
  exact Bool.false_ne_true (hb.symm.trans hc)

theorem cString_of_notMem (hs : (0 : Byte) ∉ s) : cString s = s :=
  cString_eq_self fun _ hc => bne_iff_ne.mpr fun heq => hs (heq ▸ hc)

theorem cString_of_class {p : Byte → Bool} (hs : ∀ c ∈ s, p c = true)
    (hp : p 0 = false) : cString s = s :=
  cString_of_notMem fun hzero => ne_of_class (hs 0 hzero) hp rfl

theorem oneOf_of_class {p : Byte → Bool} {marks : String} (hc : p c = true)
    (hmarks : ∀ b ∈ text marks, p b = false) : oneOf marks c = false := by
  cases hmark : oneOf marks c with
  | false => rfl
  | true => exact absurd rfl (ne_of_class hc (hmarks c (by simpa [oneOf] using hmark)))

/-- Equality without regard to ASCII case. -/
def caseEq (a b : Text) : Bool := a.map toLower == b.map toLower

@[simp] theorem caseEq_refl (a : Text) : caseEq a a = true := by
  simp [caseEq]

theorem caseEq_iff (a b : Text) : caseEq a b = true ↔ a.map toLower = b.map toLower := by
  simp [caseEq]

theorem caseEq_comm (a b : Text) : caseEq a b = caseEq b a := by
  rw [Bool.eq_iff_iff, caseEq_iff, caseEq_iff]
  exact eq_comm

variable {a b : Text}

theorem caseEq_trans {c : Text} (hab : caseEq a b = true) (hbc : caseEq b c = true) :
    caseEq a c = true := by
  rw [caseEq_iff] at *
  exact hab.trans hbc

/-- `UtlString::contains`. -/
def containsText (needle s : Text) : Bool := s.tails.any needle.isPrefixOf

theorem containsText_iff {needle : Text} : containsText needle s = true ↔ needle <:+: s := by
  rw [containsText, any_eq_true, infix_iff_prefix_suffix]
  refine exists_congr fun t => ?_
  rw [mem_tails, isPrefixOf_iff_prefix, and_comm]

/-! ## Numbers -/

/-- Decimal digits, as `%d` prints a number that is not negative. -/
def natText (n : Nat) : Text := (Nat.toDigits 10 n).map byte

/-- `%d`. -/
def intText : Int → Text
  | .ofNat n => natText n
  | .negSucc n => byte '-' :: natText (n + 1)

/-- Upper case hexadecimal digits, as `%lX` prints a number that is not negative. -/
def hexText (n : Nat) : Text := (Nat.toDigits 16 n).map fun c => toUpper (byte c)

/-- The value of one hexadecimal digit. -/
def hexValue (c : Byte) : Nat :=
  if isDigit c then c.toNat - 48
  else if inRange 'a' 'f' c then c.toNat - 87
  else c.toNat - 55

/-- The value of a string of digits, most significant first. -/
def digitsValue (base : Nat) (s : Text) : Nat :=
  s.foldl (fun acc c => acc * base + hexValue c) 0

theorem exists_digit_of_mem_toDigits {b : Nat} (hb : 1 < b) {c : Char} :
    ∀ {n : Nat}, c ∈ Nat.toDigits b n → ∃ d < b, c = Nat.digitChar d := by
  intro n
  induction n using Nat.strong_induction_on with
  | h n ih =>
    intro hc
    rw [Nat.toDigits_eq_if hb] at hc
    split at hc
    · next hlt => exact ⟨n, hlt, mem_singleton.mp hc⟩
    · next hge =>
        rcases mem_append.mp hc with hc | hc
        · exact ih (n / b) (Nat.div_lt_self (by omega) hb) hc
        · exact ⟨n % b, Nat.mod_lt n (by omega), mem_singleton.mp hc⟩

theorem isDigit_of_mem_natText {n : Nat} : ∀ c ∈ natText n, isDigit c = true := by
  intro c hc
  obtain ⟨c, hc', rfl⟩ := mem_map.mp hc
  obtain ⟨d, hd, rfl⟩ := exists_digit_of_mem_toDigits (by decide) hc'
  have hdigits : ∀ d : Fin 10, isDigit (byte (Nat.digitChar d)) = true := by decide
  exact hdigits ⟨d, hd⟩

theorem isHexUpper_of_mem_hexText {n : Nat} : ∀ c ∈ hexText n, isHexUpper c = true := by
  intro c hc
  obtain ⟨c, hc', rfl⟩ := mem_map.mp hc
  obtain ⟨d, hd, rfl⟩ := exists_digit_of_mem_toDigits (by decide) hc'
  have hdigits : ∀ d : Fin 16, isHexUpper (toUpper (byte (Nat.digitChar d))) = true := by decide
  exact hdigits ⟨d, hd⟩

theorem natText_ne_nil (n : Nat) : natText n ≠ [] := by
  simp [natText, Nat.toDigits_ne_nil]

theorem hexText_ne_nil (n : Nat) : hexText n ≠ [] := by
  simp [hexText, Nat.toDigits_ne_nil]

/-- The bytes of a number with zeros in front are digits. -/
theorem forall_mem_padded {P : Byte → Prop} {b : Nat} (hb : 1 < b)
    (hP : ∀ d < b, P (byte (Nat.digitChar d))) (k n : Nat) :
    ∀ c ∈ replicate k (byte '0') ++ (Nat.toDigits b n).map byte, P c := by
  intro c hc
  rcases mem_append.mp hc with hc | hc
  · rw [eq_of_mem_replicate hc]
    exact hP 0 (by omega)
  · obtain ⟨c, hc', rfl⟩ := mem_map.mp hc
    obtain ⟨d, hd, rfl⟩ := exists_digit_of_mem_toDigits hb hc'
    exact hP d hd

/-- Zeros in front of a number do not count. -/
theorem digitsValue_zeros (base k : Nat) (s : Text) :
    digitsValue base (replicate k (byte '0') ++ s) = digitsValue base s := by
  have hzeros : (replicate k (byte '0')).foldl (fun acc c => acc * base + hexValue c) 0 = 0 := by
    induction k with
    | zero => rfl
    | succ k ih =>
      rw [replicate_succ, foldl_cons, show hexValue (byte '0') = 0 by decide, Nat.zero_mul]
      exact ih
  rw [digitsValue, foldl_append, hzeros]
  rfl

theorem digitsValue_toDigits {base : Nat} (hbase : 1 < base) (hbase16 : base ≤ 16) (n : Nat) :
    digitsValue base ((Nat.toDigits base n).map byte) = n := by
  have hvalue : ∀ d : Fin 16, hexValue (byte (Nat.digitChar d)) = d := by decide
  induction n using Nat.strong_induction_on with
  | h n ih =>
    rw [Nat.toDigits_eq_if hbase]
    split
    · next hlt =>
        have := hvalue ⟨n, by omega⟩
        simpa [digitsValue] using this
    · next hge =>
        have hrec := ih (n / base) (Nat.div_lt_self (by omega) hbase)
        have hlast := hvalue ⟨n % base, (Nat.mod_lt n (by omega)).trans_le hbase16⟩
        rw [digitsValue] at hrec
        rw [map_append, digitsValue, foldl_append, hrec]
        simp only [map_cons, map_nil, foldl_cons, foldl_nil]
        rw [hlast]
        exact Nat.div_add_mod' n base

theorem digitsValue_natText (n : Nat) : digitsValue 10 (natText n) = n :=
  digitsValue_toDigits (by decide) (by decide) n

/-- Conversion to `int`. -/
def toInt32 (i : Int) : Int := (i + 2 ^ 31) % 2 ^ 32 - 2 ^ 31

/-- Conversion to `unsigned int`. -/
def toUInt32 (i : Int) : Nat := (i % 2 ^ 32).toNat

/-- Conversion to `unsigned long`. -/
def toUInt64 (i : Int) : Nat := (i % 2 ^ 64).toNat

/-- The white space of `isspace`. -/
def isCSpace : Byte → Bool := oneOf " \t\n\x0b\x0c\r"

/-- A number in the range of a `long`. -/
def saturate (n : Int) : Int := max (-2 ^ 63) (min n (2 ^ 63 - 1))

theorem saturate_eq_self {n : Int} (hmin : -2 ^ 63 ≤ n) (hmax : n < 2 ^ 63) : saturate n = n := by
  rw [saturate]
  omega

/-- `strtol` in base 10: the number, and what follows it.  Without a digit the number is zero and
the whole text follows; a number that is no `long` is read as the nearest one. -/
def strtol (s : Text) : Int × Text :=
  let start := s.dropWhile isCSpace
  let sign := start.take 1
  let digits := if sign = [byte '-'] ∨ sign = [byte '+'] then start.drop 1 else start
  if digits.takeWhile isDigit = [] then (0, s)
  else
    let value : Int := digitsValue 10 (digits.takeWhile isDigit)
    (saturate (if sign = [byte '-'] then -value else value), digits.dropWhile isDigit)

/-! ## Trimming -/

/-- Drop the bytes of a class from the front and from the back. -/
def trim (blank : Byte → Bool) (s : Text) : Text :=
  ((s.dropWhile blank).reverse.dropWhile blank).reverse

@[simp] theorem trim_nil (blank : Byte → Bool) : trim blank [] = [] := rfl

theorem trim_eq_self {blank : Byte → Bool} (hfront : ∀ c ∈ s.head?, blank c = false)
    (hback : ∀ c ∈ s.getLast?, blank c = false) : trim blank s = s := by
  have hdrop : s.dropWhile blank = s := by
    cases s with
    | nil => rfl
    | cons c cs => simp [hfront c (by simp)]
  have hdropr : s.reverse.dropWhile blank = s.reverse := by
    cases hr : s.reverse with
    | nil => rfl
    | cons c cs =>
      have hlast : s.getLast? = some c := by
        rw [← head?_reverse, hr, head?_cons]
      simp [hback c (by simp [hlast])]
  rw [trim, hdrop, hdropr, reverse_reverse]

theorem mem_trim {blank : Byte → Bool} (hc : c ∈ s) (hblank : blank c = false) :
    c ∈ trim blank s := by
  have hdrop : ∀ s : Text, c ∈ s → c ∈ s.dropWhile blank := by
    intro s hs
    rw [← takeWhile_append_dropWhile (p := blank) (l := s), mem_append] at hs
    refine hs.resolve_left fun h => ?_
    rw [mem_takeWhile_imp h] at hblank
    exact absurd hblank (by simp)
  exact mem_reverse.mpr (hdrop _ (mem_reverse.mpr (hdrop s hc)))

theorem trim_subset (blank : Byte → Bool) (s : Text) : trim blank s ⊆ s := by
  intro c hc
  have hback := (dropWhile_sublist blank).subset (mem_reverse.mp hc)
  exact (dropWhile_sublist blank).subset (mem_reverse.mp hback)

theorem getLast?_trim (blank : Byte → Bool) (s : Text) :
    ∀ c ∈ (trim blank s).getLast?, blank c = false := by
  intro c hc
  rw [trim, getLast?_reverse] at hc
  have h := head?_dropWhile_not blank (s.dropWhile blank).reverse
  rw [hc] at h
  exact h

theorem head?_trim (blank : Byte → Bool) (s : Text) :
    ∀ c ∈ (trim blank s).head?, blank c = false := by
  intro c hc
  have hfront : ∀ c ∈ (s.dropWhile blank).head?, blank c = false := by
    intro c hc
    have h := head?_dropWhile_not blank s
    rw [hc] at h
    exact h
  -- what is dropped from the back leaves a first byte where it was
  obtain ⟨t, ht⟩ : ∃ t, s.dropWhile blank = trim blank s ++ t := by
    obtain ⟨t, ht⟩ := dropWhile_suffix blank (l := (s.dropWhile blank).reverse)
    refine ⟨t.reverse, ?_⟩
    rw [trim, ← reverse_append, ht, reverse_reverse]
  refine hfront c ?_
  rw [ht, head?_append, hc]
  rfl

theorem trim_trim (blank : Byte → Bool) (s : Text) : trim blank (trim blank s) = trim blank s :=
  trim_eq_self (head?_trim blank s) (getLast?_trim blank s)

theorem length_trim_le (blank : Byte → Bool) (s : Text) : (trim blank s).length ≤ s.length := by
  rw [trim, length_reverse]
  have hfront := (dropWhile_suffix blank (l := s)).length_le
  have hback := (dropWhile_suffix blank (l := (s.dropWhile blank).reverse)).length_le
  rw [length_reverse] at hback
  exact hback.trans hfront

variable {x : Text}

theorem dropWhile_append_of_visible {p : Byte → Bool} (hx : ∃ c ∈ x, p c = false)
    (y : Text) : (x ++ y).dropWhile p = x.dropWhile p ++ y := by
  induction x with
  | nil => exact absurd hx (by simp)
  | cons c x ih =>
    cases hc : p c with
    | true =>
      obtain ⟨d, hd, hfalse⟩ := hx
      have hmem : d ∈ x := by
        rcases mem_cons.mp hd with rfl | hd
        · exact absurd hc (by rw [hfalse]; simp)
        · exact hd
      rw [cons_append, dropWhile_cons_of_pos hc, dropWhile_cons_of_pos hc,
        ih ⟨d, hmem, hfalse⟩]
    | false =>
      rw [cons_append, dropWhile_cons_of_neg (by rw [hc]; simp),
        dropWhile_cons_of_neg (by rw [hc]; simp), cons_append]

theorem trim_of_blanks {p : Byte → Bool} {front back : Text}
    (hfront : ∀ c ∈ front, p c = true) (hback : ∀ c ∈ back, p c = true)
    (hs : ∃ c ∈ s, p c = false) : trim p (front ++ (s ++ back)) = trim p s := by
  have hback' : ∀ c ∈ back.reverse, p c = true := fun c hc => hback c (mem_reverse.mp hc)
  rw [trim, dropWhile_append_of_pos hfront, dropWhile_append_of_visible hs,
    reverse_append, dropWhile_append_of_pos hback', trim]

theorem trim_of_all {blank : Byte → Bool} (h : ∀ c ∈ s, blank c = true) : trim blank s = [] := by
  rw [trim, dropWhile_eq_nil_iff.mpr h]
  rfl

/-- A trimmed value comes out of the white space around it. -/
theorem trim_padded {blank : Byte → Bool} {front v back : Text} (hv : trim blank v = v)
    (hfront : ∀ c ∈ front, blank c = true) (hback : ∀ c ∈ back, blank c = true) :
    trim blank (front ++ (v ++ back)) = v := by
  by_cases hvisible : ∃ c ∈ v, blank c = false
  · rw [trim_of_blanks hfront hback hvisible, hv]
  · have hall : ∀ c ∈ v, blank c = true := by
      intro c hc
      by_contra hblank
      exact hvisible ⟨c, hc, Bool.eq_false_iff.mpr hblank⟩
    have hnil : v = [] := hv.symm.trans (trim_of_all hall)
    rw [hnil]
    refine trim_of_all fun c hc => ?_
    rcases mem_append.mp hc with hc | hc
    · exact hfront c hc
    · exact hback c hc

theorem dropWhile_concat {blank : Byte → Bool} (hc : blank c = true) (s : Text) :
    (s ++ [c]).dropWhile blank =
      if s.dropWhile blank = [] then [] else s.dropWhile blank ++ [c] := by
  by_cases hall : ∀ d ∈ s, blank d = true
  · rw [if_pos (dropWhile_eq_nil_iff.mpr hall), dropWhile_append_of_pos hall]
    exact dropWhile_cons_of_pos hc
  · have hne : s.dropWhile blank ≠ [] := fun hnil => hall (dropWhile_eq_nil_iff.mp hnil)
    rw [if_neg hne]
    refine dropWhile_append_of_visible ?_ [c]
    by_contra hnone
    exact hall fun d hd => by
      by_contra hblank
      exact hnone ⟨d, hd, Bool.eq_false_iff.mpr hblank⟩

theorem trim_concat {blank : Byte → Bool} (hc : blank c = true) (s : Text) :
    trim blank (s ++ [c]) = trim blank s := by
  have hfront : ∀ d ∈ ([] : Text), blank d = true := fun d hd => absurd hd not_mem_nil
  have hback : ∀ d ∈ [c], blank d = true := fun d hd => mem_singleton.mp hd ▸ hc
  by_cases hvisible : ∃ d ∈ s, blank d = false
  · exact trim_of_blanks hfront hback hvisible
  · have hall : ∀ d ∈ s, blank d = true := by
      intro d hd
      by_contra hblank
      exact hvisible ⟨d, hd, Bool.eq_false_iff.mpr hblank⟩
    rw [trim_of_all hall]
    refine trim_of_all fun d hd => ?_
    rcases mem_append.mp hd with hd | hd
    · exact hall d hd
    · exact hback d hd

/-! ## Splitting at a class -/

theorem takeWhile_eq_nil_of_head {p : Byte → Bool} (hs : ∀ c ∈ s.head?, p c = false) :
    s.takeWhile p = [] := by
  cases s with
  | nil => rfl
  | cons c cs => simp [hs c (by simp)]

theorem isDigit_marks : ∀ c : Byte, isDigit c = true →
    isCSpace c = false ∧ c ≠ byte '-' ∧ c ≠ byte '+' := by
  decide +kernel

/-- Digits are read up to the first byte that is none. -/
theorem strtol_digits {digits rest : Text} (hne : digits ≠ [])
    (hdigits : ∀ c ∈ digits, isDigit c = true) (hrest : ∀ c ∈ rest.head?, isDigit c = false) :
    strtol (digits ++ rest) = (saturate (digitsValue 10 digits), rest) := by
  have htake : (digits ++ rest).takeWhile isDigit = digits := by
    rw [takeWhile_append_of_pos hdigits, takeWhile_eq_nil_of_head hrest, append_nil]
  have hdrop : (digits ++ rest).dropWhile isDigit = rest := by
    have h := takeWhile_append_dropWhile (p := isDigit) (l := digits ++ rest)
    rw [htake] at h
    exact append_cancel_left h
  obtain ⟨c, more, rfl⟩ := exists_cons_of_ne_nil hne
  obtain ⟨hspace, hminus, hplus⟩ := isDigit_marks c (hdigits c mem_cons_self)
  have hstart : (c :: more ++ rest).dropWhile isCSpace = c :: more ++ rest := by
    simp [hspace]
  have hsign : ¬ ([c] = [byte '-'] ∨ [c] = [byte '+']) := by
    simp [hminus, hplus]
  have hminus' : [c] ≠ [byte '-'] := fun h => hsign (Or.inl h)
  have hfirst : (c :: more ++ rest).take 1 = [c] := rfl
  unfold strtol
  simp only [hstart, hfirst, if_neg hsign, if_neg hminus', htake, hdrop, if_neg hne]

theorem exists_span (p : Byte → Bool) (s : Text) :
    ∃ w t, s = w ++ t ∧ (∀ c ∈ w, p c = true) ∧ ∀ c ∈ t.head?, p c = false := by
  refine ⟨s.takeWhile p, s.dropWhile p, takeWhile_append_dropWhile.symm,
    fun c hc => mem_takeWhile_imp hc, ?_⟩
  intro c hc
  have h := head?_dropWhile_not p s
  rw [hc] at h
  exact h

variable {y : Text}

theorem append_inj_of_class {p : Byte → Bool} (ha : ∀ c ∈ a, p c = true)
    (hb : ∀ c ∈ b, p c = true) (hx : ∀ c ∈ x.head?, p c = false)
    (hy : ∀ c ∈ y.head?, p c = false) (h : a ++ x = b ++ y) : a = b ∧ x = y := by
  have htake := congrArg (takeWhile p) h
  rw [takeWhile_append_of_pos ha, takeWhile_append_of_pos hb,
    takeWhile_eq_nil_of_head hx, takeWhile_eq_nil_of_head hy, append_nil,
    append_nil] at htake
  subst htake
  exact ⟨rfl, append_cancel_left h⟩

theorem eq_nil_of_append_cons {z : Text} (h : x ++ c :: y = c :: z)
    (hz : c ∉ z) : x = [] ∧ y = z := by
  cases x with
  | nil => exact ⟨rfl, tail_eq_of_cons_eq h⟩
  | cons d x =>
    rw [cons_append, List.cons.injEq] at h
    have hmem : c ∈ z := by
      rw [← h.2]
      simp
    exact absurd hmem hz

theorem append_inj_of_class_right {p : Byte → Bool} (ha : ∀ c ∈ a, p c = true)
    (hb : ∀ c ∈ b, p c = true) (hx : ∀ c ∈ x.getLast?, p c = false)
    (hy : ∀ c ∈ y.getLast?, p c = false) (h : x ++ a = y ++ b) : x = y ∧ a = b := by
  have hrev : a.reverse ++ x.reverse = b.reverse ++ y.reverse := by
    rw [← reverse_append, ← reverse_append, h]
  obtain ⟨hab, hxy⟩ := append_inj_of_class (p := p) (by simpa using ha) (by simpa using hb)
    (by simpa using hx) (by simpa using hy) hrev
  exact ⟨reverse_injective hxy, reverse_injective hab⟩

/-! ## Segments -/

/-- The non-empty pieces of a text between separator bytes, with the piece
`cur` already read. -/
def segmentsAux (sep : Byte → Bool) : Text → Text → List Text
  | cur, [] => if cur = [] then [] else [cur]
  | cur, c :: cs =>
    if sep c then
      if cur = [] then segmentsAux sep [] cs else cur :: segmentsAux sep [] cs
    else segmentsAux sep (cur ++ [c]) cs

/-- The non-empty pieces of a text between separator bytes. -/
def segments (sep : Byte → Bool) (s : Text) : List Text := segmentsAux sep [] s

@[simp] theorem segments_nil (sep : Byte → Bool) : segments sep [] = [] := rfl

theorem segmentsAux_append {sep : Byte → Bool} (hs : ∀ c ∈ s, sep c = false)
    (cur rest : Text) : segmentsAux sep cur (s ++ rest) = segmentsAux sep (cur ++ s) rest := by
  induction s generalizing cur with
  | nil => simp
  | cons c cs ih =>
    have hc : sep c = false := hs c (by simp)
    have hcs : ∀ d ∈ cs, sep d = false := fun d hd => hs d (by simp [hd])
    simp [segmentsAux, hc, ih hcs]

theorem segments_eq_singleton {sep : Byte → Bool} (hne : s ≠ [])
    (hs : ∀ c ∈ s, sep c = false) : segments sep s = [s] := by
  have h := segmentsAux_append hs [] []
  simpa [segments, segmentsAux, hne] using h

/-- The pieces on both sides of a separator. -/
theorem segments_append_sep {sep : Byte → Bool} (hc : sep c = true) (s rest : Text) :
    segments sep (s ++ c :: rest) = segments sep s ++ segments sep rest := by
  have haux : ∀ cur, segmentsAux sep cur (s ++ c :: rest) =
      segmentsAux sep cur s ++ segmentsAux sep [] rest := by
    induction s with
    | nil =>
      intro cur
      by_cases hcur : cur = [] <;> simp [segmentsAux, hc, hcur]
    | cons d s ih =>
      intro cur
      by_cases hd : sep d = true
      · by_cases hcur : cur = [] <;> simp [segmentsAux, hd, hcur, ih]
      · simp [segmentsAux, hd, ih]
  exact haux []

variable {piece : Text}

theorem mem_segmentsAux {sep : Byte → Bool} :
    ∀ {cur : Text}, (∀ c ∈ cur, sep c = false) → piece ∈ segmentsAux sep cur s →
      piece ≠ [] ∧ ∀ c ∈ piece, sep c = false := by
  induction s with
  | nil =>
    intro cur hcur hmem
    by_cases hnil : cur = []
    · simp [segmentsAux, hnil] at hmem
    · simp only [segmentsAux, hnil, if_false, mem_singleton] at hmem
      subst hmem
      exact ⟨hnil, hcur⟩
  | cons d ds ih =>
    intro cur hcur hmem
    by_cases hd : sep d = true
    · by_cases hnil : cur = []
      · simp only [segmentsAux, hd, hnil, if_true] at hmem
        exact ih (by simp) hmem
      · simp only [segmentsAux, hd, hnil, if_true, if_false, mem_cons] at hmem
        rcases hmem with rfl | hmem
        · exact ⟨hnil, hcur⟩
        · exact ih (by simp) hmem
    · have hdf : sep d = false := by simpa using hd
      simp only [segmentsAux, hdf] at hmem
      refine ih ?_ hmem
      intro c hc
      rcases mem_append.mp hc with hc | hc
      · exact hcur c hc
      · rw [mem_singleton.mp hc]
        exact hdf

theorem mem_segments {sep : Byte → Bool} (h : piece ∈ segments sep s) :
    piece ≠ [] ∧ ∀ c ∈ piece, sep c = false :=
  mem_segmentsAux (by simp) h

theorem segmentsAux_subset {sep : Byte → Bool} :
    ∀ {cur : Text}, piece ∈ segmentsAux sep cur s → ∀ c ∈ piece, c ∈ cur ∨ c ∈ s := by
  induction s with
  | nil =>
    intro cur hmem c hc
    by_cases hnil : cur = []
    · simp [segmentsAux, hnil] at hmem
    · simp only [segmentsAux, hnil, if_false, mem_singleton] at hmem
      subst hmem
      exact Or.inl hc
  | cons d ds ih =>
    intro cur hmem c hc
    by_cases hd : sep d = true
    · by_cases hnil : cur = []
      · simp only [segmentsAux, hd, hnil, if_true] at hmem
        rcases ih hmem c hc with h | h
        · simp at h
        · exact Or.inr (mem_cons_of_mem _ h)
      · simp only [segmentsAux, hd, hnil, if_true, if_false, mem_cons] at hmem
        rcases hmem with rfl | hmem
        · exact Or.inl hc
        · rcases ih hmem c hc with h | h
          · simp at h
          · exact Or.inr (mem_cons_of_mem _ h)
    · have hdf : sep d = false := by simpa using hd
      simp only [segmentsAux, hdf] at hmem
      rcases ih hmem c hc with h | h
      · rcases mem_append.mp h with h | h
        · exact Or.inl h
        · exact Or.inr (by simp [mem_singleton.mp h])
      · exact Or.inr (mem_cons_of_mem _ h)

theorem segments_subset {sep : Byte → Bool} (h : piece ∈ segments sep s) : ∀ c ∈ piece, c ∈ s := by
  intro c hc
  simpa using segmentsAux_subset h c hc

end SipXRouter
