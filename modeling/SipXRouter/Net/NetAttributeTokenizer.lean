import SipXRouter.Bytes

/-!
# Attribute lists

`NetAttributeTokenizer` takes a list of `name=value` attributes apart, with commas and
blanks between them.  A value may stand between quote characters, of which there are
two; inside, a quote character behind an odd number of escape characters does not end
the value.  Nothing is done about the escapes beyond that.
-/

namespace SipXRouter.NetAttributeTokenizer

open List

/-- `attributeSeparators`. -/
def isSeparator : Byte → Bool := oneOf ", \t\n\r"

/-- `quoteCharacters`. -/
def isQuoteCharacter : Byte → Bool := oneOf "'\""

def nameValueSeparator : Byte := byte '='

def escapeChar : Byte := byte '\\'

/-- The bytes that end a name. -/
def endsName (c : Byte) : Bool := isSeparator c || c == nameValueSeparator

/-- The number of contiguous escape characters, one byte on. -/
def countEscape (escapeCount : Nat) (c : Byte) : Nat := if c = escapeChar then escapeCount + 1 else 0

/-- Find the end quote: what stands before and what stands behind it. -/
def scanQuoted : (escapeCount : Nat) → Text → Text × Text
  | _, [] => ([], [])
  | escapeCount, c :: cs =>
    if isQuoteCharacter c ∧ escapeCount % 2 = 0 then ([], cs)
    else
      let scanned := scanQuoted (countEscape escapeCount c) cs
      (c :: scanned.1, scanned.2)

/-- `getNextAttribute`: name, value and what is left, or nothing where no name is found. -/
def getNextAttribute (s : Text) : Option (Text × Text × Text) :=
  let start := s.dropWhile isSeparator
  let name := start.takeWhile fun c => !endsName c
  let behindName := start.dropWhile fun c => !endsName c
  let rest := behindName.dropWhile endsName
  if name = [] then none
  else if (behindName.takeWhile endsName).contains nameValueSeparator then
    match rest with
    | [] => some (name, [], [])
    | c :: cs =>
      if isQuoteCharacter c then some (name, scanQuoted 0 cs)
      else
        some (name, rest.takeWhile fun c => !isSeparator c, rest.dropWhile fun c => !isSeparator c)
  else some (name, [], rest)

/-- `while(getNextAttribute(name, value))`. -/
def attributesFrom : (fuel : Nat) → Text → List (Text × Text)
  | 0, _ => []
  | fuel + 1, s =>
    match getNextAttribute s with
    | none => []
    | some (name, value, rest) => (name, value) :: attributesFrom fuel rest

/-- The attributes of a text.  Each of them takes at least a byte of it. -/
def attributes (s : Text) : List (Text × Text) := attributesFrom s.length s

/-! ## Attributes as they are written -/

/-- A text that ends where it should between quote characters: it holds none of them and
does not end in an odd number of escape characters. -/
def Quotable (value : Text) : Prop :=
  (∀ c ∈ value, isQuoteCharacter c = false) ∧ value.foldl countEscape 0 % 2 = 0

instance (value : Text) : Decidable (Quotable value) :=
  inferInstanceAs (Decidable (_ ∧ _))

/-- A text that is read as it stands without quote characters. -/
def Bare (value : Text) : Prop :=
  value ≠ [] ∧ (∀ c ∈ value, isSeparator c = false) ∧
    ∀ c ∈ value.head?, isQuoteCharacter c = false ∧ c ≠ nameValueSeparator

instance (value : Text) : Decidable (Bare value) :=
  inferInstanceAs (Decidable (_ ∧ _ ∧ _))

/-- An attribute, with what is written before it. -/
structure Attribute where
  lead : Text
  name : Text
  value : Text
  quoted : Bool

namespace Attribute

/-- An attribute as it is written, with quotes where its value has them. -/
def toText (a : Attribute) : Text :=
  a.lead ++ a.name ++ nameValueSeparator ::
    if a.quoted then byte '"' :: a.value ++ [byte '"'] else a.value

/-- An attribute that is read as it was meant. -/
structure Readable (a : Attribute) : Prop where
  lead : ∀ c ∈ a.lead, isSeparator c = true
  name_ne_nil : a.name ≠ []
  name : ∀ c ∈ a.name, endsName c = false
  value : if a.quoted then Quotable a.value else Bare a.value

end Attribute

/-! ## They are read back -/

theorem scanQuoted_append {value : Text} (hquote : ∀ c ∈ value, isQuoteCharacter c = false)
    (rest : Text) : ∀ escapeCount, value.foldl countEscape escapeCount % 2 = 0 →
      scanQuoted escapeCount (value ++ byte '"' :: rest) = (value, rest) := by
  induction value with
  | nil =>
    intro escapeCount heven
    have hclose : isQuoteCharacter (byte '"') = true := by decide
    rw [nil_append, scanQuoted, if_pos ⟨hclose, heven⟩]
  | cons c value ih =>
    intro escapeCount heven
    have hopen : ¬ (isQuoteCharacter c = true ∧ escapeCount % 2 = 0) := by
      rw [hquote c (by simp)]
      simp
    have hscan := ih (fun d hd => hquote d (by simp [hd])) (countEscape escapeCount c) heven
    rw [cons_append, scanQuoted, if_neg hopen, hscan]

theorem span_append {p : Byte → Bool} {s t : Text} (hs : ∀ c ∈ s, p c = true)
    (ht : ∀ c ∈ t.head?, p c = false) : (s ++ t).takeWhile p = s ∧ (s ++ t).dropWhile p = t := by
  constructor
  · rw [takeWhile_append_of_pos hs, takeWhile_eq_nil_of_head ht, append_nil]
  · rw [dropWhile_append_of_pos hs]
    cases t with
    | nil => rfl
    | cons c t => rw [dropWhile_cons_of_neg (by simp [ht c (by simp)])]

theorem Attribute.Readable.start {a : Attribute} (ha : a.Readable) :
    ∀ c ∈ a.name.head?, isSeparator c = false ∧ endsName c = false := by
  intro c hc
  have hname := ha.name c (mem_of_mem_head? hc)
  have hsep := hname
  rw [endsName, Bool.or_eq_false_iff] at hsep
  exact ⟨hsep.1, hname⟩

/-- One written attribute is read back, and the rest is left. -/
theorem getNextAttribute_toText {a : Attribute} (ha : a.Readable) {rest : Text}
    (hrest : ∀ c ∈ rest.head?, isSeparator c = true) :
    getNextAttribute (a.toText ++ rest) = some (a.name, a.value, rest) := by
  have hequals : endsName nameValueSeparator = true := by decide
  have hvalue := ha.value
  have htext : a.toText ++ rest = a.lead ++ (a.name ++ nameValueSeparator ::
      ((if a.quoted then byte '"' :: a.value ++ [byte '"'] else a.value) ++ rest)) := by
    simp [Attribute.toText]
  generalize hbody : (if a.quoted then byte '"' :: a.value ++ [byte '"'] else a.value) ++ rest = body
  rw [hbody] at htext
  -- the three runs in front of the value
  have hlead : ∀ d ∈ (a.name ++ nameValueSeparator :: body).head?, isSeparator d = false := by
    intro d hd
    rw [head?_append_of_ne_nil _ ha.name_ne_nil] at hd
    exact (ha.start d hd).1
  have hnameByte : ∀ d ∈ a.name, (!endsName d) = true := fun d hd => by simp [ha.name d hd]
  have hspan := span_append hnameByte
    (by simp [hequals] : ∀ d ∈ (nameValueSeparator :: body).head?, (!endsName d) = false)
  have hhead : ∀ d ∈ body.head?, endsName d = false := by
    rw [← hbody]
    cases hquoted : a.quoted with
    | true =>
      simp
      decide
    | false =>
      rw [hquoted] at hvalue
      obtain ⟨d, value, hd⟩ := exists_cons_of_ne_nil hvalue.1
      have hsep := hvalue.2.1 d (by simp [hd])
      have hne := (hvalue.2.2 d (by simp [hd])).2
      simp [hd, endsName, hsep, hne]
  have hgap := span_append
    (by simp [hequals] : ∀ d ∈ [nameValueSeparator], endsName d = true) hhead
  rw [singleton_append] at hgap
  unfold getNextAttribute
  dsimp only
  rw [htext, (span_append ha.lead hlead).2, hspan.1, hspan.2, hgap.1, hgap.2]
  simp only [ha.name_ne_nil, if_false, contains_cons, beq_self_eq_true, Bool.true_or, if_true]
  cases hquoted : a.quoted with
  | true =>
    rw [hquoted] at hvalue hbody
    have hclose : isQuoteCharacter (byte '"') = true := by decide
    obtain rfl : byte '"' :: (a.value ++ byte '"' :: rest) = body := by simpa using hbody
    simp only [hclose, if_true]
    rw [scanQuoted_append hvalue.1 rest 0 hvalue.2]
  | false =>
    rw [hquoted] at hvalue hbody
    obtain rfl : a.value ++ rest = body := by simpa using hbody
    obtain ⟨d, value, hd⟩ := exists_cons_of_ne_nil hvalue.1
    have hvalueByte : ∀ d ∈ a.value, (!isSeparator d) = true :=
      fun d hd => by simp [hvalue.2.1 d hd]
    have hrun := span_append hvalueByte
      (fun d hd => by simp [hrest d hd] : ∀ d ∈ rest.head?, (!isSeparator d) = false)
    have hopen := (hvalue.2.2 d (by simp [hd])).1
    rw [hd, cons_append] at hrun ⊢
    simp only [hopen, Bool.false_eq_true, if_false]
    rw [hrun.1, hrun.2]

theorem getNextAttribute_word {w : Text} (hne : w ≠ []) (hw : ∀ c ∈ w, endsName c = false)
    {a : Attribute} (ha : a.Readable) (hlead : a.lead ≠ []) (rest : Text) :
    getNextAttribute (w ++ (a.toText ++ rest)) =
      some (w, [], { a with lead := [] }.toText ++ rest) := by
  have hequals : isSeparator nameValueSeparator = false := by decide
  have hleadByte : ∀ c ∈ a.lead, endsName c = true := fun c hc => by simp [endsName, ha.lead c hc]
  have htext : a.toText ++ rest = a.lead ++ ({ a with lead := [] }.toText ++ rest) := by
    simp [Attribute.toText]
  have hstart : ∀ c ∈ (w ++ (a.toText ++ rest)).head?, isSeparator c = false := by
    intro c hc
    rw [head?_append_of_ne_nil _ hne] at hc
    have hend := hw c (mem_of_mem_head? hc)
    rw [endsName, Bool.or_eq_false_iff] at hend
    exact hend.1
  have hword : ∀ c ∈ (a.toText ++ rest).head?, (!endsName c) = false := by
    rw [htext, head?_append_of_ne_nil _ hlead]
    exact fun c hc => by simp [hleadByte c (mem_of_mem_head? hc)]
  have hspan := span_append (fun c hc => by simp [hw c hc] : ∀ c ∈ w, (!endsName c) = true) hword
  have hname : ∀ c ∈ ({ a with lead := [] }.toText ++ rest).head?, endsName c = false := by
    have hhead : ({ a with lead := [] }.toText ++ rest).head? = a.name.head? := by
      rw [Attribute.toText, nil_append, append_assoc,
        head?_append_of_ne_nil _ ha.name_ne_nil]
    rw [hhead]
    exact fun c hc => (ha.start c hc).2
  have hgap := span_append hleadByte hname
  rw [← htext] at hgap
  have hnone : nameValueSeparator ∉ a.lead := by
    intro hmem
    exact absurd (ha.lead _ hmem) (by simp [hequals])
  have hskip : (w ++ (a.toText ++ rest)).dropWhile isSeparator = w ++ (a.toText ++ rest) :=
    (span_append (s := []) (by simp) hstart).2
  unfold getNextAttribute
  dsimp only
  rw [hskip, hspan.1, hspan.2, hgap.1, hgap.2]
  simp [hne, hnone]

/-- **A list of readable attributes is read back.**  Each but the first has something
that sets it off. -/
theorem attributes_flatMap_toText {a : Attribute} {as : List Attribute} (ha : a.Readable)
    (has : ∀ b ∈ as, b.Readable ∧ b.lead ≠ []) : attributes ((a :: as).flatMap Attribute.toText) =
      (a :: as).map fun b => (b.name, b.value) := by
  have hloop : ∀ (fuel : Nat) (a : Attribute) (as : List Attribute), a.Readable →
      (∀ b ∈ as, b.Readable ∧ b.lead ≠ []) → as.length < fuel →
      attributesFrom fuel ((a :: as).flatMap Attribute.toText) =
        (a :: as).map fun b => (b.name, b.value) := by
    intro fuel
    induction fuel with
    | zero => exact fun a as _ _ h => absurd h (Nat.not_lt_zero _)
    | succ fuel ih =>
      intro a as ha has hfuel
      have hrest : ∀ c ∈ (as.flatMap Attribute.toText).head?, isSeparator c = true := by
        cases as with
        | nil => simp
        | cons b bs =>
          obtain ⟨hb, hlead⟩ := has b (by simp)
          obtain ⟨d, lead, hd⟩ := exists_cons_of_ne_nil hlead
          simpa [Attribute.toText, hd] using hb.lead d (by simp [hd])
      rw [flatMap_cons, attributesFrom, getNextAttribute_toText ha hrest, map_cons]
      cases as with
      | nil =>
        cases fuel <;> rfl
      | cons b bs =>
        have hbs := ih b bs (has b (by simp)).1 (fun c hc => has c (by simp [hc]))
          (by simpa using hfuel)
        simp only [hbs]
  refine hloop _ a as ha has ?_
  -- each attribute has at least its equals sign
  have hpos (b : Attribute) : 1 ≤ b.toText.length := by
    simp [Attribute.toText]
    omega
  have hle : as.length ≤ (as.flatMap Attribute.toText).length := by
    clear has hloop
    induction as with
    | nil => simp
    | cons b bs ih =>
      have hb := hpos b
      rw [flatMap_cons, length_append, length_cons]
      omega
  have ha := hpos a
  rw [flatMap_cons, length_append]
  omega

end SipXRouter.NetAttributeTokenizer
