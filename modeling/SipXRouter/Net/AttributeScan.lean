import SipXRouter.Net.NetAttributeTokenizer

/-!
# The scan for an attribute

`NetAttributeTokenizer::getNextAttribute` as written, over an index, with the indices
it examines.  Each of its loops tests a byte with `strchr`, which finds the terminator
in every set, before it compares the index with the length.

The loops stop at the terminator by the comparison.  The test for a quote character has
no such comparison: behind an equals sign with nothing more it takes the terminator for
a quote, and goes on behind it.
-/

namespace SipXRouter.NetAttributeTokenizer

open List

/-! ## Indices -/

/-- `strchr` in a constant: the terminator is found too. -/
def strchr (set : String) (c : Byte) : Bool := oneOf set c || c == 0

variable (beyond : Nat → Byte) (s : Text)

/-- What an index reads: the string, its terminator, and what the memory holds behind. -/
def charAt (i : Nat) : Byte := s.getD i (if i = s.length then 0 else beyond i)

/-- A loop over bytes that pass a test: where it stops, and what it examined. -/
def scanWhile (test : Byte → Bool) : (fuel i : Nat) → Nat × List Nat
  | 0, i => (i, [])
  | fuel + 1, i =>
    if test (charAt beyond s i) ∧ i < s.length then
      let rest := scanWhile test fuel (i + 1)
      (rest.1, i :: rest.2)
    else (i, [i])

/-- The loop for the end quote. -/
def scanQuote : (fuel escapeCount i : Nat) → Nat × List Nat
  | 0, _, i => (i, [])
  | fuel + 1, escapeCount, i =>
    if (strchr "'\"" (charAt beyond s i) = false ∨ escapeCount % 2 = 1) ∧ i < s.length then
      let rest := scanQuote fuel (countEscape escapeCount (charAt beyond s i)) (i + 1)
      (rest.1, i :: rest.2)
    else (i, [i])

/-- The bytes between two indices. -/
def slice (start stop : Nat) : Text := (s.drop start).take (stop - start)

/-- A call of `getNextAttribute`: what it returns and sets, and what it examined. -/
structure Step where
  found : Bool
  attributeName : Text
  attributeValue : Text
  parseIndex : Nat
  examined : List Nat

/-- The tests of the loops over separators, a name, what stands between a name and its
value, and a value without quotes. -/
def passesLead (c : Byte) : Bool := strchr ", \t\n\r" c

def passesName (c : Byte) : Bool := !strchr ", \t\n\r" c && c != nameValueSeparator

def passesGap (c : Byte) : Bool := strchr ", \t\n\r" c || c == nameValueSeparator

def passesBare (c : Byte) : Bool := !strchr ", \t\n\r" c

/-- `getNextAttribute`. -/
def getNextAttributeAt (parseIndex : Nat) : Step :=
  if parseIndex < s.length then
    let fuel := s.length + 1
    let lead := scanWhile beyond s passesLead fuel parseIndex
    let name := scanWhile beyond s passesName fuel lead.1
    let gap := scanWhile beyond s passesGap fuel name.1
    let found := decide (lead.1 < s.length) && decide (lead.1 < name.1)
    let attributeName := if found then slice s lead.1 name.1 else []
    let examined := lead.2 ++ name.2 ++ gap.2
    if nameValueSeparator ∈ slice s name.1 gap.1 then
      if strchr "'\"" (charAt beyond s gap.1) then
        let quoted := scanQuote beyond s fuel 0 (gap.1 + 1)
        ⟨found, attributeName, slice s (gap.1 + 1) quoted.1,
          if quoted.1 < s.length then quoted.1 + 1 else quoted.1,
          examined ++ gap.1 :: quoted.2⟩
      else
        let bare := scanWhile beyond s passesBare fuel gap.1
        ⟨found, attributeName, slice s gap.1 bare.1, bare.1, examined ++ gap.1 :: bare.2⟩
    else ⟨found, attributeName, [], gap.1, examined⟩
  else ⟨false, [], [], parseIndex, []⟩

/-- `getAttributes`: the attributes from an index on. -/
def getAttributesAt : (fuel parseIndex : Nat) → List (Text × Text)
  | 0, _ => []
  | fuel + 1, parseIndex =>
    let step := getNextAttributeAt beyond s parseIndex
    if step.found then
      (step.attributeName, step.attributeValue) :: getAttributesAt fuel step.parseIndex
    else []

/-! ## The loops -/

variable {beyond s}

theorem charAt_of_lt {i : Nat} (hi : i < s.length) : charAt beyond s i = s[i] := by
  simp [charAt, hi]

theorem charAt_length : charAt beyond s s.length = 0 := by
  simp [charAt]

/-- A scan reads one byte more than the run it passes over. -/
theorem scanWhile_eq (test : Byte → Bool) : ∀ fuel i : Nat, i ≤ s.length → s.length < i + fuel →
    scanWhile beyond s test fuel i = (i + ((s.drop i).takeWhile test).length,
        range' i (((s.drop i).takeWhile test).length + 1)) := by
  intro fuel
  induction fuel with
  | zero => exact fun i hi hfuel => absurd hfuel (Nat.not_lt.mpr hi)
  | succ fuel ih =>
    intro i hi hfuel
    rw [scanWhile]
    rcases Nat.lt_or_eq_of_le hi with hlt | rfl
    · rw [charAt_of_lt hlt, drop_eq_getElem_cons hlt]
      by_cases htest : test s[i] = true
      · rw [if_pos ⟨htest, hlt⟩, takeWhile_cons_of_pos htest, ih (i + 1) hlt (by omega),
          length_cons, range'_succ (n := _ + 1)]
        simp only [Prod.mk.injEq, and_true]
        omega
      · rw [if_neg fun h => htest h.1, takeWhile_cons_of_neg htest]
        rfl
    · rw [if_neg fun h => Nat.lt_irrefl _ h.2, drop_length]
      rfl

theorem scanQuote_eq (hs : (0 : Byte) ∉ s) :
    ∀ fuel escapeCount i : Nat, i ≤ s.length → s.length < i + fuel →
      scanQuote beyond s fuel escapeCount i = (i + (scanQuoted escapeCount (s.drop i)).1.length,
          range' i ((scanQuoted escapeCount (s.drop i)).1.length + 1)) := by
  intro fuel
  induction fuel with
  | zero => exact fun _ i hi hfuel => absurd hfuel (Nat.not_lt.mpr hi)
  | succ fuel ih =>
    intro escapeCount i hi hfuel
    rw [scanQuote]
    rcases Nat.lt_or_eq_of_le hi with hlt | rfl
    · have hne : s[i] ≠ 0 := fun hzero => hs (hzero ▸ getElem_mem hlt)
      have hquote : strchr "'\"" s[i] = isQuoteCharacter s[i] := by
        simp [strchr, isQuoteCharacter, hne]
      rw [charAt_of_lt hlt, drop_eq_getElem_cons hlt, scanQuoted, hquote]
      by_cases hend : isQuoteCharacter s[i] = true ∧ escapeCount % 2 = 0
      · have hstop :
            ¬ ((isQuoteCharacter s[i] = false ∨ escapeCount % 2 = 1) ∧ i < s.length) := by
          rintro ⟨hopen | hodd, -⟩
          · exact Bool.false_ne_true (hopen.symm.trans hend.1)
          · omega
        rw [if_pos hend, if_neg hstop]
        rfl
      · have hgo : (isQuoteCharacter s[i] = false ∨ escapeCount % 2 = 1) ∧ i < s.length := by
          refine ⟨?_, hlt⟩
          by_contra hnot
          rw [not_or, Bool.not_eq_false] at hnot
          exact hend ⟨hnot.1, by omega⟩
        rw [if_neg hend, if_pos hgo, ih _ (i + 1) hlt (by omega), length_cons,
          range'_succ (n := _ + 1)]
        simp only [Prod.mk.injEq, and_true]
        omega
    · rw [if_neg fun h => Nat.lt_irrefl _ h.2, drop_length]
      rfl

/-- Behind the terminator a loop examines one byte. -/
theorem scanQuote_of_lt {i : Nat} (hi : s.length < i) (fuel escapeCount : Nat) :
    scanQuote beyond s (fuel + 1) escapeCount i = (i, [i]) := by
  rw [scanQuote, if_neg fun h => absurd h.2 (Nat.not_lt.mpr (Nat.le_of_lt hi))]

/-- What a loop passes over in a string: its bytes, up to what is left, examined one
after the other. -/
structure Passes (p : Byte → Bool) (i : Nat) (scan : Nat × List Nat) : Prop where
  le : i ≤ scan.1
  le_length : scan.1 ≤ s.length
  drop : s.drop scan.1 = (s.drop i).dropWhile p
  slice : slice s i scan.1 = (s.drop i).takeWhile p
  examined : ∀ j ∈ scan.2, j ≤ s.length

theorem takeWhile_congr_of_notMem {p q : Byte → Bool} (hpq : ∀ c, c ≠ 0 → p c = q c) {t : Text}
    (ht : (0 : Byte) ∉ t) : t.takeWhile p = t.takeWhile q := by
  induction t with
  | nil => rfl
  | cons c t ih =>
    have hc : p c = q c := hpq c fun hzero => ht (hzero ▸ mem_cons_self)
    rw [takeWhile_cons, takeWhile_cons, hc,
      ih fun hmem => ht (mem_cons_of_mem _ hmem)]

theorem scanWhile_passes (hs : (0 : Byte) ∉ s) {test p : Byte → Bool}
    (htest : ∀ c, c ≠ 0 → test c = p c) {i : Nat} (hi : i ≤ s.length) :
    Passes (s := s) p i (scanWhile beyond s test (s.length + 1) i) := by
  have hdrop : (0 : Byte) ∉ s.drop i := fun hmem => hs (mem_of_mem_drop hmem)
  have hsplit : (s.drop i).takeWhile p ++ (s.drop i).dropWhile p = s.drop i :=
    takeWhile_append_dropWhile
  have hlength := congrArg length hsplit
  rw [length_append, length_drop] at hlength
  rw [scanWhile_eq test _ i hi (by omega), takeWhile_congr_of_notMem htest hdrop]
  refine ⟨Nat.le_add_right _ _, ?_, ?_, ?_, ?_⟩
  · show i + _ ≤ s.length
    omega
  · have hbehind := @drop_left _ ((s.drop i).takeWhile p) ((s.drop i).dropWhile p)
    rwa [hsplit, drop_drop] at hbehind
  · have hfront := @take_left _ ((s.drop i).takeWhile p) ((s.drop i).dropWhile p)
    rw [hsplit] at hfront
    show (s.drop i).take (i + _ - i) = _
    rwa [Nat.add_sub_cancel_left]
  · intro j hj
    have hmem := mem_range'_1.mp hj
    omega

theorem passesLead_eq (c : Byte) (hc : c ≠ 0) : passesLead c = isSeparator c := by
  simp [passesLead, strchr, isSeparator, hc]

theorem passesName_eq (c : Byte) (hc : c ≠ 0) : passesName c = !endsName c := by
  rw [passesName, endsName, ← passesLead_eq c hc, Bool.not_or]
  rfl

theorem passesGap_eq (c : Byte) (hc : c ≠ 0) : passesGap c = endsName c := by
  rw [passesGap, endsName, ← passesLead_eq c hc]
  rfl

theorem passesBare_eq (c : Byte) (hc : c ≠ 0) : passesBare c = !isSeparator c := by
  rw [passesBare, ← passesLead_eq c hc]
  rfl

theorem scanQuoted_split (escapeCount : Nat) (t : Text) :
    (∃ c, t = (scanQuoted escapeCount t).1 ++ c :: (scanQuoted escapeCount t).2) ∨
      t = (scanQuoted escapeCount t).1 ∧ (scanQuoted escapeCount t).2 = [] := by
  induction t generalizing escapeCount with
  | nil => exact Or.inr ⟨rfl, rfl⟩
  | cons c t ih =>
    rw [scanQuoted]
    split
    · exact Or.inl ⟨c, rfl⟩
    · rcases ih (countEscape escapeCount c) with ⟨d, hd⟩ | ⟨ht, hrest⟩
      · exact Or.inl ⟨d, congrArg (c :: ·) hd⟩
      · exact Or.inr ⟨congrArg (c :: ·) ht, hrest⟩

theorem scanQuote_passes (hs : (0 : Byte) ∉ s) {i : Nat} (hi : i ≤ s.length) :
    let quoted := scanQuote beyond s (s.length + 1) 0 i
    slice s i quoted.1 = (scanQuoted 0 (s.drop i)).1 ∧
      s.drop (if quoted.1 < s.length then quoted.1 + 1 else quoted.1) =
        (scanQuoted 0 (s.drop i)).2 ∧
      ∀ j ∈ quoted.2, j ≤ s.length := by
  intro quoted
  have hquoted : quoted = _ := scanQuote_eq hs (s.length + 1) 0 i hi (by omega)
  have hlength : (s.drop i).length = s.length - i := length_drop
  have hdrop (n : Nat) : s.drop (i + n) = (s.drop i).drop n := drop_drop.symm
  rw [hquoted]
  show (s.drop i).take (i + _ - i) = _ ∧
    s.drop (if i + _ < s.length then i + _ + 1 else i + _) = _ ∧
      ∀ j ∈ range' i _, j ≤ s.length
  rw [Nat.add_sub_cancel_left]
  have hsplit := scanQuoted_split 0 (s.drop i)
  generalize (scanQuoted 0 (s.drop i)).1 = value at hsplit
  generalize (scanQuoted 0 (s.drop i)).2 = rest at hsplit
  rcases hsplit with ⟨c, hsplit⟩ | ⟨hsplit, rfl⟩
  · rw [hsplit, length_append, length_cons] at hlength
    refine ⟨by rw [hsplit, take_left], ?_, fun j hj => ?_⟩
    · rw [if_pos (by omega), Nat.add_assoc, hdrop, hsplit, ← drop_drop, drop_left]
      rfl
    · have hmem := mem_range'_1.mp hj
      omega
  · rw [hsplit] at hlength
    refine ⟨by rw [hsplit, take_length], ?_, fun j hj => ?_⟩
    · rw [if_neg (by omega), drop_eq_nil_of_le (by omega)]
    · have hmem := mem_range'_1.mp hj
      omega

/-! ## One call -/

/-- A value at the front of a text and what is behind it: up to the quote that ends it, or up to a
separator. -/
def readValue : Text → Text × Text
  | [] => ([], [])
  | c :: cs =>
    if isQuoteCharacter c then scanQuoted 0 cs
    else
      ((c :: cs).takeWhile fun d => !isSeparator d, (c :: cs).dropWhile fun d => !isSeparator d)

/-- What a call finds in front of it when it looks for a value: the text behind the name. -/
def behindName (t : Text) : Text := (t.dropWhile isSeparator).dropWhile fun c => !endsName c

theorem getNextAttribute_eq (t : Text) :
    getNextAttribute t =
      if ((t.dropWhile isSeparator).takeWhile fun c => !endsName c) = [] then none
      else if nameValueSeparator ∈ (behindName t).takeWhile endsName then
        some ((t.dropWhile isSeparator).takeWhile fun c => !endsName c,
          readValue ((behindName t).dropWhile endsName))
      else some ((t.dropWhile isSeparator).takeWhile fun c => !endsName c, [],
        (behindName t).dropWhile endsName) := by
  rw [getNextAttribute, behindName]
  simp only [contains_iff_mem]
  generalize ((t.dropWhile isSeparator).dropWhile fun c => !endsName c).dropWhile endsName = rest
  cases rest with
  | nil => rfl
  | cons c cs =>
    simp only [readValue]
    by_cases hc : isQuoteCharacter c = true
    · rw [if_pos hc, if_pos hc]
    · rw [if_neg hc, if_neg hc]

/-- An equals sign with nothing behind it but separators and more of them. -/
def OpenEquals (t : Text) : Prop :=
  (behindName t).dropWhile endsName = [] ∧ nameValueSeparator ∈ behindName t

instance (t : Text) : Decidable (OpenEquals t) := inferInstanceAs (Decidable (_ ∧ _))

/-- What a call does, against the text in front of it. -/
structure Reads (i : Nat) (step : Step) : Prop where
  next : getNextAttribute (s.drop i) =
    if step.found then
      some (step.attributeName, step.attributeValue, s.drop step.parseIndex)
    else none
  examined : (∀ j ∈ step.examined, j ≤ s.length) ↔ ¬ OpenEquals (s.drop i)

theorem getNextAttributeAt_of_le {i : Nat} (hi : s.length ≤ i) :
    getNextAttributeAt beyond s i = ⟨false, [], [], i, []⟩ := by
  rw [getNextAttributeAt, if_neg (Nat.not_lt.mpr hi)]

theorem found_eq {start stop : Nat} (hstop : stop ≤ s.length) :
    (decide (start < s.length) && decide (start < stop)) = decide (slice s start stop ≠ []) := by
  have hlength : (slice s start stop).length = stop - start := by
    rw [slice, length_take, length_drop]
    omega
  have hpos : slice s start stop ≠ [] ↔ start < stop := by
    rw [← length_pos_iff, hlength, Nat.sub_pos_iff_lt]
  rw [Bool.eq_iff_iff, Bool.and_eq_true, decide_eq_true_iff, decide_eq_true_iff,
    decide_eq_true_iff, hpos]
  omega

theorem openEquals_iff {i start : Nat} {gap : Nat × List Nat}
    (hbehind : behindName (s.drop i) = s.drop start) (hgap : Passes (s := s) endsName start gap) :
    OpenEquals (s.drop i) ↔ gap.1 = s.length ∧ nameValueSeparator ∈ slice s start gap.1 := by
  have hall := takeWhile_append_dropWhile (p := endsName) (l := s.drop start)
  rw [OpenEquals, hbehind, ← hgap.drop, drop_eq_nil_iff, hgap.slice]
  constructor
  · rintro ⟨hle, hmem⟩
    have hnil : (s.drop start).dropWhile endsName = [] := by
      rw [← hgap.drop, drop_eq_nil_of_le hle]
    rw [hnil, append_nil] at hall
    exact ⟨Nat.le_antisymm hgap.le_length hle, by rwa [hall]⟩
  · rintro ⟨heq, hmem⟩
    exact ⟨heq.ge, (takeWhile_subset _) hmem⟩

/-- The indices do what the recursion on the text does, and stay within the string but at
an equals sign with nothing behind it. -/
theorem getNextAttributeAt_reads (hs : (0 : Byte) ∉ s) (i : Nat) :
    Reads (s := s) i (getNextAttributeAt beyond s i) := by
  rcases Nat.lt_or_ge i s.length with hi | hi
  swap
  · rw [getNextAttributeAt_of_le hi]
    have hdrop : s.drop i = [] := drop_eq_nil_of_le hi
    refine ⟨by rw [hdrop]; rfl, iff_of_true (fun j hj => absurd hj not_mem_nil) ?_⟩
    rw [hdrop]
    decide
  have hlead : Passes isSeparator i (scanWhile beyond s passesLead (s.length + 1) i) :=
    scanWhile_passes hs passesLead_eq (Nat.le_of_lt hi)
  generalize hleadEq : scanWhile beyond s passesLead (s.length + 1) i = lead at hlead
  have hname : Passes (fun c => !endsName c) lead.1
      (scanWhile beyond s passesName (s.length + 1) lead.1) :=
    scanWhile_passes hs passesName_eq hlead.le_length
  generalize hnameEq : scanWhile beyond s passesName (s.length + 1) lead.1 = name at hname
  have hgap : Passes endsName name.1 (scanWhile beyond s passesGap (s.length + 1) name.1) :=
    scanWhile_passes hs passesGap_eq hname.le_length
  generalize hgapEq : scanWhile beyond s passesGap (s.length + 1) name.1 = gap at hgap
  have hbehind : behindName (s.drop i) = s.drop name.1 := by
    rw [behindName, ← hlead.drop, ← hname.drop]
  have hexamined : ∀ j ∈ lead.2 ++ name.2 ++ gap.2, j ≤ s.length := by
    intro j hj
    rcases mem_append.mp hj with hj | hj
    · exact (mem_append.mp hj).elim (hlead.examined j) (hname.examined j)
    · exact hgap.examined j hj
  have hnext := getNextAttribute_eq (s.drop i)
  rw [hbehind, ← hlead.drop, ← hname.slice, ← hgap.slice, ← hgap.drop] at hnext
  have hopen := openEquals_iff hbehind hgap
  have hname' : (if slice s lead.1 name.1 ≠ [] then slice s lead.1 name.1 else []) =
      slice s lead.1 name.1 := by
    by_cases hnil : slice s lead.1 name.1 = []
    · rw [hnil]
      rfl
    · rw [if_pos hnil]
  rw [getNextAttributeAt, if_pos hi]
  simp only [hleadEq, hnameEq, hgapEq, found_eq hname.le_length, decide_eq_true_eq, hname']
  by_cases hvalue : nameValueSeparator ∈ slice s name.1 gap.1
  · rw [if_pos hvalue] at hnext ⊢
    rcases Nat.lt_or_eq_of_le hgap.le_length with hlt | heq
    · have hne : s[gap.1] ≠ 0 := fun hzero => hs (hzero ▸ getElem_mem hlt)
      have hquote : strchr "'\"" s[gap.1] = isQuoteCharacter s[gap.1] := by
        simp [strchr, isQuoteCharacter, hne]
      have hnot : ¬ OpenEquals (s.drop i) := fun h => Nat.ne_of_lt hlt (hopen.mp h).1
      rw [drop_eq_getElem_cons hlt, readValue] at hnext
      rw [charAt_of_lt hlt, hquote]
      have hbehindGap : ∀ j ∈ lead.2 ++ name.2 ++ gap.2 ++ [gap.1], j ≤ s.length := by
        intro j hj
        rcases mem_append.mp hj with hj | hj
        · exact hexamined j hj
        · exact mem_singleton.mp hj ▸ hgap.le_length
      have hwithin {rest : List Nat} (hrest : ∀ j ∈ rest, j ≤ s.length) :
          ∀ j ∈ lead.2 ++ name.2 ++ gap.2 ++ gap.1 :: rest, j ≤ s.length := by
        intro j hj
        rw [append_cons] at hj
        exact (mem_append.mp hj).elim (hbehindGap j) (hrest j)
      by_cases hq : isQuoteCharacter s[gap.1] = true
      · obtain ⟨hslice, hrest, hquoted⟩ := scanQuote_passes hs hlt
        rw [if_pos hq] at hnext ⊢
        refine ⟨?_, iff_of_true (hwithin hquoted) hnot⟩
        rw [hnext]
        simp only [hslice, hrest, decide_eq_true_eq, ite_not]
      · have hbare : Passes (fun c => !isSeparator c) gap.1
            (scanWhile beyond s passesBare (s.length + 1) gap.1) :=
          scanWhile_passes hs passesBare_eq hgap.le_length
        rw [if_neg hq, ← drop_eq_getElem_cons hlt, ← hbare.slice, ← hbare.drop] at hnext
        rw [if_neg hq]
        refine ⟨?_, iff_of_true (hwithin hbare.examined) hnot⟩
        rw [hnext]
        simp only [decide_eq_true_eq, ite_not]
    · -- nothing stands behind the equals sign, and the terminator passes for a quote
      have hbeyond : s.length < gap.1 + 1 := by omega
      have hquote : strchr "'\"" (charAt beyond s gap.1) = true := by
        rw [heq, charAt_length]
        decide
      have hlast : gap.1 + 1 ∈ lead.2 ++ name.2 ++ gap.2 ++ gap.1 :: [gap.1 + 1] := by simp
      rw [if_pos hquote, scanQuote_of_lt hbeyond]
      refine ⟨?_, iff_of_false (fun h => ?_) (not_not_intro (hopen.mpr ⟨heq, hvalue⟩))⟩
      · have hrest : s.drop gap.1 = [] := drop_eq_nil_of_le heq.ge
        rw [hrest, readValue] at hnext
        have hempty : slice s (gap.1 + 1) (gap.1 + 1) = [] := by
          rw [slice, Nat.sub_self, take_zero]
        rw [hnext]
        simp only [hempty, if_neg (Nat.lt_asymm hbeyond),
          drop_eq_nil_of_le (Nat.le_of_lt hbeyond), decide_eq_true_eq, ite_not]
      · exact Nat.not_le.mpr hbeyond (h _ hlast)
  · rw [if_neg hvalue] at hnext ⊢
    refine ⟨?_, iff_of_true hexamined fun h => hvalue (hopen.mp h).2⟩
    rw [hnext]
    simp only [decide_eq_true_eq, ite_not]

/-! ## All calls -/

/-- The loop over the indices is the loop over the text. -/
theorem getAttributesAt_eq (hs : (0 : Byte) ∉ s) (fuel i : Nat) :
    getAttributesAt beyond s fuel i = attributesFrom fuel (s.drop i) := by
  induction fuel generalizing i with
  | zero => rfl
  | succ fuel ih =>
    have hstep : Reads i (getNextAttributeAt beyond s i) := getNextAttributeAt_reads hs i
    have hreads := hstep.next
    rw [getAttributesAt, attributesFrom, hreads]
    by_cases hfound : (getNextAttributeAt beyond s i).found = true
    · rw [if_pos hfound, if_pos hfound, ih]
    · rw [if_neg hfound, if_neg hfound]

/-- The index in front of each of the calls. -/
def parseIndexBefore (beyond : Nat → Byte) (s : Text) : Nat → Nat
  | 0 => 0
  | k + 1 => (getNextAttributeAt beyond s (parseIndexBefore beyond s k)).parseIndex

/-- The first calls stay within the string and its terminator. -/
def StaysWithin (beyond : Nat → Byte) (s : Text) (calls : Nat) : Prop :=
  ∀ k < calls, ∀ j ∈ (getNextAttributeAt beyond s (parseIndexBefore beyond s k)).examined,
    j ≤ s.length

theorem staysWithin_iff (hs : (0 : Byte) ∉ s) (calls : Nat) : StaysWithin beyond s calls ↔
    ∀ k < calls, ¬ OpenEquals (s.drop (parseIndexBefore beyond s k)) :=
  forall₂_congr fun _ _ => (getNextAttributeAt_reads hs _).examined

/-! ## Lists of quoted strings -/

/-- What may stand in a quoted string that ends at the bytes of a class: an escape
character takes the byte behind it along. -/
inductive Body (ends : Byte → Bool) : Text → Prop
  | nil : Body ends []
  | plain {c : Byte} {cs : Text} : c ≠ escapeChar → ends c = false → Body ends cs →
      Body ends (c :: cs)
  | escaped {c : Byte} {cs : Text} : Body ends cs → Body ends (escapeChar :: c :: cs)

def isQuotationMark : Byte → Bool := oneOf "\""

theorem scanQuoted_escaped (c : Byte) {escapeCount : Nat} (heven : escapeCount % 2 = 0) :
    countEscape (escapeCount + 1) c % 2 = 0 ∧ ∀ rest,
      scanQuoted escapeCount (escapeChar :: c :: rest) =
        (escapeChar :: c :: (scanQuoted (countEscape (escapeCount + 1) c) rest).1,
          (scanQuoted (countEscape (escapeCount + 1) c) rest).2) := by
  have hescape : isQuoteCharacter escapeChar = false := by decide
  have hesc : ¬ (isQuoteCharacter escapeChar = true ∧ escapeCount % 2 = 0) :=
    fun h => Bool.false_ne_true (hescape.symm.trans h.1)
  have hodd : ¬ (isQuoteCharacter c = true ∧ (escapeCount + 1) % 2 = 0) := fun h => by omega
  have hcount : countEscape escapeCount escapeChar = escapeCount + 1 := if_pos rfl
  refine ⟨?_, fun rest => ?_⟩
  · rw [countEscape]
    split <;> omega
  · rw [scanQuoted, if_neg hesc, hcount, scanQuoted, if_neg hodd]

theorem scanQuoted_of_body {value : Text} (h : Body isQuoteCharacter value) (rest : Text) :
    ∀ escapeCount, escapeCount % 2 = 0 →
      scanQuoted escapeCount (value ++ byte '"' :: rest) = (value, rest) := by
  induction h with
  | nil =>
    intro escapeCount heven
    have hclose : isQuoteCharacter (byte '"') = true := by decide
    rw [nil_append, scanQuoted, if_pos ⟨hclose, heven⟩]
  | plain hne hends _ ih =>
    intro escapeCount heven
    have hcount : countEscape escapeCount _ = 0 := if_neg hne
    rw [cons_append, scanQuoted, if_neg fun hc => Bool.false_ne_true (hends.symm.trans hc.1),
      hcount, ih 0 rfl]
  | @escaped c cs _ ih =>
    intro escapeCount heven
    obtain ⟨heven', hscan⟩ := scanQuoted_escaped c heven
    rw [cons_append, cons_append, hscan, ih _ heven']

/-- One in which an apostrophe does is read to less than its end. -/
theorem length_scanQuoted_lt {value : Text} (h : Body isQuotationMark value)
    (hnot : ¬ Body isQuoteCharacter value) (rest : Text) : ∀ escapeCount, escapeCount % 2 = 0 →
      (scanQuoted escapeCount (value ++ rest)).1.length < value.length := by
  induction h with
  | nil => exact absurd Body.nil hnot
  | @plain c cs hne _ _ ih =>
    intro escapeCount heven
    rw [cons_append, scanQuoted]
    by_cases hquote : isQuoteCharacter c = true
    · rw [if_pos ⟨hquote, heven⟩]
      exact Nat.succ_pos _
    · have hcount : countEscape escapeCount c = 0 := if_neg hne
      rw [if_neg fun h => hquote h.1, hcount]
      exact Nat.succ_lt_succ (ih (fun h => hnot (.plain hne (by simpa using hquote) h)) 0 rfl)
  | @escaped c cs _ ih =>
    intro escapeCount heven
    obtain ⟨heven', hscan⟩ := scanQuoted_escaped c heven
    rw [cons_append, cons_append, hscan]
    exact Nat.succ_lt_succ (Nat.succ_lt_succ (ih (fun h => hnot (.escaped h)) _ heven'))

/-- A name and a quoted string, as they may stand in a list. -/
structure QuotedPair where
  name : Text
  value : Text
  name_ne_nil : name ≠ []
  name_plain : ∀ c ∈ name, endsName c = false
  body : Body isQuotationMark value
  noNul : (0 : Byte) ∉ name ∧ (0 : Byte) ∉ value

namespace QuotedPair

def pair (p : QuotedPair) : Text × Text := (p.name, p.value)

/-- `name="value"`. -/
def written (p : QuotedPair) : Text :=
  p.name ++ nameValueSeparator :: byte '"' :: (p.value ++ [byte '"'])

/-- The pairs behind the first one, each with a comma in front. -/
def tailText (ps : List QuotedPair) : Text := ps.flatMap fun p => byte ',' :: p.written

/-- The pairs with commas between them. -/
def listText : List QuotedPair → Text
  | [] => []
  | p :: ps => p.written ++ tailText ps

theorem notMem_written (p : QuotedPair) : (0 : Byte) ∉ p.written := by
  simp only [written, mem_append, mem_cons, not_or]
  exact ⟨p.noNul.1, by decide, by decide, p.noNul.2, by decide⟩

theorem notMem_listText (ps : List QuotedPair) : (0 : Byte) ∉ listText ps := by
  cases ps with
  | nil => exact not_mem_nil
  | cons p ps =>
    rw [listText, tailText, mem_append, mem_flatMap, not_or]
    refine ⟨p.notMem_written, ?_⟩
    rintro ⟨q, -, hq⟩
    exact (mem_cons.mp hq).elim (by decide) q.notMem_written

theorem getNextAttribute_written {lead : Text} (hlead : ∀ c ∈ lead, isSeparator c = true)
    (p : QuotedPair) (rest : Text) :
    getNextAttribute (lead ++ (p.written ++ rest)) =
      some (p.name, scanQuoted 0 (p.value ++ byte '"' :: rest)) := by
  have hequals : endsName nameValueSeparator = true := by decide
  have hmark : endsName (byte '"') = false := by decide
  have hopen : isQuoteCharacter (byte '"') = true := by decide
  have htext : p.written ++ rest =
      p.name ++ nameValueSeparator :: byte '"' :: (p.value ++ byte '"' :: rest) := by
    simp [written]
  have hstart : (lead ++ (p.written ++ rest)).dropWhile isSeparator = p.written ++ rest := by
    refine (span_append hlead fun c hc => ?_).2
    rw [htext, head?_append_of_ne_nil _ p.name_ne_nil] at hc
    have hname := p.name_plain c (mem_of_mem_head? hc)
    rw [endsName, Bool.or_eq_false_iff] at hname
    exact hname.1
  have hname : ∀ c ∈ p.name, (!endsName c) = true := fun c hc => by rw [p.name_plain c hc]; rfl
  have hspan := span_append hname
    (by simp [hequals] : ∀ c ∈ (nameValueSeparator :: byte '"' ::
      (p.value ++ byte '"' :: rest)).head?, (!endsName c) = false)
  have hbehind : behindName (lead ++ (p.written ++ rest)) =
      nameValueSeparator :: byte '"' :: (p.value ++ byte '"' :: rest) := by
    rw [behindName, hstart, htext, hspan.2]
  have hgap := span_append (by simp [hequals] : ∀ c ∈ [nameValueSeparator], endsName c = true)
    (by simp [hmark] : ∀ c ∈ (byte '"' :: (p.value ++ byte '"' :: rest)).head?,
      endsName c = false)
  rw [singleton_append] at hgap
  rw [getNextAttribute_eq, hbehind, hgap.1, hgap.2, hstart, htext, hspan.1, if_neg p.name_ne_nil,
    if_pos (mem_singleton_self _), readValue, if_pos hopen]

/-- Written attributes come back exactly when each value is the body of its quotes. -/
theorem attributesFrom_iff : ∀ (ps : List QuotedPair) (p : QuotedPair) (lead : Text) (fuel : Nat),
    (∀ c ∈ lead, isSeparator c = true) → ps.length < fuel →
    (attributesFrom fuel (lead ++ (p.written ++ tailText ps)) = (p :: ps).map pair ↔
      ∀ q ∈ p :: ps, Body isQuoteCharacter q.value) := by
  intro ps
  induction ps with
  | nil =>
    intro p lead fuel hlead hfuel
    obtain ⟨fuel, rfl⟩ := Nat.exists_eq_succ_of_ne_zero (Nat.ne_of_gt hfuel)
    rw [attributesFrom, getNextAttribute_written hlead]
    by_cases hbody : Body isQuoteCharacter p.value
    · have hread := scanQuoted_of_body hbody (tailText []) 0 rfl
      rw [hread]
      have hnil : attributesFrom fuel (tailText []) = [] := by cases fuel <;> rfl
      simp [hnil, hbody, pair]
    · have hlt := length_scanQuoted_lt p.body hbody (byte '"' :: tailText []) 0 rfl
      refine iff_of_false (fun h => ?_) fun h => hbody (h p mem_cons_self)
      have hvalue := congrArg Prod.snd (List.cons.inj h).1
      exact Nat.ne_of_lt hlt (congrArg length hvalue)
  | cons q ps ih =>
    intro p lead fuel hlead hfuel
    obtain ⟨fuel, rfl⟩ := Nat.exists_eq_succ_of_ne_zero (Nat.ne_of_gt (Nat.zero_lt_of_lt hfuel))
    rw [attributesFrom, getNextAttribute_written hlead]
    by_cases hbody : Body isQuoteCharacter p.value
    · have hread := scanQuoted_of_body hbody (tailText (q :: ps)) 0 rfl
      have htail := ih q [byte ','] fuel (by decide) (by simpa using hfuel)
      have htext : tailText (q :: ps) = [byte ','] ++ (q.written ++ tailText ps) := by
        simp [tailText]
      rw [hread, htext, map_cons, forall_mem_cons, ← htail]
      simp [pair, hbody]
    · have hlt := length_scanQuoted_lt p.body hbody (byte '"' :: tailText (q :: ps)) 0 rfl
      refine iff_of_false (fun h => ?_) fun h => hbody (h p mem_cons_self)
      have hvalue := congrArg Prod.snd (List.cons.inj h).1
      exact Nat.ne_of_lt hlt (congrArg length hvalue)

end QuotedPair

/-- The attributes of a text in the order the loop over the start indices finds them. -/
def getAttributes (beyond : Nat → Byte) (s : Text) : List (Text × Text) :=
  getAttributesAt beyond s s.length 0

theorem length_le_tailText (ps : List QuotedPair) :
    ps.length ≤ (QuotedPair.tailText ps).length := by
  induction ps with
  | nil => exact Nat.le_refl _
  | cons p ps ih =>
    have htext : QuotedPair.tailText (p :: ps) =
        byte ',' :: (p.written ++ QuotedPair.tailText ps) := by
      simp [QuotedPair.tailText]
    rw [htext, length_cons, length_cons, length_append]
    omega

/-- **The tokenizer.**  A call stays within the string exactly if it does not come to an
equals sign with nothing behind it, and a list is read back exactly if each apostrophe in
its values is escaped. -/
theorem staysWithin_and_getAttributes_iff (beyond : Nat → Byte) :
    (∀ (s : { s : Text // (0 : Byte) ∉ s }) (calls : Nat),
      StaysWithin beyond s.1 calls ↔
        ∀ k < calls, ¬ OpenEquals (s.1.drop (parseIndexBefore beyond s.1 k))) ∧
    ∀ ps : List QuotedPair,
      getAttributes beyond (QuotedPair.listText ps) = ps.map QuotedPair.pair ↔
        ∀ p ∈ ps, Body isQuoteCharacter p.value := by
  refine ⟨fun s calls => staysWithin_iff s.2 calls, fun ps => ?_⟩
  rw [getAttributes, getAttributesAt_eq (QuotedPair.notMem_listText ps), drop_zero]
  cases ps with
  | nil => exact iff_of_true rfl fun p hp => absurd hp not_mem_nil
  | cons p ps =>
    have hfuel : ps.length < (QuotedPair.listText (p :: ps)).length := by
      have hle := length_le_tailText ps
      have hpos := length_pos_iff.mpr p.name_ne_nil
      rw [QuotedPair.listText, QuotedPair.written]
      simp only [length_append]
      omega
    exact QuotedPair.attributesFrom_iff ps p [] _ (by simp) hfuel

/-- Behind `a=` the byte behind the terminator is examined, and an apostrophe ends a
value. -/
theorem not_staysWithin_and_getAttributes_ne :
    ¬ StaysWithin (fun _ => 0) (text "a=") 1 ∧
      getAttributes (fun _ => 0) (text "name=\"O'Brien\",b=\"c\"") ≠
        [(text "name", text "O'Brien"), (text "b", text "c")] := by
  refine ⟨fun h => ?_, by decide⟩
  have hlast := h 0 (by decide) 3 (by decide)
  exact absurd hlast (by decide)

end SipXRouter.NetAttributeTokenizer
