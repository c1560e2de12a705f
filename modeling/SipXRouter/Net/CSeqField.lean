import SipXRouter.Net.SipMessage

/-!
# Reading the CSeq header

`SipMessage::getCSeqField` finds the method behind the number by two lengths: the blanks in
front of the value, and the characters up to the next blank.  The second one already is the
length of the number, but the first one is taken away from it once more.  Behind leading
blanks the method is therefore looked for too early.

A line break, which a folded value may hold, is no blank for it.
-/

namespace SipXRouter

open List

/-- `INT_MAX`. -/
def intMax : Int := 2147483647

namespace SipMessage

open NameValueTokenizer HttpMessage

/-- `SIP_CSEQ_FIELD`. -/
def cseqField : Text := text "CSEQ"

/-- `getCSeqField`: whether the header was read, the number and the method.  The blanks are those
of `SIP_SUBFIELD_SEPARATORS`. -/
def getCSeqField (m : SipMessage) : Bool × Int × Text :=
  match m.getHeaderValue 0 cseqField with
  | none => (false, -1, [])
  | some value =>
    let valueStart := (value.takeWhile isBlank).length
    let numStringLen : Int :=
      ((value.drop valueStart).takeWhile fun c => !isBlank c).length - valueStart
    let sequenceMethod := trim isBlank (value.drop (numStringLen + valueStart).toNat)
    let result := strtol (value.drop valueStart)
    if 0 ≤ result.1 ∧ result.1 ≤ intMax ∧ result.2.head?.any (oneOf " \t\r") then
      (sequenceMethod != [], result.1, sequenceMethod)
    else (false, -1, sequenceMethod)

end SipMessage

/-! ## Header values -/

/-- Whitespace in a header value: blanks, with at most one line break before the last of
them. -/
inductive IsLws : Text → Prop
  | blanks {w : Text} (hne : w ≠ []) (hw : ∀ c ∈ w, NameValueTokenizer.isBlank c = true) : IsLws w
  | folded {w w' : Text} (hw : ∀ c ∈ w, NameValueTokenizer.isBlank c = true) (hne : w' ≠ [])
      (hw' : ∀ c ∈ w', NameValueTokenizer.isBlank c = true) :
      IsLws (w ++ byte '\r' :: byte '\n' :: w')

/-- A CSeq header value: a number and a method, with whitespace between them and perhaps
around. -/
structure CSeqValue where
  leading : Text
  digits : Text
  between : Text
  method : Text
  trailing : Text
  digits_ne_nil : digits ≠ []
  isDigit_digits : ∀ c ∈ digits, isDigit c = true
  method_ne_nil : method ≠ []
  isTokenByte_method : ∀ c ∈ method, Url.isTokenByte c = true
  leading_lws : leading = [] ∨ IsLws leading
  between_lws : IsLws between
  trailing_lws : trailing = [] ∨ IsLws trailing

namespace CSeqValue

open NameValueTokenizer HttpMessage SipMessage

variable (v : CSeqValue)

/-- The header value. -/
def text : Text := v.leading ++ (v.digits ++ (v.between ++ (v.method ++ v.trailing)))

/-- The sequence number. -/
def number : Int := digitsValue 10 v.digits

/-! ## Whitespace -/

theorem isBlank_of_isDigit : ∀ c : Byte, isDigit c = true → isBlank c = false := by
  decide +kernel

theorem isBlank_of_isTokenByte : ∀ c : Byte, Url.isTokenByte c = true →
    isBlank c = false ∧ c ≠ byte '\r' := by
  decide +kernel

/-- Whitespace up to its first blank: nothing, or a line break.  A line break further on shows
behind the first byte. -/
theorem exists_split_of_isLws {w : Text} (h : IsLws w) :
    ∃ pre b rest, w = pre ++ b :: rest ∧ isBlank b = true ∧
      (pre = [] ∨ pre = [byte '\r', byte '\n']) ∧
      ((∀ c ∈ rest, isBlank c = true) ∧ byte '\r' ∉ w.tail ∨
        byte '\r' ∈ rest ∧ byte '\r' ∈ w.tail) := by
  have hcr : isBlank (byte '\r') = false := by decide
  have hnot {w : Text} (hw : ∀ c ∈ w, isBlank c = true) : byte '\r' ∉ w := fun hmem =>
    Bool.false_ne_true (hcr.symm.trans (hw _ hmem))
  cases h with
  | blanks hne hw =>
    obtain ⟨b, rest, rfl⟩ := exists_cons_of_ne_nil hne
    obtain ⟨hb, hrest⟩ := forall_mem_cons.mp hw
    exact ⟨[], b, rest, rfl, hb, Or.inl rfl, Or.inl ⟨hrest, hnot hrest⟩⟩
  | @folded w w' hw hne hw' =>
    cases w with
    | nil =>
      obtain ⟨b, rest, rfl⟩ := exists_cons_of_ne_nil hne
      obtain ⟨hb, hrest⟩ := forall_mem_cons.mp hw'
      refine ⟨[byte '\r', byte '\n'], b, rest, rfl, hb, Or.inr rfl, Or.inl ⟨hrest, ?_⟩⟩
      show byte '\r' ∉ byte '\n' :: b :: rest
      intro hmem
      rcases mem_cons.mp hmem with hmem | hmem
      · exact absurd hmem (by decide)
      · exact hnot hw' hmem
    | cons b w =>
      have hmem : byte '\r' ∈ w ++ byte '\r' :: byte '\n' :: w' := by simp
      exact ⟨[], b, w ++ byte '\r' :: byte '\n' :: w', rfl, hw b mem_cons_self,
        Or.inl rfl, Or.inr ⟨hmem, hmem⟩⟩

theorem exists_trim_eq {blank : Byte → Bool} {r t : Byte} (hr : blank r = false)
    (ht : blank t = false) (front mid back : Text) :
    ∃ front' back', trim blank (front ++ r :: (mid ++ t :: back)) =
      front' ++ r :: (mid ++ t :: back') := by
  have hdrop {c : Byte} (hc : blank c = false) (x y : Text) :
      ∃ x', (x ++ c :: y).dropWhile blank = x' ++ c :: y := by
    induction x with
    | nil => exact ⟨[], by simp [hc]⟩
    | cons d x ih =>
      by_cases hd : blank d = true
      · simpa [hd] using ih
      · exact ⟨d :: x, by simp [hd]⟩
  obtain ⟨front', hfront⟩ := hdrop hr front (mid ++ t :: back)
  obtain ⟨back', hback⟩ := hdrop ht back.reverse (front' ++ r :: mid).reverse
  refine ⟨front', back'.reverse, ?_⟩
  have hrev : (front' ++ r :: (mid ++ t :: back)).reverse =
      back.reverse ++ t :: (front' ++ r :: mid).reverse := by simp
  rw [trim, hfront, hrev, hback]
  simp

theorem not_isLws_nil : ¬ IsLws [] := by
  intro h
  obtain ⟨pre, b, rest, hnil, -⟩ := exists_split_of_isLws h
  exact absurd hnil (by simp)

/-- Whitespace without a line break. -/
theorem isBlank_of_lws {w : Text} (h : w = [] ∨ IsLws w) (hcr : byte '\r' ∉ w) :
    ∀ c ∈ w, isBlank c = true := by
  rcases h with rfl | h
  · exact fun c hc => absurd hc not_mem_nil
  · cases h with
    | blanks _ hw => exact hw
    | folded => exact absurd (by simp) hcr

/-! ## The method -/

/-- The number of characters up to the next blank, from the first one that is none. -/
def runLength (value : Text) : Nat :=
  ((value.dropWhile isBlank).takeWhile fun c => !isBlank c).length

theorem drop_length_takeWhile (p : Byte → Bool) (s : Text) :
    s.drop (s.takeWhile p).length = s.dropWhile p := by
  calc s.drop (s.takeWhile p).length
      = (s.takeWhile p ++ s.dropWhile p).drop (s.takeWhile p).length := by
        rw [takeWhile_append_dropWhile]
    _ = s.dropWhile p := drop_left

/-- What `getCSeqField` makes of a header value. -/
theorem getCSeqField_eq {m : SipMessage} {value : Text}
    (h : m.getHeaderValue 0 cseqField = some value) :
    m.getCSeqField =
      if 0 ≤ (strtol (value.dropWhile isBlank)).1 ∧ (strtol (value.dropWhile isBlank)).1 ≤ intMax ∧
          (strtol (value.dropWhile isBlank)).2.head?.any (oneOf " \t\r") then
        (trim isBlank (value.drop (runLength value)) != [],
          (strtol (value.dropWhile isBlank)).1, trim isBlank (value.drop (runLength value)))
      else (false, -1, trim isBlank (value.drop (runLength value))) := by
  rw [SipMessage.getCSeqField, h]
  simp only [drop_length_takeWhile, Int.sub_add_cancel, Int.toNat_natCast]
  rfl

theorem takeWhile_run {run rest : Text} {b : Byte} (hrun : ∀ c ∈ run, isBlank c = false)
    (hb : isBlank b = true) : (run ++ b :: rest).takeWhile (fun c => !isBlank c) = run := by
  rw [takeWhile_append_of_pos fun c hc => by rw [hrun c hc]; rfl,
    takeWhile_cons_of_neg (by simp [hb]), append_nil]

theorem runLength_of_run {run : Text} {b : Byte} (hne : run ≠ [])
    (hrun : ∀ c ∈ run, isBlank c = false) (hb : isBlank b = true) (rest : Text) :
    runLength (run ++ b :: rest) = run.length := by
  have hdrop : (run ++ b :: rest).dropWhile isBlank = run ++ b :: rest := by
    obtain ⟨c, run, rfl⟩ := exists_cons_of_ne_nil hne
    simp [hrun c mem_cons_self]
  rw [runLength, hdrop, takeWhile_run hrun hb]

/-- With whitespace in front, it is looked for before the number is over. -/
theorem runLength_lt {leading run : Text} {b : Byte} (hleading : IsLws leading)
    (hne : run ≠ []) (hrun : ∀ c ∈ run, isBlank c = false) (hb : isBlank b = true) (rest : Text) :
    runLength (leading ++ (run ++ b :: rest)) < (leading ++ run).length := by
  rw [length_append]
  cases hleading with
  | blanks hnonempty hw =>
    have hlen := runLength_of_run hne hrun hb rest
    rw [runLength, dropWhile_append_of_pos hw, ← runLength, hlen]
    exact Nat.lt_add_of_pos_left (length_pos_of_ne_nil hnonempty)
  | @folded w w' hw hnonempty hw' =>
    obtain ⟨b', w', rfl⟩ := exists_cons_of_ne_nil hnonempty
    have hbreak : ∀ c ∈ [byte '\r', byte '\n'], isBlank c = false := by decide
    have hlen := runLength_of_run (cons_ne_nil _ _) hbreak (hw' b' mem_cons_self)
      (w' ++ (run ++ b :: rest))
    rw [append_assoc, runLength, dropWhile_append_of_pos hw, ← runLength]
    refine hlen.trans_lt ?_
    simp only [length_append, length_cons, length_nil]
    omega

/-- The method is read exactly when nothing stands in front and no return behind. -/
theorem trim_drop_eq_iff : trim isBlank (v.text.drop (runLength v.text)) = v.method ↔
    v.leading = [] ∧ byte '\r' ∉ v.between.tail ∧ byte '\r' ∉ v.trailing := by
  obtain ⟨pre, b, rest, hbetween, hb, hpre, hrest⟩ := exists_split_of_isLws v.between_lws
  have hmethod (c : Byte) (hc : c ∈ v.method) : isBlank c = false ∧ c ≠ byte '\r' :=
    isBlank_of_isTokenByte c (v.isTokenByte_method c hc)
  have hrunBlank : ∀ c ∈ v.digits ++ pre, isBlank c = false := by
    intro c hc
    rcases mem_append.mp hc with hc | hc
    · exact isBlank_of_isDigit c (v.isDigit_digits c hc)
    · rcases hpre with rfl | rfl
      · exact absurd hc not_mem_nil
      · have hbreak : ∀ c ∈ [byte '\r', byte '\n'], isBlank c = false := by decide
        exact hbreak c hc
  have hrunNe : v.digits ++ pre ≠ [] := append_ne_nil_of_left_ne_nil v.digits_ne_nil pre
  have htext : v.text =
      v.leading ++ ((v.digits ++ pre) ++ b :: (rest ++ (v.method ++ v.trailing))) := by
    rw [text, hbetween]
    simp
  rcases v.leading_lws with hnone | hleading
  · have hdrop : v.text.drop (runLength v.text) = b :: (rest ++ (v.method ++ v.trailing)) := by
      rw [htext, hnone, nil_append, runLength_of_run hrunNe hrunBlank hb, drop_left]
    have hmem {c : Byte} (hc : c ∈ rest ∨ c ∈ v.trailing) :
        c ∈ b :: (rest ++ (v.method ++ v.trailing)) := by
      rw [mem_cons, mem_append, mem_append]
      exact Or.inr (hc.imp_right Or.inr)
    rw [hdrop]
    constructor
    · intro heq
      have hbreak (hc : byte '\r' ∈ rest ∨ byte '\r' ∈ v.trailing) : False := by
        have hplain : isBlank (byte '\r') = false := by decide
        have htrim := mem_trim (hmem hc) hplain
        rw [heq] at htrim
        exact (hmethod _ htrim).2 rfl
      exact ⟨hnone, hrest.elim And.right fun h => (hbreak (Or.inl h.1)).elim,
        fun h => hbreak (Or.inr h)⟩
    · rintro ⟨-, htail, htrailing⟩
      have hfront : ∀ c ∈ b :: rest, isBlank c = true :=
        forall_mem_cons.mpr ⟨hb, hrest.elim And.left fun h => absurd h.2 htail⟩
      have hself : trim isBlank v.method = v.method :=
        trim_eq_self (fun c hc => (hmethod c (mem_of_mem_head? hc)).1)
          fun c hc => (hmethod c (mem_of_getLast? hc)).1
      exact trim_padded hself hfront (isBlank_of_lws v.trailing_lws htrailing)
  · -- the last byte in front of the blank is still there, and so is the blank
    refine iff_of_false (fun heq => ?_) fun h => ?_
    · obtain ⟨t, more, hmore⟩ := exists_cons_of_ne_nil v.method_ne_nil
      have hlast := dropLast_append_getLast hrunNe
      have hr := hrunBlank _ (getLast_mem hrunNe)
      have hlt := runLength_lt hleading hrunNe hrunBlank hb (rest ++ (v.method ++ v.trailing))
      rw [← htext] at hlt
      generalize (v.digits ++ pre).dropLast = run, (v.digits ++ pre).getLast hrunNe = r at hlast hr
      rw [← hlast] at hlt
      have hsplit : v.text =
          (v.leading ++ run) ++ r :: ((b :: rest) ++ t :: (more ++ v.trailing)) := by
        rw [htext, ← hlast, hmore]
        simp
      have hle : runLength v.text ≤ (v.leading ++ run).length := by
        simp only [length_append, length_cons, length_nil] at hlt ⊢
        omega
      generalize runLength v.text = start at heq hle
      have ht : isBlank t = false := (hmethod t (hmore ▸ mem_cons_self)).1
      obtain ⟨front, back, htrim⟩ := exists_trim_eq hr ht
        ((v.leading ++ run).drop start) (b :: rest) (more ++ v.trailing)
      rw [hsplit, drop_append_of_le_length hle, htrim] at heq
      have hbmem : b ∈ v.method := by
        rw [← heq]
        simp
      exact Bool.false_ne_true ((hmethod b hbmem).1.symm.trans hb)
    · exact not_isLws_nil (h.1 ▸ hleading)

/-! ## The number -/

theorem strtol_text (hleading : v.leading = []) :
    ∃ rest, strtol (v.text.dropWhile isBlank) = (saturate v.number, rest) ∧
      rest.head?.any (oneOf " \t\r") = true := by
  obtain ⟨pre, b, more, hbetween, hb, hpre, -⟩ := exists_split_of_isLws v.between_lws
  have hblank : ∀ c : Byte, isBlank c = true → isDigit c = false ∧ oneOf " \t\r" c = true := by
    decide +kernel
  obtain ⟨c, hc, hend⟩ : ∃ c, (v.between ++ (v.method ++ v.trailing)).head? = some c ∧
      (isDigit c = false ∧ oneOf " \t\r" c = true) := by
    rw [hbetween]
    rcases hpre with rfl | rfl
    · exact ⟨b, rfl, hblank b hb⟩
    · exact ⟨byte '\r', rfl, by decide⟩
  have hfront : v.text.dropWhile isBlank = v.text := by
    obtain ⟨d, ds, hds⟩ := exists_cons_of_ne_nil v.digits_ne_nil
    have hd := isBlank_of_isDigit d (v.isDigit_digits d (hds ▸ mem_cons_self))
    simp [text, hleading, hds, hd]
  refine ⟨v.between ++ (v.method ++ v.trailing), ?_, ?_⟩
  · rw [hfront, text, hleading, nil_append]
    refine strtol_digits v.digits_ne_nil v.isDigit_digits fun c' hc' => ?_
    rw [hc] at hc'
    exact Option.some.inj hc' ▸ hend.1
  · rw [hc]
    exact hend.2

/-- **The layouts that are read correctly**: no whitespace in front, a line break in the other
whitespace at most directly behind the number, and a number that is an `int`. -/
theorem getCSeqField_eq_iff {m : SipMessage} (h : m.getHeaderValue 0 cseqField = some v.text) :
    m.getCSeqField = (true, v.number, v.method) ↔
      v.number ≤ intMax ∧ v.leading = [] ∧ byte '\r' ∉ v.between.tail ∧ byte '\r' ∉ v.trailing := by
  rw [getCSeqField_eq h, ← trim_drop_eq_iff]
  constructor
  · intro heq
    split at heq
    · next hnumber =>
        simp only [Prod.mk.injEq] at heq
        exact ⟨heq.2.1 ▸ hnumber.2.1, heq.2.2⟩
    · exact absurd (congrArg Prod.fst heq) Bool.false_ne_true
  · rintro ⟨hmax, htrim⟩
    obtain ⟨rest, hstrtol, hend⟩ := v.strtol_text ((trim_drop_eq_iff v).mp htrim).1
    have hnonneg : 0 ≤ v.number := Int.natCast_nonneg _
    rw [saturate_eq_self (by omega) (hmax.trans_lt (by decide))] at hstrtol
    rw [hstrtol, if_pos ⟨hnonneg, hmax, hend⟩, htrim, bne_iff_ne.mpr v.method_ne_nil]

/-- `CSeq: 1 INVITE`, with some whitespace in front. -/
def invite (leading : Text) (hleading : leading = [] ∨ IsLws leading) : CSeqValue where
  leading := leading
  digits := SipXRouter.text "1"
  between := SipXRouter.text " "
  method := SipXRouter.text "INVITE"
  trailing := []
  digits_ne_nil := by decide
  isDigit_digits := by decide
  method_ne_nil := by decide
  isTokenByte_method := by decide
  leading_lws := hleading
  between_lws := .blanks (by decide) (by decide)
  trailing_lws := Or.inl rfl

/-- A message with one CSeq header. -/
def inviteMessage (value : Text) : SipMessage where
  firstHeaderLine := SipXRouter.text "INVITE sip:a@example.com SIP/2.0"
  nameValues := [(cseqField, value)]

theorem getCSeqField_eq_iff_invite :
    (inviteMessage (invite [] (Or.inl rfl)).text).getHeaderValue 0 cseqField =
      some (invite [] (Or.inl rfl)).text ∧
    ((inviteMessage (invite [] (Or.inl rfl)).text).getCSeqField =
        (true, (invite [] (Or.inl rfl)).number, (invite [] (Or.inl rfl)).method) ↔
      (invite [] (Or.inl rfl)).number ≤ intMax ∧ (invite [] (Or.inl rfl)).leading = [] ∧
        byte '\r' ∉ (invite [] (Or.inl rfl)).between.tail ∧
        byte '\r' ∉ (invite [] (Or.inl rfl)).trailing) :=
  have h : (inviteMessage (invite [] (Or.inl rfl)).text).getHeaderValue 0 cseqField =
      some (invite [] (Or.inl rfl)).text := by decide
  ⟨h, getCSeqField_eq_iff (invite [] (Or.inl rfl)) h⟩

/-- One blank in front, and the number is read as part of the method. -/
theorem getCSeqField_leading_blank :
    (invite (SipXRouter.text " ") (Or.inr (.blanks (by decide) (by decide)))).text =
      SipXRouter.text " 1 INVITE" ∧
    (inviteMessage (SipXRouter.text " 1 INVITE")).getCSeqField =
      (true, 1, SipXRouter.text "1 INVITE") := by
  decide

end CSeqValue

end SipXRouter
