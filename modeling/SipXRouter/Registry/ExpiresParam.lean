import SipXRouter.Registry.SipRegistrarServer

/-!
# The expires parameter of a contact

`applyRegisterToDirectory` copies ten bytes of the parameter into a buffer of twelve, puts a
terminator into the last of them, and lets `strtol` read it.  The byte between the two is never
written.  A number that goes on up to there is read on into it, and `strtol` takes more texts for
a number than those of digits.
-/

namespace SipXRouter.SipRegistrarServer

open List

/-- What `strncpy` copies: ten bytes, or those in front of a NUL. -/
def copiedBytes (expireStr : Text) : Text := cString (expireStr.take 10)

/-- What `strtol` reads digits from: the text behind white space and a sign. -/
def unsignedPart (s : Text) : Text :=
  let start := s.dropWhile isCSpace
  if start.take 1 = [byte '-'] ∨ start.take 1 = [byte '+'] then start.drop 1 else start

/-- The place of the byte that ends the number, the last one that `strtol` and the test of `*end`
look at. -/
def endOfNumber (s : Text) : Nat := s.length - ((unsignedPart s).dropWhile isDigit).length

/-- The text of a contact's expires parameter, empty where it has none. -/
def expiresParam (contact : Url) : Text := (contact.getFieldParameter (text "EXPIRES")).getD []

/-- **The expires parameter is read.**  It is a number exactly if it is one or more digits, and then
the number of these digits, held at the maximum; and no byte is looked at that was not copied. -/
structure ReadsParameter (contact : Url) : Prop where
  written : ∀ stackByte, endOfNumber (expireVal stackByte (expiresParam contact)) < 10
  absent : expiresParam contact = [] → ∀ stackByte commonExpires,
    requestedExpires stackByte commonExpires contact = some commonExpires
  number : expiresParam contact ≠ [] → ∀ stackByte commonExpires,
    (requestedExpires stackByte commonExpires contact).isSome ↔
      ∀ c ∈ expiresParam contact, isDigit c = true
  value : expiresParam contact ≠ [] → (∀ c ∈ expiresParam contact, isDigit c = true) →
    ∀ stackByte commonExpires limits,
      (requestedExpires stackByte commonExpires contact).map (grantedExpires limits) =
        some (grantedExpires limits (digitsValue 10 (expiresParam contact)))

/-- A text whose reading ends before the byte that was not written, and rightly: up to nine digits,
or no number. -/
def StopsInside (expireStr : Text) : Prop :=
  expireStr.length < 10 ∧ (∀ c ∈ expireStr, isDigit c = true) ∨
    (∃ c ∈ unsignedPart (copiedBytes expireStr), isDigit c = false) ∨
    (copiedBytes expireStr).length < 10 ∧ copiedBytes expireStr ≠ [] ∧
      unsignedPart (copiedBytes expireStr) = []

/-! ## Reading a number -/

theorem strtol_eq (s : Text) :
    strtol s =
      if (unsignedPart s).takeWhile isDigit = [] then (0, s)
      else
        (saturate (if (s.dropWhile isCSpace).take 1 = [byte '-'] then
            -((digitsValue 10 ((unsignedPart s).takeWhile isDigit) : Nat) : Int)
          else ((digitsValue 10 ((unsignedPart s).takeWhile isDigit) : Nat) : Int)),
          (unsignedPart s).dropWhile isDigit) :=
  rfl

/-- `strtol` reads all of a text exactly when it is empty or digits. -/
theorem strtol_snd_eq_nil_iff (s : Text) : (strtol s).2 = [] ↔
    s = [] ∨ unsignedPart s ≠ [] ∧ ∀ c ∈ unsignedPart s, isDigit c = true := by
  rw [strtol_eq]
  split
  · next hnone =>
      constructor
      · intro hnil
        exact Or.inl hnil
      · rintro (hnil | ⟨hne, hdigits⟩)
        · exact hnil
        · rw [takeWhile_eq_self_iff.mpr hdigits] at hnone
          exact absurd hnone hne
  · next hsome =>
      show (unsignedPart s).dropWhile isDigit = [] ↔ _
      rw [dropWhile_eq_nil_iff]
      constructor
      · intro hdigits
        refine Or.inr ⟨fun hnil => hsome ?_, hdigits⟩
        rw [hnil, takeWhile_nil]
      · rintro (rfl | ⟨-, hdigits⟩)
        · exact absurd rfl hsome
        · exact hdigits

theorem length_unsignedPart_le (s : Text) : (unsignedPart s).length ≤ s.length := by
  have hdrop := (dropWhile_sublist (l := s) isCSpace).length_le
  rw [unsignedPart]
  split
  · rw [length_drop]
    omega
  · exact hdrop

theorem endOfNumber_lt_iff (s : Text) :
    endOfNumber s < s.length ↔ ∃ c ∈ unsignedPart s, isDigit c = false := by
  have hle := (dropWhile_sublist (l := unsignedPart s) isDigit).length_le
  have hpart := length_unsignedPart_le s
  have hnil : (unsignedPart s).dropWhile isDigit = [] ↔ ∀ c ∈ unsignedPart s, isDigit c = true :=
    dropWhile_eq_nil_iff
  rw [endOfNumber]
  constructor
  · intro hlt
    by_contra hno
    have hall : ∀ c ∈ unsignedPart s, isDigit c = true := by
      intro c hc
      by_contra hdigit
      exact hno ⟨c, hc, Bool.eq_false_iff.mpr hdigit⟩
    rw [hnil.mpr hall] at hlt
    simp at hlt
  · rintro ⟨c, hc, hdigit⟩
    have hne : (unsignedPart s).dropWhile isDigit ≠ [] := by
      intro hall
      rw [hnil.mp hall c hc] at hdigit
      cases hdigit
    have hpos := length_pos_of_ne_nil hne
    omega

theorem endOfNumber_le (s : Text) : endOfNumber s ≤ s.length := Nat.sub_le _ _

variable {s : Text}

theorem unsignedPart_of_digits (hs : ∀ c ∈ s, isDigit c = true) : unsignedPart s = s := by
  cases s with
  | nil => rfl
  | cons c s =>
    obtain ⟨hspace, hminus, hplus⟩ := isDigit_marks c (hs c mem_cons_self)
    have hstart : (c :: s).dropWhile isCSpace = c :: s :=
      dropWhile_cons_of_neg (by simp [hspace])
    rw [unsignedPart, hstart]
    simp [hminus, hplus]

/-! ## The copy -/

theorem length_copiedBytes_le (expireStr : Text) : (copiedBytes expireStr).length ≤ 10 :=
  ((takeWhile_sublist _).length_le).trans (length_take_le _ _)

variable {expireStr : Text}

theorem expireVal_of_lt (stackByte : Byte) (hlt : (copiedBytes expireStr).length < 10) :
    expireVal stackByte expireStr = copiedBytes expireStr :=
  if_pos hlt

theorem expireVal_of_full (stackByte : Byte) (hfull : (copiedBytes expireStr).length = 10) :
    expireVal stackByte expireStr = copiedBytes expireStr ++ cString [stackByte] := by
  have hnul : ∀ c ∈ copiedBytes expireStr, (c != 0) = true :=
    fun c hc => mem_takeWhile_imp (p := fun c => c != 0) hc
  have hnot : ¬ (copiedBytes expireStr).length < 10 := by omega
  show (if (copiedBytes expireStr).length < 10 then copiedBytes expireStr
    else cString (copiedBytes expireStr ++ [stackByte])) = _
  rw [if_neg hnot, cString, cString, takeWhile_append_of_pos hnul]

theorem copiedBytes_of_digits (hdigits : ∀ c ∈ expireStr, isDigit c = true) :
    copiedBytes expireStr = expireStr.take 10 :=
  cString_of_class (fun c hc => hdigits c (mem_of_mem_take hc)) (by decide)

theorem unsignedPart_copiedBytes (hdigits : ∀ c ∈ expireStr, isDigit c = true) :
    unsignedPart (copiedBytes expireStr) = copiedBytes expireStr ∧
      ∀ c ∈ copiedBytes expireStr, isDigit c = true := by
  have htake : ∀ c ∈ expireStr.take 10, isDigit c = true :=
    fun c hc => hdigits c (mem_of_mem_take hc)
  rw [copiedBytes_of_digits hdigits]
  exact ⟨unsignedPart_of_digits htake, htake⟩

theorem ne_nil_of_not_digits (hs : ¬ ∀ c ∈ s, isDigit c = true) : s ≠ [] := by
  rintro rfl
  exact hs fun c hc => absurd hc not_mem_nil

/-- The reading of a full copy that stops inside it stops there whatever byte follows. -/
theorem endOfNumber_append (rest : Text) (hs : ∃ c ∈ unsignedPart s, isDigit c = false) :
    endOfNumber (s ++ rest) < s.length ∧
      ∃ c ∈ unsignedPart (s ++ rest), isDigit c = false := by
  obtain ⟨c, hc, hdigit⟩ := hs
  have hpart : unsignedPart (s ++ rest) = unsignedPart s ++ rest := by
    generalize hstart : s.dropWhile isCSpace = start
    have hne : start ≠ [] := by
      intro hnil
      rw [unsignedPart, hstart, hnil] at hc
      exact not_mem_nil hc
    have hdrop : (s ++ rest).dropWhile isCSpace = start ++ rest := by
      rw [dropWhile_append, hstart, if_neg (by simpa using hne)]
    obtain ⟨d, more, rfl⟩ := exists_cons_of_ne_nil hne
    rw [unsignedPart, unsignedPart, hdrop, hstart]
    show (if [d] = [byte '-'] ∨ [d] = [byte '+'] then more ++ rest else d :: more ++ rest) =
      (if [d] = [byte '-'] ∨ [d] = [byte '+'] then more else d :: more) ++ rest
    split <;> rfl
  have hmem : c ∈ unsignedPart (s ++ rest) := hpart ▸ mem_append_left _ hc
  refine ⟨?_, c, hmem, hdigit⟩
  have hleft : (unsignedPart s).dropWhile isDigit ≠ [] := by
    rw [Ne, dropWhile_eq_nil_iff]
    intro hall
    rw [hall c hc] at hdigit
    cases hdigit
  have hdrop : (unsignedPart (s ++ rest)).dropWhile isDigit =
      (unsignedPart s).dropWhile isDigit ++ rest := by
    rw [hpart, dropWhile_append, if_neg (by simpa using hleft)]
  have hpos := length_pos_of_ne_nil hleft
  have hle := (dropWhile_sublist (l := unsignedPart s) isDigit).length_le
  have hlen := length_unsignedPart_le s
  rw [endOfNumber, hdrop, length_append, length_append]
  omega

theorem expireVal_zero (expireStr : Text) : expireVal 0 expireStr = copiedBytes expireStr := by
  by_cases hlt : (copiedBytes expireStr).length < 10
  · exact expireVal_of_lt 0 hlt
  · have hle := length_copiedBytes_le expireStr
    rw [expireVal_of_full 0 (by omega)]
    exact append_nil _

/-! ## The parameter -/

variable {contact : Url}

theorem requestedExpires_of_ne_nil (stackByte : Byte) (commonExpires : Int)
    (hne : expiresParam contact ≠ []) :
    requestedExpires stackByte commonExpires contact =
      if (strtol (expireVal stackByte (expiresParam contact))).2 = [] then
        some (toInt32 (strtol (expireVal stackByte (expiresParam contact))).1)
      else none := by
  rw [requestedExpires]
  split
  · next hnil => exact absurd hnil hne
  · rfl

theorem isSome_requestedExpires_iff (stackByte : Byte) (commonExpires : Int)
    (hne : expiresParam contact ≠ []) : (requestedExpires stackByte commonExpires contact).isSome ↔
      expireVal stackByte (expiresParam contact) = [] ∨
        unsignedPart (expireVal stackByte (expiresParam contact)) ≠ [] ∧
          ∀ c ∈ unsignedPart (expireVal stackByte (expiresParam contact)), isDigit c = true := by
  rw [requestedExpires_of_ne_nil stackByte commonExpires hne, ← strtol_snd_eq_nil_iff]
  split
  · next h => exact ⟨fun _ => h, fun _ => rfl⟩
  · next h => exact ⟨fun hsome => absurd hsome (by decide), fun hnil => absurd hnil h⟩

/-- Nine digits are below the limit of an `int`. -/
theorem digitsValue_lt (hs : ∀ c ∈ s, isDigit c = true) : digitsValue 10 s < 10 ^ s.length := by
  have hdigit : ∀ c : Byte, isDigit c = true → hexValue c < 10 := by decide +kernel
  induction s using reverseRecOn with
  | nil => decide
  | append_singleton s c ih =>
    have hlt := ih fun d hd => hs d (mem_append_left _ hd)
    have hc := hdigit c (hs c (by simp))
    have hsnoc : digitsValue 10 (s ++ [c]) = digitsValue 10 s * 10 + hexValue c := by
      rw [digitsValue, foldl_append]
      rfl
    rw [hsnoc, length_append, length_singleton, Nat.pow_succ]
    omega

theorem readsParameter_of_digits (hlt : (expiresParam contact).length < 10)
    (hdigits : ∀ c ∈ expiresParam contact, isDigit c = true) : ReadsParameter contact := by
  have hcopied : copiedBytes (expiresParam contact) = expiresParam contact := by
    rw [copiedBytes_of_digits hdigits, take_of_length_le hlt.le]
  have hval : ∀ stackByte,
      expireVal stackByte (expiresParam contact) = expiresParam contact := by
    intro stackByte
    rw [expireVal_of_lt stackByte (by rw [hcopied]; exact hlt), hcopied]
  have hpart := unsignedPart_of_digits hdigits
  constructor
  · intro stackByte
    rw [hval]
    exact (endOfNumber_le _).trans_lt hlt
  · intro hnil stackByte commonExpires
    rw [requestedExpires]
    split
    · rfl
    · next hcons => exact absurd hnil hcons
  · intro hne stackByte commonExpires
    rw [isSome_requestedExpires_iff stackByte commonExpires hne, hval, hpart]
    exact ⟨fun _ => hdigits, fun _ => Or.inr ⟨hne, hdigits⟩⟩
  · intro hne _ stackByte commonExpires limits
    have hvalue := digitsValue_lt hdigits
    have hpow : 10 ^ (expiresParam contact).length ≤ 10 ^ 9 :=
      Nat.pow_le_pow_right (by decide) (by omega)
    have hint : toInt32 ((digitsValue 10 (expiresParam contact) : Nat) : Int) =
        ((digitsValue 10 (expiresParam contact) : Nat) : Int) := by
      rw [toInt32]
      omega
    have hread := @strtol_digits _ [] hne hdigits (by simp)
    rw [append_nil, saturate_eq_self (by omega) (by omega)] at hread
    rw [requestedExpires_of_ne_nil stackByte commonExpires hne, hval, hread, if_pos rfl,
      Option.map_some, hint]

theorem readsParameter_of_refused (hdigits : ¬ ∀ c ∈ expiresParam contact, isDigit c = true)
    (hwritten : ∀ stackByte, endOfNumber (expireVal stackByte (expiresParam contact)) < 10)
    (hnone : ∀ stackByte, expireVal stackByte (expiresParam contact) ≠ [] ∧
      (unsignedPart (expireVal stackByte (expiresParam contact)) = [] ∨
        ∃ c ∈ unsignedPart (expireVal stackByte (expiresParam contact)), isDigit c = false)) :
    ReadsParameter contact := by
  have hne := ne_nil_of_not_digits hdigits
  constructor
  · exact hwritten
  · intro hnil
    exact absurd hnil hne
  · intro _ stackByte commonExpires
    rw [isSome_requestedExpires_iff stackByte commonExpires hne]
    refine ⟨fun hread => ?_, fun hall => absurd hall hdigits⟩
    obtain ⟨hval, hstop⟩ := hnone stackByte
    rcases hread with hnil | ⟨hpart, hall⟩
    · exact absurd hnil hval
    · rcases hstop with hnil | ⟨c, hc, hdigit⟩
      · exact absurd hnil hpart
      · rw [hall c hc] at hdigit
        cases hdigit
  · intro _ hall
    exact absurd hall hdigits

/-- **Which parameters are read**: those of up to nine digits, and those that a byte ends inside the
ten that are copied. -/
theorem readsParameter_iff (contact : Url) :
    ReadsParameter contact ↔ StopsInside (expiresParam contact) := by
  constructor
  · intro hreads
    have hend := hreads.written 0
    rw [expireVal_zero] at hend
    have hfull : (copiedBytes (expiresParam contact)).length < 10 ∨
        ∃ c ∈ unsignedPart (copiedBytes (expiresParam contact)), isDigit c = false := by
      by_cases hlt : (copiedBytes (expiresParam contact)).length < 10
      · exact Or.inl hlt
      · exact Or.inr ((endOfNumber_lt_iff _).mp (by omega))
    rcases hfull with hlt | hstop
    · by_cases hdigits : ∀ c ∈ expiresParam contact, isDigit c = true
      · refine Or.inl ⟨?_, hdigits⟩
        rw [copiedBytes_of_digits hdigits, length_take] at hlt
        omega
      · -- the text is no number, and so it was refused
        have hne := ne_nil_of_not_digits hdigits
        have hnone : ¬ (requestedExpires 0 0 contact).isSome := fun hsome =>
          hdigits ((hreads.number hne 0 0).mp hsome)
        rw [isSome_requestedExpires_iff 0 0 hne, expireVal_zero] at hnone
        obtain ⟨hcopied, hpart⟩ := not_or.mp hnone
        by_cases hnil : unsignedPart (copiedBytes (expiresParam contact)) = []
        · exact Or.inr (Or.inr ⟨hlt, hcopied, hnil⟩)
        · refine Or.inr (Or.inl ?_)
          by_contra hno
          refine hpart ⟨hnil, fun c hc => ?_⟩
          by_contra hdigit
          exact hno ⟨c, hc, Bool.eq_false_iff.mpr hdigit⟩
    · exact Or.inr (Or.inl hstop)
  · rintro (⟨hlt, hdigits⟩ | ⟨c, hc, hdigit⟩ | ⟨hlt, hcopied, hpart⟩)
    · exact readsParameter_of_digits hlt hdigits
    · have hmem : ∃ c ∈ unsignedPart (copiedBytes (expiresParam contact)), isDigit c = false :=
        ⟨c, hc, hdigit⟩
      have hle := length_copiedBytes_le (expiresParam contact)
      -- a copy that is full is read with whatever follows it
      have hall : ∀ stackByte,
          endOfNumber (expireVal stackByte (expiresParam contact)) <
            (copiedBytes (expiresParam contact)).length ∧
          ∃ c ∈ unsignedPart (expireVal stackByte (expiresParam contact)), isDigit c = false := by
        intro stackByte
        by_cases hlt : (copiedBytes (expiresParam contact)).length < 10
        · rw [expireVal_of_lt stackByte hlt]
          exact ⟨(endOfNumber_lt_iff _).mpr hmem, hmem⟩
        · rw [expireVal_of_full stackByte (by omega)]
          exact endOfNumber_append _ hmem
      have hnot : ¬ ∀ c ∈ expiresParam contact, isDigit c = true := by
        intro hdigits
        obtain ⟨hpart, htake⟩ := unsignedPart_copiedBytes hdigits
        rw [hpart] at hc
        rw [htake c hc] at hdigit
        cases hdigit
      refine readsParameter_of_refused hnot (fun stackByte => (hall stackByte).1.trans_le hle)
        fun stackByte => ⟨fun hnil => ?_, Or.inr (hall stackByte).2⟩
      obtain ⟨d, hd, -⟩ := (hall stackByte).2
      rw [hnil] at hd
      exact absurd hd not_mem_nil
    · have hnot : ¬ ∀ c ∈ expiresParam contact, isDigit c = true := by
        intro hdigits
        rw [(unsignedPart_copiedBytes hdigits).1] at hpart
        exact hcopied hpart
      refine readsParameter_of_refused hnot (fun stackByte => ?_) fun stackByte => ?_
      · rw [expireVal_of_lt stackByte hlt]
        exact (endOfNumber_le _).trans_lt hlt
      · rw [expireVal_of_lt stackByte hlt]
        exact ⟨hcopied, Or.inl hpart⟩

/-- Ten digits are read on into the byte that was not written: with a NUL there the number is one
of 2³² and more, and what an `int` keeps of it unregisters the contact. -/
theorem not_readsParameter_tenDigits :
    let contact := Url.ofText (text "<sip:200@10.0.0.1>;expires=4294967296") .nameAddr
    requestedExpires 0 3600 contact = some 0 ∧ requestedExpires (byte 'x') 3600 contact = none ∧
      ¬ ReadsParameter contact := by
  intro contact
  have hzero : requestedExpires 0 3600 contact = some 0 := by decide +kernel
  have hx : requestedExpires (byte 'x') 3600 contact = none := by decide +kernel
  have hparam : expiresParam contact = text "4294967296" := by decide +kernel
  refine ⟨hzero, hx, fun hreads => ?_⟩
  have hsome := (hreads.number (by rw [hparam]; decide) (byte 'x') 3600).mpr
    (by rw [hparam]; decide)
  rw [hx] at hsome
  cases hsome

end SipXRouter.SipRegistrarServer
