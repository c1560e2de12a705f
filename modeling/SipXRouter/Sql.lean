import SipXRouter.Bytes

/-!
# Reading an INSERT statement

A statement with a list of values, where a string literal stands in single quotes
and a backslash stands for the character behind it.  The reader takes the literals
apart as a database does; what is of interest here is which texts come back when a
program has put them between quotes.
-/

namespace SipXRouter.Sql

open List

/-- The single quote. -/
def quote : Byte := 39

def backslash : Byte := 92

/-- A value of a list. -/
inductive Value where
  | default
  | null
  | number (digits : Text)
  | literal (string : Text)
  | timestamp (string : Text)
deriving DecidableEq

def Value.string? : Value → Option Text
  | literal string => some string
  | timestamp string => some string
  | _ => none

/-! ## The reader -/

/-- A string literal behind its opening quote, and what follows it. -/
def readLiteral : Text → Option (Text × Text)
  | [] => none
  | c :: s =>
    if c = quote then some ([], s)
    else if c = backslash then
      match s with
      | [] => none
      | d :: s => (readLiteral s).map fun r => (d :: r.1, r.2)
    else (readLiteral s).map fun r => (c :: r.1, r.2)

def isNumberByte (c : Byte) : Bool := isDigit c || c == byte '-'

/-- One value, and what follows it. -/
def readValue (s : Text) : Option (Value × Text) :=
  if (text "DEFAULT").isPrefixOf s then some (.default, s.drop 7)
  else if (text "null").isPrefixOf s then some (.null, s.drop 4)
  else if (text "timestamp '").isPrefixOf s then
    (readLiteral (s.drop 11)).map fun r => (.timestamp r.1, r.2)
  else
    match s with
    | [] => none
    | c :: rest =>
      if c = quote then (readLiteral rest).map fun r => (.literal r.1, r.2)
      else if s.takeWhile isNumberByte = [] then none
      else some (.number (s.takeWhile isNumberByte), s.dropWhile isNumberByte)

/-- The values up to the end of the statement, no more than a number of them. -/
def readValues : Nat → Text → Option (List Value)
  | 0, _ => none
  | n + 1, s =>
    match readValue s with
    | none => none
    | some (v, rest) =>
      if rest = text ");" then some [v]
      else
        match rest with
        | [] => none
        | c :: rest => if c = byte ',' then (readValues n rest).map (v :: ·) else none

/-- How a statement starts. -/
def insertInto (table : Text) : Text := text "INSERT INTO " ++ table ++ text " VALUES ("

/-- The values of a statement that is one INSERT into a table, with nothing behind it. -/
def readInsert (table s : Text) : Option (List Value) :=
  if (insertInto table).isPrefixOf s then
    readValues s.length (s.drop (insertInto table).length)
  else none

/-! ## Literals -/

/-- A text with a backslash in front of each quote, or left as it is. -/
def encode (quotes : Bool) (x : Text) : Text :=
  x.flatMap fun c => if c = quote ∧ quotes = true then [backslash, quote] else [c]

/-- The texts that come back. -/
def Clean (quotes : Bool) (x : Text) : Prop :=
  backslash ∉ x ∧ (quotes = false → quote ∉ x)

variable {c : Byte} {rest' s x : Text}

section Literals

variable {quotes : Bool}

@[simp] theorem encode_nil (quotes : Bool) : encode quotes [] = [] := rfl

theorem encode_cons (quotes : Bool) (c : Byte) (x : Text) :
    encode quotes (c :: x) =
      (if c = quote ∧ quotes = true then [backslash, quote] else [c]) ++ encode quotes x := rfl

@[simp] theorem encode_false (x : Text) : encode false x = x := by
  induction x with
  | nil => rfl
  | cons c x ih => simp [encode_cons, ih]

@[simp] theorem readLiteral_quote (s : Text) : readLiteral (quote :: s) = some ([], s) := by
  rw [readLiteral.eq_def]
  exact if_pos rfl

theorem readLiteral_backslash (d : Byte) (s : Text) :
    readLiteral (backslash :: d :: s) = (readLiteral s).map fun r => (d :: r.1, r.2) := by
  rw [readLiteral, if_neg (by decide), if_pos rfl]

theorem readLiteral_other (hquote : c ≠ quote) (hbackslash : c ≠ backslash) (s : Text) :
    readLiteral (c :: s) = (readLiteral s).map fun r => (c :: r.1, r.2) := by
  rw [readLiteral.eq_def]
  exact (if_neg hquote).trans (if_neg hbackslash)

theorem head_of_readLiteral_backslash {d : Byte} {rest : Text}
    (h : readLiteral (backslash :: d :: s) = some (x, rest)) :
    ∃ y, x = d :: y ∧ readLiteral s = some (y, rest) := by
  rw [readLiteral_backslash, Option.map_eq_some_iff] at h
  obtain ⟨⟨y, rest'⟩, hread, heq⟩ := h
  obtain ⟨rfl, rfl⟩ := Prod.mk.inj heq
  exact ⟨y, rfl, hread⟩

/-- **Texts that come back.** -/
theorem readLiteral_encode (h : Clean quotes x) (rest : Text) :
    readLiteral (encode quotes x ++ quote :: rest) = some (x, rest) := by
  induction x with
  | nil => simp
  | cons c x ih =>
    have hc : c ≠ backslash := fun hc => h.1 (by simp [hc])
    have hrest := ih ⟨fun hx => h.1 (mem_cons_of_mem _ hx),
      fun hquotes hx => h.2 hquotes (mem_cons_of_mem _ hx)⟩
    rw [encode_cons]
    by_cases hquote : c = quote
    · cases quotes with
      | false => exact absurd (by simp [hquote]) (h.2 rfl)
      | true =>
        simp only [hquote, and_self, if_true, cons_append, nil_append,
          readLiteral_backslash, hrest, Option.map_some]
    · simp only [hquote, false_and, if_false, cons_append, nil_append,
        readLiteral_other hquote hc, hrest, Option.map_some]

theorem readLiteral_encode_backslash {y rest : Text}
    (h : readLiteral (encode quotes (backslash :: x) ++ quote :: rest) =
      some (backslash :: y, rest')) : (∃ x', x = quote :: x' ∧ y = []) ∨
      ∃ x', x = backslash :: x' ∧
        readLiteral (encode quotes x' ++ quote :: rest) = some (y, rest') := by
  have hne : backslash ≠ quote := by decide
  rw [encode_cons, if_neg fun hand => hne hand.1] at h
  cases x with
  | nil =>
    obtain ⟨z, hz, -⟩ := head_of_readLiteral_backslash h
    exact absurd (cons_eq_cons.mp hz).1 hne
  | cons d x =>
    by_cases hd : d = backslash
    · subst hd
      rw [encode_cons, if_neg fun hand => hne hand.1] at h
      obtain ⟨z, hz, hread⟩ := head_of_readLiteral_backslash h
      obtain ⟨-, rfl⟩ := cons_eq_cons.mp hz
      exact Or.inr ⟨x, rfl, hread⟩
    · by_cases hquote : d = quote ∧ quotes = true
      · rw [encode_cons, if_pos hquote] at h
        obtain ⟨z, hz, hread⟩ := head_of_readLiteral_backslash h
        obtain ⟨-, rfl⟩ := cons_eq_cons.mp hz
        have hend := (readLiteral_quote (encode quotes x ++ quote :: rest)).symm.trans hread
        exact Or.inl ⟨x, by rw [hquote.1], (Prod.mk.inj (Option.some.inj hend)).1.symm⟩
      · rw [encode_cons, if_neg hquote] at h
        obtain ⟨z, hz, -⟩ := head_of_readLiteral_backslash h
        exact absurd (cons_eq_cons.mp hz).1.symm hd

/-- A byte other than the backslash is read as itself, if it is not the quote that ends a text. -/
theorem head_of_readLiteral_encode {d : Byte} {y rest : Text} (hc : c ≠ backslash)
    (h : readLiteral (encode quotes (c :: x) ++ quote :: rest) = some (d :: y, rest')) :
    d = c ∧ (quotes = false → c ≠ quote) ∧
      readLiteral (encode quotes x ++ quote :: rest) = some (y, rest') := by
  rw [encode_cons] at h
  by_cases hquote : c = quote
  · cases quotes with
    | true =>
      rw [if_pos ⟨hquote, rfl⟩] at h
      obtain ⟨z, hz, hread⟩ := head_of_readLiteral_backslash h
      obtain ⟨rfl, rfl⟩ := cons_eq_cons.mp hz
      exact ⟨hquote.symm, fun hf => absurd hf.symm Bool.false_ne_true, hread⟩
    | false =>
      rw [if_neg (by simp), hquote] at h
      have hend := (readLiteral_quote _).symm.trans h
      exact absurd (Prod.mk.inj (Option.some.inj hend)).1 (cons_ne_nil _ _).symm
  · rw [if_neg fun hand => hquote hand.1] at h
    have hread := (readLiteral_other hquote hc _).symm.trans h
    rw [Option.map_eq_some_iff] at hread
    obtain ⟨⟨y', r⟩, hread, heq⟩ := hread
    obtain ⟨hy, rfl⟩ := Prod.mk.inj heq
    obtain ⟨rfl, rfl⟩ := cons_eq_cons.mp hy
    exact ⟨rfl, fun _ => hquote, hread⟩

theorem readLiteral_encode_ne (n : Nat) (hx : x.length ≤ n) :
    ∀ (k : Nat) (z rest rest' : Text), readLiteral (encode quotes x ++ quote :: rest) ≠
        some (replicate (k + 1) backslash ++ x ++ z, rest') := by
  induction n generalizing x with
  | zero =>
    intro k z rest rest' h
    obtain rfl := length_eq_zero_iff.mp (Nat.le_zero.mp hx)
    rw [encode_nil, nil_append, readLiteral_quote] at h
    exact absurd (Prod.mk.inj (Option.some.inj h)).1 (cons_ne_nil _ _).symm
  | succ n ih =>
    intro k z rest rest' h
    cases x with
    | nil =>
      rw [encode_nil, nil_append, readLiteral_quote] at h
      exact absurd (Prod.mk.inj (Option.some.inj h)).1 (cons_ne_nil _ _).symm
    | cons c x =>
      by_cases hc : c = backslash
      · subst hc
        rcases readLiteral_encode_backslash h with ⟨x', rfl, hnil⟩ | ⟨x', rfl, hread⟩
        · simp at hnil
        · have hlength : x'.length ≤ n := by
            rw [length_cons, length_cons] at hx
            omega
          refine ih hlength (k + 1) z rest rest' ?_
          rw [hread]
          simp [replicate_succ', append_assoc]
      · rw [replicate_succ] at h
        exact hc (head_of_readLiteral_encode hc h).1.symm

/-- **And no others do**: what is read is the text only if it comes back. -/
theorem eq_of_readLiteral_encode {z rest : Text}
    (h : readLiteral (encode quotes x ++ quote :: rest) = some (x ++ z, rest')) :
    Clean quotes x ∧ z = [] ∧ rest' = rest := by
  induction x with
  | nil =>
    rw [encode_nil, nil_append, readLiteral_quote] at h
    obtain ⟨hz, hrest⟩ := Prod.mk.inj (Option.some.inj h)
    exact ⟨⟨not_mem_nil, fun _ => not_mem_nil⟩, hz.symm, hrest.symm⟩
  | cons c x ih =>
    by_cases hc : c = backslash
    · subst hc
      rcases readLiteral_encode_backslash h with ⟨x', rfl, hnil⟩ | ⟨x', rfl, hread⟩
      · exact absurd hnil (cons_ne_nil _ _)
      · exact absurd hread (readLiteral_encode_ne _ (le_refl _) 0 z rest rest')
    · obtain ⟨-, hquote, hread⟩ := head_of_readLiteral_encode hc h
      obtain ⟨⟨hbackslash, hquotes⟩, hz, hrest⟩ := ih hread
      refine ⟨⟨?_, fun hfalse => ?_⟩, hz, hrest⟩
      · exact fun hmem => (mem_cons.mp hmem).elim (fun h => hc h.symm) hbackslash
      · exact fun hmem => (mem_cons.mp hmem).elim (fun h => hquote hfalse h.symm)
          (hquotes hfalse)

end Literals

/-! ## Lists of values -/

/-- What is left of a statement has a list of values with these texts. -/
def Says (n : Nat) (s : Text) (strings : List (Option Text)) : Prop :=
  ∃ values, readValues n s = some values ∧ values.map Value.string? = strings

variable {v : Value}

section Values

variable {n : Nat} {rest : Text} {strings : List (Option Text)}

theorem readValues_of_value (hread : readValue s = some (v, c :: rest)) (hc : c ≠ byte ')') :
    readValues (n + 1) s = if c = byte ',' then (readValues n rest).map (v :: ·) else none := by
  have hend : c :: rest ≠ text ");" := fun h => hc (cons_eq_cons.mp h).1
  rw [readValues, hread]
  simp only [hend, if_false]

theorem says_of_value (hread : readValue s = some (v, byte ',' :: rest)) :
    Says (n + 1) s (v.string? :: strings) ↔ Says n rest strings := by
  rw [Says, readValues_of_value hread (by decide), if_pos rfl]
  constructor
  · rintro ⟨values, hvalues, hstrings⟩
    obtain ⟨tail, htail, rfl⟩ := Option.map_eq_some_iff.mp hvalues
    exact ⟨tail, htail, (cons_eq_cons.mp hstrings).2⟩
  · rintro ⟨tail, htail, hstrings⟩
    exact ⟨v :: tail, by rw [htail]; rfl, by rw [map_cons, hstrings]⟩

theorem says_last (hread : readValue s = some (v, text ");")) :
    Says (n + 1) s [v.string?] := by
  refine ⟨[v], ?_, rfl⟩
  rw [readValues, hread]
  exact if_pos rfl

theorem not_says_of_value {string : Option Text}
    (hread : readValue s = some (v, rest')) (hne : v.string? ≠ string) :
    ¬ Says (n + 1) s (string :: strings) := by
  rintro ⟨values, hvalues, hstrings⟩
  rw [readValues, hread] at hvalues
  dsimp only at hvalues
  split at hvalues
  · obtain rfl := Option.some.inj hvalues
    exact hne (cons_eq_cons.mp hstrings).1
  · split at hvalues
    · exact absurd hvalues (by simp)
    · split at hvalues
      · obtain ⟨tail, -, rfl⟩ := Option.map_eq_some_iff.mp hvalues
        exact hne (cons_eq_cons.mp hstrings).1
      · exact absurd hvalues (by simp)

theorem not_says_of_none (hread : readValue s = none) : ¬ Says n s strings := by
  rintro ⟨values, hvalues, -⟩
  cases n with
  | zero => exact absurd hvalues (by simp [readValues])
  | succ n =>
    rw [readValues, hread] at hvalues
    exact absurd hvalues (by simp)

/-! ## The kinds of values -/

theorem readValue_quote (s : Text) :
    readValue (quote :: s) = (readLiteral s).map fun r => (.literal r.1, r.2) := by
  have hdefault : (text "DEFAULT").isPrefixOf (quote :: s) = false := rfl
  have hnull : (text "null").isPrefixOf (quote :: s) = false := rfl
  have htimestamp : (text "timestamp '").isPrefixOf (quote :: s) = false := rfl
  rw [readValue, hdefault, hnull, htimestamp]
  simp

theorem readValue_default : readValue (text "DEFAULT" ++ rest) = some (.default, rest) := rfl

theorem readValue_null : readValue (text "null" ++ rest) = some (.null, rest) := rfl

/-- A number is read up to the byte that ends it. -/
theorem readValue_number {digits : Text} (hne : digits ≠ [])
    (hdigits : ∀ c ∈ digits, isNumberByte c = true) (hc : isNumberByte c = false) :
    readValue (digits ++ c :: rest) = some (.number digits, c :: rest) := by
  obtain ⟨d, ds, rfl⟩ := exists_cons_of_ne_nil hne
  have hd := hdigits d (mem_cons_self ..)
  have hD : (byte 'D' == d) = false := beq_false_of_ne (ne_of_class hd (by decide)).symm
  have hn : (byte 'n' == d) = false := beq_false_of_ne (ne_of_class hd (by decide)).symm
  have ht : (byte 't' == d) = false := beq_false_of_ne (ne_of_class hd (by decide)).symm
  have hquote : d ≠ quote := ne_of_class hd (by decide)
  have hdefault : (text "DEFAULT").isPrefixOf (d :: (ds ++ c :: rest)) = false := by
    rw [show text "DEFAULT" = byte 'D' :: text "EFAULT" from rfl, isPrefixOf_cons_cons, hD]
    rfl
  have hnull : (text "null").isPrefixOf (d :: (ds ++ c :: rest)) = false := by
    rw [show text "null" = byte 'n' :: text "ull" from rfl, isPrefixOf_cons_cons, hn]
    rfl
  have htimestamp : (text "timestamp '").isPrefixOf (d :: (ds ++ c :: rest)) = false := by
    rw [show text "timestamp '" = byte 't' :: text "imestamp '" from rfl, isPrefixOf_cons_cons, ht]
    rfl
  have htake : (d :: ds ++ c :: rest).takeWhile isNumberByte = d :: ds := by
    rw [takeWhile_append_of_pos hdigits, takeWhile_cons_of_neg (by simp [hc]),
      append_nil]
  have hdrop : (d :: ds ++ c :: rest).dropWhile isNumberByte = c :: rest := by
    rw [dropWhile_append_of_pos hdigits, dropWhile_cons_of_neg (by simp [hc])]
  rw [readValue.eq_def]
  simp only [cons_append, hdefault, hnull, htimestamp, Bool.false_eq_true, if_false, hquote]
  rw [← cons_append, htake, hdrop, if_neg (cons_ne_nil _ _)]

theorem readValue_timestamp (h : Clean false x) :
    readValue (text "timestamp '" ++ (x ++ quote :: rest)) = some (.timestamp x, rest) := by
  have hread : readLiteral (x ++ quote :: rest) = some (x, rest) := by
    have := readLiteral_encode h rest
    rwa [encode_false] at this
  have hdefault : (text "DEFAULT").isPrefixOf (text "timestamp '" ++ (x ++ quote :: rest)) = false :=
    rfl
  have hnull : (text "null").isPrefixOf (text "timestamp '" ++ (x ++ quote :: rest)) = false := rfl
  have htimestamp :
      (text "timestamp '").isPrefixOf (text "timestamp '" ++ (x ++ quote :: rest)) = true := by
    rw [List.isPrefixOf_iff_prefix]
    exact prefix_append _ _
  rw [readValue.eq_def, hdefault, hnull, htimestamp,
    show (text "timestamp '" ++ (x ++ quote :: rest)).drop 11 = x ++ quote :: rest from rfl, hread]
  rfl

/-- **A literal in a list** comes back exactly when its text does. -/
theorem says_quoted {quotes : Bool} :
    Says (n + 1) (quote :: (encode quotes x ++ quote :: byte ',' :: rest)) (some x :: strings) ↔
      Clean quotes x ∧ Says n rest strings := by
  by_cases hclean : Clean quotes x
  · have hread : readValue (quote :: (encode quotes x ++ quote :: byte ',' :: rest)) =
        some (.literal x, byte ',' :: rest) := by
      rw [readValue_quote, readLiteral_encode hclean]
      rfl
    have hiff : Says (n + 1) (quote :: (encode quotes x ++ quote :: byte ',' :: rest))
        (some x :: strings) ↔ Says n rest strings := says_of_value hread
    rw [hiff]
    exact ⟨fun h => ⟨hclean, h⟩, fun h => h.2⟩
  · refine iff_of_false (fun h => ?_) fun h => hclean h.1
    cases hread : readLiteral (encode quotes x ++ quote :: byte ',' :: rest) with
    | none => exact not_says_of_none (by rw [readValue_quote, hread]; rfl) h
    | some r =>
      refine not_says_of_value (by rw [readValue_quote, hread]; rfl) (fun hx => ?_) h
      have hr : r.1 = x ++ [] := by
        rw [append_nil]
        exact Option.some.inj hx
      rw [show r = (x ++ [], r.2) from Prod.ext hr rfl] at hread
      exact hclean (eq_of_readLiteral_encode hread).1

/-- A literal that is read with its value is clean and ends where it was closed. -/
theorem clean_of_quoted {z : Text}
    (h : Says (n + 1) (quote :: (x ++ quote :: rest)) (some (x ++ z) :: strings)) :
    Clean false x ∧ z = [] ∧
      (rest = text ");" ∨ ∃ rest', rest = byte ',' :: rest' ∧ Says n rest' strings) := by
  cases hread : readLiteral (x ++ quote :: rest) with
  | none => exact absurd h (not_says_of_none (by rw [readValue_quote, hread]; rfl))
  | some r =>
    have hvalue : readValue (quote :: (x ++ quote :: rest)) = some (.literal r.1, r.2) := by
      rw [readValue_quote, hread]
      rfl
    by_cases hr : r.1 = x ++ z
    · have hencoded : readLiteral (encode false x ++ quote :: rest) = some (x ++ z, r.2) := by
        rw [encode_false, hread, ← hr]
      obtain ⟨hclean, hz, hrest⟩ := eq_of_readLiteral_encode hencoded
      refine ⟨hclean, hz, ?_⟩
      rw [hrest] at hvalue
      cases rest with
      | nil =>
        obtain ⟨values, hvalues, -⟩ := h
        rw [readValues, hvalue] at hvalues
        exact absurd hvalues (by simp [text])
      | cons c rest =>
        by_cases hend : c :: rest = text ");"
        · exact Or.inl hend
        · by_cases hc : c = byte ','
          · subst hc
            have hiff : Says (n + 1) (quote :: (x ++ quote :: byte ',' :: rest))
                (some r.1 :: strings) ↔ Says n rest strings := says_of_value hvalue
            rw [← hr] at h
            exact Or.inr ⟨rest, rfl, hiff.mp h⟩
          · obtain ⟨values, hvalues, -⟩ := h
            rw [readValues, hvalue] at hvalues
            simp only [hend, if_false, hc] at hvalues
            exact absurd hvalues (by simp)
    · exact absurd h (not_says_of_value hvalue fun hx => hr (Option.some.inj hx))

end Values

end SipXRouter.Sql
