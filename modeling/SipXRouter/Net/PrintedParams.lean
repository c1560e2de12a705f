import SipXRouter.Net.UrlParams

/-!
# What a printed list of parameters is read as

The names of parameters are printed as they are, so that a name with a mark in it is read as
something else.  Whatever that is, it is not longer: a list cannot come back as it was if one of
its names was taken apart.
-/

namespace SipXRouter

open List NameValueTokenizer

/-! ## The length behind escapes -/

/-- The number of bytes behind the escapes of a text; an escape cut short ends it. -/
def decodedLength : Text → Nat
  | [] => 0
  | c :: cs =>
    if c = byte '%' then
      match cs with
      | _ :: _ :: rest => decodedLength rest + 1
      | _ => 0
    else decodedLength cs + 1

variable {c : Byte}

theorem decodedLength_cons (hc : c ≠ byte '%') (s : Text) :
    decodedLength (c :: s) = decodedLength s + 1 := by
  rw [decodedLength.eq_def]
  exact if_neg hc

theorem decodedLength_percent (high low : Byte) (s : Text) :
    decodedLength (byte '%' :: high :: low :: s) = decodedLength s + 1 := by
  rw [decodedLength.eq_def]
  rfl

theorem decodedLength_le : ∀ s : Text, decodedLength s ≤ s.length := by
  intro s
  fun_induction decodedLength s with
  | case1 => exact Nat.le_refl 0
  | case2 high low rest ih =>
    simp only [length_cons]
    omega
  | case3 cs hcs => exact Nat.zero_le _
  | case4 c cs hc ih =>
    rw [length_cons]
    omega

theorem length_unescapeLoop (escaped : Byte) (s : Text) :
    (unescapeLoop escaped s).length = decodedLength s := by
  fun_induction unescapeLoop escaped s with
  | case1 => rfl
  | case2 escaped cs ih =>
    rw [length_cons, ih, decodedLength_cons (by decide)]
  | case3 => rfl
  | case4 => rfl
  | case5 => rename_i ih; rw [length_cons, ih, decodedLength_percent]
  | case6 escaped c cs hplus hpercent ih =>
    rw [length_cons, ih, decodedLength_cons hpercent]

/-- Two bytes more, or one, that may open an escape or belong to one. -/
theorem decodedLength_cons_le : ∀ (n : Nat) (s : Text), s.length ≤ n →
    (∀ c, decodedLength (c :: s) ≤ decodedLength s + 1) ∧
      ∀ c d, decodedLength s ≤ decodedLength (c :: d :: s) := by
  intro n
  induction n with
  | zero =>
    intro s hs
    obtain rfl : s = [] := length_eq_zero_iff.mp (Nat.le_zero.mp hs)
    exact ⟨fun c => decodedLength_le [c], fun c d => Nat.zero_le _⟩
  | succ n ih =>
    intro s hs
    have hone (c : Byte) : decodedLength (c :: s) ≤ decodedLength s + 1 := by
      by_cases hc : c = byte '%'
      · rw [hc]
        rcases s with - | ⟨a, - | ⟨b, rest⟩⟩
        · exact Nat.zero_le _
        · exact Nat.zero_le _
        · have hrest := (ih rest (by simp only [length_cons] at hs; omega)).2 a b
          rw [decodedLength_percent]
          omega
      · exact (decodedLength_cons hc s).le
    refine ⟨hone, fun c d => ?_⟩
    by_cases hc : c = byte '%'
    · rw [hc]
      rcases s with - | ⟨a, rest⟩
      · exact Nat.zero_le _
      · have hrest := (ih rest (by simp only [length_cons] at hs; omega)).1 a
        rw [decodedLength_percent]
        exact hrest
    · rw [decodedLength_cons hc]
      by_cases hd : d = byte '%'
      · rw [hd]
        rcases s with - | ⟨a, - | ⟨b, rest⟩⟩
        · exact Nat.zero_le _
        · exact (decodedLength_le [a]).trans (Nat.le_add_left _ _)
        · -- what the escape takes away counted as two bytes before
          have hlen : rest.length + 2 ≤ n + 1 := by simpa using hs
          have ha := (ih (b :: rest) (by rw [length_cons]; omega)).1 a
          have hb := (ih rest (by omega)).1 b
          rw [decodedLength_percent]
          omega
      · rw [decodedLength_cons hd]
        omega

theorem decodedLength_append_le (s t : Text) :
    decodedLength (s ++ t) ≤ s.length + decodedLength t := by
  induction s with
  | nil => exact (Nat.zero_add _).ge
  | cons c s ih =>
    have hc := (decodedLength_cons_le _ (s ++ t) (Nat.le_refl _)).1 c
    rw [cons_append, length_cons]
    omega

theorem decodedLength_le_append (s t : Text) : decodedLength s ≤ decodedLength (s ++ t) := by
  fun_induction decodedLength s with
  | case1 => exact Nat.zero_le _
  | case2 high low rest ih =>
    rw [cons_append, cons_append, cons_append, decodedLength_percent]
    omega
  | case3 cs hcs => exact Nat.zero_le _
  | case4 c cs hc ih =>
    rw [cons_append, decodedLength_cons hc]
    omega

theorem decodedLength_dropWhile_le {p : Byte → Bool} (hp : p (byte '%') = false) (s : Text) :
    decodedLength (s.dropWhile p) ≤ decodedLength s := by
  induction s with
  | nil => exact Nat.le_refl _
  | cons c s ih =>
    by_cases hc : p c = true
    · rw [dropWhile_cons_of_pos hc, decodedLength_cons (ne_of_class hc hp)]
      omega
    · rw [dropWhile_cons_of_neg hc]

theorem decodedLength_trim_le {p : Byte → Bool} (hp : p (byte '%') = false) (s : Text) :
    decodedLength (trim p s) ≤ decodedLength s := by
  obtain ⟨t, ht⟩ := dropWhile_suffix p (l := (s.dropWhile p).reverse)
  have hsplit : s.dropWhile p = trim p s ++ t.reverse := by
    rw [trim, ← reverse_append, ht, reverse_reverse]
  calc decodedLength (trim p s) ≤ decodedLength (s.dropWhile p) := by
        rw [hsplit]
        exact decodedLength_le_append _ _
    _ ≤ decodedLength s := decodedLength_dropWhile_le hp s

variable {s : Text}

theorem decodedLength_lt_of_mem (hs : byte '%' ∈ s) : decodedLength s < s.length := by
  fun_induction decodedLength s with
  | case1 => exact absurd hs not_mem_nil
  | case2 high low rest ih =>
    have hrest := decodedLength_le rest
    simp only [length_cons]
    omega
  | case3 cs hcs =>
    rw [length_cons]
    omega
  | case4 c cs hc ih =>
    have hmem : byte '%' ∈ cs := (mem_cons.mp hs).resolve_left fun heq => hc heq.symm
    have hlt := ih hmem
    rw [length_cons]
    omega

theorem length_unescape_le (s : Text) : (unescape s).length ≤ decodedLength s := by
  have hloop : (unescapeLoop 255 (cString s)).length ≤ decodedLength s := by
    have hsplit := takeWhile_append_dropWhile (p := (· != 0)) (l := s)
    rw [length_unescapeLoop]
    refine (decodedLength_le_append (cString s) (s.dropWhile (· != 0))).trans ?_
    rw [cString, hsplit]
  rw [unescape, length_take]
  exact (Nat.min_le_left _ _).trans hloop

theorem mem_unescape_of_plain (hs : byte '%' ∉ s) (hc : c ∈ unescape s) : c ≠ byte '+' := by
  have hloop : ∀ (s : Text) (escaped : Byte), byte '%' ∉ s → (0 : Byte) ∉ s →
      ∀ c ∈ unescapeLoop escaped s, c ≠ byte '+' ∧ c ≠ 0 := by
    intro s escaped hs hnul
    fun_induction unescapeLoop escaped s with
    | case1 => simp
    | case2 escaped cs ih =>
      refine forall_mem_cons.mpr ⟨by decide, ih ?_ ?_⟩
      · exact fun hmem => hs (mem_cons_of_mem _ hmem)
      · exact fun hmem => hnul (mem_cons_of_mem _ hmem)
    | case3 => simp
    | case4 => simp
    | case5 => simp at hs
    | case6 escaped c cs hplus hpercent ih =>
      refine forall_mem_cons.mpr ⟨⟨hplus, ?_⟩, ih ?_ ?_⟩
      · rintro rfl
        exact hnul mem_cons_self
      · exact fun hmem => hs (mem_cons_of_mem _ hmem)
      · exact fun hmem => hnul (mem_cons_of_mem _ hmem)
  have hplain := hloop (cString s) 255
    (fun hmem => hs ((List.takeWhile_prefix _).subset hmem))
    (fun hmem => by simpa using mem_takeWhile_imp hmem)
  have hself : (unescapeLoop 255 (cString s)).takeWhile (· ≠ 0) = unescapeLoop 255 (cString s) := by
    rw [takeWhile_eq_self_iff]
    exact fun d hd => by simpa using (hplain d hd).2
  rw [unescape, hself, take_left] at hc
  exact (hplain c hc).1

theorem decodedLength_escape_le (s : Text) : decodedLength (escape s) ≤ s.length := by
  rw [← length_unescapeLoop 255, escape, unescapeLoop_escapeBytes]
  exact (List.takeWhile_prefix _).length_le

variable {x : Text}

theorem split_of_notMem {a y : Text} (h : x ++ y = a ++ c :: s) (hc : c ∉ y) :
    ∃ b, x = a ++ c :: b ∧ s = b ++ y := by
  rcases append_eq_append_iff.mp h with ⟨b, -, hy⟩ | ⟨b, hx, hs⟩
  · rw [hy] at hc
    exact absurd (mem_append_right _ mem_cons_self) hc
  · cases b with
    | nil =>
      rw [nil_append] at hs
      rw [← hs] at hc
      exact absurd mem_cons_self hc
    | cons d b =>
      rw [cons_append, List.cons.injEq] at hs
      exact ⟨b, by rw [hx, hs.1], hs.2⟩

variable {nv : Text × Text} {params : List (Text × Text)} {value : Text}

namespace Url

/-! ## One piece of a list -/

section Piece

/-- The bytes of a parameter. -/
def paramLength (nv : Text × Text) : Nat := nv.1.length + nv.2.length

theorem length_readName_le (name : Text) :
    (trim isCgiBlank (unescape (name.dropWhile isBlank))).length ≤
      decodedLength name :=
  calc (trim isCgiBlank (unescape (name.dropWhile isBlank))).length
      ≤ (unescape (name.dropWhile isBlank)).length := length_trim_le _ _
    _ ≤ decodedLength (name.dropWhile isBlank) := length_unescape_le _
    _ ≤ decodedLength name := decodedLength_dropWhile_le (by decide) _

theorem length_readValue_le (rest : Text) :
    (unescape (trim isCgiBlank (rest.dropWhile (· == byte '=')))).length ≤
      decodedLength (rest.dropWhile (· == byte '=')) :=
  (length_unescape_le _).trans (decodedLength_trim_le (by decide) _)

/-- The text behind a name: its value with the sign, or nothing. -/
def valueText (value : Text) : Text := if value = [] then [] else byte '=' :: escape value

theorem equals_notMem_escape (value : Text) : byte '=' ∉ escape value := fun hc =>
  ne_of_class (isEscapeByte_escape value _ hc) (by decide) rfl

theorem decodedLength_value_le (rest : Text) :
    decodedLength ((byte '=' :: rest).dropWhile (· == byte '=')) ≤ decodedLength rest := by
  rw [dropWhile_cons_of_pos (by decide)]
  exact decodedLength_dropWhile_le (by decide) rest

theorem decodedLength_pieces_le {lead name rest : Text}
    (hpair : x ++ valueText value = lead ++ (name ++ rest)) (hlead : ∀ c ∈ lead, c = byte '=')
    (hname : byte '=' ∉ name) (hrest : ∀ c ∈ rest.head?, c = byte '=') :
    decodedLength name + decodedLength (rest.dropWhile (· == byte '=')) ≤
      x.length + value.length := by
  have hnameLength := decodedLength_le name
  have hescape := decodedLength_escape_le value
  have hequals := equals_notMem_escape value
  have hempty : decodedLength (([] : Text).dropWhile (· == byte '=')) = 0 := rfl
  unfold valueText at hpair
  cases rest with
  | nil =>
    rw [append_nil] at hpair
    by_cases hvalue : value = []
    · have hlength := congrArg length hpair
      rw [if_pos hvalue, append_nil, length_append] at hlength
      omega
    · rw [if_neg hvalue] at hpair
      obtain ⟨b, hlead', hvalue'⟩ := split_of_notMem hpair.symm hname
      have hnil : b = [] := by
        refine eq_nil_iff_forall_not_mem.mpr fun d hd => hequals ?_
        have hd' : d = byte '=' := hlead d (by rw [hlead']; simp [hd])
        rw [hvalue', ← hd']
        exact mem_append_left _ hd
      -- the value is the name
      rw [hnil, nil_append] at hvalue'
      rw [← hvalue']
      omega
  | cons c rest =>
    obtain rfl := hrest c rfl
    have hread := decodedLength_value_le rest
    have hrestLength := decodedLength_le rest
    by_cases hvalue : value = []
    · have hlength := congrArg length hpair
      rw [if_pos hvalue, append_nil, length_append, length_append,
        length_cons] at hlength
      omega
    · rw [if_neg hvalue, append_cons, ← append_assoc] at hpair
      obtain ⟨b, hx, hrest'⟩ := split_of_notMem hpair hequals
      have hlength := congrArg length hx
      simp only [length_append, length_cons, length_nil] at hlength
      have happend := decodedLength_append_le b (escape value)
      rw [hrest'] at hread ⊢
      omega

theorem paramLength_le_of_parse (h : parseCgiVariable (x ++ valueText value) = some nv) :
    paramLength nv ≤ x.length + value.length := by
  obtain ⟨lead, name, rest, hpair, hlead, hname, hrest, -, rfl⟩ := exists_of_parseCgiVariable h
  have hreadName := length_readName_le name
  have hreadValue := length_readValue_le rest
  have hpieces := decodedLength_pieces_le hpair hlead hname hrest
  exact (Nat.add_le_add hreadName hreadValue).trans hpieces

end Piece

/-! ## One parameter -/

section Parameter

/-- What one printed parameter is read as. -/
def readBack (nv : Text × Text) : List (Text × Text) :=
  parseCgiVariables (byte ';') (paramText escape nv)

/-- The bytes of a list of parameters, each with one more for itself; the bytes count twice, so
that a parameter taken apart weighs less. -/
def paramsWeight (params : List (Text × Text)) : Nat :=
  (params.map fun nv => 2 * paramLength nv + 1).sum

@[simp] theorem paramsWeight_nil : paramsWeight [] = 0 := rfl

theorem paramsWeight_cons (nv : Text × Text) (params : List (Text × Text)) :
    paramsWeight (nv :: params) = 2 * paramLength nv + 1 + paramsWeight params := by
  rw [paramsWeight, map_cons, sum_cons]
  rfl

theorem paramsWeight_append (a b : List (Text × Text)) :
    paramsWeight (a ++ b) = paramsWeight a + paramsWeight b := by
  rw [paramsWeight, map_append, sum_append]
  rfl

theorem paramsWeight_le_of_sublist {a b : List (Text × Text)} (h : a.Sublist b) :
    paramsWeight a ≤ paramsWeight b := by
  rw [paramsWeight, paramsWeight]
  exact (h.map _).sum_le_sum fun _ _ => Nat.zero_le _

theorem paramText_eq (nv : Text × Text) : paramText escape nv = nv.1 ++ valueText nv.2 := rfl

theorem notMem_valueText {b : Byte} (hb : isEscapeByte b = false) (hequals : b ≠ byte '=')
    (value : Text) : b ∉ valueText value := by
  intro hc
  unfold valueText at hc
  split at hc
  · exact absurd hc not_mem_nil
  · rcases mem_cons.mp hc with hc | hc
    · exact hequals hc
    · exact ne_of_class (isEscapeByte_escape value _ hc) hb rfl

theorem semicolon_notMem_valueText (value : Text) : byte ';' ∉ valueText value :=
  notMem_valueText (by decide) (by decide) value

theorem parseCgiVariables_piece (hs : byte ';' ∉ s) :
    parseCgiVariables (byte ';') s = if s = [] then [] else (parseCgiVariable s).toList := by
  unfold parseCgiVariables
  by_cases hne : s = []
  · rw [if_pos hne, hne]
    rfl
  · have hplain : ∀ c ∈ s, (c == byte ';') = false := fun c hc =>
      beq_eq_false_iff_ne.mpr fun heq => hs (heq ▸ hc)
    rw [if_neg hne, segments_eq_singleton hne hplain]
    cases hparse : parseCgiVariable s with
    | none => rw [filterMap_cons_none hparse]; rfl
    | some nv => rw [filterMap_cons_some hparse]; rfl

theorem parseCgiVariables_mark (mark : Byte) (s rest : Text) :
    parseCgiVariables mark (s ++ mark :: rest) =
      parseCgiVariables mark s ++ parseCgiVariables mark rest := by
  rw [parseCgiVariables, segments_mark, filterMap_append]
  rfl

theorem paramsWeight_piece_le (hx : byte ';' ∉ x) :
    paramsWeight (parseCgiVariables (byte ';') (x ++ valueText value)) ≤
      2 * (x.length + value.length) + 1 := by
  have hnone : byte ';' ∉ x ++ valueText value := by
    simpa [hx] using semicolon_notMem_valueText value
  rw [parseCgiVariables_piece hnone]
  split
  · exact Nat.zero_le _
  · cases hparse : parseCgiVariable (x ++ valueText value) with
    | none => exact Nat.zero_le _
    | some nv =>
      have hlength := paramLength_le_of_parse hparse
      show paramsWeight [nv] ≤ _
      rw [paramsWeight_cons, paramsWeight_nil]
      omega

/-- **A text in front of a value is read as no more than it is**, and as less where a semicolon
takes it apart. -/
theorem paramsWeight_parse_le (n : Nat) : ∀ {x : Text}, x.length ≤ n → ∀ value : Text,
    paramsWeight (parseCgiVariables (byte ';') (x ++ valueText value)) +
        (if byte ';' ∈ x then 1 else 0) ≤ 2 * (x.length + value.length) + 1 := by
  induction n with
  | zero =>
    intro x hx value
    obtain rfl : x = [] := length_eq_zero_iff.mp (Nat.le_zero.mp hx)
    exact paramsWeight_piece_le not_mem_nil
  | succ n ih =>
    intro x hx value
    by_cases hmem : byte ';' ∈ x
    · obtain ⟨a, b, rfl, ha⟩ := eq_append_cons_of_mem hmem
      have hfirst : paramsWeight (parseCgiVariables (byte ';') (a ++ valueText [])) ≤
          2 * (a.length + ([] : Text).length) + 1 := paramsWeight_piece_le ha
      have hrest := ih (x := b) (by simp at hx; omega) value
      have hvalue : valueText [] = [] := rfl
      rw [hvalue, append_nil] at hfirst
      rw [if_pos hmem, append_assoc, cons_append, parseCgiVariables_mark,
        paramsWeight_append]
      simp only [length_append, length_cons, length_nil] at hx hfirst ⊢
      omega
    · rw [if_neg hmem]
      exact paramsWeight_piece_le hmem

theorem paramsWeight_readBack_le (nv : Text × Text) :
    paramsWeight (readBack nv) + (if byte ';' ∈ nv.1 then 1 else 0) ≤ 2 * paramLength nv + 1 :=
  paramsWeight_parse_le nv.1.length (Nat.le_refl _) nv.2

theorem exists_of_paramsWeight_readBack
    (h : paramsWeight (readBack nv) = 2 * paramLength nv + 1) :
    byte ';' ∉ nv.1 ∧ ∃ nv', readBack nv = [nv'] := by
  have hle := paramsWeight_readBack_le nv
  have hmem : byte ';' ∉ nv.1 := by
    intro hmem
    rw [if_pos hmem] at hle
    omega
  have hnone : byte ';' ∉ paramText escape nv := by
    rw [paramText_eq]
    simpa [hmem] using semicolon_notMem_valueText nv.2
  refine ⟨hmem, ?_⟩
  rw [readBack, parseCgiVariables_piece hnone] at h ⊢
  split at h
  · exact absurd h (by rw [paramsWeight_nil]; omega)
  · next hne =>
      rw [if_neg hne]
      cases hparse : parseCgiVariable (paramText escape nv) with
      | none =>
        rw [hparse, Option.toList_none, paramsWeight_nil] at h
        omega
      | some nv' => exact ⟨nv', rfl⟩

/-- A name that is read back alone is what unescaping leaves as it is. -/
theorem name_of_parse (h : parseCgiVariable (paramText escape nv) = some nv) :
    byte '=' ∉ nv.1 ∧ nv.1 ≠ [] ∧
      nv.1 = trim isCgiBlank (unescape (nv.1.dropWhile isBlank)) := by
  obtain ⟨lead, name, rest, hpair, hlead, hname, hrest, hne, heq⟩ := exists_of_parseCgiVariable h
  have hfirst := congrArg Prod.fst heq
  have hsecond := congrArg Prod.snd heq
  dsimp only at hfirst hsecond
  have hlength : nv.1.length ≤ name.length := by
    have hread := length_readName_le name
    have hdecoded := decodedLength_le name
    rw [← hfirst] at hread
    exact hread.trans hdecoded
  have hself : nv.1 = name := by
    rw [paramText_eq, valueText] at hpair
    by_cases hvalue : nv.2 = []
    · have htotal := congrArg length hpair
      rw [if_pos hvalue, append_nil] at hpair htotal
      rw [length_append, length_append] at htotal
      obtain rfl : lead = [] := length_eq_zero_iff.mp (by omega)
      obtain rfl : rest = [] := length_eq_zero_iff.mp (by omega)
      simpa using hpair
    · cases rest with
      | nil => exact absurd hsecond hvalue
      | cons c rest =>
        obtain rfl := hrest c rfl
        rw [if_neg hvalue, append_cons, ← append_assoc] at hpair
        obtain ⟨b, hx, -⟩ := split_of_notMem hpair (equals_notMem_escape nv.2)
        have htotal := congrArg length hx
        simp only [length_append, length_cons, length_nil] at htotal
        obtain rfl : lead = [] := length_eq_zero_iff.mp (by omega)
        obtain rfl : b = [] := length_eq_zero_iff.mp (by omega)
        exact append_cancel_right hx
  rw [hself]
  exact ⟨hname, hne, hself.symm.trans hfirst⟩

/-- **A parameter that comes back as it was** has a name without marks. -/
theorem isKeptName_of_readBack (hmem : byte ';' ∉ nv.1)
    (h : readBack nv = [nv]) : IsKeptName ";=%+" nv.1 := by
  have hparse : parseCgiVariable (paramText escape nv) = some nv := by
    have hnone : byte ';' ∉ paramText escape nv := by
      rw [paramText_eq]
      simpa [hmem] using semicolon_notMem_valueText nv.2
    rw [readBack, parseCgiVariables_piece hnone] at h
    split at h
    · exact absurd h (by simp)
    · exact Option.toList_eq_singleton_iff.mp h
  obtain ⟨hequals, hne, hself⟩ := name_of_parse hparse
  have hpercent : byte '%' ∉ nv.1 := by
    intro hc
    have hlt := decodedLength_lt_of_mem hc
    have hread := length_readName_le nv.1
    rw [← hself] at hread
    omega
  have hplus : byte '+' ∉ nv.1 := by
    intro hc
    rw [hself] at hc
    refine mem_unescape_of_plain (fun hd => hpercent ?_) (trim_subset _ _ hc) rfl
    exact (dropWhile_sublist _).subset hd
  refine ⟨hne, fun c hc => ?_⟩
  have hmarks : text ";=%+" = [byte ';', byte '=', byte '%', byte '+'] := rfl
  rw [oneOf, hmarks]
  simp only [contains_cons, contains_nil, Bool.or_false, Bool.or_eq_false_iff,
    beq_eq_false_iff_ne]
  refine ⟨?_, ?_, ?_, ?_⟩ <;> rintro rfl
  · exact hmem hc
  · exact hequals hc
  · exact hpercent hc
  · exact hplus hc

end Parameter

/-! ## Lists -/

section Lists

/-- **A printed list is read parameter by parameter.** -/
theorem parseCgiVariables_urlParamsText (params : List (Text × Text)) :
    parseCgiVariables (byte ';') (urlParamsText params) = params.flatMap readBack := by
  have hbehind : ∀ (params : List (Text × Text)) (s : Text),
      parseCgiVariables (byte ';') (s ++ urlParamsText params) =
        parseCgiVariables (byte ';') s ++ params.flatMap readBack := by
    intro params
    induction params with
    | nil => intro s; rw [urlParamsText, flatMap_nil, flatMap_nil]; simp
    | cons nv params ih =>
      intro s
      rw [urlParamsText, flatMap_cons, cons_append, parseCgiVariables_mark,
        flatMap_cons]
      exact congrArg _ (ih _)
  exact hbehind params []

variable {name : Text}

/-- Whether a parameter has another name. -/
def isOther (name : Text) (nv : Text × Text) : Bool := !caseEq nv.1 name

/-- The weight of the parameters of other names. -/
def otherWeight (name : Text) (params : List (Text × Text)) : Nat :=
  paramsWeight (params.filter (isOther name))

theorem otherWeight_append (name : Text) (a b : List (Text × Text)) :
    otherWeight name (a ++ b) = otherWeight name a + otherWeight name b := by
  rw [otherWeight, filter_append, paramsWeight_append]
  rfl

theorem otherWeight_cons (name : Text) (nv : Text × Text) (params : List (Text × Text)) :
    otherWeight name (nv :: params) = otherWeight name [nv] + otherWeight name params :=
  otherWeight_append name [nv] params

theorem otherWeight_le (name : Text) (params : List (Text × Text)) :
    otherWeight name params ≤ paramsWeight params :=
  paramsWeight_le_of_sublist filter_sublist

theorem otherWeight_singleton (h : isOther name nv = true) :
    otherWeight name [nv] = 2 * paramLength nv + 1 := by
  rw [otherWeight, filter_cons_of_pos h]
  rfl

/-- The names that `setUrlParameter` is asked for: letters, digits, `-`, `_` and `.`. -/
def IsParamName (name : Text) : Prop := name ≠ [] ∧ ∀ c ∈ name, isUnreserved c = true

instance (name : Text) : Decidable (IsParamName name) := inferInstanceAs (Decidable (_ ∧ _))

theorem IsParamName.of_caseEq {name name' : Text} (h : IsParamName name)
    (hcase : caseEq name' name = true) : IsParamName name' := by
  have hlower : ∀ c, isUnreserved (toLower c) = isUnreserved c := by decide +kernel
  have heq := (caseEq_iff _ _).mp hcase
  refine ⟨fun hnil => h.1 ?_, fun c hc => ?_⟩
  · rw [hnil, map_nil] at heq
    exact map_eq_nil_iff.mp heq.symm
  · have hmem : toLower c ∈ name.map toLower := heq ▸ mem_map_of_mem hc
    obtain ⟨d, hd, hlow⟩ := mem_map.mp hmem
    rw [← hlower, ← hlow, hlower]
    exact h.2 d hd

theorem IsParamName.isKeptName {marks : String} (h : IsParamName name)
    (hmarks : ∀ c ∈ text marks, isUnreserved c = false) : IsKeptName marks name :=
  ⟨h.1, fun c hc => oneOf_of_class (h.2 c hc) hmarks⟩

theorem IsParamName.isReadParam (h : IsParamName name)
    (hvalue : (0 : Byte) ∉ value) : IsReadParam (name, value) := by
  have hbyte : ∀ c ∈ name, isCgiBlank c = false := fun c hc => oneOf_of_class (h.2 c hc) (by decide)
  refine ⟨fun c hc => hbyte c (mem_of_mem_head? hc),
    fun c hc => hbyte c (mem_of_getLast? hc), fun hc => ?_, hvalue⟩
  exact ne_of_class (h.2 _ hc) (by decide) rfl

theorem readBack_of_isKeptName (hread : IsReadParam nv)
    (hkept : IsKeptName ";=%+" nv.1) : readBack nv = [nv] := by
  have hone : byte ';' :: paramText escape nv =
      [nv].flatMap fun nv => byte ';' :: paramText escape nv := by
    rw [flatMap_cons, flatMap_nil, append_nil]
  exact parseCgiVariables_marked (by simpa using hread) (by simpa using hkept) (by decide)
    (by decide) (by decide) hone

/-- **No parameter of another name grows.** -/
theorem otherWeight_readBack_le (hname : IsParamName name)
    (hvalue : (0 : Byte) ∉ nv.2) : otherWeight name (readBack nv) ≤ otherWeight name [nv] := by
  by_cases hother : isOther name nv = true
  · have hle := paramsWeight_readBack_le nv
    rw [otherWeight_singleton hother]
    exact (otherWeight_le _ _).trans (by omega)
  · have hcase : caseEq nv.1 name = true := by simpa [isOther] using hother
    have hown := hname.of_caseEq hcase
    rw [readBack_of_isKeptName (hown.isReadParam hvalue) (hown.isKeptName (by decide))]

theorem otherWeight_flatMap_readBack_le (hname : IsParamName name)
    (hvalues : ∀ nv ∈ params, (0 : Byte) ∉ nv.2) :
    otherWeight name (params.flatMap readBack) ≤ otherWeight name params := by
  induction params with
  | nil => exact Nat.le_refl _
  | cons nv params ih =>
    obtain ⟨hvalue, hrest⟩ := forall_mem_cons.mp hvalues
    have hfirst := otherWeight_readBack_le hname hvalue
    have hmore := ih hrest
    rw [flatMap_cons, otherWeight_append, otherWeight_cons]
    omega

/-- **A list comes back with its parameters of other names** only if each of them does. -/
theorem readBack_of_filter_eq (hname : IsParamName name)
    (hvalues : ∀ nv ∈ params, (0 : Byte) ∉ nv.2)
    (h : (params.flatMap readBack).filter (isOther name) = params.filter (isOther name)) :
    ∀ nv ∈ params, isOther name nv = true → byte ';' ∉ nv.1 ∧ readBack nv = [nv] := by
  induction params with
  | nil => simp
  | cons nv params ih =>
    obtain ⟨hvalue, hrest⟩ := forall_mem_cons.mp hvalues
    have hmore := otherWeight_flatMap_readBack_le hname hrest
    rw [flatMap_cons, filter_append] at h
    by_cases hother : isOther name nv = true
    · have htotal := congrArg paramsWeight h
      rw [filter_cons_of_pos hother] at h
      rw [paramsWeight_append, filter_cons_of_pos hother, paramsWeight_cons] at htotal
      change otherWeight name (readBack nv) + otherWeight name (params.flatMap readBack) =
        2 * paramLength nv + 1 + otherWeight name params at htotal
      have hown := otherWeight_le name (readBack nv)
      have hle := paramsWeight_readBack_le nv
      -- nothing of its weight is lost, so that it is read as one parameter
      have hwhole : paramsWeight (readBack nv) = 2 * paramLength nv + 1 := by omega
      obtain ⟨hmem, nv', hread⟩ := exists_of_paramsWeight_readBack hwhole
      have hother' : isOther name nv' = true := by
        by_contra hnot
        have hzero : otherWeight name (readBack nv) = 0 := by
          rw [hread, otherWeight, filter_cons_of_neg hnot]
          rfl
        omega
      rw [hread, filter_cons_of_pos hother', filter_nil, singleton_append,
        List.cons.injEq] at h
      refine forall_mem_cons.mpr ⟨fun _ => ⟨hmem, by rw [hread, h.1]⟩, ih hrest h.2⟩
    · have hcase : caseEq nv.1 name = true := by simpa [isOther] using hother
      have hown := hname.of_caseEq hcase
      rw [readBack_of_isKeptName (hown.isReadParam hvalue) (hown.isKeptName (by decide)),
        filter_cons_of_neg hother, filter_cons_of_neg hother, filter_nil,
        nil_append] at h
      exact forall_mem_cons.mpr ⟨fun hyes => absurd hyes hother, ih hrest h⟩

theorem isOther_of_mem (hname : IsParamName name) (hc : c ∈ nv.1)
    (hmark : isUnreserved c = false) : isOther name nv = true := by
  by_contra hother
  have hcase : caseEq nv.1 name = true := by simpa [isOther] using hother
  rw [(hname.of_caseEq hcase).2 c hc] at hmark
  exact absurd hmark (by simp)

theorem urlParamsText_cons (nv : Text × Text) (params : List (Text × Text)) :
    urlParamsText (nv :: params) =
      byte ';' :: (nv.1 ++ (valueText nv.2 ++ urlParamsText params)) := by
  rw [urlParamsText, flatMap_cons, paramText_eq, cons_append, append_assoc]
  rfl

theorem isUrlParamsByte_valueText (value : Text) :
    ∀ c ∈ valueText value, isUrlParamsByte c = true := by
  intro c hc
  unfold valueText at hc
  split at hc
  · exact absurd hc not_mem_nil
  · rcases mem_cons.mp hc with rfl | hc
    · decide
    · rw [isUrlParamsByte, oneOf_of_class (isEscapeByte_escape value c hc) (by decide),
        Bool.not_false]

theorem takeWhile_urlParamsText (hname : IsParamName name)
    (hvalues : ∀ nv ∈ params, (0 : Byte) ∉ nv.2) :
    (∀ nv ∈ params, ∀ c ∈ nv.1, isUrlParamsByte c = true) ∧
        (urlParamsText params).takeWhile isUrlParamsByte = urlParamsText params ∨
      ∃ params', (urlParamsText params).takeWhile isUrlParamsByte = urlParamsText params' ∧
        (∀ nv ∈ params', (0 : Byte) ∉ nv.2) ∧
        otherWeight name params' < otherWeight name params := by
  induction params with
  | nil => exact Or.inl ⟨by simp, rfl⟩
  | cons nv params ih =>
    obtain ⟨hvalue, hrest⟩ := forall_mem_cons.mp hvalues
    have hopen : isUrlParamsByte (byte ';') = true := by decide
    rw [urlParamsText_cons, takeWhile_cons_of_pos hopen]
    by_cases hall : ∀ c ∈ nv.1, isUrlParamsByte c = true
    · rw [takeWhile_append_of_pos hall,
        takeWhile_append_of_pos (isUrlParamsByte_valueText nv.2)]
      rcases ih hrest with ⟨hnames, hwhole⟩ | ⟨params', hpart, hvalues', hless⟩
      · exact Or.inl ⟨forall_mem_cons.mpr ⟨hall, hnames⟩, by rw [hwhole]⟩
      · refine Or.inr ⟨nv :: params', by rw [hpart, urlParamsText_cons],
          forall_mem_cons.mpr ⟨hvalue, hvalues'⟩, ?_⟩
        rw [otherWeight_cons, otherWeight_cons name nv params]
        omega
    · obtain ⟨a, rest, hsplit, ha, hrest'⟩ := exists_span isUrlParamsByte nv.1
      have hne : rest ≠ [] := by
        rintro rfl
        rw [append_nil] at hsplit
        exact hall (hsplit ▸ ha)
      obtain ⟨c, b, rfl⟩ := exists_cons_of_ne_nil hne
      have hc : isUrlParamsByte c = false := hrest' c rfl
      have hother : isOther name nv = true := by
        refine isOther_of_mem hname (c := c) (by rw [hsplit]; simp) ?_
        have hends : ∀ c, isUnreserved c = true → isUrlParamsByte c = true := by decide +kernel
        by_contra hun
        rw [hends c (by simpa using hun)] at hc
        exact absurd hc (by simp)
      have hlength := congrArg length hsplit
      refine Or.inr ⟨[(a, [])], ?_, by simp, ?_⟩
      · rw [hsplit, append_assoc, takeWhile_append_of_pos ha, cons_append,
          takeWhile_cons_of_neg (by rw [hc]; simp), urlParamsText_cons]
        rfl
      · have hle := otherWeight_le name [(a, [])]
        rw [paramsWeight_cons, paramsWeight_nil] at hle
        rw [otherWeight_cons name nv, otherWeight_singleton hother]
        simp only [paramLength, length_append, length_cons, length_nil]
          at hle hlength ⊢
        omega

/-- What stands behind a semicolon of printed parameters is again printed parameters, with
less
weight where an at sign is passed. -/
theorem exists_behind (hname : IsParamName name) :
    ∀ {a s : Text}, (∀ nv ∈ params, (0 : Byte) ∉ nv.2) →
      urlParamsText params = a ++ byte ';' :: s →
        ∃ params', urlParamsText params' = byte ';' :: s ∧ (∀ nv ∈ params', (0 : Byte) ∉ nv.2) ∧
          otherWeight name params' + (if byte '@' ∈ a then 1 else 0) ≤ otherWeight name params := by
  induction params with
  | nil =>
    intro a s _ h
    exact absurd h (by simp [urlParamsText])
  | cons nv params ih =>
    intro a s hvalues h
    obtain ⟨hvalue, hrest⟩ := forall_mem_cons.mp hvalues
    cases a with
    | nil => exact ⟨nv :: params, h, hvalues, Nat.le_refl _⟩
    | cons d a =>
      rw [urlParamsText_cons, cons_append, ← append_assoc] at h
      have htail := tail_eq_of_cons_eq h
      have hat : byte '@' ∈ d :: a ↔ byte '@' ∈ a := by
        rw [mem_cons, ← head_eq_of_cons_eq h]
        exact or_iff_right (by decide)
      have hvalueText : byte '@' ∉ valueText nv.2 :=
        notMem_valueText (by decide) (by decide) nv.2
      have hsemicolon := semicolon_notMem_valueText nv.2
      rw [if_congr hat rfl rfl]
      -- the parameter is left out as a whole
      have hwhole : ∀ w, a = nv.1 ++ valueText nv.2 ++ w →
          urlParamsText params = w ++ byte ';' :: s →
            ∃ params', urlParamsText params' = byte ';' :: s ∧
              (∀ nv ∈ params', (0 : Byte) ∉ nv.2) ∧
              otherWeight name params' + (if byte '@' ∈ a then 1 else 0) ≤
                otherWeight name (nv :: params) := by
        intro w ha hw
        obtain ⟨params', htext, hvalues', hle⟩ := ih hrest hw
        refine ⟨params', htext, hvalues', ?_⟩
        rw [otherWeight_cons name nv]
        by_cases hmem : byte '@' ∈ nv.1
        · have hother := isOther_of_mem hname hmem (by decide)
          rw [otherWeight_singleton hother]
          split <;> omega
        · have hiff : byte '@' ∈ a ↔ byte '@' ∈ w := by
            rw [ha, mem_append, mem_append]
            tauto
          rw [if_congr hiff rfl rfl]
          omega
      rcases append_eq_append_iff.mp htail with ⟨w, ha, hw⟩ | ⟨w, hsplit, hw⟩
      · exact hwhole w ha hw
      · cases w with
        | nil =>
          rw [append_nil] at hsplit
          exact hwhole [] (by rw [hsplit, append_nil]) hw.symm
        | cons c w =>
          -- the name is taken apart
          obtain rfl := head_eq_of_cons_eq hw
          have hs := tail_eq_of_cons_eq hw
          obtain ⟨b, hn, hw'⟩ := split_of_notMem hsplit hsemicolon
          have hother : isOther name nv = true :=
            isOther_of_mem hname (c := byte ';') (by rw [hn]; simp) (by decide)
          have hlength := congrArg length hn
          refine ⟨(b, nv.2) :: params, ?_, forall_mem_cons.mpr ⟨hvalue, hrest⟩, ?_⟩
          · rw [urlParamsText_cons, ← append_assoc, ← hw']
            exact congrArg _ hs.symm
          · have hle := otherWeight_le name [(b, nv.2)]
            rw [paramsWeight_cons, paramsWeight_nil] at hle
            rw [otherWeight_cons name (b, nv.2), otherWeight_cons name nv,
              otherWeight_singleton hother]
            simp only [paramLength, length_append, length_cons] at hle hlength ⊢
            split <;> omega

theorem parseCgiVariables_takeWhile
    (h : urlParamsText params = byte ';' :: s) :
    parseCgiVariables (byte ';') (s.takeWhile isUrlParamsByte) =
      parseCgiVariables (byte ';') ((urlParamsText params).takeWhile isUrlParamsByte) := by
  have hopen : isUrlParamsByte (byte ';') = true := by decide
  rw [h, takeWhile_cons_of_pos hopen]
  exact (parseCgiVariables_mark (byte ';') [] _).symm

theorem otherWeight_reread_le (hname : IsParamName name)
    (hvalues : ∀ nv ∈ params, (0 : Byte) ∉ nv.2)
    (h : urlParamsText params = byte ';' :: s) :
    otherWeight name (parseCgiVariables (byte ';') (s.takeWhile isUrlParamsByte)) ≤
      otherWeight name params := by
  rw [parseCgiVariables_takeWhile h]
  rcases takeWhile_urlParamsText hname hvalues with ⟨-, hwhole⟩ | ⟨params', hpart, hvalues', hless⟩
  · rw [hwhole, parseCgiVariables_urlParamsText]
    exact otherWeight_flatMap_readBack_le hname hvalues
  · rw [hpart, parseCgiVariables_urlParamsText]
    exact (otherWeight_flatMap_readBack_le hname hvalues').trans hless.le

/-- **A printed list is read as it was** only if the names need no escape. -/
theorem isKeptName_of_reread (hname : IsParamName name)
    (hvalues : ∀ nv ∈ params, (0 : Byte) ∉ nv.2)
    (h : urlParamsText params = byte ';' :: s)
    (hsame : (parseCgiVariables (byte ';') (s.takeWhile isUrlParamsByte)).filter (isOther name) =
      params.filter (isOther name)) :
    ∀ nv ∈ params, IsKeptName ";=%+?>," nv.1 := by
  rw [parseCgiVariables_takeWhile h] at hsame
  rcases takeWhile_urlParamsText hname hvalues with ⟨hnames, hwhole⟩ | ⟨params', hpart, hvalues',
    hless⟩
  · rw [hwhole, parseCgiVariables_urlParamsText] at hsame
    intro nv hnv
    by_cases hother : isOther name nv = true
    · obtain ⟨hmem, hread⟩ := readBack_of_filter_eq hname hvalues hsame nv hnv hother
      obtain ⟨hne, hmarks⟩ := isKeptName_of_readBack hmem hread
      refine ⟨hne, fun c hc => ?_⟩
      have hsplit : ∀ c, oneOf ";=%+" c = false → isUrlParamsByte c = true →
          oneOf ";=%+?>," c = false := by decide +kernel
      exact hsplit c (hmarks c hc) (hnames nv hnv c hc)
    · have hcase : caseEq nv.1 name = true := by simpa [isOther] using hother
      exact (hname.of_caseEq hcase).isKeptName (by decide)
  · -- a list that was cut has too little weight
    rw [hpart, parseCgiVariables_urlParamsText] at hsame
    have hle := otherWeight_flatMap_readBack_le hname hvalues'
    have htotal := congrArg paramsWeight hsame
    change otherWeight name (params'.flatMap readBack) = otherWeight name params at htotal
    omega

end Lists

end Url

end SipXRouter
