import SipXRouter.Net.Url

/-!
# Parameter lists are read again

URL and header parameters are printed with their values escaped and their names as they are.
A list of them is read again if no name has a byte that means something in a list.
-/

namespace SipXRouter

open List NameValueTokenizer

/-! ## Values -/

theorem unescapeLoop_escapeByte (c : Byte) (e : Byte) (rest : Text) :
    ∃ e', unescapeLoop e (escapeByte c ++ rest) = c :: unescapeLoop e' rest := by
  have hplain : ∀ c, isUnreserved c = true → c ≠ byte '+' ∧ c ≠ byte '%' :=
    fun c hc => ⟨ne_of_class hc (by decide), ne_of_class hc (by decide)⟩
  have hpair : ∀ c, isHex (hexPair.hexDigit (c / 16)) = true ∧
      isHex (hexPair.hexDigit (c % 16)) = true ∧
      hexByte (hexPair.hexDigit (c / 16)) * 16 + hexByte (hexPair.hexDigit (c % 16)) = c := by
    decide +kernel
  unfold escapeByte
  by_cases hunreserved : isUnreserved c = true
  · obtain ⟨hplus, hpercent⟩ := hplain c hunreserved
    refine ⟨e, ?_⟩
    rw [if_pos hunreserved, singleton_append, unescapeLoop.eq_def]
    simp only [hplus, hpercent, if_false]
  · by_cases hblank : c = byte ' '
    · refine ⟨e, ?_⟩
      rw [if_neg hunreserved, if_pos hblank, hblank, singleton_append, unescapeLoop.eq_def]
      rfl
    · obtain ⟨hhigh, hlow, hvalue⟩ := hpair c
      refine ⟨c, ?_⟩
      rw [if_neg hunreserved, if_neg hblank, hexPair, cons_append, cons_append,
        singleton_append, unescapeLoop.eq_def]
      dsimp only
      rw [if_neg (by decide), if_pos rfl, if_pos hhigh, if_pos hlow, hvalue]

theorem unescapeLoop_escapeBytes (e : Byte) (s : Text) :
    unescapeLoop e (s.flatMap escapeByte) = s := by
  induction s generalizing e with
  | nil => rfl
  | cons c s ih =>
    obtain ⟨e', hc⟩ := unescapeLoop_escapeByte c e (s.flatMap escapeByte)
    rw [flatMap_cons, hc, ih]

theorem unescape_escape_eq (s : Text) : unescape (escape s) = cString s := by
  have hself : cString (escape s) = escape s :=
    cString_of_class (isEscapeByte_escape s) (by decide)
  have htake : (cString s).takeWhile (· ≠ 0) = cString s := by
    rw [takeWhile_eq_self_iff]
    intro c hc
    simpa [cString] using mem_takeWhile_imp hc
  rw [unescape, hself, escape, unescapeLoop_escapeBytes, htake, take_left]

/-- **A value is the same behind its escapes.** -/
theorem unescape_escape {s : Text} (hs : (0 : Byte) ∉ s) : unescape (escape s) = s := by
  rw [unescape_escape_eq, cString_of_notMem hs]

theorem zero_notMem_unescape {s : Text} (hs : (0 : Byte) ∉ s) : (0 : Byte) ∉ unescape s := by
  intro hmem
  rcases mem_append.mp (mem_of_mem_take hmem) with hmem | hmem
  · simpa using mem_takeWhile_imp hmem
  · exact hs (mem_of_mem_drop hmem)

variable {mark : Byte} {marks : String} {nv : Text × Text}

namespace Url

/-! ## Reading -/

/-- What holds of every URL or header parameter that was read. -/
structure IsReadParam (nv : Text × Text) : Prop where
  front : ∀ c ∈ nv.1.head?, isCgiBlank c = false
  back : ∀ c ∈ nv.1.getLast?, isCgiBlank c = false
  name : (0 : Byte) ∉ nv.1
  value : (0 : Byte) ∉ nv.2

/-- Where the first name of a piece stands. -/
theorem exists_of_getSubFieldLoop {sep : Byte → Bool} : ∀ {field cur sub rest : Text},
    getSubFieldLoop sep 0 cur field = some (sub, rest) →
      ∃ lead w, field = lead ++ (w ++ rest) ∧ sub = cur ++ w ∧ (cur ≠ [] → lead = []) ∧
        (∀ c ∈ lead, sep c = true) ∧ (∀ c ∈ w, sep c = false) ∧
        ∀ c ∈ rest.head?, sep c = true := by
  intro field
  induction field with
  | nil =>
    intro cur sub rest h
    rw [getSubFieldLoop, if_pos rfl, Option.some_inj, Prod.mk.injEq] at h
    obtain ⟨rfl, rfl⟩ := h
    exact ⟨[], [], rfl, by simp, fun _ => rfl, by simp, by simp, by simp⟩
  | cons c field ih =>
    intro cur sub rest h
    rw [getSubFieldLoop] at h
    by_cases hc : sep c = true
    · rw [if_pos hc] at h
      by_cases hcur : cur = []
      · rw [if_pos hcur] at h
        obtain ⟨lead, w, rfl, hsub, -, hlead, hw, hrest⟩ := ih h
        refine ⟨c :: lead, w, rfl, by rw [hcur, hsub], fun hne => absurd hcur hne, ?_, hw, hrest⟩
        exact forall_mem_cons.mpr ⟨hc, hlead⟩
      · rw [if_neg hcur, Option.some_inj, Prod.mk.injEq] at h
        obtain ⟨rfl, rfl⟩ := h
        refine ⟨[], [], rfl, by simp, fun _ => rfl, by simp, by simp, fun d hd => ?_⟩
        rw [head?_cons, Option.mem_some_iff] at hd
        exact hd ▸ hc
    · rw [if_neg hc] at h
      obtain ⟨lead, w, hfield, hsub, hlead, -, hw, hrest⟩ := ih h
      obtain rfl := hlead (by simp)
      refine ⟨[], c :: w, by rw [hfield]; rfl, by rw [hsub]; simp, fun _ => rfl, by simp, ?_,
        hrest⟩
      exact forall_mem_cons.mpr ⟨by simpa using hc, hw⟩

/-- What one piece is read as. -/
theorem exists_of_parseCgiVariable {pair : Text} (h : parseCgiVariable pair = some nv) :
    ∃ lead name rest, pair = lead ++ (name ++ rest) ∧ (∀ c ∈ lead, c = byte '=') ∧
      (byte '=' ∉ name) ∧ (∀ c ∈ rest.head?, c = byte '=') ∧ name ≠ [] ∧
      nv = (trim isCgiBlank (unescape (name.dropWhile isBlank)),
        unescape (trim isCgiBlank (rest.dropWhile (· == byte '=')))) := by
  unfold parseCgiVariable at h
  cases hsub : getSubFieldPtr pair 0 (· == byte '=') with
  | none =>
    rw [hsub] at h
    simp at h
  | some found =>
    obtain ⟨name, rest⟩ := found
    obtain ⟨lead, w, hpair, hname, -, hlead, hw, hrest⟩ := exists_of_getSubFieldLoop hsub
    rw [nil_append] at hname
    rw [hsub] at h
    dsimp only at h
    by_cases hblank : name.dropWhile isBlank = []
    · rw [if_pos hblank] at h
      exact absurd h (by simp)
    · rw [if_neg hblank, Option.some_inj] at h
      refine ⟨lead, name, rest, by rw [hpair, hname], fun c hc => eq_of_beq (hlead c hc), ?_,
        fun c hc => eq_of_beq (hrest c hc), ?_, h.symm⟩
      · intro hc
        rw [hname] at hc
        exact absurd (hw _ hc) (by simp)
      · intro hnil
        rw [hnil] at hblank
        exact hblank rfl

theorem isReadParam_of_parse {pair : Text} (hpair : (0 : Byte) ∉ pair)
    (h : parseCgiVariable pair = some nv) : IsReadParam nv := by
  obtain ⟨lead, name, rest, rfl, -, -, -, -, rfl⟩ := exists_of_parseCgiVariable h
  simp only [mem_append, not_or] at hpair
  have hname : (0 : Byte) ∉ name.dropWhile isBlank :=
    fun hc => hpair.2.1 ((dropWhile_sublist _).subset hc)
  have hvalue : (0 : Byte) ∉ trim isCgiBlank (rest.dropWhile (· == byte '=')) :=
    fun hc => hpair.2.2 ((dropWhile_sublist _).subset (trim_subset _ _ hc))
  exact {
    front := head?_trim _ _
    back := getLast?_trim _ _
    name := fun hc => zero_notMem_unescape hname (trim_subset _ _ hc)
    value := zero_notMem_unescape hvalue }

theorem isReadParam_of_mem {query : Text} (hquery : (0 : Byte) ∉ query)
    (h : nv ∈ parseCgiVariables mark query) : IsReadParam nv := by
  obtain ⟨pair, hpair, hnv⟩ := mem_filterMap.mp h
  exact isReadParam_of_parse (fun hc => hquery (segments_subset hpair 0 hc)) hnv

/-! ## Printing -/

/-- A name without any of the bytes that mean something to the parser. -/
def IsKeptName (marks : String) (name : Text) : Prop :=
  name ≠ [] ∧ ∀ c ∈ name, oneOf marks c = false

instance (marks : String) (name : Text) : Decidable (IsKeptName marks name) :=
  inferInstanceAs (Decidable (_ ∧ _))

theorem IsKeptName.ne {name : Text} (h : IsKeptName marks name) {b : Byte}
    (hb : oneOf marks b = true) : ∀ c ∈ name, c ≠ b := by
  rintro c hc rfl
  rw [h.2 c hc] at hb
  exact Bool.false_ne_true hb

theorem parseCgiVariable_paramText (hread : IsReadParam nv)
    (hkept : IsKeptName marks nv.1) (hmarks : ∀ c ∈ text "=%+", oneOf marks c = true) :
    parseCgiVariable (paramText escape nv) = some nv := by
  have hequals : ∀ c ∈ nv.1, (c == byte '=') = false := fun c hc =>
    beq_eq_false_iff_ne.mpr (hkept.ne (hmarks _ (by decide)) c hc)
  have hname : unescape nv.1 = nv.1 := by
    refine unescape_eq_self fun c hc => ⟨hkept.ne (hmarks _ (by decide)) c hc,
      hkept.ne (hmarks _ (by decide)) c hc, ?_⟩
    rintro rfl
    exact hread.name hc
  have hblank : nv.1.dropWhile isBlank = nv.1 := by
    obtain ⟨c, cs, hcs⟩ := exists_cons_of_ne_nil hkept.1
    have hc : isCgiBlank c = false := hread.front c (by rw [hcs]; rfl)
    have hblanks : ∀ b ∈ text " \t", isCgiBlank b = true := by decide
    have hmem : ¬ isBlank c = true := by
      intro hb
      rw [hblanks c (by simpa [isBlank, oneOf] using hb)] at hc
      exact Bool.false_ne_true hc.symm
    rw [hcs, dropWhile_cons_of_neg hmem]
  have htrim : trim isCgiBlank nv.1 = nv.1 := trim_eq_self hread.front hread.back
  -- the name ends at the sign, or at the end where there is no value
  obtain ⟨rest, hsplit, hvalue⟩ : ∃ rest,
      getSubFieldPtr (paramText escape nv) 0 (· == byte '=') =
        some (nv.1, rest) ∧
      unescape (trim isCgiBlank (rest.dropWhile (· == byte '='))) = nv.2 := by
    by_cases hnil : nv.2 = []
    · refine ⟨[], ?_, hnil.symm⟩
      have hloop : ∀ (t cur : Text), (∀ c ∈ t, (c == byte '=') = false) →
          getSubFieldLoop (· == byte '=') 0 cur t = some (cur ++ t, []) := by
        intro t
        induction t with
        | nil =>
          intro cur _
          rw [getSubFieldLoop, if_pos rfl, append_nil]
        | cons c t ih =>
          intro cur ht
          rw [getSubFieldLoop, if_neg (by rw [ht c (by simp)]; simp),
            ih _ fun d hd => ht d (by simp [hd]), append_assoc, singleton_append]
      rw [paramText, if_pos hnil, append_nil]
      exact hloop nv.1 [] hequals
    · refine ⟨byte '=' :: escape nv.2, ?_, ?_⟩
      · rw [paramText, if_neg hnil]
        exact getSubFieldPtr_zero hkept.1 hequals (by decide) _
      · have hbyte : ∀ c ∈ escape nv.2, (c == byte '=') = false ∧ isCgiBlank c = false := by
          intro c hc
          have hescape := isEscapeByte_escape nv.2 c hc
          exact ⟨beq_eq_false_iff_ne.mpr (ne_of_class hescape (by decide)),
            oneOf_of_class hescape (by decide)⟩
        have hdrop : (byte '=' :: escape nv.2).dropWhile (· == byte '=') = escape nv.2 := by
          rw [dropWhile_cons_of_pos (by decide)]
          exact dropWhile_eq_self_iff.mpr fun hlen => by
            rw [(hbyte _ (getElem_mem hlen)).1]
            exact Bool.false_ne_true
        have hedges : trim isCgiBlank (escape nv.2) = escape nv.2 :=
          trim_eq_self (fun c hc => (hbyte c (mem_of_head? hc)).2)
            (fun c hc => (hbyte c (mem_of_getLast? hc)).2)
        rw [hdrop, hedges, unescape_escape hread.value]
  unfold parseCgiVariable
  rw [hsplit]
  dsimp only
  rw [hblank, if_neg hkept.1, hname, htrim, hvalue]

theorem segments_mark (mark : Byte) (s rest : Text) : segments (· == mark) (s ++ mark :: rest) =
    segments (· == mark) s ++ segments (· == mark) rest := by
  have hmark : (fun c => c == mark) mark = true := beq_self_eq_true mark
  generalize (fun c => c == mark) = sep at hmark ⊢
  exact segments_append_sep hmark s rest

theorem segments_marked (pieces : List Text) (hne : ∀ p ∈ pieces, p ≠ [])
    (hmark : ∀ p ∈ pieces, ∀ c ∈ p, c ≠ mark) :
    segments (· == mark) (pieces.flatMap (mark :: ·)) = pieces := by
  induction pieces with
  | nil => rfl
  | cons p pieces ih =>
    have hrest := ih (fun q hq => hne q (by simp [hq])) fun q hq => hmark q (by simp [hq])
    have hp : segments (· == mark) p = [p] := segments_eq_singleton (hne p (by simp))
      fun c hc => beq_eq_false_iff_ne.mpr (hmark p (by simp) c hc)
    have hopen (s : Text) : segments (· == mark) (mark :: s) = segments (· == mark) s :=
      segments_mark mark [] s
    rw [flatMap_cons, cons_append, hopen]
    cases pieces with
    | nil => simpa using hp
    | cons q pieces =>
      rw [flatMap_cons, cons_append, hopen] at hrest
      rw [flatMap_cons, cons_append, segments_mark, hp, hrest]
      rfl

/-- **Parameters that were read, and printed behind their marks, are read again.** -/
theorem parseCgiVariables_marked {params : List (Text × Text)}
    (hread : ∀ nv ∈ params, IsReadParam nv) (hkept : ∀ nv ∈ params, IsKeptName marks nv.1)
    (hmarks : ∀ c ∈ text "=%+", oneOf marks c = true) (hmark : oneOf marks mark = true)
    (hfree : isEscapeByte mark = false ∧ mark ≠ byte '=') {raw : Text}
    (hraw : mark :: raw = params.flatMap fun nv => mark :: paramText escape nv) :
    parseCgiVariables mark raw = params := by
  have hpieces : segments (· == mark) raw = params.map (paramText escape) := by
    have hopen : segments (· == mark) (mark :: raw) = segments (· == mark) raw :=
      segments_mark mark [] raw
    have hmap : (params.flatMap fun nv => mark :: paramText escape nv) =
        (params.map (paramText escape)).flatMap (mark :: ·) := (flatMap_map _ _ _).symm
    rw [← hopen, hraw, hmap]
    refine segments_marked _ ?_ ?_
    · rintro p hp
      obtain ⟨nv, hnv, rfl⟩ := mem_map.mp hp
      rw [paramText]
      exact append_ne_nil_of_left_ne_nil (hkept nv hnv).1 _
    · rintro p hp c hc
      obtain ⟨nv, hnv, rfl⟩ := mem_map.mp hp
      rcases mem_append.mp hc with hc | hc
      · exact (hkept nv hnv).ne hmark c hc
      · split at hc
        · simp at hc
        · rcases mem_cons.mp hc with rfl | hc
          · exact hfree.2.symm
          · exact ne_of_class (isEscapeByte_escape _ c hc) hfree.1
  rw [parseCgiVariables, hpieces, filterMap_map]
  refine (filterMap_congr fun nv hnv => ?_).trans filterMap_some
  exact parseCgiVariable_paramText (hread nv hnv) (hkept nv hnv) hmarks

end Url

end SipXRouter
