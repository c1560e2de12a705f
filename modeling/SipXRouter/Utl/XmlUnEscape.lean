import SipXRouter.Pattern
import SipXRouter.Utl.XmlContent

/-!
# Unescaping of XML content

`XmlUnEscape` goes from one match of its expression to the next.  It copies what stands in front
of the first match and what each match has behind the entity, up to the next ampersand; what a
search passes over after the first match is lost.  `XmlEscape` is the same kind of loop.
-/

namespace SipXRouter

open List Pattern

/-! ## The loop of `XmlEscape` -/

/-- `ESC_CHARS`. -/
def isEscChar (c : Byte) : Bool :=
  decide (c ≤ 0x08) || c == 0x0b || c == 0x0c || inRange '\x0e' '\x1f' c ||
    oneOf "\x22\x26\x27" c || c == 0x3c || c == 0x3e

/-- `CopyChars`. -/
def copyCharsRegex : Pattern :=
  seq (group 1 (star (cls isXmlChar))) (opt (group 2 (cls isEscChar)))

/-- The loop over the matches.  None is empty as long as there is text, so that the length bounds
their number. -/
def escapeLoop : (fuel : Nat) → Text → Text
  | 0, _ => []
  | fuel + 1, s =>
    if s = [] then []
    else
      match search copyCharsRegex s with
      | none => []
      | some m =>
        (m.group 1).getD [] ++ ((m.group 2).elim [] fun c => escapedChar (c.headD 0)) ++
          escapeLoop fuel m.rest

theorem isEscChar_eq : ∀ c, isEscChar c = !isXmlChar c := by decide +kernel

variable {w : Text}

theorem search_copyChars_end (hw : ∀ c ∈ w, isXmlChar c = true) :
    search copyCharsRegex w = some ⟨w, [], [(1, w)]⟩ := by
  apply search_of_matchAt
  have hnil : ∀ c ∈ ([] : Text).head?, isXmlChar c = false := by simp
  have hfirst := head?_run_group (k := 1) (head?_run_star_cls hw hnil 0)
  have hsecond : (run (opt (group 2 (cls isEscChar))) (0 + w.length) []).head? =
      some ⟨[], [], []⟩ := rfl
  have h := head?_run_seq hfirst hsecond
  rw [append_nil] at h
  rw [matchAt, copyCharsRegex, h]
  simp [Match.append]

variable {c : Byte} {rest : Text}

theorem search_copyChars_cons (hw : ∀ c ∈ w, isXmlChar c = true) (hc : isXmlChar c = false) :
    search copyCharsRegex (w ++ c :: rest) = some ⟨w ++ [c], rest, [(2, [c]), (1, w)]⟩ := by
  apply search_of_matchAt
  have htail : ∀ d ∈ (c :: rest).head?, isXmlChar d = false := by simpa using hc
  have hesc : isEscChar c = true := by rw [isEscChar_eq, hc]; rfl
  have hfirst := head?_run_group (k := 1) (head?_run_star_cls hw htail 0)
  have hclass : (run (cls isEscChar) (0 + w.length) (c :: rest)).head? = some ⟨[c], rest, []⟩ := by
    rw [run_cls_cons hesc]
    rfl
  have hsecond : (run (opt (group 2 (cls isEscChar))) (0 + w.length) (c :: rest)).head? =
      some ⟨[c], rest, [(2, [c])]⟩ := head?_run_alt_left (head?_run_group hclass)
  exact head?_run_seq hfirst hsecond

/-- **`XmlEscape` writes byte by byte**, whatever the matches are that it finds. -/
theorem escapeLoop_eq : ∀ {fuel : Nat} {s : Text}, s.length ≤ fuel →
    escapeLoop fuel s = xmlEscape s := by
  have hplain : ∀ {w : Text}, (∀ c ∈ w, isXmlChar c = true) → xmlEscape w = w := by
    intro w hw
    induction w with
    | nil => rfl
    | cons c w ih =>
      have htail := ih fun d hd => hw d (mem_cons_of_mem _ hd)
      rw [xmlEscape, flatMap_cons, if_pos (hw c mem_cons_self)]
      exact congrArg (c :: ·) htail
  intro fuel
  induction fuel with
  | zero =>
    intro s hs
    rw [eq_nil_of_length_eq_zero (Nat.le_zero.mp hs)]
    rfl
  | succ fuel ih =>
    intro s hs
    by_cases hnil : s = []
    · rw [hnil]
      rfl
    have hsplit := (takeWhile_append_dropWhile (p := isXmlChar) (l := s)).symm
    have hw : ∀ c ∈ s.takeWhile isXmlChar, isXmlChar c = true := fun c hc =>
      mem_takeWhile_imp hc
    generalize s.takeWhile isXmlChar = w at hsplit hw
    cases hdrop : s.dropWhile isXmlChar with
    | nil =>
      rw [hdrop, append_nil] at hsplit
      subst hsplit
      rw [escapeLoop, if_neg hnil, search_copyChars_end hw, hplain hw]
      show s ++ [] ++ escapeLoop fuel [] = s
      rw [ih (Nat.zero_le _), append_nil]
      exact append_nil s
    | cons c rest =>
      have hc : isXmlChar c = false := by
        have hhead := head?_dropWhile_not isXmlChar s
        rw [hdrop] at hhead
        simpa using hhead
      rw [hdrop] at hsplit
      subst hsplit
      rw [length_append, length_cons] at hs
      rw [escapeLoop, if_neg hnil, search_copyChars_cons hw hc]
      show w ++ escapedChar c ++ escapeLoop fuel rest = xmlEscape (w ++ c :: rest)
      have hrest : xmlEscape (w ++ c :: rest) =
          xmlEscape w ++ (escapedChar c ++ xmlEscape rest) := by
        rw [xmlEscape, flatMap_append, flatMap_cons, hc]
        rfl
      rw [hrest, hplain hw, ih (by omega), append_assoc]

theorem escapeLoop_lessThan : escapeLoop 3 (text "a<b") = xmlEscape (text "a<b") :=
  escapeLoop_eq (by decide)

/-! ## The loop of `XmlUnEscape` -/

/-- The entity of the expression: the ampersand, the name and the semicolon. -/
def entityRefRegex : Pattern :=
  cat [lit "&",
    choice [group 1 (lit "quot"), group 2 (lit "amp"), group 3 (lit "apos"), group 4 (lit "lt"),
      group 5 (lit "gt"),
      seq (lit "#") (alt (group 6 (seq (cls isDigit) (upTo 2 (cls isDigit))))
        (seq (lit "x") (group 7 (seq (cls isHex) (upTo 1 (cls isHex))))))],
    lit ";"]

/-- `Entity`. -/
def entityRegex : Pattern := seq entityRefRegex (group 8 (star (cls (· != byte '&'))))

/-- What a number is replaced by: the byte, or the digits where it is none.  The expression lets
nothing but digits through. -/
def convertedNumber (base : Nat) (number : Text) : Text :=
  if digitsValue base number < 256 then [UInt8.ofNat (digitsValue base number)] else number

/-- What a match appends for its entity. -/
def unescapedChar (m : Match) : Text :=
  if (m.group 1).isSome then [byte '"']
  else if (m.group 2).isSome then [byte '&']
  else if (m.group 3).isSome then [byte '\'']
  else if (m.group 4).isSome then [byte '<']
  else if (m.group 5).isSome then [byte '>']
  else if (m.group 6).isSome then convertedNumber 10 ((m.group 6).getD [])
  else convertedNumber 16 ((m.group 7).getD [])

/-- `BeforeMatchString` of a first match. -/
def beforeMatch (source : Text) (m : Match) : Text :=
  source.take (source.length - (m.text ++ m.rest).length)

/-- The loop over the matches, of which none is empty. -/
def unEscapeLoop : (fuel : Nat) → Text → Text
  | 0, _ => []
  | fuel + 1, s =>
    match search entityRegex s with
    | none => []
    | some m => unescapedChar m ++ (m.group 8).getD [] ++ unEscapeLoop fuel m.rest

/-- `XmlUnEscape`: what it appends to the destination. -/
def xmlUnEscape (source : Text) : Text :=
  match search entityRegex source with
  | none => source
  | some m => beforeMatch source m ++ unEscapeLoop source.length source

/-! ## The entities -/

/-- What the expression takes between `&` and `;`. -/
inductive Entity where
  | quot | amp | apos | lt | gt
  | decimal (number : Text)
  | hexadecimal (number : Text)
deriving DecidableEq

namespace Entity

/-- The text between `&` and `;`. -/
def name : Entity → Text
  | quot => text "quot"
  | amp => text "amp"
  | apos => text "apos"
  | lt => text "lt"
  | gt => text "gt"
  | decimal number => byte '#' :: number
  | hexadecimal number => byte '#' :: byte 'x' :: number

/-- The group of the expression that takes part. -/
def caps : Entity → List (Nat × Text)
  | quot => [(1, text "quot")]
  | amp => [(2, text "amp")]
  | apos => [(3, text "apos")]
  | lt => [(4, text "lt")]
  | gt => [(5, text "gt")]
  | decimal number => [(6, number)]
  | hexadecimal number => [(7, number)]

/-- The numbers have one to three digits, or one or two. -/
def Valid : Entity → Prop
  | decimal number => number ≠ [] ∧ number.length ≤ 3 ∧ ∀ c ∈ number, isDigit c = true
  | hexadecimal number => number ≠ [] ∧ number.length ≤ 2 ∧ ∀ c ∈ number, isHex c = true
  | _ => True

/-- The byte that an entity stands for, if it is in range. -/
def char : Entity → Option Byte
  | quot => some (byte '"')
  | amp => some (byte '&')
  | apos => some (byte '\'')
  | lt => some (byte '<')
  | gt => some (byte '>')
  | decimal number =>
    if digitsValue 10 number < 256 then some (UInt8.ofNat (digitsValue 10 number)) else none
  | hexadecimal number =>
    if digitsValue 16 number < 256 then some (UInt8.ofNat (digitsValue 16 number)) else none

/-- The whole reference. -/
def reference (e : Entity) : Text := byte '&' :: e.name ++ [byte ';']

end Entity

def entityOf (name : Text) : Option Entity :=
  if name = text "quot" then some .quot
  else if name = text "amp" then some .amp
  else if name = text "apos" then some .apos
  else if name = text "lt" then some .lt
  else if name = text "gt" then some .gt
  else if name.take 2 = text "#x" then
    let number := name.drop 2
    if number ≠ [] ∧ number.length ≤ 2 ∧ ∀ c ∈ number, isHex c = true then
      some (.hexadecimal number)
    else none
  else if name.take 1 = text "#" then
    let number := name.drop 1
    if number ≠ [] ∧ number.length ≤ 3 ∧ ∀ c ∈ number, isDigit c = true then
      some (.decimal number)
    else none
  else none

/-- A name that starts with `#` is a number or nothing. -/
theorem entityOf_hash (t : Text) :
    entityOf (byte '#' :: t) =
      if t.take 1 = text "x" then
        if t.drop 1 ≠ [] ∧ (t.drop 1).length ≤ 2 ∧ ∀ c ∈ t.drop 1, isHex c = true then
          some (.hexadecimal (t.drop 1))
        else none
      else if t ≠ [] ∧ t.length ≤ 3 ∧ ∀ c ∈ t, isDigit c = true then some (.decimal t)
      else none := by
  have hne : ∀ w : String, (text w).head? ≠ some (byte '#') → byte '#' :: t ≠ text w := by
    intro w hhead heq
    rw [← heq] at hhead
    exact hhead rfl
  have hcons : (byte '#' :: t.take 1 = text "#x") ↔ t.take 1 = text "x" :=
    ⟨fun h => (List.cons.inj h).2, fun h => congrArg (byte '#' :: ·) h⟩
  rw [entityOf, if_neg (hne "quot" (by decide)), if_neg (hne "amp" (by decide)),
    if_neg (hne "apos" (by decide)), if_neg (hne "lt" (by decide)),
    if_neg (hne "gt" (by decide))]
  show (if byte '#' :: t.take 1 = text "#x" then _ else _) = _
  by_cases hx : t.take 1 = text "x"
  · rw [if_pos (hcons.mpr hx), if_pos hx]
    rfl
  · rw [if_neg fun h => hx (hcons.mp h), if_neg hx]
    rfl

variable {e : Entity}

theorem entityOf_name (he : e.Valid) : entityOf e.name = some e := by
  cases e with
  | quot => rfl
  | amp => rfl
  | apos => rfl
  | lt => rfl
  | gt => rfl
  | decimal number =>
    have hx : number.take 1 ≠ text "x" := by
      intro h
      have hmem : byte 'x' ∈ number.take 1 := h ▸ mem_singleton.mpr rfl
      exact absurd (he.2.2 _ (mem_of_mem_take hmem)) (by decide)
    rw [Entity.name, entityOf_hash, if_neg hx]
    exact if_pos he
  | hexadecimal number =>
    have hx : (byte 'x' :: number).take 1 = text "x" := rfl
    rw [Entity.name, entityOf_hash, if_pos hx]
    exact if_pos he

theorem name_of_entityOf {name : Text} (h : entityOf name = some e) : e.Valid ∧ name = e.name := by
  have hhash : ∀ t : Text, entityOf (byte '#' :: t) = some e →
      e.Valid ∧ byte '#' :: t = e.name := by
    intro t ht
    rw [entityOf_hash] at ht
    split at ht
    · next hx =>
        split at ht
        · next hvalid =>
            have hsplit := take_append_drop 1 t
            rw [hx] at hsplit
            rw [← Option.some_inj.mp ht]
            exact ⟨hvalid, congrArg (byte '#' :: ·) hsplit.symm⟩
        · cases ht
    · split at ht
      · next hvalid =>
          rw [← Option.some_inj.mp ht]
          exact ⟨hvalid, rfl⟩
      · cases ht
  by_cases hstart : name.take 1 = text "#"
  · have hsplit := take_append_drop 1 name
    rw [hstart] at hsplit
    rw [← hsplit] at h ⊢
    exact hhash _ h
  · have hstart2 : name.take 2 ≠ text "#x" := by
      intro h2
      have h1 := congrArg (take 1) h2
      rw [take_take] at h1
      exact hstart h1
    rw [entityOf] at h
    simp only [if_neg hstart, if_neg hstart2] at h
    have hfound : ∀ e' : Entity, e'.Valid → name = e'.name → some e' = some e →
        e.Valid ∧ name = e.name := by
      intro e' hvalid hname heq
      rw [← Option.some_inj.mp heq]
      exact ⟨hvalid, hname⟩
    split at h
    · next hname => exact hfound .quot True.intro hname h
    split at h
    · next hname => exact hfound .amp True.intro hname h
    split at h
    · next hname => exact hfound .apos True.intro hname h
    split at h
    · next hname => exact hfound .lt True.intro hname h
    split at h
    · next hname => exact hfound .gt True.intro hname h
    · cases h

theorem Entity.Valid.name_bytes (he : e.Valid) :
    ∀ c ∈ e.name, c ≠ byte ';' ∧ c ≠ byte '&' := by
  have hhex : ∀ c, isHex c = true → c ≠ byte ';' ∧ c ≠ byte '&' := by decide +kernel
  have hdigit : ∀ c, isDigit c = true → c ≠ byte ';' ∧ c ≠ byte '&' := by decide +kernel
  cases e with
  | quot => decide
  | amp => decide
  | apos => decide
  | lt => decide
  | gt => decide
  | decimal number =>
    intro c hc
    rcases mem_cons.mp hc with rfl | hc
    · decide
    · exact hdigit c (he.2.2 c hc)
  | hexadecimal number =>
    intro c hc
    rcases mem_cons.mp hc with rfl | hc
    · decide
    rcases mem_cons.mp hc with rfl | hc
    · decide
    · exact hhex c (he.2.2 c hc)

/-! ## What the expression matches -/

variable {m : Match} {n : Nat} {s : Text}

theorem mem_run_lit {w : String} (h : m ∈ run (lit w) n s)
    (hgroups : groups (lit w) = []) : m.text = text w ∧ m.caps = [] :=
  ⟨mem_lang_lit.mp (text_mem_lang h), caps_eq_nil hgroups h⟩

theorem mem_run_group_lit {k : Nat} {w : String}
    (h : m ∈ run (group k (lit w)) n s) (hgroups : groups (lit w) = []) :
    m.text = text w ∧ m.caps = [(k, text w)] := by
  obtain ⟨m₁, hm₁, rfl⟩ := mem_run_group.mp h
  obtain ⟨htext, hcaps⟩ := mem_run_lit hm₁ hgroups
  exact ⟨htext, by rw [hcaps, htext]⟩

theorem mem_lang_range_cls {j : Nat} {p : Byte → Bool} {t : Text} :
    t ∈ lang (seq (cls p) (upTo j (cls p))) ↔ t ≠ [] ∧ t.length ≤ j + 1 ∧ ∀ c ∈ t, p c = true := by
  rw [mem_lang_seq]
  constructor
  · rintro ⟨u, ⟨c, hc, rfl⟩, v, hv, rfl⟩
    obtain ⟨hlength, hv⟩ := mem_lang_upTo_cls.mp hv
    refine ⟨cons_ne_nil _ _, by simpa using hlength, fun d hd => ?_⟩
    rcases mem_cons.mp hd with rfl | hd
    · exact hc
    · exact hv d hd
  · rintro ⟨hne, hlength, ht⟩
    obtain ⟨c, cs, rfl⟩ := exists_cons_of_ne_nil hne
    refine ⟨[c], ⟨c, ht c mem_cons_self, rfl⟩, cs, ?_, rfl⟩
    exact mem_lang_upTo_cls.mpr
      ⟨by simpa using hlength, fun d hd => ht d (mem_cons_of_mem _ hd)⟩

theorem groups_range_cls (j : Nat) (p : Byte → Bool) :
    groups (seq (cls p) (upTo j (cls p))) = [] := by
  have hgroups : groups (upTo j (cls p)) = [] := by
    induction j with
    | zero => rfl
    | succ j ih =>
      show groups (cls p) ++ groups (upTo j (cls p)) ++ [] = []
      rw [ih]
      rfl
  show groups (cls p) ++ groups (upTo j (cls p)) = []
  rw [hgroups]
  rfl

theorem mem_run_number {k j : Nat} {p : Byte → Bool}
    (h : m ∈ run (group k (seq (cls p) (upTo j (cls p)))) n s) :
    (m.text ≠ [] ∧ m.text.length ≤ j + 1 ∧ ∀ c ∈ m.text, p c = true) ∧ m.caps = [(k, m.text)] := by
  obtain ⟨m₁, hm₁, rfl⟩ := mem_run_group.mp h
  have hlang := mem_lang_range_cls.mp (text_mem_lang hm₁)
  exact ⟨hlang, by rw [caps_eq_nil (groups_range_cls j p) hm₁]⟩

theorem mem_run_entityRef (h : m ∈ run entityRefRegex n s) :
    ∃ e : Entity, e.Valid ∧ m.text = e.reference ∧ m.caps = e.caps := by
  obtain ⟨m₁, hm₁, m', hm', rfl⟩ := mem_run_seq.mp h
  obtain ⟨m₂, hm₂, m'', hm'', rfl⟩ := mem_run_seq.mp hm'
  obtain ⟨m₃, hm₃, m₄, hm₄, rfl⟩ := mem_run_seq.mp hm''
  obtain ⟨htext₁, hcaps₁⟩ := mem_run_lit hm₁ rfl
  obtain ⟨htext₃, hcaps₃⟩ := mem_run_lit hm₃ rfl
  have heps := mem_run_eps.mp hm₄
  have hassemble : ∀ e : Entity, e.Valid → m₂.text = e.name → m₂.caps = e.caps →
      ∃ e : Entity, e.Valid ∧ (m₁.append (m₂.append (m₃.append m₄))).text = e.reference ∧
        (m₁.append (m₂.append (m₃.append m₄))).caps = e.caps := by
    intro e hvalid htext hcaps
    refine ⟨e, hvalid, ?_, ?_⟩
    · rw [Match.append_text, Match.append_text, Match.append_text, htext₁, htext, htext₃, heps]
      rfl
    · rw [Match.append_caps, Match.append_caps, Match.append_caps, hcaps₁, hcaps, hcaps₃, heps]
      simp
  have hchoice : ∀ {a b : Pattern}, m₂ ∈ run (alt a b) (n + m₁.text.length) m₁.rest →
      m₂ ∈ run a (n + m₁.text.length) m₁.rest ∨ m₂ ∈ run b (n + m₁.text.length) m₁.rest :=
    fun h => mem_append.mp h
  rcases hchoice hm₂ with hm₂ | hm₂
  · obtain ⟨htext, hcaps⟩ := mem_run_group_lit hm₂ rfl
    exact hassemble .quot True.intro htext hcaps
  rcases hchoice hm₂ with hm₂ | hm₂
  · obtain ⟨htext, hcaps⟩ := mem_run_group_lit hm₂ rfl
    exact hassemble .amp True.intro htext hcaps
  rcases hchoice hm₂ with hm₂ | hm₂
  · obtain ⟨htext, hcaps⟩ := mem_run_group_lit hm₂ rfl
    exact hassemble .apos True.intro htext hcaps
  rcases hchoice hm₂ with hm₂ | hm₂
  · obtain ⟨htext, hcaps⟩ := mem_run_group_lit hm₂ rfl
    exact hassemble .lt True.intro htext hcaps
  rcases hchoice hm₂ with hm₂ | hm₂
  · obtain ⟨htext, hcaps⟩ := mem_run_group_lit hm₂ rfl
    exact hassemble .gt True.intro htext hcaps
  obtain ⟨mhash, hmhash, mnumber, hmnumber, heq⟩ := mem_run_seq.mp hm₂
  obtain ⟨htexthash, hcapshash⟩ := mem_run_lit hmhash rfl
  rcases mem_append.mp hmnumber with hdecimal | hhexadecimal
  · obtain ⟨hvalid, hcaps⟩ := mem_run_number hdecimal
    refine hassemble (.decimal mnumber.text) hvalid ?_ ?_
    · rw [heq, Match.append_text, htexthash]
      rfl
    · rw [heq, Match.append_caps, hcapshash, hcaps]
      rfl
  · obtain ⟨mx, hmx, mdigits, hmdigits, heqx⟩ := mem_run_seq.mp hhexadecimal
    obtain ⟨htextx, hcapsx⟩ := mem_run_lit hmx rfl
    obtain ⟨hvalid, hcaps⟩ := mem_run_number hmdigits
    refine hassemble (.hexadecimal mdigits.text) hvalid ?_ ?_
    · rw [heq, Match.append_text, htexthash, heqx, Match.append_text, htextx]
      rfl
    · rw [heq, Match.append_caps, hcapshash, heqx, Match.append_caps, hcapsx, hcaps]
      rfl

theorem reference_mem_lang (he : e.Valid) : e.reference ∈ lang entityRefRegex := by
  have hassemble : ∀ {p : Pattern} {name : Text}, name ∈ lang p →
      byte '&' :: name ++ [byte ';'] ∈ lang (cat [lit "&", p, lit ";"]) := by
    intro p name hname
    refine mem_lang_seq.mpr ⟨text "&", mem_lang_lit.mpr rfl, name ++ [byte ';'], ?_, rfl⟩
    refine mem_lang_seq.mpr ⟨name, hname, [byte ';'], ?_, rfl⟩
    refine mem_lang_seq.mpr ⟨text ";", mem_lang_lit.mpr rfl, [], mem_lang_eps.mpr rfl, rfl⟩
  refine hassemble ?_
  cases e with
  | quot => exact Or.inl (mem_lang_lit.mpr rfl)
  | amp => exact Or.inr (Or.inl (mem_lang_lit.mpr rfl))
  | apos => exact Or.inr (Or.inr (Or.inl (mem_lang_lit.mpr rfl)))
  | lt => exact Or.inr (Or.inr (Or.inr (Or.inl (mem_lang_lit.mpr rfl))))
  | gt => exact Or.inr (Or.inr (Or.inr (Or.inr (Or.inl (mem_lang_lit.mpr rfl)))))
  | decimal number =>
    refine Or.inr (Or.inr (Or.inr (Or.inr (Or.inr ?_))))
    refine mem_lang_seq.mpr ⟨text "#", mem_lang_lit.mpr rfl, number, Or.inl ?_, rfl⟩
    exact mem_lang_range_cls.mpr he
  | hexadecimal number =>
    refine Or.inr (Or.inr (Or.inr (Or.inr (Or.inr ?_))))
    refine mem_lang_seq.mpr ⟨text "#", mem_lang_lit.mpr rfl, byte 'x' :: number, Or.inr ?_, rfl⟩
    refine mem_lang_seq.mpr ⟨text "x", mem_lang_lit.mpr rfl, number, ?_, rfl⟩
    exact mem_lang_range_cls.mpr he

/-! ## Reading an entity -/

/-- The entity behind an ampersand, and what follows its semicolon. -/
def readEntity (s : Text) : Option (Entity × Text) :=
  match s.dropWhile (· != byte ';') with
  | [] => none
  | _ :: rest => (entityOf (s.takeWhile (· != byte ';'))).map fun e => (e, rest)

theorem readEntity_name (he : e.Valid) (rest : Text) :
    readEntity (e.name ++ byte ';' :: rest) = some (e, rest) := by
  have hname : ∀ c ∈ e.name, (c != byte ';') = true := fun c hc =>
    bne_iff_ne.mpr (he.name_bytes c hc).1
  have hstop : ¬ (byte ';' != byte ';') = true := by decide
  rw [readEntity, dropWhile_append_of_pos hname, takeWhile_append_of_pos hname,
    dropWhile_cons_of_neg (p := (· != byte ';')) hstop,
    takeWhile_cons_of_neg (p := (· != byte ';')) hstop, append_nil]
  show (entityOf e.name).map _ = _
  rw [entityOf_name he]
  rfl

theorem readEntity_eq_some (h : readEntity s = some (e, rest)) :
    e.Valid ∧ s = e.name ++ byte ';' :: rest := by
  have hsplit := (takeWhile_append_dropWhile (p := (· != byte ';')) (l := s)).symm
  rw [readEntity] at h
  split at h
  · cases h
  · next c rest' hdrop =>
      obtain ⟨e', he', heq⟩ := Option.map_eq_some_iff.mp h
      obtain ⟨rfl, rfl⟩ := Prod.mk.inj heq
      obtain ⟨hvalid, hname⟩ := name_of_entityOf he'
      have hc : c = byte ';' := by
        have hhead := head?_dropWhile_not (· != byte ';') s
        rw [hdrop] at hhead
        simpa using hhead
      rw [hname, hdrop, hc] at hsplit
      exact ⟨hvalid, hsplit⟩

/-- A reference stands at the front. -/
def StartsEntity (s : Text) : Prop := ∃ e : Entity, e.Valid ∧ ∃ rest, s = e.reference ++ rest

theorem reference_append (e : Entity) (rest : Text) :
    e.reference ++ rest = byte '&' :: (e.name ++ byte ';' :: rest) := by
  simp [Entity.reference]

theorem reference_inj {e' : Entity} {rest' : Text} (he : e.Valid) (he' : e'.Valid)
    (h : e.reference ++ rest = e'.reference ++ rest') : e = e' ∧ rest = rest' := by
  rw [reference_append, reference_append] at h
  have hread := readEntity_name he rest
  rw [(List.cons.inj h).2, readEntity_name he' rest'] at hread
  obtain ⟨heq, hrest⟩ := Prod.mk.inj (Option.some_inj.mp hread)
  exact ⟨heq.symm, hrest.symm⟩

variable {cs : Text}

theorem startsEntity_cons :
    StartsEntity (c :: cs) ↔ c = byte '&' ∧ (readEntity cs).isSome = true := by
  constructor
  · rintro ⟨e, he, rest, h⟩
    rw [reference_append] at h
    obtain ⟨rfl, rfl⟩ := List.cons.inj h
    rw [readEntity_name he rest]
    exact ⟨rfl, rfl⟩
  · rintro ⟨rfl, hsome⟩
    obtain ⟨⟨e, rest⟩, hread⟩ := Option.isSome_iff_exists.mp hsome
    obtain ⟨he, rfl⟩ := readEntity_eq_some hread
    exact ⟨e, he, rest, (reference_append e rest).symm⟩

/-! ## The search for an entity -/

/-- What is matched at a reference: the entity, and the text up to the next ampersand. -/
def entityMatch (e : Entity) (rest : Text) : Match where
  text := e.reference ++ rest.takeWhile (· != byte '&')
  rest := rest.dropWhile (· != byte '&')
  caps := (8, rest.takeWhile (· != byte '&')) :: e.caps

theorem head?_run_entity (he : e.Valid) (rest : Text) (n : Nat) :
    (run entityRegex n (e.reference ++ rest)).head? = some (entityMatch e rest) := by
  have hplain : Plain entityRefRegex := by
    simp [entityRefRegex, cat, choice, lit, text, upTo, opt, Plain]
  have hfirst : (run entityRefRegex n (e.reference ++ rest)).head? =
      some ⟨e.reference, rest, e.caps⟩ := by
    obtain ⟨m, hm, -, -⟩ := exists_mem_run hplain e.reference (reference_mem_lang he) n rest
    have hall : ∀ m ∈ run entityRefRegex n (e.reference ++ rest),
        m = ⟨e.reference, rest, e.caps⟩ := by
      rintro ⟨text', rest', caps'⟩ hm
      obtain ⟨e', he', htext, hcaps⟩ := mem_run_entityRef hm
      have happend := append_of_mem_run hm
      simp only at htext hcaps happend
      rw [htext] at happend ⊢
      obtain ⟨rfl, rfl⟩ := reference_inj he he' happend
      rw [hcaps]
    cases hrun : run entityRefRegex n (e.reference ++ rest) with
    | nil => exact absurd (hrun ▸ hm) not_mem_nil
    | cons m' ms =>
      rw [head?_cons, hall m' (hrun ▸ mem_cons_self)]
  have htake : ∀ c ∈ rest.takeWhile (· != byte '&'), (c != byte '&') = true := fun c hc =>
    mem_takeWhile_imp (p := (· != byte '&')) hc
  have hdrop : ∀ c ∈ (rest.dropWhile (· != byte '&')).head?, (c != byte '&') = false := by
    intro c hc
    have hhead := head?_dropWhile_not (· != byte '&') rest
    rw [Option.mem_def.mp hc] at hhead
    simpa using hhead
  have hsecond := head?_run_group (k := 8)
    (head?_run_star_cls htake hdrop (n + e.reference.length))
  rw [takeWhile_append_dropWhile] at hsecond
  exact head?_run_seq hfirst hsecond

theorem run_entity_eq_nil (hs : ¬ StartsEntity s) (n : Nat) : run entityRegex n s = [] := by
  refine run_seq_eq_nil (eq_nil_iff_forall_not_mem.mpr fun m hm => hs ?_)
  obtain ⟨e, he, htext, -⟩ := mem_run_entityRef hm
  exact ⟨e, he, m.rest, htext ▸ append_of_mem_run hm⟩

theorem searchFrom_entity (he : e.Valid) (rest : Text) (n : Nat) :
    searchFrom entityRegex n (e.reference ++ rest) = some (entityMatch e rest) := by
  have hhead := head?_run_entity he rest n
  rw [reference_append] at hhead ⊢
  rw [searchFrom, hhead, Option.some_or]

theorem searchFrom_entity_cons (h : ¬ StartsEntity (c :: cs)) (n : Nat) :
    searchFrom entityRegex n (c :: cs) = searchFrom entityRegex (n + 1) cs := by
  rw [searchFrom, run_entity_eq_nil h n]
  rfl

theorem searchFrom_entity_nil (n : Nat) : searchFrom entityRegex n [] = none := by
  have hnone : ¬ StartsEntity [] := by
    rintro ⟨e, -, rest, h⟩
    rw [reference_append] at h
    cases h
  rw [searchFrom, run_entity_eq_nil hnone n]
  rfl

/-- A text from its first reference on. -/
def fromFirstEntity : Text → Text
  | [] => []
  | c :: cs => if c = byte '&' ∧ (readEntity cs).isSome = true then c :: cs else fromFirstEntity cs

theorem fromFirstEntity_cases (s : Text) :
    fromFirstEntity s = [] ∨ StartsEntity (fromFirstEntity s) := by
  induction s with
  | nil => exact Or.inl rfl
  | cons c cs ih =>
    rw [fromFirstEntity]
    split
    · next h => exact Or.inr (startsEntity_cons.mpr h)
    · exact ih

theorem searchFrom_fromFirstEntity (s : Text) :
    ∀ n n', searchFrom entityRegex n s = searchFrom entityRegex n' (fromFirstEntity s) := by
  induction s with
  | nil =>
    intro n n'
    rw [fromFirstEntity, searchFrom_entity_nil, searchFrom_entity_nil]
  | cons c cs ih =>
    intro n n'
    rw [fromFirstEntity]
    split
    · next h =>
        obtain ⟨e, he, rest, hs⟩ := startsEntity_cons.mpr h
        rw [hs, searchFrom_entity he, searchFrom_entity he]
    · next h =>
        rw [searchFrom_entity_cons (fun hs => h (startsEntity_cons.mp hs)), ih (n + 1) n']

/-! ## The text with each entity replaced -/

/-- The byte for the entity at the front of a text, and how far it goes behind the first byte. -/
def expansion : Text → Option (Byte × Nat)
  | [] => none
  | c :: cs =>
    if c = byte '&' then
      (readEntity cs).bind fun found =>
        found.1.char.map fun b => (b, cs.length - found.2.length)
    else none

/-- Replace the entities behind what is to be passed over. -/
def expandFrom : (skip : Nat) → Text → Text
  | _, [] => []
  | skip + 1, _ :: cs => expandFrom skip cs
  | 0, c :: cs =>
    match expansion (c :: cs) with
    | some (b, skip) => b :: expandFrom skip cs
    | none => c :: expandFrom 0 cs

/-- **A text with each entity of a byte replaced by it** and all else as it is. -/
def expand (s : Text) : Text := expandFrom 0 s

theorem expandFrom_eq_expand (s : Text) : ∀ skip, expandFrom skip s = expand (s.drop skip) := by
  induction s with
  | nil =>
    intro skip
    rw [drop_nil, expand, expandFrom, expandFrom]
  | cons c cs ih =>
    intro skip
    cases skip with
    | zero => rfl
    | succ skip => rw [expandFrom, ih skip, drop_succ_cons]

theorem expand_reference (he : e.Valid) {b : Byte} (hb : e.char = some b)
    (rest : Text) : expand (e.reference ++ rest) = b :: expand rest := by
  have hexpansion : expansion (byte '&' :: (e.name ++ byte ';' :: rest)) =
      some (b, e.name.length + 1) := by
    have hlength : (e.name ++ byte ';' :: rest).length - rest.length = e.name.length + 1 := by
      rw [length_append, length_cons]
      omega
    rw [expansion, if_pos rfl, readEntity_name he rest]
    show (e.char.map fun b => (b, (e.name ++ byte ';' :: rest).length - rest.length)) = _
    rw [hb, hlength]
    rfl
  rw [reference_append, expand, expandFrom, hexpansion]
  show b :: expandFrom (e.name.length + 1) (e.name ++ byte ';' :: rest) = b :: expand rest
  rw [expandFrom_eq_expand, drop_length_add_append]
  rfl

theorem expand_cons (h : expansion (c :: cs) = none) : expand (c :: cs) = c :: expand cs := by
  rw [expand, expandFrom, h]
  rfl

theorem expand_cons_of_ne (hc : c ≠ byte '&') (cs : Text) : expand (c :: cs) = c :: expand cs := by
  apply expand_cons
  rw [expansion, if_neg hc]

theorem expand_append (hw : ∀ c ∈ w, c ≠ byte '&') (s : Text) :
    expand (w ++ s) = w ++ expand s := by
  induction w with
  | nil => rfl
  | cons c w ih =>
    rw [cons_append, expand_cons_of_ne (hw c mem_cons_self),
      ih fun d hd => hw d (mem_cons_of_mem _ hd), cons_append]

/-! ## Where nothing is lost -/

/-- Each ampersand of a text starts an entity of a byte. -/
def allExpanded : Text → Bool
  | [] => true
  | c :: cs => (c != byte '&' || (expansion (c :: cs)).isSome) && allExpanded cs

theorem allExpanded_append (hw : ∀ c ∈ w, c ≠ byte '&') (s : Text) :
    allExpanded (w ++ s) = allExpanded s := by
  induction w with
  | nil => rfl
  | cons c w ih =>
    have hc : (c != byte '&') = true := bne_iff_ne.mpr (hw c mem_cons_self)
    rw [cons_append, allExpanded, hc, ih fun d hd => hw d (mem_cons_of_mem _ hd)]
    rfl

theorem unescapedChar_of_char {b : Byte} (hb : e.char = some b) (rest : Text) :
    unescapedChar (entityMatch e rest) = [b] := by
  have hnumber : ∀ (base : Nat) (number : Text),
      (if digitsValue base number < 256 then some (UInt8.ofNat (digitsValue base number))
        else none) = some b → convertedNumber base number = [b] := by
    intro base number h
    rw [convertedNumber]
    split at h
    · next hlt => rw [if_pos hlt, Option.some_inj.mp h]
    · cases h
  cases e with
  | quot => exact congrArg (· :: []) (Option.some_inj.mp hb)
  | amp => exact congrArg (· :: []) (Option.some_inj.mp hb)
  | apos => exact congrArg (· :: []) (Option.some_inj.mp hb)
  | lt => exact congrArg (· :: []) (Option.some_inj.mp hb)
  | gt => exact congrArg (· :: []) (Option.some_inj.mp hb)
  | decimal number => exact hnumber 10 number hb
  | hexadecimal number => exact hnumber 16 number hb

theorem length_unescapedChar_le (hb : e.char = none) (rest : Text) :
    (unescapedChar (entityMatch e rest)).length ≤ e.name.length := by
  have hnumber : ∀ (base : Nat) (number : Text),
      (if digitsValue base number < 256 then some (UInt8.ofNat (digitsValue base number))
        else none) = none → convertedNumber base number = number := by
    intro base number h
    rw [convertedNumber]
    split at h
    · cases h
    · next hlt => rw [if_neg hlt]
  cases e with
  | quot => cases hb
  | amp => cases hb
  | apos => cases hb
  | lt => cases hb
  | gt => cases hb
  | decimal number =>
    show (convertedNumber 10 number).length ≤ _
    rw [hnumber 10 number hb]
    exact Nat.le_succ _
  | hexadecimal number =>
    show (convertedNumber 16 number).length ≤ _
    rw [hnumber 16 number hb]
    exact Nat.le_add_right _ 2

theorem unEscapeLoop_nil (fuel : Nat) : unEscapeLoop fuel [] = [] := by
  cases fuel with
  | zero => rfl
  | succ fuel =>
    rw [unEscapeLoop, search, searchFrom_entity_nil]

theorem unEscapeLoop_reference (he : e.Valid) (rest : Text) (fuel : Nat) :
    unEscapeLoop (fuel + 1) (e.reference ++ rest) =
      unescapedChar (entityMatch e rest) ++ rest.takeWhile (· != byte '&') ++
        unEscapeLoop fuel (rest.dropWhile (· != byte '&')) := by
  rw [unEscapeLoop, search, searchFrom_entity he]
  rfl

/-- What a search passes over is lost. -/
theorem unEscapeLoop_cons (h : ¬ StartsEntity (c :: cs)) (fuel : Nat) :
    unEscapeLoop fuel (c :: cs) = unEscapeLoop fuel cs := by
  cases fuel with
  | zero => rfl
  | succ fuel =>
    have hsearch : searchFrom entityRegex 1 cs = searchFrom entityRegex 0 cs := by
      rw [searchFrom_fromFirstEntity cs 1 0, searchFrom_fromFirstEntity cs 0 0]
    rw [unEscapeLoop, unEscapeLoop, search, search, searchFrom_entity_cons h, hsearch]

theorem expand_rest (rest : Text) :
    expand rest = rest.takeWhile (· != byte '&') ++ expand (rest.dropWhile (· != byte '&')) ∧
      allExpanded rest = allExpanded (rest.dropWhile (· != byte '&')) := by
  have htake : ∀ c ∈ rest.takeWhile (· != byte '&'), c ≠ byte '&' := fun c hc =>
    bne_iff_ne.mp (mem_takeWhile_imp (p := (· != byte '&')) hc)
  have hsplit := takeWhile_append_dropWhile (p := (· != byte '&')) (l := rest)
  have hexpand := expand_append htake (rest.dropWhile (· != byte '&'))
  have hall := allExpanded_append htake (rest.dropWhile (· != byte '&'))
  rw [hsplit] at hexpand hall
  exact ⟨hexpand, hall⟩

theorem expansion_reference (he : e.Valid) (rest : Text) :
    (expansion (e.reference ++ rest)).isSome = e.char.isSome := by
  rw [reference_append, expansion, if_pos rfl, readEntity_name he rest]
  exact Option.isSome_map

theorem Entity.Valid.tail_bytes (he : e.Valid) :
    ∀ c ∈ e.name ++ [byte ';'], c ≠ byte '&' := by
  intro c hc
  rcases mem_append.mp hc with hc | hc
  · exact (he.name_bytes c hc).2
  · rw [mem_singleton.mp hc]
    decide

theorem allExpanded_reference (he : e.Valid) (rest : Text) :
    allExpanded (e.reference ++ rest) = (e.char.isSome && allExpanded rest) := by
  have hsome := expansion_reference he rest
  have htail : e.name ++ byte ';' :: rest = (e.name ++ [byte ';']) ++ rest := by simp
  rw [reference_append] at hsome ⊢
  rw [allExpanded, hsome, htail, allExpanded_append he.tail_bytes]
  rfl

theorem expand_reference_of_none (he : e.Valid) (hb : e.char = none) (rest : Text) :
    expand (e.reference ++ rest) = e.reference ++ expand rest := by
  have htail : e.name ++ byte ';' :: rest = (e.name ++ [byte ';']) ++ rest := by simp
  have hnone : expansion (byte '&' :: (e.name ++ byte ';' :: rest)) = none := by
    rw [← Option.not_isSome_iff_eq_none, ← reference_append, expansion_reference he, hb]
    decide
  rw [reference_append, expand_cons hnone, htail, expand_append he.tail_bytes]
  simp [Entity.reference]

theorem expansion_eq_none (h : ¬ StartsEntity (c :: cs)) : expansion (c :: cs) = none := by
  rw [startsEntity_cons] at h
  rw [expansion]
  split
  · next hc =>
      have hnone : readEntity cs = none := by
        rw [← Option.not_isSome_iff_eq_none]
        exact fun hsome => h ⟨hc, hsome⟩
      rw [hnone]
      rfl
  · rfl

/-- **The loop against the expansion**: it never writes more, and from an ampersand on it writes
the same exactly if each ampersand starts an entity of a byte. -/
theorem unEscapeLoop_expand : ∀ (k : Nat) {s : Text} {fuel : Nat}, s.length ≤ k → s.length ≤ fuel →
    (unEscapeLoop fuel s).length ≤ (expand s).length ∧
      ((∀ c ∈ s.head?, c = byte '&') →
        (unEscapeLoop fuel s = expand s ↔ allExpanded s = true)) := by
  intro k
  induction k with
  | zero =>
    intro s fuel hk _
    rw [eq_nil_of_length_eq_zero (Nat.le_zero.mp hk), unEscapeLoop_nil]
    exact ⟨Nat.zero_le _, fun _ => ⟨fun _ => rfl, fun _ => rfl⟩⟩
  | succ k ih =>
    intro s fuel hk hfuel
    cases s with
    | nil =>
      rw [unEscapeLoop_nil]
      exact ⟨Nat.zero_le _, fun _ => ⟨fun _ => rfl, fun _ => rfl⟩⟩
    | cons c cs =>
      by_cases hstarts : StartsEntity (c :: cs)
      · obtain ⟨e, he, rest, hs⟩ := hstarts
        obtain ⟨hexpand, hall⟩ := expand_rest rest
        have hdrop := dropWhile_suffix (l := rest) (· != byte '&')
        have hlength := congrArg length hs
        have hreference : e.reference.length = e.name.length + 2 := by
          simp [Entity.reference]
        rw [length_append, hreference] at hlength
        have hshort := hdrop.length_le
        obtain ⟨fuel, rfl⟩ : ∃ j, fuel = j + 1 := ⟨fuel - 1, by omega⟩
        obtain ⟨hle, hiff⟩ := @ih (rest.dropWhile (· != byte '&')) fuel (by omega) (by omega)
        have hiff := hiff (by
          intro d hd
          have hhead := head?_dropWhile_not (· != byte '&') rest
          rw [Option.mem_def.mp hd] at hhead
          simpa using hhead)
        rw [hs, unEscapeLoop_reference he, allExpanded_reference he]
        cases hb : e.char with
        | some b =>
          rw [expand_reference he hb, unescapedChar_of_char hb, hexpand, hall,
            append_assoc]
          refine ⟨?_, fun _ => ?_⟩
          · show ((rest.takeWhile (· != byte '&') ++ _).length + 1) ≤ _
            rw [length_cons, length_append, length_append]
            omega
          · show b :: (rest.takeWhile (· != byte '&') ++ _) = _ ↔ allExpanded _ = true
            rw [cons_inj_right, append_cancel_left_eq]
            exact hiff
        | none =>
          have hdigits := length_unescapedChar_le hb rest
          have hlt : (unescapedChar (entityMatch e rest) ++ rest.takeWhile (· != byte '&') ++
              unEscapeLoop fuel (rest.dropWhile (· != byte '&'))).length <
              (expand (e.reference ++ rest)).length := by
            rw [expand_reference_of_none he hb, hexpand]
            simp only [length_append, hreference]
            omega
          refine ⟨Nat.le_of_lt hlt, fun _ => ⟨fun heq => ?_, fun h => ?_⟩⟩
          · rw [heq] at hlt
            exact absurd hlt (Nat.lt_irrefl _)
          · cases h
      · rw [unEscapeLoop_cons hstarts, expand_cons (expansion_eq_none hstarts)]
        obtain ⟨hle, -⟩ := @ih cs fuel (by simpa using hk) (Nat.le_of_succ_le hfuel)
        refine ⟨Nat.le_succ_of_le hle, fun hhead => ⟨fun heq => ?_, fun hall => ?_⟩⟩
        · have := congrArg length heq
          rw [length_cons] at this
          omega
        · rw [allExpanded, expansion_eq_none hstarts, hhead c rfl] at hall
          exact absurd hall (by simp)

theorem exists_before_firstEntity (s : Text) : ∃ before, s = before ++ fromFirstEntity s ∧
    expand s = before ++ expand (fromFirstEntity s) := by
  induction s with
  | nil => exact ⟨[], rfl, rfl⟩
  | cons c cs ih =>
    rw [fromFirstEntity]
    split
    · exact ⟨[], rfl, rfl⟩
    · next h =>
        obtain ⟨before, hsplit, hexpand⟩ := ih
        have hnone := expansion_eq_none fun hs => h (startsEntity_cons.mp hs)
        refine ⟨c :: before, ?_, ?_⟩
        · rw [cons_append, ← hsplit]
        · rw [expand_cons hnone, hexpand, cons_append]

/-- **Which texts are expanded as they should be**: those with no entity, and those where each
ampersand from the first entity on starts an entity of a byte. -/
theorem xmlUnEscape_eq_expand_iff (source : Text) :
    xmlUnEscape source = expand source ↔ allExpanded (fromFirstEntity source) = true := by
  obtain ⟨before, hsplit, hexpand⟩ := exists_before_firstEntity source
  have hsearch := searchFrom_fromFirstEntity source 0 0
  rw [xmlUnEscape, search, hsearch]
  rcases fromFirstEntity_cases source with hnil | ⟨e, he, rest, hs⟩
  · rw [hnil] at hsplit hexpand ⊢
    rw [searchFrom_entity_nil]
    show source = expand source ↔ _
    rw [hexpand, hsplit, append_nil]
    exact ⟨fun _ => rfl, fun _ => (append_nil before).symm⟩
  · have hmatch : (entityMatch e rest).text ++ (entityMatch e rest).rest = e.reference ++ rest := by
      show e.reference ++ _ ++ rest.dropWhile (· != byte '&') = _
      rw [append_assoc, takeWhile_append_dropWhile]
    have hlength := congrArg length hsplit
    rw [length_append, hs] at hlength
    have hbefore : beforeMatch source (entityMatch e rest) = before := by
      have hcount : source.length - (e.reference ++ rest).length = before.length := by omega
      rw [beforeMatch, hmatch, hcount, hsplit, take_left]
    have hloop : unEscapeLoop source.length source =
        unEscapeLoop source.length (fromFirstEntity source) := by
      cases source.length with
      | zero => rfl
      | succ fuel => rw [unEscapeLoop, unEscapeLoop, search, search, hsearch]
    have hhead : ∀ c ∈ (fromFirstEntity source).head?, c = byte '&' := by
      rw [hs, reference_append]
      intro c hc
      exact (Option.some_inj.mp hc).symm
    have hfuel : (fromFirstEntity source).length ≤ source.length := by
      rw [hs]
      omega
    rw [hs, searchFrom_entity he]
    show beforeMatch source _ ++ unEscapeLoop source.length source = _ ↔ _
    rw [hbefore, hloop, hexpand, append_cancel_left_eq, ← hs]
    exact (unEscapeLoop_expand _ le_rfl hfuel).2 hhead

/-! ## What was escaped -/

theorem escapedChar_spec : ∀ c, (isXmlChar c = true → c ≠ byte '&') ∧ (isXmlChar c = false →
    (readEntity ((escapedChar c).drop 1)).map (fun found => (found.1.char, found.2)) =
      some (some c, []) ∧ (escapedChar c).head? = some (byte '&')) := by
  decide +kernel

theorem escapedChar_eq_reference (hc : isXmlChar c = false) :
    ∃ e : Entity, e.Valid ∧ e.char = some c ∧ escapedChar c = e.reference := by
  obtain ⟨hsome, hhead⟩ := (escapedChar_spec c).2 hc
  obtain ⟨⟨e, rest⟩, hentity, heq⟩ := Option.map_eq_some_iff.mp hsome
  have hchar : e.char = some c := (Prod.mk.inj heq).1
  have hrest : rest = [] := (Prod.mk.inj heq).2
  obtain ⟨he, htail⟩ := readEntity_eq_some hentity
  refine ⟨e, he, hchar, ?_⟩
  obtain ⟨tail, htext⟩ := head?_eq_some_iff.mp hhead
  rw [htext] at htail ⊢
  rw [drop_one, tail_cons] at htail
  rw [htail, hrest]
  rfl

theorem expand_xmlEscape (source : Text) :
    expand (xmlEscape source) = source ∧ allExpanded (xmlEscape source) = true := by
  induction source with
  | nil => exact ⟨rfl, rfl⟩
  | cons c source ih =>
    obtain ⟨hexpand, hall⟩ := ih
    rw [xmlEscape, flatMap_cons]
    show expand (_ ++ xmlEscape source) = _ ∧ allExpanded (_ ++ xmlEscape source) = true
    by_cases hc : isXmlChar c = true
    · have hw : ∀ d ∈ [c], d ≠ byte '&' := fun d hd =>
        mem_singleton.mp hd ▸ (escapedChar_spec c).1 hc
      rw [if_pos hc, expand_append hw, hexpand, allExpanded_append hw, hall]
      exact ⟨rfl, rfl⟩
    · obtain ⟨e, he, hchar, hreference⟩ :=
        escapedChar_eq_reference (Bool.eq_false_iff.mpr hc)
      rw [if_neg hc, hreference, expand_reference he hchar, allExpanded_reference he, hchar,
        hexpand, hall]
      exact ⟨rfl, rfl⟩

theorem allExpanded_fromFirstEntity (h : allExpanded s = true) :
    allExpanded (fromFirstEntity s) = true := by
  induction s with
  | nil => rfl
  | cons c cs ih =>
    rw [fromFirstEntity]
    split
    · exact h
    · rw [allExpanded, Bool.and_eq_true] at h
      exact ih h.2

/-- The bytes that must not stand in escaped text. -/
def isRaw : Byte → Bool := oneOf "<>\x22'"

theorem isRaw_xmlEscape (source : Text) : ∀ c ∈ xmlEscape source, isRaw c = false := by
  have hbyte : ∀ b, ∀ c ∈ (if isXmlChar b then [b] else escapedChar b), isRaw c = false := by
    decide +kernel
  intro c hc
  obtain ⟨b, -, hb⟩ := mem_flatMap.mp hc
  exact hbyte b c hb

/-- **Escaping and unescaping**: what was escaped has no raw bracket or quote and is read back, and
a text is unescaped with all else in place exactly if no entity stands in it, or each ampersand
from the first one on starts an entity of a byte. -/
theorem xmlUnEscape_iff (source : Text) :
    (xmlUnEscape (xmlEscape source) = source ∧ ∀ c ∈ xmlEscape source, isRaw c = false) ∧
      (xmlUnEscape source = expand source ↔ allExpanded (fromFirstEntity source) = true) := by
  obtain ⟨hexpand, hall⟩ := expand_xmlEscape source
  refine ⟨⟨?_, isRaw_xmlEscape source⟩, xmlUnEscape_eq_expand_iff source⟩
  rw [(xmlUnEscape_eq_expand_iff (xmlEscape source)).mpr (allExpanded_fromFirstEntity hall)]
  exact hexpand

/-- A bare ampersand behind an entity is lost with what follows it, and a number out of range loses
its frame. -/
theorem not_xmlUnEscape_eq_expand :
    (expand (text "1 &lt; 2 & 3") = text "1 < 2 & 3" ∧
        xmlUnEscape (text "1 &lt; 2 & 3") ≠ text "1 < 2 & 3") ∧
      (expand (text "&#300;") = text "&#300;" ∧ xmlUnEscape (text "&#300;") ≠ text "&#300;") := by
  have hbare : expand (text "1 &lt; 2 & 3") = text "1 < 2 & 3" := by decide
  have hrange : expand (text "&#300;") = text "&#300;" := by decide
  refine ⟨⟨hbare, fun h => ?_⟩, ⟨hrange, fun h => ?_⟩⟩
  · rw [← hbare, xmlUnEscape_eq_expand_iff] at h
    exact absurd h (by decide)
  · have h := h.trans hrange.symm
    rw [xmlUnEscape_eq_expand_iff] at h
    exact absurd h (by decide)

end SipXRouter
