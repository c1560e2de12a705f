import SipXRouter.Net.UrlParse

/-!
# Printed name-addrs are read again

The display name and the field parameters that `Url::toString` prints are read again by
`Url::fromString`, if they need no escape that the printer leaves out.  The parser is
followed through the expressions for both, and the loop over the parameters.
-/

namespace SipXRouter

open List

variable {body tail value w : Text}

namespace Url

open Pattern

/-! ## Display names -/

/-- A token of the SIP grammar. -/
def IsToken (s : Text) : Prop := s ≠ [] ∧ ∀ c ∈ s, isTokenByte c = true

instance (s : Text) : Decidable (IsToken s) := inferInstanceAs (Decidable (_ ∧ _))

/-- Tokens with blanks between them. -/
inductive IsWords : Text → Prop where
  | token {w : Text} (hw : IsToken w) : IsWords w
  | cons {w blanks rest : Text} (hw : IsToken w) (hne : blanks ≠ [])
      (hblanks : ∀ c ∈ blanks, isSpace c = true) (hrest : IsWords rest) :
      IsWords (w ++ (blanks ++ rest))

/-- The inside of a quoted string: a quote stands only behind a backslash, and a backslash
stands before a byte that does not end the line. -/
def isQuotedText : Text → Bool
  | [] => true
  | c :: cs =>
    if c = byte '\\' then
      match cs with
      | [] => false
      | d :: ds => d != byte '\n' && isQuotedText ds
    else c != byte '"' && isQuotedText cs

/-- The display names that the parser takes. -/
inductive IsDisplayName : Text → Prop where
  | absent : IsDisplayName []
  | words {w : Text} (hw : IsWords w) : IsDisplayName w
  | quoted {body : Text} (hbody : isQuotedText body = true) :
      IsDisplayName (byte '"' :: body ++ [byte '"'])

/-- The words of a display name, as the expression has them. -/
def wordsPattern : Pattern := cat [sipToken, star (seq lws sipToken)]

/-- The bytes of a quoted string that need no backslash. -/
def isPlainQuoted (c : Byte) : Bool := c != byte '\\' && c != byte '"'

/-- The inside of a quoted display name, as the expression has it. -/
def quotedPattern : Pattern :=
  star (alt (possessive isPlainQuoted) (seq (lit "\\") anyByte))

theorem displayNameRegex_eq :
    displayNameRegex = cat [sws, alt (group 1 wordsPattern)
      (cat [lit "\"", group 2 quotedPattern, lit "\""]), look (seq sws (lit "<"))] := rfl

section Words

theorem isTokenByte_of_isSpace (c : Byte) (hc : isSpace c = true) : isTokenByte c = false := by
  have hspaces : ∀ c ∈ text " \t\n\x0c\r", isTokenByte c = false := by decide
  exact hspaces c (by simpa [isSpace, oneOf] using hc)

theorem isSpace_of_isTokenByte (c : Byte) (hc : isTokenByte c = true) : isSpace c = false := by
  exact oneOf_of_class hc (by decide)

theorem head?_eq_of_isToken (hw : IsToken w) (tail : Text) :
    ∀ c ∈ (w ++ tail).head?, isTokenByte c = true := by
  obtain ⟨c, w, rfl⟩ := exists_cons_of_ne_nil hw.1
  intro d hd
  rw [cons_append, head?_cons, Option.mem_some_iff] at hd
  rw [← hd]
  exact hw.2 c (by simp)

theorem head?_of_isWords (hw : IsWords w) (tail : Text) :
    ∀ c ∈ (w ++ tail).head?, isTokenByte c = true := by
  cases hw with
  | token hw => exact head?_eq_of_isToken hw tail
  | cons hw hne hblanks hrest =>
    rw [append_assoc]
    exact head?_eq_of_isToken hw _

theorem head?_of_blanks {blanks : Text} (hne : blanks ≠ [])
    (hblanks : ∀ c ∈ blanks, isSpace c = true) (tail : Text) :
    ∀ c ∈ (blanks ++ tail).head?, isTokenByte c = false := by
  obtain ⟨b, bs, rfl⟩ := exists_cons_of_ne_nil hne
  intro c hc
  rw [cons_append, head?_cons, Option.mem_some_iff] at hc
  rw [← hc]
  exact isTokenByte_of_isSpace b (hblanks b (by simp))

theorem head?_run_sipToken (hw : IsToken w)
    (htail : ∀ c ∈ tail.head?, isTokenByte c = false) (n : Nat) :
    (run sipToken n (w ++ tail)).head? = some ⟨w, tail, []⟩ := by
  rw [sipToken, run_possessive hw.1 hw.2 htail]
  rfl

theorem head?_run_moreWords_of_end (htail : ∀ c ∈ tail.head?, isSpace c = false)
    (n : Nat) : (run (star (seq lws sipToken)) n tail).head? = some ⟨[], tail, []⟩ := by
  have hblanks : run lws n tail = [] := run_seq_eq_nil (run_cls_eq_nil htail)
  rw [run_star_eq_nil (run_seq_eq_nil hblanks)]
  rfl

theorem head?_run_oneWord {blanks : Text} (hne : blanks ≠ [])
    (hblanks : ∀ c ∈ blanks, isSpace c = true) (hw : IsToken w)
    (htail : ∀ c ∈ tail.head?, isTokenByte c = false) (n : Nat) :
    (run (seq lws sipToken) n (blanks ++ (w ++ tail))).head? = some ⟨blanks ++ w, tail, []⟩ := by
  have hspace : ∀ c ∈ (w ++ tail).head?, isSpace c = false := fun c hc =>
    isSpace_of_isTokenByte c (head?_eq_of_isToken hw tail c hc)
  exact head?_run_seq (head?_run_plus_cls hne hblanks hspace n) (head?_run_sipToken hw htail _)

theorem head?_run_moreWords {rest : Text} (hrest : IsWords rest)
    (htail : ∀ c ∈ tail.head?, isTokenByte c = false ∧ isSpace c = false) :
    ∀ {blanks : Text}, blanks ≠ [] → (∀ c ∈ blanks, isSpace c = true) → ∀ n,
      (run (star (seq lws sipToken)) n (blanks ++ (rest ++ tail))).head? =
        some ⟨blanks ++ rest, tail, []⟩ := by
  induction hrest with
  | @token w hw =>
    intro blanks hne hblanks n
    have hpiece := head?_run_oneWord hne hblanks hw (fun c hc => (htail c hc).1) n
    have h := head?_run_star hpiece (by simp [hne])
      (head?_run_moreWords_of_end (fun c hc => (htail c hc).2) _)
    exact h.trans (by simp [Match.append])
  | @cons w blanks' rest hw hne' hblanks' hrest ih =>
    intro blanks hne hblanks n
    have hpiece := head?_run_oneWord hne hblanks hw
      (head?_of_blanks hne' hblanks' (rest ++ tail)) n
    have h := head?_run_star hpiece (by simp [hne]) (ih hne' hblanks' _)
    rw [append_assoc w, append_assoc blanks']
    exact h.trans (by simp [Match.append])

theorem head?_run_words (hw : IsWords w)
    (htail : ∀ c ∈ tail.head?, isTokenByte c = false ∧ isSpace c = false) (n : Nat) :
    (run wordsPattern n (w ++ tail)).head? = some ⟨w, tail, []⟩ := by
  have hdone : ∀ n, (run (cat []) n tail).head? = some ⟨[], tail, []⟩ := fun n => rfl
  cases hw with
  | token hw =>
    have hend := head?_run_moreWords_of_end fun c hc => (htail c hc).2
    have h := head?_run_seq (head?_run_sipToken hw (fun c hc => (htail c hc).1) n)
      (head?_run_seq (hend _) (hdone _))
    exact h.trans (by simp [Match.append])
  | @cons w blanks rest hw hne hblanks hrest =>
    have hfirst := head?_run_sipToken hw (head?_of_blanks hne hblanks (rest ++ tail)) n
    have h := head?_run_seq hfirst
      (head?_run_seq (head?_run_moreWords hrest htail hne hblanks _) (hdone _))
    rw [append_assoc, append_assoc]
    exact h.trans (by simp [Match.append])

theorem isWords_of_mem_lang (hw : w ∈ lang wordsPattern) : IsWords w := by
  obtain ⟨first, hfirst, v, hv, rfl⟩ := mem_lang_seq.mp hw
  obtain ⟨more, hmore, e, he, rfl⟩ := mem_lang_seq.mp hv
  rw [mem_lang_eps.mp he, append_nil]
  obtain ⟨pieces, rfl, hpieces⟩ := Language.mem_kstar.mp hmore
  have htoken : IsToken first := mem_lang_plus_cls.mp hfirst
  clear hmore hv hw he hfirst
  induction pieces generalizing first with
  | nil =>
    rw [flatten_nil, append_nil]
    exact .token htoken
  | cons piece pieces ih =>
    obtain ⟨blanks, hblanks, w, hw, hpiece⟩ := mem_lang_seq.mp (hpieces piece (by simp))
    obtain ⟨hne, hspace⟩ := mem_lang_plus_cls.mp hblanks
    rw [flatten_cons, ← hpiece, append_assoc]
    exact .cons htoken hne hspace
      (ih w (fun y hy => hpieces y (by simp [hy])) (mem_lang_plus_cls.mp hw))

end Words

section Quoted

theorem isQuotedText_plain {c : Byte} (hc : isPlainQuoted c = true) (cs : Text) :
    isQuotedText (c :: cs) = isQuotedText cs := by
  simp only [isPlainQuoted, Bool.and_eq_true, bne_iff_ne, ne_eq] at hc
  rw [isQuotedText.eq_def]
  simp [hc.1, hc.2]

theorem isQuotedText_escaped (d : Byte) (ds : Text) :
    isQuotedText (byte '\\' :: d :: ds) = (d != byte '\n' && isQuotedText ds) := by
  rw [isQuotedText.eq_def]
  simp

theorem isQuotedText_append_plain (hw : ∀ c ∈ w, isPlainQuoted c = true) (t : Text) :
    isQuotedText (w ++ t) = isQuotedText t := by
  induction w with
  | nil => rfl
  | cons c w ih =>
    rw [cons_append, isQuotedText_plain (hw c (by simp))]
    exact ih fun d hd => hw d (by simp [hd])

theorem isQuotedText_of_mem_lang (hbody : body ∈ lang quotedPattern) :
    isQuotedText body = true := by
  obtain ⟨pieces, rfl, hpieces⟩ := Language.mem_kstar.mp hbody
  clear hbody
  induction pieces with
  | nil => rfl
  | cons piece pieces ih =>
    have hrest := ih fun y hy => hpieces y (by simp [hy])
    rw [flatten_cons]
    rcases hpieces piece (by simp) with hpiece | hpiece
    · rw [isQuotedText_append_plain (mem_lang_plus_cls.mp hpiece).2]
      exact hrest
    · obtain ⟨u, hu, v, ⟨d, hd, rfl⟩, rfl⟩ := mem_lang_seq.mp hpiece
      rw [mem_lang_lit.mp hu]
      refine (isQuotedText_escaped d pieces.flatten).trans (Bool.and_eq_true_iff.mpr ⟨hd, hrest⟩)

theorem head?_run_quotedPiece (tail : Text) {s : Text} (hne : s ≠ []) (hs : isQuotedText s = true) :
    ∃ w t, s = w ++ t ∧ w ≠ [] ∧ isQuotedText t = true ∧
      ∀ n, (run (alt (possessive isPlainQuoted) (seq (lit "\\") anyByte)) n
        (s ++ byte '"' :: tail)).head? = some ⟨w, t ++ byte '"' :: tail, []⟩ := by
  obtain ⟨c, cs, rfl⟩ := exists_cons_of_ne_nil hne
  by_cases hc : isPlainQuoted c = true
  · obtain ⟨w, t, rfl, hw, ht⟩ := exists_span isPlainQuoted cs
    have hcw : ∀ d ∈ c :: w, isPlainQuoted d = true := by simpa [hc] using hw
    have htail : ∀ d ∈ (t ++ byte '"' :: tail).head?, isPlainQuoted d = false := by
      intro d hd
      rcases t with - | ⟨e, t⟩
      · rw [nil_append, head?_cons, Option.mem_some_iff] at hd
        subst hd
        decide
      · exact ht d hd
    refine ⟨c :: w, t, rfl, by simp, ?_, fun n => ?_⟩
    · rw [← isQuotedText_append_plain hcw]
      exact hs
    · have hassoc : c :: (w ++ t) ++ byte '"' :: tail = c :: w ++ (t ++ byte '"' :: tail) := by simp
      rw [hassoc, head?_run_alt, run_possessive (cons_ne_nil c w) hcw htail n]
      rfl
  · have hback : c = byte '\\' := by
      by_contra hcon
      rw [isQuotedText.eq_def] at hs
      simp only [hcon, if_false, Bool.and_eq_true, bne_iff_ne, ne_eq] at hs
      exact hc (by simp [isPlainQuoted, hcon, hs.1])
    subst hback
    rcases cs with - | ⟨d, ds⟩
    · simp [isQuotedText] at hs
    · rw [isQuotedText_escaped, Bool.and_eq_true] at hs
      refine ⟨[byte '\\', d], ds, rfl, by simp, hs.2, fun n => ?_⟩
      have hlit : (run (lit "\\") n (byte '\\' :: d :: (ds ++ byte '"' :: tail))).head? =
          some ⟨[byte '\\'], d :: (ds ++ byte '"' :: tail), []⟩ := rfl
      have hany : ∀ n, (run anyByte n (d :: (ds ++ byte '"' :: tail))).head? =
          some ⟨[d], ds ++ byte '"' :: tail, []⟩ := by
        intro n
        rw [anyByte, run_cls_cons (p := (· != byte '\n')) hs.1]
        rfl
      have hplain : ∀ e ∈ (byte '\\' :: d :: (ds ++ byte '"' :: tail)).head?,
          isPlainQuoted e = false := by
        intro e he
        rw [head?_cons, Option.mem_some_iff] at he
        subst he
        decide
      rw [cons_append, cons_append, head?_run_alt, run_possessive_eq_nil hplain]
      exact head?_run_seq hlit (hany _)

theorem head?_run_quoted (hbody : isQuotedText body = true) (tail : Text) (n : Nat) :
    (run quotedPattern n (body ++ byte '"' :: tail)).head? = some ⟨body, byte '"' :: tail, []⟩ :=
  head?_run_star_of_pieces (P := fun s => isQuotedText s = true) (fun _ => rfl)
    (fun _ hne hs => head?_run_quotedPiece tail hne hs) hbody n

end Quoted

theorem isDisplayName_parseDisplayName {st : ParseState} (hst : IsDisplayName st.url.displayName) :
    IsDisplayName (parseDisplayName st).url.displayName := by
  unfold parseDisplayName
  cases hm : matchAt displayNameRegex st.rest with
  | none => exact hst
  | some m =>
    have hgroup (k : Nat) (body : Pattern) (hbody : ∀ b, (k, b) ∈ groups displayNameRegex → b = body)
        {t : Text} (ht : m.group k = some t) : t ∈ lang body := by
      obtain ⟨b, hb, hlang⟩ := exists_of_group (mem_run_of_matchAt hm) ht
      rw [← hbody b hb]
      exact hlang
    have hgroups : groups displayNameRegex = [(1, wordsPattern), (2, quotedPattern)] := rfl
    dsimp only
    split
    · cases hwords : m.group 1 with
      | none => exact .absent
      | some w => exact .words (isWords_of_mem_lang (hgroup 1 _ (by simp [hgroups]) hwords))
    · cases hquoted : m.group 2 with
      | none => exact .quoted rfl
      | some body => exact .quoted (isQuotedText_of_mem_lang (hgroup 2 _ (by simp [hgroups]) hquoted))
    · exact .absent

theorem matchAt_displayName_words (hw : IsWords w) (s : Text) :
    matchAt displayNameRegex (w ++ byte '<' :: s) = some ⟨w, byte '<' :: s, [(1, w)]⟩ := by
  have hblank := head?_run_sws (fun c hc =>
    isSpace_of_isTokenByte c (head?_of_isWords hw (byte '<' :: s) c hc)) 0
  have hbracket : ∀ c ∈ (byte '<' :: s).head?, isTokenByte c = false ∧ isSpace c = false := by
    intro c hc
    rw [head?_cons, Option.mem_some_iff] at hc
    subst hc
    decide
  have hwords := head?_run_alt_left (b := cat [lit "\"", group 2 quotedPattern, lit "\""])
    (head?_run_group (k := 1) (head?_run_words hw hbracket 0))
  have hlook : ∀ n, (run (cat [look (seq sws (lit "<"))]) n (byte '<' :: s)).head? =
      some ⟨[], byte '<' :: s, []⟩ := fun n => rfl
  have h := head?_run_seq hblank (head?_run_seq hwords (hlook _))
  exact h.trans (by simp [Match.append])

theorem matchAt_displayName_quoted (hbody : isQuotedText body = true) (s : Text) :
    matchAt displayNameRegex (byte '"' :: (body ++ byte '"' :: byte '<' :: s)) =
      some ⟨byte '"' :: (body ++ [byte '"']), byte '<' :: s, [(2, body)]⟩ := by
  generalize hmore : body ++ byte '"' :: byte '<' :: s = more
  have hblank := head?_run_sws (by simp; decide : ∀ c ∈ (byte '"' :: more).head?, isSpace c = false) 0
  have hwords : run (group 1 wordsPattern) 0 (byte '"' :: more) = [] := rfl
  have hopen : (run (lit "\"") 0 (byte '"' :: more)).head? = some ⟨[byte '"'], more, []⟩ := rfl
  have hinside := head?_run_group (k := 2) (head?_run_quoted hbody (byte '<' :: s) 1)
  have hclose : ∀ n, (run (cat [lit "\""]) n (byte '"' :: byte '<' :: s)).head? =
      some ⟨[byte '"'], byte '<' :: s, []⟩ := fun n => rfl
  have hlook : ∀ n, (run (cat [look (seq sws (lit "<"))]) n (byte '<' :: s)).head? =
      some ⟨[], byte '<' :: s, []⟩ := fun n => rfl
  rw [hmore] at hinside
  have hquoted := head?_run_seq hopen (head?_run_seq hinside (hclose _))
  rw [← run_alt_right hwords] at hquoted
  have h := head?_run_seq hblank (head?_run_seq hquoted (hlook _))
  exact h.trans (by simp [Match.append])

/-- **A display name is read again** in front of a bracket. -/
theorem parseDisplayName_append {name : Text} (hname : IsDisplayName name) (s : Text) :
    parseDisplayName { url := {}, rest := name ++ byte '<' :: s } =
      { url := { displayName := name }, rest := byte '<' :: s } := by
  unfold parseDisplayName
  cases hname with
  | absent => rw [nil_append, matchAt_displayName_bracket]
  | words hw =>
    rw [matchAt_displayName_words hw]
    rfl
  | @quoted body hbody =>
    have hassoc : byte '"' :: body ++ [byte '"'] ++ byte '<' :: s =
        byte '"' :: (body ++ byte '"' :: byte '<' :: s) := by simp
    rw [hassoc, matchAt_displayName_quoted hbody]
    rfl

/-! ## Field parameters -/

/-- The bytes of a field parameter value that the printer leaves as they are. -/
def isPlainByte (c : Byte) : Bool := !oneOf "\"\\\n" c

/-- The values that are printed as they are: without the two bytes that the printer escapes,
and without a newline behind what needs no quotes. -/
def IsKeptValue (value : Text) : Prop :=
  (∀ c ∈ value, isPlainQuoted c = true) ∧
    ∀ w, value = w ++ [byte '\n'] → ¬ (IsToken w ∨ IsHost w)

theorem isKeptValue_of_isPlainByte (hvalue : ∀ c ∈ value, isPlainByte c = true) :
    IsKeptValue value := by
  refine ⟨fun c hc => ?_, ?_⟩
  · have hback := ne_of_class (b := byte '\\') (hvalue c hc) (by decide)
    have hquote := ne_of_class (b := byte '"') (hvalue c hc) (by decide)
    simp [isPlainQuoted, hback, hquote]
  · rintro w rfl -
    exact absurd (hvalue (byte '\n') (by simp)) (by decide)

theorem isToken_of_isDomain {d : Text} (hd : IsDomain d) : IsToken d := by
  have hlabel : ∀ c, isLabelByte c = true → isTokenByte c = true := by
    intro c hc
    rw [isLabelByte, Bool.or_eq_true] at hc
    rcases hc with hc | hc
    · rw [isTokenByte, hc, Bool.true_or]
    · rw [eq_of_beq hc]
      decide
  have htoken {l : Text} (hl : isLabel l = true) : IsToken l := by
    refine ⟨?_, fun c hc => hlabel c (bytes_of_isLabel hl c hc)⟩
    rintro rfl
    simp [isLabel] at hl
  have hdot : isTokenByte (byte '.') = true := by decide
  induction hd with
  | label hl => exact htoken hl
  | dot hl =>
    refine ⟨by simp, fun c hc => ?_⟩
    rcases mem_append.mp hc with hc | hc
    · exact (htoken hl).2 c hc
    · rw [mem_singleton.mp hc]
      exact hdot
  | cons hl _ ih =>
    refine ⟨by simp, fun c hc => ?_⟩
    rcases mem_append.mp hc with hc | hc
    · exact (htoken hl).2 c hc
    · rcases mem_cons.mp hc with rfl | hc
      · exact hdot
      · exact ih.2 c hc

theorem exists_of_okUnquoted (hok : (search fieldParamValueOkUnquotedRegex value).isSome = true) :
    ∃ body tail, value = body ++ tail ∧ (IsToken body ∨ IsHost body) ∧
      (tail = [] ∨ tail = [byte '\n']) := by
  obtain ⟨m, hm⟩ := Option.isSome_iff_exists.mp hok
  have hmatch : matchAt fieldParamValueOkUnquotedRegex value = some m :=
    (search_bol _ _).symm.trans hm
  obtain ⟨_, hbol, t₁, htail₁, rfl⟩ := mem_run_seq.mp (mem_run_of_matchAt hmatch)
  obtain ⟨-, rfl⟩ := mem_run_bol.mp hbol
  obtain ⟨m₁, hm₁, t₂, htail₂, rfl⟩ := mem_run_seq.mp htail₁
  obtain ⟨_, heol, -, -, -⟩ := mem_run_seq.mp htail₂
  exact ⟨m₁.text, m₁.rest, append_of_mem_run hm₁,
    (text_mem_lang hm₁).imp mem_lang_plus_cls.mp isHost_of_mem_lang, (mem_run_eol.mp heol).1⟩

theorem unquoted_cases (hkept : IsKeptValue value)
    (hok : (search fieldParamValueOkUnquotedRegex value).isSome = true) :
    IsToken value ∨ ∃ a, a ≠ [] ∧ (∀ c ∈ a, isIpv6Byte c = true) ∧
      value = byte '[' :: a ++ [byte ']'] := by
  obtain ⟨body, tail, hvalue, hbody, htail⟩ := exists_of_okUnquoted hok
  have hrest : tail = [] := by
    rcases htail with hnil | hnl
    · exact hnil
    · -- the expression lets a newline stand behind the value
      exact absurd hbody (hkept.2 body (hvalue.trans (by rw [hnl])))
  rw [hrest, append_nil] at hvalue
  rw [hvalue]
  rcases hbody with htoken | hhost
  · exact Or.inl htoken
  · cases hhost with
    | domain hd => exact Or.inl (isToken_of_isDomain hd)
    | ipv6 hne ha => exact Or.inr ⟨_, hne, ha, rfl⟩

theorem matchAt_unquoted_token (hvalue : IsToken value)
    (htail : ∀ c ∈ tail.head?, isTokenByte c = false) :
    matchAt fieldParamEqualsUnquotedValueRegex (byte '=' :: (value ++ tail)) =
      some ⟨byte '=' :: value, tail, [(1, value)]⟩ := by
  have hopen : (run (lit "=") 0 (byte '=' :: (value ++ tail))).head? =
      some ⟨[byte '='], value ++ tail, []⟩ := rfl
  have hblank := head?_run_sws fun c hc =>
    isSpace_of_isTokenByte c (head?_eq_of_isToken hvalue tail c hc)
  have htoken := head?_run_group (k := 1)
    (head?_run_alt_left (b := hostPattern) (head?_run_sipToken hvalue htail 1))
  have hend : ∀ n, (run (cat []) n tail).head? = some ⟨[], tail, []⟩ := fun n => rfl
  have h := head?_run_seq hopen (head?_run_seq (hblank _) (head?_run_seq htoken (hend _)))
  exact h.trans (by simp [Match.append])

theorem matchAt_unquoted_host {a : Text} (hne : a ≠ []) (ha : ∀ c ∈ a, isIpv6Byte c = true)
    (htail : ∀ c ∈ tail.head?, isLabelByte c = false ∧ c ≠ byte '.') :
    matchAt fieldParamEqualsUnquotedValueRegex (byte '=' :: (byte '[' :: a ++ [byte ']'] ++ tail)) =
      some ⟨byte '=' :: (byte '[' :: a ++ [byte ']']), tail, [(1, byte '[' :: a ++ [byte ']'])]⟩ := by
  have hopen (s : Text) : (run (lit "=") 0 (byte '=' :: s)).head? = some ⟨[byte '='], s, []⟩ := rfl
  have hblank := head?_run_sws (by simp; decide :
    ∀ c ∈ (byte '[' :: a ++ [byte ']'] ++ tail).head?, isSpace c = false)
  have hhost := head?_run_hostPattern (.ipv6 hne ha) htail 1
  have htoken : run sipToken 1 (byte '[' :: a ++ [byte ']'] ++ tail) = [] := rfl
  rw [← run_alt_right htoken] at hhost
  have hend : ∀ n, (run (cat []) n tail).head? = some ⟨[], tail, []⟩ := fun n => rfl
  have h := head?_run_seq (hopen _) (head?_run_seq (hblank _)
    (head?_run_seq (head?_run_group (k := 1) hhost) (hend _)))
  exact h.trans (by simp [Match.append])

theorem matchAt_unquoted_quote (s : Text) :
    matchAt fieldParamEqualsUnquotedValueRegex (byte '=' :: byte '"' :: s) = none := by
  have hopen : run (lit "=") 0 (byte '=' :: byte '"' :: s) = [⟨[byte '='], byte '"' :: s, []⟩] := rfl
  have hblank : run sws 1 (byte '"' :: s) = [⟨[], byte '"' :: s, []⟩] := rfl
  have htoken : run sipToken 1 (byte '"' :: s) = [] := rfl
  have hdomain : run (seq (star (seq domainLabel (lit "."))) domainEnd) 1 (byte '"' :: s) = [] := rfl
  have hipv4 : run ipv4Pattern 1 (byte '"' :: s) = [] := rfl
  have hipv6 : run ipv6Pattern 1 (byte '"' :: s) = [] := rfl
  have hvalue : run (group 1 (alt sipToken hostPattern)) 1 (byte '"' :: s) = [] := by
    rw [run, run_alt_right htoken, hostPattern_eq, run_alt_right hdomain, run_alt_right hipv4, hipv6,
      map_nil]
  have hrest : run (cat [sws, group 1 (alt sipToken hostPattern)]) 1 (byte '"' :: s) = [] := by
    refine (run_seq_of_singleton hblank).trans ?_
    rw [map_eq_nil_iff]
    exact run_seq_eq_nil hvalue
  have hrun : run fieldParamEqualsUnquotedValueRegex 0 (byte '=' :: byte '"' :: s) = [] := by
    refine (run_seq_of_singleton hopen).trans ?_
    rw [map_eq_nil_iff]
    exact hrest
  rw [matchAt, hrun, head?_nil]

theorem matchAt_quoted (hne : value ≠ [])
    (hvalue : ∀ c ∈ value, isPlainQuoted c = true) (tail : Text) :
    matchAt fieldParamEqualsQuotedValueRegex (byte '=' :: byte '"' :: (value ++ byte '"' :: tail)) =
      some ⟨byte '=' :: byte '"' :: (value ++ [byte '"']), tail,
        [(1, byte '"' :: (value ++ [byte '"']))]⟩ := by
  have hbyte : ∀ c, isPlainQuoted c = true → (c != byte '"') = true :=
    fun c hc => bne_iff_ne.mpr (ne_of_class hc (by decide))
  have hopen (s : Text) : (run (lit "=") 0 (byte '=' :: s)).head? = some ⟨[byte '='], s, []⟩ := rfl
  have hblank (s : Text) (n : Nat) := head?_run_sws (by simp; decide :
    ∀ c ∈ (byte '"' :: s).head?, isSpace c = false) n
  have hquote (s : Text) (n : Nat) : (run (lit "\"") n (byte '"' :: s)).head? =
      some ⟨[byte '"'], s, []⟩ := rfl
  have hrun : ∀ n, (run (alt (possessive (· != byte '"')) (seq (lit "\\") anyByte)) n
      (value ++ byte '"' :: tail)).head? = some ⟨value, byte '"' :: tail, []⟩ := by
    intro n
    rw [head?_run_alt, run_possessive hne (fun c hc => hbyte c (hvalue c hc)) (by simp)]
    rfl
  have hstop : ∀ n, (run (star (alt (possessive (· != byte '"')) (seq (lit "\\") anyByte))) n
      (byte '"' :: tail)).head? = some ⟨[], byte '"' :: tail, []⟩ := fun n => rfl
  have hbody := fun n => head?_run_star (hrun n) (by simpa using hne) (hstop _)
  have hclose : ∀ n, (run (cat [lit "\""]) n (byte '"' :: tail)).head? =
      some ⟨[byte '"'], tail, []⟩ := fun n => rfl
  have hend : ∀ n, (run (cat []) n tail).head? = some ⟨[], tail, []⟩ := fun n => rfl
  have hgroup := head?_run_group (k := 1) (head?_run_seq (hquote (value ++ byte '"' :: tail) 1)
    (head?_run_seq (hbody _) (hclose _)))
  have h := head?_run_seq (hopen _) (head?_run_seq (hblank _ _) (head?_run_seq hgroup (hend _)))
  exact h.trans (by simp [Match.append])

theorem unquote_append (hvalue : ∀ c ∈ value, isPlainQuoted c = true) (tail : Text) :
    unquote (value ++ byte '"' :: tail) = value := by
  have hbyte : ∀ c, isPlainQuoted c = true → c ≠ byte '\\' ∧ c ≠ byte '"' :=
    fun c hc => ⟨ne_of_class hc (by decide), ne_of_class hc (by decide)⟩
  induction value with
  | nil =>
    rw [nil_append, unquote.eq_def]
    rfl
  | cons c value ih =>
    obtain ⟨hback, hquote⟩ := hbyte c (hvalue c (by simp))
    rw [cons_append, unquote.eq_def]
    simp only [hback, hquote, if_false]
    rw [ih fun d hd => hvalue d (by simp [hd])]

/-- **A value is read again** in front of the next parameter or the end. -/
theorem parseFieldParamValue_printed (junk : Byte) (hne : value ≠ [])
    (hkept : IsKeptValue value) (htail : ∀ c ∈ tail.head?, c = byte ';') :
    ∃ raw, parseFieldParamValue (byte '=' :: (genValueEscape junk value ++ tail)) = (raw, tail) ∧
      genValueUnescape raw = value := by
  have hsemi : ∀ c ∈ tail.head?, isTokenByte c = false ∧ isLabelByte c = false ∧ c ≠ byte '.' := by
    intro c hc
    rw [htail c hc]
    decide
  unfold genValueEscape
  split
  · next hok =>
      rcases unquoted_cases hkept hok with htoken | ⟨a, ha, hbytes, rfl⟩
      · refine ⟨value, ?_, ?_⟩
        · unfold parseFieldParamValue
          rw [matchAt_unquoted_token htoken fun c hc => (hsemi c hc).1]
          rfl
        · obtain ⟨c, value, rfl⟩ := exists_cons_of_ne_nil hne
          have hquote : c ≠ byte '"' := by
            rintro rfl
            exact absurd (htoken.2 _ mem_cons_self) (by decide)
          rw [genValueUnescape, if_neg hquote]
      · refine ⟨byte '[' :: a ++ [byte ']'], ?_, rfl⟩
        unfold parseFieldParamValue
        rw [matchAt_unquoted_host ha hbytes fun c hc => (hsemi c hc).2]
        rfl
  · have hescaped : (value.flatMap fun c => if c = byte '"' ∨ c = byte '\\' then [c, junk] else [c]) =
        value := by
      have hbyte : ∀ c, isPlainQuoted c = true → ¬ (c = byte '"' ∨ c = byte '\\') := by
        rintro c hc (rfl | rfl)
        · exact absurd hc (by decide)
        · exact absurd hc (by decide)
      rw [flatMap_congr fun c hc => if_neg (hbyte c (hkept.1 c hc)), flatMap_singleton']
    rw [hescaped]
    refine ⟨byte '"' :: (value ++ [byte '"']), ?_, ?_⟩
    · have hassoc : byte '"' :: value ++ [byte '"'] ++ tail =
          byte '"' :: (value ++ byte '"' :: tail) := by simp
      unfold parseFieldParamValue
      rw [hassoc, matchAt_unquoted_quote, matchAt_quoted hne hkept.1]
      rfl
    · rw [genValueUnescape, if_pos rfl]
      exact unquote_append hkept.1 []

theorem matchAt_fieldParamName {name : Text} (hname : IsToken name)
    (htail : ∀ c ∈ tail.head?, isTokenByte c = false ∧ isSpace c = false) :
    matchAt fieldParamNameRegex (byte ';' :: (name ++ tail)) =
      some ⟨byte ';' :: name, tail, [(1, name)]⟩ := by
  have hblank := head?_run_sws (by simp; decide :
    ∀ c ∈ (byte ';' :: (name ++ tail)).head?, isSpace c = false) 0
  have hopen : ∀ n, (run (lit ";") n (byte ';' :: (name ++ tail))).head? =
      some ⟨[byte ';'], name ++ tail, []⟩ := fun n => rfl
  have hblank' := head?_run_sws fun c hc =>
    isSpace_of_isTokenByte c (head?_eq_of_isToken hname tail c hc)
  have htoken := fun n => head?_run_group (k := 1)
    (head?_run_sipToken hname (fun c hc => (htail c hc).1) n)
  have hblank'' := head?_run_sws fun c hc => (htail c hc).2
  have hend : ∀ n, (run (cat []) n tail).head? = some ⟨[], tail, []⟩ := fun n => rfl
  have h := head?_run_seq hblank (head?_run_seq (hopen _) (head?_run_seq (hblank' _)
    (head?_run_seq (htoken _) (head?_run_seq (hblank'' _) (hend _)))))
  exact h.trans (by simp [Match.append])

/-- The field parameters, as they are printed. -/
def fieldText (junk : Byte) (params : List (Text × Text)) : Text :=
  params.flatMap fun nv => byte ';' :: paramText (genValueEscape junk) nv

theorem head?_fieldText (junk : Byte) (params : List (Text × Text)) :
    ∀ c ∈ (fieldText junk params).head?, c = byte ';' := by
  cases params with
  | nil => simp [fieldText]
  | cons nv params =>
    intro c hc
    rw [fieldText, flatMap_cons, cons_append, head?_cons, Option.mem_some_iff] at hc
    exact hc.symm

/-- What a field parameter must be to survive. -/
structure IsKeptParam (nv : Text × Text) : Prop where
  name : IsToken nv.1
  value : IsKeptValue nv.2

/-- One round of the loop. -/
theorem parseFieldParams_cons (junk : Byte) {nv : Text × Text} (hnv : IsKeptParam nv)
    (params : List (Text × Text)) (fuel : Nat) (st : ParseState)
    (hscheme : st.url.scheme ≠ .unknown) (hrest : st.rest = fieldText junk (nv :: params)) :
    parseFieldParams (fuel + 1) st =
      parseFieldParams fuel
        { st with url := { st.url with fieldParameters := st.url.fieldParameters ++ [nv] }
                  rest := fieldText junk params } := by
  have hend : ∀ s, matchAt endUrlRegex (byte ';' :: s) = none := by
    intro s
    have hblank : run sws 0 (byte ';' :: s) = [⟨[], byte ';' :: s, []⟩] := rfl
    have hnl : byte ';' ≠ 10 := by decide
    rw [matchAt, endUrlRegex, run_seq_of_singleton hblank]
    simp [run, hnl]
  have hcomma : ∀ s, matchAt commaSeparatorRegex (byte ';' :: s) = none := fun s => rfl
  have hname : genValueUnescape nv.1 = nv.1 := by
    obtain ⟨c, cs, hcs⟩ := exists_cons_of_ne_nil hnv.name.1
    have hquote : c ≠ byte '"' := by
      intro hc
      have hbyte := hnv.name.2 c (by rw [hcs]; simp)
      rw [hc] at hbyte
      exact absurd hbyte (by decide)
    rw [hcs, genValueUnescape, if_neg hquote]
  obtain ⟨raw, hvalue, hraw⟩ : ∃ raw, parseFieldParamValue
      ((if nv.2 = [] then [] else byte '=' :: genValueEscape junk nv.2) ++ fieldText junk params) =
        (raw, fieldText junk params) ∧ genValueUnescape raw = nv.2 := by
    by_cases hnil : nv.2 = []
    · refine ⟨[], ?_, hnil.symm⟩
      rw [if_pos hnil, nil_append]
      have hhead := head?_fieldText junk params
      generalize fieldText junk params = tail at hhead ⊢
      rcases tail with - | ⟨c, tail⟩
      · rfl
      · rw [hhead c (by simp)]
        rfl
    · rw [if_neg hnil]
      exact parseFieldParamValue_printed junk hnil hnv.value (head?_fieldText junk params)
  have hbehind : ∀ c ∈ ((if nv.2 = [] then [] else byte '=' :: genValueEscape junk nv.2) ++
      fieldText junk params).head?, isTokenByte c = false ∧ isSpace c = false := by
    intro c hc
    by_cases hnil : nv.2 = []
    · rw [if_pos hnil, nil_append] at hc
      rw [head?_fieldText junk params c hc]
      decide
    · rw [if_neg hnil, cons_append, head?_cons, Option.mem_some_iff] at hc
      subst hc
      decide
  have hassoc : fieldText junk (nv :: params) = byte ';' :: (nv.1 ++
      ((if nv.2 = [] then [] else byte '=' :: genValueEscape junk nv.2) ++
        fieldText junk params)) := by
    simp [fieldText, paramText]
  rw [parseFieldParams, if_neg hscheme, hrest, hassoc, hend, hcomma,
    matchAt_fieldParamName hnv.name hbehind]
  dsimp only
  rw [hvalue]
  simp only [Match.group, lookup_cons_self, Option.getD_some, hname, hraw]

/-- **The field parameters are read again**, each in one round of the loop. -/
theorem parseFieldParams_printed (junk : Byte) {params : List (Text × Text)}
    (hparams : ∀ nv ∈ params, IsKeptParam nv) (fuel : Nat) (hfuel : params.length < fuel)
    (st : ParseState) (hscheme : st.url.scheme ≠ .unknown)
    (hrest : st.rest = fieldText junk params) :
    parseFieldParams fuel st =
      { st with url := { st.url with fieldParameters := st.url.fieldParameters ++ params }
                rest := [] } := by
  induction params generalizing fuel st with
  | nil =>
    obtain ⟨fuel, rfl⟩ := Nat.exists_eq_add_one.mpr hfuel
    have hend : matchAt endUrlRegex [] = some ⟨[], [], []⟩ := rfl
    rw [fieldText, flatMap_nil] at hrest
    rw [parseFieldParams, if_neg hscheme, hrest, hend, append_nil]
  | cons nv params ih =>
    obtain ⟨fuel, rfl⟩ := Nat.exists_eq_add_one.mpr (Nat.zero_lt_of_lt hfuel)
    have hnext := ih (fun x hx => hparams x (by simp [hx])) fuel (by simpa using hfuel)
      { st with url := { st.url with fieldParameters := st.url.fieldParameters ++ [nv] }
                rest := fieldText junk params } hscheme rfl
    refine (parseFieldParams_cons junk (hparams nv (by simp)) params fuel st hscheme hrest).trans
      (hnext.trans ?_)
    simp

theorem length_le_fieldText (junk : Byte) (params : List (Text × Text)) :
    params.length ≤ (fieldText junk params).length := by
  induction params with
  | nil => simp
  | cons nv params ih =>
    rw [fieldText, flatMap_cons, length_append, length_cons, length_cons]
    rw [fieldText] at ih
    omega

end Url

end SipXRouter
