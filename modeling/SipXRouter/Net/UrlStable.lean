import SipXRouter.Net.UrlRead

/-!
# Printing and reading again

A URI that was read, in either context and with any scheme, is printed and read again as a
`name-addr`.  Its parts are the same, but for a port that is no port number, which is not
printed.  The printer leaves some escapes out, and `Url.Survives` says where that matters.

## Design notes

* The brackets go around a URI with a display name or field parameters, and around a SIP URI
  with parameters.  The path is read over the closing bracket, so that only header parameters
  end it there.
* No NUL is printed, so that the parser sees the whole text.
-/

namespace SipXRouter

open List

namespace Url

open Pattern

/-! ## What is printed -/

/-- The port that is printed: one outside the range counts as none. -/
def printedPort (u : Url) : Int := if portIsValid u.hostPort then u.hostPort else portNone

def hostText (u : Url) : Text := u.hostAddress ++ (u.portText ++ u.path)

/-- The URL and header parameters, as they are printed. -/
def paramsText (u : Url) : Text :=
  urlParamsText u.urlParameters ++ headerParamsText u.headerOrQueryParameters

/-- Nothing that is printed is taken for something else: the parameter names need no escape,
the field parameter values none either; where there is no user, none is found in what follows;
the host pattern stops in front of the path; and the closing bracket ends a path only behind
header parameters. -/
structure Survives (u : Url) : Prop where
  urlNames : ∀ nv ∈ u.urlParameters, IsKeptName ";=%+?>," nv.1
  headerNames : ∀ nv ∈ u.headerOrQueryParameters, IsKeptName "&=%+>," nv.1
  fieldValues : ∀ nv ∈ u.fieldParameters, IsKeptValue nv.2
  user : u.userId = [] → u.scheme ≠ .file →
    matchAt usernameAndPasswordRegex (u.hostText ++ u.paramsText) = none
  host : u.hostPort ≠ portNone → u.path ≠ [] →
    ∃ m, matchAt hostAndPortRegex u.hostText = some m ∧ m.rest = u.path
  brackets : u.scheme.hasPath = true → u.needsBrackets = true →
    u.headerOrQueryParameters ≠ [] ∧ byte '>' ∉ u.path

/-- The `//` of the schemes that have it. -/
def slashes (u : Url) : Text := if u.scheme.hasPath then text "//" else []

/-- What is printed in front of the host. -/
def openingText (u : Url) : Text := u.scheme.name ++ byte ':' :: (u.slashes ++ u.userText)

/-- What is printed from the closing bracket on. -/
def closingText (u : Url) (junk : Byte) : Text :=
  if u.needsBrackets then byte '>' :: fieldText junk u.fieldParameters else []

/-- What the parser keeps of the text behind the brackets. -/
def afterBrackets (u : Url) (junk : Byte) : Option Text :=
  if u.needsBrackets then some (fieldText junk u.fieldParameters) else none

section Printed

variable {u : Url}

theorem fieldParameters_eq_nil (hnone : u.needsBrackets = false) : u.fieldParameters = [] := by
  simp only [needsBrackets, Bool.or_eq_false_iff, bne_eq_false_iff_eq] at hnone
  exact hnone.1.2

theorem toString_eq (hu : Accepted u) (junk : Byte) :
    u.toString junk = u.displayName ++ ((if u.needsBrackets then [byte '<'] else []) ++
      (u.openingText ++ (u.hostText ++ (u.paramsText ++ u.closingText junk)))) := by
  have hpath : (if u.scheme.hasPath then u.path else []) = u.path := by
    split
    · rfl
    · next hfalse => exact (hu.path_eq_nil (by simpa using hfalse)).symm
  rw [toString, getUri, hpath, closingText, openingText, hostText, paramsText, slashes]
  by_cases hbrackets : u.needsBrackets = true
  · simp [hbrackets, fieldText]
  · have hnone : u.needsBrackets = false := by simpa using hbrackets
    simp [hnone, fieldParameters_eq_nil hnone]

def isFrontByte (c : Byte) : Bool := isUserByte c || isHostByte c || oneOf "%:@" c

theorem bytes_of_userText (hu : Accepted u) : ∀ c ∈ u.userText, isFrontByte c = true := by
  have hescaped {p : Byte → Bool} (hp : ∀ c, p c = true → isUserByte c = true) {s : Text}
      (hs : isEscapedText p s = true) : ∀ c ∈ s, isFrontByte c = true := by
    intro c hc
    rcases bytes_of_isEscapedText hs c hc with hc | rfl | hc
    · rw [isFrontByte, hp c hc, Bool.true_or, Bool.true_or]
    · decide
    · simp [isFrontByte, isHostByte, isIpv6Byte, hc]
  have hpassword : ∀ c, isPasswordByte c = true → isUserByte c = true := by
    intro c hc
    rw [isUserByte, hc, Bool.true_or]
  intro c hc
  unfold userText at hc
  split at hc
  · simp at hc
  · simp only [mem_append, mem_singleton] at hc
    rcases hc with (hc | hc) | rfl
    · exact hescaped (fun _ h => h) hu.userId c hc
    · split at hc
      · simp at hc
      · rcases mem_cons.mp hc with rfl | hc
        · decide
        · exact hescaped hpassword hu.password c hc
    · decide

theorem bytes_of_openingText (hu : Accepted u) : ∀ c ∈ u.openingText, isFrontByte c = true := by
  have hname (scheme : Scheme) : ∀ c ∈ scheme.name, isFrontByte c = true := by
    cases scheme <;> decide
  have hslashes : ∀ c ∈ text "//", isFrontByte c = true := by decide
  intro c hc
  rcases mem_append.mp hc with hc | hc
  · exact hname u.scheme c hc
  · rcases mem_cons.mp hc with rfl | hc
    · decide
    · rcases mem_append.mp hc with hc | hc
      · unfold slashes at hc
        split at hc
        · exact hslashes c hc
        · simp at hc
      · exact bytes_of_userText hu c hc

theorem bytes_of_host (hu : Accepted u) : ∀ c ∈ u.hostAddress ++ u.portText, isFrontByte c = true := by
  have hbyte : ∀ c, isHostByte c = true → isFrontByte c = true := by
    intro c hc
    rw [isFrontByte, hc, Bool.or_true, Bool.true_or]
  obtain ⟨value, hport⟩ := isPortText_portText u
  intro c hc
  rcases mem_append.mp hc with hc | hc
  · rcases hu.host with hhost | ⟨-, hnil, -⟩
    · exact hbyte c (bytes_of_isHost hhost c hc)
    · rw [hnil] at hc
      exact absurd hc not_mem_nil
  · exact hbyte c (bytes_of_isPortText hport c hc)

theorem bytes_of_paramText {nv : Text × Text} {c : Byte} (hc : c ∈ paramText escape nv) :
    c ∈ nv.1 ∨ isEscapeByte c = true ∨ c = byte '=' := by
  rcases mem_append.mp hc with hc | hc
  · exact Or.inl hc
  · split at hc
    · simp at hc
    · rcases mem_cons.mp hc with hc | hc
      · exact Or.inr (Or.inr hc)
      · exact Or.inr (Or.inl (isEscapeByte_escape _ c hc))

/-- The bytes of printed parameters. -/
theorem bytes_of_paramsText {c : Byte} (hc : c ∈ u.paramsText) :
    (∃ nv ∈ u.urlParameters ++ u.headerOrQueryParameters, c ∈ nv.1) ∨ isEscapeByte c = true ∨
      oneOf "=;?&" c = true := by
  have hmark {nv : Text × Text} {mark : Byte} (hmark : oneOf "=;?&" mark = true)
      (hnv : nv ∈ u.urlParameters ++ u.headerOrQueryParameters)
      (hc : c ∈ mark :: paramText escape nv) :
      (∃ nv ∈ u.urlParameters ++ u.headerOrQueryParameters, c ∈ nv.1) ∨ isEscapeByte c = true ∨
        oneOf "=;?&" c = true := by
    rcases mem_cons.mp hc with rfl | hc
    · exact Or.inr (Or.inr hmark)
    · rcases bytes_of_paramText hc with hc | hc | rfl
      · exact Or.inl ⟨nv, hnv, hc⟩
      · exact Or.inr (Or.inl hc)
      · exact Or.inr (Or.inr (by decide))
  rcases mem_append.mp hc with hc | hc
  · obtain ⟨nv, hnv, hc⟩ := mem_flatMap.mp hc
    exact hmark (by decide) (mem_append_left _ hnv) hc
  · cases hheaders : u.headerOrQueryParameters with
    | nil =>
      rw [hheaders, headerParamsText] at hc
      exact absurd hc not_mem_nil
    | cons nv rest =>
      rw [hheaders, headerParamsText] at hc
      rw [hheaders] at hmark
      rcases mem_append.mp hc with hc | hc
      · exact hmark (by decide) (mem_append_right _ mem_cons_self) hc
      · obtain ⟨nv', hnv', hc⟩ := mem_flatMap.mp hc
        exact hmark (by decide)
          (mem_append_right _ (mem_cons_of_mem _ hnv')) hc

theorem notMem_uri (hu : Accepted u) {b : Byte} (hfront : isFrontByte b = false)
    (hescape : isEscapeByte b = false) (hmarks : oneOf "=;?&" b = false) (hpath : b ∉ u.path)
    (hnames : ∀ nv ∈ u.urlParameters ++ u.headerOrQueryParameters, b ∉ nv.1) :
    b ∉ u.openingText ++ (u.hostText ++ u.paramsText) := by
  intro hb
  rcases mem_append.mp hb with hb | hb
  · exact ne_of_class (bytes_of_openingText hu b hb) hfront rfl
  · rcases mem_append.mp hb with hb | hb
    · rw [hostText, ← append_assoc] at hb
      rcases mem_append.mp hb with hb | hb
      · exact ne_of_class (bytes_of_host hu b hb) hfront rfl
      · exact hpath hb
    · rcases bytes_of_paramsText hb with ⟨nv, hnv, hb⟩ | hb | hb
      · exact hnames nv hnv hb
      · exact ne_of_class hb hescape rfl
      · exact ne_of_class hb hmarks rfl

theorem bracket_notMem_uri (hu : Accepted u) (hkept : Survives u) (hbrackets : u.needsBrackets = true) :
    byte '>' ∉ u.openingText ++ (u.hostText ++ u.paramsText) := by
  refine notMem_uri hu (by decide) (by decide) (by decide) ?_ fun nv hnv hb => ?_
  · by_cases hpath : u.scheme.hasPath = true
    · exact (hkept.brackets hpath hbrackets).2
    · rw [hu.path_eq_nil (by simpa using hpath)]
      exact not_mem_nil
  · rcases mem_append.mp hnv with hnv | hnv
    · exact (hkept.urlNames nv hnv).ne (by decide) _ hb rfl
    · exact (hkept.headerNames nv hnv).ne (by decide) _ hb rfl

theorem zero_notMem_fieldText (hu : Accepted u) (hkept : Survives u) (junk : Byte) :
    (0 : Byte) ∉ fieldText junk u.fieldParameters := by
  intro hc
  obtain ⟨nv, hnv, hc⟩ := mem_flatMap.mp hc
  have hname : (0 : Byte) ∉ nv.1 :=
    fun hmem => ne_of_class ((hu.fieldNames nv hnv).2 0 hmem) (by decide) rfl
  have hvalue := hu.fieldValues_nul nv hnv
  rcases mem_cons.mp hc with hc | hc
  · exact absurd hc (by decide)
  · rcases mem_append.mp hc with hc | hc
    · exact hname hc
    · split at hc
      · simp at hc
      · rcases mem_cons.mp hc with hc | hc
        · exact absurd hc (by decide)
        · unfold genValueEscape at hc
          split at hc
          · exact hvalue hc
          · rw [cons_append] at hc
            rcases mem_cons.mp hc with hc | hc
            · exact absurd hc (by decide)
            · rcases mem_append.mp hc with hc | hc
              · -- no byte is escaped, so that nothing is printed behind one
                obtain ⟨c, hmem, hc⟩ := mem_flatMap.mp hc
                have hplain := (hkept.fieldValues nv hnv).1 c hmem
                have hback := ne_of_class (b := byte '\\') hplain (by decide)
                have hquote := ne_of_class (b := byte '"') hplain (by decide)
                rw [if_neg (fun h => h.elim hquote hback), mem_singleton] at hc
                exact hvalue (hc ▸ hmem)
              · exact absurd hc (by decide)

theorem Accepted.zero_notMem_uri (hu : Accepted u) :
    (0 : Byte) ∉ u.openingText ++ (u.hostText ++ u.paramsText) := by
  refine notMem_uri hu (by decide) (by decide) (by decide) hu.path_nul fun nv hnv => ?_
  rcases mem_append.mp hnv with hnv | hnv
  · exact (hu.urlParameters nv hnv).name
  · exact (hu.headerOrQueryParameters nv hnv).name

/-- **No NUL is printed.** -/
theorem zero_notMem_toString (hu : Accepted u) (hkept : Survives u) (junk : Byte) :
    (0 : Byte) ∉ u.toString junk := by
  have huri := hu.zero_notMem_uri
  have hfields := zero_notMem_fieldText hu hkept junk
  rw [toString_eq hu]
  simp only [mem_append, not_or] at huri ⊢
  refine ⟨hu.displayName_nul, ?_, huri.1, huri.2.1, huri.2.2, ?_⟩
  · split <;> decide
  · unfold closingText
    split
    · exact not_mem_cons_of_ne_of_not_mem (by decide) hfields
    · exact not_mem_nil

end Printed

/-! ## Up to the user -/

section Opening

variable {u : Url}

theorem matchAt_displayName_colon {w : Text} (hw : IsToken w) (s : Text) :
    matchAt displayNameRegex (w ++ byte ':' :: s) = none := by
  have hfirst := head?_eq_of_isToken hw (byte ':' :: s)
  have hblank : run sws 0 (w ++ byte ':' :: s) = [⟨[], w ++ byte ':' :: s, []⟩] :=
    run_star_eq_nil (run_cls_eq_nil fun c hc => isSpace_of_isTokenByte c (hfirst c hc))
  have hcolon : ∀ c ∈ (byte ':' :: s).head?, isTokenByte c = false := by
    intro c hc
    rw [head?_cons, Option.mem_some_iff] at hc
    subst hc
    decide
  have htoken : run sipToken 0 (w ++ byte ':' :: s) = [⟨w, byte ':' :: s, []⟩] :=
    run_possessive hw.1 hw.2 hcolon 0
  have hmore (n : Nat) : run (cat [star (seq lws sipToken)]) n (byte ':' :: s) =
      [⟨[], byte ':' :: s, []⟩] := rfl
  have hinside : run wordsPattern 0 (w ++ byte ':' :: s) = [⟨w, byte ':' :: s, []⟩] := by
    refine (run_seq_of_singleton htoken).trans ?_
    refine (congrArg _ (hmore _)).trans ?_
    simp [Match.append]
  have hwords : run (group 1 wordsPattern) 0 (w ++ byte ':' :: s) =
      [⟨w, byte ':' :: s, [(1, w)]⟩] := by
    rw [run, hinside]
    rfl
  have hquoted : run (cat [lit "\"", group 2 quotedPattern, lit "\""]) 0 (w ++ byte ':' :: s) = [] := by
    refine run_seq_eq_nil (run_seq_eq_nil (run_cls_eq_nil fun c hc => ?_))
    exact beq_eq_false_iff_ne.mpr (ne_of_class (hfirst c hc) (by decide))
  have hname : run (alt (group 1 wordsPattern) (cat [lit "\"", group 2 quotedPattern, lit "\""])) 0
      (w ++ byte ':' :: s) = [⟨w, byte ':' :: s, [(1, w)]⟩] := by
    rw [run, hwords, hquoted, append_nil]
  have hlook (n : Nat) : run (cat [look (seq sws (lit "<"))]) n (byte ':' :: s) = [] := rfl
  have hrun : run displayNameRegex 0 (w ++ byte ':' :: s) = [] := by
    rw [displayNameRegex_eq]
    refine (run_seq_of_singleton hblank).trans (map_eq_nil_iff.mpr ?_)
    refine (run_seq_of_singleton hname).trans (map_eq_nil_iff.mpr ?_)
    exact hlook _
  rw [matchAt, hrun, head?_nil]

theorem parse_unbracketed (scheme : Scheme) (s : Text) :
    parseAngleBrackets (parseDisplayName { url := {}, rest := scheme.name ++ byte ':' :: s }) =
      { url := {}, rest := scheme.name ++ byte ':' :: s } := by
  have htoken : IsToken scheme.name := by
    cases scheme <;> decide
  have hfirst := head?_eq_of_isToken htoken (byte ':' :: s)
  have hbracket : matchAt angleBracketsRegex (scheme.name ++ byte ':' :: s) = none := by
    have hblank : run sws 0 (scheme.name ++ byte ':' :: s) =
        [⟨[], scheme.name ++ byte ':' :: s, []⟩] :=
      run_star_eq_nil (run_cls_eq_nil fun c hc => isSpace_of_isTokenByte c (hfirst c hc))
    have hrun : run angleBracketsRegex 0 (scheme.name ++ byte ':' :: s) = [] := by
      refine (run_seq_of_singleton hblank).trans (map_eq_nil_iff.mpr ?_)
      refine run_seq_eq_nil (run_seq_eq_nil (run_cls_eq_nil fun c hc => ?_))
      exact beq_eq_false_iff_ne.mpr (ne_of_class (hfirst c hc) (by decide))
    rw [matchAt, hrun, head?_nil]
  unfold parseDisplayName
  rw [matchAt_displayName_colon htoken]
  unfold parseAngleBrackets
  rw [hbracket]

/-- **Display name and brackets are read again.** -/
theorem parseOpening_toString (hu : Accepted u) (hkept : Survives u) (junk : Byte) :
    parseAngleBrackets (parseDisplayName { url := {}, rest := u.toString junk }) =
      { url := { displayName := u.displayName }
        rest := u.openingText ++ (u.hostText ++ (u.paramsText ++ u.closingText junk))
        afterAngleBrackets := u.afterBrackets junk } := by
  rw [toString_eq hu]
  by_cases hbrackets : u.needsBrackets = true
  · have hinside : ∀ c ∈ u.openingText ++ (u.hostText ++ u.paramsText), (c != byte '>') = true := by
      rintro c hc
      rw [bne_iff_ne]
      rintro rfl
      exact bracket_notMem_uri hu hkept hbrackets hc
    have hne : u.openingText ++ (u.hostText ++ u.paramsText) ≠ [] := by simp [openingText]
    have hassoc : u.openingText ++ (u.hostText ++ (u.paramsText ++
        byte '>' :: fieldText junk u.fieldParameters)) =
        u.openingText ++ (u.hostText ++ u.paramsText) ++
          byte '>' :: fieldText junk u.fieldParameters := by simp
    rw [closingText, afterBrackets, if_pos hbrackets, if_pos hbrackets, if_pos hbrackets, hassoc,
      singleton_append, parseDisplayName_append hu.displayName]
    unfold parseAngleBrackets
    rw [matchAt_angleBrackets hne hinside]
    rfl
  · have hname : u.displayName = [] := by
      simp only [needsBrackets, Bool.not_eq_true, Bool.or_eq_false_iff, bne_eq_false_iff_eq]
        at hbrackets
      exact hbrackets.1.1.1
    rw [afterBrackets, if_neg hbrackets, if_neg hbrackets, hname, nil_append, nil_append,
      openingText, append_assoc, cons_append]
    exact parse_unbracketed u.scheme _

theorem matchAt_scheme_nameAddr {v : Text} (hv : ∀ c ∈ v, isSpace c = false) (s : Text) :
    matchAt (supportedSchemeRegex .nameAddr) (v ++ byte ':' :: s) =
      matchAt (supportedSchemeRegex .addrSpec) (v ++ byte ':' :: s) := by
  have hblank {w : Text} (hw : ∀ c ∈ w, isSpace c = false) (n : Nat) :
      run sws n (w ++ byte ':' :: s) = [⟨[], w ++ byte ':' :: s, []⟩] := by
    refine run_star_eq_nil (run_cls_eq_nil fun c hc => ?_)
    rw [head?_append] at hc
    cases w with
    | nil =>
      rw [← Option.mem_some_iff.mp hc]
      decide
    | cons d w => exact hw c (by rw [← Option.mem_some_iff.mp hc]; exact mem_cons_self)
  have hone (w : Text) : Match.append ⟨[], w, []⟩ = id := by
    funext m
    simp [Match.append]
  have hstops : StopsAt (· == byte ':') supportedSchemes := stopsAt_of_byte (by decide)
  have hcolon : ∀ c ∈ (byte ':' :: s).head?, (c == byte ':') = true := by simp
  have hrun : run (seq supportedSchemes (cat [sws, lit ":"])) 0 (v ++ byte ':' :: s) =
      run (seq supportedSchemes (cat [lit ":"])) 0 (v ++ byte ':' :: s) := by
    rw [run, run, run_append hstops hcolon, flatMap_map, flatMap_map]
    refine flatMap_congr fun m hm => ?_
    -- what is left of the name has no blank either
    have hrest : ∀ c ∈ m.rest, isSpace c = false := fun c hc =>
      hv c (by rw [append_of_mem_run hm]; exact mem_append_right _ hc)
    show (run (cat [sws, lit ":"]) _ (m.rest ++ byte ':' :: s)).map _ = _
    refine congrArg _ ((run_seq_of_singleton (hblank hrest _)).trans ?_)
    rw [hone, map_id]
    rfl
  rw [matchAt, matchAt]
  refine congrArg head? ((run_seq_of_singleton (hblank hv 0)).trans ?_)
  rw [hone, map_id]
  exact hrun

theorem parseScheme_nameAddr (scheme : Scheme) (url : Url) (s : Text) (after : Option Text) :
    parseScheme .nameAddr
        { url := url, rest := scheme.name ++ byte ':' :: s, afterAngleBrackets := after } =
      { url := { url with scheme := scheme }, rest := s, afterAngleBrackets := after } := by
  have hcolon : byte ':' ∉ scheme.name := by cases scheme <;> decide
  have hblank : ∀ c ∈ scheme.name, isSpace c = false := by cases scheme <;> decide
  obtain ⟨kw, hkw, hindex⟩ := exists_schemeName scheme
  unfold parseScheme
  dsimp only
  rw [matchAt_scheme_nameAddr hblank, matchAt_scheme hcolon, hkw]
  simp [Match.matchCount, hindex]

/-- **The scheme is read again**, with the slashes behind it. -/
theorem parseScheme_openingText (url : Url) (s : Text) (after : Option Text) :
    skipSlashes (parseScheme .nameAddr
        { url := url, rest := u.openingText ++ s, afterAngleBrackets := after }) =
      { url := { url with scheme := u.scheme }
        rest := u.userText ++ s
        afterAngleBrackets := after } := by
  have hassoc : u.openingText ++ s = u.scheme.name ++ byte ':' :: (u.slashes ++ (u.userText ++ s)) := by
    simp [openingText]
  rw [hassoc, parseScheme_nameAddr]
  unfold skipSlashes slashes
  dsimp only
  by_cases hpath : u.scheme.hasPath = true
  · rw [if_pos hpath, if_pos ⟨hpath, rfl⟩]
    rfl
  · rw [if_neg hpath, if_neg fun h => hpath h.1]
    rfl

theorem head?_closingText (junk : Byte) : ∀ c ∈ (u.closingText junk).head?, c = byte '>' := by
  intro c hc
  unfold closingText at hc
  split at hc
  · exact (Option.mem_some_iff.mp hc).symm
  · simp at hc

/-- **The user is read again** in front of any text, and none is found where there was none. -/
theorem parseUser_front (hu : Accepted u) {tail : Text}
    (hnone : u.userId = [] → u.scheme ≠ .file → matchAt usernameAndPasswordRegex tail = none)
    (after : Option Text) :
    parseUser
        { url := { scheme := u.scheme, displayName := u.displayName }
          rest := u.userText ++ tail
          afterAngleBrackets := after } =
      { url := { scheme := u.scheme, displayName := u.displayName
                 userId := u.userId, password := u.password }
        rest := tail
        afterAngleBrackets := after } := by
  unfold parseUser
  dsimp only
  by_cases hfile : u.scheme = .file
  · have hnil := hu.userId_eq_nil hfile
    rw [if_pos hfile, userText, if_pos (Or.inl hfile), hnil, hu.password_eq_nil hnil]
    rfl
  · rw [if_neg hfile]
    by_cases hnil : u.userId = []
    · rw [userText, if_pos (Or.inr hnil), nil_append, hnone hnil hfile, hnil,
        hu.password_eq_nil hnil]
    · rw [userText, if_neg (fun h => h.elim hfile hnil)]
      by_cases hempty : u.password = []
      · rw [if_pos hempty, append_nil, append_assoc, singleton_append,
          matchAt_user hnil hu.userId, hempty]
        rfl
      · have hsplit (s : Text) : u.userId ++ (if u.password = [] then [] else
            byte ':' :: u.password) ++ [byte '@'] ++ s =
            u.userId ++ byte ':' :: (u.password ++ byte '@' :: s) := by
          rw [if_neg hempty]
          simp
        rw [hsplit, matchAt_user_password hnil hu.userId hu.password]
        rfl

theorem parseUser_printed (hu : Accepted u) (hkept : Survives u) (junk : Byte)
    (after : Option Text) :
    parseUser
        { url := { scheme := u.scheme, displayName := u.displayName }
          rest := u.userText ++ (u.hostText ++ (u.paramsText ++ u.closingText junk))
          afterAngleBrackets := after } =
      { url := { scheme := u.scheme, displayName := u.displayName
                 userId := u.userId, password := u.password }
        rest := u.hostText ++ (u.paramsText ++ u.closingText junk)
        afterAngleBrackets := after } := by
  refine parseUser_front hu (fun hnil hfile => ?_) after
  have hstop : ∀ c ∈ (u.closingText junk).head?, (c == byte '>') = true :=
    fun c hc => beq_iff_eq.mpr (head?_closingText junk c hc)
  have hnone := (matchAt_append_eq_none stopsAt_user hstop).mpr (hkept.user hnil hfile)
  rwa [append_assoc] at hnone

end Opening

/-! ## Host and port -/

theorem not_isHost_port {h digits : Text} (hne : digits ≠ [])
    (hdigits : ∀ c ∈ digits, isDigit c = true) : ¬ IsHost (h ++ byte ':' :: digits) := by
  intro hhost
  generalize htext : h ++ byte ':' :: digits = host at hhost
  cases hhost with
  | domain hd =>
    have hcolon := (isToken_of_isDomain hd).2 (byte ':') (by rw [← htext]; simp)
    exact absurd hcolon (by decide)
  | ipv6 _ _ =>
    have hlast := congrArg getLast? htext
    rw [getLast?_append, getLast?_concat] at hlast
    obtain ⟨digits, d, rfl⟩ := eq_nil_or_concat digits |>.resolve_left hne
    rw [concat_eq_append, ← cons_append, getLast?_concat, Option.some_or,
      Option.some_inj] at hlast
    have hd := hdigits d (by simp)
    rw [hlast] at hd
    exact absurd hd (by decide)

section Host

variable {u : Url}

theorem portText_cases (u : Url) : u.portText = [] ∧ u.printedPort = portNone ∨
    ∃ p : Nat, u.portText = byte ':' :: natText p ∧ u.printedPort = p := by
  unfold portText printedPort
  by_cases hvalid : portIsValid u.hostPort = true
  · right
    obtain ⟨p, hp⟩ : ∃ p : Nat, u.hostPort = p := by
      simp only [portIsValid, Bool.and_eq_true, decide_eq_true_eq] at hvalid
      exact Int.eq_ofNat_of_zero_le (by omega)
    rw [if_pos hvalid, if_pos hvalid, hp]
    exact ⟨p, rfl, rfl⟩
  · left
    rw [if_neg hvalid, if_neg hvalid]
    exact ⟨rfl, rfl⟩

theorem groups_of_hostText (hhost : IsHost u.hostAddress) {m : Match}
    (hm : matchAt hostAndPortRegex u.hostText = some m) (hrest : m.rest = u.path) :
    m.group 1 = some u.hostAddress ∧ (m.group 2 = none ∧ u.printedPort = portNone ∨
      ∃ digits, m.group 2 = some digits ∧ u.printedPort = digitsValue 10 digits) := by
  have htext : u.hostAddress ++ u.portText = m.text := by
    have happ := append_of_mem_run (mem_run_of_matchAt hm)
    rw [hrest, hostText, ← append_assoc] at happ
    exact append_cancel_right happ
  obtain ⟨host, hhost', heq | ⟨digits, hdigits, hne, heq⟩⟩ :=
    hostAndPort_of_mem_run (mem_run_of_matchAt hm)
  · have hall : m.text = host := by rw [heq]
    rw [heq]
    rcases portText_cases u with ⟨hnone, hport⟩ | ⟨p, hsome, -⟩
    · rw [hnone, append_nil, hall] at htext
      rw [htext]
      exact ⟨rfl, Or.inl ⟨rfl, hport⟩⟩
    · rw [hsome, hall] at htext
      rw [← htext] at hhost'
      exact absurd hhost' (not_isHost_port (natText_ne_nil p) isDigit_of_mem_natText)
  · have hall : m.text = host ++ byte ':' :: digits := by rw [heq]
    rw [heq]
    rcases portText_cases u with ⟨hnone, -⟩ | ⟨p, hsome, hport⟩
    · rw [hnone, append_nil, hall] at htext
      rw [htext] at hhost
      exact absurd hhost (not_isHost_port hne hdigits)
    · -- both sides end in the digits behind their last colon
      have hsplit : u.hostAddress ++ [byte ':'] ++ natText p = host ++ [byte ':'] ++ digits := by
        rw [hsome, hall] at htext
        simpa using htext
      obtain ⟨hcolon, rfl⟩ := append_inj_of_class_right (p := isDigit) isDigit_of_mem_natText hdigits
        (by simp; decide) (by simp; decide) hsplit
      rw [append_cancel_right hcolon]
      exact ⟨rfl, Or.inr ⟨_, rfl, by rw [hport, digitsValue_natText]⟩⟩

/-- A printed host is read up to the path. -/
theorem exists_matchAt_hostText (hu : Accepted u) (hkept : Survives u) (hhost : IsHost u.hostAddress) :
    ∃ m, matchAt hostAndPortRegex u.hostText = some m ∧ m.rest = u.path := by
  by_cases hport : u.hostPort = portNone
  · have hne : u.hostAddress ≠ [] := by
      intro hnil
      rw [hnil] at hhost
      cases hhost with
      | domain hd => exact absurd rfl (isToken_of_isDomain hd).1
    have hnone : u.portText = [] := by
      rw [portText, hport]
      rfl
    refine ⟨⟨u.hostAddress, u.path, [(1, u.hostAddress)]⟩, ?_, rfl⟩
    rw [hostText, hnone, nil_append]
    exact hu.hostAlone.host hport hne
  · by_cases hpath : u.path = []
    · -- nothing follows the port
      obtain ⟨value, hvalue⟩ := isPortText_portText u
      obtain ⟨m, hm, hrest, -⟩ := matchAt_hostAndPort hhost hvalue []
      have hstop : ∀ c ∈ [byte ';'].head?, isStop c = true := by
        intro c hc
        rw [head?_cons, Option.mem_some_iff] at hc
        subst hc
        decide
      have hassoc : u.hostAddress ++ (u.portText ++ [byte ';']) = u.hostText ++ [byte ';'] := by
        simp [hostText, hpath]
      rw [hassoc, matchAt_append stopsAt_hostAndPort hstop] at hm
      obtain ⟨m', hm', rfl⟩ := Option.map_eq_some_iff.mp hm
      refine ⟨m', hm', ?_⟩
      rw [hpath]
      exact append_left_eq_self.mp hrest
    · exact hkept.host hport hpath

/-- **Host and port are read again**; a port that is no port number is gone. -/
theorem parseHostAndPort_printed (hu : Accepted u) (hkept : Survives u) {tail : Text}
    (htail : ∀ c ∈ tail.head?, isStop c = true) (after : Option Text) :
    parseHostAndPort
        { url := { scheme := u.scheme, displayName := u.displayName
                   userId := u.userId, password := u.password }
          rest := u.hostText ++ tail
          afterAngleBrackets := after } =
      { url := { scheme := u.scheme, displayName := u.displayName
                 userId := u.userId, password := u.password
                 hostAddress := u.hostAddress, hostPort := u.printedPort }
        rest := u.path ++ tail
        afterAngleBrackets := after } := by
  unfold parseHostAndPort
  dsimp only
  rcases hu.host with hhost | ⟨hfile, hnil, hport⟩
  · obtain ⟨m, hm, hrest⟩ := exists_matchAt_hostText hu hkept hhost
    obtain ⟨hgroup, hvalue⟩ := groups_of_hostText hhost hm hrest
    rw [(matchAt_append_eq_some stopsAt_hostAndPort htail).mpr hm]
    have hgroups (k : Nat) : (m.before tail).group k = m.group k := rfl
    dsimp only
    rw [hgroups, hgroups, hgroup, Match.before, hrest]
    rcases hvalue with ⟨hnone, hport⟩ | ⟨digits, hsome, hport⟩
    · rw [hnone, hport]
      rfl
    · rw [hsome, hport]
      rfl
  · have hnone : u.portText = [] := by
      rw [portText, hport]
      rfl
    have htext : u.hostText = u.path := by
      rw [hostText, hnil, hnone]
      rfl
    have hprinted : u.printedPort = portNone := by
      rw [printedPort, hport]
      rfl
    rw [htext, (matchAt_append_eq_none stopsAt_hostAndPort htail).mpr (hu.hostAlone.absent hnil)]
    dsimp only
    rw [if_pos hfile, hnil, hprinted]

end Host

/-! ## Path and parameters -/

section Params

variable {u : Url}

theorem head?_headerParamsText (params : List (Text × Text)) :
    ∀ c ∈ (headerParamsText params).head?, c = byte '?' := by
  cases params with
  | nil => simp [headerParamsText]
  | cons nv rest =>
    intro c hc
    rw [headerParamsText, cons_append, head?_cons, Option.mem_some_iff] at hc
    exact hc.symm

theorem head?_headers (u : Url) (junk : Byte) :
    ∀ c ∈ (headerParamsText u.headerOrQueryParameters ++ u.closingText junk).head?,
      c = byte '?' ∨ c = byte '>' := by
  intro c hc
  rw [head?_append, Option.mem_def, Option.or_eq_some_iff] at hc
  rcases hc with hc | ⟨-, hc⟩
  · exact Or.inl (head?_headerParamsText _ c hc)
  · exact Or.inr (head?_closingText junk c hc)

theorem head?_params (u : Url) (junk : Byte) :
    ∀ c ∈ (u.paramsText ++ u.closingText junk).head?,
      c = byte ';' ∨ c = byte '?' ∨ c = byte '>' := by
  intro c hc
  rw [paramsText, append_assoc] at hc
  cases hparams : u.urlParameters with
  | nil =>
    rw [hparams, urlParamsText, flatMap_nil, nil_append] at hc
    exact Or.inr (head?_headers u junk c hc)
  | cons nv rest =>
    rw [hparams, urlParamsText, flatMap_cons, cons_append, cons_append,
      head?_cons, Option.mem_some_iff] at hc
    exact Or.inl hc.symm

/-- **The path is read again.** -/
theorem parsePath_printed (hu : Accepted u) (hkept : Survives u) (junk : Byte) (st : ParseState)
    (hscheme : st.url.scheme = u.scheme) (hnone : st.url.path = [])
    (hrest : st.rest = u.path ++ (u.paramsText ++ u.closingText junk)) :
    parsePath st =
      { st with url := { st.url with path := u.path }
                rest := u.paramsText ++ u.closingText junk } := by
  by_cases hpath : u.scheme.hasPath = true
  · refine parsePath_eq (hscheme ▸ hpath) hnone hrest hu.path fun c hc => ?_
    have hquestion : isPathByte (byte '?') = false := by decide
    have hsip : u.scheme.isSip = false := by
      revert hpath
      cases u.scheme <;> decide
    rw [paramsText, hu.urlParameters_eq_nil hsip, urlParamsText, flatMap_nil,
      nil_append] at hc
    -- without header parameters there are no brackets
    by_cases hheaders : u.headerOrQueryParameters = []
    · have hbrackets : u.needsBrackets = false := by
        by_contra hbrackets
        exact (hkept.brackets hpath (by simpa using hbrackets)).1 hheaders
      rw [hheaders, headerParamsText, closingText, hbrackets] at hc
      simp at hc
    · obtain ⟨nv, rest, heq⟩ := exists_cons_of_ne_nil hheaders
      rw [heq, headerParamsText, cons_append, cons_append, head?_cons,
        Option.mem_some_iff] at hc
      rw [← hc]
      exact hquestion
  · have hnil := hu.path_eq_nil (by simpa using hpath)
    rw [hnil, nil_append] at hrest
    unfold parsePath
    rw [if_neg (by rw [hscheme]; exact hpath), hnil, ← hnone, ← hrest]

theorem matchAt_rawParams_eq_none {mark : String} {c : Byte} (hmark : text mark = [c])
    (p : Byte → Bool) {s : Text} (hs : ∀ d ∈ s.head?, isSpace d = false ∧ d ≠ c) :
    matchAt (cat [sws, lit mark, group 1 (possessive p)]) s = none := by
  have hblank : run sws 0 s = [⟨[], s, []⟩] :=
    run_star_eq_nil (run_cls_eq_nil fun d hd => (hs d hd).1)
  have hopen : run (lit mark) 0 s = [] := by
    rw [lit, hmark]
    exact run_seq_eq_nil (run_cls_eq_nil fun d hd => beq_eq_false_iff_ne.mpr (hs d hd).2)
  have hrun : run (cat [sws, lit mark, group 1 (possessive p)]) 0 s = [] := by
    refine (run_seq_of_singleton hblank).trans (map_eq_nil_iff.mpr ?_)
    exact run_seq_eq_nil hopen
  rw [matchAt, hrun, head?_nil]

theorem exists_rawParams (first : Byte) {mark : Byte} {marks : String} {params : List (Text × Text)}
    (hkept : ∀ nv ∈ params, IsKeptName marks nv.1) {p : Byte → Bool}
    (hp : ∀ c, oneOf marks c = false ∨ isEscapeByte c = true ∨ c = byte '=' ∨ c = mark → p c = true)
    (hne : params ≠ []) : ∃ raw, raw ≠ [] ∧ (∀ c ∈ raw, p c = true) ∧
      mark :: raw = (params.flatMap fun nv => mark :: paramText escape nv) ∧
      first :: raw = first :: paramText escape (params.head hne) ++
        params.tail.flatMap fun nv => mark :: paramText escape nv := by
  obtain ⟨nv, rest, rfl⟩ := exists_cons_of_ne_nil hne
  have hbytes {nv' : Text × Text} (hnv : nv' ∈ nv :: rest) : ∀ c ∈ paramText escape nv', p c = true := by
    intro c hc
    rcases bytes_of_paramText hc with hc | hc | hc
    · exact hp c (Or.inl ((hkept nv' hnv).2 c hc))
    · exact hp c (Or.inr (Or.inl hc))
    · exact hp c (Or.inr (Or.inr (Or.inl hc)))
  refine ⟨paramText escape nv ++ rest.flatMap fun nv => mark :: paramText escape nv, ?_, ?_, rfl, rfl⟩
  · rw [paramText]
    exact append_ne_nil_of_left_ne_nil
      (append_ne_nil_of_left_ne_nil (hkept nv mem_cons_self).1 _) _
  · intro c hc
    rcases mem_append.mp hc with hc | hc
    · exact hbytes mem_cons_self c hc
    · obtain ⟨nv', hnv', hc⟩ := mem_flatMap.mp hc
      rcases mem_cons.mp hc with hc | hc
      · exact hp c (Or.inr (Or.inr (Or.inr hc)))
      · exact hbytes (mem_cons_of_mem _ hnv') c hc

/-- **The URL parameters are read again.** -/
theorem parseUrlParams_paramsText (hu : Accepted u) (hkept : Survives u) (junk : Byte)
    (st : ParseState) (hscheme : st.url.scheme = u.scheme) (hnone : st.url.urlParameters = [])
    (hafter : st.afterAngleBrackets = u.afterBrackets junk)
    (hrest : st.rest = u.paramsText ++ u.closingText junk) :
    parseUrlParams .nameAddr st =
      { st with url := { st.url with urlParameters := u.urlParameters }
                rest := headerParamsText u.headerOrQueryParameters ++ u.closingText junk } := by
  rw [paramsText, append_assoc] at hrest
  have hhead := head?_headers u junk
  unfold parseUrlParams
  by_cases hnil : u.urlParameters = []
  · rw [hnil, urlParamsText, flatMap_nil, nil_append] at hrest
    have hmatch : matchAt urlParamsRegex st.rest = none := by
      refine matchAt_rawParams_eq_none rfl isUrlParamsByte fun c hc => ?_
      rw [hrest] at hc
      rcases hhead c hc with rfl | rfl <;> decide
    rw [hmatch, hnil, ← hnone, ← hrest]
    split <;> rfl
  · have hsip : u.scheme.isSip = true := by
      by_contra hsip
      exact hnil (hu.urlParameters_eq_nil (by simpa using hsip))
    have hbrackets : u.needsBrackets = true := by simp [needsBrackets, hsip, hnil]
    have hbyte : ∀ c, oneOf ";=%+?>," c = false ∨ isEscapeByte c = true ∨ c = byte '=' ∨ c = byte ';' →
        isUrlParamsByte c = true := by
      rintro c (hc | hc | rfl | rfl)
      · have hends : ∀ b ∈ text "?>,", oneOf ";=%+?>," b = true := by decide
        rw [isUrlParamsByte, Bool.not_eq_true']
        by_contra hmark
        rw [Bool.not_eq_false] at hmark
        rw [hends c (by simpa [oneOf] using hmark)] at hc
        exact Bool.false_ne_true hc.symm
      · rw [isUrlParamsByte, oneOf_of_class hc (by decide), Bool.not_false]
      · decide
      · decide
    obtain ⟨raw, hne, hbytes, hraw, -⟩ := exists_rawParams (byte ';') hkept.urlNames hbyte hnil
    have htail : ∀ c ∈ (headerParamsText u.headerOrQueryParameters ++ u.closingText junk).head?,
        isUrlParamsByte c = false := by
      intro c hc
      rcases hhead c hc with rfl | rfl <;> decide
    rw [urlParamsText, ← hraw] at hrest
    rw [if_pos ⟨by rw [hscheme]; exact hsip, Or.inr (by rw [hafter, afterBrackets, if_pos hbrackets]; simp)⟩,
      hrest, cons_append, matchAt_urlParams hne hbytes htail]
    have hread := parseCgiVariables_marked hu.urlParameters hkept.urlNames (by decide) (by decide)
      (by decide) hraw
    simp only [Match.group, lookup_cons_self, Option.getD_some, hread]

/-- **The header parameters are read again.** -/
theorem parseHeaderParams_paramsText (hu : Accepted u) (hkept : Survives u) (junk : Byte)
    (st : ParseState) (hnone : st.url.headerOrQueryParameters = [])
    (hrest : st.rest = headerParamsText u.headerOrQueryParameters ++ u.closingText junk) :
    parseHeaderParams st =
      { st with url := { st.url with headerOrQueryParameters := u.headerOrQueryParameters }
                rest := u.closingText junk } := by
  have hhead := head?_closingText (u := u) junk
  unfold parseHeaderParams
  by_cases hnil : u.headerOrQueryParameters = []
  · rw [hnil, headerParamsText, nil_append] at hrest
    have hmatch : matchAt headerOrQueryParamsRegex st.rest = none := by
      refine matchAt_rawParams_eq_none rfl isHeaderParamsByte fun c hc => ?_
      rw [hrest] at hc
      rw [hhead c hc]
      decide
    rw [hmatch, hnil, ← hnone, ← hrest]
  · have hbyte : ∀ c, oneOf "&=%+>," c = false ∨ isEscapeByte c = true ∨ c = byte '=' ∨ c = byte '&' →
        isHeaderParamsByte c = true := by
      rintro c (hc | hc | rfl | rfl)
      · have hends : ∀ b ∈ text ",>", oneOf "&=%+>," b = true := by decide
        rw [isHeaderParamsByte, Bool.not_eq_true']
        by_contra hmark
        rw [Bool.not_eq_false] at hmark
        rw [hends c (by simpa [oneOf] using hmark)] at hc
        exact Bool.false_ne_true hc.symm
      · rw [isHeaderParamsByte, oneOf_of_class hc (by decide), Bool.not_false]
      · decide
      · decide
    obtain ⟨raw, hne, hbytes, hraw, hfirst⟩ :=
      exists_rawParams (byte '?') hkept.headerNames hbyte hnil
    have htext : headerParamsText u.headerOrQueryParameters = byte '?' :: raw := by
      obtain ⟨nv, rest, heq⟩ := exists_cons_of_ne_nil hnil
      rw [hfirst]
      simp only [heq]
      rfl
    have htail : ∀ c ∈ (u.closingText junk).head?, isHeaderParamsByte c = false := by
      intro c hc
      rw [hhead c hc]
      decide
    have hmatch : matchAt headerOrQueryParamsRegex (byte '?' :: (raw ++ u.closingText junk)) =
        some ⟨byte '?' :: raw, u.closingText junk, [(1, raw)]⟩ :=
      matchAt_rawParams rfl (by decide) hne hbytes htail
    have hread := parseCgiVariables_marked hu.headerOrQueryParameters hkept.headerNames (by decide)
      (by decide) (by decide) hraw
    rw [hrest, htext, cons_append, hmatch]
    simp only [Match.group, lookup_cons_self, Option.getD_some, hread]

/-- **The closing bracket is found**, where there is one. -/
theorem closeAngleBrackets_printed (junk : Byte) (st : ParseState) (hafter : st.afterAngleBrackets = u.afterBrackets junk)
    (hrest : st.rest = u.closingText junk) :
    closeAngleBrackets st = { st with rest := fieldText junk u.fieldParameters } := by
  unfold closeAngleBrackets
  by_cases hbrackets : u.needsBrackets = true
  · rw [afterBrackets, if_pos hbrackets] at hafter
    rw [closingText, if_pos hbrackets] at hrest
    rw [hafter]
    dsimp only
    rw [if_pos (by rw [hrest]; rfl), ← hafter]
  · rw [afterBrackets, if_neg hbrackets] at hafter
    rw [closingText, if_neg hbrackets] at hrest
    rw [hafter]
    dsimp only
    rw [fieldParameters_eq_nil (by simpa using hbrackets), fieldText, flatMap_nil, ← hrest, ← hafter]

end Params

/-! ## The whole text -/

section Stable

variable {u : Url}

/-- Up to host and port. -/
theorem parseFront_toString (hu : Accepted u) (hkept : Survives u) (junk : Byte) :
    parseFront .nameAddr (u.toString junk) =
      { url := { scheme := u.scheme, displayName := u.displayName
                 userId := u.userId, password := u.password
                 hostAddress := u.hostAddress, hostPort := u.printedPort }
        rest := u.path ++ (u.paramsText ++ u.closingText junk)
        afterAngleBrackets := u.afterBrackets junk } := by
  have htail : ∀ c ∈ (u.paramsText ++ u.closingText junk).head?, isStop c = true := by
    intro c hc
    rcases head?_params u junk c hc with rfl | rfl | rfl <;> decide
  rw [parseFront_nameAddr, parseOpening_toString hu hkept, parseScheme_openingText,
    parseUser_printed hu hkept, parseHostAndPort_printed hu hkept htail]

/-- Behind host and port. -/
theorem parseBack_toString (hu : Accepted u) (hkept : Survives u) (hknown : u.scheme ≠ .unknown)
    (junk : Byte) :
    parseBack .nameAddr (parseFront .nameAddr (u.toString junk)) =
      { url := { u with hostPort := u.printedPort }
        rest := []
        afterAngleBrackets := u.afterBrackets junk } := by
  have hfields : ∀ nv ∈ u.fieldParameters, IsKeptParam nv := fun nv hnv =>
    ⟨hu.fieldNames nv hnv, hkept.fieldValues nv hnv⟩
  rw [parseFront_toString hu hkept]
  unfold parseBack
  dsimp only
  rw [parsePath_printed hu hkept junk _ rfl rfl rfl,
    parseUrlParams_paramsText hu hkept junk _ rfl rfl rfl rfl]
  dsimp only
  rw [if_neg hknown, parseHeaderParams_paramsText hu hkept junk _ rfl rfl,
    closeAngleBrackets_printed junk _ rfl rfl,
    parseFieldParams_printed junk hfields _
      (Nat.lt_succ_of_le (length_le_fieldText junk u.fieldParameters)) _ hknown rfl]
  dsimp only
  rw [nil_append, ← hu.angleBracketsIncluded]

/-- A URI that was read is read again. -/
theorem fromString_toString_of_accepted (hu : Accepted u) (hkept : Survives u)
    (hknown : u.scheme ≠ .unknown) (junk : Byte) :
    fromString (u.toString junk) .nameAddr = { u with hostPort := u.printedPort } := by
  have hend : matchAt (endRegex .nameAddr false) [] = some ⟨[], [], []⟩ := rfl
  unfold fromString parseString
  rw [parseBack_toString hu hkept hknown]
  unfold parseEnd
  dsimp only
  rw [if_neg hknown, hend]

end Stable

/-- **Reading, printing and reading is reading.**  A C string that is accepted, in either context,
gives a URI that is read again with its parts, but for a port that is not printed, if none of
its parts is taken for something else. -/
theorem fromString_toString {s : Text} {form : UriForm}
    (hknown : (fromString (cString s) form).scheme ≠ .unknown)
    (hkept : Survives (fromString (cString s) form)) (junk : Byte) :
    fromString (cString ((fromString (cString s) form).toString junk)) .nameAddr =
      { fromString (cString s) form with
        hostPort := (fromString (cString s) form).printedPort } := by
  have hs : (0 : Byte) ∉ cString s := by
    intro hc
    have h := mem_takeWhile_imp hc
    simp at h
  have hu := accepted_fromString hs hknown
  have hprinted : cString ((fromString (cString s) form).toString junk) =
      (fromString (cString s) form).toString junk :=
    cString_of_notMem (zero_notMem_toString hu hkept junk)
  rw [hprinted]
  exact fromString_toString_of_accepted hu hkept hknown junk

/-- A header value with every part but a path. -/
def secureContact : Text :=
  text "\"A B\" <sips:u:p@h.example:5061;x=a%20b;lr?k=%3B&m>;tag=\"q r\";z"

theorem fromString_toString_secureContact :
    fromString (cString ((fromString (cString secureContact) .nameAddr).toString 0)) .nameAddr =
      { fromString (cString secureContact) .nameAddr with
        hostPort := (fromString (cString secureContact) .nameAddr).printedPort } := by
  have hplain : ∀ nv ∈ (fromString (cString secureContact) .nameAddr).fieldParameters,
      ∀ c ∈ nv.2, isPlainByte c = true := by
    decide +kernel
  refine fromString_toString (by decide +kernel) ?_ 0
  exact {
    urlNames := by decide +kernel
    headerNames := by decide +kernel
    fieldValues := fun nv hnv => isKeptValue_of_isPlainByte (hplain nv hnv)
    user := fun hnil => absurd hnil (by decide +kernel)
    host := fun _ hne => absurd (by decide +kernel) hne
    brackets := fun hpath => absurd hpath (by decide +kernel) }

/-- A port that is no port number is read and not printed; and a comma in the name of a parameter
is read behind an escape and printed without one. -/
theorem reread_portZero_comma :
    (fromString (text "sip:a@b:0") .addrSpec).scheme = .sip ∧
    (fromString ((fromString (text "sip:a@b:0") .addrSpec).toString 0) .nameAddr).hostPort ≠
      (fromString (text "sip:a@b:0") .addrSpec).hostPort ∧
    (fromString (text "<sip:a@b;a%2Cb>") .nameAddr).scheme = .sip ∧
    (fromString ((fromString (text "<sip:a@b;a%2Cb>") .nameAddr).toString 0) .nameAddr).scheme =
      .unknown := by
  decide +kernel

end Url

end SipXRouter
