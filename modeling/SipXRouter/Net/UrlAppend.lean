import SipXRouter.Net.UrlRead
import SipXRouter.PatternTail

/-!
# A field parameter added to a URI

A semicolon, a name and a value behind the text of a URI are read as one more field parameter,
where the parser comes to the field parameters at all.  A path or header parameters that no
bracket ends take everything up to the end of the text.
-/

namespace SipXRouter

open List

variable {blanks u w : Text} {c : Byte} {fuel : Nat} {m : Match} {nv : Text × Text}

namespace Url

open Pattern

def isAddedByte (c : Byte) : Bool := isTokenByte c || isSpace c || oneOf ";=" c

/-- A semicolon, and a parameter behind it. -/
structure IsAdded (tail : Text) : Prop where
  head : tail.head? = some (byte ';')
  bytes : ∀ c ∈ tail, isAddedByte c = true

variable {tail : Text} {st : ParseState}

theorem IsAdded.not_mem (h : IsAdded tail) (hc : isAddedByte c = false) : c ∉ tail :=
  fun hmem => ne_true_of_eq_false hc (h.bytes c hmem)

theorem IsAdded.stops (h : IsAdded tail) {stop : Byte → Bool} (hstop : stop (byte ';') = true) :
    ∀ c ∈ tail.head?, stop c = true := by
  intro c hc
  rw [h.head, Option.mem_some_iff] at hc
  rwa [← hc]

/-- The state with more text at the end. -/
def ParseState.added (tail : Text) (st : ParseState) : ParseState :=
  { st with
    rest := st.rest ++ tail
    afterAngleBrackets := st.afterAngleBrackets.map (· ++ tail) }

@[simp] theorem ParseState.added_rest (tail : Text) (st : ParseState) :
    (st.added tail).rest = st.rest ++ tail := rfl

theorem IsAdded.blind (h : IsAdded tail) {p : Pattern} (hp : stopsAtByte (byte ';') p = true) :
    Blind tail p := blind_of_stopsAt (stopsAt_of_byte hp) (h.stops (beq_self_eq_true _))

/-! ### Front -/

theorem blind_displayName (h : IsAdded tail) : Blind tail displayNameRegex := by
  have heps : Blind tail eps := h.blind rfl
  have hquote : Closed tail (lit "\"") := (closed_lit (h.not_mem (by decide))).then heps
  have hrun : Local tail (group 2 (star (alt (possessive fun c => c != byte '\\' && c != byte '"')
      (seq (lit "\\") anyByte)))) := by
    refine .group 2 (.star (.alt (local_possessive _) (.seq ?_ (local_cls _))))
    exact .seq (local_cls _) heps.local
  refine .seq (h.blind (by decide)) (.seq (.alt ?_ ?_) ?_)
  · exact h.blind (by decide)
  · refine .seq (h.blind (by decide)) ?_
    exact (Closed.seq hrun (hquote.then heps)).blind
  · exact h.blind (by decide)

theorem parseDisplayName_added (h : IsAdded tail) (st : ParseState) :
    parseDisplayName (st.added tail) = (parseDisplayName st).added tail := by
  unfold parseDisplayName
  rw [ParseState.added_rest, (blind_displayName h).matchAt_append]
  cases matchAt displayNameRegex st.rest <;> rfl

theorem parseAngleBrackets_added (h : IsAdded tail) (st : ParseState) :
    parseAngleBrackets (st.added tail) = (parseAngleBrackets st).added tail := by
  have heps : Blind tail eps := h.blind rfl
  have hclosed : Closed tail (cat [group 1 (plus (cls (· != byte '>'))), lit ">"]) := by
    refine Closed.seq (.group 1 (.seq (local_cls _) (.star (local_cls _)))) ?_
    exact ((closed_lit (h.not_mem (by decide))).then heps).then heps
  have hblind : Blind tail angleBracketsRegex :=
    .seq (h.blind (by decide))
      (.seq (h.blind (by decide)) hclosed.blind)
  unfold parseAngleBrackets
  rw [ParseState.added_rest, hblind.matchAt_append]
  cases matchAt angleBracketsRegex st.rest with
  | none => rfl
  | some m =>
    show ParseState.mk _ _ _ _ = ParseState.mk _ _ _ _
    rw [ParseState.mk.injEq]
    refine ⟨rfl, ?_, rfl, rfl⟩
    show (m.group 1).getD [] ++ byte '>' :: (m.rest ++ tail) =
      (m.group 1).getD [] ++ byte '>' :: m.rest ++ tail
    rw [append_assoc, cons_append]

theorem parseScheme_added (h : IsAdded tail) (form : UriForm) (st : ParseState) :
    parseScheme form (st.added tail) = (parseScheme form st).added tail := by
  have hblind : Blind tail (supportedSchemeRegex form) := by
    refine h.blind ?_
    cases form <;> decide
  unfold parseScheme
  rw [ParseState.added_rest, hblind.matchAt_append]
  cases matchAt (supportedSchemeRegex form) st.rest <;> rfl

theorem skipSlashes_added (h : IsAdded tail) (st : ParseState) :
    skipSlashes (st.added tail) = (skipSlashes st).added tail := by
  have hslash : byte '/' ∉ tail := h.not_mem (by decide)
  -- the added text cannot make up slashes
  have htake : (st.rest ++ tail).take 2 = text "//" ↔ st.rest.take 2 = text "//" := by
    have htext : text "//" = [byte '/', byte '/'] := rfl
    rw [htext]
    match hrest : st.rest with
    | [] =>
      refine iff_of_false (fun h => hslash ?_) nofun
      rw [nil_append] at h
      exact mem_of_mem_take (h ▸ mem_cons_self)
    | [c] =>
      refine iff_of_false (fun h => hslash ?_) nofun
      have hmem : byte '/' ∈ tail.take 1 := by
        rw [singleton_append, take_succ_cons, List.cons.injEq] at h
        exact h.2 ▸ mem_cons_self
      exact mem_of_mem_take hmem
    | c :: d :: rest => rfl
  unfold skipSlashes
  by_cases hpath : st.url.scheme.hasPath = true ∧ st.rest.take 2 = text "//"
  · have hdrop : (st.rest ++ tail).drop 2 = st.rest.drop 2 ++ tail :=
      drop_append_of_le_length (by
        have hlength := congrArg length hpath.2
        rw [length_take] at hlength
        exact (min_eq_left_iff.mp hlength : 2 ≤ _))
    rw [if_pos hpath, if_pos ⟨hpath.1, htake.mpr hpath.2⟩]
    show ({ st.added tail with rest := (st.rest ++ tail).drop 2 } : ParseState) = _
    rw [hdrop]
    rfl
  · rw [if_neg hpath, if_neg fun hpath' => hpath ⟨hpath'.1, htake.mp hpath'.2⟩]

theorem blind_user (h : IsAdded tail) : Blind tail usernameAndPasswordRegex := by
  have hpiece : ∀ p, Local tail (escapedRun p) := fun p =>
    .alt (local_possessive p) (Blind.local (h.blind (by decide)))
  have heps : Blind tail eps := h.blind rfl
  have hat : Closed tail (seq (lit "@") eps) :=
    ((closed_lit (h.not_mem (by decide))).then heps).then heps
  refine (Closed.seq (.group 1 (.seq (hpiece _) (.star (hpiece _)))) (Closed.seq ?_ hat)).blind
  refine .alt (.seq (Blind.local (h.blind (by decide))) ?_)
    heps.local
  exact .group 2 (.star (hpiece _))

theorem parseUser_added (h : IsAdded tail) (st : ParseState) :
    parseUser (st.added tail) = (parseUser st).added tail := by
  unfold parseUser
  by_cases hfile : st.url.scheme = .file
  · rw [if_pos hfile, if_pos (show (st.added tail).url.scheme = .file from hfile)]
  · rw [if_neg hfile, if_neg (show ¬ (st.added tail).url.scheme = .file from hfile)]
    rw [ParseState.added_rest, (blind_user h).matchAt_append]
    cases matchAt usernameAndPasswordRegex st.rest <;> rfl

theorem parseHostAndPort_added (h : IsAdded tail) (st : ParseState) :
    parseHostAndPort (st.added tail) = (parseHostAndPort st).added tail := by
  unfold parseHostAndPort
  rw [ParseState.added_rest, (blind_of_stopsAt stopsAt_hostAndPort (h.stops rfl)).matchAt_append]
  cases matchAt hostAndPortRegex st.rest with
  | some m => rfl
  | none =>
    show (if st.url.scheme = .file then st.added tail else _) = _
    by_cases hfile : st.url.scheme = .file
    · rw [if_pos hfile]
      show _ = (if st.url.scheme = .file then st else _).added tail
      rw [if_pos hfile]
    · rw [if_neg hfile]
      show _ = (if st.url.scheme = .file then st else _).added tail
      rw [if_neg hfile]
      rfl

/-- **The parts up to host and port** are read as before. -/
theorem parseFront_added (h : IsAdded tail) (s : Text) :
    parseFront .nameAddr (s ++ tail) = (parseFront .nameAddr s).added tail := by
  show parseHostAndPort (parseUser (skipSlashes (parseScheme .nameAddr
    (parseAngleBrackets (parseDisplayName (ParseState.added tail { url := {}, rest := s })))))) = _
  rw [parseDisplayName_added h, parseAngleBrackets_added h, parseScheme_added h,
    skipSlashes_added h, parseUser_added h, parseHostAndPort_added h]
  rfl

/-! ### Path and parameters of the URI -/

/-- The front of a URI sets neither its path nor its field parameters. -/
theorem parseFront_fresh (form : UriForm) (s : Text) :
    (parseFront form s).url.path = [] ∧ (parseFront form s).url.fieldParameters = [] := by
  have hname : ∀ st : ParseState, (parseDisplayName st).url.path = st.url.path ∧
      (parseDisplayName st).url.fieldParameters = st.url.fieldParameters := by
    intro st
    unfold parseDisplayName
    cases matchAt displayNameRegex st.rest <;> exact ⟨rfl, rfl⟩
  have hangle : ∀ st : ParseState, (parseAngleBrackets st).url = st.url := by
    intro st
    unfold parseAngleBrackets
    cases matchAt angleBracketsRegex st.rest <;> rfl
  have hscheme : ∀ st : ParseState, (parseScheme form st).url.path = st.url.path ∧
      (parseScheme form st).url.fieldParameters = st.url.fieldParameters := by
    intro st
    unfold parseScheme
    cases matchAt (supportedSchemeRegex form) st.rest <;> exact ⟨rfl, rfl⟩
  have hslashes : ∀ st : ParseState, (skipSlashes st).url = st.url := by
    intro st
    unfold skipSlashes
    split <;> rfl
  have huser : ∀ st : ParseState, (parseUser st).url.path = st.url.path ∧
      (parseUser st).url.fieldParameters = st.url.fieldParameters := by
    intro st
    unfold parseUser
    split
    · exact ⟨rfl, rfl⟩
    · cases matchAt usernameAndPasswordRegex st.rest <;> exact ⟨rfl, rfl⟩
  have hhost : ∀ st : ParseState, (parseHostAndPort st).url.path = st.url.path ∧
      (parseHostAndPort st).url.fieldParameters = st.url.fieldParameters := by
    intro st
    unfold parseHostAndPort
    cases matchAt hostAndPortRegex st.rest with
    | some m => exact ⟨rfl, rfl⟩
    | none =>
      show (if st.url.scheme = .file then st else _).url.path = _ ∧
        (if st.url.scheme = .file then st else _).url.fieldParameters = _
      split <;> exact ⟨rfl, rfl⟩
  unfold parseFront
  cases form with
  | addrSpec =>
    rw [(hhost _).1, (hhost _).2, (huser _).1, (huser _).2, hslashes, (hscheme _).1,
      (hscheme _).2]
    exact ⟨rfl, rfl⟩
  | nameAddr =>
    rw [(hhost _).1, (hhost _).2, (huser _).1, (huser _).2, hslashes, (hscheme _).1,
      (hscheme _).2, hangle, (hname _).1, (hname _).2]
    exact ⟨rfl, rfl⟩

theorem parsePath_added (tail : Text) (st : ParseState) (hnone : st.url.path = [])
    (hends : st.url.scheme.hasPath = true → ∃ c ∈ st.rest, isPathByte c = false) :
    parsePath (st.added tail) = (parsePath st).added tail := by
  by_cases hpath : st.url.scheme.hasPath = true
  · obtain ⟨w, t, hrest, hw, ht⟩ := exists_span isPathByte st.rest
    have hne : t ≠ [] := by
      rintro rfl
      obtain ⟨c, hc, hnot⟩ := hends hpath
      rw [hrest, append_nil] at hc
      exact absurd (hw c hc) (ne_true_of_eq_false hnot)
    obtain ⟨c, t, rfl⟩ := exists_cons_of_ne_nil hne
    have hadded : (st.added tail).rest = w ++ (c :: (t ++ tail)) := by
      rw [ParseState.added_rest, hrest, append_assoc, cons_append]
    have hmore : parsePath (st.added tail) = { st.added tail with
        url := { st.url with path := w }
        rest := c :: (t ++ tail) } :=
      @parsePath_eq (st.added tail) hpath hnone w (c :: (t ++ tail)) hadded hw ht
    rw [parsePath_eq hpath hnone hrest hw ht, hmore]
    rfl
  · unfold parsePath
    rw [if_neg hpath, if_neg (show ¬ (st.added tail).url.scheme.hasPath = true from hpath)]

theorem stopsAt_urlParams : StopsAt (· == byte '>') urlParamsRegex :=
  stopsAt_of_byte (by decide)

theorem stopsAt_headerParams : StopsAt (· == byte '>') headerOrQueryParamsRegex :=
  stopsAt_of_byte (by decide)

theorem parseUrlParams_added (tail : Text) (st : ParseState)
    (hends : st.afterAngleBrackets ≠ none → byte '>' ∈ st.rest) :
    parseUrlParams .nameAddr (st.added tail) = (parseUrlParams .nameAddr st).added tail := by
  have hcond : ((st.added tail).url.scheme.isSip = true ∧
      (UriForm.nameAddr = .addrSpec ∨ (st.added tail).afterAngleBrackets ≠ none)) ↔
      (st.url.scheme.isSip = true ∧
        (UriForm.nameAddr = .addrSpec ∨ st.afterAngleBrackets ≠ none)) := by
    show (_ ∧ (_ ∨ st.afterAngleBrackets.map _ ≠ none)) ↔ _
    rw [Ne, Option.map_eq_none_iff]
    rfl
  unfold parseUrlParams
  by_cases hread : st.url.scheme.isSip = true ∧
      (UriForm.nameAddr = .addrSpec ∨ st.afterAngleBrackets ≠ none)
  · have hbracket := hends (hread.2.resolve_left nofun)
    rw [if_pos hread, if_pos (hcond.mpr hread), ParseState.added_rest,
      matchAt_append_of_mem stopsAt_urlParams ⟨byte '>', hbracket, beq_self_eq_true _⟩]
    cases matchAt urlParamsRegex st.rest <;> rfl
  · rw [if_neg hread, if_neg fun h => hread (hcond.mp h)]

/-- The field parameters begin with a semicolon, blanks aside, or there are none. -/
def AtFields (w : Text) : Prop :=
  (∀ c ∈ w, isSpace c = true) ∨ ∃ u v, w = u ++ byte ';' :: v ∧ ∀ c ∈ u, isSpace c = true

theorem AtFields.added (h : IsAdded tail) (hw : AtFields w) :
    ∃ u v, w ++ tail = u ++ byte ';' :: v ∧ ∀ c ∈ u, isSpace c = true := by
  obtain hblank | ⟨u, v, rfl, hu⟩ := hw
  · obtain ⟨v, hv⟩ := head?_eq_some_iff.mp h.head
    exact ⟨w, v, by rw [hv], hblank⟩
  · exact ⟨u, v ++ tail, by rw [append_assoc, cons_append], hu⟩

theorem run_sws_mark (b : Pattern) {e d : Byte} (he : isSpace e = false)
    (hd : isSpace d = false) (hu : ∀ c ∈ u, isSpace c = true) (v : Text) (n : Nat) :
    run (seq sws (seq (seq (cls (· == e)) eps) b)) n (u ++ d :: v) =
      if d = e then (run b (n + u.length + 1) v).map (Match.append ⟨u ++ [d], v, []⟩) else [] := by
  have hblank : ∀ n c w, isSpace c = true →
      run (seq (seq (cls (· == e)) eps) b) n (c :: w) = [] := by
    intro n c w hc
    rw [run_byte_seq, if_neg]
    rintro rfl
    exact absurd hc (ne_true_of_eq_false he)
  have hv : ∀ c ∈ (d :: v).head?, isSpace c = false := by
    intro c hc
    rw [head?_cons, Option.mem_some_iff] at hc
    rwa [← hc]
  rw [sws, run_star_cls_seq hblank hu hv, run_byte_seq]
  by_cases heq : d = e
  · rw [if_pos heq, if_pos heq, map_map]
    refine congrArg (map · _) (funext fun m => ?_)
    simp [Match.append]
  · rw [if_neg heq, if_neg heq, map_nil]

theorem matchAt_headerParams_atFields (hu : ∀ c ∈ u, isSpace c = true) (v : Text) :
    matchAt headerOrQueryParamsRegex (u ++ byte ';' :: v) = none := by
  have hrun : run headerOrQueryParamsRegex 0 (u ++ byte ';' :: v) = if byte ';' = byte '?' then _
      else [] :=
    run_sws_mark (cat [group 1 (possessive isHeaderParamsByte)]) (by decide) (by decide) hu v 0
  rw [if_neg (by decide)] at hrun
  exact congrArg head? hrun

theorem parseHeaderParams_added (h : IsAdded tail) (st : ParseState) (hends : byte '>' ∈ st.rest ∨
      matchAt headerOrQueryParamsRegex st.rest = none ∧ AtFields st.rest) :
    parseHeaderParams (st.added tail) = (parseHeaderParams st).added tail := by
  unfold parseHeaderParams
  rw [ParseState.added_rest]
  obtain hbracket | ⟨hnone, hfields⟩ := hends
  · rw [matchAt_append_of_mem stopsAt_headerParams ⟨byte '>', hbracket, beq_self_eq_true _⟩]
    cases matchAt headerOrQueryParamsRegex st.rest <;> rfl
  · obtain ⟨u, v, heq, hu⟩ := hfields.added h
    rw [hnone, heq, matchAt_headerParams_atFields hu v]

theorem closeAngleBrackets_added (tail : Text) (st : ParseState) :
    closeAngleBrackets (st.added tail) = (closeAngleBrackets st).added tail := by
  unfold closeAngleBrackets
  have hmap : (st.added tail).afterAngleBrackets = st.afterAngleBrackets.map (· ++ tail) := rfl
  rw [hmap]
  cases hafter : st.afterAngleBrackets with
  | none => rfl
  | some after =>
    have hadded : (st.added tail).afterAngleBrackets = some (after ++ tail) := by
      show st.afterAngleBrackets.map _ = _
      rw [hafter]
      rfl
    have hlength : (st.rest ++ tail).length = (after ++ tail).length + 1 ↔
        st.rest.length = after.length + 1 := by
      rw [length_append, length_append]
      omega
    show (if (st.rest ++ tail).length = (after ++ tail).length + 1 then _ else _) =
      ParseState.added tail (if st.rest.length = after.length + 1 then _ else _)
    by_cases hclose : st.rest.length = after.length + 1
    · rw [if_pos hclose, if_pos (hlength.mpr hclose)]
      rfl
    · rw [if_neg hclose, if_neg fun h => hclose (hlength.mp h)]
      rfl

/-! ### Field parameters -/

/-- A parameter behind blanks, with a value that needs no quotes. -/
def addedText (blanks : Text) (nv : Text × Text) : Text :=
  byte ';' :: (blanks ++ (nv.1 ++ byte '=' :: nv.2))

/-- What can be added as a parameter. -/
structure IsAddedParam (blanks : Text) (nv : Text × Text) : Prop where
  blanks : ∀ c ∈ blanks, isSpace c = true
  name : IsToken nv.1
  value : IsToken nv.2

theorem IsAddedParam.isAdded (h : IsAddedParam blanks nv) : IsAdded (addedText blanks nv) := by
  have htoken : ∀ c, isTokenByte c = true → isAddedByte c = true := fun c hc => by
    rw [isAddedByte, hc, Bool.true_or, Bool.true_or]
  refine ⟨rfl, fun c hc => ?_⟩
  obtain rfl | hc := mem_cons.mp hc
  · decide
  · obtain hc | hc := mem_append.mp hc
    · rw [isAddedByte, h.blanks c hc, Bool.or_true, Bool.true_or]
    · obtain hc | hc := mem_append.mp hc
      · exact htoken c (h.name.2 c hc)
      · obtain rfl | hc := mem_cons.mp hc
        · decide
        · exact htoken c (h.value.2 c hc)

/-- Without blanks in front of the name there are none at all. -/
theorem IsAddedParam.not_isSpace (h : IsAddedParam [] nv) :
    ∀ c ∈ addedText [] nv, isSpace c = false := by
  intro c hc
  obtain rfl | hc := mem_cons.mp hc
  · decide
  · rw [nil_append] at hc
    obtain hc | hc := mem_append.mp hc
    · exact isSpace_of_isTokenByte c (h.name.2 c hc)
    · obtain rfl | hc := mem_cons.mp hc
      · decide
      · exact isSpace_of_isTokenByte c (h.value.2 c hc)

theorem matchAt_endUrl_blank (hw : ∀ c ∈ w, isSpace c = true) :
    matchAt endUrlRegex w = some ⟨w, [], []⟩ := by
  have hnil : ∀ c ∈ ([] : Text).head?, isSpace c = false := nofun
  have hblank := head?_run_star_cls hw hnil 0
  rw [append_nil] at hblank
  have hend : (run eol (0 + w.length) []).head? = some ⟨[], [], []⟩ := rfl
  refine (head?_run_seq hblank hend).trans ?_
  rw [Match.append, append_nil]
  rfl

theorem isSpace_of_matchAt_endUrl (hm : matchAt endUrlRegex w = some m) :
    ∀ c ∈ w, isSpace c = true := by
  obtain ⟨m₁, hm₁, m₂, hm₂, rfl⟩ := mem_run_seq.mp (mem_run_of_matchAt hm)
  have hblank : ∀ c ∈ m₁.text, isSpace c = true := mem_lang_star_cls.mp (text_mem_lang hm₁)
  rw [append_of_mem_run hm₁]
  intro c hc
  obtain hc | hc := mem_append.mp hc
  · exact hblank c hc
  · obtain hnil | hnewline := (mem_run_eol.mp hm₂).1
    · rw [hnil] at hc
      exact absurd hc not_mem_nil
    · rw [hnewline, mem_singleton] at hc
      rw [hc]
      decide

theorem matchAt_endUrl_eq_none (hc : c ∈ w) (hspace : isSpace c = false) :
    matchAt endUrlRegex w = none := by
  cases hm : matchAt endUrlRegex w with
  | none => rfl
  | some m => exact absurd (isSpace_of_matchAt_endUrl hm c hc) (ne_true_of_eq_false hspace)

theorem matchAt_fieldParamName_blank {u' name : Text} (hu : ∀ c ∈ u, isSpace c = true)
    (hu' : ∀ c ∈ u', isSpace c = true) (hname : IsToken name)
    (hw : ∀ c ∈ w.head?, isTokenByte c = false ∧ isSpace c = false) :
    matchAt fieldParamNameRegex (u ++ byte ';' :: (u' ++ (name ++ w))) =
      some ⟨u ++ byte ';' :: (u' ++ name), w, [(1, name)]⟩ := by
  have hrun : run fieldParamNameRegex 0 (u ++ byte ';' :: (u' ++ (name ++ w))) =
      (run (cat [sws, group 1 sipToken, sws]) (0 + u.length + 1) (u' ++ (name ++ w))).map
        (Match.append ⟨u ++ [byte ';'], u' ++ (name ++ w), []⟩) :=
    (run_sws_mark _ (by decide) (by decide) hu (u' ++ (name ++ w)) 0).trans (if_pos rfl)
  have hblank : ∀ n, (run sws n (u' ++ (name ++ w))).head? = some ⟨u', name ++ w, []⟩ :=
    head?_run_star_cls hu' fun c hc =>
      isSpace_of_isTokenByte c (head?_eq_of_isToken hname w c hc)
  have htoken := fun n => head?_run_group (k := 1)
    (head?_run_sipToken hname (fun c hc => (hw c hc).1) n)
  have hblank' := fun n => head?_run_sws (fun c hc => (hw c hc).2) n
  have hend : ∀ n, (run (cat []) n w).head? = some ⟨[], w, []⟩ := fun n => rfl
  have h := head?_run_seq (hblank (0 + u.length + 1)) (head?_run_seq (htoken _)
    (head?_run_seq (hblank' _) (hend _)))
  rw [matchAt, hrun, head?_map]
  refine (congrArg (Option.map _) h).trans ?_
  simp [Match.append]

theorem matchAt_comma_semicolon (hu : ∀ c ∈ u, isSpace c = true) (v : Text) :
    matchAt commaSeparatorRegex (u ++ byte ';' :: v) = none := by
  have hrun : run commaSeparatorRegex 0 (u ++ byte ';' :: v) = if byte ';' = byte ',' then _
      else [] := run_sws_mark (cat [sws]) (by decide) (by decide) hu v 0
  rw [if_neg (by decide)] at hrun
  exact congrArg head? hrun

/-- A parameter at the end is read and put behind the others. -/
theorem parseFieldParams_last (h : IsAddedParam blanks nv) (hu : ∀ c ∈ u, isSpace c = true)
    (fuel : Nat) (st : ParseState)
    (hscheme : st.url.scheme ≠ .unknown) (hrest : st.rest = u ++ addedText blanks nv) :
    parseFieldParams (fuel + 2) st =
      { st with url := { st.url with fieldParameters := st.url.fieldParameters ++ [nv] }
                rest := [] } := by
  have hsemi : byte ';' ∈ u ++ addedText blanks nv := mem_append_right u mem_cons_self
  have hequals : ∀ c ∈ (byte '=' :: nv.2).head?, isTokenByte c = false ∧ isSpace c = false := by
    intro c hc
    rw [head?_cons, Option.mem_some_iff] at hc
    rw [← hc]
    decide
  have hread : parseFieldParamValue (byte '=' :: nv.2) = (nv.2, []) := by
    have htoken : matchAt fieldParamEqualsUnquotedValueRegex (byte '=' :: (nv.2 ++ [])) =
        some ⟨_, [], _⟩ := matchAt_unquoted_token h.value nofun
    rw [append_nil] at htoken
    unfold parseFieldParamValue
    rw [htoken]
    rfl
  have hmatch := matchAt_fieldParamName_blank hu h.blanks h.name hequals
  rw [parseFieldParams, if_neg hscheme, hrest, matchAt_endUrl_eq_none hsemi (by decide), addedText,
    matchAt_comma_semicolon hu, hmatch]
  dsimp only
  rw [hread]
  show parseFieldParams (fuel + 1) { st with
    url := { st.url with fieldParameters := st.url.fieldParameters ++
      [(genValueUnescape nv.1, genValueUnescape nv.2)] }
    rest := [] } = _
  rw [genValueUnescape_token h.name, genValueUnescape_token h.value, parseFieldParams,
    if_neg (show ¬ st.url.scheme = .unknown from hscheme)]
  rfl

theorem parseFieldParamValue_added (h : IsAdded tail) (w : Text) :
    parseFieldParamValue (w ++ tail) =
      ((parseFieldParamValue w).1, (parseFieldParamValue w).2 ++ tail) := by
  have hunquoted : Blind tail fieldParamEqualsUnquotedValueRegex :=
    h.blind (by decide)
  have hquoted : Blind tail fieldParamEqualsQuotedValueRegex := by
    have heps : Blind tail eps := h.blind rfl
    have hbody : Closed tail (cat [star (alt (possessive (· != byte '"')) (seq (lit "\\") anyByte)),
        lit "\""]) := by
      refine Closed.seq (.star (.alt (local_possessive _) (.seq ?_ (local_cls _)))) ?_
      · exact .seq (local_cls _) heps.local
      · exact ((closed_lit (h.not_mem (by decide))).then heps).then heps
    refine .seq (h.blind (by decide))
      (.seq ?_ (.seq (.group 1 ?_) heps))
    · exact h.blind (by decide)
    · exact .seq (h.blind (by decide)) hbody.blind
  unfold parseFieldParamValue
  rw [hunquoted.matchAt_append]
  cases matchAt fieldParamEqualsUnquotedValueRegex w with
  | some m => rfl
  | none =>
    rw [Option.map_none, hquoted.matchAt_append]
    cases matchAt fieldParamEqualsQuotedValueRegex w <;> rfl

theorem matchAt_fieldParamName_added (h : IsAdded tail) (hc : c ∈ w)
    (hspace : isSpace c = false) : matchAt fieldParamNameRegex (w ++ tail) =
      (matchAt fieldParamNameRegex w).map (Match.before tail) := by
  have hbody : Blind tail (cat [sws, group 1 sipToken, sws]) :=
    h.blind (by decide)
  obtain ⟨u, v, rfl, hu, hv⟩ := exists_span isSpace w
  cases v with
  | nil =>
    rw [append_nil] at hc
    exact absurd (hu c hc) (ne_true_of_eq_false hspace)
  | cons d v =>
    have hd : isSpace d = false := hv d rfl
    have hrun : ∀ v, run fieldParamNameRegex 0 (u ++ d :: v) = if d = byte ';' then _ else [] :=
      fun v => run_sws_mark (cat [sws, group 1 sipToken, sws]) (by decide) hd hu v 0
    rw [append_assoc, cons_append, matchAt, matchAt, hrun v, hrun (v ++ tail)]
    by_cases hsemi : d = byte ';'
    · rw [if_pos hsemi, if_pos hsemi, hbody, map_map, head?_map, head?_map,
        Option.map_map]
      rfl
    · rw [if_neg hsemi, if_neg hsemi]
      rfl

/-- One round reads one parameter and leaves the rest. -/
theorem parseFieldParams_round {st : ParseState} (hc : c ∈ st.rest)
    (hspace : isSpace c = false)
    (hknown : (parseFieldParams (fuel + 1) st).url.scheme ≠ .unknown)
    (hblank : ∀ c ∈ (parseFieldParams (fuel + 1) st).rest, isSpace c = true) :
    matchAt commaSeparatorRegex st.rest = none ∧
      ∃ m, matchAt fieldParamNameRegex st.rest = some m ∧
        parseFieldParams (fuel + 1) st = parseFieldParams fuel
          { st with
            url := { st.url with
              fieldParameters := st.url.fieldParameters ++
                [(genValueUnescape ((m.group 1).getD []),
                  genValueUnescape (parseFieldParamValue m.rest).1)] }
            rest := (parseFieldParamValue m.rest).2 } := by
  have hend := matchAt_endUrl_eq_none hc hspace
  have hscheme : st.url.scheme ≠ .unknown := (keeps_parseFieldParams _ _).known hknown
  rw [parseFieldParams, if_neg hscheme, hend] at hknown hblank ⊢
  dsimp only at hknown hblank ⊢
  cases hcomma : matchAt commaSeparatorRegex st.rest with
  | some m =>
    rw [hcomma] at hblank
    exact absurd (hblank c hc) (ne_true_of_eq_false hspace)
  | none =>
    rw [hcomma] at hknown hblank
    dsimp only at hknown hblank ⊢
    cases hname : matchAt fieldParamNameRegex st.rest with
    | none =>
      rw [hname] at hknown
      exact absurd rfl hknown
    | some m => exact ⟨rfl, m, rfl, rfl⟩

/-- **The loop over the field parameters** reads one more at the end. -/
theorem parseFieldParams_added (h : IsAddedParam blanks nv)
    {fuel' : Nat} (hfuel : fuel + 2 ≤ fuel') (st : ParseState)
    (hknown : (parseFieldParams fuel st).url.scheme ≠ .unknown)
    (hblank : ∀ c ∈ (parseFieldParams fuel st).rest, isSpace c = true) :
    (parseFieldParams fuel' (st.added (addedText blanks nv))).url =
        { (parseFieldParams fuel st).url with
          fieldParameters := (parseFieldParams fuel st).url.fieldParameters ++ [nv] } ∧
      (parseFieldParams fuel' (st.added (addedText blanks nv))).rest = [] := by
  have hadded := h.isAdded
  induction fuel generalizing fuel' st with
  | zero =>
    obtain ⟨fuel', rfl⟩ := Nat.exists_eq_add_of_le' hfuel
    rw [Nat.zero_add, parseFieldParams_last h hblank fuel' (st.added _) hknown rfl]
    exact ⟨rfl, rfl⟩
  | succ fuel ih =>
    obtain ⟨fuel', rfl⟩ := Nat.exists_eq_add_of_le' hfuel
    have hscheme : st.url.scheme ≠ .unknown := (keeps_parseFieldParams _ _).known hknown
    by_cases hrest : ∀ c ∈ st.rest, isSpace c = true
    · have hlast := parseFieldParams_last h hrest (fuel' + (fuel + 1)) (st.added _)
        hscheme rfl
      rw [← Nat.add_assoc, ← Nat.add_assoc]
      rw [← Nat.add_assoc] at hlast
      rw [hlast, parseFieldParams, if_neg hscheme, matchAt_endUrl_blank hrest]
      exact ⟨rfl, rfl⟩
    · push Not at hrest
      obtain ⟨c, hc, hspace⟩ := hrest
      have hspace : isSpace c = false := eq_false_of_ne_true hspace
      obtain ⟨hcomma, m, hm, hround⟩ := parseFieldParams_round hc hspace hknown hblank
      rw [hround] at hknown hblank ⊢
      have hcomma' : matchAt commaSeparatorRegex (st.rest ++ addedText blanks nv) = none := by
        rw [(hadded.blind (by decide)).matchAt_append, hcomma]
        rfl
      have hm' : matchAt fieldParamNameRegex (st.rest ++ addedText blanks nv) =
          some (m.before (addedText blanks nv)) := by
        rw [matchAt_fieldParamName_added hadded hc hspace, hm]
        rfl
      have hnext : parseFieldParams (fuel' + (fuel + 1 + 2)) (st.added (addedText blanks nv)) =
          parseFieldParams (fuel' + (fuel + 2)) (ParseState.added (addedText blanks nv)
            { st with
              url := { st.url with
                fieldParameters := st.url.fieldParameters ++
                  [(genValueUnescape ((m.group 1).getD []),
                    genValueUnescape (parseFieldParamValue m.rest).1)] }
              rest := (parseFieldParamValue m.rest).2 }) := by
        show parseFieldParams (fuel' + (fuel + 2) + 1) _ = _
        rw [parseFieldParams, if_neg (show ¬ (st.added _).url.scheme = .unknown from hscheme),
          ParseState.added_rest, matchAt_endUrl_eq_none (mem_append_left _ hc) hspace,
          hcomma', hm']
        show parseFieldParams _ { st.added _ with
          url := { st.url with
            fieldParameters := st.url.fieldParameters ++
              [(genValueUnescape ((m.group 1).getD []),
                genValueUnescape (parseFieldParamValue (m.rest ++ addedText blanks nv)).1)] }
          rest := (parseFieldParamValue (m.rest ++ addedText blanks nv)).2 } = _
        rw [parseFieldParamValue_added hadded]
        rfl
      rw [hnext]
      exact ih (Nat.le_add_left _ _) _ hknown hblank

theorem atFields_of_parseFieldParams {st : ParseState}
    (hknown : (parseFieldParams (fuel + 1) st).url.scheme ≠ .unknown)
    (hblank : ∀ c ∈ (parseFieldParams (fuel + 1) st).rest, isSpace c = true) :
    AtFields st.rest := by
  obtain ⟨u, v, hrest, hu, hv⟩ := exists_span isSpace st.rest
  cases v with
  | nil =>
    rw [append_nil] at hrest
    exact Or.inl (hrest ▸ hu)
  | cons d v =>
    have hd : isSpace d = false := hv d rfl
    have hmem : d ∈ st.rest := by
      rw [hrest]
      exact mem_append_right u mem_cons_self
    obtain ⟨-, m, hm, -⟩ := parseFieldParams_round hmem hd hknown hblank
    have hrun : run fieldParamNameRegex 0 (u ++ d :: v) = if d = byte ';' then _ else [] :=
      run_sws_mark (cat [sws, group 1 sipToken, sws]) (by decide) hd hu v 0
    by_cases hsemi : d = byte ';'
    · exact Or.inr ⟨u, v, hsemi ▸ hrest, hu⟩
    · rw [if_neg hsemi] at hrun
      rw [hrest, matchAt, hrun] at hm
      simp at hm

/-! ### The whole text -/

/-- A stage goes on in what is left, and leaves the brackets alone. -/
structure GoesOn (st st' : ParseState) : Prop where
  suffix : st'.rest <:+ st.rest
  afterAngleBrackets : st'.afterAngleBrackets = st.afterAngleBrackets

theorem GoesOn.refl (st : ParseState) : GoesOn st st := ⟨suffix_refl _, rfl⟩

theorem GoesOn.trans {st st' st'' : ParseState} (h : GoesOn st st') (h' : GoesOn st' st'') :
    GoesOn st st'' :=
  ⟨h'.suffix.trans h.suffix, h'.afterAngleBrackets.trans h.afterAngleBrackets⟩

theorem suffix_of_matchAt {p : Pattern} (hm : matchAt p w = some m) :
    m.rest <:+ w := ⟨m.text, (append_of_mem_run (mem_run_of_matchAt hm)).symm⟩

theorem goesOn_parseScheme (form : UriForm) (st : ParseState) :
    GoesOn st (parseScheme form st) := by
  unfold parseScheme
  cases hm : matchAt (supportedSchemeRegex form) st.rest with
  | none => exact ⟨suffix_refl _, rfl⟩
  | some m => exact ⟨suffix_of_matchAt hm, rfl⟩

theorem goesOn_skipSlashes (st : ParseState) : GoesOn st (skipSlashes st) := by
  unfold skipSlashes
  split
  · exact ⟨drop_suffix 2 st.rest, rfl⟩
  · exact .refl st

theorem goesOn_parseUser (st : ParseState) : GoesOn st (parseUser st) := by
  unfold parseUser
  split
  · exact .refl st
  · cases hm : matchAt usernameAndPasswordRegex st.rest with
    | none => exact .refl st
    | some m => exact ⟨suffix_of_matchAt hm, rfl⟩

theorem goesOn_parseHostAndPort (st : ParseState) : GoesOn st (parseHostAndPort st) := by
  unfold parseHostAndPort
  cases hm : matchAt hostAndPortRegex st.rest with
  | some m => exact ⟨suffix_of_matchAt hm, rfl⟩
  | none =>
    show GoesOn st (if st.url.scheme = .file then st else _)
    split
    · exact .refl st
    · exact ⟨suffix_refl _, rfl⟩

theorem goesOn_parsePath (st : ParseState) : GoesOn st (parsePath st) := by
  unfold parsePath
  split
  · cases matchAt urlPathRegex st.rest with
    | none => exact .refl st
    | some m => exact ⟨drop_suffix _ st.rest, rfl⟩
  · exact .refl st

theorem goesOn_parseUrlParams (form : UriForm) (st : ParseState) :
    GoesOn st (parseUrlParams form st) := by
  unfold parseUrlParams
  split
  · cases hm : matchAt urlParamsRegex st.rest with
    | none => exact .refl st
    | some m => exact ⟨suffix_of_matchAt hm, rfl⟩
  · exact .refl st

theorem goesOn_parseHeaderParams (st : ParseState) : GoesOn st (parseHeaderParams st) := by
  unfold parseHeaderParams
  cases hm : matchAt headerOrQueryParamsRegex st.rest with
  | none => exact .refl st
  | some m => exact ⟨suffix_of_matchAt hm, rfl⟩

/-- Behind an opening bracket the closing one is left. -/
def Bracketed (st : ParseState) : Prop :=
  ∀ after, st.afterAngleBrackets = some after → ∃ inner, st.rest <:+ inner ++ byte '>' :: after

theorem bracketed_parseFront (s : Text) : Bracketed (parseFront .nameAddr s) := by
  intro after hafter
  have hon : ∀ st, GoesOn st
      (parseHostAndPort (parseUser (skipSlashes (parseScheme .nameAddr st)))) :=
    fun st => (((goesOn_parseScheme _ _).trans (goesOn_skipSlashes _)).trans
      (goesOn_parseUser _)).trans (goesOn_parseHostAndPort _)
  have hnone : (parseDisplayName { url := {}, rest := s }).afterAngleBrackets = none := by
    unfold parseDisplayName
    cases matchAt displayNameRegex s <;> rfl
  unfold parseFront at hafter ⊢
  dsimp only at hafter ⊢
  generalize parseDisplayName { url := {}, rest := s } = st at hnone hafter ⊢
  rw [(hon _).afterAngleBrackets] at hafter
  have hsuffix := (hon (parseAngleBrackets st)).suffix
  generalize (parseHostAndPort _).rest = rest at hsuffix ⊢
  unfold parseAngleBrackets at hafter hsuffix
  cases hm : matchAt angleBracketsRegex st.rest with
  | none =>
    rw [hm] at hafter
    exact absurd (hafter.symm.trans hnone) nofun
  | some m =>
    rw [hm] at hafter hsuffix
    obtain rfl : m.rest = after := Option.some.inj hafter
    exact ⟨(m.group 1).getD [], hsuffix⟩

theorem Bracketed.mem {st : ParseState} (h : Bracketed st) {after : Text}
    (hafter : st.afterAngleBrackets = some after) (hlength : after.length < st.rest.length) :
    byte '>' ∈ st.rest := by
  obtain ⟨inner, hsuffix⟩ := h after hafter
  have hclosing : byte '>' :: after <:+ st.rest :=
    suffix_of_suffix_length_le (suffix_append inner _) hsuffix hlength
  exact hclosing.mem mem_cons_self

/-- The state in front of the field parameters. -/
def beforeFields (st : ParseState) : ParseState :=
  closeAngleBrackets (parseHeaderParams (parseUrlParams .nameAddr (parsePath st)))

def behindFields (st : ParseState) : ParseState :=
  parseFieldParams ((beforeFields st).rest.length + 1) (beforeFields st)

theorem parseBack_of_known {st : ParseState}
    (hknown : (parseUrlParams .nameAddr (parsePath st)).url.scheme ≠ .unknown) :
    parseBack .nameAddr st = behindFields st := if_neg hknown

/-- A text is accepted where the field parameters are and nothing is left behind them. -/
structure ReadToEnd (st : ParseState) : Prop where
  known : (behindFields st).url.scheme ≠ .unknown
  blank : ∀ c ∈ (behindFields st).rest, isSpace c = true

theorem ReadToEnd.parseEnd_eq {st : ParseState} (h : ReadToEnd st) :
    (parseEnd .nameAddr false (parseBack .nameAddr st)).url = (behindFields st).url := by
  have hclosed : (beforeFields st).url.scheme ≠ .unknown :=
    (keeps_parseFieldParams _ _).known h.known
  have hparams : (parseUrlParams .nameAddr (parsePath st)).url.scheme ≠ .unknown :=
    ((keeps_parseHeaderParams _).trans (keeps_closeAngleBrackets _)).known hclosed
  have hend : matchAt (endRegex .nameAddr false) (behindFields st).rest =
      some ⟨(behindFields st).rest, [], []⟩ := matchAt_endUrl_blank h.blank
  rw [parseBack_of_known hparams, parseEnd, if_neg h.known, hend]

theorem readToEnd_of_known {st : ParseState}
    (hknown : (parseEnd .nameAddr false (parseBack .nameAddr st)).url.scheme ≠ .unknown) :
    ReadToEnd st := by
  have hback := (keeps_parseEnd .nameAddr false _).known hknown
  have hparams : (parseUrlParams .nameAddr (parsePath st)).url.scheme ≠ .unknown := by
    intro h
    have hsame : parseBack .nameAddr st = parseUrlParams .nameAddr (parsePath st) := if_pos h
    rw [hsame] at hback
    exact hback h
  rw [parseBack_of_known hparams] at hback hknown
  refine ⟨hback, ?_⟩
  rw [parseEnd, if_neg hback] at hknown
  cases hm : matchAt (endRegex .nameAddr false) (behindFields st).rest with
  | none =>
    rw [hm] at hknown
    exact absurd rfl hknown
  | some m => exact isSpace_of_matchAt_endUrl hm

/-- The parser comes to the field parameters: no path and no header parameters take the end of the
text. -/
structure TakesParams (st : ParseState) : Prop where
  path : st.url.scheme.hasPath = true → ∃ c ∈ st.rest, isPathByte c = false
  header : st.afterAngleBrackets = none →
    matchAt headerOrQueryParamsRegex (parsePath st).rest = none

theorem parseUrlParams_unbracketed {st : ParseState} (hst : st.afterAngleBrackets = none) :
    parseUrlParams .nameAddr st = st := if_neg fun h => h.2.elim nofun fun hne => hne hst

theorem closeAngleBrackets_unbracketed {st : ParseState} (hst : st.afterAngleBrackets = none) :
    closeAngleBrackets st = st := by
  unfold closeAngleBrackets
  rw [hst]

theorem parseHeaderParams_of_none {st : ParseState}
    (hst : matchAt headerOrQueryParamsRegex st.rest = none) : parseHeaderParams st = st := by
  unfold parseHeaderParams
  rw [hst]

theorem ReadToEnd.mem_bracket {st : ParseState} (h : ReadToEnd st) (hst : Bracketed st)
    {after : Text} (hafter : st.afterAngleBrackets = some after) :
    byte '>' ∈ (parseHeaderParams (parseUrlParams .nameAddr (parsePath st))).rest := by
  have hon : GoesOn st (parseHeaderParams (parseUrlParams .nameAddr (parsePath st))) :=
    ((goesOn_parsePath _).trans (goesOn_parseUrlParams _ _)).trans (goesOn_parseHeaderParams _)
  have hclosed : (beforeFields st).url.scheme ≠ .unknown :=
    (keeps_parseFieldParams _ _).known h.known
  rw [beforeFields] at hclosed
  generalize parseHeaderParams (parseUrlParams .nameAddr (parsePath st)) = st' at hon hclosed ⊢
  have hafter' := hon.afterAngleBrackets.trans hafter
  have hlength : st'.rest.length = after.length + 1 := by
    by_contra hne
    rw [closeAngleBrackets, hafter'] at hclosed
    dsimp only at hclosed
    rw [if_neg hne] at hclosed
    exact hclosed rfl
  refine Bracketed.mem (fun after' h => ?_) hafter' (by omega)
  obtain ⟨inner, hinner⟩ := hst after' (hon.afterAngleBrackets.symm.trans h)
  exact ⟨inner, hon.suffix.trans hinner⟩

theorem beforeFields_of_none {st : ParseState} (hst : st.afterAngleBrackets = none)
    (hheader : matchAt headerOrQueryParamsRegex (parsePath st).rest = none) :
    beforeFields st = parsePath st := by
  have hnone := (goesOn_parsePath st).afterAngleBrackets.trans hst
  rw [beforeFields, parseUrlParams_unbracketed hnone, parseHeaderParams_of_none hheader,
    closeAngleBrackets_unbracketed hnone]

/-- What is added at the end does not change how the front is read. -/
theorem beforeFields_added (h : IsAdded tail) {st : ParseState} (hread : ReadToEnd st)
    (hst : Bracketed st) (hpath : st.url.path = []) (htakes : TakesParams st) :
    beforeFields (st.added tail) = (beforeFields st).added tail := by
  have hon₁ := goesOn_parsePath st
  have hon₂ := goesOn_parseUrlParams .nameAddr (parsePath st)
  have hon₃ := goesOn_parseHeaderParams (parseUrlParams .nameAddr (parsePath st))
  have hparams : parseUrlParams .nameAddr ((parsePath st).added tail) =
      (parseUrlParams .nameAddr (parsePath st)).added tail := by
    refine parseUrlParams_added _ _ fun hne => ?_
    obtain ⟨after, hafter⟩ := Option.ne_none_iff_exists'.mp hne
    have hmem := hread.mem_bracket hst (hon₁.afterAngleBrackets.symm.trans hafter)
    exact (hon₂.trans hon₃).suffix.mem hmem
  have hheader : parseHeaderParams ((parseUrlParams .nameAddr (parsePath st)).added tail) =
      (parseHeaderParams (parseUrlParams .nameAddr (parsePath st))).added tail := by
    refine parseHeaderParams_added h _ ?_
    cases hafter : st.afterAngleBrackets with
    | some after => exact Or.inl (hon₃.suffix.mem (hread.mem_bracket hst hafter))
    | none =>
      have hat := atFields_of_parseFieldParams hread.known hread.blank
      rw [beforeFields_of_none hafter (htakes.header hafter)] at hat
      rw [parseUrlParams_unbracketed (hon₁.afterAngleBrackets.trans hafter)]
      exact Or.inr ⟨htakes.header hafter, hat⟩
  rw [beforeFields, parsePath_added tail st hpath htakes.path, hparams, hheader,
    closeAngleBrackets_added]
  rfl

theorem behindFields_added (h : IsAddedParam blanks nv)
    {st : ParseState} (hread : ReadToEnd st) (hst : Bracketed st) (hpath : st.url.path = [])
    (htakes : TakesParams st) :
    (behindFields (st.added (addedText blanks nv))).url =
        { (behindFields st).url with
          fieldParameters := (behindFields st).url.fieldParameters ++ [nv] } ∧
      (behindFields (st.added (addedText blanks nv))).rest = [] := by
  have hlength : (beforeFields st).rest.length + 1 + 2 ≤
      ((beforeFields st).added (addedText blanks nv)).rest.length + 1 := by
    have hpos := length_pos_of_ne_nil h.name.1
    rw [ParseState.added_rest, length_append, addedText, length_cons, length_append,
      length_append, length_cons]
    omega
  have hloop := parseFieldParams_added h hlength _ hread.known hread.blank
  rw [behindFields, beforeFields_added (h.isAdded) hread hst hpath htakes]
  exact hloop

/-- **One more field parameter**: that is how a parameter behind the text is read. -/
theorem fromString_added {s : Text} (hknown : (fromString s .nameAddr).scheme ≠ .unknown)
    (htakes : TakesParams (parseFront .nameAddr s))
    (h : IsAddedParam blanks nv) : fromString (s ++ addedText blanks nv) .nameAddr =
      { fromString s .nameAddr with
        fieldParameters := (fromString s .nameAddr).fieldParameters ++ [nv] } := by
  unfold fromString parseString at hknown ⊢
  rw [parseFront_added (h.isAdded) s]
  have hpath := (parseFront_fresh .nameAddr s).1
  have hst := bracketed_parseFront s
  generalize parseFront .nameAddr s = st at hknown htakes hpath hst ⊢
  have hread := readToEnd_of_known hknown
  obtain ⟨hurl, hrest⟩ := behindFields_added h hread hst hpath htakes
  have hread' : ReadToEnd (st.added (addedText blanks nv)) :=
    ⟨by rw [hurl]; exact hread.known, by rw [hrest]; nofun⟩
  rw [hread'.parseEnd_eq, hread.parseEnd_eq, hurl]

/-! ### Texts that take no field parameter -/

theorem parseEnd_of_nothing_left {st : ParseState}
    (hknown : (beforeFields st).url.scheme ≠ .unknown) (hrest : (beforeFields st).rest = []) :
    (parseEnd .nameAddr false (parseBack .nameAddr st)).url = (beforeFields st).url := by
  have hbehind : behindFields st = beforeFields st := by
    rw [behindFields, parseFieldParams, if_neg hknown, hrest]
    show { beforeFields st with rest := [] } = _
    rw [← hrest]
  have hread : ReadToEnd st := by
    refine ⟨?_, ?_⟩
    · rwa [hbehind]
    · rw [hbehind, hrest]
      exact fun c hc => absurd hc not_mem_nil
  rw [hread.parseEnd_eq, hbehind]

theorem matchAt_rawParams_blanks {mark : String} {e : Byte} (hmark : text mark = [e])
    (he : isSpace e = false) {p : Byte → Bool} {raw v : Text}
    (hu : ∀ c ∈ u, isSpace c = true) (hne : raw ≠ []) (hraw : ∀ c ∈ raw, p c = true)
    (hv : ∀ c ∈ v.head?, p c = false) :
    matchAt (cat [sws, lit mark, group 1 (possessive p)]) (u ++ e :: (raw ++ v)) =
      some ⟨u ++ e :: raw, v, [(1, raw)]⟩ := by
  have hlit : lit mark = seq (cls (· == e)) eps := by
    rw [lit, hmark]
    rfl
  have hrun := run_sws_mark (cat [group 1 (possessive p)]) he he hu (raw ++ v) 0
  have hbody : ∀ n, run (cat [group 1 (possessive p)]) n (raw ++ v) = [⟨raw, v, [(1, raw)]⟩] := by
    intro n
    have hgroup : run (group 1 (possessive p)) n (raw ++ v) = [⟨raw, v, [(1, raw)]⟩] := by
      rw [run, run_possessive hne hraw hv]
      rfl
    refine (run_seq_of_singleton hgroup).trans ?_
    show [Match.append _ _] = _
    simp [Match.append]
  rw [if_pos rfl, hbody, ← hlit] at hrun
  exact (congrArg head? hrun).trans (by simp [Match.append])

theorem exists_of_matchAt_rawParams {mark : String} (e : Byte) (hmark : text mark = [e])
    {p : Byte → Bool} (hm : matchAt (cat [sws, lit mark, group 1 (possessive p)]) w = some m) :
    ∃ u raw v, w = u ++ e :: (raw ++ v) ∧ (∀ c ∈ u, isSpace c = true) ∧ raw ≠ [] ∧
      (∀ c ∈ raw, p c = true) ∧ ∀ c ∈ v.head?, p c = false := by
  obtain ⟨m₁, hm₁, m₂, hm₂, -⟩ := mem_run_seq.mp (mem_run_of_matchAt hm)
  obtain ⟨m₃, hm₃, m₄, hm₄, -⟩ := mem_run_seq.mp hm₂
  obtain ⟨m₅, hm₅, -⟩ := mem_run_seq.mp hm₄
  have hblank : ∀ c ∈ m₁.text, isSpace c = true := mem_lang_star_cls.mp (text_mem_lang hm₁)
  have htext : m₃.text = text mark := mem_lang_lit.mp (text_mem_lang hm₃)
  have hw : w = m₁.text ++ e :: m₃.rest := by
    rw [append_of_mem_run hm₁, append_of_mem_run hm₃, htext, hmark]
    rfl
  obtain ⟨raw, v, hrest, hraw, hv⟩ := exists_span p m₃.rest
  refine ⟨m₁.text, raw, v, by rw [hw, hrest], hblank, ?_, hraw, hv⟩
  rintro rfl
  rw [hrest, nil_append, run, run_possessive_eq_nil hv] at hm₅
  exact absurd hm₅ not_mem_nil

theorem matchAt_headerParams {raw v : Text} (hu : ∀ c ∈ u, isSpace c = true) (hne : raw ≠ [])
    (hraw : ∀ c ∈ raw, isHeaderParamsByte c = true)
    (hv : ∀ c ∈ v.head?, isHeaderParamsByte c = false) :
    matchAt headerOrQueryParamsRegex (u ++ byte '?' :: (raw ++ v)) =
      some ⟨u ++ byte '?' :: raw, v, [(1, raw)]⟩ :=
  matchAt_rawParams_blanks (rfl : text "?" = [byte '?']) (by decide) hu hne hraw hv

theorem fieldParameters_parsePath (st : ParseState) :
    (parsePath st).url.fieldParameters = st.url.fieldParameters := by
  unfold parsePath
  split
  · cases matchAt urlPathRegex st.rest <;> rfl
  · rfl

theorem beforeFields_added_of_not {st : ParseState} (h : IsAdded tail)
    (hspace : ∀ c ∈ tail, isSpace c = false) (hread : ReadToEnd st)
    (hst : Bracketed st) (hpath : st.url.path = []) (hnot : ¬ TakesParams st) :
    (beforeFields (st.added tail)).url.scheme ≠ .unknown ∧
      (beforeFields (st.added tail)).rest = [] ∧
      (beforeFields (st.added tail)).url.fieldParameters = st.url.fieldParameters := by
  by_cases hends : st.url.scheme.hasPath = true → ∃ c ∈ st.rest, isPathByte c = false
  · -- the header parameters
    obtain ⟨hafter, m, hm⟩ : st.afterAngleBrackets = none ∧
        ∃ m, matchAt headerOrQueryParamsRegex (parsePath st).rest = some m := by
      by_contra hno
      refine hnot ⟨hends, fun hafter => ?_⟩
      by_contra hsome
      exact hno ⟨hafter, Option.ne_none_iff_exists'.mp hsome⟩
    obtain ⟨u, raw, v, hrest, hu, hne, hraw, hv⟩ :=
      exists_of_matchAt_rawParams (byte '?') (rfl : text "?" = _) hm
    have hone := matchAt_headerParams hu hne hraw hv
    rw [← hrest] at hone
    have hnone := (goesOn_parsePath st).afterAngleBrackets.trans hafter
    have hbefore : beforeFields st = { parsePath st with
        url := { (parsePath st).url with
          headerOrQueryParameters := parseCgiVariables (byte '&') raw }
        rest := v } := by
      have hparams : parseHeaderParams (parsePath st) = { parsePath st with
          url := { (parsePath st).url with
            headerOrQueryParameters := parseCgiVariables (byte '&') raw }
          rest := v } := by
        unfold parseHeaderParams
        rw [hone]
        rfl
      rw [beforeFields, parseUrlParams_unbracketed hnone, hparams]
      exact closeAngleBrackets_unbracketed hnone
    have hknown : (parsePath st).url.scheme ≠ .unknown := by
      have hclosed : (beforeFields st).url.scheme ≠ .unknown :=
        (keeps_parseFieldParams _ _).known hread.known
      rwa [hbefore] at hclosed
    -- nothing is left behind them
    have hnil : v = [] := by
      have hat := atFields_of_parseFieldParams hread.known hread.blank
      rw [hbefore] at hat
      have hhead : ∀ c ∈ v.head?, isSpace c = false ∧ c ≠ byte ';' := by
        intro c hc
        have hbyte := hv c hc
        rw [isHeaderParamsByte, Bool.not_eq_false'] at hbyte
        have hmarks : ∀ b ∈ text ",>", isSpace b = false ∧ b ≠ byte ';' := by decide
        exact hmarks c (by simpa [oneOf] using hbyte)
      cases v with
      | nil => rfl
      | cons c v =>
        obtain ⟨hspace, hsemi⟩ := hhead c rfl
        obtain hblank | ⟨u', v', heq, hu'⟩ := hat
        · exact absurd (hblank c mem_cons_self) (ne_true_of_eq_false hspace)
        · cases u' with
          | nil => exact absurd (List.cons.inj heq).1 hsemi
          | cons d u' =>
            have hd := hu' d mem_cons_self
            rw [← (List.cons.inj heq).1, hspace] at hd
            exact Bool.noConfusion hd
    have hadded : matchAt headerOrQueryParamsRegex ((parsePath st).added tail).rest =
        some ⟨u ++ byte '?' :: (raw ++ tail), [], [(1, raw ++ tail)]⟩ := by
      have hall : ∀ c ∈ raw ++ tail, isHeaderParamsByte c = true := by
        intro c hc
        obtain hc | hc := mem_append.mp hc
        · exact hraw c hc
        · have hmark : ∀ c ∈ text ",>", isAddedByte c = false := by decide
          rw [isHeaderParamsByte, Bool.not_eq_true', ← Bool.not_eq_true]
          intro hno
          exact absurd (h.bytes c hc) (ne_true_of_eq_false (hmark c (by simpa [oneOf] using hno)))
      have htwo := matchAt_headerParams (v := []) hu
        (append_ne_nil_of_left_ne_nil hne tail) hall (by simp)
      rw [append_nil] at htwo
      rw [ParseState.added_rest, hrest, hnil, append_nil, append_assoc, cons_append]
      exact htwo
    have hnone' : ((parsePath st).added tail).afterAngleBrackets = none := by
      show (parsePath st).afterAngleBrackets.map _ = none
      rw [hnone]
      rfl
    have hbefore' : beforeFields (st.added tail) = { (parsePath st).added tail with
        url := { (parsePath st).url with
          headerOrQueryParameters := parseCgiVariables (byte '&') (raw ++ tail) }
        rest := [] } := by
      have hparams : parseHeaderParams ((parsePath st).added tail) =
          { (parsePath st).added tail with
          url := { (parsePath st).url with
            headerOrQueryParameters := parseCgiVariables (byte '&') (raw ++ tail) }
          rest := [] } := by
        unfold parseHeaderParams
        rw [hadded]
        rfl
      rw [beforeFields, parsePath_added tail st hpath hends, parseUrlParams_unbracketed hnone',
        hparams]
      exact closeAngleBrackets_unbracketed hnone'
    rw [hbefore']
    exact ⟨hknown, rfl, fieldParameters_parsePath st⟩
  · -- the path
    push Not at hends
    obtain ⟨hhas, hall⟩ := hends
    have hall : ∀ c ∈ st.rest, isPathByte c = true := fun c hc => eq_true_of_ne_false (hall c hc)
    have hknown : st.url.scheme ≠ .unknown := by
      intro h
      rw [h] at hhas
      exact Bool.noConfusion hhas
    have hafter : st.afterAngleBrackets = none := by
      by_contra hsome
      obtain ⟨after, hafter⟩ := Option.ne_none_iff_exists'.mp hsome
      have hmem := hread.mem_bracket hst hafter
      have hempty : (parsePath st).rest = [] := by
        rw [parsePath_eq hhas hpath (append_nil st.rest).symm hall (by simp)]
      have hsuffix := ((goesOn_parseUrlParams .nameAddr (parsePath st)).trans
        (goesOn_parseHeaderParams _)).suffix
      rw [hempty, suffix_nil] at hsuffix
      rw [hsuffix] at hmem
      exact absurd hmem not_mem_nil
    have hnone : (st.added tail).afterAngleBrackets = none := by
      show st.afterAngleBrackets.map _ = none
      rw [hafter]
      rfl
    have hbytes : ∀ c ∈ st.rest ++ tail, isPathByte c = true := by
      intro c hc
      obtain hc | hc := mem_append.mp hc
      · exact hall c hc
      · have hbytes : ∀ c : Byte, isAddedByte c = true → isSpace c = false →
            isPathByte c = true := by decide +kernel
        exact hbytes c (h.bytes c hc) (hspace c hc)
    have heq : parsePath (st.added tail) = { st.added tail with
        url := { st.url with path := st.rest ++ tail }
        rest := [] } :=
      @parsePath_eq (st.added tail) hhas hpath (st.rest ++ tail) []
        (append_nil (st.rest ++ tail)).symm hbytes (by simp)
    rw [beforeFields_of_none hnone (by rw [heq]; rfl), heq]
    exact ⟨hknown, rfl, rfl⟩

/-- **No field parameters at all**: that is what is read where the end of the text is not taken as
field parameters. -/
theorem fromString_added_of_not {s : Text} (hknown : (fromString s .nameAddr).scheme ≠ .unknown)
    (hnot : ¬ TakesParams (parseFront .nameAddr s)) (h : IsAdded tail)
    (hspace : ∀ c ∈ tail, isSpace c = false) :
    (fromString (s ++ tail) .nameAddr).fieldParameters = [] := by
  unfold fromString parseString at hknown ⊢
  rw [parseFront_added h s]
  obtain ⟨hpath, hfields⟩ := parseFront_fresh .nameAddr s
  have hst := bracketed_parseFront s
  generalize parseFront .nameAddr s = st at hknown hnot hpath hfields hst ⊢
  obtain ⟨hscheme, hrest, hnone⟩ :=
    beforeFields_added_of_not h hspace (readToEnd_of_known hknown) hst hpath hnot
  rw [parseEnd_of_nothing_left hscheme hrest, hnone, hfields]

end Url

end SipXRouter
