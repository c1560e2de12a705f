import SipXRouter.PatternStops
import SipXRouter.Net.UrlParams
import SipXRouter.Net.UrlPrint

/-!
# What holds of a URI that was read

The parser is followed stage by stage, in both contexts and for every scheme.  Each stage
fills in some of the parts, and leaves a rest that comes from the text.
-/

namespace SipXRouter

open List

namespace Url

open Pattern

def isPathByte (c : Byte) : Bool := !(oneOf "?," c || isSpace c)

/-- Without a port, the host ends in front of `s`; and where there is no host, none starts `s`. -/
structure HostAlone (u : Url) (s : Text) : Prop where
  host : u.hostPort = portNone → u.hostAddress ≠ [] →
    matchAt hostAndPortRegex (u.hostAddress ++ s) =
      some ⟨u.hostAddress, s, [(1, u.hostAddress)]⟩
  absent : u.hostAddress = [] → matchAt hostAndPortRegex s = none

/-- What holds of the parts up to host and port. -/
structure AcceptedFront (u : Url) : Prop where
  displayName : IsDisplayName u.displayName
  displayName_nul : (0 : Byte) ∉ u.displayName
  userId : isEscapedText isUserByte u.userId = true
  password : isEscapedText isPasswordByte u.password = true
  password_eq_nil : u.userId = [] → u.password = []
  userId_eq_nil : u.scheme = .file → u.userId = []
  host : IsHost u.hostAddress ∨
    u.scheme = .file ∧ u.hostAddress = [] ∧ u.hostPort = portNone

/-- What holds of every URI that was read. -/
structure Accepted (u : Url) : Prop extends AcceptedFront u where
  path : ∀ c ∈ u.path, isPathByte c = true
  path_nul : (0 : Byte) ∉ u.path
  path_eq_nil : u.scheme.hasPath = false → u.path = []
  hostAlone : HostAlone u u.path
  angleBracketsIncluded : u.angleBracketsIncluded = false
  urlParameters : ∀ nv ∈ u.urlParameters, IsReadParam nv
  urlParameters_eq_nil : u.scheme.isSip = false → u.urlParameters = []
  headerOrQueryParameters : ∀ nv ∈ u.headerOrQueryParameters, IsReadParam nv
  fieldNames : ∀ nv ∈ u.fieldParameters, IsToken nv.1
  fieldValues_nul : ∀ nv ∈ u.fieldParameters, (0 : Byte) ∉ nv.2

/-! ## Matches -/

section Matches

variable {s : Text} {m : Match}

theorem rest_subset {p : Pattern} (hm : matchAt p s = some m) : m.rest ⊆ s := by
  intro c hc
  rw [append_of_mem_run (mem_run_of_matchAt hm)]
  exact mem_append_right _ hc

theorem getD_group_subset {p : Pattern} (hm : matchAt p s = some m) (k : Nat) :
    (m.group k).getD [] ⊆ s := by
  cases hg : m.group k with
  | none => exact nil_subset s
  | some t => exact group_subset (mem_run_of_matchAt hm) hg

theorem ne_nil_of_mem_lang_escapedRun {p : Byte → Bool} {t : Text}
    (ht : t ∈ lang (plus (escapedRun p))) : t ≠ [] := by
  obtain ⟨u, hu, v, -, rfl⟩ := mem_lang_seq.mp ht
  refine append_ne_nil_of_left_ne_nil ?_ v
  rcases hu with hu | ⟨w, hw, x, -, rfl⟩
  · exact (mem_lang_plus_cls.mp hu).1
  · rw [mem_lang_lit.mp hw]
    exact cons_ne_nil _ _

theorem user_of_matchAt (hm : matchAt usernameAndPasswordRegex s = some m) :
    (m.group 1).getD [] ≠ [] ∧ isEscapedText isUserByte ((m.group 1).getD []) = true ∧
      isEscapedText isPasswordByte ((m.group 2).getD []) = true := by
  have hgroups : groups usernameAndPasswordRegex =
      [(1, plus (escapedRun isUserByte)), (2, star (escapedRun isPasswordByte))] := rfl
  have hmem := mem_run_of_matchAt hm
  obtain ⟨user, huser⟩ := Option.isSome_iff_exists.mp (isSome_group_of_mem_run hmem)
  have hlang : user ∈ lang (plus (escapedRun isUserByte)) := by
    obtain ⟨body, hbody, hlang⟩ := exists_of_group hmem huser
    obtain rfl : body = plus (escapedRun isUserByte) := by simpa [hgroups] using hbody
    exact hlang
  rw [huser, Option.getD_some]
  refine ⟨ne_nil_of_mem_lang_escapedRun hlang, isEscapedText_of_mem_lang_plus (by decide) hlang, ?_⟩
  cases hpassword : m.group 2 with
  | none => rfl
  | some password =>
    obtain ⟨body, hbody, hlang⟩ := exists_of_group hmem hpassword
    obtain rfl : body = star (escapedRun isPasswordByte) := by simpa [hgroups] using hbody
    exact isEscapedText_of_mem_lang_star (by decide) hlang

/-- What the expression for host and port can match. -/
theorem hostAndPort_of_mem_run {n : Nat} (hm : m ∈ run hostAndPortRegex n s) :
    ∃ host, IsHost host ∧ (m = ⟨host, m.rest, [(1, host)]⟩ ∨
      ∃ digits, (∀ c ∈ digits, isDigit c = true) ∧ digits ≠ [] ∧
        m = ⟨host ++ byte ':' :: digits, m.rest, [(2, digits), (1, host)]⟩) := by
  obtain ⟨m₁, hm₁, m₂, hm₂, rfl⟩ := mem_run_seq.mp hm
  obtain ⟨m₀, hm₀, rfl⟩ := mem_run_group.mp hm₁
  have hcaps : m₀.caps = [] := caps_eq_nil rfl hm₀
  refine ⟨m₀.text, isHost_of_mem_lang (text_mem_lang hm₀), ?_⟩
  rcases mem_append.mp hm₂ with hport | hnone
  · right
    obtain ⟨m₃, hm₃, m₄, hm₄, rfl⟩ := mem_run_seq.mp hport
    obtain ⟨m₅, hm₅, rfl⟩ := mem_run_group.mp hm₄
    have hcolon : m₃.text = [byte ':'] := mem_lang_lit.mp (text_mem_lang hm₃)
    have hcaps₃ : m₃.caps = [] := caps_eq_nil rfl hm₃
    have hcaps₅ : m₅.caps = [] := caps_eq_nil rfl hm₅
    obtain ⟨u, ⟨c, hc, rfl⟩, v, hv, htext⟩ := mem_lang_seq.mp (text_mem_lang hm₅)
    have hmore := (mem_lang_upTo_cls.mp hv).2
    refine ⟨m₅.text, ?_, ?_, ?_⟩
    · rw [← htext]
      intro d hd
      rcases mem_append.mp hd with hd | hd
      · rw [mem_singleton.mp hd]
        exact hc
      · exact hmore d hd
    · rw [← htext]
      simp
    · simp [Match.append, hcolon, hcaps, hcaps₃, hcaps₅]
  · left
    rw [mem_run_eps.mp hnone]
    simp [Match.append, hcaps]

/-- The bytes that end a host and a path: what may follow either. -/
def isStop (c : Byte) : Bool := oneOf "?,;>" c || isSpace c

theorem stopsAt_hostAndPort : StopsAt isStop hostAndPortRegex := by decide +kernel

theorem stopsAt_user : StopsAt (· == byte '>') usernameAndPasswordRegex :=
  stopsAt_of_byte (by decide)

theorem isStop_of_not_path {c : Byte} (hc : isPathByte c = false) : isStop c = true := by
  rw [isPathByte, Bool.not_eq_false', Bool.or_eq_true] at hc
  rcases hc with hmark | hspace
  · have hmarks : ∀ b ∈ text "?,", isStop b = true := by decide
    exact hmarks c (by simpa [oneOf] using hmark)
  · rw [isStop, hspace, Bool.or_true]

theorem matchAt_urlPath {w t : Text} (hne : w ≠ []) (hw : ∀ c ∈ w, isPathByte c = true)
    (ht : ∀ c ∈ t.head?, isPathByte c = false) :
    ∃ m, matchAt urlPathRegex (w ++ t) = some m ∧ m.group 1 = some w := by
  have hrun := run_possessive hne hw ht 0
  have hgroup : run (group 1 (possessive isPathByte)) 0 (w ++ t) = [⟨w, t, [(1, w)]⟩] := by
    rw [run, hrun]
    rfl
  obtain ⟨m, hm⟩ : ∃ m, (run (opt (cls (oneOf "?,"))) (0 + w.length) t).head? = some m := by
    rw [opt, head?_run_alt]
    cases (run (cls (oneOf "?,")) (0 + w.length) t).head? with
    | none => exact ⟨_, rfl⟩
    | some m => exact ⟨m, rfl⟩
  have hcaps : m.caps = [] := caps_eq_nil rfl (mem_of_head? hm)
  have hfirst := head?_run_seq (b := opt (cls (oneOf "?,")))
    (congrArg head? hgroup) hm
  exact ⟨_, hfirst, by simp [Match.group, hcaps]⟩

theorem matchAt_urlPath_eq_none {s : Text} (hs : ∀ c ∈ s.head?, isPathByte c = false) :
    matchAt urlPathRegex s = none := by
  have hrun : run (group 1 (possessive isPathByte)) 0 s = [] := by
    rw [run, run_possessive_eq_nil hs, map_nil]
  rw [matchAt, urlPathRegex]
  exact congrArg head? (run_seq_eq_nil hrun)

theorem hostAlone_nil {u : Url} (hhost : IsHost u.hostAddress) : HostAlone u [] := by
  refine ⟨fun _ _ => ?_, fun hnil => ?_⟩
  · obtain ⟨m, hm, hrest, hgroup, hport⟩ := matchAt_hostAndPort hhost (Or.inl ⟨rfl, rfl⟩) []
    have hstop : ∀ c ∈ [byte ';'].head?, isStop c = true := by
      intro c hc
      rw [head?_cons, Option.mem_some_iff] at hc
      subst hc
      decide
    obtain ⟨host, -, heq | ⟨digits, -, -, heq⟩⟩ := hostAndPort_of_mem_run (mem_run_of_matchAt hm)
    · rw [heq, Match.group, lookup_cons_self, Option.some_inj] at hgroup
      have hsplit : matchAt hostAndPortRegex (u.hostAddress ++ [] ++ [byte ';']) =
          some (Match.before [byte ';'] ⟨u.hostAddress, [], [(1, u.hostAddress)]⟩) := by
        rw [append_nil]
        refine hm.trans (congrArg some ?_)
        rw [heq, hgroup, hrest]
        rfl
      exact (matchAt_append_eq_some stopsAt_hostAndPort hstop).mp hsplit
    · -- a port that was read has a value
      rw [heq] at hport
      rcases hport with ⟨hnone, -⟩ | ⟨_, -, hvalue⟩
      · simp [Match.group] at hnone
      · exact absurd hvalue (by unfold portNone; omega)
  · rw [hnil] at hhost
    cases hhost with
    | domain hd => exact absurd rfl (isToken_of_isDomain hd).1

end Matches

/-! ## Up to host and port -/

/-- Neither the rest nor what stands behind the brackets has a NUL. -/
structure NoNul (st : ParseState) : Prop where
  rest : (0 : Byte) ∉ st.rest
  after : ∀ after ∈ st.afterAngleBrackets, (0 : Byte) ∉ after

/-- Before the user, scheme and display name have been read at most. -/
def Begun (st : ParseState) : Prop :=
  ∃ scheme name, st.url = { scheme := scheme, displayName := name } ∧ IsDisplayName name ∧
    (0 : Byte) ∉ name ∧ NoNul st

def HasUser (st : ParseState) : Prop :=
  ∃ scheme name userId password,
    st.url = { scheme := scheme, displayName := name, userId := userId, password := password } ∧
    IsDisplayName name ∧ (0 : Byte) ∉ name ∧ isEscapedText isUserByte userId = true ∧
    isEscapedText isPasswordByte password = true ∧ (userId = [] → password = []) ∧
    (scheme = .file → userId = []) ∧ NoNul st

/-- Behind host and port. -/
structure HasHost (st : ParseState) : Prop where
  front : AcceptedFront st.url
  hostAlone : HostAlone st.url st.rest
  noNul : NoNul st
  path : st.url.path = []
  angleBracketsIncluded : st.url.angleBracketsIncluded = false
  urlParameters : st.url.urlParameters = []
  headerOrQueryParameters : st.url.headerOrQueryParameters = []
  fieldParameters : st.url.fieldParameters = []

section Front

variable {st : ParseState}

/-- The parser goes on behind a match. -/
theorem NoNul.of_subset (h : NoNul st) {url : Url} {rest : Text} {unrecognizable : Bool}
    (hrest : rest ⊆ st.rest) : NoNul ⟨url, rest, st.afterAngleBrackets, unrecognizable⟩ :=
  ⟨fun hc => h.rest (hrest hc), h.after⟩

theorem begun_parseDisplayName {s : Text} (hs : (0 : Byte) ∉ s) :
    Begun (parseDisplayName { url := {}, rest := s }) := by
  have hname : IsDisplayName (parseDisplayName { url := {}, rest := s }).url.displayName :=
    isDisplayName_parseDisplayName .absent
  unfold parseDisplayName at hname ⊢
  cases hm : matchAt displayNameRegex s with
  | none => exact ⟨.sip, [], rfl, .absent, not_mem_nil, hs, by simp⟩
  | some m =>
    rw [hm] at hname
    refine ⟨.sip, _, rfl, hname, ?_, fun hc => hs (rest_subset hm hc), by simp⟩
    have hgroup (k : Nat) : (0 : Byte) ∉ (m.group k).getD [] :=
      fun hc => hs (getD_group_subset hm k hc)
    split
    · exact hgroup 1
    · intro hc
      rcases mem_cons.mp hc with hc | hc
      · exact absurd hc (by decide)
      · rcases mem_append.mp hc with hc | hc
        · exact hgroup 2 hc
        · exact absurd hc (by decide)
    · exact not_mem_nil

theorem Begun.parseAngleBrackets (h : Begun st) : Begun (parseAngleBrackets st) := by
  obtain ⟨scheme, name, hurl, hname, hnul, hrest⟩ := h
  unfold Url.parseAngleBrackets
  cases hm : matchAt angleBracketsRegex st.rest with
  | none => exact ⟨scheme, name, hurl, hname, hnul, hrest⟩
  | some m =>
    refine ⟨scheme, name, hurl, hname, hnul, fun hc => ?_, fun after hafter => ?_⟩
    · rcases mem_append.mp hc with hc | hc
      · exact hrest.rest (getD_group_subset hm 1 hc)
      · rcases mem_cons.mp hc with hc | hc
        · exact absurd hc (by decide)
        · exact hrest.rest (rest_subset hm hc)
    · rw [← Option.mem_some_iff.mp hafter]
      exact fun hc => hrest.rest (rest_subset hm hc)

theorem Begun.parseScheme (h : Begun st) (form : UriForm) : Begun (parseScheme form st) := by
  obtain ⟨scheme, name, hurl, hname, hnul, hrest⟩ := h
  unfold Url.parseScheme
  cases hm : matchAt (supportedSchemeRegex form) st.rest with
  | none =>
    exact ⟨.unknown, name, by rw [hurl], hname, hnul, hrest.of_subset (List.Subset.refl _)⟩
  | some m => exact ⟨_, name, by rw [hurl], hname, hnul, hrest.of_subset (rest_subset hm)⟩

theorem Begun.skipSlashes (h : Begun st) : Begun (skipSlashes st) := by
  obtain ⟨scheme, name, hurl, hname, hnul, hrest⟩ := h
  unfold Url.skipSlashes
  split
  · exact ⟨scheme, name, hurl, hname, hnul, hrest.of_subset (drop_subset _ _)⟩
  · exact ⟨scheme, name, hurl, hname, hnul, hrest⟩

theorem Begun.parseUser (h : Begun st) : HasUser (parseUser st) := by
  obtain ⟨scheme, name, hurl, hname, hnul, hrest⟩ := h
  have hnone : HasUser st :=
    ⟨scheme, name, [], [], hurl, hname, hnul, rfl, rfl, fun _ => rfl, fun _ => rfl, hrest⟩
  unfold Url.parseUser
  split
  · exact hnone
  · next hfile =>
      cases hm : matchAt usernameAndPasswordRegex st.rest with
      | none => exact hnone
      | some m =>
        obtain ⟨hne, huser, hpassword⟩ := user_of_matchAt hm
        refine ⟨scheme, name, _, _, by rw [hurl], hname, hnul, huser, hpassword,
          fun hnil => absurd hnil hne, fun hscheme => ?_, hrest.of_subset (rest_subset hm)⟩
        rw [hurl] at hfile
        exact absurd hscheme hfile

theorem HasUser.parseHostAndPort (h : HasUser st)
    (hknown : (parseHostAndPort st).url.scheme ≠ .unknown) : HasHost (parseHostAndPort st) := by
  obtain ⟨scheme, name, userId, password, hurl, hname, hnul, huser, hpassword, hnil, hfile, hrest⟩ := h
  unfold Url.parseHostAndPort at hknown ⊢
  cases hm : matchAt hostAndPortRegex st.rest with
  | none =>
    rw [hm] at hknown
    dsimp only at hknown ⊢
    by_cases hscheme : st.url.scheme = .file
    · rw [if_pos hscheme]
      have hscheme' : scheme = .file := by rw [← hscheme, hurl]
      rw [hscheme'] at hurl
      constructor
      · rw [hurl]
        exact ⟨hname, hnul, huser, hpassword, hnil, fun _ => hfile hscheme',
          Or.inr ⟨rfl, rfl, rfl⟩⟩
      · rw [hurl]
        exact ⟨fun _ hne => absurd rfl hne, fun _ => hm⟩
      · exact hrest
      all_goals rw [hurl]
    · rw [if_neg hscheme] at hknown
      exact absurd rfl hknown
  | some m =>
    dsimp only
    obtain ⟨host, hhost, hcases⟩ := hostAndPort_of_mem_run (mem_run_of_matchAt hm)
    have hgroup : m.group 1 = some host := by
      rcases hcases with heq | ⟨digits, -, -, heq⟩ <;> rw [heq] <;> rfl
    have hne : host ≠ [] := by
      rintro rfl
      cases hhost with
      | domain hd => exact absurd rfl (isToken_of_isDomain hd).1
    rw [hurl, hgroup]
    constructor
    · refine ⟨hname, hnul, huser, hpassword, hnil, fun hscheme => ?_, Or.inl hhost⟩
      dsimp only at hscheme
      split at hscheme
      · simp at hscheme
      · exact hfile hscheme
    · refine ⟨fun hport _ => ?_, fun hempty => absurd hempty hne⟩
      dsimp only [Option.getD_some] at hport ⊢
      rcases hcases with heq | ⟨digits, -, -, heq⟩
      · have hsplit := append_of_mem_run (mem_run_of_matchAt hm)
        rw [heq] at hsplit
        rw [← hsplit, hm]
        exact congrArg some heq
      · rw [heq] at hport
        exact absurd hport (by simp [Match.group, portNone])
    · exact hrest.of_subset (rest_subset hm)
    all_goals rfl

theorem parseFront_addrSpec (s : Text) : parseFront .addrSpec s =
    parseHostAndPort (parseUser (skipSlashes (parseScheme .addrSpec { url := {}, rest := s }))) := by
  unfold parseFront
  rfl

theorem hasHost_parseFront {s : Text} (hs : (0 : Byte) ∉ s) (form : UriForm)
    (hknown : (parseFront form s).url.scheme ≠ .unknown) : HasHost (parseFront form s) := by
  cases form with
  | addrSpec =>
    have hstart : Begun { url := {}, rest := s } :=
      ⟨.sip, [], rfl, .absent, not_mem_nil, hs, by simp⟩
    have huser := (hstart.parseScheme .addrSpec).skipSlashes.parseUser
    rw [parseFront_addrSpec] at hknown ⊢
    exact huser.parseHostAndPort hknown
  | nameAddr =>
    have hopened := (begun_parseDisplayName hs).parseAngleBrackets
    have huser := (hopened.parseScheme .nameAddr).skipSlashes.parseUser
    rw [parseFront_nameAddr] at hknown ⊢
    exact huser.parseHostAndPort hknown

end Front

/-! ## Behind host and port -/

/-- Behind the path, all parts are as they may be read. -/
structure Reading (st : ParseState) : Prop where
  read : Accepted st.url
  noNul : NoNul st

theorem HostAlone.of_append {u : Url} {w t : Text} (h : HostAlone u (w ++ t))
    (ht : ∀ c ∈ t.head?, isStop c = true) : HostAlone u w := by
  refine ⟨fun hport hne => ?_, fun hnil => ?_⟩
  · have hmatch := h.host hport hne
    rw [← append_assoc] at hmatch
    exact (matchAt_append_eq_some stopsAt_hostAndPort ht).mp hmatch
  · exact (matchAt_append_eq_none stopsAt_hostAndPort ht).mp (h.absent hnil)

section Back

variable {st : ParseState}

theorem parsePath_eq (hpath : st.url.scheme.hasPath = true) (hnone : st.url.path = []) {w t : Text}
    (hrest : st.rest = w ++ t) (hw : ∀ c ∈ w, isPathByte c = true)
    (ht : ∀ c ∈ t.head?, isPathByte c = false) :
    parsePath st = { st with url := { st.url with path := w }, rest := t } := by
  unfold parsePath
  rw [if_pos hpath, hrest]
  by_cases hnil : w = []
  · rw [hnil, nil_append, matchAt_urlPath_eq_none ht]
    rw [hnil, nil_append] at hrest
    dsimp only
    rw [← hnone, ← hrest]
  · obtain ⟨m, hm, hgroup⟩ := matchAt_urlPath hnil hw ht
    rw [hm]
    dsimp only
    rw [hgroup, Option.getD_some, drop_left]

theorem HasHost.accepted (h : HasHost st) {w : Text} (hw : ∀ c ∈ w, isPathByte c = true)
    (hnul : (0 : Byte) ∉ w) (hnone : st.url.scheme.hasPath = false → w = [])
    (halone : HostAlone st.url w) : Accepted { st.url with path := w } := by
  have hparams : ∀ nv : Text × Text, nv ∉ ([] : List (Text × Text)) := fun _ => not_mem_nil
  exact { h.front with
    path := hw
    path_nul := hnul
    path_eq_nil := hnone
    hostAlone := ⟨halone.host, halone.absent⟩
    angleBracketsIncluded := h.angleBracketsIncluded
    urlParameters := by rw [h.urlParameters]; exact fun nv hnv => absurd hnv (hparams nv)
    urlParameters_eq_nil := fun _ => h.urlParameters
    headerOrQueryParameters := by
      rw [h.headerOrQueryParameters]; exact fun nv hnv => absurd hnv (hparams nv)
    fieldNames := by rw [h.fieldParameters]; exact fun nv hnv => absurd hnv (hparams nv)
    fieldValues_nul := by rw [h.fieldParameters]; exact fun nv hnv => absurd hnv (hparams nv) }

theorem HasHost.parsePath (h : HasHost st) : Reading (parsePath st) := by
  by_cases hpath : st.url.scheme.hasPath = true
  · obtain ⟨w, t, hrest, hw, ht⟩ := exists_span isPathByte st.rest
    rw [parsePath_eq hpath h.path hrest hw ht]
    have halone := h.hostAlone
    rw [hrest] at halone
    refine ⟨h.accepted hw ?_ (fun hfalse => ?_) (halone.of_append fun c hc =>
      isStop_of_not_path (ht c hc)), h.noNul.of_subset ?_⟩
    · exact fun hc => h.noNul.rest (by rw [hrest]; exact mem_append_left _ hc)
    · exact absurd hpath (by rw [hfalse]; exact Bool.false_ne_true)
    · rw [hrest]
      exact subset_append_right _ _
  · have hhost : IsHost st.url.hostAddress := by
      rcases h.front.host with hhost | ⟨hfile, -⟩
      · exact hhost
      · rw [hfile] at hpath
        exact absurd rfl hpath
    have hsame : { st.url with path := [] } = st.url := by
      rw [← h.path]
    have hread := h.accepted (w := []) (by simp) not_mem_nil (fun _ => rfl) (hostAlone_nil hhost)
    rw [hsame] at hread
    unfold Url.parsePath
    rw [if_neg hpath]
    exact ⟨hread, h.noNul⟩

theorem Reading.parseUrlParams (h : Reading st) (form : UriForm) :
    Reading (parseUrlParams form st) := by
  unfold Url.parseUrlParams
  split
  · next hsip =>
      cases hm : matchAt urlParamsRegex st.rest with
      | none => exact h
      | some m =>
        refine ⟨{ h.read with
          hostAlone := ⟨h.read.hostAlone.host, h.read.hostAlone.absent⟩
          urlParameters := fun nv hnv => ?_
          urlParameters_eq_nil := fun hfalse => ?_ }, h.noNul.of_subset (rest_subset hm)⟩
        · exact isReadParam_of_mem (fun hc => h.noNul.rest (getD_group_subset hm 1 hc)) hnv
        · exact absurd hsip.1 (by rw [hfalse]; exact Bool.false_ne_true)
  · exact h

theorem Reading.parseHeaderParams (h : Reading st) : Reading (parseHeaderParams st) := by
  unfold Url.parseHeaderParams
  cases hm : matchAt headerOrQueryParamsRegex st.rest with
  | none => exact h
  | some m =>
    refine ⟨{ h.read with
      hostAlone := ⟨h.read.hostAlone.host, h.read.hostAlone.absent⟩
      headerOrQueryParameters := fun nv hnv => ?_ }, h.noNul.of_subset (rest_subset hm)⟩
    exact isReadParam_of_mem (fun hc => h.noNul.rest (getD_group_subset hm 1 hc)) hnv

theorem Reading.closeAngleBrackets (h : Reading st)
    (hknown : (closeAngleBrackets st).url.scheme ≠ .unknown) : Reading (closeAngleBrackets st) := by
  unfold Url.closeAngleBrackets at hknown ⊢
  cases hafter : st.afterAngleBrackets with
  | none => exact h
  | some after =>
    rw [hafter] at hknown
    dsimp only at hknown ⊢
    by_cases hlen : st.rest.length = after.length + 1
    · rw [if_pos hlen]
      exact ⟨h.read, h.noNul.after after hafter, fun a ha => h.noNul.after a (hafter ▸ ha)⟩
    · rw [if_neg hlen] at hknown
      exact absurd rfl hknown

theorem unquote_subset (s : Text) : unquote s ⊆ s := by
  fun_induction unquote s with
  | case1 => exact List.Subset.refl _
  | case2 => exact nil_subset _
  | case3 d ds ih =>
    refine cons_subset.mpr ⟨by simp, fun e he => ?_⟩
    exact mem_cons_of_mem _ (mem_cons_of_mem _ (ih he))
  | case4 cs hback => exact nil_subset _
  | case5 c cs hback hquote ih => exact cons_subset_cons c ih

theorem genValueUnescape_subset (s : Text) : genValueUnescape s ⊆ s := by
  unfold genValueUnescape
  cases s with
  | nil => exact List.Subset.refl _
  | cons c cs =>
    dsimp only
    split
    · exact fun d hd => mem_cons_of_mem _ (unquote_subset cs hd)
    · exact List.Subset.refl _

theorem genValueUnescape_token {name : Text} (hname : IsToken name) :
    genValueUnescape name = name := by
  obtain ⟨c, cs, rfl⟩ := exists_cons_of_ne_nil hname.1
  have hquote : c ≠ byte '"' := ne_of_class (hname.2 c mem_cons_self) (by decide)
  rw [genValueUnescape, if_neg hquote]

theorem isToken_of_matchAt {s : Text} {m : Match} (hm : matchAt fieldParamNameRegex s = some m) :
    IsToken ((m.group 1).getD []) := by
  have hmem := mem_run_of_matchAt hm
  obtain ⟨m₁, -, m₂, hm₂, rfl⟩ := mem_run_seq.mp hmem
  obtain ⟨m₃, -, m₄, hm₄, rfl⟩ := mem_run_seq.mp hm₂
  obtain ⟨m₅, -, m₆, hm₆, rfl⟩ := mem_run_seq.mp hm₄
  have hsome : (m₆.group 1).isSome = true := isSome_group_of_mem_run hm₆
  obtain ⟨name, hname⟩ := Option.isSome_iff_exists.mp hsome
  obtain ⟨body, hbody, hlang⟩ := exists_of_group hm₆ hname
  have hgroups : (1, body) ∈ [(1, sipToken)] := hbody
  obtain rfl : body = sipToken := by simpa using hgroups
  have hgroup : ((m₁.append (m₃.append (m₅.append m₆))).group 1) = some name := by
    simp only [Match.group, Match.append_caps, append_assoc] at hname ⊢
    rw [lookup_append, hname, Option.some_or]
  rw [hgroup, Option.getD_some]
  exact mem_lang_plus_cls.mp hlang

theorem parseFieldParamValue_subset (s : Text) :
    (parseFieldParamValue s).1 ⊆ s ∧ (parseFieldParamValue s).2 ⊆ s := by
  unfold parseFieldParamValue
  cases hunquoted : matchAt fieldParamEqualsUnquotedValueRegex s with
  | some m => exact ⟨getD_group_subset hunquoted 1, rest_subset hunquoted⟩
  | none =>
    cases hquoted : matchAt fieldParamEqualsQuotedValueRegex s with
    | some m => exact ⟨getD_group_subset hquoted 1, rest_subset hquoted⟩
    | none => exact ⟨nil_subset s, List.Subset.refl s⟩

/-- **The loop over the field parameters** reads tokens as names. -/
theorem Reading.parseFieldParams (h : Reading st) (fuel : Nat)
    (hknown : (parseFieldParams fuel st).url.scheme ≠ .unknown) :
    Reading (parseFieldParams fuel st) := by
  induction fuel generalizing st with
  | zero => exact h
  | succ fuel ih =>
    rw [Url.parseFieldParams] at hknown ⊢
    by_cases hscheme : st.url.scheme = .unknown
    · rw [if_pos hscheme]
      exact h
    · rw [if_neg hscheme] at hknown ⊢
      cases hend : matchAt endUrlRegex st.rest with
      | some m => exact ⟨h.read, h.noNul.of_subset (rest_subset hend)⟩
      | none =>
        rw [hend] at hknown
        dsimp only at hknown ⊢
        cases hcomma : matchAt commaSeparatorRegex st.rest with
        | some m => exact h
        | none =>
          rw [hcomma] at hknown
          dsimp only at hknown ⊢
          cases hname : matchAt fieldParamNameRegex st.rest with
          | none =>
            rw [hname] at hknown
            exact absurd rfl hknown
          | some m =>
            rw [hname] at hknown
            dsimp only at hknown ⊢
            have htoken := isToken_of_matchAt hname
            obtain ⟨hvalue, hrest⟩ := parseFieldParamValue_subset m.rest
            refine ih ⟨{ h.read with
              hostAlone := ⟨h.read.hostAlone.host, h.read.hostAlone.absent⟩
              fieldNames := fun nv hnv => ?_
              fieldValues_nul := fun nv hnv => ?_ }, h.noNul.of_subset ?_⟩ hknown
            · rcases mem_append.mp hnv with hnv | hnv
              · exact h.read.fieldNames nv hnv
              · rw [mem_singleton.mp hnv, genValueUnescape_token htoken]
                exact htoken
            · rcases mem_append.mp hnv with hnv | hnv
              · exact h.read.fieldValues_nul nv hnv
              · rw [mem_singleton.mp hnv]
                intro hc
                have hc := hvalue (genValueUnescape_subset _ hc)
                exact h.noNul.rest (rest_subset hname hc)
            · exact fun c hc => rest_subset hname (hrest hc)

theorem Reading.parseEnd (h : Reading st) (form : UriForm) (nextUri : Bool)
    (hknown : (parseEnd form nextUri st).url.scheme ≠ .unknown) :
    Accepted (parseEnd form nextUri st).url := by
  unfold Url.parseEnd at hknown ⊢
  by_cases hscheme : st.url.scheme = .unknown
  · rw [if_pos hscheme]
    exact h.read
  · rw [if_neg hscheme] at hknown ⊢
    cases hm : matchAt (endRegex form nextUri) st.rest with
    | some m => exact h.read
    | none =>
      rw [hm] at hknown
      exact absurd rfl hknown

theorem Keeps.known {st' : ParseState} (h : Keeps st st') (hknown : st'.url.scheme ≠ .unknown) :
    st.url.scheme ≠ .unknown := by
  rw [← h.2 hknown]
  exact hknown

theorem HasHost.parseBack (h : HasHost st) (form : UriForm)
    (hknown : (parseBack form st).url.scheme ≠ .unknown) : Reading (parseBack form st) := by
  have hparams := h.parsePath.parseUrlParams form
  unfold Url.parseBack at hknown ⊢
  dsimp only at hknown ⊢
  by_cases hscheme : (parseUrlParams form (Url.parsePath st)).url.scheme = .unknown
  · rw [if_pos hscheme]
    exact hparams
  · rw [if_neg hscheme] at hknown ⊢
    have hheaders := hparams.parseHeaderParams
    cases form with
    | addrSpec => exact hheaders
    | nameAddr =>
      have hclosed := (keeps_parseFieldParams _ _).known hknown
      exact (hheaders.closeAngleBrackets hclosed).parseFieldParams _ hknown

end Back

/-- **A text that is accepted** gives a URI of this kind. -/
theorem accepted_fromString {s : Text} (hs : (0 : Byte) ∉ s) {form : UriForm}
    (hknown : (fromString s form).scheme ≠ .unknown) : Accepted (fromString s form) := by
  unfold fromString parseString at hknown ⊢
  have hback := (keeps_parseEnd form false _).known hknown
  have hfront := (keeps_parseBack form _).known hback
  exact ((hasHost_parseFront hs form hfront).parseBack form hback).parseEnd form false hknown

end Url

end SipXRouter
