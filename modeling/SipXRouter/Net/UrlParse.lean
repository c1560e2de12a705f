import SipXRouter.Net.Url

/-!
# What the URI parser reads

`Url.getIdentity` prints user, host and port of a URI, and this module says which
texts it can print.  `IsIdentity` is their grammar.
-/

namespace SipXRouter

open List

variable {h l s t tail w : Text} {st : ParseState} {u : Url}

namespace Url

open Pattern

/-! ## The grammar -/

/-- Plain bytes and escapes. -/
def isEscapedText (p : Byte → Bool) : Text → Bool
  | [] => true
  | c :: cs =>
    if p c then isEscapedText p cs
    else if c = byte '%' then
      match cs with
      | high :: low :: rest => isHex high && isHex low && isEscapedText p rest
      | _ => false
    else false

/-- The bytes inside a label of a DNS name. -/
def isLabelByte (c : Byte) : Bool := isAlnum c || c == byte '-'

/-- A label of a DNS name: a hyphen neither starts nor ends it. -/
def isLabel (l : Text) : Bool :=
  l.head?.any isAlnum && l.getLast?.any isAlnum && l.all isLabelByte

/-- A DNS name or an IPv4 address: labels with dots between them, and possibly one
behind the last. -/
inductive IsDomain : Text → Prop where
  | label {l : Text} (hl : isLabel l = true) : IsDomain l
  | dot {l : Text} (hl : isLabel l = true) : IsDomain (l ++ [byte '.'])
  | cons {l d : Text} (hl : isLabel l = true) (hd : IsDomain d) : IsDomain (l ++ byte '.' :: d)

def isIpv6Byte (c : Byte) : Bool := isHex c || oneOf ":." c

inductive IsHost : Text → Prop where
  | domain {h : Text} (hh : IsDomain h) : IsHost h
  | ipv6 {a : Text} (hne : a ≠ []) (ha : ∀ c ∈ a, isIpv6Byte c = true) :
      IsHost (byte '[' :: a ++ [byte ']'])

/-- A port, as it is printed. -/
def IsPortText (port : Text) (value : Int) : Prop :=
  port = [] ∧ value = portNone ∨
    ∃ p : Nat, 1 ≤ p ∧ p ≤ 65535 ∧ port = byte ':' :: natText p ∧ value = p

/-- The texts that `getIdentity` prints. -/
def IsIdentity (i : Text) : Prop :=
  ∃ user host port value, isEscapedText isUserByte user = true ∧ IsHost host ∧
    host.map toLower = host ∧ IsPortText port value ∧ i = user ++ byte '@' :: (host ++ port)

/-! ## Identities are read -/

section Sound

theorem isEscapedText_cons {p : Byte → Bool} {c : Byte} (hc : p c = true) (cs : Text) :
    isEscapedText p (c :: cs) = isEscapedText p cs := by
  rw [isEscapedText.eq_def]
  simp [hc]

theorem isEscapedText_percent {p : Byte → Bool} (hp : p (byte '%') = false) (high low : Byte)
    (rest : Text) : isEscapedText p (byte '%' :: high :: low :: rest) =
      (isHex high && isHex low && isEscapedText p rest) := by
  rw [isEscapedText.eq_def]
  simp [hp]

theorem isEscapedText_append {p : Byte → Bool}
    (hs : isEscapedText p s = true) (ht : isEscapedText p t = true) :
    isEscapedText p (s ++ t) = true := by
  fun_induction isEscapedText p s with
  | case1 => exact ht
  | case2 c cs hc ih =>
    rw [cons_append, isEscapedText_cons hc]
    exact ih hs
  | case3 high low rest hp ih =>
    simp only [Bool.and_eq_true] at hs
    rw [cons_append, cons_append, cons_append,
      isEscapedText_percent (by simpa using hp), hs.1.1, hs.1.2, ih hs.2]
    rfl
  | case4 => simp at hs
  | case5 => simp at hs

theorem isEscapedText_of_class {p : Byte → Bool} (hs : ∀ c ∈ s, p c = true) :
    isEscapedText p s = true := by
  induction s with
  | nil => rfl
  | cons c cs ih =>
    rw [isEscapedText_cons (hs c (by simp))]
    exact ih fun d hd => hs d (by simp [hd])

theorem isEscapedText_of_mem_lang {p : Byte → Bool} (hp : p (byte '%') = false)
    (hs : s ∈ lang (escapedRun p)) : isEscapedText p s = true := by
  rcases hs with hs | hs
  · exact isEscapedText_of_class (mem_lang_plus_cls.mp hs).2
  · obtain ⟨u, hu, v, ⟨w, ⟨high, hhigh, rfl⟩, x, ⟨y, ⟨low, hlow, rfl⟩, z, hz, rfl⟩, rfl⟩, rfl⟩ := hs
    rw [mem_lang_lit.mp hu, mem_lang_eps.mp hz]
    exact (isEscapedText_percent hp high low []).trans (by rw [hhigh, hlow]; rfl)

theorem isEscapedText_of_mem_lang_star {p : Byte → Bool} (hp : p (byte '%') = false)
    (hs : s ∈ lang (star (escapedRun p))) : isEscapedText p s = true := by
  obtain ⟨pieces, rfl, hpieces⟩ := Language.mem_kstar.mp hs
  clear hs
  induction pieces with
  | nil => rfl
  | cons piece pieces ih =>
    rw [flatten_cons]
    exact isEscapedText_append (isEscapedText_of_mem_lang hp (hpieces piece (by simp)))
      (ih fun y hy => hpieces y (by simp [hy]))

theorem isEscapedText_of_mem_lang_plus {p : Byte → Bool} (hp : p (byte '%') = false)
    (hs : s ∈ lang (plus (escapedRun p))) : isEscapedText p s = true := by
  obtain ⟨u, hu, v, hv, rfl⟩ := mem_lang_seq.mp hs
  exact isEscapedText_append (isEscapedText_of_mem_lang hp hu)
    (isEscapedText_of_mem_lang_star hp hv)

theorem isLabel_iff : isLabel l = true ↔ (∃ c, isAlnum c = true ∧ l = [c]) ∨
      ∃ c w d, isAlnum c = true ∧ (∀ e ∈ w, isLabelByte e = true) ∧ isAlnum d = true ∧
        l = c :: (w ++ [d]) := by
  constructor
  · intro hl
    simp only [isLabel, Bool.and_eq_true, all_eq_true] at hl
    obtain ⟨⟨hhead, hlast⟩, hall⟩ := hl
    rcases l with - | ⟨c, w⟩
    · simp at hhead
    rcases eq_nil_or_concat w with rfl | ⟨w, d, rfl⟩
    · exact Or.inl ⟨c, by simpa using hhead, rfl⟩
    · refine Or.inr ⟨c, w, d, by simpa using hhead, fun e he => hall e (by simp [he]), ?_, by simp⟩
      rw [concat_eq_append, ← cons_append, getLast?_concat] at hlast
      simpa using hlast
  · rintro (⟨c, hc, rfl⟩ | ⟨c, w, d, hc, hw, hd, rfl⟩)
    · simp [isLabel, isLabelByte, hc]
    · have hlast : (c :: (w ++ [d])).getLast? = some d := by
        rw [← cons_append, getLast?_concat]
      simp only [isLabel, hlast, Bool.and_eq_true, all_eq_true]
      refine ⟨⟨by simpa using hc, by simpa using hd⟩, ?_⟩
      intro e he
      rw [mem_cons, mem_append, mem_singleton] at he
      rcases he with rfl | he | rfl
      · simp [isLabelByte, hc]
      · exact hw e he
      · simp [isLabelByte, hd]

theorem isLabel_of_mem_lang (hl : l ∈ lang domainLabel) : isLabel l = true := by
  obtain ⟨u, ⟨c, hc, rfl⟩, v, hv, rfl⟩ := mem_lang_seq.mp hl
  rw [isLabel_iff]
  rcases hv with hv | hv
  · obtain ⟨w, hw, x, ⟨d, hd, rfl⟩, rfl⟩ := mem_lang_seq.mp hv
    exact Or.inr ⟨c, w, d, hc, mem_lang_star_cls.mp hw, hd, rfl⟩
  · rw [mem_lang_eps.mp hv]
    exact Or.inl ⟨c, hc, rfl⟩

theorem isLabel_of_digits (hl : l ∈ lang hostPattern.digits13) : isLabel l = true := by
  have halnum : ∀ c, isDigit c = true → isAlnum c = true := by
    intro c hc
    rw [isAlnum, hc, Bool.or_true]
  obtain ⟨u, ⟨c, hc, rfl⟩, v, hv, rfl⟩ := mem_lang_seq.mp hl
  rw [mem_lang_upTo_cls] at hv
  rw [isLabel_iff]
  rcases eq_nil_or_concat v with rfl | ⟨w, d, rfl⟩
  · exact Or.inl ⟨c, halnum c hc, rfl⟩
  · refine Or.inr ⟨c, w, d, halnum c hc, ?_, halnum d (hv.2 d (by simp)), by simp⟩
    intro e he
    rw [isLabelByte, halnum e (hv.2 e (by simp [he])), Bool.true_or]

/-- What the host expression matches is a host. -/
theorem isHost_of_mem_lang (hh : h ∈ lang hostPattern) : IsHost h := by
  have hdot : text "." = [byte '.'] := rfl
  rcases hh with hh | hh | hh
  · obtain ⟨u, hu, v, ⟨l, hl, w, ⟨d, hd, x, hx, rfl⟩, rfl⟩, rfl⟩ := hh
    have hlabel := isLabel_of_mem_lang hl
    have hend : IsDomain (l ++ (d ++ x)) := by
      rw [mem_lang_eps.mp hx, append_nil]
      rcases hd with hd | hd
      · rw [mem_lang_lit.mp hd, hdot]
        exact .dot hlabel
      · rw [mem_lang_eps.mp hd, append_nil]
        exact .label hlabel
    obtain ⟨pieces, rfl, hpieces⟩ := Language.mem_kstar.mp hu
    refine .domain ?_
    clear hu
    induction pieces with
    | nil => exact hend
    | cons piece pieces ih =>
      obtain ⟨l', hl', e, he, rfl⟩ := mem_lang_seq.mp (hpieces piece (by simp))
      have hrec := ih fun y hy => hpieces y (by simp [hy])
      have := IsDomain.cons (isLabel_of_mem_lang hl') hrec
      simpa [mem_lang_lit.mp he, hdot] using this
  · obtain ⟨a, ha, -, ⟨e, he, -, ⟨b, hb, -, ⟨f, hf, -, ⟨c, hc, -, ⟨g, hg, -, ⟨d, hd, x, hx, rfl⟩,
      rfl⟩, rfl⟩, rfl⟩, rfl⟩, rfl⟩, rfl⟩ := hh
    have := IsDomain.cons (isLabel_of_digits ha) (.cons (isLabel_of_digits hb)
      (.cons (isLabel_of_digits hc) (.label (isLabel_of_digits hd))))
    refine .domain ?_
    simpa [mem_lang_lit.mp he, mem_lang_lit.mp hf, mem_lang_lit.mp hg, mem_lang_eps.mp hx, hdot]
      using this
  · obtain ⟨u, hu, -, ⟨a, ha, -, ⟨e, he, x, hx, rfl⟩, rfl⟩, rfl⟩ := hh
    obtain ⟨hne, ha⟩ := mem_lang_plus_cls.mp ha
    have := IsHost.ipv6 hne ha
    rw [mem_lang_lit.mp hu, mem_lang_lit.mp he, mem_lang_eps.mp hx]
    simpa [text] using this

theorem isLabel_map_toLower (hl : isLabel l = true) : isLabel (l.map toLower) = true := by
  have halnum : ∀ c, isAlnum c = true → isAlnum (toLower c) = true :=
    fun c hc => (toLower_spec c).2.2.2.1.trans hc
  have hbyte : ∀ c, isLabelByte c = true → isLabelByte (toLower c) = true := by
    intro c hc
    rw [isLabelByte, Bool.or_eq_true] at hc
    rcases hc with hc | hc
    · rw [isLabelByte, halnum c hc, Bool.true_or]
    · rw [eq_of_beq hc]
      decide
  rw [isLabel_iff] at hl ⊢
  rcases hl with ⟨c, hc, rfl⟩ | ⟨c, w, d, hc, hw, hd, rfl⟩
  · exact Or.inl ⟨_, halnum c hc, rfl⟩
  · refine Or.inr ⟨_, w.map toLower, _, halnum c hc, ?_, halnum d hd, by simp⟩
    intro e he
    obtain ⟨e, he', rfl⟩ := mem_map.mp he
    exact hbyte e (hw e he')

theorem isDomain_map_toLower (hh : IsDomain h) : IsDomain (h.map toLower) := by
  have hdot : toLower (byte '.') = byte '.' := by decide
  induction hh with
  | label hl => exact .label (isLabel_map_toLower hl)
  | dot hl => simpa [hdot] using IsDomain.dot (isLabel_map_toLower hl)
  | cons hl _ ih => simpa [hdot] using IsDomain.cons (isLabel_map_toLower hl) ih

theorem isHost_map_toLower (hh : IsHost h) : IsHost (h.map toLower) := by
  cases hh with
  | domain hh => exact .domain (isDomain_map_toLower hh)
  | @ipv6 a hne ha =>
    have hsign : ∀ c ∈ text ":.", toLower c = c := by decide
    have hbyte : ∀ c, isIpv6Byte c = true → isIpv6Byte (toLower c) = true := by
      intro c hc
      rw [isIpv6Byte, Bool.or_eq_true] at hc
      rcases hc with hc | hc
      · rw [isIpv6Byte, (toLower_spec c).2.2.2.2.1, hc, Bool.true_or]
      · rw [isIpv6Byte, hsign c (by simpa [oneOf] using hc), hc, Bool.or_true]
    have hlower : ∀ c ∈ a.map toLower, isIpv6Byte c = true := by
      intro c hc
      obtain ⟨c, hc', rfl⟩ := mem_map.mp hc
      exact hbyte c (ha c hc')
    have hopen : toLower (byte '[') = byte '[' := by decide
    have hclose : toLower (byte ']') = byte ']' := by decide
    simpa [hopen, hclose] using IsHost.ipv6 (by simpa using hne) hlower

/-- User, host and port: the parts that `getIdentity` prints. -/
def authority (u : Url) : Text × Text × Int := (u.userId, u.hostAddress, u.hostPort)

/-- What the stages behind host and port do: they leave user, host and port alone, and
to the scheme they do nothing but give it up. -/
def Keeps (st st' : ParseState) : Prop :=
  st'.url.authority = st.url.authority ∧
    (st'.url.scheme ≠ .unknown → st'.url.scheme = st.url.scheme)

theorem Keeps.refl (st : ParseState) : Keeps st st := ⟨rfl, fun _ => rfl⟩

theorem Keeps.trans {st' st'' : ParseState} (h : Keeps st st') (h' : Keeps st' st'') :
    Keeps st st'' := by
  refine ⟨h'.1.trans h.1, ?_⟩
  intro hscheme
  have heq := h'.2 hscheme
  rw [heq] at hscheme ⊢
  exact h.2 hscheme

theorem keeps_invalid (st : ParseState) : Keeps st st.invalid :=
  ⟨rfl, fun h => absurd rfl h⟩

theorem keeps_parsePath (st : ParseState) : Keeps st (parsePath st) := by
  unfold parsePath
  split
  · cases matchAt urlPathRegex st.rest <;> exact ⟨rfl, fun _ => rfl⟩
  · exact .refl st

theorem keeps_parseUrlParams (form : UriForm) (st : ParseState) :
    Keeps st (parseUrlParams form st) := by
  unfold parseUrlParams
  split
  · cases matchAt urlParamsRegex st.rest <;> exact ⟨rfl, fun _ => rfl⟩
  · exact .refl st

theorem keeps_parseHeaderParams (st : ParseState) : Keeps st (parseHeaderParams st) := by
  unfold parseHeaderParams
  cases matchAt headerOrQueryParamsRegex st.rest <;> exact ⟨rfl, fun _ => rfl⟩

theorem keeps_closeAngleBrackets (st : ParseState) : Keeps st (closeAngleBrackets st) := by
  unfold closeAngleBrackets
  cases st.afterAngleBrackets with
  | none => exact .refl st
  | some after =>
    by_cases hlen : st.rest.length = after.length + 1
    · simp only [hlen, if_true]
      exact ⟨rfl, fun _ => rfl⟩
    · simp only [hlen, if_false]
      exact keeps_invalid st

theorem keeps_parseFieldParams : ∀ (fuel : Nat) (st : ParseState),
    Keeps st (parseFieldParams fuel st) := by
  intro fuel
  induction fuel with
  | zero => exact .refl
  | succ fuel ih =>
    intro st
    rw [parseFieldParams]
    split
    · exact .refl st
    · cases matchAt endUrlRegex st.rest with
      | some m => exact ⟨rfl, fun _ => rfl⟩
      | none =>
        cases matchAt commaSeparatorRegex st.rest with
        | some m => exact .refl st
        | none =>
          cases matchAt fieldParamNameRegex st.rest with
          | none => exact keeps_invalid st
          | some m => exact Keeps.trans ⟨rfl, fun _ => rfl⟩ (ih _)

theorem keeps_parseBack (form : UriForm) (st : ParseState) : Keeps st (parseBack form st) := by
  have hparams : Keeps st (parseUrlParams form (parsePath st)) :=
    (keeps_parsePath st).trans (keeps_parseUrlParams form _)
  have hheaders := hparams.trans (keeps_parseHeaderParams _)
  unfold parseBack
  by_cases hscheme : (parseUrlParams form (parsePath st)).url.scheme = .unknown
  · simp only [hscheme, if_true]
    exact hparams
  · simp only [hscheme, if_false]
    cases form with
    | addrSpec => exact hheaders
    | nameAddr =>
      exact (hheaders.trans (keeps_closeAngleBrackets _)).trans (keeps_parseFieldParams _ _)

theorem keeps_parseEnd (form : UriForm) (nextUri : Bool) (st : ParseState) :
    Keeps st (parseEnd form nextUri st) := by
  unfold parseEnd
  split
  · exact .refl st
  · cases matchAt (endRegex form nextUri) st.rest with
    | some m => exact ⟨rfl, fun _ => rfl⟩
    | none => exact keeps_invalid st

theorem isEscapedText_userId (hst : st.url.userId = []) :
    isEscapedText isUserByte (parseUser st).url.userId = true := by
  unfold parseUser
  split
  · rw [hst]
    rfl
  · cases hm : matchAt usernameAndPasswordRegex st.rest with
    | none =>
      simp only [hst]
      rfl
    | some m =>
      simp only
      cases hg : m.group 1 with
      | none => rfl
      | some user =>
        obtain ⟨body, hbody, hlang⟩ := exists_of_group (mem_run_of_matchAt hm) hg
        have hgroups : groups usernameAndPasswordRegex =
            [(1, plus (escapedRun isUserByte)), (2, star (escapedRun isPasswordByte))] := rfl
        have heq : body = plus (escapedRun isUserByte) := by simpa [hgroups] using hbody
        rw [heq] at hlang
        exact isEscapedText_of_mem_lang_plus (by decide) hlang

theorem isHost_of_hostGroup {n : Nat} {m : Match} (hm : m ∈ run hostAndPortRegex n s) :
    IsHost ((m.group 1).getD []) := by
  obtain ⟨host, hhost⟩ := Option.isSome_iff_exists.mp (isSome_group_of_mem_run hm)
  obtain ⟨body, hbody, hlang⟩ := exists_of_group hm hhost
  have hgroups : groups hostAndPortRegex =
      [(1, hostPattern), (2, seq (cls isDigit) (upTo 5 (cls isDigit)))] := rfl
  have heq : body = hostPattern := by simpa [hgroups] using hbody
  rw [hhost, Option.getD_some]
  exact isHost_of_mem_lang (heq ▸ hlang)

theorem isPortText_portText (u : Url) : ∃ value, IsPortText u.portText value := by
  unfold portText
  by_cases hport : portIsValid u.hostPort = true
  · rw [if_pos hport]
    simp only [portIsValid, Bool.and_eq_true, decide_eq_true_eq] at hport
    obtain ⟨p, hp⟩ := Int.eq_ofNat_of_zero_le (by omega : 0 ≤ u.hostPort)
    refine ⟨p, Or.inr ⟨p, by omega, by omega, ?_, rfl⟩⟩
    rw [hp]
    rfl
  · rw [if_neg hport]
    exact ⟨portNone, Or.inl ⟨rfl, rfl⟩⟩

theorem isIdentity_of_parts (huser : isEscapedText isUserByte u.userId = true)
    (hhost : IsHost u.hostAddress) : IsIdentity u.getIdentity := by
  obtain ⟨value, hport⟩ := isPortText_portText u
  refine ⟨u.userId, u.hostAddress.map toLower, u.portText, value, huser,
    isHost_map_toLower hhost, ?_, hport, ?_⟩
  · rw [map_map]
    exact map_congr_left fun c _ => (toLower_spec c).1
  · simp [getIdentity]

theorem isHost_parseHostAndPort (hsip : (parseHostAndPort st).url.scheme = .sip) :
    IsHost (parseHostAndPort st).url.hostAddress := by
  unfold parseHostAndPort at hsip ⊢
  cases hm : matchAt hostAndPortRegex st.rest with
  | some m => exact isHost_of_hostGroup (mem_run_of_matchAt hm)
  | none =>
    -- without a host there is no `sip` scheme
    rw [hm] at hsip
    by_cases hfile : st.url.scheme = .file
    · simp [hfile] at hsip
    · simp [hfile] at hsip

theorem userId_parseHostAndPort (hsip : (parseHostAndPort st).url.scheme = .sip) :
    (parseHostAndPort st).url.userId = st.url.userId := by
  unfold parseHostAndPort at hsip ⊢
  cases hm : matchAt hostAndPortRegex st.rest with
  | some m => rfl
  | none =>
    rw [hm] at hsip
    by_cases hfile : st.url.scheme = .file
    · simp [hfile] at hsip
    · simp [hfile] at hsip

theorem userId_skipSlashes_parseScheme (form : UriForm)
    (hst : st.url.userId = []) : (skipSlashes (parseScheme form st)).url.userId = [] := by
  have hscheme : (parseScheme form st).url.userId = [] := by
    unfold parseScheme
    cases matchAt (supportedSchemeRegex form) st.rest <;> exact hst
  unfold skipSlashes
  split <;> exact hscheme

theorem isIdentity_parseFront {form : UriForm} (hsip : (parseFront form s).url.scheme = .sip) :
    IsIdentity (parseFront form s).url.getIdentity := by
  have hopen : ∀ st : ParseState, st.url.userId = [] →
      (parseAngleBrackets (parseDisplayName st)).url.userId = [] := by
    intro st hst
    have hname : (parseDisplayName st).url.userId = [] := by
      unfold parseDisplayName
      cases matchAt displayNameRegex st.rest <;> exact hst
    unfold parseAngleBrackets
    cases matchAt angleBracketsRegex (parseDisplayName st).rest <;> exact hname
  unfold parseFront at hsip ⊢
  refine isIdentity_of_parts ?_ (isHost_parseHostAndPort hsip)
  rw [userId_parseHostAndPort hsip]
  refine isEscapedText_userId (userId_skipSlashes_parseScheme form ?_)
  cases form with
  | addrSpec => rfl
  | nameAddr => exact hopen _ rfl

/-- What is read as a `sip` URI has an identity of the grammar. -/
theorem isIdentity_getIdentity {form : UriForm}
    (hsip : (fromString s form).scheme = .sip) : IsIdentity (fromString s form).getIdentity := by
  have hkeeps : Keeps (parseFront form s) (parseString s form false) :=
    (keeps_parseBack form _).trans (keeps_parseEnd form false _)
  unfold fromString at hsip ⊢
  generalize parseString s form false = st at hkeeps hsip ⊢
  have hscheme := hkeeps.2 (by rw [hsip]; decide)
  have hauth := hkeeps.1
  simp only [authority, Prod.mk.injEq] at hauth
  have hidentity : st.url.getIdentity = (parseFront form s).url.getIdentity := by
    rw [getIdentity, getIdentity, portText, portText, hauth.1, hauth.2.1, hauth.2.2]
  rw [hidentity]
  exact isIdentity_parseFront (hscheme.symm.trans hsip)

end Sound

/-! ## Identities are found again -/

section Complete

theorem matchAt_displayName_bracket (s : Text) :
    matchAt displayNameRegex (byte '<' :: s) = none := rfl

theorem matchAt_sipScheme (s : Text) :
    matchAt (supportedSchemeRegex .nameAddr) (text "sip:" ++ s) =
      some ⟨text "sip:", s, [(2, text "sip")]⟩ := rfl

theorem matchAt_headerParams_bracket (s : Text) :
    matchAt headerOrQueryParamsRegex (byte '>' :: s) = none := rfl

/-- Blanks are passed over where there are none. -/
theorem head?_run_sws (hs : ∀ c ∈ s.head?, isSpace c = false) (n : Nat) :
    (run sws n s).head? = some ⟨[], s, []⟩ :=
  head?_run_star_cls (w := []) (by simp) hs n

theorem matchAt_angleBrackets (hne : w ≠ []) (hw : ∀ c ∈ w, (c != byte '>') = true)
    (after : Text) : matchAt angleBracketsRegex (byte '<' :: (w ++ byte '>' :: after)) =
      some ⟨byte '<' :: w ++ [byte '>'], after, [(1, w)]⟩ := by
  have hopen : (run (lit "<") 0 (byte '<' :: (w ++ byte '>' :: after))).head? =
      some ⟨[byte '<'], w ++ byte '>' :: after, []⟩ := rfl
  have hbody := head?_run_group (k := 1) (head?_run_plus_cls hne hw
    (by simp : ∀ c ∈ (byte '>' :: after).head?, (c != byte '>') = false) 1)
  have hclose : ∀ n, (run (cat [lit ">"]) n (byte '>' :: after)).head? =
      some ⟨[byte '>'], after, []⟩ := fun n => rfl
  have hblank := head?_run_sws (by simp; decide :
    ∀ c ∈ (byte '<' :: (w ++ byte '>' :: after)).head?, isSpace c = false) 0
  have h := head?_run_seq hblank (head?_run_seq hopen (head?_run_seq hbody (hclose _)))
  exact h.trans (by simp [Match.append])

/-! ### Scheme -/

/-- The pattern of a text in capital or small letters. -/
def noCase (w : Text) : Pattern :=
  w.foldr (fun c p => seq (cls fun d => toLower d == toLower c) p) eps

theorem run_noCase (w : Text) (n : Nat) (s : Text) : run (noCase w) n s =
    if caseEq w (s.take w.length) then [⟨s.take w.length, s.drop w.length, []⟩] else [] := by
  induction w generalizing n s with
  | nil => rfl
  | cons c w ih =>
    cases s with
    | nil => rfl
    | cons d s =>
      have hcase : caseEq (c :: w) (d :: s.take w.length) =
          (toLower c == toLower d && caseEq w (s.take w.length)) := by
        simp [caseEq]
      rw [length_cons, take_succ_cons, drop_succ_cons, hcase]
      by_cases hd : toLower d = toLower c
      · have hrun : run (noCase (c :: w)) n (d :: s) =
            (run (noCase w) (n + 1) s).map (Match.append ⟨[d], s, []⟩) := by
          simp [noCase, run, hd]
        rw [hrun, ih, hd, beq_self_eq_true, Bool.true_and]
        split <;> rfl
      · have hrun : run (noCase (c :: w)) n (d :: s) = [] := by
          simp [noCase, run, hd]
        have hne : (toLower c == toLower d) = false := by simpa using fun h => hd h.symm
        rw [hrun, hne]
        rfl

theorem run_schemeName {v : Text} (hw : byte ':' ∉ w) (hv : byte ':' ∉ v) (k n : Nat) (s : Text) :
    run (seq (group k (noCase w)) (cat [lit ":"])) n (v ++ byte ':' :: s) =
      if caseEq w v then [⟨v ++ [byte ':'], s, [(k, v)]⟩] else [] := by
  have hlength {x y : Text} (h : caseEq x y = true) : x.length = y.length := by
    simpa using congrArg length ((caseEq_iff x y).mp h)
  rw [run, run, run_noCase]
  rcases Nat.lt_trichotomy w.length v.length with hlt | heq | hlt
  · -- the name goes on where the pattern asks for the colon
    have hne : ¬ caseEq w v = true := fun h => absurd (hlength h) (Nat.ne_of_lt hlt)
    have hdrop : (v ++ byte ':' :: s).drop w.length =
        v[w.length] :: (v.drop (w.length + 1) ++ byte ':' :: s) := by
      rw [drop_append_of_le_length (Nat.le_of_lt hlt), drop_eq_getElem_cons hlt]
      rfl
    have hcolon : v[w.length] ≠ byte ':' := fun h => hv (h ▸ getElem_mem hlt)
    rw [if_neg hne, hdrop]
    split
    · simp [cat, lit, text, run, hcolon]
    · rfl
  · rw [heq, take_left, drop_left]
    split
    · rfl
    · rfl
  · -- the pattern goes on where the name has ended
    have hne : ¬ caseEq w v = true := fun h => absurd (hlength h) (Nat.ne_of_gt hlt)
    have hcolon : ∀ c : Byte, toLower c = byte ':' → c = byte ':' := by
      intro c hc
      have halnum := (toLower_spec c).2.2.2.1
      rw [hc] at halnum
      exact ((toLower_spec c).2.2.2.2.2 halnum.symm).symm.trans hc
    have hshort : ¬ caseEq w ((v ++ byte ':' :: s).take w.length) = true := by
      intro h
      have hat := congrArg (fun l => l[v.length]?) ((caseEq_iff _ _).mp h)
      simp [hlt] at hat
      exact hw (hcolon _ (hat.trans (by decide)) ▸ getElem_mem hlt)
    rw [if_neg hne, if_neg hshort]
    rfl

/-- The names of the schemes, with the numbers of their groups. -/
def schemeNames : List (Nat × Text) :=
  [(1, text "UNKNOWN-URL-SCHEME"), (2, text "sip"), (3, text "sips"), (4, text "http"),
    (5, text "https"), (6, text "ftp"), (7, text "file"), (8, text "mailto")]

theorem matchAt_scheme {v : Text} (hv : byte ':' ∉ v) (s : Text) :
    matchAt (supportedSchemeRegex .addrSpec) (v ++ byte ':' :: s) =
      (schemeNames.find? fun kw => caseEq kw.2 v).map fun kw =>
        ⟨v ++ [byte ':'], s, [(kw.1, v)]⟩ := by
  have hnames : ∀ kw ∈ schemeNames, byte ':' ∉ kw.2 := by decide
  have hsplit : supportedSchemeRegex .addrSpec =
      seq (choice (schemeNames.map fun kw => group kw.1 (noCase kw.2))) (cat [lit ":"]) := rfl
  rw [matchAt, hsplit, run_seq_choice, flatMap_map]
  clear hsplit
  generalize schemeNames = kws at hnames ⊢
  induction kws with
  | nil => rfl
  | cons kw kws ih =>
    rw [flatMap_cons, run_schemeName (hnames kw (by simp)) hv, find?_cons]
    by_cases hcase : caseEq kw.2 v = true
    · simp [hcase]
    · simpa [hcase] using ih fun kw' hkw' => hnames kw' (by simp [hkw'])

/-- The name of a scheme is found in the table of names. -/
theorem exists_schemeName (scheme : Scheme) :
    ∃ kw, schemeNames.find? (fun kw => caseEq kw.2 scheme.name) = some kw ∧
      Scheme.ofIndex (kw.1 - 1) = scheme := by
  cases scheme <;> exact ⟨_, rfl, rfl⟩

theorem parseScheme_name (scheme : Scheme) (s : Text) :
    parseScheme .addrSpec { url := {}, rest := scheme.name ++ byte ':' :: s } =
      { url := { scheme := scheme }, rest := s } := by
  have hcolon : byte ':' ∉ scheme.name := by cases scheme <;> decide
  obtain ⟨kw, hkw, hindex⟩ := exists_schemeName scheme
  unfold parseScheme
  dsimp only
  rw [matchAt_scheme hcolon, hkw]
  simp [Match.matchCount, hindex]

/-! ### User -/

theorem isEscapedText_append_class {p : Byte → Bool} (hw : ∀ c ∈ w, p c = true) :
    isEscapedText p (w ++ t) = isEscapedText p t := by
  induction w with
  | nil => rfl
  | cons c w ih =>
    rw [cons_append, isEscapedText_cons (hw c (by simp))]
    exact ih fun d hd => hw d (by simp [hd])

theorem run_escapedByte_eq_nil (hs : ∀ c ∈ s.head?, c ≠ byte '%') (n : Nat) :
    run (cat [lit "%", cls isHex, cls isHex]) n s = [] := by
  have hclass : ∀ c ∈ s.head?, (c == byte '%') = false := by simpa using hs
  exact run_seq_eq_nil (run_seq_eq_nil (run_cls_eq_nil hclass))

theorem head?_run_escapedByte {high low : Byte} (hhigh : isHex high = true)
    (hlow : isHex low = true) (rest : Text) (n : Nat) :
    (run (cat [lit "%", cls isHex, cls isHex]) n (byte '%' :: high :: low :: rest)).head? =
      some ⟨[byte '%', high, low], rest, []⟩ := by
  have hpercent : (run (lit "%") n (byte '%' :: high :: low :: rest)).head? =
      some ⟨[byte '%'], high :: low :: rest, []⟩ := rfl
  have hdigits : ∀ n, (run (cat [cls isHex, cls isHex]) n (high :: low :: rest)).head? =
      some ⟨[high, low], rest, []⟩ := by
    intro n
    simp [cat, run, hhigh, hlow, Match.append]
  exact (head?_run_seq hpercent (hdigits _)).trans (by simp [Match.append])

theorem head?_run_escapedRun {p : Byte → Bool} (hp : p (byte '%') = false)
    (htail : ∀ c ∈ tail.head?, p c = false ∧ c ≠ byte '%') (hne : s ≠ [])
    (hs : isEscapedText p s = true) : ∃ w t, s = w ++ t ∧ w ≠ [] ∧ isEscapedText p t = true ∧
      ∀ n, (run (escapedRun p) n (s ++ tail)).head? = some ⟨w, t ++ tail, []⟩ := by
  obtain ⟨c, cs, rfl⟩ := exists_cons_of_ne_nil hne
  by_cases hc : p c = true
  · -- as many bytes as need no escape
    obtain ⟨w, t, rfl, hw, ht⟩ := exists_span p cs
    have hcw : ∀ d ∈ c :: w, p d = true := by simpa [hc] using hw
    have htext : isEscapedText p t = true := by
      rw [← isEscapedText_append_class hcw]
      exact hs
    have htl : ∀ d ∈ (t ++ tail).head?, p d = false := by
      intro d hd
      rcases t with - | ⟨e, t⟩
      · exact (htail d hd).1
      · exact ht d hd
    refine ⟨c :: w, t, rfl, by simp, htext, ?_⟩
    intro n
    have hassoc : c :: (w ++ t) ++ tail = c :: w ++ (t ++ tail) := by simp
    rw [hassoc, escapedRun, head?_run_alt, run_possessive (cons_ne_nil c w) hcw htl n]
    rfl
  · -- an escaped byte
    have hpc : p c = false := by simpa using hc
    rw [isEscapedText.eq_def] at hs
    simp only [hpc, Bool.false_eq_true, if_false] at hs
    split at hs
    · next hpercent =>
        subst hpercent
        rcases cs with - | ⟨high, - | ⟨low, rest⟩⟩
        · simp at hs
        · simp at hs
        · simp only [Bool.and_eq_true] at hs
          obtain ⟨⟨hhigh, hlow⟩, hrest⟩ := hs
          refine ⟨[byte '%', high, low], rest, rfl, by simp, hrest, ?_⟩
          intro n
          have hrun := head?_run_escapedByte hhigh hlow (rest ++ tail) n
          rw [escapedRun, head?_run_alt, run_possessive_eq_nil (by simpa using hp)]
          exact hrun
    · simp at hs

theorem head?_run_star_escapedRun {p : Byte → Bool} (hp : p (byte '%') = false)
    (htail : ∀ c ∈ tail.head?, p c = false ∧ c ≠ byte '%')
    (hs : isEscapedText p s = true) (n : Nat) :
    (run (star (escapedRun p)) n (s ++ tail)).head? = some ⟨s, tail, []⟩ := by
  refine head?_run_star_of_pieces (P := fun s => isEscapedText p s = true) (fun n => ?_)
    (fun s hne hs => head?_run_escapedRun hp htail hne hs) hs n
  rw [escapedRun, run, run_possessive_eq_nil fun c hc => (htail c hc).1,
    run_escapedByte_eq_nil fun c hc => (htail c hc).2]
  rfl

theorem head?_run_userGroup {user : Text} (hne : user ≠ [])
    (huser : isEscapedText isUserByte user = true)
    (htail : ∀ c ∈ tail.head?, isUserByte c = false ∧ c ≠ byte '%') :
    (run (group 1 (plus (escapedRun isUserByte))) 0 (user ++ tail)).head? =
      some ⟨user, tail, [(1, user)]⟩ := by
  obtain ⟨w, t, rfl, hw, ht, hfirst⟩ := head?_run_escapedRun (by decide) htail hne huser
  have hplus := head?_run_seq (hfirst 0)
    (head?_run_star_escapedRun (by decide) htail ht _)
  exact (head?_run_group (k := 1) hplus).trans (by simp [Match.append])

/-- The user before `@`. -/
theorem matchAt_user {user : Text} (hne : user ≠ []) (huser : isEscapedText isUserByte user = true)
    (s : Text) : matchAt usernameAndPasswordRegex (user ++ byte '@' :: s) =
      some ⟨user ++ [byte '@'], s, [(1, user)]⟩ := by
  have hat : ∀ c ∈ (byte '@' :: s).head?, isUserByte c = false ∧ c ≠ byte '%' := by
    intro c hc
    rw [head?_cons, Option.mem_some_iff] at hc
    subst hc
    decide
  have hrest : ∀ n, (run (cat [opt (seq (lit ":") (group 2 (star (escapedRun isPasswordByte)))),
      lit "@"]) n (byte '@' :: s)).head? = some ⟨[byte '@'], s, []⟩ := fun n => rfl
  have h := head?_run_seq (head?_run_userGroup hne huser hat) (hrest _)
  exact h.trans (by simp [Match.append])

/-- User and password before `@`. -/
theorem matchAt_user_password {user password : Text} (hne : user ≠ [])
    (huser : isEscapedText isUserByte user = true)
    (hpassword : isEscapedText isPasswordByte password = true) (s : Text) :
    matchAt usernameAndPasswordRegex (user ++ byte ':' :: (password ++ byte '@' :: s)) =
      some ⟨user ++ byte ':' :: (password ++ [byte '@']), s, [(2, password), (1, user)]⟩ := by
  have hcolon : ∀ c ∈ (byte ':' :: (password ++ byte '@' :: s)).head?,
      isUserByte c = false ∧ c ≠ byte '%' := by
    intro c hc
    rw [head?_cons, Option.mem_some_iff] at hc
    subst hc
    decide
  have hat : ∀ c ∈ (byte '@' :: s).head?, isPasswordByte c = false ∧ c ≠ byte '%' := by
    intro c hc
    rw [head?_cons, Option.mem_some_iff] at hc
    subst hc
    decide
  have hpart (n : Nat) : (run (opt (seq (lit ":") (group 2 (star (escapedRun isPasswordByte))))) n
      (byte ':' :: (password ++ byte '@' :: s))).head? =
      some ⟨byte ':' :: password, byte '@' :: s, [(2, password)]⟩ := by
    have hlit : (run (lit ":") n (byte ':' :: (password ++ byte '@' :: s))).head? =
        some ⟨[byte ':'], password ++ byte '@' :: s, []⟩ := rfl
    have hgroup := head?_run_group (k := 2)
      (head?_run_star_escapedRun (by decide) hat hpassword (n + 1))
    exact (head?_run_alt_left (head?_run_seq hlit hgroup)).trans (by simp [Match.append])
  have hclose : ∀ n, (run (cat [lit "@"]) n (byte '@' :: s)).head? =
      some ⟨[byte '@'], s, []⟩ := fun n => rfl
  have h := head?_run_seq (head?_run_userGroup hne huser hcolon)
    (head?_run_seq (hpart _) (hclose _))
  exact h.trans (by simp [Match.append])

/-- Without `@` there is no user. -/
theorem matchAt_user_eq_none (hs : byte '@' ∉ s) : matchAt usernameAndPasswordRegex s = none := by
  rw [Option.eq_none_iff_forall_ne_some]
  intro m hm
  have hmem := mem_run_of_matchAt hm
  obtain ⟨u, -, v, ⟨w, -, x, ⟨y, hy, z, -, rfl⟩, rfl⟩, htext⟩ := text_mem_lang hmem
  rw [append_of_mem_run hmem, ← htext, mem_lang_lit.mp hy] at hs
  simp [text] at hs

/-! ### Host and port -/

theorem head?_run_domainLabel (hl : isLabel l = true)
    (htail : ∀ c ∈ tail.head?, isLabelByte c = false) (n : Nat) :
    (run domainLabel n (l ++ tail)).head? = some ⟨l, tail, []⟩ := by
  have halnum : ∀ c ∈ tail.head?, isAlnum c = false := by
    intro c hc
    have := htail c hc
    simp only [isLabelByte, Bool.or_eq_false_iff] at this
    exact this.1
  have hcls : ∀ (c : Byte) (s : Text), isAlnum c = true → ∀ n,
      (run (cls isAlnum) n (c :: s)).head? = some ⟨[c], s, []⟩ := by
    intro c s hc n
    rw [run_cls_cons hc]
    rfl
  rcases isLabel_iff.mp hl with ⟨c, hc, rfl⟩ | ⟨c, w, d, hc, hw, hd, rfl⟩
  · have hnone : run (seq (star (cls isLabelByte)) (cls isAlnum)) (n + 1) tail = [] := by
      have hstar := run_star_eq_nil (run_cls_eq_nil htail : run (cls isLabelByte) (n + 1) tail = [])
      rw [run, hstar, flatMap_cons, flatMap_nil, run_cls_eq_nil halnum]
      rfl
    have hopt : (run (opt (seq (star (cls isLabelByte)) (cls isAlnum))) (n + 1) tail).head? =
        some ⟨[], tail, []⟩ := by
      rw [opt, head?_run_alt, hnone]
      rfl
    exact head?_run_seq (hcls c tail hc n) hopt
  · -- the repeated class takes the last byte too, and has to give it back
    have hdb : isLabelByte d = true := by rw [isLabelByte, hd, Bool.true_or]
    obtain ⟨others, hothers⟩ := run_star_cls_concat hw hdb htail (n + 1)
    have hskip : ∀ m ∈ [(⟨w ++ [d], tail, []⟩ : Match)],
        run (cls isAlnum) (n + 1 + m.text.length) m.rest = [] := by
      intro m hm
      rw [mem_singleton.mp hm]
      exact run_cls_eq_nil halnum
    have hback := head?_run_seq_skip hothers hskip (hcls d tail hd _)
    have hopt : (run (opt (seq (star (cls isLabelByte)) (cls isAlnum))) (n + 1)
        (w ++ d :: tail)).head? = some ⟨w ++ [d], tail, []⟩ := by
      rw [opt, head?_run_alt, hback]
      rfl
    have h := head?_run_seq (hcls c (w ++ d :: tail) hc n) hopt
    have happ : c :: (w ++ [d]) ++ tail = c :: (w ++ d :: tail) := by simp
    rw [happ]
    exact h

theorem bytes_of_isLabel (hl : isLabel l = true) : ∀ c ∈ l, isLabelByte c = true := by
  simp only [isLabel, Bool.and_eq_true, all_eq_true] at hl
  exact hl.2

theorem eq_of_mem_run_label_dot (hl : ∀ c ∈ l, isLabelByte c = true)
    (ht : ∀ c ∈ t.head?, isLabelByte c = false) {n : Nat} {m : Match}
    (hm : m ∈ run (seq domainLabel (lit ".")) n (l ++ t)) :
    m.text = l ++ [byte '.'] ∧ t = byte '.' :: m.rest ∧ m.caps = [] := by
  obtain ⟨u, hu, v, hv, huv⟩ := mem_lang_seq.mp (text_mem_lang hm)
  have hdot : v = [byte '.'] := mem_lang_lit.mp hv
  have happ := append_of_mem_run hm
  rw [← huv, hdot, append_assoc] at happ
  obtain ⟨rfl, rfl⟩ := append_inj_of_class hl (bytes_of_isLabel (isLabel_of_mem_lang hu)) ht
    (by simp; decide) happ
  exact ⟨by rw [← huv, hdot], rfl, caps_eq_nil rfl hm⟩

theorem run_label_dot_eq_nil (hl : ∀ c ∈ l, isLabelByte c = true)
    (ht : ∀ c ∈ t.head?, isLabelByte c = false ∧ c ≠ byte '.') (n : Nat) :
    run (seq domainLabel (lit ".")) n (l ++ t) = [] := by
  rw [eq_nil_iff_forall_not_mem]
  intro m hm
  obtain ⟨-, rfl, -⟩ := eq_of_mem_run_label_dot hl (fun c hc => (ht c hc).1) hm
  exact (ht (byte '.') (by simp)).2 rfl

/-- The pattern of a DNS name behind its first labels. -/
def domainEnd : Pattern := cat [domainLabel, opt (lit ".")]

theorem head?_run_label_dot (hl : isLabel l = true) (more : Text) (n : Nat) :
    (run (seq domainLabel (lit ".")) n (l ++ byte '.' :: more)).head? =
      some ⟨l ++ [byte '.'], more, []⟩ := by
  have hdot : ∀ n, (run (lit ".") n (byte '.' :: more)).head? = some ⟨[byte '.'], more, []⟩ :=
    fun n => rfl
  exact head?_run_seq (head?_run_domainLabel hl (by simp; decide) n) (hdot _)

theorem head?_run_domain {d : Text} (hd : IsDomain d)
    (htail : ∀ c ∈ tail.head?, isLabelByte c = false ∧ c ≠ byte '.') :
    ∀ n, (run (seq (star (seq domainLabel (lit "."))) domainEnd) n (d ++ tail)).head? =
      some ⟨d, tail, []⟩ := by
  have hlabelByte : ∀ c ∈ tail.head?, isLabelByte c = false := fun c hc => (htail c hc).1
  induction hd with
  | @label l hl =>
    intro n
    -- no dot follows: the last label is left to the end of the pattern
    have hdot : ∀ n, (run (cat [opt (lit ".")]) n tail).head? = some ⟨[], tail, []⟩ := by
      intro n
      have hclass : ∀ c ∈ tail.head?, (c == byte '.') = false := by
        intro c hc
        simpa using (htail c hc).2
      have hnone : run (lit ".") n tail = [] := run_seq_eq_nil (run_cls_eq_nil hclass)
      have hopt : (run (opt (lit ".")) n tail).head? = some ⟨[], tail, []⟩ := by
        rw [opt, head?_run_alt, hnone]
        rfl
      have hend : (run eps n tail).head? = some ⟨[], tail, []⟩ := rfl
      exact head?_run_seq hopt hend
    rw [run_star_seq, run_label_dot_eq_nil (bytes_of_isLabel hl) htail, flatMap_nil,
      nil_append]
    have h := head?_run_seq (head?_run_domainLabel hl hlabelByte n) (hdot _)
    exact h.trans (by simp [Match.append])
  | @dot l hl =>
    intro n
    -- the repetition takes this label too, but then nothing is left for the end
    have hlast : run domainEnd (n + (l.length + 1)) tail = [] := by
      refine run_seq_eq_nil (run_seq_eq_nil (run_cls_eq_nil ?_))
      intro c hc
      have := hlabelByte c hc
      simp only [isLabelByte, Bool.or_eq_false_iff] at this
      exact this.1
    have hmore : run (seq (star (seq domainLabel (lit "."))) domainEnd) (n + (l.length + 1))
        tail = [] := by
      have hnone := run_label_dot_eq_nil (by simp : ∀ c ∈ ([] : Text), isLabelByte c = true) htail
        (n + (l.length + 1))
      rw [nil_append] at hnone
      rw [run_star_seq, hnone, flatMap_nil, nil_append, hlast]
    have hskip : ((run (seq domainLabel (lit ".")) n (l ++ byte '.' :: tail)).flatMap fun m =>
        if m.text = [] then []
        else (run (seq (star (seq domainLabel (lit "."))) domainEnd) (n + m.text.length)
          m.rest).map m.append) = [] := by
      rw [flatMap_eq_nil_iff]
      intro m hm
      obtain ⟨htext, hrest, -⟩ := eq_of_mem_run_label_dot (bytes_of_isLabel hl)
        (by simp; decide) hm
      rw [htext, ← tail_eq_of_cons_eq hrest, if_neg (by simp), length_append,
        length_singleton, hmore, map_nil]
    have hdot : ∀ n, (run (cat [opt (lit ".")]) n (byte '.' :: tail)).head? =
        some ⟨[byte '.'], tail, []⟩ := fun n => rfl
    rw [append_assoc, singleton_append, run_star_seq, hskip, nil_append]
    exact head?_run_seq (head?_run_domainLabel hl (by simp; decide) n) (hdot _)
  | @cons l d hl _ ih =>
    intro n
    have hfirst := head?_run_label_dot hl (d ++ tail) n
    obtain ⟨others, hothers⟩ := head?_eq_some_iff.mp hfirst
    rw [append_assoc, cons_append, run_star_seq, hothers, flatMap_cons,
      if_neg (by simp), append_assoc, head?_append, head?_map, ih]
    simp [Match.append]

def ipv4Pattern : Pattern :=
  cat [hostPattern.digits13, lit ".", hostPattern.digits13, lit ".", hostPattern.digits13, lit ".",
    hostPattern.digits13]

def ipv6Pattern : Pattern := cat [lit "[", possessive isIpv6Byte, lit "]"]

theorem hostPattern_eq :
    hostPattern =
      alt (seq (star (seq domainLabel (lit "."))) domainEnd) (alt ipv4Pattern ipv6Pattern) := rfl

/-- The host expression takes the whole host. -/
theorem head?_run_hostPattern {host : Text} (hhost : IsHost host)
    (htail : ∀ c ∈ tail.head?, isLabelByte c = false ∧ c ≠ byte '.') (n : Nat) :
    (run hostPattern n (host ++ tail)).head? = some ⟨host, tail, []⟩ := by
  rw [hostPattern_eq]
  cases hhost with
  | domain hd => exact head?_run_alt_left (head?_run_domain hd htail n)
  | @ipv6 a hne ha =>
    have hassoc : byte '[' :: a ++ [byte ']'] ++ tail = byte '[' :: (a ++ byte ']' :: tail) := by
      simp
    -- the other two alternatives do not start with a bracket
    have hdomain : run (seq (star (seq domainLabel (lit "."))) domainEnd) n
        (byte '[' :: (a ++ byte ']' :: tail)) = [] := rfl
    have hipv4 : run ipv4Pattern n (byte '[' :: (a ++ byte ']' :: tail)) = [] := rfl
    have hopen : (run (lit "[") n (byte '[' :: (a ++ byte ']' :: tail))).head? =
        some ⟨[byte '['], a ++ byte ']' :: tail, []⟩ := rfl
    have hbytes : ∀ n, (run (possessive isIpv6Byte) n (a ++ byte ']' :: tail)).head? =
        some ⟨a, byte ']' :: tail, []⟩ := by
      intro n
      rw [run_possessive hne ha (by simp; decide)]
      rfl
    have hclose : ∀ n, (run (cat [lit "]"]) n (byte ']' :: tail)).head? =
        some ⟨[byte ']'], tail, []⟩ := fun n => rfl
    rw [hassoc, run_alt_right hdomain, run_alt_right hipv4]
    have h := head?_run_seq hopen (head?_run_seq (hbytes _) (hclose _))
    exact h.trans (by simp [Match.append])

theorem matchAt_hostAndPort {host port : Text} {value : Int} (hhost : IsHost host)
    (hport : IsPortText port value) (s : Text) :
    ∃ m, matchAt hostAndPortRegex (host ++ (port ++ byte ';' :: s)) = some m ∧
      m.rest = byte ';' :: s ∧ m.group 1 = some host ∧
      (m.group 2 = none ∧ value = portNone ∨
        ∃ digits, m.group 2 = some digits ∧ value = digitsValue 10 digits) := by
  rcases hport with ⟨rfl, rfl⟩ | ⟨p, hp, hp', rfl, rfl⟩
  · have hsemi : ∀ c ∈ (byte ';' :: s).head?, isLabelByte c = false ∧ c ≠ byte '.' := by
      intro c hc
      rw [head?_cons, Option.mem_some_iff] at hc
      subst hc
      decide
    have hnone : ∀ n, (run (opt (seq (lit ":") (group 2 (seq (cls isDigit) (upTo 5 (cls isDigit))))))
        n (byte ';' :: s)).head? = some ⟨[], byte ';' :: s, []⟩ := fun n => rfl
    have h := head?_run_seq (head?_run_group (k := 1) (head?_run_hostPattern hhost hsemi 0)) (hnone _)
    exact ⟨_, h, rfl, rfl, Or.inl ⟨rfl, rfl⟩⟩
  · have hcolon : ∀ c ∈ (byte ':' :: (natText p ++ byte ';' :: s)).head?,
        isLabelByte c = false ∧ c ≠ byte '.' := by
      intro c hc
      rw [head?_cons, Option.mem_some_iff] at hc
      subst hc
      decide
    have hlen : (natText p).length ≤ 5 := by
      rw [natText, length_map, Nat.length_toDigits_le_iff (by decide) (by decide)]
      omega
    have hdigits : ∀ n, (run (seq (cls isDigit) (upTo 5 (cls isDigit))) n
        (natText p ++ byte ';' :: s)).head? = some ⟨natText p, byte ';' :: s, []⟩ := by
      intro n
      obtain ⟨c, w, hcw⟩ := exists_cons_of_ne_nil (natText_ne_nil p)
      have hall := isDigit_of_mem_natText (n := p)
      rw [hcw] at hall hlen ⊢
      have hfirst : (run (cls isDigit) n (c :: (w ++ byte ';' :: s))).head? =
          some ⟨[c], w ++ byte ';' :: s, []⟩ := by
        rw [run_cls_cons (hall c (by simp))]
        rfl
      have hrest := head?_run_upTo_cls (by simp; decide :
        ∀ c ∈ (byte ';' :: s).head?, isDigit c = false) (fun d hd => hall d (by simp [hd]))
        (by rw [length_cons] at hlen; omega : w.length ≤ 5) (n + 1)
      exact head?_run_seq hfirst hrest
    have hport : ∀ n, (run (opt (seq (lit ":") (group 2 (seq (cls isDigit) (upTo 5 (cls isDigit))))))
        n (byte ':' :: (natText p ++ byte ';' :: s))).head? =
          some ⟨byte ':' :: natText p, byte ';' :: s, [(2, natText p)]⟩ := by
      intro n
      have hlit : (run (lit ":") n (byte ':' :: (natText p ++ byte ';' :: s))).head? =
          some ⟨[byte ':'], natText p ++ byte ';' :: s, []⟩ := rfl
      exact head?_run_alt_left (head?_run_seq hlit (head?_run_group (hdigits _)))
    have h := head?_run_seq (head?_run_group (k := 1) (head?_run_hostPattern hhost hcolon 0))
      (hport _)
    exact ⟨_, h, rfl, rfl, Or.inr ⟨natText p, rfl, by rw [digitsValue_natText]⟩⟩

/-! ### The whole value -/

theorem matchAt_rawParams {mark : String} {c : Byte} (hmark : text mark = [c])
    (hspace : isSpace c = false) {p : Byte → Bool} {params : Text} (hne : params ≠ [])
    (hparams : ∀ c ∈ params, p c = true) (htail : ∀ c ∈ tail.head?, p c = false) :
    matchAt (cat [sws, lit mark, group 1 (possessive p)]) (c :: (params ++ tail)) =
      some ⟨c :: params, tail, [(1, params)]⟩ := by
  have hblank := head?_run_sws (by simpa using hspace :
    ∀ d ∈ (c :: (params ++ tail)).head?, isSpace d = false) 0
  have hopen : (run (lit mark) 0 (c :: (params ++ tail))).head? = some ⟨[c], params ++ tail, []⟩ := by
    unfold lit
    rw [hmark]
    simp [run, Match.append]
  have hbody : ∀ n, (run (possessive p) n (params ++ tail)).head? = some ⟨params, tail, []⟩ := by
    intro n
    rw [run_possessive hne hparams htail]
    rfl
  have hend : ∀ n, (run (cat []) n tail).head? = some ⟨[], tail, []⟩ := fun n => rfl
  have h := head?_run_seq hblank (head?_run_seq hopen
    (head?_run_seq (head?_run_group (k := 1) (hbody _)) (hend _)))
  exact h.trans (by simp [Match.append])

theorem matchAt_urlParams {params : Text} (hne : params ≠ [])
    (hparams : ∀ c ∈ params, isUrlParamsByte c = true)
    (htail : ∀ c ∈ tail.head?, isUrlParamsByte c = false) :
    matchAt urlParamsRegex (byte ';' :: (params ++ tail)) =
      some ⟨byte ';' :: params, tail, [(1, params)]⟩ :=
  matchAt_rawParams rfl (by decide) hne hparams htail

theorem bytes_of_isEscapedText {p : Byte → Bool} (hs : isEscapedText p s = true) :
    ∀ c ∈ s, p c = true ∨ c = byte '%' ∨ isHex c = true := by
  fun_induction isEscapedText p s with
  | case1 => simp
  | case2 c cs hc ih =>
    intro d hd
    rcases mem_cons.mp hd with rfl | hd
    · exact Or.inl hc
    · exact ih hs d hd
  | case3 high low rest hp ih =>
    simp only [Bool.and_eq_true] at hs
    intro d hd
    simp only [mem_cons] at hd
    rcases hd with rfl | rfl | rfl | hd
    · exact Or.inr (Or.inl rfl)
    · exact Or.inr (Or.inr hs.1.1)
    · exact Or.inr (Or.inr hs.1.2)
    · exact ih hs.2 d hd
  | case4 => simp at hs
  | case5 => simp at hs

def isHostByte (c : Byte) : Bool := isLabelByte c || isIpv6Byte c || oneOf "[]" c

theorem bytes_of_isHost (hh : IsHost h) : ∀ c ∈ h, isHostByte c = true := by
  have hlabel : ∀ {l : Text}, isLabel l = true → ∀ c ∈ l, isHostByte c = true := by
    intro l hl c hc
    rw [isHostByte, bytes_of_isLabel hl c hc]
    rfl
  have hdot : isHostByte (byte '.') = true := by decide
  cases hh with
  | domain hd =>
    induction hd with
    | label hl => exact hlabel hl
    | dot hl =>
      intro c hc
      rcases mem_append.mp hc with hc | hc
      · exact hlabel hl c hc
      · rw [mem_singleton.mp hc]
        exact hdot
    | cons hl _ ih =>
      intro c hc
      rcases mem_append.mp hc with hc | hc
      · exact hlabel hl c hc
      · rcases mem_cons.mp hc with rfl | hc
        · exact hdot
        · exact ih c hc
  | @ipv6 a hne ha =>
    intro c hc
    rw [mem_append, mem_cons, mem_singleton] at hc
    rcases hc with (rfl | hc) | rfl
    · decide
    · rw [isHostByte, ha c hc, Bool.or_true, Bool.true_or]
    · decide

theorem bytes_of_isPortText {port : Text} {value : Int} (hport : IsPortText port value) :
    ∀ c ∈ port, isHostByte c = true := by
  rcases hport with ⟨rfl, -⟩ | ⟨p, -, -, rfl, -⟩
  · simp
  · intro c hc
    rcases mem_cons.mp hc with rfl | hc
    · decide
    · have hdigit := isDigit_of_mem_natText c hc
      simp [isHostByte, isLabelByte, isAlnum, hdigit]

/-- User, host and port as they are written. -/
def addrText (user host port : Text) : Text :=
  (if user = [] then [] else user ++ [byte '@']) ++ (host ++ port)

/-- A header value with given parts. -/
def headerOf (user host port params : Text) : Text :=
  byte '<' :: (text "sip:" ++ (addrText user host port ++ byte ';' :: params)) ++ [byte '>']

section

variable {user host port params : Text} {value : Int}

theorem parseUser_eq (hsip : st.url.scheme = .sip)
    (huserId : st.url.userId = []) (hpassword : st.url.password = [])
    (huser : isEscapedText isUserByte user = true) (hs : byte '@' ∉ s)
    (hrest : st.rest = (if user = [] then [] else user ++ [byte '@']) ++ s) :
    parseUser st = { st with url := { st.url with userId := user }, rest := s } := by
  obtain ⟨u, rest, after, unrecognizable⟩ := st
  obtain ⟨scheme, displayName, userId, password, hostAddress, hostPort⟩ := u
  subst hsip huserId hpassword hrest
  unfold parseUser
  rw [if_neg (by simp)]
  by_cases hne : user = []
  · simp only [hne, if_true, nil_append, matchAt_user_eq_none hs]
  · simp only [hne, if_false, append_assoc, singleton_append, matchAt_user hne huser s]
    rfl

theorem parseFront_nameAddr (s : Text) :
    parseFront .nameAddr s = parseHostAndPort (parseUser (skipSlashes (parseScheme .nameAddr
      (parseAngleBrackets (parseDisplayName { url := {}, rest := s }))))) := by
  unfold parseFront
  rfl

theorem parseFront_headerOf (huser : isEscapedText isUserByte user = true) (hhost : IsHost host)
    (hport : IsPortText port value) (hparams : ∀ c ∈ params, isUrlParamsByte c = true)
    (hat : byte '@' ∉ params) :
    parseFront .nameAddr (headerOf user host port params) =
      { url := { userId := user, hostAddress := host, hostPort := value }
        rest := byte ';' :: (params ++ [byte '>'])
        afterAngleBrackets := some [] } := by
  have hclose : ∀ c ∈ text "sip:" ++ (addrText user host port ++ byte ';' :: params),
      (c != byte '>') = true := by
    intro c hc
    have hsip : byte '>' ∉ text "sip:" := by decide
    have huserByte : ¬ (isUserByte (byte '>') = true ∨ byte '>' = byte '%' ∨
        isHex (byte '>') = true) := by decide
    have hhostByte : isHostByte (byte '>') = false := by decide
    have hparamByte : isUrlParamsByte (byte '>') = false := by decide
    refine bne_iff_ne.mpr ?_
    simp only [addrText, mem_append, mem_cons] at hc
    rcases hc with hc | (hc | hc | hc) | rfl | hc
    · rintro rfl
      exact hsip hc
    · by_cases hne : user = []
      · simp [hne] at hc
      · simp only [hne, if_false, mem_append, mem_singleton] at hc
        rcases hc with hc | rfl
        · rintro rfl
          exact huserByte (bytes_of_isEscapedText huser _ hc)
        · decide
    · exact ne_of_class (bytes_of_isHost hhost c hc) hhostByte
    · exact ne_of_class (bytes_of_isPortText hport c hc) hhostByte
    · decide
    · exact ne_of_class (hparams c hc) hparamByte
  have hnoAt : byte '@' ∉ host ++ (port ++ byte ';' :: (params ++ [byte '>'])) := by
    intro hc
    have hhostByte : isHostByte (byte '@') = false := by decide
    simp only [mem_append, mem_cons] at hc
    rcases hc with hc | hc | hc | hc | hc
    · simp [bytes_of_isHost hhost _ hc] at hhostByte
    · simp [bytes_of_isPortText hport _ hc] at hhostByte
    · exact absurd hc (by decide)
    · exact hat hc
    · exact absurd hc (by decide)
  have hname : parseDisplayName { url := {}, rest := headerOf user host port params } =
      { url := {}, rest := headerOf user host port params } := by
    unfold parseDisplayName headerOf
    rw [cons_append, matchAt_displayName_bracket]
  have hopen : parseAngleBrackets { url := {}, rest := headerOf user host port params } =
      { url := {}
        rest := text "sip:" ++ ((if user = [] then [] else user ++ [byte '@']) ++
          (host ++ (port ++ byte ';' :: (params ++ [byte '>']))))
        afterAngleBrackets := some [] } := by
    unfold parseAngleBrackets headerOf
    rw [cons_append, matchAt_angleBrackets (by simp [text]) hclose]
    simp [Match.group, addrText]
  have hscheme : ∀ s : Text, skipSlashes (parseScheme .nameAddr
      { url := {}, rest := text "sip:" ++ s, afterAngleBrackets := some [] }) =
      { url := {}, rest := s, afterAngleBrackets := some [] } := by
    intro s
    unfold parseScheme
    rw [matchAt_sipScheme]
    rfl
  rw [parseFront_nameAddr, hname, hopen, hscheme, parseUser_eq rfl rfl rfl huser hnoAt rfl]
  obtain ⟨m, hm, hrest, hhostGroup, hvalue⟩ := matchAt_hostAndPort hhost hport
    (params ++ [byte '>'])
  unfold parseHostAndPort
  rcases hvalue with ⟨hgroup, rfl⟩ | ⟨digits, hgroup, rfl⟩
  · simp only [hm, hrest, hhostGroup, hgroup]
    rfl
  · simp only [hm, hrest, hhostGroup, hgroup]
    rfl

theorem parse_closing (hsip : u.scheme = .sip) :
    parseHeaderParams { url := u, rest := [byte '>'], afterAngleBrackets := some [] } =
      { url := u, rest := [byte '>'], afterAngleBrackets := some [] } ∧
    closeAngleBrackets { url := u, rest := [byte '>'], afterAngleBrackets := some [] } =
      { url := u, rest := [], afterAngleBrackets := some [] } ∧
    parseFieldParams 1 { url := u, rest := [], afterAngleBrackets := some [] } =
      { url := u, rest := [], afterAngleBrackets := some [] } ∧
    parseEnd .nameAddr false { url := u, rest := [], afterAngleBrackets := some [] } =
      { url := u, rest := [], afterAngleBrackets := some [] } := by
  have hknown : u.scheme ≠ .unknown := by
    rw [hsip]
    decide
  have hend : matchAt endUrlRegex [] = some ⟨[], [], []⟩ := rfl
  refine ⟨?_, rfl, ?_, ?_⟩
  · unfold parseHeaderParams
    rw [matchAt_headerParams_bracket]
  · rw [parseFieldParams, if_neg hknown, hend]
  · unfold parseEnd endRegex
    rw [if_neg hknown, hend]

/-- **Every identity is read.**  A header value with the parts of an identity and with
URL parameters is read back. -/
theorem fromString_headerOf (huser : isEscapedText isUserByte user = true) (hhost : IsHost host)
    (hport : IsPortText port value) (hne : params ≠ [])
    (hparams : ∀ c ∈ params, isUrlParamsByte c = true) (hat : byte '@' ∉ params) :
    fromString (headerOf user host port params) .nameAddr =
      { userId := user, hostAddress := host, hostPort := value
        urlParameters := parseCgiVariables (byte ';') params } := by
  have hpath : ∀ s, parsePath { url := { userId := user, hostAddress := host, hostPort := value }
                                rest := s, afterAngleBrackets := some [] } =
      { url := { userId := user, hostAddress := host, hostPort := value }
        rest := s, afterAngleBrackets := some [] } := fun s => rfl
  have hurl : parseUrlParams .nameAddr
      { url := { userId := user, hostAddress := host, hostPort := value }
        rest := byte ';' :: (params ++ [byte '>']), afterAngleBrackets := some [] } =
      { url := { userId := user, hostAddress := host, hostPort := value
                 urlParameters := parseCgiVariables (byte ';') params }
        rest := [byte '>'], afterAngleBrackets := some [] } := by
    unfold parseUrlParams
    rw [if_pos (by simp [Scheme.isSip]), matchAt_urlParams hne hparams (by simp; decide)]
    rfl
  unfold fromString parseString
  rw [parseFront_headerOf huser hhost hport hparams hat]
  unfold parseBack
  simp only [hpath, hurl]
  generalize hu : ({ userId := user, hostAddress := host, hostPort := value
                     urlParameters := parseCgiVariables (byte ';') params } : Url) = u
  have hsip : u.scheme = .sip := by rw [← hu]
  obtain ⟨hheader, hclose, hfield, hend⟩ := parse_closing hsip
  rw [if_neg (by decide), hheader, hclose]
  exact congrArg ParseState.url ((congrArg _ hfield).trans hend)

end

theorem portText_eq {port : Text} (hport : IsPortText port u.hostPort) : u.portText = port := by
  unfold portText portIsValid
  rcases hport with ⟨rfl, hnone⟩ | ⟨p, hp, hp', rfl, hvalue⟩
  · rw [hnone]
    rfl
  · rw [hvalue, if_pos]
    · rfl
    · simp only [Bool.and_eq_true, decide_eq_true_eq]
      omega

/-- **Every identity is read from some header value**, whatever URL parameters go with
it. -/
theorem exists_header {i : Text} (hi : IsIdentity i) {params : Text} (hne : params ≠ [])
    (hparams : ∀ c ∈ params, isUrlParamsByte c = true) (hat : byte '@' ∉ params) :
    ∃ s, s ≠ [] ∧ (fromString s .nameAddr).scheme = .sip ∧
      (fromString s .nameAddr).getIdentity = i ∧
      (fromString s .nameAddr).urlParameters = parseCgiVariables (byte ';') params := by
  obtain ⟨user, host, port, value, huser, hhost, hlower, hport, rfl⟩ := hi
  have hread := fromString_headerOf huser hhost hport hne hparams hat
  refine ⟨headerOf user host port params, by simp [headerOf], ?_⟩
  rw [hread]
  refine ⟨rfl, ?_, rfl⟩
  rw [getIdentity, portText_eq hport, hlower]
  simp

end Complete

end Url

end SipXRouter
