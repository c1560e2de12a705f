import SipXRouter.Net.PrintedParams
import SipXRouter.Net.UrlAppend
import SipXRouter.Net.UrlStable

/-!
# A URL parameter set, printed and read again

`setUrlParameter` is followed through `toString`, the parser and `getUrlParameter`.  The value is
escaped and comes back whatever it is.  The names are not: a name with a mark is taken apart, and
without a user one with an at sign may be taken for a user.

## Design notes

The condition is exact but for one thing: without a user, the name of a header parameter with an
at sign may hide the parameters and show the same ones by chance.
-/

namespace SipXRouter

open List

variable {c : Byte} {m : Match} {s y : Text}

namespace Url

open Pattern

/-! ## Where a user ends -/

section User

/-- Whether a text goes on as asked behind a run of bytes of a class and of escapes. -/
def behindEscaped (p : Byte → Bool) (next : Text → Bool) : Text → Bool
  | [] => next []
  | c :: cs =>
    if p c then behindEscaped p next cs
    else if c = byte '%' then
      match cs with
      | high :: low :: rest => isHex high && isHex low && behindEscaped p next rest
      | _ => false
    else next (c :: cs)

/-- An at sign comes next. -/
def atSign (s : Text) : Bool := s.head? == some (byte '@')

/-- What comes behind a user name: the at sign, or a password in front of it. -/
def endsUser (s : Text) : Bool :=
  atSign s || s.head? == some (byte ':') && behindEscaped isPasswordByte atSign (s.drop 1)

variable {p : Byte → Bool} {next : Text → Bool}

theorem behindEscaped_cons (hc : p c = true) (s : Text) :
    behindEscaped p next (c :: s) = behindEscaped p next s := by
  rw [behindEscaped.eq_def]
  exact if_pos hc

theorem behindEscaped_percent (hp : p (byte '%') = false) (high low : Byte) (s : Text) :
    behindEscaped p next (byte '%' :: high :: low :: s) =
      (isHex high && isHex low && behindEscaped p next s) := by
  rw [behindEscaped.eq_def]
  simp [hp]

theorem behindEscaped_stop (hc : p c = false) (hpercent : c ≠ byte '%') (s : Text) :
    behindEscaped p next (c :: s) = next (c :: s) := by
  rw [behindEscaped.eq_def]
  simp [hc, hpercent]

/-- A run that is complete is passed over. -/
theorem behindEscaped_append (hs : isEscapedText p s = true) (t : Text) :
    behindEscaped p next (s ++ t) = behindEscaped p next t := by
  fun_induction isEscapedText p s with
  | case1 => rfl
  | case2 c cs hc ih =>
    rw [cons_append, behindEscaped_cons hc]
    exact ih hs
  | case3 high low rest hp ih =>
    simp only [Bool.and_eq_true] at hs
    rw [cons_append, cons_append, cons_append,
      behindEscaped_percent (by simpa using hp), hs.1.1, hs.1.2, ih hs.2]
    rfl
  | case4 => simp at hs
  | case5 => simp at hs

theorem exists_of_behindEscaped (hs : behindEscaped p next s = true) :
    ∃ run t, s = run ++ t ∧ isEscapedText p run = true ∧ next t = true := by
  fun_induction behindEscaped p next s with
  | case1 => exact ⟨[], [], rfl, rfl, hs⟩
  | case2 c cs hc ih =>
    obtain ⟨run, t, rfl, hrun, ht⟩ := ih hs
    exact ⟨c :: run, t, rfl, by rw [isEscapedText_cons hc]; exact hrun, ht⟩
  | case3 high low rest hp ih =>
    simp only [Bool.and_eq_true] at hs
    obtain ⟨run, t, rfl, hrun, ht⟩ := ih hs.2
    refine ⟨byte '%' :: high :: low :: run, t, rfl, ?_, ht⟩
    rw [isEscapedText_percent (by simpa using hp), hs.1.1, hs.1.2, hrun]
    rfl
  | case4 => simp at hs
  | case5 c cs hc hpercent => exact ⟨[], c :: cs, rfl, rfl, hs⟩

theorem behindEscaped_congr {y' : Text} (hy : ∀ c ∈ y.head?, isHex c = false)
    (hy' : ∀ c ∈ y'.head?, isHex c = false)
    (hnext : ∀ c cs, next (c :: (cs ++ y)) = next (c :: (cs ++ y')))
    (h : behindEscaped p next y = behindEscaped p next y') (x : Text) :
    behindEscaped p next (x ++ y) = behindEscaped p next (x ++ y') := by
  fun_induction behindEscaped p next x with
  | case1 => exact h
  | case2 c cs hc ih =>
    rw [cons_append, cons_append, behindEscaped_cons hc, behindEscaped_cons hc, ih]
  | case3 high low rest hp ih =>
    have hp' : p (byte '%') = false := by simpa using hp
    simp only [cons_append]
    rw [behindEscaped_percent hp', behindEscaped_percent hp', ih]
  | case4 cs hcs hp =>
    have hp' : p (byte '%') = false := by simpa using hp
    -- an escape cut short does not go on
    have hfalse : ∀ t : Text, (∀ c ∈ t.head?, isHex c = false) →
        behindEscaped p next (byte '%' :: (cs ++ t)) = false := by
      intro t ht
      rcases cs with - | ⟨a, - | ⟨b, rest⟩⟩
      · rcases t with - | ⟨c, - | ⟨d, t⟩⟩
        · rw [behindEscaped.eq_def]; simp [hp']
        · rw [behindEscaped.eq_def]; simp [hp']
        · rw [nil_append, behindEscaped_percent hp', ht c rfl]
          rfl
      · rcases t with - | ⟨c, t⟩
        · rw [behindEscaped.eq_def]; simp [hp']
        · rw [singleton_append, behindEscaped_percent hp', ht c rfl, Bool.and_false]
          rfl
      · exact absurd rfl (hcs a b rest)
    exact (hfalse y hy).trans (hfalse y' hy').symm
  | case5 c cs hc hpercent =>
    have hc' : p c = false := by simpa using hc
    rw [cons_append, cons_append, behindEscaped_stop hc' hpercent,
      behindEscaped_stop hc' hpercent]
    exact hnext c cs

theorem exists_of_matchAt_user (hm : matchAt usernameAndPasswordRegex s = some m) :
    ∃ user middle, m.text = user ++ (middle ++ [byte '@']) ∧ user ≠ [] ∧
      isEscapedText isUserByte user = true ∧
      (middle = [] ∨ ∃ password, middle = byte ':' :: password ∧
        isEscapedText isPasswordByte password = true) := by
  obtain ⟨user, huser, v, ⟨middle, hmiddle, x, ⟨y, hy, z, hz, rfl⟩, rfl⟩, htext⟩ :=
    text_mem_lang (mem_run_of_matchAt hm)
  have huser' : user ∈ lang (plus (escapedRun isUserByte)) := huser
  refine ⟨user, middle, ?_, ne_nil_of_mem_lang_escapedRun huser',
    isEscapedText_of_mem_lang_plus (by decide) huser', ?_⟩
  · rw [← htext, mem_lang_lit.mp hy, mem_lang_eps.mp hz]
    rfl
  · rcases hmiddle with ⟨a, ha, b, hb, rfl⟩ | hmiddle
    · right
      have hb' : b ∈ lang (star (escapedRun isPasswordByte)) := hb
      refine ⟨b, ?_, isEscapedText_of_mem_lang_star (by decide) hb'⟩
      rw [mem_lang_lit.mp ha]
      rfl
    · exact Or.inl (mem_lang_eps.mp hmiddle)

/-- Whether a text begins with a user, by one scan. -/
theorem isSome_matchAt_user (hpercent : c ≠ byte '%') (s : Text) :
    (matchAt usernameAndPasswordRegex (c :: s)).isSome =
      (isUserByte c && behindEscaped isUserByte endsUser (c :: s)) := by
  rw [Bool.eq_iff_iff, Bool.and_eq_true]
  constructor
  · intro hsome
    obtain ⟨m, hm⟩ := Option.isSome_iff_exists.mp hsome
    obtain ⟨user, middle, htext, hne, huser, hmiddle⟩ := exists_of_matchAt_user hm
    have hsplit : c :: s = user ++ (middle ++ byte '@' :: m.rest) := by
      rw [append_of_mem_run (mem_run_of_matchAt hm), htext]
      simp
    refine ⟨?_, ?_⟩
    · obtain ⟨d, user, rfl⟩ := exists_cons_of_ne_nil hne
      rw [← head_eq_of_cons_eq hsplit, isEscapedText.eq_def] at huser
      by_contra hc
      simp [hc, hpercent] at huser
    · rw [hsplit, behindEscaped_append huser]
      rcases hmiddle with rfl | ⟨password, rfl, hpassword⟩
      · rw [nil_append, behindEscaped_stop (by decide) (by decide)]
        rfl
      · rw [cons_append, behindEscaped_stop (by decide) (by decide), endsUser]
        show (_ || _ && behindEscaped isPasswordByte atSign (password ++ _)) = true
        rw [behindEscaped_append hpassword, behindEscaped_stop (by decide) (by decide)]
        rfl
  · rintro ⟨hc, hs⟩
    obtain ⟨user, t, hsplit, huser, ht⟩ := exists_of_behindEscaped hs
    have hne : user ≠ [] := by
      rintro rfl
      rw [nil_append] at hsplit
      rw [← hsplit, endsUser, atSign] at ht
      have hends : ∀ c, isUserByte c = true → c ≠ byte '@' ∧ c ≠ byte ':' :=
        fun c hc => ⟨ne_of_class hc (by decide), ne_of_class hc (by decide)⟩
      simp [hends c hc] at ht
    rw [hsplit]
    rw [endsUser, Bool.or_eq_true, Bool.and_eq_true] at ht
    rcases ht with hat | ⟨hcolon, hpassword⟩
    · obtain ⟨rest, rfl⟩ := head?_eq_some_iff.mp (eq_of_beq hat)
      rw [matchAt_user hne huser]
      rfl
    · obtain ⟨rest, rfl⟩ := head?_eq_some_iff.mp (eq_of_beq hcolon)
      obtain ⟨password, t, hrest, hpassword', ht⟩ := exists_of_behindEscaped hpassword
      obtain ⟨rest', rfl⟩ := head?_eq_some_iff.mp (eq_of_beq ht)
      rw [drop_one, tail_cons] at hrest
      rw [hrest, matchAt_user_password hne huser hpassword']
      rfl

end User

/-! ## Parameters in front of what follows -/

section Shown

variable {name value : Text}

theorem isUserByte_spec (c : Byte) : (isUnreserved c = true → isUserByte c = true) ∧
    isEscapedText isUserByte (byte '%' :: hexPair c) = true := by
  revert c
  decide +kernel

theorem isEscapedText_valueText (value : Text) :
    isEscapedText isUserByte (valueText value) = true := by
  have hbyte : ∀ c, isEscapedText isUserByte (escapeByte c) = true := by
    intro c
    unfold escapeByte
    split
    · next hc => exact isEscapedText_of_class (by simpa using (isUserByte_spec c).1 hc)
    · split
      · decide
      · exact (isUserByte_spec c).2
  have hescape : ∀ s : Text, isEscapedText isUserByte (s.flatMap escapeByte) = true := by
    intro s
    induction s with
    | nil => rfl
    | cons c s ih =>
      rw [flatMap_cons]
      exact isEscapedText_append (hbyte c) ih
  unfold valueText
  split
  · rfl
  · rw [isEscapedText_cons (by decide)]
    exact hescape _

theorem isEscapedText_param (hname : IsParamName name) (value : Text) :
    isEscapedText isUserByte (byte ';' :: (name ++ valueText value)) = true := by
  rw [isEscapedText_cons (by decide)]
  exact isEscapedText_append
    (isEscapedText_of_class fun c hc => (isUserByte_spec c).1 (hname.2 c hc))
    (isEscapedText_valueText value)

theorem behindEscaped_urlParamsText_cons (hname : IsParamName name) (value : Text)
    (params : List (Text × Text)) (z : Text) :
    behindEscaped isUserByte endsUser (urlParamsText ((name, value) :: params) ++ z) =
      behindEscaped isUserByte endsUser (urlParamsText params ++ z) := by
  have hsplit : urlParamsText ((name, value) :: params) ++ z =
      (byte ';' :: (name ++ valueText value)) ++ (urlParamsText params ++ z) := by
    rw [urlParamsText_cons]
    simp
  rw [hsplit, behindEscaped_append (isEscapedText_param hname value)]

/-- What a text in front of which parameters stand may begin with. -/
def isParamsEnd (c : Byte) : Bool := oneOf ";?>" c

theorem head?_urlParamsText {z : Text} (hz : ∀ c ∈ z.head?, isParamsEnd c = true)
    (params : List (Text × Text)) :
    ∀ c ∈ (urlParamsText params ++ z).head?, isParamsEnd c = true := by
  cases params with
  | nil => exact hz
  | cons nv params =>
    intro c hc
    rw [urlParamsText_cons, cons_append, head?_cons, Option.mem_some_iff] at hc
    rw [← hc]
    decide

theorem behindEscaped_user_congr {y' : Text} (hy : ∀ c ∈ y.head?, isParamsEnd c = true)
    (hy' : ∀ c ∈ y'.head?, isParamsEnd c = true)
    (h : behindEscaped isUserByte endsUser y = behindEscaped isUserByte endsUser y') (x : Text) :
    behindEscaped isUserByte endsUser (x ++ y) = behindEscaped isUserByte endsUser (x ++ y') := by
  have hhex : ∀ c, isParamsEnd c = true → isHex c = false := by decide +kernel
  -- neither is a password in front of an at sign
  have hpassword : ∀ {t : Text}, (∀ c ∈ t.head?, isParamsEnd c = true) →
      behindEscaped isPasswordByte atSign t = false := by
    intro t ht
    cases t with
    | nil => rfl
    | cons c t =>
      have hc := ht c rfl
      have hbytes : ∀ c, isParamsEnd c = true →
          isPasswordByte c = false ∧ c ≠ byte '%' ∧ c ≠ byte '@' := by decide +kernel
      obtain ⟨hno, hpercent, hat⟩ := hbytes c hc
      rw [behindEscaped_stop hno hpercent, atSign]
      simpa using hat
  refine behindEscaped_congr (fun c hc => hhex c (hy c hc)) (fun c hc => hhex c (hy' c hc)) ?_ h x
  intro c cs
  have hcongr : behindEscaped isPasswordByte atSign (cs ++ y) =
      behindEscaped isPasswordByte atSign (cs ++ y') :=
    behindEscaped_congr (fun c hc => hhex c (hy c hc)) (fun c hc => hhex c (hy' c hc))
      (fun _ _ => rfl) ((hpassword hy).trans (hpassword hy').symm) cs
  show (_ || _ && behindEscaped isPasswordByte atSign (cs ++ y)) = _
  rw [hcongr]
  rfl

/-- **A parameter that is set does not matter for a user** in front of the others. -/
theorem behindEscaped_setFirst (hname : IsParamName name) (value : Text)
    (params : List (Text × Text)) {z : Text} (hz : ∀ c ∈ z.head?, isParamsEnd c = true) :
    behindEscaped isUserByte endsUser
        (urlParamsText ((setFirst name value params).getD (params ++ [(name, value)])) ++ z) =
      behindEscaped isUserByte endsUser (urlParamsText params ++ z) := by
  induction params with
  | nil =>
    have hone : (setFirst name value []).getD ([] ++ [(name, value)]) = [(name, value)] := rfl
    rw [hone, behindEscaped_urlParamsText_cons hname]
  | cons nv params ih =>
    by_cases hcase : caseEq nv.1 name = true
    · have hown := hname.of_caseEq hcase
      rw [getD_setFirst_cons, if_pos hcase, behindEscaped_urlParamsText_cons hown]
      exact (behindEscaped_urlParamsText_cons hown nv.2 params z).symm
    · have hsplit (l : List (Text × Text)) : urlParamsText (nv :: l) ++ z =
          (byte ';' :: (nv.1 ++ valueText nv.2)) ++ (urlParamsText l ++ z) := by
        rw [urlParamsText_cons]
        simp
      rw [getD_setFirst_cons, if_neg hcase, hsplit, hsplit]
      exact behindEscaped_user_congr (head?_urlParamsText hz _) (head?_urlParamsText hz _) ih _

end Shown

/-! ## A parameter set -/

section Set

variable {u : Url} {name value : Text}

theorem setUrlParameter_ne_nil (u : Url) (name value : Text) :
    (u.setUrlParameter name value).urlParameters ≠ [] := by
  intro hnil
  have hget := getUrlParameter_setUrlParameter u name value name
  rw [caseEq_refl, if_pos rfl, getUrlParameter, hnil] at hget
  exact absurd hget (by simp)

theorem accepted_setUrlParameter (hu : Accepted u) (hsip : u.scheme.isSip = true)
    (hname : IsParamName name) (hvalue : (0 : Byte) ∉ value) :
    Accepted (u.setUrlParameter name value) :=
  { hu with
    hostAlone := ⟨hu.hostAlone.host, hu.hostAlone.absent⟩
    urlParameters := fun nv hnv => by
      rcases mem_setFirst hnv with hnv | ⟨hset, hcase, -⟩
      · exact hu.urlParameters nv hnv
      · rw [← hset] at hvalue
        exact (hname.of_caseEq hcase).isReadParam hvalue
    urlParameters_eq_nil := fun hfalse => by
      have hscheme : u.scheme.isSip = false := hfalse
      rw [hsip] at hscheme
      exact absurd hscheme (by simp) }

end Set

/-! ## What is read -/

section Read

variable {u : Url}

/-- What is printed behind the URL parameters, as a C string. -/
def behindParams (u : Url) (junk : Byte) : Text :=
  headerParamsText u.headerOrQueryParameters ++
    byte '>' :: cString (fieldText junk u.fieldParameters)

theorem head?_behindParams (u : Url) (junk : Byte) :
    ∀ c ∈ (u.behindParams junk).head?, c = byte '?' ∨ c = byte '>' := by
  intro c hc
  rw [behindParams, head?_append, Option.mem_def, Option.or_eq_some_iff] at hc
  rcases hc with hc | ⟨-, hc⟩
  · exact Or.inl (head?_headerParamsText _ c hc)
  · exact Or.inr (Option.mem_some_iff.mp hc).symm

theorem path_eq_nil_of_isSip (hu : Accepted u) (hsip : u.scheme.isSip = true) : u.path = [] := by
  refine hu.path_eq_nil ?_
  revert hsip
  cases u.scheme <;> decide

theorem needsBrackets_of_params (hsip : u.scheme.isSip = true) (hparams : u.urlParameters ≠ []) :
    u.needsBrackets = true := by simp [needsBrackets, hsip, hparams]

/-- A printed URI, piece by piece, without a zero in it. -/
theorem cString_toString (hu : Accepted u) (hsip : u.scheme.isSip = true)
    (hparams : u.urlParameters ≠ []) (junk : Byte) :
    cString (u.toString junk) = u.displayName ++ byte '<' :: (u.openingText ++ (u.hostText ++
      (urlParamsText u.urlParameters ++ u.behindParams junk))) := by
  have hbrackets := needsBrackets_of_params hsip hparams
  have huri := hu.zero_notMem_uri
  have hfront : ∀ c ∈ u.displayName ++ byte '<' :: (u.openingText ++ (u.hostText ++ u.paramsText)) ++
      [byte '>'], (c != 0) = true := by
    intro c hc
    rw [bne_iff_ne]
    rintro rfl
    have hopen : (0 : Byte) ≠ byte '<' ∧ (0 : Byte) ≠ byte '>' := by decide
    rcases mem_append.mp hc with hc | hc
    · rcases mem_append.mp hc with hc | hc
      · exact hu.displayName_nul hc
      · rcases mem_cons.mp hc with hc | hc
        · exact hopen.1 hc
        · exact huri hc
    · exact hopen.2 (mem_singleton.mp hc)
  have hsplit : u.toString junk =
      u.displayName ++ byte '<' :: (u.openingText ++ (u.hostText ++ u.paramsText)) ++ [byte '>'] ++
        fieldText junk u.fieldParameters := by
    rw [toString_eq hu, closingText, if_pos hbrackets, if_pos hbrackets]
    simp
  rw [hsplit, cString, takeWhile_append_of_pos hfront, behindParams, paramsText, cString]
  simp

theorem parseAngleBrackets_of_mem (url : Url) (hc : c ≠ byte '>')
    (hmem : byte '>' ∈ s) :
    ∃ after, parseAngleBrackets { url := url, rest := byte '<' :: c :: s } =
      { url := url, rest := c :: s, afterAngleBrackets := some after } := by
  obtain ⟨a, b, hs, ha⟩ := eq_append_cons_of_mem hmem
  have hinside : ∀ d ∈ c :: a, (d != byte '>') = true :=
    forall_mem_cons.mpr ⟨bne_iff_ne.mpr hc, fun d hd => bne_iff_ne.mpr fun heq => ha (heq ▸ hd)⟩
  have hmatch := matchAt_angleBrackets (cons_ne_nil c a) hinside b
  rw [cons_append, ← hs] at hmatch
  refine ⟨b, ?_⟩
  unfold parseAngleBrackets
  rw [hmatch]
  show ({ url := url, rest := c :: a ++ byte '>' :: b, afterAngleBrackets := some b } : ParseState) = _
  rw [cons_append, ← hs]

theorem exists_opening (hu : Accepted u) (hsip : u.scheme.isSip = true)
    (hparams : u.urlParameters ≠ []) (junk : Byte) :
    ∃ after, skipSlashes (parseScheme .nameAddr (parseAngleBrackets (parseDisplayName
        { url := {}, rest := cString (u.toString junk) }))) =
      { url := { scheme := u.scheme, displayName := u.displayName }
        rest := u.userText ++ (u.hostText ++ (urlParamsText u.urlParameters ++ u.behindParams junk))
        afterAngleBrackets := some after } := by
  obtain ⟨c, opening, hopening, hc⟩ : ∃ c t, u.openingText = c :: t ∧ c ≠ byte '>' := by
    obtain ⟨c, t, ht⟩ := exists_cons_of_ne_nil (show u.openingText ≠ [] by simp [openingText])
    refine ⟨c, t, ht, ne_of_class (bytes_of_openingText hu c ?_) (by decide)⟩
    rw [ht]
    exact mem_cons_self
  have hmem : byte '>' ∈ opening ++ (u.hostText ++ (urlParamsText u.urlParameters ++
      u.behindParams junk)) := by simp [behindParams]
  obtain ⟨after, hafter⟩ := parseAngleBrackets_of_mem { displayName := u.displayName } hc hmem
  refine ⟨after, ?_⟩
  rw [cString_toString hu hsip hparams, parseDisplayName_append hu.displayName, hopening,
    cons_append, hafter, ← cons_append, ← hopening, parseScheme_openingText]

theorem isHostByte_hostText (hu : Accepted u) (hsip : u.scheme.isSip = true) :
    ∀ c ∈ u.hostText, isHostByte c = true := by
  obtain ⟨value, hport⟩ := isPortText_portText u
  intro c hc
  rw [hostText, path_eq_nil_of_isSip hu hsip, append_nil] at hc
  rcases mem_append.mp hc with hc | hc
  · rcases hu.host with hhost | ⟨hfile, -⟩
    · exact bytes_of_isHost hhost c hc
    · rw [hfile] at hsip
      exact absurd hsip (by decide)
  · exact bytes_of_isPortText hport c hc

theorem accepted_bare (hu : Accepted u) :
    Accepted { u with urlParameters := [], headerOrQueryParameters := [], fieldParameters := [] } :=
  { hu with
    hostAlone := ⟨hu.hostAlone.host, hu.hostAlone.absent⟩
    urlParameters := fun _ hnv => absurd hnv not_mem_nil
    urlParameters_eq_nil := fun _ => rfl
    headerOrQueryParameters := fun _ hnv => absurd hnv not_mem_nil
    fieldNames := fun _ hnv => absurd hnv not_mem_nil
    fieldValues_nul := fun _ hnv => absurd hnv not_mem_nil }

theorem survives_bare (hu : Accepted u) (hsip : u.scheme.isSip = true) :
    Survives { u with urlParameters := [], headerOrQueryParameters := [], fieldParameters := [] } := by
  have hpath := path_eq_nil_of_isSip hu hsip
  refine ⟨by simp, by simp, by simp, fun _ _ => ?_, fun _ hne => absurd hpath hne, fun hfalse => ?_⟩
  · refine matchAt_user_eq_none ?_
    show byte '@' ∉ u.hostText ++ []
    rw [append_nil]
    exact fun hat => ne_of_class (isHostByte_hostText hu hsip _ hat) (by decide) rfl
  · have hno : u.scheme.hasPath = false := by
      revert hsip
      cases u.scheme <;> decide
    rw [show u.scheme.hasPath = true from hfalse] at hno
    exact absurd hno (by simp)

theorem urlParameters_parseUrlParams {st : ParseState} (hsip : st.url.scheme.isSip = true)
    (hafter : st.afterAngleBrackets ≠ none) (hnone : st.url.urlParameters = []) {u : Text}
    (hu : ∀ c ∈ u, isSpace c = true) (hrest : st.rest = u ++ byte ';' :: s) :
    (parseUrlParams .nameAddr st).url.urlParameters =
      parseCgiVariables (byte ';') (s.takeWhile isUrlParamsByte) := by
  obtain ⟨raw, v, hs, hraw, hv⟩ := exists_span isUrlParamsByte s
  have htake : s.takeWhile isUrlParamsByte = raw := by
    rw [hs, takeWhile_append_of_pos hraw, takeWhile_eq_nil_of_head hv, append_nil]
  unfold parseUrlParams
  rw [if_pos ⟨hsip, Or.inr hafter⟩, htake]
  by_cases hne : raw = []
  · have hmatch : matchAt urlParamsRegex st.rest = none := by
      have hsemi : isSpace (byte ';') = false := by decide
      have hrun := run_sws_mark (cat [group 1 (possessive isUrlParamsByte)]) hsemi hsemi hu s 0
      have hbody : ∀ n, run (cat [group 1 (possessive isUrlParamsByte)]) n s = [] := by
        intro n
        refine run_seq_eq_nil ?_
        rw [hs, hne, nil_append, run, run_possessive_eq_nil hv, map_nil]
      rw [if_pos rfl, hbody, map_nil] at hrun
      rw [hrest]
      exact congrArg head? hrun
    rw [hmatch, hnone, hne]
    rfl
  · have hmatch : matchAt urlParamsRegex st.rest =
        some ⟨u ++ byte ';' :: raw, v, [(1, raw)]⟩ := by
      rw [hrest, hs]
      exact matchAt_rawParams_blanks (rfl : text ";" = [byte ';']) (by decide) hu hne hraw hv
    rw [hmatch]
    rfl

theorem urlParameters_parseFieldParams (fuel : Nat) (st : ParseState) :
    (parseFieldParams fuel st).url.urlParameters = st.url.urlParameters := by
  induction fuel generalizing st with
  | zero => rfl
  | succ fuel ih =>
    rw [parseFieldParams]
    by_cases hscheme : st.url.scheme = .unknown
    · rw [if_pos hscheme]
    · rw [if_neg hscheme]
      cases matchAt endUrlRegex st.rest with
      | some m => rfl
      | none =>
        dsimp only
        cases matchAt commaSeparatorRegex st.rest with
        | some m => rfl
        | none =>
          dsimp only
          cases matchAt fieldParamNameRegex st.rest with
          | none => rfl
          | some m => exact ih _

theorem urlParameters_fromString (s : Text) : (fromString s .nameAddr).urlParameters =
    (parseUrlParams .nameAddr (parsePath (parseFront .nameAddr s))).url.urlParameters := by
  have hend : ∀ st : ParseState, (parseEnd .nameAddr false st).url.urlParameters =
      st.url.urlParameters := by
    intro st
    unfold parseEnd
    split
    · rfl
    · split <;> rfl
  have hheaders : ∀ st : ParseState, (parseHeaderParams st).url.urlParameters =
      st.url.urlParameters := by
    intro st
    unfold parseHeaderParams
    split <;> rfl
  have hclose : ∀ st : ParseState, (closeAngleBrackets st).url.urlParameters =
      st.url.urlParameters := by
    intro st
    unfold closeAngleBrackets
    split
    · rfl
    · split <;> rfl
  unfold fromString parseString
  rw [hend]
  unfold parseBack
  dsimp only
  split
  · rfl
  · rw [urlParameters_parseFieldParams, hclose, hheaders]

theorem parsePath_of_not_hasPath {st : ParseState} (h : st.url.scheme.hasPath = false) :
    parsePath st = st := by
  unfold parsePath
  rw [if_neg (by rw [h]; simp)]

theorem hasPath_of_isSip {scheme : Scheme} (h : scheme.isSip = true) : scheme.hasPath = false := by
  revert h
  cases scheme <;> decide

theorem takeWhile_append_of_stop {p : Byte → Bool} (hy : ∀ c ∈ y.head?, p c = false)
    (x : Text) : (x ++ y).takeWhile p = x.takeWhile p := by
  induction x with
  | nil => exact takeWhile_eq_nil_of_head hy
  | cons c x ih =>
    by_cases hc : p c = true
    · rw [cons_append, takeWhile_cons_of_pos hc, takeWhile_cons_of_pos hc, ih]
    · rw [cons_append, takeWhile_cons_of_neg hc, takeWhile_cons_of_neg hc]

theorem split_of_notMem_left {a x : Text} (h : x ++ y = a ++ c :: s) (hc : c ∉ x) :
    ∃ b, a = x ++ b ∧ y = b ++ c :: s := by
  rcases append_eq_append_iff.mp h with ⟨b, ha, hy⟩ | ⟨b, hx, hs⟩
  · exact ⟨b, ha, hy⟩
  · cases b with
    | nil =>
      rw [append_nil] at hx
      exact ⟨[], by rw [hx, append_nil], hs.symm⟩
    | cons d b =>
      rw [cons_append, List.cons.injEq] at hs
      rw [hx, ← hs.1] at hc
      exact absurd (mem_append_right _ mem_cons_self) hc

/-- **The URL parameters that are read**, where the user that is read is the one that is there. -/
theorem urlParameters_reread (hu : Accepted u) (hsip : u.scheme.isSip = true)
    (hparams : urlParamsText u.urlParameters = byte ';' :: s) (junk : Byte)
    (huser : u.userId = [] → matchAt usernameAndPasswordRegex
      (u.hostText ++ (urlParamsText u.urlParameters ++ u.behindParams junk)) = none) :
    (fromString (cString (u.toString junk)) .nameAddr).urlParameters =
      parseCgiVariables (byte ';') (s.takeWhile isUrlParamsByte) := by
  have hne : u.urlParameters ≠ [] := by
    intro hnil
    rw [hnil] at hparams
    exact absurd hparams (by simp [urlParamsText])
  obtain ⟨after, hopening⟩ := exists_opening hu hsip hne junk
  have hend : ∀ c ∈ (u.behindParams junk).head?, isUrlParamsByte c = false := by
    intro c hc
    rcases head?_behindParams u junk c hc with rfl | rfl <;> decide
  have hstop : ∀ c ∈ (urlParamsText u.urlParameters ++ u.behindParams junk).head?,
      isStop c = true := by
    intro c hc
    rw [hparams, cons_append, head?_cons, Option.mem_some_iff] at hc
    rw [← hc]
    decide
  have hhost : parseHostAndPort
      { url := { scheme := u.scheme, displayName := u.displayName
                 userId := u.userId, password := u.password }
        rest := u.hostText ++ (urlParamsText u.urlParameters ++ u.behindParams junk)
        afterAngleBrackets := some after } =
      { url := { scheme := u.scheme, displayName := u.displayName
                 userId := u.userId, password := u.password
                 hostAddress := u.hostAddress, hostPort := u.printedPort }
        rest := u.path ++ (urlParamsText u.urlParameters ++ u.behindParams junk)
        afterAngleBrackets := some after } :=
    parseHostAndPort_printed (accepted_bare hu) (survives_bare hu hsip) hstop (some after)
  have hnone : ∀ c ∈ ([] : Text), isSpace c = true := by simp
  rw [urlParameters_fromString, parseFront_nameAddr, hopening,
    parseUser_front hu (fun hnil _ => huser hnil), hhost, path_eq_nil_of_isSip hu hsip,
    nil_append, parsePath_of_not_hasPath (hasPath_of_isSip hsip), hparams, cons_append,
    urlParameters_parseUrlParams hsip (Option.some_ne_none after) rfl hnone rfl,
    takeWhile_append_of_stop hend]

/-- Where the first of two marks stands, in front of what follows a list of parameters. -/
theorem split_misread {host params headers fields x : Text}
    (h : host ++ (params ++ (headers ++ byte '>' :: fields)) = x ++ byte '@' :: (y ++ byte ';' :: s))
    (hhost : ∀ c ∈ host, isHostByte c = true) (hheaders : byte '@' ∉ headers)
    (hmark : ∀ c ∈ headers.head?, c = byte '?') (hx : byte '>' ∉ x)
    (hy : byte '?' ∉ y ∧ byte '>' ∉ y) :
    ∃ a t, params = a ++ byte ';' :: t ∧ byte '@' ∈ a ∧ s = t ++ (headers ++ byte '>' :: fields) := by
  have hends : ∀ c ∈ (headers ++ byte '>' :: fields).head?, c = byte '?' ∨ c = byte '>' := by
    intro c hc
    cases headers with
    | nil => exact Or.inr (Option.mem_some_iff.mp hc).symm
    | cons d headers => exact Or.inl (hmark c hc)
  have hassoc : (x ++ byte '@' :: y) ++ byte ';' :: s =
      (host ++ params) ++ (headers ++ byte '>' :: fields) := by
    rw [append_assoc, append_assoc, h, cons_append]
  rcases append_eq_append_iff.mp hassoc with ⟨w, hw, hs⟩ | ⟨w, hw, hs⟩
  · cases w with
    | nil =>
      rw [nil_append] at hs
      rcases hends (byte ';') (by rw [← hs]; rfl) with hc | hc <;> exact absurd hc (by decide)
    | cons c t =>
      obtain rfl := head_eq_of_cons_eq hs
      have hsemi : byte ';' ∉ host := fun hc => ne_of_class (hhost _ hc) (by decide) rfl
      have hat : byte '@' ∉ host := fun hc => ne_of_class (hhost _ hc) (by decide) rfl
      obtain ⟨a, ha, hparams⟩ := split_of_notMem_left hw hsemi
      refine ⟨a, t, hparams, ?_, tail_eq_of_cons_eq hs⟩
      have hmem : byte '@' ∈ host ++ a := by
        rw [← ha]
        exact mem_append_right _ mem_cons_self
      exact (mem_append.mp hmem).resolve_left hat
  · -- behind the parameters the at sign would stand in the name of a header parameter
    have hnone : byte '>' ∉ w := by
      intro hc
      have hmem : byte '>' ∈ x ++ byte '@' :: y := by
        rw [hw]
        exact mem_append_right _ hc
      rcases mem_append.mp hmem with hc | hc
      · exact hx hc
      · rcases mem_cons.mp hc with hc | hc
        · exact absurd hc (by decide)
        · exact hy.2 hc
    obtain ⟨b, hb, -⟩ := split_of_notMem_left hs.symm hnone
    have hat : byte '@' ∉ w := fun hc => hheaders (by rw [hb]; exact mem_append_left _ hc)
    obtain ⟨b', -, hy'⟩ := split_of_notMem hw.symm hat
    cases w with
    | nil =>
      rw [nil_append] at hs
      rcases hends (byte ';') (by rw [hs]; rfl) with hc | hc <;> exact absurd hc (by decide)
    | cons c w =>
      have hmem : c ∈ y := by
        rw [hy']
        exact mem_append_right _ mem_cons_self
      rcases hends c (by rw [hs]; rfl) with rfl | rfl
      · exact absurd hmem hy.1
      · exact absurd hmem hy.2

theorem exists_front_of_matchAt_user (hm : matchAt usernameAndPasswordRegex s = some m) :
    ∃ x, m.text = x ++ [byte '@'] ∧ byte '>' ∉ x := by
  obtain ⟨user, middle, htext, -, huser, hmiddle⟩ := exists_of_matchAt_user hm
  have hescaped {p : Byte → Bool} (hp : p (byte '>') = false) {t : Text}
      (ht : isEscapedText p t = true) : byte '>' ∉ t := by
    intro hc
    rcases bytes_of_isEscapedText ht _ hc with hc | hc | hc
    · rw [hp] at hc
      exact absurd hc (by simp)
    · exact absurd hc (by decide)
    · exact absurd hc (by decide)
  refine ⟨user ++ middle, by rw [htext, append_assoc], fun hc => ?_⟩
  rcases mem_append.mp hc with hc | hc
  · exact hescaped (by decide) huser hc
  · rcases hmiddle with rfl | ⟨password, rfl, hpassword⟩
    · exact absurd hc not_mem_nil
    · rcases mem_cons.mp hc with hc | hc
      · exact absurd hc (by decide)
      · exact hescaped (by decide) hpassword hc

theorem notMem_hostAndPort (hm : matchAt hostAndPortRegex s = some m) (hc : isHostByte c = false) :
    c ∉ m.text := by
  obtain ⟨host, hhost, heq | ⟨digits, hdigits, -, heq⟩⟩ :=
    hostAndPort_of_mem_run (mem_run_of_matchAt hm)
  · rw [heq]
    exact fun hmem => ne_of_class (bytes_of_isHost hhost c hmem) hc rfl
  · have hbyte : isHostByte (byte ':') = true ∧ ∀ d, isDigit d = true → isHostByte d = true := by
      decide +kernel
    rw [heq]
    intro hmem
    rcases mem_append.mp hmem with hmem | hmem
    · exact ne_of_class (bytes_of_isHost hhost c hmem) hc rfl
    · rcases mem_cons.mp hmem with rfl | hmem
      · rw [hbyte.1] at hc
        exact absurd hc (by simp)
      · rw [hbyte.2 c (hdigits c hmem)] at hc
        exact absurd hc (by simp)

theorem at_notMem_headerParamsText {params : List (Text × Text)}
    (hat : ∀ nv ∈ params, byte '@' ∉ nv.1) : byte '@' ∉ headerParamsText params := by
  have hparam : ∀ nv ∈ params, byte '@' ∉ paramText escape nv := by
    intro nv hnv hc
    rcases mem_append.mp hc with hc | hc
    · exact hat nv hnv hc
    · exact notMem_valueText (by decide) (by decide) nv.2 hc
  cases params with
  | nil => exact not_mem_nil
  | cons nv rest =>
    intro hc
    rcases mem_append.mp hc with hc | hc
    · rcases mem_cons.mp hc with hc | hc
      · exact absurd hc (by decide)
      · exact hparam nv mem_cons_self hc
    · obtain ⟨nv', hnv', hc⟩ := mem_flatMap.mp hc
      rcases mem_cons.mp hc with hc | hc
      · exact absurd hc (by decide)
      · exact hparam nv' (mem_cons_of_mem _ hnv') hc

/-- **A user that is not there** takes parameters away: what is read stands behind its at sign. -/
theorem exists_of_misread (hu : Accepted u) (hsip : u.scheme.isSip = true)
    (hparams : u.urlParameters ≠ []) (junk : Byte) (hnil : u.userId = [])
    (hat : ∀ nv ∈ u.headerOrQueryParameters, byte '@' ∉ nv.1)
    (hm : matchAt usernameAndPasswordRegex
      (u.hostText ++ (urlParamsText u.urlParameters ++ u.behindParams junk)) = some m) :
    (fromString (cString (u.toString junk)) .nameAddr).urlParameters = [] ∨
      ∃ a t, urlParamsText u.urlParameters = a ++ byte ';' :: t ∧ byte '@' ∈ a ∧
        (fromString (cString (u.toString junk)) .nameAddr).urlParameters =
          parseCgiVariables (byte ';') (t.takeWhile isUrlParamsByte) := by
  obtain ⟨after, hopening⟩ := exists_opening hu hsip hparams junk
  have hfile : u.scheme ≠ .file := by
    intro hfile
    rw [hfile] at hsip
    exact absurd hsip (by decide)
  have huser : parseUser
      { url := { scheme := u.scheme, displayName := u.displayName }
        rest := u.userText ++ (u.hostText ++ (urlParamsText u.urlParameters ++ u.behindParams junk))
        afterAngleBrackets := some after } =
      { url := { scheme := u.scheme, displayName := u.displayName
                 userId := (m.group 1).getD [], password := (m.group 2).getD [] }
        rest := m.rest
        afterAngleBrackets := some after } := by
    unfold parseUser
    dsimp only
    rw [if_neg hfile, userText, if_pos (Or.inr hnil), nil_append, hm]
  rw [urlParameters_fromString, parseFront_nameAddr, hopening, huser]
  unfold parseHostAndPort
  dsimp only
  cases hhost : matchAt hostAndPortRegex m.rest with
  | none =>
    left
    dsimp only
    rw [if_neg hfile, parsePath_of_not_hasPath rfl, parseUrlParams, if_neg]
    have hno : ¬ Scheme.unknown.isSip = true := by decide
    exact fun h => hno h.1
  | some m₂ =>
    dsimp only
    rw [if_neg (by simp), parsePath_of_not_hasPath (hasPath_of_isSip hsip)]
    cases hread : matchAt urlParamsRegex m₂.rest with
    | none =>
      left
      rw [parseUrlParams, if_pos ⟨hsip, Or.inr (Option.some_ne_none after)⟩]
      dsimp only
      rw [hread]
    | some m₃ =>
      right
      obtain ⟨blanks, raw, v, hrest, hblanks, -⟩ :=
        exists_of_matchAt_rawParams (byte ';') (rfl : text ";" = _) hread
      obtain ⟨x, htext, hx⟩ := exists_front_of_matchAt_user hm
      have hsplit : u.hostText ++ (urlParamsText u.urlParameters ++ u.behindParams junk) =
          x ++ byte '@' :: ((m₂.text ++ blanks) ++ byte ';' :: (raw ++ v)) := by
        rw [append_of_mem_run (mem_run_of_matchAt hm), htext,
          append_of_mem_run (mem_run_of_matchAt hhost), hrest]
        simp
      have hplain : byte '?' ∉ m₂.text ++ blanks ∧ byte '>' ∉ m₂.text ++ blanks := by
        have hno {c : Byte} (hc : isHostByte c = false) (hspace : isSpace c = false) :
            c ∉ m₂.text ++ blanks := by
          intro hmem
          rcases mem_append.mp hmem with hmem | hmem
          · exact notMem_hostAndPort hhost hc hmem
          · exact ne_of_class (hblanks c hmem) hspace rfl
        exact ⟨hno (by decide) (by decide), hno (by decide) (by decide)⟩
      obtain ⟨a, t, htparams, hmem, ht⟩ := split_misread hsplit (isHostByte_hostText hu hsip)
        (at_notMem_headerParamsText hat) (head?_headerParamsText _) hx hplain
      refine ⟨a, t, htparams, hmem, ?_⟩
      have hend : ∀ c ∈ (u.behindParams junk).head?, isUrlParamsByte c = false := by
        intro c hc
        rcases head?_behindParams u junk c hc with rfl | rfl <;> decide
      rw [urlParameters_parseUrlParams hsip (Option.some_ne_none after) rfl hblanks hrest, ht]
      exact congrArg _ (takeWhile_append_of_stop hend t)

end Read

/-! ## The round trip -/

section RoundTrip

variable {u : Url} {name value : Text}

/-- A URI printed and read again. -/
def reread (u : Url) (junk : Byte) : Url := fromString (cString (u.toString junk)) .nameAddr

/-- What is expected of a parameter that was set: it is read again, and the other parameters are
those that there were, in their order. -/
structure ParamSet (u : Url) (name value : Text) (junk : Byte) : Prop where
  found : ((u.setUrlParameter name value).reread junk).getUrlParameter name = some value
  others : ((u.setUrlParameter name value).reread junk).urlParameters.filter (isOther name) =
    u.urlParameters.filter (isOther name)

/-- The URIs whose parameters can be read again: no name of a URL parameter has a mark, and where
there is no user, none is found in host and parameters as they are printed. -/
structure KeepsParams (u : Url) : Prop where
  names : ∀ nv ∈ u.urlParameters, IsKeptName ";=%+?>," nv.1
  user : u.userId = [] → matchAt usernameAndPasswordRegex (u.hostText ++ u.paramsText) = none

theorem hostText_setUrlParameter (u : Url) (name value : Text) :
    (u.setUrlParameter name value).hostText = u.hostText := rfl

theorem matchAt_user_setUrlParameter (hu : Accepted u) (hsip : u.scheme.isSip = true)
    (hname : IsParamName name) (value : Text) :
    matchAt usernameAndPasswordRegex ((u.setUrlParameter name value).hostText ++
        (u.setUrlParameter name value).paramsText) = none ↔
      matchAt usernameAndPasswordRegex (u.hostText ++ u.paramsText) = none := by
  have hbytes := isHostByte_hostText hu hsip
  obtain ⟨c, host, hhost⟩ : ∃ c t, u.hostText = c :: t := by
    refine exists_cons_of_ne_nil fun hnil => ?_
    have hne : u.hostAddress ≠ [] := by
      rcases hu.host with hhost | ⟨hfile, -⟩
      · intro hempty
        rw [hempty] at hhost
        cases hhost with
        | domain hd => exact absurd rfl (isToken_of_isDomain hd).1
      · rw [hfile] at hsip
        exact absurd hsip (by decide)
    exact hne (append_eq_nil_iff.mp hnil).1
  have hpercent : c ≠ byte '%' := ne_of_class (hbytes c (by rw [hhost]; simp)) (by decide)
  have hends : ∀ c ∈ (headerParamsText u.headerOrQueryParameters).head?, isParamsEnd c = true := by
    intro c hc
    rw [head?_headerParamsText _ c hc]
    decide
  have hset := behindEscaped_setFirst hname value u.urlParameters hends
  have hcongr := behindEscaped_user_congr (head?_urlParamsText hends _)
    (head?_urlParamsText hends _) hset (c :: host)
  rw [hostText_setUrlParameter, hhost, ← Option.not_isSome_iff_eq_none,
    ← Option.not_isSome_iff_eq_none, cons_append, cons_append,
    isSome_matchAt_user hpercent, isSome_matchAt_user hpercent]
  rw [cons_append, cons_append] at hcongr
  exact not_congr (by rw [paramsText, paramsText]; exact iff_of_eq (by rw [← hcongr]; rfl))

theorem matchAt_user_behindParams (u : Url) (junk : Byte) : matchAt usernameAndPasswordRegex
      (u.hostText ++ (urlParamsText u.urlParameters ++ u.behindParams junk)) = none ↔
    matchAt usernameAndPasswordRegex (u.hostText ++ u.paramsText) = none := by
  have hstop : ∀ c ∈ (byte '>' :: cString (fieldText junk u.fieldParameters)).head?,
      (c == byte '>') = true := by simp
  have happend : matchAt usernameAndPasswordRegex ((u.hostText ++ u.paramsText) ++
      (byte '>' :: cString (fieldText junk u.fieldParameters))) = none ↔
        matchAt usernameAndPasswordRegex (u.hostText ++ u.paramsText) = none :=
    matchAt_append_eq_none stopsAt_user hstop
  rw [paramsText, append_assoc, append_assoc] at happend
  rw [paramsText]
  exact happend

theorem names_setUrlParameter (hname : IsParamName name) (value : Text)
    (hkept : ∀ nv ∈ u.urlParameters, IsKeptName ";=%+?>," nv.1) :
    ∀ nv ∈ (u.setUrlParameter name value).urlParameters, IsKeptName ";=%+?>," nv.1 := by
  intro nv hnv
  rcases mem_setFirst hnv with hnv | ⟨-, hcase, -⟩
  · exact hkept nv hnv
  · exact (hname.of_caseEq hcase).isKeptName (by decide)

theorem parseCgiVariables_of_isKeptName {params : List (Text × Text)}
    (hread : ∀ nv ∈ params, IsReadParam nv) (hkept : ∀ nv ∈ params, IsKeptName ";=%+?>," nv.1)
    (h : urlParamsText params = byte ';' :: s) :
    parseCgiVariables (byte ';') (s.takeWhile isUrlParamsByte) = params := by
  have hmarks : ∀ c, oneOf ";=%+?>," c = false → isUrlParamsByte c = true ∧
      oneOf ";=%+" c = false := by decide +kernel
  have hall : ∀ c ∈ urlParamsText params, isUrlParamsByte c = true := by
    intro c hc
    obtain ⟨nv, hnv, hc⟩ := mem_flatMap.mp hc
    rcases mem_cons.mp hc with rfl | hc
    · decide
    · rcases mem_append.mp hc with hc | hc
      · exact (hmarks c ((hkept nv hnv).2 c hc)).1
      · exact isUrlParamsByte_valueText nv.2 c hc
  have hone : ∀ nv ∈ params, readBack nv = [nv] := fun nv hnv =>
    readBack_of_isKeptName (hread nv hnv)
      ⟨(hkept nv hnv).1, fun c hc => (hmarks c ((hkept nv hnv).2 c hc)).2⟩
  rw [parseCgiVariables_takeWhile h, takeWhile_eq_self_iff.mpr hall,
    parseCgiVariables_urlParamsText, flatMap_congr hone]
  exact flatMap_singleton' params

theorem filter_setUrlParameter (u : Url) (name value : Text) :
    (u.setUrlParameter name value).urlParameters.filter (isOther name) =
      u.urlParameters.filter (isOther name) :=
  filter_setFirst (fun nv hcase => by rw [isOther, hcase]; rfl) value u.urlParameters

/-- Names that are kept are enough. -/
theorem paramSet_of_keepsParams (hu : Accepted u) (hsip : u.scheme.isSip = true)
    (hname : IsParamName name) (hvalue : (0 : Byte) ∉ value) (junk : Byte)
    (hkept : KeepsParams u) : ParamSet u name value junk := by
  have hset := accepted_setUrlParameter hu hsip hname hvalue
  obtain ⟨nv, rest, hparams⟩ := exists_cons_of_ne_nil (setUrlParameter_ne_nil u name value)
  obtain ⟨t, htext⟩ : ∃ t, urlParamsText (u.setUrlParameter name value).urlParameters =
      byte ';' :: t := by
    rw [hparams]
    exact ⟨_, urlParamsText_cons nv rest⟩
  have huser : (u.setUrlParameter name value).userId = [] → matchAt usernameAndPasswordRegex
      ((u.setUrlParameter name value).hostText ++
        (urlParamsText (u.setUrlParameter name value).urlParameters ++
          (u.setUrlParameter name value).behindParams junk)) = none := by
    intro hnil
    rw [matchAt_user_behindParams, matchAt_user_setUrlParameter hu hsip hname]
    exact hkept.user hnil
  have hread := urlParameters_reread hset hsip htext junk huser
  rw [parseCgiVariables_of_isKeptName hset.urlParameters
    (names_setUrlParameter hname value hkept.names) htext] at hread
  constructor
  · rw [getUrlParameter, reread, hread]
    exact (getUrlParameter_setUrlParameter u name value name).trans (if_pos (caseEq_refl name))
  · rw [reread, hread]
    exact filter_setUrlParameter u name value

/-- Names that are kept are needed. -/
theorem keepsParams_of_paramSet (hu : Accepted u) (hsip : u.scheme.isSip = true)
    (hname : IsParamName name) (hvalue : (0 : Byte) ∉ value) {junk : Byte}
    (hat : u.userId = [] → ∀ nv ∈ u.headerOrQueryParameters, byte '@' ∉ nv.1)
    (h : ParamSet u name value junk) : KeepsParams u := by
  have hset := accepted_setUrlParameter hu hsip hname hvalue
  have hne := setUrlParameter_ne_nil u name value
  have hothers := h.others
  rw [← filter_setUrlParameter u name value] at hothers
  have hvalues : ∀ nv ∈ (u.setUrlParameter name value).urlParameters, (0 : Byte) ∉ nv.2 :=
    fun nv hnv => (hset.urlParameters nv hnv).value
  -- where a user is found, less is read than was printed
  have huser : u.userId = [] →
      matchAt usernameAndPasswordRegex (u.hostText ++ u.paramsText) = none := by
    intro hnil
    by_contra hsome
    rw [← matchAt_user_setUrlParameter hu hsip hname value,
      ← matchAt_user_behindParams (u.setUrlParameter name value) junk] at hsome
    obtain ⟨m, hm⟩ := Option.ne_none_iff_exists'.mp hsome
    rcases exists_of_misread hset hsip hne junk hnil (hat hnil) hm with hread | ⟨a, t, htext, hmem,
      hread⟩
    · have hfound := h.found
      rw [getUrlParameter, reread, hread] at hfound
      exact absurd hfound (by simp)
    · obtain ⟨params, hparams, hvalues', hless⟩ := exists_behind hname hvalues htext
      rw [if_pos hmem] at hless
      have hle := otherWeight_reread_le hname hvalues' hparams
      rw [← hread] at hle
      have htotal := congrArg paramsWeight hothers
      change otherWeight name _ = otherWeight name _ at htotal
      rw [reread] at htotal
      omega
  refine ⟨fun nv hnv => ?_, huser⟩
  obtain ⟨first, rest, hparams⟩ := exists_cons_of_ne_nil hne
  obtain ⟨t, htext⟩ : ∃ t, urlParamsText (u.setUrlParameter name value).urlParameters =
      byte ';' :: t := by
    rw [hparams]
    exact ⟨_, urlParamsText_cons first rest⟩
  have hread := urlParameters_reread hset hsip htext junk fun hnil => by
    rw [matchAt_user_behindParams, matchAt_user_setUrlParameter hu hsip hname]
    exact huser hnil
  rw [reread, hread] at hothers
  have hkept := isKeptName_of_reread hname hvalues htext hothers
  by_cases hother : isOther name nv = true
  · refine hkept nv ?_
    have hmem : nv ∈ (u.setUrlParameter name value).urlParameters.filter (isOther name) := by
      rw [filter_setUrlParameter]
      exact mem_filter.mpr ⟨hnv, hother⟩
    exact (mem_filter.mp hmem).1
  · have hcase : caseEq nv.1 name = true := by simpa [isOther] using hother
    exact (hname.of_caseEq hcase).isKeptName (by decide)

/-- **A URL parameter is read again as it was set**, with the others as they were, if the URI
keeps its parameters, and only then: without a user, the header parameters must not show one. -/
theorem paramSet_iff {s : Text} {form : UriForm}
    (hsip : (fromString (cString s) form).scheme.isSip = true) (hname : IsParamName name)
    (hvalue : (0 : Byte) ∉ value) (junk : Byte) :
    (KeepsParams (fromString (cString s) form) →
        ParamSet (fromString (cString s) form) name value junk) ∧
      (((fromString (cString s) form).userId = [] →
          ∀ nv ∈ (fromString (cString s) form).headerOrQueryParameters, byte '@' ∉ nv.1) →
        ParamSet (fromString (cString s) form) name value junk →
          KeepsParams (fromString (cString s) form)) := by
  have hs : (0 : Byte) ∉ cString s := by
    intro hc
    have h := mem_takeWhile_imp hc
    simp at h
  have hknown : (fromString (cString s) form).scheme ≠ .unknown := by
    intro hunknown
    rw [hunknown] at hsip
    exact absurd hsip (by decide)
  have hu := accepted_fromString hs hknown
  exact ⟨paramSet_of_keepsParams hu hsip hname hvalue junk,
    keepsParams_of_paramSet hu hsip hname hvalue⟩

end RoundTrip

/-- A URI with a parameter and a header parameter. -/
def looseRouter : Text := text "<sip:user@example.com;lr?subject=x>"

theorem paramSet_iff_looseRouter :
    ParamSet (fromString (cString looseRouter) .nameAddr) (text "tag") (text "a;b, c%") 0 := by
  refine (paramSet_iff (by decide +kernel) (by decide) (by decide) 0).1 ⟨by decide +kernel, ?_⟩
  exact fun hnil => absurd hnil (by decide +kernel)

/-- A name with a comma is printed as it is, and ends the parameters. -/
theorem not_paramSet_comma :
    ¬ ParamSet (fromString (cString (text "<sip:a@b;a%2Cb>")) .nameAddr) (text "x") (text "y") 0 := by
  intro h
  have hread : (((fromString (cString (text "<sip:a@b;a%2Cb>")) .nameAddr).setUrlParameter (text "x")
      (text "y")).reread 0).getUrlParameter (text "x") = none := by decide +kernel
  exact absurd h.found (by rw [hread]; simp)

end Url

end SipXRouter
