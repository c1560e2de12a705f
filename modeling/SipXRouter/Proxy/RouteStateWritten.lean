import SipXRouter.Net.NetBase64Buffers
import SipXRouter.Net.UrlParamSet
import SipXRouter.Proxy.RouteStateRoundTrip

/-!
# Tokens in route values

`update` puts the token into a route value that it parses and prints again.  This module
says which route values carry the token afterwards, as one value of their header.
-/

namespace SipXRouter

open List

namespace Url

open Pattern HttpMessage

variable {u : Url} {name value : Text}

/-! ## What is printed with a parameter that was set -/

/-- A parameter that is set adds bytes of its name and of its escaped value only. -/
theorem mem_urlParamsText_setUrlParameter (hname : IsParamName name) {c : Byte}
    (hc : c ∈ urlParamsText (u.setUrlParameter name value).urlParameters) :
    c ∈ urlParamsText u.urlParameters ∨ (isEscapeByte c || oneOf ";=" c) = true := by
  have hpair {nv : Text × Text} (hnv : IsParamName nv.1)
      (hc : c ∈ byte ';' :: paramText escape nv) : (isEscapeByte c || oneOf ";=" c) = true := by
    rw [paramText_eq, valueText] at hc
    rcases mem_cons.mp hc with rfl | hc
    · decide
    · rcases mem_append.mp hc with hc | hc
      · simp [isEscapeByte, hnv.2 c hc]
      · split at hc
        · exact absurd hc not_mem_nil
        · rcases mem_cons.mp hc with rfl | hc
          · decide
          · rw [isEscapeByte_escape _ c hc, Bool.true_or]
  obtain ⟨nv, hnv, hc⟩ := mem_flatMap.mp hc
  rcases mem_setFirst hnv with hold | ⟨-, hcase, -⟩
  · exact Or.inl (mem_flatMap.mpr ⟨nv, hold, hc⟩)
  · exact Or.inr (hpair (hname.of_caseEq hcase) hc)

theorem length_escape_le (s : Text) : (escape s).length ≤ 3 * s.length := by
  have hbyte : ∀ c : Byte, (escapeByte c).length ≤ 3 := by decide +kernel
  have hall : ∀ t : Text, (t.flatMap escapeByte).length ≤ 3 * t.length := by
    intro t
    induction t with
    | nil => exact Nat.le_refl 0
    | cons c cs ih =>
      have hc := hbyte c
      rw [flatMap_cons, length_append, length_cons]
      omega
  have hcut : (cString s).length ≤ s.length := (List.takeWhile_prefix _).length_le
  exact (hall _).trans (Nat.mul_le_mul_left 3 hcut)

theorem length_valueText_le (value : Text) : (valueText value).length ≤ 3 * value.length + 1 := by
  unfold valueText
  split
  · exact Nat.zero_le _
  · have h := length_escape_le value
    rw [length_cons]
    omega

theorem length_urlParamsText_setUrlParameter_le (u : Url) (name value : Text) :
    (urlParamsText (u.setUrlParameter name value).urlParameters).length ≤
      (urlParamsText u.urlParameters).length + name.length + 3 * value.length + 2 := by
  show (urlParamsText ((setFirst name value u.urlParameters).getD _)).length ≤ _
  have hvalue := length_valueText_le value
  induction u.urlParameters with
  | nil =>
    rw [setFirst, Option.getD_none, nil_append, urlParamsText_cons]
    simp only [urlParamsText, flatMap_nil, length_cons, length_append,
      length_nil]
    omega
  | cons nv params ih =>
    rw [getD_setFirst_cons]
    split
    · rw [urlParamsText_cons, urlParamsText_cons]
      simp only [length_cons, length_append]
      omega
    · rw [urlParamsText_cons, urlParamsText_cons]
      simp only [length_cons, length_append]
      omega

section Printed

variable (hu : Accepted u) (hsip : u.scheme.isSip = true) (hname : IsParamName name)
  (hvalue : (0 : Byte) ∉ value) (junk : Byte)

include hu hsip hname hvalue

/-- A SIP URI with a parameter is printed in brackets. -/
theorem toString_setUrlParameter : (u.setUrlParameter name value).toString junk =
    u.displayName ++ byte '<' :: (u.openingText ++ (u.hostText ++
      ((urlParamsText (u.setUrlParameter name value).urlParameters ++
        headerParamsText u.headerOrQueryParameters) ++
          byte '>' :: fieldText junk u.fieldParameters))) := by
  have hbrackets : (u.setUrlParameter name value).needsBrackets = true := by
    have hne := setUrlParameter_ne_nil u name value
    have hscheme : (u.setUrlParameter name value).scheme.isSip = true := hsip
    simp [needsBrackets, hscheme, hne]
  rw [toString_eq (accepted_setUrlParameter hu hsip hname hvalue), hbrackets, if_pos rfl,
    closingText, hbrackets, if_pos rfl]
  rfl

/-- Setting a parameter brings in only bytes that a URI escapes or marks with. -/
theorem mem_toString_setUrlParameter {c : Byte}
    (hc : c ∈ (u.setUrlParameter name value).toString junk) :
    c ∈ u.toString junk ∨ (isEscapeByte c || oneOf "<>;=" c) = true := by
  rw [toString_setUrlParameter hu hsip hname hvalue] at hc
  have hclosing {c : Byte} (hc : c ∈ fieldText junk u.fieldParameters) :
      c ∈ u.closingText junk := by
    unfold closingText
    split
    · exact mem_cons_of_mem _ hc
    · next hnone =>
        rw [fieldParameters_eq_nil (by simpa using hnone)] at hc
        exact hc
  rw [toString_eq hu, paramsText]
  simp only [mem_append, mem_cons] at hc ⊢
  rcases hc with hc | rfl | hc | hc | (hc | hc) | rfl | hc
  · exact Or.inl (Or.inl hc)
  · exact Or.inr (by decide)
  · exact Or.inl (Or.inr (Or.inr (Or.inl hc)))
  · exact Or.inl (Or.inr (Or.inr (Or.inr (Or.inl hc))))
  · rcases mem_urlParamsText_setUrlParameter hname hc with hc | hc
    · exact Or.inl (Or.inr (Or.inr (Or.inr (Or.inr (Or.inl (Or.inl hc))))))
    · refine Or.inr ?_
      have hmarks : ∀ c : Byte, (isEscapeByte c || oneOf ";=" c) = true →
          (isEscapeByte c || oneOf "<>;=" c) = true := by decide +kernel
      exact hmarks c hc
  · exact Or.inl (Or.inr (Or.inr (Or.inr (Or.inr (Or.inl (Or.inr hc))))))
  · exact Or.inr (by decide)
  · exact Or.inl (Or.inr (Or.inr (Or.inr (Or.inr (Or.inr (hclosing hc))))))

theorem length_toString_setUrlParameter_le : ((u.setUrlParameter name value).toString junk).length ≤
    (u.toString junk).length + name.length + 3 * value.length + 4 := by
  have hparams := length_urlParamsText_setUrlParameter_le u name value
  have hclosing : (fieldText junk u.fieldParameters).length ≤ (u.closingText junk).length := by
    unfold closingText
    split
    · exact Nat.le_succ _
    · next hnone =>
        rw [fieldParameters_eq_nil (by simpa using hnone)]
        exact Nat.le_refl _
  rw [toString_setUrlParameter hu hsip hname hvalue, toString_eq hu, paramsText]
  simp only [length_append, length_cons]
  omega

end Printed

/-! ## The ends of the text -/

theorem isBlank_of_isTokenByte :
    ∀ c, isTokenByte c = true → NameValueTokenizer.isBlank c = false := by
  decide +kernel

theorem head?_of_isDisplayName {name : Text} (h : IsDisplayName name) :
    ∀ c ∈ name.head?, NameValueTokenizer.isBlank c = false := by
  have hfirst {w : Text} (hw : IsToken w) (rest : Text) :
      ∀ c ∈ (w ++ rest).head?, NameValueTokenizer.isBlank c = false := by
    intro c hc
    obtain ⟨d, ds, rfl⟩ := exists_cons_of_ne_nil hw.1
    obtain rfl : d = c := by simpa using hc
    exact isBlank_of_isTokenByte d (hw.2 d mem_cons_self)
  cases h with
  | absent => exact fun c hc => by simp at hc
  | words hw =>
    cases hw with
    | token hw => simpa using hfirst hw []
    | cons hw hne hblanks hrest => exact hfirst hw _
  | quoted hbody =>
    intro c hc
    obtain rfl : byte '"' = c := by simpa using hc
    decide

theorem getLast?_genValueEscape (junk : Byte) {value : Text} (hne : value ≠ []) :
    ∀ c ∈ (genValueEscape junk value).getLast?, NameValueTokenizer.isBlank c = false := by
  intro c hc
  unfold genValueEscape at hc
  split at hc
  · next hok =>
      obtain ⟨body, tail, rfl, hbody, rfl | rfl⟩ := exists_of_okUnquoted hok
      · rw [append_nil] at hc
        have hmem := mem_of_getLast? hc
        rcases hbody with htoken | hhost
        · exact isBlank_of_isTokenByte c (htoken.2 c hmem)
        · have hbytes : ∀ c, isHostByte c = true → NameValueTokenizer.isBlank c = false := by
            decide +kernel
          exact hbytes c (bytes_of_isHost hhost c hmem)
      · rw [getLast?_concat] at hc
        obtain rfl := Option.some.inj hc
        decide
  · rw [getLast?_concat] at hc
    obtain rfl := Option.some.inj hc
    decide

theorem getLast?_closing (junk : Byte) {params : List (Text × Text)}
    (hnames : ∀ nv ∈ params, IsToken nv.1) :
    ∀ c ∈ (byte '>' :: fieldText junk params).getLast?, NameValueTokenizer.isBlank c = false := by
  obtain rfl | ⟨init, nv, rfl⟩ := eq_nil_or_concat params
  · intro c hc
    obtain rfl : byte '>' = c := by simpa [fieldText] using hc
    decide
  · have hname := hnames nv (by simp)
    have htext : byte '>' :: fieldText junk (init.concat nv) =
        (byte '>' :: fieldText junk init ++ [byte ';']) ++
          (nv.1 ++ if nv.2 = [] then [] else byte '=' :: genValueEscape junk nv.2) := by
      simp [fieldText, paramText]
    intro c hc
    rw [htext, getLast?_append_of_ne_nil _ (append_ne_nil_of_left_ne_nil hname.1 _)] at hc
    split at hc
    · rw [append_nil] at hc
      exact isBlank_of_isTokenByte c (hname.2 c (mem_of_getLast? hc))
    · next hne =>
        have hvalue : genValueEscape junk nv.2 ≠ [] := by
          unfold genValueEscape
          split
          · exact hne
          · exact cons_ne_nil _ _
        rw [getLast?_append_of_ne_nil _ (cons_ne_nil _ _), getLast?_cons] at hc
        refine getLast?_genValueEscape junk hne c ?_
        obtain ⟨last, hlast⟩ := Option.isSome_iff_exists.mp (getLast?_isSome.mpr hvalue)
        rw [hlast] at hc ⊢
        exact hc

section Read

variable (hu : Accepted u) (hsip : u.scheme.isSip = true) (hname : IsParamName name)
  (hvalue : (0 : Byte) ∉ value) (junk : Byte)

include hu hsip hname hvalue

/-- A printed route has no blanks around it. -/
theorem trim_toString_setUrlParameter :
    trim NameValueTokenizer.isBlank ((u.setUrlParameter name value).toString junk) =
      (u.setUrlParameter name value).toString junk := by
  rw [toString_setUrlParameter hu hsip hname hvalue]
  refine trim_eq_self (fun c hc => ?_) fun c hc => ?_
  · cases hdisplay : u.displayName with
    | nil =>
      rw [hdisplay, nil_append, head?_cons, Option.mem_some_iff] at hc
      rw [← hc]
      decide
    | cons d ds =>
      refine head?_of_isDisplayName hu.displayName c ?_
      rw [hdisplay] at hc ⊢
      exact hc
  · refine getLast?_closing junk hu.fieldNames c ?_
    rw [getLast?_append_of_ne_nil _ (cons_ne_nil _ _), getLast?_cons,
      getLast?_append_of_ne_nil _ (by simp), getLast?_append_of_ne_nil _ (by simp),
      getLast?_append_of_ne_nil _ (cons_ne_nil _ _)] at hc
    obtain ⟨last, hlast⟩ := Option.isSome_iff_exists.mp
      (getLast?_isSome.mpr (cons_ne_nil (byte '>') (fieldText junk u.fieldParameters)))
    rw [hlast] at hc ⊢
    exact hc

/-- The name is printed, if it is not there in another spelling. -/
theorem infix_toString_setUrlParameter
    (hspelled : ∀ nv ∈ u.urlParameters, caseEq nv.1 name = true → nv.1 = name) :
    name <:+: (u.setUrlParameter name value).toString junk := by
  have hget := getUrlParameter_setUrlParameter u name value name
  rw [caseEq_refl, if_pos rfl, getUrlParameter] at hget
  obtain ⟨nv, hfind, -⟩ := Option.map_eq_some_iff.mp hget
  have hmem := mem_of_find?_eq_some hfind
  have hcase : caseEq nv.1 name = true := by simpa using find?_some hfind
  have heq : nv.1 = name := by
    rcases mem_setFirst hmem with hold | ⟨-, -, heq | ⟨old, hold⟩⟩
    · exact hspelled nv hold hcase
    · exact heq
    · exact hspelled (nv.1, old) hold hcase
  obtain ⟨before, after, hsplit⟩ := append_of_mem hmem
  have hinfix : name <:+: urlParamsText (u.setUrlParameter name value).urlParameters := by
    rw [hsplit, urlParamsText, flatMap_append, flatMap_cons, ← heq]
    exact ⟨before.flatMap (fun nv => byte ';' :: paramText escape nv) ++ [byte ';'],
      valueText nv.2 ++ after.flatMap fun nv => byte ';' :: paramText escape nv,
      by simp [paramText_eq]⟩
  refine hinfix.trans ?_
  rw [toString_setUrlParameter hu hsip hname hvalue]
  exact ⟨u.displayName ++ byte '<' :: (u.openingText ++ u.hostText),
    headerParamsText u.headerOrQueryParameters ++ byte '>' :: fieldText junk u.fieldParameters,
    by simp⟩

end Read

end Url

namespace RouteState

open NameValueTokenizer SipMessage

/-! ## Values that take a token -/

/-- The value is read as one that carries the token. -/
structure Bears (stateToken route : Text) : Prop where
  ne_nil : trim isBlank route ≠ []
  carried_eq : carried (trim isBlank route) = some stateToken

/-- **The route values that a token can be put into**: SIP URIs whose parameters survive being
printed, with the name of the token in no other spelling, which print without a comma or NUL
and leave room for the token in a header. -/
structure TakesToken (junk : Byte) (room : Nat) (route : Text) : Prop where
  ne_nil : route ≠ []
  nul : (0 : Byte) ∉ route
  isSip : (Url.ofText route .nameAddr).scheme.isSip = true
  keeps : Url.KeepsParams (Url.ofText route .nameAddr)
  spelled : ∀ nv ∈ (Url.ofText route .nameAddr).urlParameters,
    caseEq nv.1 urlParameterName = true → nv.1 = urlParameterName
  bytes : ∀ c ∈ (Url.ofText route .nameAddr).toString junk, c ≠ 0 ∧ isComma c = false
  length_le : ((Url.ofText route .nameAddr).toString junk).length + room ≤ maxFieldLength

/-- The length of the token of such values. -/
def tokenLength (values : List (Text × Text)) : Nat :=
  (values.map fun nv => nv.1.length + 4 * ((nv.2.length + 2) / 3) + 2).sum + 33

/-- The room for the token, escaped and behind its name, for `;lr` and for two brackets. -/
def tokenRoom (values : List (Text × Text)) : Nat := 3 * tokenLength values + 20

theorem length_encode_le (md5 : NetMd5Codec) (secret : Text) (st : RouteState) :
    (st.encode md5 secret).length ≤ tokenLength st.values := by
  have hpairs : ∀ (values : List (Text × Text)) (first : Bool), (encodePairs first values).length ≤
      (values.map fun nv => nv.1.length + 4 * ((nv.2.length + 2) / 3) + 2).sum := by
    intro values
    induction values with
    | nil => exact fun _ => Nat.zero_le _
    | cons nv values ih =>
      intro first
      have hrest := ih false
      have hdot : (if first then ([] : Text) else [byte '.']).length ≤ 1 := by
        cases first <;> simp
      simp only [encodePairs, encodeValue, tokenEsc, length_append, length_cons,
        length_map, NetBase64Codec.length_encode, map_cons, sum_cons]
      omega
  have h := hpairs st.values true
  rw [encode, length_append, length_cons, md5.length_hash, tokenLength]
  rw [nvpairs]
  omega

theorem zero_notMem_encode (md5 : NetMd5Codec) (secret : Text) {st : RouteState} (hst : st.Named) :
    (0 : Byte) ∉ st.encode md5 secret := by
  have hpairs : ∀ (values : List (Text × Text)) (first : Bool),
      (∀ nv ∈ values, IsRouteParameterName nv.1) → (0 : Byte) ∉ encodePairs first values := by
    intro values
    induction values with
    | nil => exact fun _ _ => not_mem_nil
    | cons nv values ih =>
      intro first hnames hmem
      simp only [encodePairs, mem_append, mem_cons] at hmem
      rcases hmem with ((hmem | hmem) | hmem | hmem) | hmem
      · cases first with
        | true => exact absurd hmem not_mem_nil
        | false => exact absurd hmem (by decide)
      · rcases bytes_of_isRouteParameterName (hnames nv (by simp)) 0 hmem with hname | hnewline
        · exact absurd hname (by decide)
        · exact absurd hnewline (by decide)
      · exact absurd hmem (by decide)
      · exact absurd (isValueByte_encodeValue nv.2 0 hmem) (by decide)
      · exact ih false (fun nv hnv => hnames nv (by simp [hnv])) hmem
  intro hmem
  rcases mem_append.mp hmem with hmem | hmem
  · exact hpairs st.values true hst hmem
  · rcases mem_cons.mp hmem with hmem | hmem
    · exact absurd hmem (by decide)
    · exact absurd (md5.isHexLower_hash _ 0 hmem) (by decide)

section Written

variable {u : Url} {junk : Byte} {stateToken : Text}

/-- A token is read from the URI that it was put into. -/
theorem bears_toString (hu : Url.Accepted u) (hsip : u.scheme.isSip = true)
    (hkeeps : u.KeepsParams) (htoken : (0 : Byte) ∉ stateToken)
    (hspelled : ∀ nv ∈ u.urlParameters, caseEq nv.1 urlParameterName = true →
      nv.1 = urlParameterName)
    (hnul : (0 : Byte) ∉ (u.setUrlParameter urlParameterName stateToken).toString junk) :
    Bears stateToken ((u.setUrlParameter urlParameterName stateToken).toString junk) := by
  have hname : Url.IsParamName urlParameterName := by decide
  have hset := Url.paramSet_of_keepsParams hu hsip hname htoken junk hkeeps
  have hne := Url.toString_ne_nil junk (u.setUrlParameter urlParameterName stateToken)
  have hread := hset.found
  rw [Url.reread, cString_of_notMem hnul] at hread
  refine ⟨?_, ?_⟩
  · rwa [Url.trim_toString_setUrlParameter hu hsip hname htoken]
  · rw [Url.trim_toString_setUrlParameter hu hsip hname htoken, carried, if_pos, tokenOf,
      Url.ofText, if_neg hne, hread]
    exact containsText_iff.mpr
      (Url.infix_toString_setUrlParameter hu hsip hname htoken junk hspelled)

variable {room : Nat} {route : Text}

theorem TakesToken.accepted (h : TakesToken junk room route) :
    Url.Accepted (Url.ofText route .nameAddr) := by
  have hsip := h.isSip
  rw [Url.ofText, if_neg h.ne_nil] at hsip ⊢
  refine Url.accepted_fromString h.nul fun hunknown => ?_
  rw [hunknown] at hsip
  exact absurd hsip (by decide)

theorem bytes_of_printed {c : Byte} (h : (isEscapeByte c || oneOf "<>;=" c) = true) :
    c ≠ 0 ∧ isComma c = false := by
  have hall : ∀ c : Byte, (isEscapeByte c || oneOf "<>;=" c) = true →
      c ≠ 0 ∧ isComma c = false := by decide +kernel
  exact hall c h

/-- **A value that takes a token carries it**, as one value. -/
theorem TakesToken.withToken (h : TakesToken junk room route) (htoken : (0 : Byte) ∉ stateToken)
    (hroom : 3 * stateToken.length + 14 ≤ room) :
    Bears stateToken (withToken junk stateToken route) ∧
      OneValue (withToken junk stateToken route) := by
  have hname : Url.IsParamName urlParameterName := by decide
  have hbytes : ∀ c ∈ RouteState.withToken junk stateToken route, c ≠ 0 ∧ isComma c = false := by
    intro c hc
    rcases Url.mem_toString_setUrlParameter h.accepted h.isSip hname htoken junk hc with hc | hc
    · exact h.bytes c hc
    · exact bytes_of_printed hc
  have hlength := Url.length_toString_setUrlParameter_le h.accepted h.isSip hname htoken junk
  have hfits := h.length_le
  refine ⟨bears_toString h.accepted h.isSip h.keeps htoken h.spelled fun hmem =>
    (hbytes 0 hmem).1 rfl, Url.toString_ne_nil _ _, fun c hc => (hbytes c hc).2, ?_⟩
  have hten : urlParameterName.length = 10 := rfl
  rw [RouteState.withToken]
  omega

/-- A URI of this proxy takes the token behind `lr`. -/
theorem TakesToken.newRoute (h : TakesToken junk room route) (htoken : (0 : Byte) ∉ stateToken)
    (hroom : 3 * stateToken.length + 20 ≤ room) :
    Bears stateToken (bracketed (newRoute junk stateToken route)) ∧
      OneValue (bracketed (newRoute junk stateToken route)) := by
  have hlr : Url.IsParamName (text "lr") := by decide
  have hname : Url.IsParamName urlParameterName := by decide
  have hnil : (0 : Byte) ∉ ([] : Text) := not_mem_nil
  generalize hset : (Url.ofText route .nameAddr).setUrlParameter (text "lr") [] = u
  have hu : Url.Accepted u := hset ▸ Url.accepted_setUrlParameter h.accepted h.isSip hlr hnil
  have hsip : u.scheme.isSip = true := hset ▸ h.isSip
  have hkeeps : u.KeepsParams := by
    rw [← hset]
    refine ⟨Url.names_setUrlParameter hlr [] h.keeps.names, fun huser => ?_⟩
    exact (Url.matchAt_user_setUrlParameter h.accepted h.isSip hlr []).mpr (h.keeps.user huser)
  have hspelled : ∀ nv ∈ u.urlParameters, caseEq nv.1 urlParameterName = true →
      nv.1 = urlParameterName := by
    intro nv hnv hcase
    rw [← hset] at hnv
    rcases Url.mem_setFirst hnv with hold | ⟨-, hlrCase, -⟩
    · exact h.spelled nv hold hcase
    · rw [caseEq_comm] at hcase
      exact absurd (caseEq_trans hcase hlrCase) (by decide)
  have hprinted : RouteState.newRoute junk stateToken route =
      (u.setUrlParameter urlParameterName stateToken).toString junk := by
    rw [RouteState.newRoute, hset]
  have hbracket : byte '<' ∈ (u.setUrlParameter urlParameterName stateToken).toString junk := by
    rw [Url.toString_setUrlParameter hu hsip hname htoken]
    simp
  have hbytes : ∀ c ∈ (u.setUrlParameter urlParameterName stateToken).toString junk,
      c ≠ 0 ∧ isComma c = false := by
    intro c hc
    rcases Url.mem_toString_setUrlParameter hu hsip hname htoken junk hc with hc | hc
    · rw [← hset] at hc
      rcases Url.mem_toString_setUrlParameter h.accepted h.isSip hlr hnil junk hc with hc | hc
      · exact h.bytes c hc
      · exact bytes_of_printed hc
    · exact bytes_of_printed hc
  have hfirst := Url.length_toString_setUrlParameter_le h.accepted h.isSip hlr hnil junk
  have hlength := Url.length_toString_setUrlParameter_le hu hsip hname htoken junk
  rw [hset] at hfirst
  rw [hprinted, bracketed, if_pos (by simpa using hbracket)]
  refine ⟨bears_toString hu hsip hkeeps htoken hspelled fun hmem => (hbytes 0 hmem).1 rfl,
    Url.toString_ne_nil _ _, fun c hc => (hbytes c hc).2, ?_⟩
  have hfits := h.length_le
  have hten : urlParameterName.length = 10 := rfl
  have htwo : (text "lr").length = 2 := rfl
  rw [length_nil] at hfirst
  omega

end Written

end RouteState

end SipXRouter
