import SipXRouter.Net.NetBase64Codec
import SipXRouter.Net.NetMd5Codec

/-!
# Route state

`RouteState` keeps the values that the proxy's plugins attach to a dialog.  They
travel in a URL parameter of the proxy's own Record-Route value, as one signed token:

    <stateToken>   ::= <nvpairs> "!" <signature>
    <nvpairs>      ::= <namevalue> [ "." <namevalue> ]*
    <namevalue>    ::= <name> "~" <encodedvalue>
    <name>         ::= <instanceName> "*" <parameterName>
    <encodedvalue> ::= token_esc( base64( <value> ) )
    <signature>    ::= md5(<secret><callid><nvpairs>)
-/

namespace SipXRouter

open List Pattern

/-! ## Names -/

/-- `[a-z0-9_-]`, case aside. -/
def isParameterByte (c : Byte) : Bool := isAlnum c || oneOf "_-" c

def parameterNamePattern : Pattern := cat [bol, star (cls isParameterByte), eol]

/-- `RouteParameterName`: instance and parameter with a star between them, or
nothing where one of them is not valid. -/
def routeParameterName (pluginInstance parameterName : Text) : Option Text :=
  if (search parameterNamePattern pluginInstance).isSome ∧
      (search parameterNamePattern parameterName).isSome then
    some (pluginInstance ++ byte '*' :: parameterName)
  else none

/-- A name that `RouteParameterName` builds. -/
def IsRouteParameterName (name : Text) : Prop :=
  ∃ pluginInstance parameterName, routeParameterName pluginInstance parameterName = some name

/-! ## The state -/

/-- The state for one message. -/
structure RouteState where
  callId : Text
  fromTag : Text := []
  routeHostPort : Text := []
  mayBeMutable : Bool := false
  modified : Bool := false
  foundRouteState : Bool := false
  addCopyRequested : Bool := false
  recordRouteIndices : List Nat := []
  /-- `mValues`, a list sorted by name -/
  values : List (Text × Text) := []
deriving DecidableEq

variable {name : Text} {nv x : Text × Text} {st : RouteState} {values : List (Text × Text)}

namespace RouteState

/-- `RouteState::UrlParameterName`. -/
def urlParameterName : Text := text "sipXecs-rs"

/-- `UtlSortedList::insert`: before the first element that does not sort lower. -/
def insertValue (nv : Text × Text) : List (Text × Text) → List (Text × Text)
  | [] => [nv]
  | x :: xs => if x.1 < nv.1 then x :: insertValue nv xs else nv :: x :: xs

/-- `UtlSortedList::find`: the first element that does not sort lower, if it is equal. -/
def findValue (name : Text) : List (Text × Text) → Option Text
  | [] => none
  | x :: xs =>
    if x.1 < name then findValue name xs else if x.1 = name then some x.2 else none

/-- Give the element that `findValue` finds a new value. -/
def replaceValue (nv : Text × Text) : List (Text × Text) → List (Text × Text)
  | [] => []
  | x :: xs =>
    if x.1 < nv.1 then x :: replaceValue nv xs
    else if x.1 = nv.1 then nv :: xs else x :: xs

/-- `UtlSortedList::destroy`. -/
def destroyValue (name : Text) : List (Text × Text) → List (Text × Text)
  | [] => []
  | x :: xs =>
    if x.1 < name then x :: destroyValue name xs else if x.1 = name then xs else x :: xs

/-- `RouteState::getParameter`. -/
def getParameter (st : RouteState) (pluginInstance parameterName : Text) : Option Text :=
  match routeParameterName pluginInstance parameterName with
  | none => none
  | some name => findValue name st.values

/-- `RouteState::setParameter`.  Values are kept as C strings. -/
def setParameter (st : RouteState) (pluginInstance parameterName value : Text) : RouteState :=
  if st.mayBeMutable then
    match routeParameterName pluginInstance parameterName with
    | none => st
    | some name =>
      let nv := (name, cString value)
      { st with
        values :=
          if (findValue name st.values).isSome then replaceValue nv st.values
          else insertValue nv st.values
        modified := true }
  else st

/-- `RouteState::unsetParameter`. -/
def unsetParameter (st : RouteState) (pluginInstance parameterName : Text) : RouteState :=
  if st.mayBeMutable then
    match routeParameterName pluginInstance parameterName with
    | none => st
    | some name => { st with values := destroyValue name st.values }
  else st

/-! ## Encoding -/

/-- `token_esc`. -/
def tokenEsc (s : Text) : Text :=
  s.map fun c => if c = byte '+' then byte '\'' else if c = byte '=' then byte '\x60' else c

/-- Undo `token_esc`. -/
def tokenUnesc (s : Text) : Text :=
  s.map fun c => if c = byte '\'' then byte '+' else if c = byte '\x60' then byte '=' else c

/-- A value in the alphabet for the token. -/
def encodeValue (value : Text) : Text := tokenEsc (NetBase64Codec.encode .rfc4648Mime value)

/-- The loop of `encode` over the values. -/
def encodePairs : (firstParam : Bool) → List (Text × Text) → Text
  | _, [] => []
  | firstParam, nv :: rest =>
    (if firstParam then [] else [byte '.']) ++ nv.1 ++ byte '~' :: encodeValue nv.2 ++
      encodePairs false rest

/-- The name and value text that `encode` signs. -/
def nvpairs (st : RouteState) : Text := encodePairs true st.values

/-- The bytes that go into the digest. -/
def signedBytes (secret : Text) (st : RouteState) : Text := secret ++ st.callId ++ st.nvpairs

/-- `RouteState::encode`. -/
def encode (md5 : NetMd5Codec) (secret : Text) (st : RouteState) : Text :=
  st.nvpairs ++ byte '!' :: md5.hash (signedBytes secret st)

/-! ## Decoding -/

/-- The bytes of `NAME`. -/
def isNameByte (c : Byte) : Bool := isAlnum c || oneOf "*_-" c

/-- The bytes of `VALUE`. -/
def isValueByte (c : Byte) : Bool := isAlnum c || oneOf "'/\x60" c

/-- `NAME`. -/
def namePattern : Pattern := seq (times 2 (cls isNameByte)) (star (cls isNameByte))

/-- `VALUE`. -/
def valuePattern : Pattern := star (cls isValueByte)

/-- `NAME NV_SEP VALUE`. -/
def pairPattern : Pattern := cat [namePattern, lit "~", valuePattern]

/-- The name and value part of a token. -/
def pairsPattern : Pattern := seq pairPattern (star (seq (lit ".") pairPattern))

/-- The expression for a token: joined pairs and a signature. -/
def stateAndSignature : Pattern :=
  cat [bol, group 1 pairsPattern, lit "!", group 2 (times 32 (cls isHex)), eol]

def nameValue : Pattern :=
  cat [group 1 namePattern, lit "~", group 2 valuePattern, cls (oneOf ".!")]

/-- The value of one pair; an empty one needs no decoding. -/
def decodeValue (encodedValue : Text) : Option Text :=
  if encodedValue = [] then some []
  else NetBase64Codec.decode .rfc4648Mime (tokenUnesc encodedValue)

/-- The loop of `decode` over the pairs, with the current match.  It ends where no
further pair is found, and fails at the first bad one. -/
def decodePairs : Nat → Match → List (Text × Text) → Option (List (Text × Text))
  | 0, _, _ => none
  | fuel + 1, m, values =>
    let names := (m.group 1).getD []
    if names.count (byte '*') = 1 then
      match decodeValue ((m.group 2).getD []) with
      | none => none
      | some value =>
        let values := insertValue (names, cString value) values
        if m.rest = [] then some values
        else
          match search nameValue m.rest with
          | none => some values
          | some m' => decodePairs fuel m' values
    else none

/-- The work of `RouteState::decode`: the values of an accepted token.  Each pair
takes at least one byte, so that the length of the token bounds their number. -/
def decodeToken (md5 : NetMd5Codec) (secret callId stateToken : Text) :
    Option (List (Text × Text)) :=
  match search stateAndSignature (cString stateToken) with
  | none => none
  | some m =>
    let calcSignature := md5.hash (secret ++ callId ++ (m.group 1).getD [])
    if (m.group 2).getD [] = calcSignature then
      match matchAt nameValue stateToken with
      | none => none
      | some m' => decodePairs (stateToken.length + 1) m' []
    else none

/-- `RouteState::decode`: a token that is not accepted leaves no values. -/
def decode (md5 : NetMd5Codec) (secret : Text) (st : RouteState) (stateToken : Text) :
    RouteState × Bool :=
  match decodeToken md5 secret st.callId stateToken with
  | none => ({ st with values := [] }, false)
  | some values => ({ st with values := values }, true)

/-! ## Names in the state -/

/-- The texts that `ParameterNamePattern` finds; a newline at the end escapes it. -/
theorem search_parameterNamePattern {s : Text} : (search parameterNamePattern s).isSome = true ↔
    ∃ name tail, s = name ++ tail ∧ (∀ c ∈ name, isParameterByte c = true) ∧
      (tail = [] ∨ tail = [10]) := by
  have hbol : search parameterNamePattern s = matchAt parameterNamePattern s := search_bol _ _
  rw [hbol]
  constructor
  · intro hsome
    obtain ⟨m, hm⟩ := Option.isSome_iff_exists.mp hsome
    obtain ⟨_, hb, t₁, htail₁, rfl⟩ := mem_run_seq.mp (mem_run_of_matchAt hm)
    obtain ⟨-, rfl⟩ := mem_run_bol.mp hb
    obtain ⟨m₁, hm₁, t₂, htail₂, rfl⟩ := mem_run_seq.mp htail₁
    obtain ⟨_, heol, -, -, -⟩ := mem_run_seq.mp htail₂
    exact ⟨m₁.text, m₁.rest, append_of_mem_run hm₁, mem_lang_star_cls.mp (text_mem_lang hm₁),
      (mem_run_eol.mp heol).1⟩
  · rintro ⟨name, tail, rfl, hname, htail⟩
    have hplain : Plain (star (cls isParameterByte)) := trivial
    obtain ⟨m₁, hm₁, -, hrest₁⟩ := exists_mem_run hplain name
      (mem_lang_star_cls.mpr hname) 0 tail
    rw [← hrest₁] at htail
    obtain ⟨m, hm, -⟩ := exists_matchAt (P := fun _ => True)
      ⟨_, mem_run_seq.mpr ⟨_, mem_run_bol.mpr ⟨rfl, rfl⟩, _, mem_run_seq.mpr ⟨m₁, hm₁, _,
        mem_run_seq.mpr ⟨_, mem_run_eol.mpr ⟨htail, rfl⟩, _, mem_run_eps.mpr rfl, rfl⟩, rfl⟩,
        rfl⟩⟩ (fun _ _ => trivial)
    exact Option.isSome_iff_exists.mpr ⟨m, hm⟩

theorem isNameByte_of_isParameterByte {c : Byte} (hc : isParameterByte c = true) :
    isNameByte c = true := by
  unfold isParameterByte at hc
  unfold isNameByte
  rcases Bool.or_eq_true_iff.mp hc with hc | hc
  · rw [hc, Bool.true_or]
  · have : c = byte '_' ∨ c = byte '-' := by simpa [oneOf, text] using hc
    rcases this with rfl | rfl <;> decide

/-- A name holds bytes of `NAME` only, but for a newline. -/
theorem bytes_of_isRouteParameterName (h : IsRouteParameterName name) :
    ∀ c ∈ name, isNameByte c = true ∨ c = 10 := by
  obtain ⟨pluginInstance, parameterName, h⟩ := h
  rw [routeParameterName] at h
  split at h
  · next hvalid =>
      cases h
      have hpart : ∀ s, (search parameterNamePattern s).isSome = true →
          ∀ c ∈ s, isNameByte c = true ∨ c = 10 := by
        intro s hs c hc
        obtain ⟨part, tail, rfl, hpart, htail⟩ := search_parameterNamePattern.mp hs
        rcases mem_append.mp hc with hc | hc
        · exact Or.inl (isNameByte_of_isParameterByte (hpart c hc))
        · rcases htail with rfl | rfl
          · simp at hc
          · exact Or.inr (mem_singleton.mp hc)
      intro c hc
      rw [mem_append, mem_cons] at hc
      rcases hc with hc | rfl | hc
      · exact hpart _ hvalid.1 c hc
      · exact Or.inl (by decide)
      · exact hpart _ hvalid.2 c hc
  · simp at h

/-- A name with one star that `NAME` matches is built from its two parts. -/
theorem isRouteParameterName_of_count (hname : ∀ c ∈ name, isNameByte c = true)
    (hstar : name.count (byte '*') = 1) : IsRouteParameterName name := by
  have hmem : byte '*' ∈ name := count_pos_iff.mp (by omega)
  obtain ⟨pluginInstance, parameterName, rfl⟩ := append_of_mem hmem
  have hcount : pluginInstance.count (byte '*') = 0 ∧ parameterName.count (byte '*') = 0 := by
    rw [count_append, count_cons_self] at hstar
    omega
  have hpart : ∀ s : Text, s.count (byte '*') = 0 → (∀ c ∈ s, isNameByte c = true) →
      (search parameterNamePattern s).isSome = true := by
    intro s hzero hs
    refine search_parameterNamePattern.mpr ⟨s, [], by simp, ?_, Or.inl rfl⟩
    intro c hc
    have hne : c ≠ byte '*' := by
      rintro rfl
      exact count_eq_zero.mp hzero hc
    have hbyte := hs c hc
    unfold isNameByte at hbyte
    unfold isParameterByte
    rcases Bool.or_eq_true_iff.mp hbyte with h | h
    · rw [h, Bool.true_or]
    · have : c = byte '*' ∨ c = byte '_' ∨ c = byte '-' := by simpa [oneOf, text] using h
      rcases this with h | rfl | rfl
      · exact absurd h hne
      · decide
      · decide
  refine ⟨pluginInstance, parameterName, ?_⟩
  rw [routeParameterName, if_pos]
  exact ⟨hpart _ hcount.1 fun c hc => hname c (by simp [hc]),
    hpart _ hcount.2 fun c hc => hname c (by simp [hc])⟩

/-- Every name in the state was built by `RouteParameterName`. -/
def Named (st : RouteState) : Prop := ∀ nv ∈ st.values, IsRouteParameterName nv.1

theorem mem_insertValue (hx : x ∈ insertValue nv values) : x = nv ∨ x ∈ values := by
  induction values with
  | nil => simpa [insertValue] using hx
  | cons y ys ih =>
    rw [insertValue] at hx
    split at hx
    · rcases mem_cons.mp hx with rfl | hx
      · exact Or.inr (by simp)
      · exact (ih hx).imp_right (mem_cons_of_mem _)
    · simpa using hx

theorem mem_replaceValue (hx : x ∈ replaceValue nv values) : x = nv ∨ x ∈ values := by
  induction values with
  | nil => simp [replaceValue] at hx
  | cons y ys ih =>
    rw [replaceValue] at hx
    split at hx
    · rcases mem_cons.mp hx with rfl | hx
      · exact Or.inr (by simp)
      · exact (ih hx).imp_right (mem_cons_of_mem _)
    · split at hx
      · exact (mem_cons.mp hx).imp_right (mem_cons_of_mem _)
      · exact Or.inr hx

theorem mem_destroyValue (hx : x ∈ destroyValue name values) : x ∈ values := by
  induction values with
  | nil => simp [destroyValue] at hx
  | cons y ys ih =>
    rw [destroyValue] at hx
    split at hx
    · rcases mem_cons.mp hx with rfl | hx
      · simp
      · exact mem_cons_of_mem _ (ih hx)
    · split at hx
      · exact mem_cons_of_mem _ hx
      · exact hx

/-- Setting a parameter adds one pair, under its own name. -/
theorem mem_setParameter {pluginInstance parameterName value : Text}
    (hnv : nv ∈ (st.setParameter pluginInstance parameterName value).values) :
    nv ∈ st.values ∨ ∃ name, routeParameterName pluginInstance parameterName = some name ∧
      nv = (name, cString value) := by
  unfold setParameter at hnv
  split at hnv
  · cases hname : routeParameterName pluginInstance parameterName with
    | none =>
      rw [hname] at hnv
      exact Or.inl hnv
    | some name =>
      have hmem : nv = (name, cString value) ∨ nv ∈ st.values := by
        rw [hname] at hnv
        by_cases hfound : (findValue name st.values).isSome = true
        · simp only [hfound, if_true] at hnv
          exact mem_replaceValue hnv
        · simp only [hfound] at hnv
          exact mem_insertValue hnv
      exact hmem.symm.imp_right fun h => ⟨name, rfl, h⟩
  · exact Or.inl hnv

theorem named_setParameter (hst : st.Named) (pluginInstance parameterName value : Text) :
    (st.setParameter pluginInstance parameterName value).Named := by
  intro nv hnv
  rcases mem_setParameter hnv with hnv | ⟨name, hname, rfl⟩
  · exact hst nv hnv
  · exact ⟨pluginInstance, parameterName, hname⟩

theorem named_unsetParameter (hst : st.Named) (pluginInstance parameterName : Text) :
    (st.unsetParameter pluginInstance parameterName).Named := by
  unfold unsetParameter
  split
  · cases routeParameterName pluginInstance parameterName with
    | none => exact hst
    | some name => exact fun x hx => hst x (mem_destroyValue hx)
  · exact hst

/-- The name that `NameValue` captures is in the language of `NAME`. -/
theorem name_mem_lang {n : Nat} {s : Text} {m : Match} (hm : m ∈ run nameValue n s)
    (hgroup : m.group 1 = some name) : name ∈ lang namePattern := by
  have hcap : (1, name) ∈ m.caps := by
    obtain ⟨caps, caps', heq, -⟩ := lookup_eq_some_iff.mp hgroup
    rw [heq]
    simp
  obtain ⟨body, hbody, hlang⟩ := (sound_of_mem_run hm).2 1 name hcap
  have : body = namePattern := by
    simpa [nameValue, cat, groups, lit, text, namePattern, valuePattern, times] using hbody
  rwa [this] at hlang

theorem bytes_of_mem_namePattern (hname : name ∈ lang namePattern) :
    ∀ c ∈ name, isNameByte c = true := by
  obtain ⟨u, hu, v, hv, rfl⟩ := mem_lang_seq.mp hname
  intro c hc
  rcases mem_append.mp hc with hc | hc
  · exact (mem_lang_times_cls.mp hu).2 c hc
  · exact mem_lang_star_cls.mp hv c hc

/-- What holds of every text of `NAME` with one star holds of the names that are decoded. -/
theorem forall_decodePairs {P : Text → Prop}
    (hP : ∀ name ∈ lang namePattern, name.count (byte '*') = 1 → P name) :
    ∀ (fuel : Nat) {n : Nat} {s : Text} {m : Match} {values result : List (Text × Text)},
      m ∈ run nameValue n s → (∀ nv ∈ values, P nv.1) →
      decodePairs fuel m values = some result → ∀ nv ∈ result, P nv.1 := by
  intro fuel
  induction fuel with
  | zero => intro n s m values result _ _ h; simp [decodePairs] at h
  | succ fuel ih =>
    intro n s m values result hm hvalues h
    simp only [decodePairs] at h
    split at h
    · next hstar =>
        cases hvalue : decodeValue ((m.group 2).getD []) with
        | none => simp [hvalue] at h
        | some value =>
          have hname : P ((m.group 1).getD []) := by
            cases hgroup : m.group 1 with
            | none => simp [hgroup] at hstar
            | some name =>
              rw [hgroup] at hstar
              exact hP name (name_mem_lang hm hgroup) hstar
          have hinserted : ∀ nv ∈ insertValue ((m.group 1).getD [], cString value) values,
              P nv.1 := by
            intro nv hnv
            rcases mem_insertValue hnv with rfl | hnv
            · exact hname
            · exact hvalues nv hnv
          simp only [hvalue] at h
          split at h
          · cases h
            exact hinserted
          · cases hsearch : search nameValue m.rest with
            | none =>
              rw [hsearch] at h
              cases h
              exact hinserted
            | some m' =>
              rw [hsearch] at h
              obtain ⟨_, k, -, hm'⟩ := searchFrom_append
                (hsearch : searchFrom nameValue 0 m.rest = some m')
              exact ih hm' hinserted h
    · simp at h

theorem decodeToken_eq_some {md5 : NetMd5Codec} {secret callId stateToken : Text}
    (h : decodeToken md5 secret callId stateToken = some values) :
    ∃ m m', search stateAndSignature (cString stateToken) = some m ∧
      matchAt nameValue stateToken = some m' ∧
      (m.group 2).getD [] = md5.hash (secret ++ callId ++ (m.group 1).getD []) ∧
      decodePairs (stateToken.length + 1) m' [] = some values := by
  unfold decodeToken at h
  cases hsearch : search stateAndSignature (cString stateToken) with
  | none => simp [hsearch] at h
  | some m =>
    cases hfirst : matchAt nameValue stateToken with
    | none => simp [hsearch, hfirst] at h
    | some m' =>
      by_cases hsig : (m.group 2).getD [] = md5.hash (secret ++ callId ++ (m.group 1).getD [])
      · simp only [hsearch, hfirst, if_pos hsig] at h
        exact ⟨m, m', rfl, rfl, hsig, h⟩
      · simp only [hsearch, if_neg hsig] at h
        simp at h

end RouteState

end SipXRouter
