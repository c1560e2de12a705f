import SipXRouter.Digitmaps.UrlMapping
import SipXRouter.Net.SipXlocationInfo
import SipXRouter.Utl.UtlString

/-!
# Transforms

A container of a rules document has `transform` elements.  Each one is run on a copy of the
request URI, and its sub-elements replace parts of it or the whole.  Texts in them have
symbols that stand for parts of the request URI; the parts are built when they are first
needed, and kept for the transforms that come after.
-/

namespace SipXRouter

open List

namespace UrlMapping

/-! ## Symbols -/

/-- `SymbolMap::replaceEach`, behind the first `skip` bytes. -/
def replaceEach (replaceWhat replaceWith : Text) : (skip : Nat) → Text → Text
  | _, [] => []
  | skip + 1, _ :: cs => replaceEach replaceWhat replaceWith skip cs
  | 0, c :: cs =>
    if caseEq ((c :: cs).take replaceWhat.length) replaceWhat then
      replaceWith ++ replaceEach replaceWhat replaceWith (replaceWhat.length - 1) cs
    else c :: replaceEach replaceWhat replaceWith 0 cs

/-- Symbols one after the other, each where the text has it in its own case. -/
def replaceSymbols (symbols : List (Text × Text)) (value : Text) : Text :=
  symbols.foldl
    (fun value s => if containsText s.1 value then replaceEach s.1 s.2 0 value else value) value

/-- Names and values of parameters. -/
def joinParams (params : List (Text × Text)) : Text :=
  intercalate [byte ';'] (params.map fun nv => nv.1 ++ byte '=' :: nv.2)

/-- The texts for `ComponentSymbols`. -/
def componentSymbols : List Text :=
  ["\x7buser\x7d", "\x7buser-escaped\x7d", "\x7bdigits\x7d", "\x7bdigits-escaped\x7d",
    "\x7bhost\x7d", "\x7bheaderparams\x7d", "\x7burlparams\x7d", "\x7bparams\x7d"].map text

/-- The replacements, of which some are built when they are needed. -/
structure SymbolMap where
  mediaserver : Text
  voicemail : Text
  localhost : Text
  originalUrl : Url
  components : Option (Text × Text × Text) := none
  urlParams : Option Text := none
  headerParams : Option Text := none

namespace SymbolMap

/-- The symbols that come from the URI as a whole: its user, the user escaped, and its host. -/
def buildComponents (m : SymbolMap) : Text × Text × Text :=
  (m.originalUrl.userId, escape m.originalUrl.userId, m.originalUrl.getHostWithPort)

/-- The symbol for the URL parameters, written as in a URI. -/
def buildUrlParams (m : SymbolMap) : Text := joinParams m.originalUrl.urlParameters

def buildHeaderParams (m : SymbolMap) : Text := joinParams m.originalUrl.headerOrQueryParameters

/-- The symbols whose replacements are always there. -/
def replaceFixed (junk : Byte) (vdigits : Text) (m : SymbolMap) : Text → Text :=
  replaceSymbols [(text "\x7bmediaserver\x7d", m.mediaserver),
    (text "\x7bvoicemail\x7d", m.voicemail), (text "\x7blocalhost\x7d", m.localhost),
    (text "\x7buri\x7d", m.originalUrl.toString junk), (text "\x7bvdigits\x7d", vdigits),
    (text "\x7bvdigits-escaped\x7d", escape vdigits)]

/-- The symbols of user and host. -/
def replaceComponents (c : Text × Text × Text) : Text → Text :=
  replaceSymbols [(text "\x7buser\x7d", c.1), (text "\x7buser-escaped\x7d", c.2.1),
    (text "\x7bdigits\x7d", c.1), (text "\x7bdigits-escaped\x7d", c.2.1),
    (text "\x7bhost\x7d", c.2.2)]

/-- The part of `SymbolMap::replace` for user and host. -/
def useComponents (m : SymbolMap) (value : Text) : Text × SymbolMap :=
  if componentSymbols.any (containsText · value) then
    let c := m.components.getD m.buildComponents
    (replaceComponents c value, { m with components := some c })
  else (value, m)

/-- The part for the URL parameters. -/
def useUrlParams (m : SymbolMap) (value : Text) : Text × SymbolMap :=
  if containsText (text "\x7burlparams\x7d") value then
    let params := m.urlParams.getD m.buildUrlParams
    (replaceEach (text "\x7burlparams\x7d") params 0 value, { m with urlParams := some params })
  else (value, m)

/-- The part for the header parameters. -/
def useHeaderParams (m : SymbolMap) (value : Text) : Text × SymbolMap :=
  if containsText (text "\x7bheaderparams\x7d") value then
    let params := m.headerParams.getD m.buildHeaderParams
    (replaceEach (text "\x7bheaderparams\x7d") params 0 value,
      { m with headerParams := some params })
  else (value, m)

/-- `SymbolMap::replace`. -/
def replace (junk : Byte) (vdigits : Text) (m : SymbolMap) (value : Text) : Text × SymbolMap :=
  let parts := m.useComponents (m.replaceFixed junk vdigits value)
  let url := parts.2.useUrlParams parts.1
  url.2.useHeaderParams url.1

/-- What has been built is what would be built at the start. -/
structure Agrees (start m : SymbolMap) : Prop where
  fixed : ∀ junk vdigits, m.replaceFixed junk vdigits = start.replaceFixed junk vdigits
  originalUrl : m.originalUrl = start.originalUrl
  components : m.components.getD m.buildComponents = start.components.getD start.buildComponents
  urlParams : m.urlParams.getD m.buildUrlParams = start.urlParams.getD start.buildUrlParams
  headerParams :
    m.headerParams.getD m.buildHeaderParams = start.headerParams.getD start.buildHeaderParams

variable {start m : SymbolMap}

theorem Agrees.refl (m : SymbolMap) : Agrees m m := ⟨fun _ _ => rfl, rfl, rfl, rfl, rfl⟩

theorem Agrees.useComponents (h : Agrees start m) (value : Text) :
    (m.useComponents value).1 = (start.useComponents value).1 ∧
      Agrees start (m.useComponents value).2 := by
  unfold SymbolMap.useComponents
  split
  · exact ⟨by rw [h.components], h.fixed, h.originalUrl, h.components, h.urlParams, h.headerParams⟩
  · exact ⟨rfl, h⟩

theorem Agrees.useUrlParams (h : Agrees start m) (value : Text) :
    (m.useUrlParams value).1 = (start.useUrlParams value).1 ∧
      Agrees start (m.useUrlParams value).2 := by
  unfold SymbolMap.useUrlParams
  split
  · exact ⟨by rw [h.urlParams], h.fixed, h.originalUrl, h.components, h.urlParams, h.headerParams⟩
  · exact ⟨rfl, h⟩

theorem Agrees.useHeaderParams (h : Agrees start m) (value : Text) :
    (m.useHeaderParams value).1 = (start.useHeaderParams value).1 ∧
      Agrees start (m.useHeaderParams value).2 := by
  unfold SymbolMap.useHeaderParams
  split
  · exact ⟨by rw [h.headerParams],
      h.fixed, h.originalUrl, h.components, h.urlParams, h.headerParams⟩
  · exact ⟨rfl, h⟩

/-- **What is kept** changes no replacement. -/
theorem Agrees.replace (h : Agrees start m) (junk : Byte) (vdigits value : Text) :
    ∃ m', Agrees start m' ∧
      m.replace junk vdigits value = ((start.replace junk vdigits value).1, m') := by
  obtain ⟨hparts, hm⟩ := h.useComponents (m.replaceFixed junk vdigits value)
  obtain ⟨-, hs⟩ := (Agrees.refl start).useComponents (start.replaceFixed junk vdigits value)
  rw [h.fixed] at hparts
  obtain ⟨hurl, hm⟩ := hm.useUrlParams (m.useComponents (m.replaceFixed junk vdigits value)).1
  obtain ⟨hurl', hs⟩ :=
    hs.useUrlParams (start.useComponents (start.replaceFixed junk vdigits value)).1
  obtain ⟨hheader, hm⟩ := hm.useHeaderParams _
  obtain ⟨hheader', -⟩ := hs.useHeaderParams _
  have hfst : (m.replace junk vdigits value).1 = (start.replace junk vdigits value).1 := by
    rw [SymbolMap.replace, SymbolMap.replace, hheader, hheader', hurl, hurl', h.fixed, hparts]
  refine ⟨(m.replace junk vdigits value).2, ?_, ?_⟩
  · rw [SymbolMap.replace]
    exact hm
  · rw [← hfst]

end SymbolMap

/-! ## One transform -/

/-- What has been seen of the sub-elements, in the order of the source's enumeration. -/
inductive TransformState where
  | noTransformsApplied | userTransformed | hostTransformed | urlParamAdded | headerParamAdded
  | fieldParamAdded | fullUrlTransformed | transformError
deriving DecidableEq

/-- The position in the enumeration. -/
def TransformState.order : TransformState → Nat
  | noTransformsApplied => 0
  | userTransformed => 1
  | hostTransformed => 2
  | urlParamAdded => 3
  | headerParamAdded => 4
  | fieldParamAdded => 5
  | fullUrlTransformed => 6
  | transformError => 7

/-- A transform on its way through its sub-elements. -/
structure Transform where
  symbols : SymbolMap
  transformedUrl : Url
  transformState : TransformState := .noTransformsApplied

/-- `getNamedAttribute`, which finds a name and a value in every element. -/
def getNamedAttribute (component : XmlNode) : Text × Text :=
  let componentContent := component.content.getD []
  match component.attributeOf (text "name") with
  | some name => (name, componentContent)
  | none =>
    match UtlString.index componentContent (text "=") with
    | some equalsOffset =>
      (componentContent.take equalsOffset, componentContent.drop (equalsOffset + 1))
    | none => (componentContent, [])

/-- What is left by a `url` element. -/
def withUrl (url : Text) : Url × TransformState :=
  (Url.fromString url .nameAddr,
    if (Url.fromString url .nameAddr).scheme = .unknown then .transformError
    else .fullUrlTransformed)

/-- The URI of a `host` element. -/
def withHost (u : Url) (transformHost : Text) : Url :=
  let parsedHostPort := Url.ofText (cString transformHost) .nameAddr
  ({ u with
      hostAddress := cString parsedHostPort.hostAddress
      hostPort := parsedHostPort.hostPort } : Url).removeUrlParameter (text "transport")

section

variable (junk : Byte) (vdigits : Text)

/-- An element whose text replaces a part; without a text it is passed over. -/
def byText (t : Transform) (e : XmlNode) (next : Text → Url × TransformState) : Transform :=
  match e.content with
  | none => t
  | some value =>
    let replaced := t.symbols.replace junk vdigits value
    { symbols := replaced.2
      transformedUrl := (next replaced.1).1
      transformState := (next replaced.1).2 }

/-- An element that sets a parameter. -/
def byName (t : Transform) (e : XmlNode) (state : TransformState) (set : Url → Text → Text → Url) :
    Transform :=
  let named := getNamedAttribute e
  let replaced := t.symbols.replace junk vdigits named.2
  { symbols := replaced.2
    transformedUrl := set t.transformedUrl (cString named.1) (cString replaced.1)
    transformState := state }

/-- One sub-element.  There is no result where `setFieldParameter` asserts that it has a
name. -/
def subElement (t : Transform) (e : XmlNode) : Option Transform :=
  if t.transformState = .noTransformsApplied ∧ e.value = text "url" then
    some (byText junk vdigits t e withUrl)
  else if t.transformState.order < TransformState.userTransformed.order ∧ e.value = text "user" then
    some (byText junk vdigits t e fun user =>
      ({ t.transformedUrl with userId := cString user }, .userTransformed))
  else if t.transformState.order < TransformState.hostTransformed.order ∧ e.value = text "host" then
    some (byText junk vdigits t e fun host => (withHost t.transformedUrl host, .hostTransformed))
  else if t.transformState.order ≤ TransformState.urlParamAdded.order ∧
      e.value = text "urlparams" then
    some (byName junk vdigits t e .urlParamAdded Url.setUrlParameter)
  else if t.transformState.order ≤ TransformState.headerParamAdded.order ∧
      e.value = text "headerparams" then
    some (byName junk vdigits t e .headerParamAdded Url.setHeaderParameter)
  else if t.transformState.order ≤ TransformState.fieldParamAdded.order ∧
      e.value = text "fieldparams" then
    if cString (getNamedAttribute e).1 = [] then none
    else some (byName junk vdigits t e .fieldParamAdded Url.setFieldParameter)
  else some { t with transformState := .transformError }

/-- The loop over the sub-elements. -/
def subElements (t : Transform) : List XmlNode → Option Transform
  | [] => some t
  | e :: es =>
    if t.transformState = .transformError then some t
    else (subElement junk vdigits t e).bind fun t => subElements t es

/-- One contact as the mapping hands it out, with the defaults of `doTransform`. -/
structure ContactRow where
  uri : Text
  callid : Text := text " "
  contact : Text
  expires : Int := 0
  cseq : Int := 0
  qvalue : Text := text "1.0"
deriving DecidableEq

def rowOf (requestUri transformedUrl : Url) : ContactRow where
  uri := requestUri.toString junk
  contact := transformedUrl.toString junk

/-- The sub-elements of a transform; texts and comments are passed over. -/
def elementsOf (transform : XmlNode) : List XmlNode := transform.children.filter (·.isElement)

/-- The loop over the transforms, with the contacts so far and the status. -/
def doTransforms (requestUri : Url) (m : SymbolMap) (found : List ContactRow × Bool) :
    List XmlNode → Option (List ContactRow × Bool)
  | [] => some found
  | n :: ns =>
    (subElements junk vdigits { symbols := m, transformedUrl := requestUri } (elementsOf n)).bind
      fun t => doTransforms requestUri t.symbols
        (if t.transformState = .transformError then found
        else (found.1 ++ [rowOf junk requestUri t.transformedUrl], true)) ns

end

/-- The texts that the mapping was loaded with. -/
structure Replacements where
  mMediaServer : Text
  mVoicemail : Text
  mLocalhost : Text

/-- The symbols at the start. -/
def Replacements.symbols (r : Replacements) (requestUri : Url) : SymbolMap where
  mediaserver := r.mMediaServer
  voicemail := r.mVoicemail
  localhost := r.mLocalhost
  originalUrl := requestUri

/-- `UrlMapping::doTransform`: the contacts, and whether one was added. -/
def doTransform (junk : Byte) (r : Replacements) (requestUri : Url) (vdigits : Text)
    (rContacts : List ContactRow) (permMatchNode : XmlNode) : Option (List ContactRow × Bool) :=
  doTransforms junk vdigits requestUri (r.symbols requestUri) (rContacts, false)
    (permMatchNode.elementsNamed (text "transform"))

/-! ## What should be added -/

/-- The tags of sub-elements, in the order that they may stand in. -/
def elementTags : List Text :=
  ["url", "user", "host", "urlparams", "headerparams", "fieldparams"].map text

/-- The position of an element in the order that the schema gives. -/
def place (e : XmlNode) : Nat := elementTags.idxOf e.value

/-- The elements that are passed over: of the first three kinds, without a text. -/
def IsPassedOver (e : XmlNode) : Prop := place e < 3 ∧ e.content = none

instance (e : XmlNode) : Decidable (IsPassedOver e) := inferInstanceAs (Decidable (_ ∧ _))

/-- The position in the enumeration behind an element: none if it is passed over, and the one
that nothing may follow if it is a whole URI. -/
def rank (e : XmlNode) : Nat := if IsPassedOver e then 0 else if place e = 0 then 6 else place e

/-- Whether an element at a place may stand behind what has led to a position. -/
def Allows (position place : Nat) : Prop :=
  position = 0 ∨ position < place ∨ position = place ∧ 3 ≤ place

instance (position place : Nat) : Decidable (Allows position place) :=
  inferInstanceAs (Decidable (_ ∨ _))

section

variable (substituted : Text → Text)

/-- The tag is known, and a whole URI has a scheme that is known. -/
def IsUsable (e : XmlNode) : Prop :=
  e.value ∈ elementTags ∧ (e.value = text "url" →
    ∀ value ∈ e.content, (Url.fromString (substituted value) .nameAddr).scheme ≠ .unknown)

instance (e : XmlNode) : Decidable (IsUsable substituted e) := inferInstanceAs (Decidable (_ ∧ _))

/-- **The lists that give a contact**: a whole URI, or parts of it in order, users and hosts
once each, with elements that are passed over in front of them or of the host. -/
def IsAccepted (es : List XmlNode) : Prop :=
  (∀ e ∈ es, IsUsable substituted e) ∧ es.Pairwise fun a b => Allows (rank a) (place b)

instance (es : List XmlNode) : Decidable (IsAccepted substituted es) :=
  inferInstanceAs (Decidable (_ ∧ _))

/-- What an element makes of a URI. -/
def applied (u : Url) (e : XmlNode) : Url :=
  let named := getNamedAttribute e
  let replaced := cString (substituted named.2)
  if e.value = text "url" then
    (e.content.map fun s => Url.fromString (substituted s) .nameAddr).getD u
  else if e.value = text "user" then
    (e.content.map fun s => { u with userId := cString (substituted s) }).getD u
  else if e.value = text "host" then (e.content.map fun s => withHost u (substituted s)).getD u
  else if e.value = text "urlparams" then u.setUrlParameter (cString named.1) replaced
  else if e.value = text "headerparams" then u.setHeaderParameter (cString named.1) replaced
  else u.setFieldParameter (cString named.1) replaced

end

/-! ## One sub-element -/

section Steps

variable {junk : Byte} {vdigits : Text} {substituted : Text → Text} {Agrees : SymbolMap → Prop}
  {t : Transform} {e : XmlNode}

/-- Whatever symbols agree with the request, a value is replaced by the same text, and the symbols
agree afterwards. -/
def ReplacesAlike (junk : Byte) (vdigits : Text) (substituted : Text → Text)
    (Agrees : SymbolMap → Prop) : Prop :=
  ∀ m, Agrees m → ∀ value, ∃ m', Agrees m' ∧ m.replace junk vdigits value = (substituted value, m')

/-- What is due from a sub-element. -/
structure Does (substituted : Text → Text) (Agrees : SymbolMap → Prop) (t : Transform) (e : XmlNode)
    (t' : Transform) : Prop where
  symbols : Agrees t'.symbols
  state : t'.transformState ≠ .transformError ↔
    IsUsable substituted e ∧ Allows t.transformState.order (place e)
  url : t'.transformState ≠ .transformError →
    t'.transformedUrl = applied substituted t.transformedUrl e
  order : t'.transformState ≠ .transformError → t'.transformState.order =
    if rank e = 0 then t.transformState.order else rank e

/-- An element that is unknown or out of order ends the transform. -/
theorem subElement_of_not_allows
    (h : ¬ (e.value ∈ elementTags ∧ Allows t.transformState.order (place e))) :
    subElement junk vdigits t e = some { t with transformState := .transformError } := by
  have hno {P : Prop} (tag : Text) (hmem : tag ∈ elementTags)
      (hP : P → Allows t.transformState.order (elementTags.idxOf tag)) : ¬ (P ∧ e.value = tag) := by
    rintro ⟨hp, rfl⟩
    exact h ⟨hmem, hP hp⟩
  have hfirst (hp : t.transformState = .noTransformsApplied) : Allows t.transformState.order 0 :=
    .inl (by rw [hp]; rfl)
  have hlt (k : TransformState) (hp : t.transformState.order < k.order) :
      Allows t.transformState.order k.order := .inr (.inl hp)
  have hle (k : TransformState) (hk : 3 ≤ k.order) (hp : t.transformState.order ≤ k.order) :
      Allows t.transformState.order k.order := by
    rcases Nat.lt_or_eq_of_le hp with hlt | heq
    · exact .inr (.inl hlt)
    · exact .inr (.inr ⟨heq, hk⟩)
  rw [subElement, if_neg (hno (text "url") (by decide) hfirst),
    if_neg (hno (text "user") (by decide) (hlt .userTransformed)),
    if_neg (hno (text "host") (by decide) (hlt .hostTransformed)),
    if_neg (hno (text "urlparams") (by decide) (hle .urlParamAdded (by decide))),
    if_neg (hno (text "headerparams") (by decide) (hle .headerParamAdded (by decide))),
    if_neg (hno (text "fieldparams") (by decide) (hle .fieldParamAdded (by decide)))]

/-- A step that takes the text of its element does what the element says, if the step for an
element
without content and the one for its text do. -/
theorem does_byText (hreplace : ReplacesAlike junk vdigits substituted Agrees)
    {next : Text → Url × TransformState} (hagrees : Agrees t.symbols)
    (hstate : t.transformState ≠ .transformError) (hplace : place e < 3)
    (hallows : Allows t.transformState.order (place e))
    (hnone : e.content = none → IsUsable substituted e ∧
      applied substituted t.transformedUrl e = t.transformedUrl)
    (hsome : ∀ value, e.content = some value →
      ((next (substituted value)).2 ≠ .transformError ↔ IsUsable substituted e) ∧
      (next (substituted value)).1 = applied substituted t.transformedUrl e ∧
      ((next (substituted value)).2 ≠ .transformError →
        (next (substituted value)).2.order = if place e = 0 then 6 else place e)) :
    Does substituted Agrees t e (byText junk vdigits t e next) := by
  cases hcontent : e.content with
  | none =>
    obtain ⟨husable, happlied⟩ := hnone hcontent
    have hrank : rank e = 0 := if_pos ⟨hplace, hcontent⟩
    rw [byText, hcontent]
    exact ⟨hagrees, iff_of_true hstate ⟨husable, hallows⟩, fun _ => happlied.symm,
      fun _ => (if_pos hrank).symm⟩
  | some value =>
    obtain ⟨husable, hurl, horder⟩ := hsome value hcontent
    obtain ⟨m, hm, hreplaced⟩ := hreplace t.symbols hagrees value
    have hover : ¬ IsPassedOver e := fun h => Option.some_ne_none value (hcontent.symm.trans h.2)
    have hrank : rank e = if place e = 0 then 6 else place e := if_neg hover
    have hne : rank e ≠ 0 := by rw [hrank]; split <;> omega
    simp only [byText, hcontent, hreplaced]
    refine ⟨hm, husable.trans (and_iff_left hallows).symm, fun _ => hurl, fun h => ?_⟩
    rw [if_neg hne, hrank]
    exact horder h

/-- A step that takes a name and a value does what its element says. -/
theorem does_byName (hreplace : ReplacesAlike junk vdigits substituted Agrees)
    {state : TransformState} {set : Url → Text → Text → Url}
    (hagrees : Agrees t.symbols) (htag : e.value ∈ elementTags) (hplace : 3 ≤ place e)
    (hallows : Allows t.transformState.order (place e)) (hstate : state ≠ .transformError)
    (horder : state.order = place e)
    (happlied : applied substituted t.transformedUrl e = set t.transformedUrl
      (cString (getNamedAttribute e).1) (cString (substituted (getNamedAttribute e).2))) :
    Does substituted Agrees t e (byName junk vdigits t e state set) := by
  obtain ⟨m, hm, hreplaced⟩ := hreplace t.symbols hagrees (getNamedAttribute e).2
  have hurl : e.value ≠ text "url" := by
    intro he
    rw [place, he] at hplace
    exact absurd hplace (by decide)
  have hover : ¬ IsPassedOver e := fun h => absurd h.1 (by omega)
  have hrank : rank e = place e := (if_neg hover).trans (if_neg (by omega))
  simp only [byName, hreplaced]
  refine ⟨hm, iff_of_true hstate ⟨⟨htag, fun he => absurd he hurl⟩, hallows⟩,
    fun _ => happlied.symm, fun _ => ?_⟩
  rw [hrank, if_neg (by omega)]
  exact horder

theorem applied_params {u : Url} {tag : Text} (he : e.value = tag)
    (htag : tag ∉ ["url", "user", "host"].map text) :
    applied substituted u e =
      let named := getNamedAttribute e
      let replaced := cString (substituted named.2)
      if e.value = text "urlparams" then u.setUrlParameter (cString named.1) replaced
      else if e.value = text "headerparams" then u.setHeaderParameter (cString named.1) replaced
      else u.setFieldParameter (cString named.1) replaced := by
  subst he
  simp only [map_cons, map_nil, mem_cons, not_mem_nil, or_false, not_or] at htag
  rw [applied, if_neg htag.1, if_neg htag.2.1, if_neg htag.2.2]

theorem tag_cases (htag : e.value ∈ elementTags) :
    e.value = text "url" ∨ e.value = text "user" ∨ e.value = text "host" ∨
      e.value = text "urlparams" ∨ e.value = text "headerparams" ∨
        e.value = text "fieldparams" := by
  simpa [elementTags] using htag

/-- **One sub-element** does what is due. -/
theorem exists_subElement (hreplace : ReplacesAlike junk vdigits substituted Agrees)
    (hagrees : Agrees t.symbols) (hstate : t.transformState ≠ .transformError)
    (hnamed : e.value = text "fieldparams" → cString (getNamedAttribute e).1 ≠ []) :
    ∃ t', subElement junk vdigits t e = some t' ∧ Does substituted Agrees t e t' := by
  by_cases h : e.value ∈ elementTags ∧ Allows t.transformState.order (place e)
  swap
  · refine ⟨_, subElement_of_not_allows h, hagrees, ?_, fun hne => absurd rfl hne,
      fun hne => absurd rfl hne⟩
    exact iff_of_false (fun hne => hne rfl) fun hdue => h ⟨hdue.1.1, hdue.2⟩
  obtain ⟨htag, hallows⟩ := h
  have hother {P : Prop} {tag : Text} (other : Text) (he : e.value = tag) (hne : tag ≠ other) :
      ¬ (P ∧ e.value = other) := fun h => hne (he.symm.trans h.2)
  have husable (he : e.value ≠ text "url") : IsUsable substituted e :=
    ⟨htag, fun hurl => absurd hurl he⟩
  have hle {k : Nat} (hplace : place e = k) : t.transformState.order ≤ k := by
    rw [hplace, Allows] at hallows
    omega
  have hlt {k : Nat} (hk : 0 < k ∧ k < 3) (hplace : place e = k) : t.transformState.order < k := by
    rw [hplace, Allows] at hallows
    omega
  rcases tag_cases htag with he | he | he | he | he | he
  · have hplace : place e = 0 := by rw [place, he]; decide
    have horder : t.transformState = .noTransformsApplied := by
      rw [hplace] at hallows
      revert hallows
      cases t.transformState <;> decide
    refine ⟨_, if_pos ⟨horder, he⟩, does_byText hreplace hagrees hstate (by omega) hallows ?_ ?_⟩
    · intro hcontent
      refine ⟨⟨htag, fun _ value hvalue => ?_⟩, ?_⟩
      · rw [hcontent] at hvalue
        exact absurd hvalue (by simp)
      · rw [applied, if_pos he, hcontent]
        rfl
    · intro value hcontent
      have hscheme : IsUsable substituted e ↔
          (Url.fromString (substituted value) .nameAddr).scheme ≠ .unknown := by
        refine ⟨fun h => h.2 he value hcontent, fun h => ⟨htag, fun _ other hother => ?_⟩⟩
        rw [hcontent] at hother
        rwa [← Option.some_inj.mp hother]
      have happlied : applied substituted t.transformedUrl e =
          Url.fromString (substituted value) .nameAddr := by
        simp only [applied, if_pos he, hcontent, Option.map_some, Option.getD_some]
      rw [hscheme, happlied, hplace, if_pos rfl]
      by_cases hknown : (Url.fromString (substituted value) .nameAddr).scheme = .unknown
      · simp only [withUrl, if_pos hknown]
        exact ⟨iff_of_false (fun h => h rfl) fun h => h hknown, trivial, fun h => absurd rfl h⟩
      · simp only [withUrl, if_neg hknown]
        exact ⟨iff_of_true (by decide) hknown, trivial, fun _ => rfl⟩
  · have hplace : place e = 1 := by rw [place, he]; decide
    have hne : e.value ≠ text "url" := by rw [he]; decide
    have hstep : subElement junk vdigits t e = _ :=
      (if_neg (hother (text "url") he (by decide))).trans (if_pos ⟨hlt (by decide) hplace, he⟩)
    refine ⟨_, hstep, does_byText hreplace hagrees hstate (by omega) hallows ?_ ?_⟩
    · intro hcontent
      refine ⟨husable hne, ?_⟩
      simp only [applied, if_neg hne, if_pos he, hcontent, Option.map_none, Option.getD_none]
    · intro value hcontent
      rw [hplace]
      refine ⟨iff_of_true (by simp) (husable hne), ?_, fun _ => rfl⟩
      simp only [applied, if_neg hne, if_pos he, hcontent, Option.map_some, Option.getD_some]
  · have hplace : place e = 2 := by rw [place, he]; decide
    have hne : e.value ≠ text "url" := by rw [he]; decide
    have hne' : e.value ≠ text "user" := by rw [he]; decide
    have hstep : subElement junk vdigits t e = _ :=
      (if_neg (hother (text "url") he (by decide))).trans
        ((if_neg (hother (text "user") he (by decide))).trans
          (if_pos ⟨hlt (by decide) hplace, he⟩))
    refine ⟨_, hstep, does_byText hreplace hagrees hstate (by omega) hallows ?_ ?_⟩
    · intro hcontent
      refine ⟨husable hne, ?_⟩
      simp only [applied, if_neg hne, if_neg hne', if_pos he, hcontent, Option.map_none,
        Option.getD_none]
    · intro value hcontent
      rw [hplace]
      refine ⟨iff_of_true (by simp) (husable hne), ?_, fun _ => rfl⟩
      simp only [applied, if_neg hne, if_neg hne', if_pos he, hcontent, Option.map_some,
        Option.getD_some]
  · have hplace : place e = 3 := by rw [place, he]; decide
    have hstep : subElement junk vdigits t e = _ :=
      (if_neg (hother (text "url") he (by decide))).trans
        ((if_neg (hother (text "user") he (by decide))).trans
          ((if_neg (hother (text "host") he (by decide))).trans (if_pos ⟨hle hplace, he⟩)))
    refine ⟨_, hstep,
      does_byName hreplace hagrees htag (by omega) hallows (by decide) hplace.symm ?_⟩
    exact (applied_params he (by decide)).trans (if_pos he)
  · have hplace : place e = 4 := by rw [place, he]; decide
    have hstep : subElement junk vdigits t e = _ :=
      (if_neg (hother (text "url") he (by decide))).trans
        ((if_neg (hother (text "user") he (by decide))).trans
          ((if_neg (hother (text "host") he (by decide))).trans
            ((if_neg (hother (text "urlparams") he (by decide))).trans (if_pos ⟨hle hplace, he⟩))))
    refine ⟨_, hstep,
      does_byName hreplace hagrees htag (by omega) hallows (by decide) hplace.symm ?_⟩
    have hne : e.value ≠ text "urlparams" := by rw [he]; decide
    exact (applied_params he (by decide)).trans ((if_neg hne).trans (if_pos he))
  · have hplace : place e = 5 := by rw [place, he]; decide
    have hstep : subElement junk vdigits t e = _ :=
      (if_neg (hother (text "url") he (by decide))).trans
        ((if_neg (hother (text "user") he (by decide))).trans
          ((if_neg (hother (text "host") he (by decide))).trans
            ((if_neg (hother (text "urlparams") he (by decide))).trans
              ((if_neg (hother (text "headerparams") he (by decide))).trans
                ((if_pos ⟨hle hplace, he⟩).trans (if_neg (hnamed he)))))))
    refine ⟨_, hstep,
      does_byName hreplace hagrees htag (by omega) hallows (by decide) hplace.symm ?_⟩
    have hne : e.value ≠ text "urlparams" := by rw [he]; decide
    have hne' : e.value ≠ text "headerparams" := by rw [he]; decide
    exact (applied_params he (by decide)).trans ((if_neg hne).trans (if_neg hne'))

theorem place_le (h : IsUsable substituted e) : place e ≤ 5 := by
  have hlt : elementTags.idxOf e.value < elementTags.length := idxOf_lt_length_iff.mpr h.1
  exact Nat.le_of_lt_succ hlt

/-- What may follow an element may follow all that is in front of it. -/
theorem allows_behind {s k : Nat} (hallows : Allows s (place e)) (hk : k ≤ 5) :
    Allows (if rank e = 0 then s else rank e) k ↔ Allows s k ∧ Allows (rank e) k := by
  by_cases hover : IsPassedOver e
  · have hrank : rank e = 0 := if_pos hover
    rw [if_pos hrank, hrank, and_iff_left (.inl rfl)]
  · have hrank : rank e = if place e = 0 then 6 else place e := if_neg hover
    by_cases hzero : place e = 0
    · rw [hrank, if_pos hzero, if_neg (by decide)]
      rw [hzero] at hallows
      unfold Allows at hallows ⊢
      omega
    · rw [hrank, if_neg hzero, if_neg hzero]
      unfold Allows at hallows ⊢
      omega

/-- **All sub-elements**: the state that is left, where there is no error. -/
theorem exists_subElements (hreplace : ReplacesAlike junk vdigits substituted Agrees)
    {es : List XmlNode}
    (hnamed : ∀ e ∈ es, e.value = text "fieldparams" → cString (getNamedAttribute e).1 ≠ [])
    (t : Transform) (hagrees : Agrees t.symbols) :
    ∃ t', subElements junk vdigits t es = some t' ∧ Agrees t'.symbols ∧
      (t'.transformState ≠ .transformError ↔ t.transformState ≠ .transformError ∧
        (∀ e ∈ es, IsUsable substituted e ∧ Allows t.transformState.order (place e)) ∧
        es.Pairwise fun a b => Allows (rank a) (place b)) ∧
      (t'.transformState ≠ .transformError →
        t'.transformedUrl = es.foldl (applied substituted) t.transformedUrl) := by
  induction es generalizing t with
  | nil => exact ⟨t, rfl, hagrees, by simp, fun _ => rfl⟩
  | cons e es ih =>
    by_cases hstate : t.transformState = .transformError
    · refine ⟨t, if_pos hstate, hagrees, iff_of_false (fun h => h hstate) fun h => h.1 hstate, ?_⟩
      exact fun h => absurd hstate h
    obtain ⟨t₁, hstep, hdoes⟩ := exists_subElement hreplace hagrees hstate
      (hnamed e mem_cons_self)
    obtain ⟨t', hrun, hagrees', hstate', hurl⟩ := ih
      (fun e he => hnamed e (mem_cons_of_mem _ he)) t₁ hdoes.symbols
    refine ⟨t', ?_, hagrees', ?_, fun h => ?_⟩
    · rw [subElements, if_neg hstate, hstep, Option.bind_some, hrun]
    · rw [hstate', forall_mem_cons, pairwise_cons, and_iff_right hstate]
      by_cases hdue : IsUsable substituted e ∧ Allows t.transformState.order (place e)
      · have hne := hdoes.state.mpr hdue
        rw [and_iff_right hne, and_iff_right hdue, hdoes.order hne, ← and_assoc, ← forall₂_and]
        refine and_congr_left' (forall₂_congr fun b _ => ?_)
        rw [and_assoc]
        exact and_congr_right fun hb => allows_behind hdue.2 (place_le hb)
      · exact iff_of_false (fun h => hdue (hdoes.state.mp h.1)) fun h => hdue h.1.1
    · obtain ⟨hne, -⟩ := hstate'.mp h
      rw [hurl h, hdoes.url hne, foldl_cons]

end Steps

/-! ## The parts that are not named -/

/-- The elements of a tag have no text. -/
def Textless (tag : String) (es : List XmlNode) : Prop :=
  ∀ e ∈ es, e.value = text tag → e.content = none

/-- The elements of a tag name other parameters. -/
def NamesOthers (tag : String) (name : Text) (es : List XmlNode) : Prop :=
  ∀ e ∈ es, e.value = text tag → caseEq (cString (getNamedAttribute e).1) name = false

/-- The parameters of a name, case aside. -/
def paramsNamed (name : Text) (params : List (Text × Text)) : List (Text × Text) :=
  params.filter fun nv => caseEq nv.1 name

/-- What elements do not name stays, except a transport where there is a new host. -/
structure KeepsUnnamed (es : List XmlNode) (u u' : Url) : Prop where
  others : u'.scheme = u.scheme ∧ u'.displayName = u.displayName ∧ u'.password = u.password ∧
    u'.path = u.path ∧ u'.angleBracketsIncluded = u.angleBracketsIncluded
  user : Textless "user" es → u'.userId = u.userId
  host : Textless "host" es → u'.hostAddress = u.hostAddress ∧ u'.hostPort = u.hostPort
  urlParams : ∀ name, NamesOthers "urlparams" name es →
    Textless "host" es ∨ caseEq (text "transport") name = false →
      paramsNamed name u'.urlParameters = paramsNamed name u.urlParameters
  headerParams : ∀ name, NamesOthers "headerparams" name es →
    paramsNamed name u'.headerOrQueryParameters = paramsNamed name u.headerOrQueryParameters
  fieldParams : ∀ name, NamesOthers "fieldparams" name es →
    paramsNamed name u'.fieldParameters = paramsNamed name u.fieldParameters

theorem KeepsUnnamed.refl (es : List XmlNode) (u : Url) : KeepsUnnamed es u u :=
  ⟨⟨rfl, rfl, rfl, rfl, rfl⟩, fun _ => rfl, fun _ => ⟨rfl, rfl⟩, fun _ _ _ => rfl, fun _ _ => rfl,
    fun _ _ => rfl⟩

theorem KeepsUnnamed.cons {e : XmlNode} {es : List XmlNode} {u u' u'' : Url}
    (h : KeepsUnnamed [e] u u') (h' : KeepsUnnamed es u' u'') : KeepsUnnamed (e :: es) u u'' := by
  have hfirst {P : XmlNode → Prop} (hP : ∀ x ∈ e :: es, P x) : ∀ x ∈ [e], P x := by
    intro x hx
    rw [mem_singleton.mp hx]
    exact hP e mem_cons_self
  have hrest {P : XmlNode → Prop} (hP : ∀ x ∈ e :: es, P x) : ∀ x ∈ es, P x := fun x hx =>
    hP x (mem_cons_of_mem _ hx)
  obtain ⟨hscheme, hname, hpassword, hpath, hbrackets⟩ := h.others
  obtain ⟨hscheme', hname', hpassword', hpath', hbrackets'⟩ := h'.others
  constructor
  · exact ⟨hscheme'.trans hscheme, hname'.trans hname, hpassword'.trans hpassword,
      hpath'.trans hpath, hbrackets'.trans hbrackets⟩
  · exact fun hP => (h'.user (hrest hP)).trans (h.user (hfirst hP))
  · exact fun hP => ⟨(h'.host (hrest hP)).1.trans (h.host (hfirst hP)).1,
      (h'.host (hrest hP)).2.trans (h.host (hfirst hP)).2⟩
  · exact fun name hP hhost => (h'.urlParams name (hrest hP) (hhost.imp_left hrest)).trans
      (h.urlParams name (hfirst hP) (hhost.imp_left hfirst))
  · exact fun name hP => (h'.headerParams name (hrest hP)).trans (h.headerParams name (hfirst hP))
  · exact fun name hP => (h'.fieldParams name (hrest hP)).trans (h.fieldParams name (hfirst hP))

section Unnamed

variable {set name value : Text} {params : List (Text × Text)}

theorem caseEq_eq_false {a : Text} (hname : caseEq set name = false) (ha : caseEq a set = true) :
    caseEq a name = false := by
  rw [Bool.eq_false_iff]
  intro hcase
  rw [caseEq_comm] at ha
  rw [caseEq_trans ha hcase] at hname
  exact absurd hname (by decide)

theorem paramsNamed_setFirst (hname : caseEq set name = false) :
    paramsNamed name ((Url.setFirst set value params).getD (params ++ [(set, value)])) =
      paramsNamed name params :=
  Url.filter_setFirst (fun _ hnv => caseEq_eq_false hname hnv) value params

theorem paramsNamed_filter (hname : caseEq set name = false) :
    paramsNamed name (params.filter fun nv => !caseEq nv.1 set) = paramsNamed name params := by
  rw [paramsNamed, paramsNamed, filter_filter]
  refine filter_congr fun nv _ => ?_
  by_cases hset : caseEq nv.1 set = true
  · rw [caseEq_eq_false hname hset, Bool.false_and]
  · rw [Bool.eq_false_iff.mpr hset, Bool.not_false, Bool.and_true]

theorem paramsNamed_setHeaderParameter (u : Url) (hname : caseEq set name = false) :
    paramsNamed name (u.setHeaderParameter set value).headerOrQueryParameters =
      paramsNamed name u.headerOrQueryParameters := by
  have happend (params : List (Text × Text)) :
      paramsNamed name (params ++ [(set, value)]) = paramsNamed name params := by
    rw [paramsNamed, filter_append, filter_singleton, hname]
    exact append_nil _
  rw [Url.setHeaderParameter]
  split
  · rfl
  · split
    · exact (happend _).trans (paramsNamed_filter hname)
    · exact happend _

theorem setHeaderParameter_frame (u : Url) (set value : Text) :
    u.setHeaderParameter set value = { u with
      headerOrQueryParameters := (u.setHeaderParameter set value).headerOrQueryParameters } := by
  rw [Url.setHeaderParameter]
  split
  · rfl
  · split <;> rfl

/-- **One sub-element** keeps what it does not name. -/
theorem keepsUnnamed_applied {substituted : Text → Text} {e : XmlNode}
    (htag : e.value ∈ elementTags) (hurl : e.value = text "url" → e.content = none) (u : Url) :
    KeepsUnnamed [e] u (applied substituted u e) := by
  have hnamed {tag : String} {name : Text} (he : e.value = text tag)
      (h : NamesOthers tag name [e]) :
      caseEq (cString (getNamedAttribute e).1) name = false := h e mem_cons_self he
  have htexts {tag : String} {value : Text} (he : e.value = text tag)
      (hcontent : e.content = some value) : ¬ Textless tag [e] := fun h =>
    Option.some_ne_none value (hcontent.symm.trans (h e mem_cons_self he))
  rcases tag_cases htag with he | he | he | he | he | he
  · have happlied : applied substituted u e = u := by
      simp only [applied, if_pos he, hurl he, Option.map_none, Option.getD_none]
    rw [happlied]
    exact KeepsUnnamed.refl [e] u
  · have hne : e.value ≠ text "url" := by rw [he]; decide
    simp only [applied, if_neg hne, if_pos he]
    cases hcontent : e.content with
    | none => exact KeepsUnnamed.refl [e] u
    | some value =>
      exact ⟨⟨rfl, rfl, rfl, rfl, rfl⟩, fun h => absurd h (htexts he hcontent),
        fun _ => ⟨rfl, rfl⟩, fun _ _ _ => rfl, fun _ _ => rfl, fun _ _ => rfl⟩
  · have hne : e.value ≠ text "url" := by rw [he]; decide
    have hne' : e.value ≠ text "user" := by rw [he]; decide
    simp only [applied, if_neg hne, if_neg hne', if_pos he]
    cases hcontent : e.content with
    | none => exact KeepsUnnamed.refl [e] u
    | some value =>
      have hhost := htexts he hcontent
      refine ⟨⟨rfl, rfl, rfl, rfl, rfl⟩, fun _ => rfl, fun h => absurd h hhost,
        fun name _ h => ?_, fun _ _ => rfl, fun _ _ => rfl⟩
      exact paramsNamed_filter (h.resolve_left hhost)
  · rw [applied_params he (by decide)]
    simp only [if_pos he]
    exact ⟨⟨rfl, rfl, rfl, rfl, rfl⟩, fun _ => rfl, fun _ => ⟨rfl, rfl⟩,
      fun _ h _ => paramsNamed_setFirst (hnamed he h), fun _ _ => rfl, fun _ _ => rfl⟩
  · have hne : e.value ≠ text "urlparams" := by rw [he]; decide
    rw [applied_params he (by decide)]
    simp only [if_neg hne, if_pos he]
    rw [setHeaderParameter_frame]
    exact ⟨⟨rfl, rfl, rfl, rfl, rfl⟩, fun _ => rfl, fun _ => ⟨rfl, rfl⟩, fun _ _ _ => rfl,
      fun _ h => paramsNamed_setHeaderParameter u (hnamed he h), fun _ _ => rfl⟩
  · have hne : e.value ≠ text "urlparams" := by rw [he]; decide
    have hne' : e.value ≠ text "headerparams" := by rw [he]; decide
    rw [applied_params he (by decide)]
    simp only [if_neg hne, if_neg hne']
    exact ⟨⟨rfl, rfl, rfl, rfl, rfl⟩, fun _ => rfl, fun _ => ⟨rfl, rfl⟩, fun _ _ _ => rfl,
      fun _ _ => rfl, fun _ h => paramsNamed_setFirst (hnamed he h)⟩

theorem keepsUnnamed_foldl {substituted : Text → Text} {es : List XmlNode}
    (htags : ∀ e ∈ es, e.value ∈ elementTags) (hurl : Textless "url" es) (u : Url) :
    KeepsUnnamed es u (es.foldl (applied substituted) u) := by
  induction es generalizing u with
  | nil => exact KeepsUnnamed.refl [] u
  | cons e es ih =>
    have hstep : KeepsUnnamed [e] u (applied substituted u e) :=
      keepsUnnamed_applied (htags e mem_cons_self) (hurl e mem_cons_self) u
    exact hstep.cons (ih (fun x hx => htags x (mem_cons_of_mem _ hx))
      (fun x hx => hurl x (mem_cons_of_mem _ hx)) _)

end Unnamed

/-! ## All transforms -/

section Transforms

variable (junk : Byte) (r : Replacements) (requestUri : Url) (vdigits : Text)

/-- A value with the symbols of the request in it replaced. -/
def substituted (value : Text) : Text := ((r.symbols requestUri).replace junk vdigits value).1

/-- The URI that a transform makes of the request URI. -/
def transformed (n : XmlNode) : Url :=
  (elementsOf n).foldl (applied (substituted junk r requestUri vdigits)) requestUri

/-- The contact of a transform. -/
def contactOf (n : XmlNode) : Option ContactRow :=
  if IsAccepted (substituted junk r requestUri vdigits) (elementsOf n) then
    some (rowOf junk requestUri (transformed junk r requestUri vdigits n))
  else none

/-- The field parameters of a container have names. -/
def HasFieldNames (permMatchNode : XmlNode) : Prop :=
  ∀ n ∈ permMatchNode.elementsNamed (text "transform"), ∀ e ∈ elementsOf n,
    e.value = text "fieldparams" → cString (getNamedAttribute e).1 ≠ []

theorem replacesAlike : ReplacesAlike junk vdigits (substituted junk r requestUri vdigits)
    (SymbolMap.Agrees (r.symbols requestUri)) :=
  fun _ hm value => hm.replace junk vdigits value

/-- The loop over the transforms collects the contact of each that is not rejected. -/
theorem doTransforms_eq {ns : List XmlNode}
    (hnamed : ∀ n ∈ ns, ∀ e ∈ elementsOf n,
      e.value = text "fieldparams" → cString (getNamedAttribute e).1 ≠ [])
    {m : SymbolMap} (hm : (r.symbols requestUri).Agrees m) (found : List ContactRow × Bool) :
    doTransforms junk vdigits requestUri m found ns =
      some (found.1 ++ ns.filterMap (contactOf junk r requestUri vdigits),
        found.2 || (ns.any fun n => (contactOf junk r requestUri vdigits n).isSome)) := by
  induction ns generalizing m found with
  | nil => simp [doTransforms]
  | cons n ns ih =>
    obtain ⟨t, hrun, hagrees, hstate, hurl⟩ :=
      exists_subElements (replacesAlike junk r requestUri vdigits) (hnamed n mem_cons_self)
        { symbols := m, transformedUrl := requestUri } hm
    have hrest := ih (fun x hx => hnamed x (mem_cons_of_mem _ hx)) hagrees
    rw [doTransforms, hrun, Option.bind_some, hrest, filterMap_cons, any_cons]
    have haccepted : t.transformState ≠ .transformError ↔
        IsAccepted (substituted junk r requestUri vdigits) (elementsOf n) := by
      rw [hstate, IsAccepted, and_iff_right (by simp)]
      exact and_congr_left' (forall₂_congr fun e _ => and_iff_left (.inl rfl))
    by_cases h : t.transformState = .transformError
    · have hnone : contactOf junk r requestUri vdigits n = none :=
        if_neg fun hacc => haccepted.mpr hacc h
      rw [if_pos h, hnone]
      rfl
    · have hsome : contactOf junk r requestUri vdigits n =
          some (rowOf junk requestUri t.transformedUrl) := by
        rw [contactOf, if_pos (haccepted.mp h), hurl h]
        rfl
      rw [if_neg h, hsome]
      simp

/-- **`doTransform`** adds a contact for each transform whose sub-elements are accepted, in the
order of the document, and succeeds where there is one; and what the sub-elements of a
component transform do not name stays as it was. -/
theorem doTransform_eq_and_keepsUnnamed {permMatchNode : XmlNode}
    (hnamed : HasFieldNames permMatchNode) (rContacts : List ContactRow) :
    (doTransform junk r requestUri vdigits rContacts permMatchNode =
      some (rContacts ++ (permMatchNode.elementsNamed (text "transform")).filterMap
          (contactOf junk r requestUri vdigits),
        (permMatchNode.elementsNamed (text "transform")).any fun n =>
          (contactOf junk r requestUri vdigits n).isSome)) ∧
      ∀ n ∈ permMatchNode.elementsNamed (text "transform"),
        IsAccepted (substituted junk r requestUri vdigits) (elementsOf n) →
        Textless "url" (elementsOf n) →
          KeepsUnnamed (elementsOf n) requestUri (transformed junk r requestUri vdigits n) := by
  refine ⟨?_, fun n _ haccepted hurl => ?_⟩
  · have hstart := SymbolMap.Agrees.refl (r.symbols requestUri)
    rw [doTransform, doTransforms_eq junk r requestUri vdigits hnamed hstart, Bool.false_or]
  · exact keepsUnnamed_foldl (fun e he => (haccepted.1 e he).1) hurl requestUri

theorem doTransforms_status {m : SymbolMap} {found added : List ContactRow × Bool}
    {ns : List XmlNode} (hfound : found.2 = !found.1.isEmpty)
    (h : doTransforms junk vdigits requestUri m found ns = some added) :
    added.2 = !added.1.isEmpty := by
  induction ns generalizing m found with
  | nil =>
    rw [doTransforms, Option.some_inj] at h
    rwa [← h]
  | cons n ns ih =>
    obtain ⟨t, -, hrest⟩ := Option.bind_eq_some_iff.mp h
    refine ih ?_ hrest
    split
    · exact hfound
    · simp

/-- A transform that puts in a new user and a q value. -/
def newUser : XmlNode :=
  .element (text "transform") [] [.element (text "user") [] [.text (text "100")],
    .element (text "fieldparams") [(text "name", text "q")] [.text (text "0.8")]]

/-- A transform with a user behind its host. -/
def userBehindHost : XmlNode :=
  .element (text "transform") [] [.element (text "host") [] [.text (text "example.org")],
    .element (text "user") [] [.text (text "101")]]

/-- The first gives a contact, the second none. -/
theorem doTransform_newUser :
    let requestUri : Url :=
      { userId := text "200", hostAddress := text "example.com", hostPort := 5080 }
    doTransform 0 ⟨[], [], []⟩ requestUri [] []
        (.element (text "permissionMatch") [] [newUser, userBehindHost]) =
      some ([{ uri := text "sip:200@example.com:5080"
               contact := text "<sip:100@example.com:5080>;q=0.8" }], true) ∧
      KeepsUnnamed (elementsOf newUser) requestUri
        (transformed 0 ⟨[], [], []⟩ requestUri [] newUser) := by
  intro requestUri
  have hnamed :
      HasFieldNames (.element (text "permissionMatch") [] [newUser, userBehindHost]) := by
    unfold HasFieldNames
    decide
  obtain ⟨hcontacts, hkeeps⟩ :=
    doTransform_eq_and_keepsUnnamed 0 ⟨[], [], []⟩ requestUri [] hnamed []
  have hmem : newUser ∈ [newUser, userBehindHost] := mem_cons_self
  refine ⟨hcontacts.trans (by decide +kernel), hkeeps newUser hmem (by decide +kernel) ?_⟩
  unfold Textless
  decide

/-! ## Elements that are passed over -/

/-- No element is unknown, repeated where it must not be, or out of order. -/
def InOrder (es : List XmlNode) : Prop :=
  (∀ e ∈ es, e.value ∈ elementTags) ∧ es.Pairwise fun a b =>
    place a ≠ 0 ∧ (place a < place b ∨ place a = place b ∧ 3 ≤ place a)

instance (es : List XmlNode) : Decidable (InOrder es) := inferInstanceAs (Decidable (_ ∧ _))

/-- A user that is there twice, without a text, is not an error, and neither is a parameter
without a value; and a new host takes the port away. -/
theorem not_none_of_not_inOrder :
    (¬ ∀ (junk : Byte) (r : Replacements) (requestUri : Url) (vdigits : Text) (es : List XmlNode),
      ¬ InOrder es → doTransform junk r requestUri vdigits []
        (.element (text "permissionMatch") [] [.element (text "transform") [] es]) =
          some ([], false)) ∧
    (¬ ∀ (junk : Byte) (r : Replacements) (requestUri : Url) (vdigits : Text) (e : XmlNode),
      e.value ∈ elementTags.drop 3 → (getNamedAttribute e).2 = [] →
        doTransform junk r requestUri vdigits []
          (.element (text "permissionMatch") [] [.element (text "transform") [] [e]]) =
            some ([], false)) ∧
    ¬ ∀ (junk : Byte) (r : Replacements) (requestUri : Url) (vdigits : Text) (n : XmlNode),
      IsAccepted (substituted junk r requestUri vdigits) (elementsOf n) →
        Textless "url" (elementsOf n) →
          (transformed junk r requestUri vdigits n).hostPort = requestUri.hostPort := by
  refine ⟨fun h => ?_, fun h => ?_, fun h => ?_⟩
  · have hnone := h 0 ⟨[], [], []⟩ {} []
      [.element (text "user") [] [], .element (text "user") [] []] (by decide)
    exact absurd hnone (by decide)
  · have hnone := h 0 ⟨[], [], []⟩ {} [] (.element (text "urlparams") [] [.text (text "lr")])
      (by decide) (by decide)
    exact absurd hnone (by decide)
  · have hport := h 0 ⟨[], [], []⟩ { hostPort := 5080 } []
      (.element (text "transform") [] [.element (text "host") [] [.text (text "example.org")]])
      (by decide +kernel) (by unfold Textless; decide)
    exact absurd hport (by decide +kernel)

end Transforms

end UrlMapping

end SipXRouter
