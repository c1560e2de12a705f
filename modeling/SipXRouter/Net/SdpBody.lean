import SipXRouter.Net.SubFieldScan
import SipXRouter.Net.XmlRpcBody

/-!
# Session descriptions

The fields of an `SdpBody` are a list of names and values.  An `m` field starts a
media section; the accessors position an iterator at the `i`-th of them and read the
field, or go on from there.
-/

namespace SipXRouter

/-- A `NameValuePair` of `sdpFields`. -/
structure SdpField where
  name : Text
  value : Text
deriving DecidableEq

/-- `sdpFields`. -/
abbrev SdpBody := List SdpField

namespace SdpBody

/-! ## Fields -/

/-- `MAXIMUM_MEDIA_TYPES`. -/
def maximumMediaTypes : Nat := 20

/-- `SDP_SUBFIELD_SEPARATORS`. -/
def subfieldSeparators : Text := text "\t "

def attributeSeparators : Text := text " \t:/"

def audioMediaType : Text := text "audio"

def videoMediaType : Text := text "video"

/-- A subfield, in a string that held `old`. -/
def subField (value : Text) (index : Nat) (separators old : Text) : Bool × Text :=
  NameValueTokenizer.getSubFieldText value index separators false old

def atoi (s : Text) : Int := (XmlRpc.atoi s).toInt

/-- `findNext` of an iterator: the next field of a name, and what is left behind it. -/
def findNext (name : Text) : SdpBody → Option (Text × SdpBody)
  | [] => none
  | field :: rest => if field.name = name then some (field.value, rest) else findNext name rest

/-- The loop of `positionFieldInstance`.  A search that fails leaves the iterator where it
was. -/
def positionFrom (name : Text) : (instances : Nat) → SdpBody → Option Text × SdpBody
  | 0, rest =>
    match findNext name rest with
    | none => (none, rest)
    | some (value, rest) => (some value, rest)
  | n + 1, rest =>
    match findNext name rest with
    | none => (none, rest)
    | some (_, rest) => positionFrom name n rest

/-- `positionFieldInstance`: the field, and what the iterator has left. -/
def positionFieldInstance (body : SdpBody) (fieldInstanceIndex : Int) (name : Text) :
    Option Text × SdpBody :=
  if 0 ≤ fieldInstanceIndex then positionFrom name fieldInstanceIndex.toNat body else (none, body)

/-- `findFieldNameBefore`, as the fields up to the next one of a name. -/
def fieldsBefore (name : Text) (rest : SdpBody) : SdpBody := rest.takeWhile (·.name ≠ name)

/-- The values of the `m` fields. -/
def mediaLines (body : SdpBody) : List Text :=
  (body.filter (·.name = text "m")).map (·.value)

/-! ## Sections -/

def getMediaSetCount (body : SdpBody) : Nat := body.mediaLines.length

/-- The loop of `findMediaType` over what is left. -/
def findMediaFrom (mediaType : Text) : (index : Int) → SdpBody → Int
  | _, [] => -1
  | index, field :: rest =>
    if field.name = text "m" then
      if mediaType.isPrefixOf field.value then index else findMediaFrom mediaType (index + 1) rest
    else findMediaFrom mediaType index rest

/-- The number of the first section of a type from a number on, or `-1`. -/
def findMediaType (body : SdpBody) (mediaType : Text) (startMediaIndex : Int) : Int :=
  match body.positionFieldInstance startMediaIndex (text "m") with
  | (none, _) => -1
  | (some value, rest) =>
    if mediaType.isPrefixOf value then startMediaIndex
    else findMediaFrom mediaType (startMediaIndex + 1) rest

/-- `getMediaSubfield`; no subfield is an empty one. -/
def getMediaSubfield (body : SdpBody) (mediaIndex : Int) (subfieldIndex : Nat) : Text :=
  match (body.positionFieldInstance mediaIndex (text "m")).1 with
  | none => []
  | some value => (subField value subfieldIndex subfieldSeparators []).2

/-- `getMediaPort`, in a variable that held `old`. -/
def getMediaPort (body : SdpBody) (mediaIndex old : Int) : Int :=
  let portString := body.getMediaSubfield mediaIndex 1
  if portString = [] then old else atoi (portString.takeWhile (· != byte '/'))

/-- `getMediaRtcpPort`, in a variable that held `old`: the port behind the port of the
section, or what the last `rtcp` attribute says. -/
def getMediaRtcpPort (body : SdpBody) (mediaIndex old : Int) : Int :=
  if body.getMediaSubfield mediaIndex 1 = [] then old
  else
    match body.positionFieldInstance mediaIndex (text "m") with
    | (none, _) => body.getMediaPort mediaIndex 0 + 1
    | (some _, rest) =>
      ((fieldsBefore (text "m") rest).filter (·.name = text "a")).foldl (fun port field =>
        if caseEq (subField field.value 0 (text ":") []).2 (text "rtcp") then
          atoi (subField field.value 1 (text ":") []).2
        else port) (body.getMediaPort mediaIndex 0 + 1)

/-- The loop of `getMediaPayloadType`. -/
def payloadTypesFrom (body : SdpBody) (mediaIndex : Int) : (fuel typeCount : Nat) → List Int
  | 0, _ => []
  | fuel + 1, typeCount =>
    let payloadType := body.getMediaSubfield mediaIndex (3 + typeCount)
    if payloadType = [] then []
    else atoi payloadType :: payloadTypesFrom body mediaIndex fuel (typeCount + 1)

/-- The payload types of a section, as many as the array takes. -/
def getMediaPayloadType (body : SdpBody) (mediaIndex : Int) (maxTypes : Nat) : List Int :=
  body.payloadTypesFrom mediaIndex maxTypes 0

/-- The address of a `c` field, if there is one. -/
def addressOf (fields : SdpBody) : Text :=
  match findNext (text "c") (fieldsBefore (text "m") fields) with
  | none => []
  | some (value, _) => (subField value 2 subfieldSeparators []).2

/-- `getMediaAddress`: the address of the section, or that of the description, without a
time to live. -/
def getMediaAddress (body : SdpBody) (mediaIndex : Int) : Text :=
  match body.positionFieldInstance mediaIndex (text "m") with
  | (none, _) => []
  | (some _, rest) =>
    let own := addressOf rest
    (if own = [] then addressOf body else own).takeWhile (· != byte '/')

/-! ## Sections by their number -/

theorem mediaLines_cons_of_media {field : SdpField} (h : field.name = text "m") (rest : SdpBody) :
    mediaLines (field :: rest) = field.value :: mediaLines rest := by
  simp [mediaLines, h]

theorem mediaLines_cons_of_other {field : SdpField} (h : ¬ field.name = text "m")
    (rest : SdpBody) : mediaLines (field :: rest) = mediaLines rest := by
  simp [mediaLines, h]

theorem findNext_media (rest : SdpBody) :
    (findNext (text "m") rest).map (fun p => p.1 :: mediaLines p.2) =
      if mediaLines rest = [] then none else some (mediaLines rest) := by
  induction rest with
  | nil => rfl
  | cons field rest ih =>
    rw [findNext]
    by_cases h : field.name = text "m"
    · rw [if_pos h, mediaLines_cons_of_media h, if_neg (List.cons_ne_nil _ _)]
      rfl
    · rw [if_neg h, ih, mediaLines_cons_of_other h]

theorem mediaLines_of_none {rest : SdpBody} (h : findNext (text "m") rest = none) :
    mediaLines rest = [] := by
  have hnext := findNext_media rest
  rw [h] at hnext
  by_contra hne
  rw [if_neg hne] at hnext
  cases hnext

theorem mediaLines_of_some {rest : SdpBody} {p : Text × SdpBody}
    (h : findNext (text "m") rest = some p) : mediaLines rest = p.1 :: mediaLines p.2 := by
  have hnext := findNext_media rest
  rw [h, Option.map_some] at hnext
  split at hnext
  · cases hnext
  · exact (Option.some_inj.mp hnext).symm

/-- The n-th media field is the n-th media line, and the others stand behind it. -/
theorem positionFrom_media (n : Nat) (rest : SdpBody) :
    (positionFrom (text "m") n rest).1 = (mediaLines rest)[n]? ∧
      (n < (mediaLines rest).length →
        mediaLines (positionFrom (text "m") n rest).2 = (mediaLines rest).drop (n + 1)) := by
  induction n generalizing rest with
  | zero =>
    rw [positionFrom]
    cases hfind : findNext (text "m") rest with
    | none =>
      rw [mediaLines_of_none hfind]
      exact ⟨rfl, fun h => absurd h (Nat.not_lt_zero _)⟩
    | some p =>
      rw [mediaLines_of_some hfind]
      exact ⟨rfl, fun _ => rfl⟩
  | succ n ih =>
    rw [positionFrom]
    cases hfind : findNext (text "m") rest with
    | none =>
      rw [mediaLines_of_none hfind]
      exact ⟨rfl, fun h => absurd h (Nat.not_lt_zero _)⟩
    | some p =>
      rw [mediaLines_of_some hfind]
      obtain ⟨hfirst, hrest⟩ := ih p.2
      exact ⟨hfirst, fun h => hrest (Nat.lt_of_succ_lt_succ h)⟩

/-! ## More fields -/

theorem findNext_append {name value : Text} {fields rest : SdpBody}
    (h : findNext name fields = some (value, rest)) (more : SdpBody) :
    findNext name (fields ++ more) = some (value, rest ++ more) := by
  induction fields with
  | nil => cases h
  | cons field fields ih =>
    rw [findNext] at h
    rw [List.cons_append, findNext]
    by_cases hname : field.name = name
    · rw [if_pos hname] at h ⊢
      cases h
      rfl
    · rw [if_neg hname] at h ⊢
      exact ih h

theorem positionFrom_append {name value : Text} (n : Nat) : ∀ {fields rest : SdpBody},
    positionFrom name n fields = (some value, rest) → ∀ more,
      positionFrom name n (fields ++ more) = (some value, rest ++ more) := by
  induction n with
  | zero =>
    intro fields rest h more
    rw [positionFrom] at h ⊢
    cases hfind : findNext name fields with
    | none => rw [hfind] at h; cases h
    | some p =>
      rw [hfind] at h
      cases h
      rw [findNext_append hfind]
  | succ n ih =>
    intro fields rest h more
    rw [positionFrom] at h ⊢
    cases hfind : findNext name fields with
    | none => rw [hfind] at h; cases h
    | some p =>
      rw [hfind] at h
      rw [findNext_append hfind]
      exact ih h more

end SdpBody

end SipXRouter
