import Mathlib.Algebra.BigOperators.Group.List.Basic
import SipXRouter.Net.SdpBody

/-!
# Codecs in common

For each payload type that is offered, `getCodecsInCommon` looks for local codecs of the
encoding that the offer maps the type to.  Where no tones are among the audio codecs, it adds
them with a payload type of its own.

## Design notes

A line that is too long for the tokenizer leaves the strings of the line before as they are.
For the encoding this is without effect, as that line was not the one looked for.
-/

namespace SipXRouter

open List

/-- An `SdpCodec`, as far as it is compared. -/
structure SdpCodec where
  codecType : Int
  codecPayloadFormat : Int
  mimeType : Text
  mimeSubtype : Text
  sampleRate : Int := 8000
  numChannels : Int := 1
  cpuCost : Int := 0
  videoFormat : Nat := 0
deriving DecidableEq

def SdpCodec.setCodecPayloadFormat (payloadFormat : Int) (c : SdpCodec) : SdpCodec :=
  { c with codecPayloadFormat := payloadFormat }

/-- The local codecs, and the limit for what they may cost. -/
structure SdpCodecFactory where
  mCodecs : List SdpCodec
  mCodecCPULimit : Int := 1

namespace SdpCodecFactory

variable (f : SdpCodecFactory)

def getCodecCount : Nat := f.mCodecs.countP fun c => c.cpuCost ≤ f.mCodecCPULimit

/-- `getCodec` by its encoding. -/
def getCodec (mimeType mimeSubType : Text) : Option SdpCodec :=
  f.mCodecs.find? fun c => c.mimeType = mimeType.map toLower ∧
    c.mimeSubtype = mimeSubType.map toLower ∧ c.cpuCost ≤ f.mCodecCPULimit

def getCodecByType (payloadTypeId : Int) : Option SdpCodec :=
  f.mCodecs.find? fun c => c.codecPayloadFormat = payloadTypeId ∧ c.cpuCost ≤ f.mCodecCPULimit

/-- `getCodecs` by an encoding, in its own case. -/
def getCodecs (mimeType subMimeType : Text) : List SdpCodec :=
  f.mCodecs.filter fun c => c.cpuCost ≤ f.mCodecCPULimit ∧ c.mimeType = mimeType ∧
    c.mimeSubtype = subMimeType

end SdpCodecFactory

/-- What an `rtpmap` attribute says; -1 stands for what it leaves open. -/
structure RtpMap where
  mimeSubtype : Text
  sampleRate : Int
  numChannels : Int
deriving DecidableEq

/-- A codec has the rate and the channels of the attribute. -/
def RtpMap.Fits (map : RtpMap) (c : SdpCodec) : Prop :=
  (c.sampleRate = map.sampleRate ∨ map.sampleRate = -1) ∧
    (c.numChannels = map.numChannels ∨ map.numChannels = -1)

instance (map : RtpMap) (c : SdpCodec) : Decidable (map.Fits c) :=
  inferInstanceAs (Decidable (_ ∧ _))

namespace SdpBody

variable (body : SdpBody) (f : SdpCodecFactory)

/-- The values of the `a` fields. -/
def attributes : List Text := (body.filter (·.name = text "a")).map (·.value)

/-- `getPayloadRtpMap`: the first `rtpmap` of the type, wherever it stands. -/
def getPayloadRtpMap (payloadType : Int) : Option RtpMap :=
  (body.attributes.find? fun value =>
    (subField value 0 attributeSeparators []).2 = text "rtpmap" ∧
      atoi (subField value 1 attributeSeparators []).2 = payloadType).map fun value =>
    let sampleRate := atoi (subField value 3 attributeSeparators []).2
    let numChannels := atoi (subField value 4 attributeSeparators []).2
    { mimeSubtype := (subField value 2 attributeSeparators []).2
      sampleRate := if sampleRate ≤ 0 then -1 else sampleRate
      numChannels := if numChannels ≤ 0 then -1 else numChannels }

/-- The bit of a picture size in the mask of a video codec. -/
def formatBit (format : Text) : Nat :=
  if format = text "CIF" then 4
  else if format = text "QCIF" then 2
  else if format = text "SQCIF" then 1
  else 0

/-- The loop over the subfields with formats. -/
def formatBits (value : Text) : (fuel index : Nat) → Nat
  | 0, _ => 0
  | fuel + 1, index =>
    let format := subField value index (text " \t/:") []
    formatBit format.2 ||| if format.1 then formatBits value fuel (index + 1) else 0

/-- `getPayloadFormat`: the formats of the last `fmtp` of the type. -/
def getPayloadFormat (payloadType : Int) : Nat :=
  (body.attributes.foldl (fun (aFieldType, payloadString, videoFmtp) value =>
    let aFieldType := (subField value 0 attributeSeparators aFieldType).2
    if aFieldType = text "fmtp" then
      let payloadString := (subField value 1 attributeSeparators payloadString).2
      (aFieldType, payloadString,
        if atoi payloadString = payloadType then
          if (subField value 3 (text " \t:") []).1 then formatBits value 4 3 else 0
        else videoFmtp)
    else (aFieldType, payloadString, videoFmtp)) ([], [], 0)).2.2

/-! ## The lists -/

/-- `SDP_CODEC_MAXIMUM_STATIC_CODEC`. -/
def maximumStaticCodec : Int := 95

/-- `SDP_CODEC_DEFAULT_TONES_CODEC`. -/
def defaultTonesCodec : Int := 101

/-- `SDP_CODEC_TONES`. -/
def tonesCodec : Int := 128

/-- The local codec for an audio payload type, by its map or by its static number. -/
def audioCodec (payloadType : Int) : Option SdpCodec :=
  match body.getPayloadRtpMap payloadType with
  | some map => (f.getCodec audioMediaType map.mimeSubtype).filter fun c => map.Fits c
  | none => if payloadType ≤ maximumStaticCodec then f.getCodecByType payloadType else none

/-- The local codecs for a video payload type. -/
def videoCodecs (payloadType : Int) : List SdpCodec :=
  match body.getPayloadRtpMap payloadType with
  | some map => (f.getCodecs videoMediaType map.mimeSubtype).filter fun c =>
    c.videoFormat &&& body.getPayloadFormat payloadType ≠ 0 ∧ map.Fits c
  | none =>
    if payloadType ≤ maximumStaticCodec then (f.getCodecByType payloadType).toList else []

/-- Whether an audio type is that of the tones, by its encoding. -/
def isTones (payloadType : Int) : Bool :=
  (body.getPayloadRtpMap payloadType).isSome &&
    (body.audioCodec f payloadType).any (·.codecType == tonesCodec)

/-- The variables of the loops. -/
structure InCommon where
  codecs : List SdpCodec := []
  matchingDtmf2833Found : Bool := false
  dynamicPayloadTypes : List Int := []
  preferDtmf2833PTused : Bool := false

/-- What both loops do with a payload type. -/
def InCommon.add (s : InCommon) (payloadType : Int) (codecs : List SdpCodec) (tones : Bool) :
    InCommon :=
  let found := s.matchingDtmf2833Found || tones
  let remember := !found && decide (maximumStaticCodec < payloadType)
  { codecs := s.codecs ++ codecs.map (SdpCodec.setCodecPayloadFormat payloadType)
    matchingDtmf2833Found := found
    dynamicPayloadTypes := s.dynamicPayloadTypes ++ if remember then [payloadType] else []
    preferDtmf2833PTused :=
      s.preferDtmf2833PTused || (remember && payloadType == defaultTonesCodec) }

/-- The search for a free payload type; 0 if there is none.  The loop compares with the number
of types instead of the type that it tries. -/
def freePayloadType (dynamicPayloadTypes : List Int) : Int :=
  let useThisPT := (((range 32).map fun i => (96 + i : Int)).find? fun _ =>
    !dynamicPayloadTypes.contains (dynamicPayloadTypes.length : Int)).getD defaultTonesCodec
  if useThisPT = defaultTonesCodec then 0 else useThisPT

/-- The payload type for the tones that are added, if they are. -/
def addedType (s : InCommon) : Option Int :=
  if s.matchingDtmf2833Found then none
  else
    let useThisPT :=
      if s.preferDtmf2833PTused then freePayloadType s.dynamicPayloadTypes else defaultTonesCodec
    if useThisPT = 0 then none else some useThisPT

/-- The entry for telephone events under a payload type. -/
def addedTones (payloadType : Int) : SdpCodec where
  codecType := tonesCodec
  codecPayloadFormat := payloadType
  mimeType := audioMediaType
  mimeSubtype := text "telephone-event"

/-- Both loops of `getCodecsInCommon`. -/
def collect (audioPayloadTypes videoPayloadTypes : List Int) : InCommon :=
  videoPayloadTypes.foldl (fun s t => s.add t (body.videoCodecs f t) false)
    (audioPayloadTypes.foldl
      (fun s t => s.add t (body.audioCodec f t).toList (body.isTones f t)) {})

/-- The codecs both sides have, with the entry for telephone events behind them. -/
def getCodecsInCommon (audioPayloadTypes videoPayloadTypes : List Int) : List SdpCodec :=
  let s := body.collect f audioPayloadTypes videoPayloadTypes
  s.codecs ++ (addedType s).toList.map addedTones

/-- The sizes of the arrays that the callers have for it: one of `getBestAudioCodecs`, and the
one of `addAudioCodecs`. -/
def arraySizes (audioPayloadTypes videoPayloadTypes : List Int) : List Nat :=
  [max f.getCodecCount (max audioPayloadTypes.length videoPayloadTypes.length), maximumMediaTypes]

/-! ## What should be in the list -/

/-- A local codec has the encoding of a type, or its number where that stands for one. -/
def Matches (mediaType : Text) (payloadType : Int) (c : SdpCodec) : Prop :=
  (∃ map, body.getPayloadRtpMap payloadType = some map ∧ c.mimeType = mediaType ∧
    (c.mimeSubtype = map.mimeSubtype ∨ c.mimeSubtype = map.mimeSubtype.map toLower) ∧ map.Fits c) ∨
  body.getPayloadRtpMap payloadType = none ∧ payloadType ≤ maximumStaticCodec ∧
    c.codecPayloadFormat = payloadType

/-- A copy of a local codec, with a type that it matches. -/
def IsCopy (mediaType : Text) (payloadTypes : List Int) (c : SdpCodec) : Prop :=
  ∃ t ∈ payloadTypes, ∃ c' ∈ f.mCodecs, c = c'.setCodecPayloadFormat t ∧
    body.Matches mediaType t c'

/-- The types that are not static. -/
def dynamicTypes (payloadTypes : List Int) : List Int :=
  payloadTypes.filter fun t => decide (maximumStaticCodec < t)

/-- The number of local codecs for the types. -/
def matchCount (audioPayloadTypes videoPayloadTypes : List Int) : Nat :=
  (audioPayloadTypes.map fun t => (body.audioCodec f t).toList.length).sum +
    (videoPayloadTypes.map fun t => (body.videoCodecs f t).length).sum

/-- Tones are added: none are among the audio types, and the search for a type, where there has
to be one, does not break off. -/
def AddsTones (audioPayloadTypes videoPayloadTypes : List Int) : Prop :=
  (∀ t ∈ audioPayloadTypes, body.isTones f t = false) ∧
    (defaultTonesCodec ∈ audioPayloadTypes ++ videoPayloadTypes →
      ((dynamicTypes (audioPayloadTypes ++ videoPayloadTypes)).length : Int) ∉
        dynamicTypes (audioPayloadTypes ++ videoPayloadTypes))

instance (audioPayloadTypes videoPayloadTypes : List Int) :
    Decidable (body.AddsTones f audioPayloadTypes videoPayloadTypes) :=
  inferInstanceAs (Decidable (_ ∧ _))

/-! ## What is in it -/

section

variable {body f}

theorem foldl_add (codecs : Int → List SdpCodec) (tones : Int → Bool) (payloadTypes : List Int)
    (s : InCommon) :
    let s' := payloadTypes.foldl (fun s t => s.add t (codecs t) (tones t)) s
    s'.codecs = s.codecs ++ payloadTypes.flatMap (fun t =>
        (codecs t).map (SdpCodec.setCodecPayloadFormat t)) ∧
      s'.matchingDtmf2833Found = (s.matchingDtmf2833Found || payloadTypes.any tones) ∧
      (s'.matchingDtmf2833Found = false →
        s'.dynamicPayloadTypes = s.dynamicPayloadTypes ++ dynamicTypes payloadTypes ∧
          s'.preferDtmf2833PTused =
            (s.preferDtmf2833PTused || payloadTypes.any (· == defaultTonesCodec))) := by
  induction payloadTypes generalizing s with
  | nil => simp [dynamicTypes]
  | cons t ts ih =>
    obtain ⟨hcodecs, hfound, hrest⟩ := ih (s.add t (codecs t) (tones t))
    refine ⟨?_, ?_, fun h => ?_⟩
    · rw [foldl_cons, hcodecs, flatMap_cons, ← append_assoc]
      rfl
    · rw [foldl_cons, hfound, any_cons, ← Bool.or_assoc]
      rfl
    · obtain ⟨hdynamic, hprefer⟩ := hrest h
      have hnone : (s.matchingDtmf2833Found || tones t) = false := by
        have hall := hfound.symm.trans h
        rw [Bool.or_eq_false_iff] at hall
        exact hall.1
      rw [foldl_cons, hdynamic, hprefer]
      simp only [InCommon.add, hnone, dynamicTypes, filter_cons, any_cons]
      by_cases hstatic : maximumStaticCodec < t
      · simp [hstatic, Bool.or_assoc]
      · have hne : (t == defaultTonesCodec) = false := by
          rw [beq_eq_false_iff_ne]
          rintro rfl
          exact hstatic (by decide)
        simp [hstatic, hne]

theorem freePayloadType_eq (dynamicPayloadTypes : List Int) : freePayloadType dynamicPayloadTypes =
    if (dynamicPayloadTypes.length : Int) ∈ dynamicPayloadTypes then 0 else 96 := by
  by_cases h : (dynamicPayloadTypes.length : Int) ∈ dynamicPayloadTypes
  · rw [if_pos h, freePayloadType]
    have hnone : ∀ ts : List Int, (ts.find? fun _ =>
        !dynamicPayloadTypes.contains (dynamicPayloadTypes.length : Int)) = none := by
      intro ts
      rw [find?_eq_none]
      simp [h]
    rw [hnone]
    rfl
  · rw [if_neg h, freePayloadType]
    have hfirst : ((range 32).map fun i => (96 + i : Int)) =
        96 :: ((range' 1 31).map fun i => (96 + i : Int)) := by decide
    rw [hfirst, find?_cons_of_pos (by simp [h])]
    rfl

theorem codecs_collect (audio video : List Int) : (body.collect f audio video).codecs =
    audio.flatMap (fun t => (body.audioCodec f t).toList.map (·.setCodecPayloadFormat t)) ++
      video.flatMap (fun t => (body.videoCodecs f t).map (·.setCodecPayloadFormat t)) := by
  obtain ⟨hcodecs, -, -⟩ :=
    foldl_add (fun t => (body.audioCodec f t).toList) (body.isTones f) audio {}
  obtain ⟨hcodecs', -, -⟩ := foldl_add (body.videoCodecs f) (fun _ => false) video
    (audio.foldl (fun s t => s.add t (body.audioCodec f t).toList (body.isTones f t)) {})
  rw [collect, hcodecs', hcodecs]
  rfl

/-- The type that is added for the tones is the default one, or 96 where that is taken. -/
theorem addedType_collect (audio video : List Int) :
    addedType (body.collect f audio video) =
      if body.AddsTones f audio video then
        some (if defaultTonesCodec ∈ audio ++ video then 96 else defaultTonesCodec)
      else none := by
  obtain ⟨-, hfound, haudio⟩ :=
    foldl_add (fun t => (body.audioCodec f t).toList) (body.isTones f) audio {}
  obtain ⟨-, hfound', hvideo⟩ := foldl_add (body.videoCodecs f) (fun _ => false) video
    (audio.foldl (fun s t => s.add t (body.audioCodec f t).toList (body.isTones f t)) {})
  have hnone : (video.any fun _ => false) = false := by simp
  rw [hnone, Bool.or_false] at hfound'
  rw [addedType, collect, hfound', hfound, Bool.false_or]
  by_cases htones : audio.any (body.isTones f) = true
  · have hno : ¬ body.AddsTones f audio video := by
      intro h
      obtain ⟨t, ht, htrue⟩ := any_eq_true.mp htones
      rw [h.1 t ht] at htrue
      exact absurd htrue (by decide)
    rw [if_pos htones, if_neg hno]
  · have hall : ∀ t ∈ audio, body.isTones f t = false := by simpa using htones
    rw [Bool.not_eq_true] at htones
    rw [htones, Bool.or_false] at hfound
    obtain ⟨hdynamic, hprefer⟩ := haudio hfound
    obtain ⟨hdynamic', hprefer'⟩ := hvideo (hfound'.trans hfound)
    have htypes : dynamicTypes audio ++ dynamicTypes video = dynamicTypes (audio ++ video) :=
      (filter_append ..).symm
    rw [hdynamic', hdynamic, hprefer', hprefer, nil_append, htypes, freePayloadType_eq,
      Bool.false_or, ← any_append, htones, if_neg Bool.false_ne_true]
    by_cases hused : defaultTonesCodec ∈ audio ++ video
    · have hany : ((audio ++ video).any (· == defaultTonesCodec)) = true :=
        any_eq_true.mpr ⟨_, hused, beq_self_eq_true _⟩
      rw [hany, if_pos rfl, if_pos hused]
      by_cases hlength :
          ((dynamicTypes (audio ++ video)).length : Int) ∈ dynamicTypes (audio ++ video)
      · rw [if_pos hlength, if_pos rfl, if_neg fun h => h.2 hused hlength]
      · rw [if_neg hlength, if_neg (by decide), if_pos ⟨hall, fun _ => hlength⟩]
    · have hany : ((audio ++ video).any (· == defaultTonesCodec)) = false := by
        rw [any_eq_false]
        rintro t ht heq
        rw [eq_of_beq heq] at ht
        exact hused ht
      rw [hany, if_neg Bool.false_ne_true, if_neg (by decide), if_neg hused,
        if_pos ⟨hall, fun h => absurd h hused⟩]

theorem isCopy_audioCodec {t : Int} {audio : List Int} (ht : t ∈ audio) {c : SdpCodec}
    (hc : body.audioCodec f t = some c) :
    body.IsCopy f audioMediaType audio (c.setCodecPayloadFormat t) := by
  refine ⟨t, ht, c, ?_⟩
  rw [audioCodec] at hc
  cases hmap : body.getPayloadRtpMap t with
  | none =>
    simp only [hmap] at hc
    split at hc
    · rename_i hstatic
      have hformat := find?_some hc
      rw [decide_eq_true_iff] at hformat
      exact ⟨mem_of_find?_eq_some hc, rfl, .inr ⟨hmap, hstatic, hformat.1⟩⟩
    · cases hc
  | some map =>
    simp only [hmap] at hc
    obtain ⟨hfound, hfits⟩ := Option.filter_eq_some_iff.mp hc
    have hencoding := find?_some hfound
    rw [decide_eq_true_iff] at hencoding hfits
    exact ⟨mem_of_find?_eq_some hfound, rfl,
      .inl ⟨map, hmap, hencoding.1, .inr hencoding.2.1, hfits⟩⟩

theorem isCopy_videoCodecs {t : Int} {video : List Int} (ht : t ∈ video) {c : SdpCodec}
    (hc : c ∈ body.videoCodecs f t) :
    body.IsCopy f videoMediaType video (c.setCodecPayloadFormat t) := by
  refine ⟨t, ht, c, ?_⟩
  rw [videoCodecs] at hc
  cases hmap : body.getPayloadRtpMap t with
  | none =>
    simp only [hmap] at hc
    split at hc
    · rename_i hstatic
      rw [Option.mem_toList] at hc
      have hformat := find?_some hc
      rw [decide_eq_true_iff] at hformat
      exact ⟨mem_of_find?_eq_some hc, rfl, .inr ⟨hmap, hstatic, hformat.1⟩⟩
    · cases hc
  | some map =>
    simp only [hmap] at hc
    obtain ⟨hfound, hfits⟩ := mem_filter.mp hc
    obtain ⟨hlocal, hencoding⟩ := mem_filter.mp hfound
    rw [decide_eq_true_iff] at hencoding hfits
    exact ⟨hlocal, rfl, .inl ⟨map, hmap, hencoding.2.1, .inl hencoding.2.2, hfits.2⟩⟩

/-- **What is in the list**: copies of local codecs that match, and the tones that are added. -/
theorem isCopy_of_mem_getCodecsInCommon {audio video : List Int} {c : SdpCodec}
    (hc : c ∈ body.getCodecsInCommon f audio video) :
    body.IsCopy f audioMediaType audio c ∨ body.IsCopy f videoMediaType video c ∨
      ∃ t, addedType (body.collect f audio video) = some t ∧ c = addedTones t := by
  rw [getCodecsInCommon, codecs_collect, append_assoc, mem_append, mem_append] at hc
  rcases hc with hc | hc | hc
  · obtain ⟨t, ht, hc⟩ := mem_flatMap.mp hc
    obtain ⟨c, hcodec, rfl⟩ := mem_map.mp hc
    exact .inl (isCopy_audioCodec ht (Option.mem_toList.mp hcodec))
  · obtain ⟨t, ht, hc⟩ := mem_flatMap.mp hc
    obtain ⟨c, hcodec, rfl⟩ := mem_map.mp hc
    exact .inr (.inl (isCopy_videoCodecs ht hcodec))
  · obtain ⟨t, ht, rfl⟩ := mem_map.mp hc
    exact .inr (.inr ⟨t, Option.mem_toList.mp ht, rfl⟩)

theorem length_getCodecsInCommon (audio video : List Int) :
    (body.getCodecsInCommon f audio video).length =
      body.matchCount f audio video + if body.AddsTones f audio video then 1 else 0 := by
  rw [getCodecsInCommon, length_append, codecs_collect, addedType_collect, length_append,
    length_flatMap, length_flatMap, matchCount]
  simp only [length_map]
  split <;> rfl

end

/-! ## When the list is as it should be -/

/-- **`getCodecsInCommon`** stays in the arrays of its callers, gives copies of local codecs
that match, and adds a type that is free, exactly if there are not too many local codecs that
match and not both types that can be added are taken. -/
theorem getCodecsInCommon_fits_and_fresh_iff (audio video : List Int) :
    ((∀ size ∈ arraySizes f audio video, (body.getCodecsInCommon f audio video).length ≤ size) ∧
      (∀ c ∈ body.getCodecsInCommon f audio video,
        body.IsCopy f audioMediaType audio c ∨ body.IsCopy f videoMediaType video c ∨
          ∃ t, addedType (body.collect f audio video) = some t ∧ c = addedTones t) ∧
      ∀ t, addedType (body.collect f audio video) = some t → t ∉ audio ++ video) ↔
    (∀ size ∈ arraySizes f audio video,
      (body.matchCount f audio video + if body.AddsTones f audio video then 1 else 0) ≤ size) ∧
      ¬ (body.AddsTones f audio video ∧ defaultTonesCodec ∈ audio ++ video ∧
        96 ∈ audio ++ video) := by
  rw [length_getCodecsInCommon, and_iff_right fun _ => isCopy_of_mem_getCodecsInCommon,
    addedType_collect]
  refine and_congr_right' ?_
  by_cases hadds : body.AddsTones f audio video
  · rw [if_pos hadds, and_iff_right hadds]
    by_cases hused : defaultTonesCodec ∈ audio ++ video
    · rw [if_pos hused, and_iff_right hused]
      exact ⟨fun h => h 96 rfl, fun h t ht => Option.some_inj.mp ht ▸ h⟩
    · rw [if_neg hused]
      exact iff_of_true (fun t ht => Option.some_inj.mp ht ▸ hused) fun h => hused h.1
  · rw [if_neg hadds]
    exact iff_of_true (fun t ht => absurd ht (by simp)) fun h => hadds h.1

/-- PCMU alone, offered and local: the tones are one codec too many. -/
theorem not_getCodecsInCommon_fits :
    ¬ ∀ (body : SdpBody) (f : SdpCodecFactory) (audio video : List Int),
      ∀ size ∈ arraySizes f audio video, (body.getCodecsInCommon f audio video).length ≤ size := by
  intro h
  have hone := h [] ⟨[⟨0, 0, text "audio", text "pcmu", 8000, 1, 0, 0⟩], 1⟩ [0] [] 1 (by decide)
  exact absurd hone (by decide)

end SdpBody

end SipXRouter
