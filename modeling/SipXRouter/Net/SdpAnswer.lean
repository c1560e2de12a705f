import SipXRouter.Net.SdpBestCodecs

/-!
# Answers

`addAudioCodecs` with a request answers the sections of an offer: it writes the ones that it
does not support while it goes through them, keeps what the last audio and the last video
section say, and writes one section for each of the two behind the others.

## Design notes

A section of the answer is its `m` field and its direction; the rest of its attributes is left
out.  It carries the number of the section that it was made from.
-/

namespace SipXRouter

open List

/-- The directions of a medium. -/
inductive SdpDirectionality where
  | inactive | sendOnly | recvOnly | sendRecv
deriving DecidableEq

namespace SdpDirectionality

/-- `sdpDirectionalityStrings`. -/
def string : SdpDirectionality → Text
  | inactive => text "inactive"
  | sendOnly => text "sendonly"
  | recvOnly => text "recvonly"
  | sendRecv => text "sendrecv"

/-- `sdpDirectionalityReverse`. -/
def reverse : SdpDirectionality → SdpDirectionality
  | inactive => inactive
  | sendOnly => recvOnly
  | recvOnly => sendOnly
  | sendRecv => sendRecv

end SdpDirectionality

namespace SdpBody

/-- What `getMediaData` reads. -/
structure MediaData where
  mediaType : Text
  mediaPort : Int
  mediaPortPairs : Int
  mediaTransportType : Text
  payloadTypes : List Int
  directionality : SdpDirectionality
deriving DecidableEq

/-- A section of the answer, with the section that it answers. -/
structure AnswerLine extends MediaData where
  origin : Option Nat
deriving DecidableEq

section

variable (body : SdpBody)

/-- The direction of a section: the first attribute behind its `m` line that names one. -/
def getMediaDirection (mediaIndex : Int) : Option SdpDirectionality :=
  match body.positionFieldInstance mediaIndex (text "m") with
  | (none, _) => none
  | (some _, rest) =>
    ((fieldsBefore (text "m") rest).filter (·.name = text "a")).findSome? fun field =>
      [SdpDirectionality.inactive, .sendOnly, .recvOnly, .sendRecv].find?
        (field.value = ·.string)

/-- What a string holds after a subfield of each of the values in turn has been read into it.  A
value over the limit leaves what was there. -/
def heldText (index : Nat) (values : List Text) : Text :=
  values.foldl (fun old value => (subField value index subfieldSeparators old).2) []

/-- `getMediaData` in the loop over the sections, whose strings for the media type and the transport
hold what was read of the sections before. -/
def getMediaData (mediaIndex : Int) : Option MediaData :=
  (body.positionFieldInstance mediaIndex (text "m")).1.map fun value =>
    let sections := body.mediaLines.take (mediaIndex.toNat + 1)
    let portString := (subField value 1 subfieldSeparators []).2
    let portPairString := (portString.dropWhile (· != byte '/')).drop 1
    { mediaType := heldText 0 sections
      mediaPort := if portString = [] then 0 else atoi (portString.takeWhile (· != byte '/'))
      mediaPortPairs :=
        if portString = [] then 0 else if portPairString = [] then 1 else atoi portPairString
      mediaTransportType := heldText 2 sections
      payloadTypes := body.getMediaPayloadType mediaIndex maximumMediaTypes
      directionality := (body.getMediaDirection mediaIndex).getD .sendRecv }

end

/-- The check for what is not supported. -/
def MediaData.isSupported (d : MediaData) : Bool :=
  (d.mediaType == audioMediaType || d.mediaType == videoMediaType) &&
    decide (0 < d.mediaPort) && decide (0 < d.mediaPortPairs) &&
      (d.mediaTransportType == text "RTP/AVP" || d.mediaTransportType == text "RTP/SAVP")

/-- A section and its number. -/
abbrev Offered := Nat × MediaData

/-- A section that is rejected. -/
def reject (o : Offered) : AnswerLine :=
  { o.2 with mediaPort := 0, directionality := .inactive, origin := some o.1 }

/-- The variables of the loop over the sections. -/
structure OfferScan where
  lines : List AnswerLine := []
  audio : Option Offered := none
  video : Option Offered := none

/-- One turn of the loop. -/
def OfferScan.step (s : OfferScan) (o : Offered) : OfferScan :=
  if o.2.isSupported then
    if o.2.mediaType = audioMediaType then { s with audio := some o }
    else { s with video := some o }
  else { s with lines := s.lines ++ [reject o] }

/-- The loop over the sections, which ends where there is none. -/
def scanOffer (sdpRequest : SdpBody) : (fuel mediaIndex : Nat) → OfferScan → OfferScan
  | 0, _, s => s
  | fuel + 1, mediaIndex, s =>
    match sdpRequest.getMediaData mediaIndex with
    | none => s
    | some d => scanOffer sdpRequest fuel (mediaIndex + 1) (s.step (mediaIndex, d))

/-- The payload types of a section, none where no section was kept. -/
def typesOf (kept : Option Offered) : List Int := kept.elim [] (·.2.payloadTypes)

def audioTypes (codecsInCommon : List SdpCodec) : List Int :=
  (codecsInCommon.filter (·.mimeType = audioMediaType)).map (·.codecPayloadFormat)

/-- The video types of the answer: one for each run of codecs with the same encoding. -/
def videoTypes (codecsInCommon : List SdpCodec) : List Int :=
  ((codecsInCommon.filter (·.mimeType = videoMediaType)).foldl (fun (prevMimeSubType, types) c =>
    if prevMimeSubType = c.mimeSubtype then (prevMimeSubType, types)
    else (c.mimeSubtype, types ++ [c.codecPayloadFormat])) (text "none", [])).2

/-- Whether video is among the codecs in common. -/
def commonVideo (codecsInCommon : List SdpCodec) : Bool :=
  codecsInCommon.any (·.mimeType = videoMediaType)

/-- A section made from what was kept of the offer. -/
def answerLine (mediaType : Text) (kept : Option Offered) (mediaPort mediaPortPairs : Int)
    (payloadTypes : List Int) (directionality : SdpDirectionality) : AnswerLine where
  mediaType := mediaType
  mediaPort := mediaPort
  mediaPortPairs := mediaPortPairs
  mediaTransportType := kept.elim [] (·.2.mediaTransportType)
  payloadTypes := payloadTypes
  directionality := directionality
  origin := kept.map (·.1)

/-- The direction that is answered. -/
def reversed (kept : Option Offered) : SdpDirectionality :=
  (kept.elim .sendRecv (·.2.directionality)).reverse

section

variable (sdpRequest : SdpBody) (f : SdpCodecFactory)

/-- The sections as they were kept. -/
def offerScan : OfferScan := sdpRequest.scanOffer (sdpRequest.length + 1) 0 {}

/-- The codecs in common. -/
def answerCodecs : List SdpCodec :=
  sdpRequest.getCodecsInCommon f (typesOf sdpRequest.offerScan.audio)
    (typesOf sdpRequest.offerScan.video)

/-- The sections that `addAudioCodecs` adds. -/
def addAudioCodecs (rtpAudioPort rtpVideoPort : Int) : List AnswerLine :=
  let s := sdpRequest.offerScan
  let codecs := sdpRequest.answerCodecs f
  s.lines ++
    if codecs ≠ [] then
      answerLine audioMediaType s.audio rtpAudioPort 1 (audioTypes codecs) (reversed s.audio) ::
        if commonVideo codecs then
          [answerLine videoMediaType s.video rtpVideoPort 1 (videoTypes codecs) (reversed s.video)]
        else []
    else
      [answerLine audioMediaType s.audio 0 (s.audio.elim 0 (·.2.mediaPortPairs))
          (typesOf s.audio) .inactive,
        answerLine videoMediaType s.video 0 (s.video.elim 0 (·.2.mediaPortPairs))
          (typesOf s.video) .inactive]

/-- The payload type of the tones that are added, if they are. -/
def answerTones : Option Int :=
  addedType (sdpRequest.collect f (typesOf sdpRequest.offerScan.audio)
    (typesOf sdpRequest.offerScan.video))

/-- The first subfield of a line, however long the line is. -/
def firstSubfield (value : Text) : Text :=
  let fieldLen := (cString value).length
  match NameValueTokenizer.getSubFieldAt value fieldLen 0 subfieldSeparators false with
  | some sub => if 0 < sub.subFieldLength then sub.value value else []
  | none => []

/-- The media type of a section as it is written. -/
def writtenType (i : Nat) : Text := sdpRequest.mediaLines[i]?.elim [] firstSubfield

/-- A section answers one of the offer. -/
structure Answers (line : AnswerLine) (i : Nat) (d : MediaData) : Prop where
  mediaType : line.mediaType = sdpRequest.writtenType i
  refused : d.isSupported = false → line.mediaPort = 0
  accepted : line.mediaPort ≠ 0 → line.directionality = d.directionality.reverse ∧
    ∀ t ∈ line.payloadTypes, t ∈ d.payloadTypes ∨ sdpRequest.answerTones f = some t

/-- The sections of the answer are those of the offer, in the same order. -/
def Mirrors (rtpAudioPort rtpVideoPort : Int) : Prop :=
  let answer := sdpRequest.addAudioCodecs f rtpAudioPort rtpVideoPort
  answer.map (·.origin) = (range sdpRequest.getMediaSetCount).map some ∧
    ∀ line ∈ answer, ∀ (i : Nat) (d : MediaData), line.origin = some i →
      sdpRequest.getMediaData i = some d → sdpRequest.Answers f line i d

/-! ## The sections of an offer -/

/-- The sections, with their numbers. -/
def offered : List Offered :=
  (range sdpRequest.getMediaSetCount).filterMap fun i : Nat =>
    (sdpRequest.getMediaData i).map (i, ·)

/-- An audio section that is supported, and a video section. -/
def IsAccepted (mediaType : Text) (o : Offered) : Prop :=
  o.2.isSupported = true ∧ o.2.mediaType = mediaType

instance (mediaType : Text) (o : Offered) : Decidable (IsAccepted mediaType o) :=
  inferInstanceAs (Decidable (_ ∧ _))

/-- Nothing that is supported stands in front of the one audio section, and of the one video
section, if there is video in common, that end the offer. -/
def InOrder : Prop :=
  ∃ front audio, (∀ o ∈ front, o.2.isSupported = false) ∧ IsAccepted audioMediaType audio ∧
    if commonVideo (sdpRequest.answerCodecs f) = true then
      ∃ video, IsAccepted videoMediaType video ∧ sdpRequest.offered = front ++ [audio, video]
    else sdpRequest.offered = front ++ [audio]

/-- A section whose line is too long to be read has the media type that was read of the one
before. -/
def LongAlike : Prop :=
  ∀ i value, sdpRequest.mediaLines[i]? = some value →
    NameValueTokenizer.maxFieldLength < (cString value).length →
      heldText 0 (sdpRequest.mediaLines.take i) = firstSubfield value

/-- The local codecs that the types of the audio section stand for. -/
def audioCopies : List SdpCodec :=
  (typesOf sdpRequest.offerScan.audio).flatMap fun t =>
    (sdpRequest.audioCodec f t).toList.map (SdpCodec.setCodecPayloadFormat t)

/-- No type of one section stands for a codec of the other media type, unless it is offered in
both. -/
structure Apart (rtpAudioPort rtpVideoPort : Int) : Prop where
  audio : rtpAudioPort ≠ 0 → ∀ t ∈ typesOf sdpRequest.offerScan.video,
    ∀ c ∈ sdpRequest.videoCodecs f t, c.mimeType = audioMediaType →
      t ∈ typesOf sdpRequest.offerScan.audio ∨ sdpRequest.answerTones f = some t
  video : rtpVideoPort ≠ 0 → ∀ t ∈ videoTypes (sdpRequest.audioCopies f),
    t ∈ typesOf sdpRequest.offerScan.video ∨ sdpRequest.answerTones f = some t

section

variable {sdpRequest f}

theorem getMediaData_eq_none_iff (i : Nat) :
    sdpRequest.getMediaData i = none ↔ sdpRequest.getMediaSetCount ≤ i := by
  rw [getMediaData, Option.map_eq_none_iff, positionFieldInstance, if_pos (Int.natCast_nonneg i),
    Int.toNat_natCast, (positionFrom_media i sdpRequest).1, List.getElem?_eq_none_iff]
  rfl

/-- The loop goes over all sections. -/
theorem scanOffer_eq (fuel : Nat) : ∀ (i : Nat) (s : OfferScan),
    sdpRequest.getMediaSetCount < i + fuel → sdpRequest.scanOffer fuel i s =
      ((range' i (sdpRequest.getMediaSetCount - i)).filterMap fun i : Nat =>
        (sdpRequest.getMediaData i).map (i, ·)).foldl OfferScan.step s := by
  induction fuel with
  | zero =>
    intro i s h
    rw [Nat.sub_eq_zero_of_le (by omega)]
    rfl
  | succ fuel ih =>
    intro i s h
    rw [scanOffer]
    cases hd : sdpRequest.getMediaData i with
    | none =>
      rw [Nat.sub_eq_zero_of_le ((getMediaData_eq_none_iff i).mp hd)]
      rfl
    | some d =>
      have hlt : ¬ sdpRequest.getMediaSetCount ≤ i := by
        rw [← getMediaData_eq_none_iff, hd]
        exact Option.some_ne_none d
      have hcount : sdpRequest.getMediaSetCount - i =
          sdpRequest.getMediaSetCount - (i + 1) + 1 := by omega
      rw [hcount, range'_succ, filterMap_cons, hd]
      exact ih (i + 1) (s.step (i, d)) (by omega)

/-- What the loop keeps. -/
theorem foldl_step (os : List Offered) : os.foldl OfferScan.step {} =
    { lines := (os.filter fun o => !o.2.isSupported).map reject
      audio := (os.filter fun o => o.2.isSupported && o.2.mediaType == audioMediaType).getLast?
      video :=
        (os.filter fun o => o.2.isSupported && !o.2.mediaType == audioMediaType).getLast? } := by
  induction os using reverseRecOn with
  | nil => rfl
  | append_singleton os o ih =>
    rw [foldl_append, ih, foldl_cons, foldl_nil, OfferScan.step]
    simp only [filter_append, filter_singleton]
    by_cases hsupported : o.2.isSupported = true
    · by_cases haudio : o.2.mediaType = audioMediaType
      · simp [hsupported, haudio]
      · simp [hsupported, haudio, beq_eq_false_iff_ne.mpr haudio]
    · simp [hsupported]

theorem offerScan_eq : sdpRequest.offerScan = sdpRequest.offered.foldl OfferScan.step {} := by
  have hcount : sdpRequest.getMediaSetCount < 0 + (sdpRequest.length + 1) := by
    have hle := length_filter_le (fun field => decide (field.name = text "m")) sdpRequest
    rw [getMediaSetCount, mediaLines, length_map]
    omega
  rw [offerScan, scanOffer_eq _ _ _ hcount, offered, range_eq_range', Nat.sub_zero]

theorem mem_offered_iff {o : Offered} :
    o ∈ sdpRequest.offered ↔ sdpRequest.getMediaData o.1 = some o.2 := by
  rw [offered, mem_filterMap]
  constructor
  · rintro ⟨i, -, h⟩
    obtain ⟨d, hd, rfl⟩ := Option.map_eq_some_iff.mp h
    exact hd
  · intro h
    refine ⟨o.1, mem_range.mpr (Nat.lt_of_not_le fun hle => ?_), by rw [h]; rfl⟩
    rw [(getMediaData_eq_none_iff o.1).mpr hle] at h
    cases h

theorem map_fst_offered : sdpRequest.offered.map (·.1) = range sdpRequest.getMediaSetCount := by
  have hsome : ∀ i ∈ range sdpRequest.getMediaSetCount,
      ((sdpRequest.getMediaData i).map ((i, ·) : MediaData → Offered)).map (·.1) = some i := by
    intro i hi
    have hlt := mem_range.mp hi
    cases hd : sdpRequest.getMediaData i with
    | none => exact absurd ((getMediaData_eq_none_iff i).mp hd) (by omega)
    | some d => rfl
  rw [offered, map_filterMap, filterMap_congr hsome, filterMap_some]

/-- What is read of a section is its media type, where the line is not too long. -/
theorem longAlike_iff : sdpRequest.LongAlike ↔
    ∀ o ∈ sdpRequest.offered, o.2.mediaType = sdpRequest.writtenType o.1 := by
  have hread (i : Nat) (value : Text) (hvalue : sdpRequest.mediaLines[i]? = some value) :
      heldText 0 (sdpRequest.mediaLines.take (i + 1)) = sdpRequest.writtenType i ↔
        (NameValueTokenizer.maxFieldLength < (cString value).length →
          heldText 0 (sdpRequest.mediaLines.take i) = firstSubfield value) := by
    rw [take_add_one, hvalue, heldText, foldl_append, writtenType, hvalue]
    show (subField value 0 subfieldSeparators (heldText 0 _)).2 = firstSubfield value ↔ _
    rw [subField, NameValueTokenizer.getSubFieldText]
    by_cases hlong : NameValueTokenizer.maxFieldLength < (cString value).length
    · simp only [if_pos hlong, forall_prop_of_true hlong]
    · simp only [if_neg hlong, forall_prop_of_false hlong, firstSubfield, iff_true]
      split <;> simp_all
  constructor
  · intro h o ho
    obtain ⟨value, hvalue, hd⟩ := Option.map_eq_some_iff.mp (mem_offered_iff.mp ho)
    rw [positionFieldInstance, if_pos (Int.natCast_nonneg _), Int.toNat_natCast,
      (positionFrom_media o.1 sdpRequest).1] at hvalue
    rw [← hd]
    exact (hread o.1 value hvalue).mpr (h o.1 value hvalue)
  · intro h i value hvalue
    cases hd : sdpRequest.getMediaData i with
    | none =>
      have hlt := (List.getElem?_eq_some_iff.mp hvalue).1
      exact absurd ((getMediaData_eq_none_iff i).mp hd) (Nat.not_le_of_lt hlt)
    | some d =>
      have htype := h (i, d) (mem_offered_iff.mpr hd)
      obtain ⟨_, _, hread'⟩ := Option.map_eq_some_iff.mp hd
      rw [← hread'] at htype
      exact (hread i value hvalue).mp htype

/-- The sections that are rejected. -/
def rejected (os : List Offered) : List Offered := os.filter fun o => !o.2.isSupported

/-- Numbers of sections stand for the sections. -/
theorem eq_append_of_origins {ks : List (Option Offered)}
    (hks : ∀ k ∈ ks, ∀ o ∈ k, o ∈ sdpRequest.offered)
    (h : (rejected sdpRequest.offered).map (fun o => some o.1) ++ ks.map (·.map (·.1)) =
      (range sdpRequest.getMediaSetCount).map some) :
    ∃ tail, sdpRequest.offered = rejected sdpRequest.offered ++ tail ∧ ks = tail.map some := by
  have hfind {k : Option Offered} (hk : ∀ o ∈ k, o ∈ sdpRequest.offered) :
      ((k.map (·.1)).bind fun i : Nat => (sdpRequest.getMediaData i).map ((i, ·) : _ → Offered)) =
        k := by
    cases k with
    | none => rfl
    | some o =>
      show (sdpRequest.getMediaData o.1).map _ = some o
      rw [mem_offered_iff.mp (hk o rfl)]
      rfl
  have hoffered : (rejected sdpRequest.offered).map some ++ ks = sdpRequest.offered.map some := by
    rw [← map_fst_offered, map_map] at h
    have hback := congrArg (map fun k : Option Nat =>
      k.bind fun i : Nat => (sdpRequest.getMediaData i).map ((i, ·) : _ → Offered)) h
    rw [map_append, map_map, map_map, map_map] at hback
    refine Eq.trans ?_ (hback.trans ?_)
    · refine congrArg₂ _ (map_congr_left fun o ho => ?_).symm
        ((map_congr_left fun k hk => hfind (hks k hk)).trans (map_id _)).symm
      exact @hfind (some o) fun o' ho' => Option.some_inj.mp ho' ▸ mem_of_mem_filter ho
    · exact map_congr_left fun o ho =>
        @hfind (some o) fun o' ho' => Option.some_inj.mp ho' ▸ ho
  obtain ⟨front, tail, htail, hfront, hks'⟩ := map_eq_append_iff.mp hoffered.symm
  rw [map_injective_iff.mpr (Option.some_injective _) hfront] at htail
  exact ⟨tail, htail, hks'.symm⟩

theorem accepted_of_kept {o : Offered} :
    (sdpRequest.offerScan.audio = some o → o ∈ sdpRequest.offered ∧ IsAccepted audioMediaType o) ∧
      (sdpRequest.offerScan.video = some o →
        o ∈ sdpRequest.offered ∧ IsAccepted videoMediaType o) := by
  rw [offerScan_eq, foldl_step]
  constructor
  · intro h
    obtain ⟨hmem, haudio⟩ := mem_filter.mp (mem_of_getLast? h)
    rw [Bool.and_eq_true, beq_iff_eq] at haudio
    exact ⟨hmem, haudio⟩
  · intro h
    obtain ⟨hmem, hvideo⟩ := mem_filter.mp (mem_of_getLast? h)
    rw [Bool.and_eq_true, Bool.not_eq_true', beq_eq_false_iff_ne] at hvideo
    refine ⟨hmem, hvideo.1, ?_⟩
    have hsupported := hvideo.1
    rw [MediaData.isSupported] at hsupported
    simp only [Bool.and_eq_true, Bool.or_eq_true, beq_iff_eq] at hsupported
    exact hsupported.1.1.1.resolve_left hvideo.2

theorem answerCodecs_ne_nil : sdpRequest.answerCodecs f ≠ [] := by
  have hlength {kept : Option Offered} (hkept : ∀ o ∈ kept, o ∈ sdpRequest.offered) :
      (typesOf kept).length ≤ maximumMediaTypes := by
    cases kept with
    | none => exact Nat.zero_le _
    | some o =>
      have hd := mem_offered_iff.mp (hkept o rfl)
      obtain ⟨value, -, hvalue⟩ := Option.map_eq_some_iff.mp hd
      show o.2.payloadTypes.length ≤ _
      rw [← hvalue]
      exact length_getMediaPayloadType sdpRequest o.1 maximumMediaTypes
  exact getCodecsInCommon_ne_nil (hlength fun o ho => (accepted_of_kept.1 ho).1)
    (hlength fun o ho => (accepted_of_kept.2 ho).1)

/-- The sections of the answer. -/
theorem addAudioCodecs_eq (rtpAudioPort rtpVideoPort : Int) :
    sdpRequest.addAudioCodecs f rtpAudioPort rtpVideoPort =
      (rejected sdpRequest.offered).map reject ++
        answerLine audioMediaType sdpRequest.offerScan.audio rtpAudioPort 1
            (audioTypes (sdpRequest.answerCodecs f)) (reversed sdpRequest.offerScan.audio) ::
          if commonVideo (sdpRequest.answerCodecs f) = true then
            [answerLine videoMediaType sdpRequest.offerScan.video rtpVideoPort 1
              (videoTypes (sdpRequest.answerCodecs f)) (reversed sdpRequest.offerScan.video)]
          else [] := by
  have hlines : sdpRequest.offerScan.lines = (rejected sdpRequest.offered).map reject := by
    rw [offerScan_eq, foldl_step]
    rfl
  simp only [addAudioCodecs, hlines, if_pos (answerCodecs_ne_nil (f := f))]

theorem kept_of_offered {front tail : List Offered}
    (hfront : ∀ o ∈ front, o.2.isSupported = false) (ho : sdpRequest.offered = front ++ tail) :
    rejected sdpRequest.offered = front ++ rejected tail ∧
      sdpRequest.offerScan.audio =
        (tail.filter fun o => o.2.isSupported && o.2.mediaType == audioMediaType).getLast? ∧
      sdpRequest.offerScan.video =
        (tail.filter fun o => o.2.isSupported && !o.2.mediaType == audioMediaType).getLast? := by
  have hnone (q : Offered → Bool) : front.filter (fun o => o.2.isSupported && q o) = [] := by
    rw [filter_eq_nil_iff]
    intro o hmem
    rw [hfront o hmem, Bool.false_and]
    exact Bool.false_ne_true
  have hall : front.filter (fun o => !o.2.isSupported) = front := by
    rw [filter_eq_self]
    intro o hmem
    rw [hfront o hmem]
    rfl
  rw [offerScan_eq, foldl_step, rejected, ho]
  simp only [filter_append, hnone, hall, nil_append, rejected, and_self]

theorem kept_of_one {front : List Offered} {audio : Offered}
    (hfront : ∀ o ∈ front, o.2.isSupported = false) (haudio : IsAccepted audioMediaType audio)
    (ho : sdpRequest.offered = front ++ [audio]) :
    rejected sdpRequest.offered = front ∧ sdpRequest.offerScan.audio = some audio := by
  obtain ⟨hrejected, ha, -⟩ := kept_of_offered hfront ho
  refine ⟨?_, ?_⟩
  · simpa [rejected, haudio.1] using hrejected
  · simpa [haudio.1, haudio.2] using ha

theorem kept_of_two {front : List Offered} {audio video : Offered}
    (hfront : ∀ o ∈ front, o.2.isSupported = false) (haudio : IsAccepted audioMediaType audio)
    (hvideo : IsAccepted videoMediaType video) (ho : sdpRequest.offered = front ++ [audio, video]) :
    rejected sdpRequest.offered = front ∧ sdpRequest.offerScan.audio = some audio ∧
      sdpRequest.offerScan.video = some video := by
  obtain ⟨hrejected, ha, hv⟩ := kept_of_offered hfront ho
  have hne : (video.2.mediaType == audioMediaType) = false := by
    rw [hvideo.2]
    decide
  refine ⟨?_, ?_, ?_⟩
  · simpa [rejected, haudio.1, hvideo.1] using hrejected
  · simpa [haudio.1, haudio.2, hvideo.1, hne] using ha
  · simpa [haudio.1, haudio.2, hvideo.1, hne] using hv

/-- **The order** of the sections. -/
theorem origins_iff (rtpAudioPort rtpVideoPort : Int) :
    (sdpRequest.addAudioCodecs f rtpAudioPort rtpVideoPort).map (·.origin) =
        (range sdpRequest.getMediaSetCount).map some ↔ sdpRequest.InOrder f := by
  have horigins : (sdpRequest.addAudioCodecs f rtpAudioPort rtpVideoPort).map (·.origin) =
      (rejected sdpRequest.offered).map (fun o => some o.1) ++
        (sdpRequest.offerScan.audio :: if commonVideo (sdpRequest.answerCodecs f) = true then
          [sdpRequest.offerScan.video] else []).map (·.map (·.1)) := by
    rw [addAudioCodecs_eq, map_append, map_map]
    split <;> rfl
  have hunsupported : ∀ o ∈ rejected sdpRequest.offered, o.2.isSupported = false := by
    intro o ho
    have := of_mem_filter ho
    rwa [Bool.not_eq_true'] at this
  rw [horigins, InOrder]
  by_cases hcommon : commonVideo (sdpRequest.answerCodecs f) = true
  · simp only [if_pos hcommon]
    constructor
    · intro h
      have hkept : ∀ k ∈ [sdpRequest.offerScan.audio, sdpRequest.offerScan.video], ∀ o ∈ k,
          o ∈ sdpRequest.offered := by
        rw [forall_mem_cons, forall_mem_singleton]
        exact ⟨fun o ho => (accepted_of_kept.1 ho).1, fun o ho => (accepted_of_kept.2 ho).1⟩
      obtain ⟨tail, htail, hks⟩ := eq_append_of_origins hkept h
      obtain ⟨audio, rest, rfl, haudio, hrest⟩ := map_eq_cons_iff.mp hks.symm
      obtain ⟨video, rest', rfl, hvideo, hnil⟩ := map_eq_cons_iff.mp hrest
      rw [map_eq_nil_iff.mp hnil] at htail
      exact ⟨_, audio, hunsupported, (accepted_of_kept.1 haudio.symm).2, video,
        (accepted_of_kept.2 hvideo.symm).2, htail⟩
    · rintro ⟨front, audio, hfront, haudio, video, hvideo, ho⟩
      obtain ⟨hrejected, ha, hv⟩ := kept_of_two hfront haudio hvideo ho
      rw [hrejected, ha, hv, ← map_fst_offered, ho]
      simp
  · simp only [if_neg hcommon]
    constructor
    · intro h
      have hkept : ∀ k ∈ [sdpRequest.offerScan.audio], ∀ o ∈ k, o ∈ sdpRequest.offered := by
        rw [forall_mem_singleton]
        exact fun o ho => (accepted_of_kept.1 ho).1
      obtain ⟨tail, htail, hks⟩ := eq_append_of_origins hkept h
      obtain ⟨audio, rest, rfl, haudio, hnil⟩ := map_eq_cons_iff.mp hks.symm
      rw [map_eq_nil_iff.mp hnil] at htail
      exact ⟨_, audio, hunsupported, (accepted_of_kept.1 haudio.symm).2, htail⟩
    · rintro ⟨front, audio, hfront, haudio, ho⟩
      obtain ⟨hrejected, ha⟩ := kept_of_one hfront haudio ho
      rw [hrejected, ha, ← map_fst_offered, ho]
      simp

/-! ## The types of the sections -/

theorem answerCodecs_eq : sdpRequest.answerCodecs f = sdpRequest.audioCopies f ++
    ((typesOf sdpRequest.offerScan.video).flatMap fun t =>
      (sdpRequest.videoCodecs f t).map (SdpCodec.setCodecPayloadFormat t)) ++
        (sdpRequest.answerTones f).toList.map addedTones := by
  rw [answerCodecs, getCodecsInCommon, codecs_collect]
  rfl

theorem audioTypes_iff {P : Int → Prop} (haudio : ∀ t ∈ typesOf sdpRequest.offerScan.audio, P t)
    (htones : ∀ t ∈ sdpRequest.answerTones f, P t) :
    (∀ t ∈ audioTypes (sdpRequest.answerCodecs f), P t) ↔
      ∀ t ∈ typesOf sdpRequest.offerScan.video, ∀ c ∈ sdpRequest.videoCodecs f t,
        c.mimeType = audioMediaType → P t := by
  have hmem (t : Int) : t ∈ audioTypes (sdpRequest.answerCodecs f) ↔
      ∃ c ∈ sdpRequest.answerCodecs f, c.mimeType = audioMediaType ∧ c.codecPayloadFormat = t := by
    simp only [audioTypes, mem_map, mem_filter, decide_eq_true_iff, and_assoc]
  rw [answerCodecs_eq] at hmem ⊢
  refine ⟨fun h t ht c hc hmime => h t ((hmem t).mpr ⟨c.setCodecPayloadFormat t, ?_, hmime, rfl⟩),
    fun h t ht => ?_⟩
  · refine mem_append_left _ (mem_append_right _ ?_)
    exact mem_flatMap.mpr ⟨t, ht, mem_map_of_mem hc⟩
  · obtain ⟨c, hc, hmime, rfl⟩ := (hmem t).mp ht
    rcases mem_append.mp hc with hc | hc
    · rcases mem_append.mp hc with hc | hc
      · obtain ⟨t, hoffered, hcopy⟩ := mem_flatMap.mp hc
        obtain ⟨c, -, rfl⟩ := mem_map.mp hcopy
        exact haudio t hoffered
      · obtain ⟨t, hoffered, hcopy⟩ := mem_flatMap.mp hc
        obtain ⟨c, hcodec, rfl⟩ := mem_map.mp hcopy
        exact h t hoffered c hcodec hmime
    · obtain ⟨t, hadded, rfl⟩ := mem_map.mp hc
      exact htones t (Option.mem_toList.mp hadded)

theorem exists_videoTypes_append (cs cs' : List SdpCodec) : ∃ more,
    videoTypes (cs ++ cs') = videoTypes cs ++ more ∧
      ∀ t ∈ more, ∃ c ∈ cs', c.mimeType = videoMediaType ∧ c.codecPayloadFormat = t := by
  have hrun (vs : List SdpCodec) (s : Text × List Int) : ∃ more,
      (vs.foldl (fun (prevMimeSubType, types) c =>
        if prevMimeSubType = c.mimeSubtype then (prevMimeSubType, types)
        else (c.mimeSubtype, types ++ [c.codecPayloadFormat])) s).2 = s.2 ++ more ∧
          ∀ t ∈ more, ∃ c ∈ vs, c.codecPayloadFormat = t := by
    induction vs generalizing s with
    | nil => exact ⟨[], (append_nil _).symm, fun t ht => absurd ht not_mem_nil⟩
    | cons c vs ih =>
      rw [foldl_cons]
      by_cases hsame : s.1 = c.mimeSubtype
      · obtain ⟨more, heq, hmore⟩ := ih s
        refine ⟨more, by rw [← heq]; simp only [if_pos hsame], fun t ht => ?_⟩
        obtain ⟨c', hc', rfl⟩ := hmore t ht
        exact ⟨c', mem_cons_of_mem _ hc', rfl⟩
      · obtain ⟨more, heq, hmore⟩ := ih (c.mimeSubtype, s.2 ++ [c.codecPayloadFormat])
        refine ⟨c.codecPayloadFormat :: more, ?_, fun t ht => ?_⟩
        · simp only [if_neg hsame, heq, append_assoc, singleton_append]
        · rcases mem_cons.mp ht with rfl | ht
          · exact ⟨c, mem_cons_self, rfl⟩
          · obtain ⟨c', hc', rfl⟩ := hmore t ht
            exact ⟨c', mem_cons_of_mem _ hc', rfl⟩
  obtain ⟨more, heq, hmore⟩ := hrun (cs'.filter (·.mimeType = videoMediaType)) _
  refine ⟨more, ?_, fun t ht => ?_⟩
  · rw [videoTypes, filter_append, foldl_append]
    exact heq
  · obtain ⟨c, hc, rfl⟩ := hmore t ht
    obtain ⟨hmem, hmime⟩ := mem_filter.mp hc
    exact ⟨c, hmem, decide_eq_true_iff.mp hmime, rfl⟩

theorem videoTypes_iff {P : Int → Prop} (hvideo : ∀ t ∈ typesOf sdpRequest.offerScan.video, P t) :
    (commonVideo (sdpRequest.answerCodecs f) = true →
      ∀ t ∈ videoTypes (sdpRequest.answerCodecs f), P t) ↔
        ∀ t ∈ videoTypes (sdpRequest.audioCopies f), P t := by
  have hcodecs := @answerCodecs_eq sdpRequest f
  rw [append_assoc] at hcodecs
  obtain ⟨more, heq, hmore⟩ := exists_videoTypes_append (sdpRequest.audioCopies f) _
  rw [hcodecs, heq]
  refine ⟨fun h t ht => ?_, fun h _ t ht => ?_⟩
  · refine h ?_ t (mem_append_left _ ht)
    -- a type of the list comes from a codec of it
    obtain ⟨all, hall, hfrom⟩ := exists_videoTypes_append [] (sdpRequest.audioCopies f)
    rw [nil_append] at hall
    rw [hall] at ht
    obtain ⟨c, hc, hmime, -⟩ := hfrom t ht
    exact any_eq_true.mpr ⟨c, mem_append_left _ hc, decide_eq_true hmime⟩
  · rcases mem_append.mp ht with ht | ht
    · exact h t ht
    · obtain ⟨c, hc, hmime, rfl⟩ := hmore t ht
      rcases mem_append.mp hc with hc | hc
      · obtain ⟨t, hoffered, hcopy⟩ := mem_flatMap.mp hc
        obtain ⟨c, -, rfl⟩ := mem_map.mp hcopy
        exact hvideo t hoffered
      · obtain ⟨t, -, rfl⟩ := mem_map.mp hc
        exact absurd (show audioMediaType = videoMediaType from hmime) (by decide)

/-- A line of the answer answers its offer exactly when it keeps the media type and its types
are
offered. -/
theorem answers_kept_iff {mediaType : Text} {o : Offered} (ho : o ∈ sdpRequest.offered)
    (haccepted : IsAccepted mediaType o) (mediaPort : Int) (types : List Int) :
    (∀ (i : Nat) (d : MediaData),
      (answerLine mediaType (some o) mediaPort 1 types (reversed (some o))).origin = some i →
        sdpRequest.getMediaData i = some d → sdpRequest.Answers f
          (answerLine mediaType (some o) mediaPort 1 types (reversed (some o))) i d) ↔
      o.2.mediaType = sdpRequest.writtenType o.1 ∧
        (mediaPort ≠ 0 →
          ∀ t ∈ types, t ∈ typesOf (some o) ∨ sdpRequest.answerTones f = some t) := by
  have hd := mem_offered_iff.mp ho
  constructor
  · intro h
    have hanswers := h o.1 o.2 rfl hd
    exact ⟨haccepted.2.trans hanswers.mediaType, fun hport => (hanswers.accepted hport).2⟩
  · rintro ⟨htype, h⟩ i d horigin hdata
    obtain rfl : o.1 = i := Option.some_inj.mp horigin
    obtain rfl : o.2 = d := Option.some_inj.mp (hd.symm.trans hdata)
    exact ⟨haccepted.2.symm.trans htype,
      fun hno => absurd (haccepted.1.symm.trans hno) Bool.noConfusion,
      fun hport => ⟨rfl, h hport⟩⟩

theorem answers_rejected_iff {os : List Offered} (hos : ∀ o ∈ os, o ∈ sdpRequest.offered) :
    (∀ line ∈ os.map reject, ∀ (i : Nat) (d : MediaData), line.origin = some i →
      sdpRequest.getMediaData i = some d → sdpRequest.Answers f line i d) ↔
        ∀ o ∈ os, o.2.mediaType = sdpRequest.writtenType o.1 := by
  rw [forall_mem_map]
  refine forall₂_congr fun o ho => ?_
  have hd := mem_offered_iff.mp (hos o ho)
  refine ⟨fun h => (h o.1 o.2 rfl hd).mediaType, fun htype i d horigin hdata => ?_⟩
  obtain rfl : o.1 = i := Option.some_inj.mp horigin
  obtain rfl : o.2 = d := Option.some_inj.mp (hd.symm.trans hdata)
  exact ⟨htype, fun _ => rfl, fun hport => absurd rfl hport⟩

end

/-- **`addAudioCodecs`** mirrors an offer exactly if what it supports ends the offer in the order
that it writes, no type stands for a codec of the other media type, and no line is too long. -/
theorem addAudioCodecs_mirrors_iff (rtpAudioPort rtpVideoPort : Int) :
    sdpRequest.Mirrors f rtpAudioPort rtpVideoPort ↔
      sdpRequest.InOrder f ∧ sdpRequest.Apart f rtpAudioPort rtpVideoPort ∧
        sdpRequest.LongAlike := by
  have hapart : sdpRequest.Apart f rtpAudioPort rtpVideoPort ↔
      (rtpAudioPort ≠ 0 → ∀ t ∈ audioTypes (sdpRequest.answerCodecs f),
        t ∈ typesOf sdpRequest.offerScan.audio ∨ sdpRequest.answerTones f = some t) ∧
      (rtpVideoPort ≠ 0 → commonVideo (sdpRequest.answerCodecs f) = true →
        ∀ t ∈ videoTypes (sdpRequest.answerCodecs f),
          t ∈ typesOf sdpRequest.offerScan.video ∨ sdpRequest.answerTones f = some t) := by
    rw [videoTypes_iff fun t ht => .inl ht,
      audioTypes_iff (fun t ht => .inl ht) fun t ht => .inr ht]
    exact ⟨fun h => ⟨h.audio, h.video⟩, fun h => ⟨h.1, h.2⟩⟩
  rw [Mirrors, origins_iff, hapart, longAlike_iff]
  refine and_congr_right fun ⟨front, audio, hfront, haudio, ho⟩ => ?_
  by_cases hcommon : commonVideo (sdpRequest.answerCodecs f) = true
  · rw [if_pos hcommon] at ho
    obtain ⟨video, hvideo, ho⟩ := ho
    obtain ⟨hrejected, ha, hv⟩ := kept_of_two hfront haudio hvideo ho
    have hmem : ∀ o ∈ front ++ [audio, video], o ∈ sdpRequest.offered := fun o => ho ▸ id
    rw [addAudioCodecs_eq, if_pos hcommon, hrejected, forall_mem_append, forall_mem_cons,
      forall_mem_singleton, answers_rejected_iff fun o h => hmem o (by simp [h]), ha, hv,
      answers_kept_iff (hmem audio (by simp)) haudio,
      answers_kept_iff (hmem video (by simp)) hvideo, forall_prop_of_true hcommon, ho,
      forall_mem_append, forall_mem_cons, forall_mem_singleton]
    tauto
  · rw [if_neg hcommon] at ho
    obtain ⟨hrejected, ha⟩ := kept_of_one hfront haudio ho
    have hmem : ∀ o ∈ front ++ [audio], o ∈ sdpRequest.offered := fun o => ho ▸ id
    rw [addAudioCodecs_eq, if_neg hcommon, hrejected, forall_mem_append,
      forall_mem_singleton, answers_rejected_iff fun o h => hmem o (by simp [h]), ha,
      answers_kept_iff (hmem audio (by simp)) haudio, ho, forall_mem_append,
      forall_mem_singleton]
    tauto

/-- An offer with a video section only. -/
theorem not_addAudioCodecs_mirrors :
    ¬ ∀ (sdpRequest : SdpBody) (f : SdpCodecFactory) (rtpAudioPort rtpVideoPort : Int),
      sdpRequest.Mirrors f rtpAudioPort rtpVideoPort := by
  intro h
  have hmirrors := h [⟨text "m", text "video 5000 RTP/AVP 31"⟩] ⟨[], 1⟩ 4000 4002
  obtain ⟨⟨front, audio, -, haudio, ho⟩, -⟩ := (addAudioCodecs_mirrors_iff _ _ _ _).mp hmirrors
  have hmem : audio ∈ offered [⟨text "m", text "video 5000 RTP/AVP 31"⟩] := by
    split at ho
    · obtain ⟨video, -, ho⟩ := ho
      rw [ho]
      simp
    · rw [ho]
      simp
  have hnone : ∀ o ∈ offered [⟨text "m", text "video 5000 RTP/AVP 31"⟩],
      o.2.mediaType ≠ audioMediaType := by
    decide
  exact hnone audio hmem haudio.2

end

end SdpBody

end SipXRouter
