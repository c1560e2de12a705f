import SipXRouter.Net.SdpCodecs

/-!
# The search for an audio line

`getBestAudioCodecs` goes through the audio lines, and side by side through the video lines.
Both indices are advanced where there is an audio line; a search that fails leaves -1, and the
next step 0.
-/

namespace SipXRouter

open List

namespace SdpBody

variable (body : SdpBody) (f : SdpCodecFactory)

/-- The codecs in common for an audio and a video line. -/
def codecsOf (mediaAudioIndex mediaVideoIndex : Int) : List SdpCodec :=
  body.getCodecsInCommon f (body.getMediaPayloadType mediaAudioIndex maximumMediaTypes)
    (body.getMediaPayloadType mediaVideoIndex maximumMediaTypes)

/-- What is reported. -/
structure Best where
  codecs : List SdpCodec := []
  rtpAddress : Text := []
  rtpPort : Int := 0
  rtcpPort : Int := 0

/-- The variables behind the look at an audio line. -/
def Best.at (best : Best) (mediaAudioIndex : Int) : Best :=
  { best with
    rtpPort := body.getMediaPort mediaAudioIndex best.rtpPort
    rtcpPort := body.getMediaRtcpPort mediaAudioIndex best.rtcpPort
    rtpAddress := body.getMediaAddress mediaAudioIndex }

/-- The loop over the audio sections; without one it goes on with the same video section. -/
def bestLoop : (fuel : Nat) → (mediaAudioIndex mediaVideoIndex : Int) → Best → Option Best
  | 0, _, _, _ => none
  | fuel + 1, mediaAudioIndex, mediaVideoIndex, best =>
    if 0 ≤ mediaAudioIndex ∨ 0 ≤ mediaVideoIndex then
      let audio := body.findMediaType audioMediaType mediaAudioIndex
      let video := body.findMediaType videoMediaType mediaVideoIndex
      if 0 ≤ audio then
        let best := best.at body audio
        if 0 ≤ best.rtpPort then
          let codecs := body.codecsOf f audio video
          if codecs = [] then bestLoop fuel (audio + 1) (video + 1) best
          else some { best with codecs := codecs }
        else bestLoop fuel (audio + 1) (video + 1) best
      else bestLoop fuel audio video best
    else some best

/-- `getBestAudioCodecs`, with the variable for the control port as it was. -/
def getBestAudioCodecs (fuel : Nat) (rtcpPort : Int) : Option Best :=
  body.bestLoop f fuel 0 0 { rtcpPort := rtcpPort }

/-! ## The lines -/

/-- The number of a line of a kind, from a number on. -/
def nextIndex (mediaType : Text) (start : Nat) : Option Nat :=
  ((body.mediaLines.drop start).findIdx? mediaType.isPrefixOf).map (start + ·)

/-- How many lines of a kind there are, from a number on. -/
def linesFrom (mediaType : Text) (start : Nat) : Nat :=
  (body.mediaLines.drop start).countP mediaType.isPrefixOf

section

variable {body f} {mediaType : Text}

theorem findMediaFrom_eq (index : Nat) (rest : SdpBody) : findMediaFrom mediaType index rest =
    (((mediaLines rest).findIdx? mediaType.isPrefixOf).map (index + ·)).elim (-1) (↑) := by
  induction rest generalizing index with
  | nil => rfl
  | cons field rest ih =>
    rw [findMediaFrom]
    by_cases hname : field.name = text "m"
    · rw [if_pos hname, mediaLines_cons_of_media hname, findIdx?_cons]
      by_cases hprefix : mediaType.isPrefixOf field.value = true
      · rw [if_pos hprefix, if_pos hprefix]
        rfl
      · rw [if_neg hprefix, if_neg hprefix]
        refine (ih (index + 1)).trans ?_
        rw [Option.map_map]
        congr 2
        funext i
        exact Nat.add_right_comm index 1 i
    · rw [if_neg hname, mediaLines_cons_of_other hname, ih]

/-- `findMediaType`, by the lines. -/
theorem findMediaType_eq (start : Nat) :
    body.findMediaType mediaType start = (body.nextIndex mediaType start).elim (-1) (↑) := by
  obtain ⟨hfirst, hrest⟩ := positionFrom_media start body
  rw [findMediaType, positionFieldInstance, if_pos (Int.natCast_nonneg start), Int.toNat_natCast,
    nextIndex]
  generalize positionFrom (text "m") start body = found at hfirst hrest ⊢
  obtain ⟨found, rest⟩ := found
  obtain rfl : found = body.mediaLines[start]? := hfirst
  cases hline : (mediaLines body)[start]? with
  | none =>
    rw [drop_eq_nil_of_le (List.getElem?_eq_none_iff.mp hline)]
    rfl
  | some value =>
    obtain ⟨hlt, hvalue⟩ := List.getElem?_eq_some_iff.mp hline
    rw [drop_eq_getElem_cons hlt, hvalue, findIdx?_cons]
    by_cases hprefix : mediaType.isPrefixOf value = true
    · rw [if_pos hprefix]
      exact if_pos hprefix
    · rw [if_neg hprefix]
      refine (if_neg hprefix).trans ((findMediaFrom_eq (start + 1) rest).trans ?_)
      rw [hrest hlt, Option.map_map]
      congr 2
      funext i
      exact Nat.add_right_comm start 1 i

theorem linesFrom_of_none {start : Nat} (h : body.nextIndex mediaType start = none) :
    body.linesFrom mediaType start = 0 := by
  rw [linesFrom, countP_eq_zero]
  intro line hline
  rw [findIdx?_eq_none_iff.mp (Option.map_eq_none_iff.mp h) line hline]
  exact Bool.false_ne_true

theorem linesFrom_of_some {start i : Nat} (h : body.nextIndex mediaType start = some i) :
    start ≤ i ∧ body.linesFrom mediaType start = body.linesFrom mediaType (i + 1) + 1 ∧
      body.nextIndex mediaType i = some i := by
  obtain ⟨k, hk, rfl⟩ := Option.map_eq_some_iff.mp h
  obtain ⟨hlt, hfound, hbefore⟩ := findIdx?_eq_some_iff_getElem.mp hk
  have hdrop : (body.mediaLines.drop start).drop k =
      (body.mediaLines.drop start)[k] :: body.mediaLines.drop (start + k + 1) := by
    rw [drop_eq_getElem_cons hlt, drop_drop, Nat.add_assoc]
  have htake : ((body.mediaLines.drop start).take k).countP mediaType.isPrefixOf = 0 := by
    rw [countP_eq_zero]
    intro line hline
    obtain ⟨j, hj, rfl⟩ := mem_take_iff_getElem.mp hline
    exact hbefore j (by omega)
  refine ⟨Nat.le_add_right start k, ?_, ?_⟩
  · rw [linesFrom, ← take_append_drop k (body.mediaLines.drop start), countP_append,
      htake, hdrop, countP_cons_of_pos hfound, Nat.zero_add]
    rfl
  · rw [nextIndex, ← drop_drop, hdrop, findIdx?_cons, if_pos hfound]
    rfl

end

/-! ## Codecs in common -/

section

variable {body f}

theorem length_getMediaPayloadType (body : SdpBody) (mediaIndex : Int) (maxTypes : Nat) :
    (body.getMediaPayloadType mediaIndex maxTypes).length ≤ maxTypes := by
  have hfrom (fuel typeCount : Nat) :
      (body.payloadTypesFrom mediaIndex fuel typeCount).length ≤ fuel := by
    induction fuel generalizing typeCount with
    | zero => exact le_refl 0
    | succ fuel ih =>
      rw [payloadTypesFrom]
      split
      · exact Nat.zero_le _
      · exact Nat.succ_le_succ (ih _)
  exact hfrom maxTypes 0

/-- There always is one: the tones that were offered, or those that are added. -/
theorem getCodecsInCommon_ne_nil {audioTypes videoTypes : List Int}
    (haudio : audioTypes.length ≤ maximumMediaTypes)
    (hvideo : videoTypes.length ≤ maximumMediaTypes) :
    body.getCodecsInCommon f audioTypes videoTypes ≠ [] := by
  rw [← length_pos_iff, length_getCodecsInCommon]
  by_cases hadds : body.AddsTones f audioTypes videoTypes
  · rw [if_pos hadds]
    exact Nat.succ_pos _
  rw [if_neg hadds, Nat.add_zero, matchCount]
  by_cases htones : ∀ t ∈ audioTypes, body.isTones f t = false
  · -- the search for a type does not break off, as all types are above the number of them
    refine absurd ⟨htones, fun _ hlength => ?_⟩ hadds
    have habove := of_mem_filter hlength
    have hle : (dynamicTypes (audioTypes ++ videoTypes)).length ≤ 40 := by
      refine (length_filter_le _ _).trans ?_
      rw [length_append]
      exact Nat.add_le_add haudio hvideo
    rw [decide_eq_true_iff, maximumStaticCodec] at habove
    omega
  · push Not at htones
    obtain ⟨t, ht, hmatch⟩ := htones
    rw [ne_eq, Bool.not_eq_false, isTones, Bool.and_eq_true] at hmatch
    obtain ⟨c, hc, -⟩ := (Option.any_eq_true ..).mp hmatch.2
    have hone : 1 ∈ audioTypes.map fun t => (body.audioCodec f t).toList.length :=
      mem_map.mpr ⟨t, ht, by rw [hc]; rfl⟩
    exact Nat.add_pos_left (single_le_sum (fun _ _ => Nat.zero_le _) 1 hone) _

theorem codecsOf_ne_nil (audio video : Int) : body.codecsOf f audio video ≠ [] :=
  getCodecsInCommon_ne_nil (length_getMediaPayloadType body audio maximumMediaTypes)
    (length_getMediaPayloadType body video maximumMediaTypes)

end

/-! ## Turns of the loop -/

section

variable {body f} {a v i : Nat} {best r : Best}

/-- The cursor for the video lines behind a turn: it starts again where there is none left. -/
def nextVideo (body : SdpBody) (v : Nat) : Nat := (body.nextIndex videoMediaType v).elim 0 (· + 1)

theorem findMediaType_video_add_one :
    body.findMediaType videoMediaType v + 1 = (body.nextVideo v : Int) := by
  rw [findMediaType_eq, nextVideo]
  cases body.nextIndex videoMediaType v <;> rfl

theorem linesFrom_nextVideo : body.linesFrom videoMediaType (body.nextVideo v) =
    if body.linesFrom videoMediaType v = 0 then body.linesFrom videoMediaType 0
    else body.linesFrom videoMediaType v - 1 := by
  rw [nextVideo]
  cases hvideo : body.nextIndex videoMediaType v with
  | none => rw [if_pos (linesFrom_of_none hvideo)]; rfl
  | some j =>
    rw [(linesFrom_of_some hvideo).2.1, if_neg (Nat.succ_ne_zero _)]
    rfl

theorem bestLoop_of_answers (hnext : body.nextIndex audioMediaType a = some i)
    (hport : 0 ≤ body.getMediaPort i best.rtpPort) (fuel : Nat) :
    body.bestLoop f (fuel + 1) a v best = some { best.at body i with
      codecs := body.codecsOf f i (body.findMediaType videoMediaType v) } := by
  have haudio : body.findMediaType audioMediaType a = i := by rw [findMediaType_eq, hnext]; rfl
  rw [bestLoop, if_pos (.inl (Int.natCast_nonneg a)), haudio, if_pos (Int.natCast_nonneg i)]
  exact (if_pos hport).trans (if_neg (codecsOf_ne_nil _ _))

theorem bestLoop_of_refuses (hnext : body.nextIndex audioMediaType a = some i)
    (hport : body.getMediaPort i best.rtpPort < 0) (fuel : Nat) :
    body.bestLoop f (fuel + 1) a v best =
      body.bestLoop f fuel (i + 1 : Nat) (body.nextVideo v) (best.at body i) := by
  have haudio : body.findMediaType audioMediaType a = i := by rw [findMediaType_eq, hnext]; rfl
  rw [bestLoop, if_pos (.inl (Int.natCast_nonneg a)), haudio, if_pos (Int.natCast_nonneg i),
    ← findMediaType_video_add_one]
  exact if_neg (Int.not_le.mpr hport)

theorem findMediaType_neg_one (mediaType : Text) : body.findMediaType mediaType (-1) = -1 := rfl

/-- Without an audio line ahead the loop ends only if no video line is left. -/
theorem bestLoop_of_none (hnext : body.nextIndex audioMediaType a = none) :
    (∀ fuel, body.bestLoop f fuel a v best = some r →
      r = best ∧ body.linesFrom videoMediaType v = 0) ∧
      (body.linesFrom videoMediaType v = 0 → body.bestLoop f 2 a v best = some best) := by
  have haudio : body.findMediaType audioMediaType a = -1 := by rw [findMediaType_eq, hnext]; rfl
  have hturn (fuel : Nat) : body.bestLoop f (fuel + 1) a v best =
      body.bestLoop f fuel (-1) (body.findMediaType videoMediaType v) best := by
    rw [bestLoop, if_pos (.inl (Int.natCast_nonneg a)), haudio]
    rfl
  cases hvideo : body.nextIndex videoMediaType v with
  | none =>
    have hv : body.findMediaType videoMediaType v = -1 := by rw [findMediaType_eq, hvideo]; rfl
    have hzero := linesFrom_of_none hvideo
    rw [hv] at hturn
    refine ⟨fun fuel h => ?_, fun _ => hturn 1⟩
    cases fuel with
    | zero => cases h
    | succ fuel =>
      rw [hturn] at h
      cases fuel with
      | zero => cases h
      | succ fuel => exact ⟨(Option.some_inj.mp h).symm, hzero⟩
  | some j =>
    have hv : body.findMediaType videoMediaType v = j := by rw [findMediaType_eq, hvideo]; rfl
    obtain ⟨-, hlines, hagain⟩ := linesFrom_of_some hvideo
    -- the search goes on with the same two indices
    have hendless (fuel : Nat) : body.bestLoop f fuel (-1) j best = none := by
      have hj : body.findMediaType videoMediaType j = j := by rw [findMediaType_eq, hagain]; rfl
      induction fuel with
      | zero => rfl
      | succ fuel ih =>
        rw [bestLoop, if_pos (.inr (Int.natCast_nonneg j)), findMediaType_neg_one, hj]
        exact ih
    refine ⟨fun fuel h => ?_, fun h => absurd (hlines.symm.trans h) (Nat.succ_ne_zero _)⟩
    cases fuel with
    | zero => cases h
    | succ fuel =>
      rw [hturn, hv, hendless] at h
      cases h

end

/-! ## When the search ends -/

/-- The line of a number is an audio line. -/
def IsAudio (k : Nat) : Prop := body.nextIndex audioMediaType k = some k

/-- What is reported comes from the first audio line that has codecs in common. -/
def FromFirst (r : Best) : Prop :=
  ∃ k v, body.IsAudio k ∧ (∀ j < k, body.IsAudio j → ∀ v, body.codecsOf f j v = []) ∧
    r.codecs = body.codecsOf f k v ∧ r.rtpPort = body.getMediaPort k 0 ∧
    r.rtpAddress = body.getMediaAddress k

/-- The search ends, with what comes from the first audio line that has codecs in common. -/
def EndsWithFirst (rtcpPort : Int) : Prop :=
  ∃ fuel r, body.getBestAudioCodecs f fuel rtcpPort = some r ∧
    (r.codecs ≠ [] → body.FromFirst f r)

/-- The video lines are used up with the audio lines. -/
def UsedUp (a v : Nat) : Prop :=
  (body.linesFrom videoMediaType 0 + 1) ∣
    (body.linesFrom audioMediaType a + (body.linesFrom videoMediaType 0 + 1) -
      body.linesFrom videoMediaType v)

section

variable {body f} {a v i k : Nat} {best r : Best}

theorem exists_nextIndex (ha : a ≤ k) (haudio : body.IsAudio k) :
    ∃ i, body.nextIndex audioMediaType a = some i ∧ i ≤ k := by
  obtain ⟨j, hj, hk⟩ := Option.map_eq_some_iff.mp haudio
  obtain rfl : j = 0 := by omega
  obtain ⟨hlt, hfound, -⟩ := findIdx?_eq_some_iff_getElem.mp hj
  rw [getElem_drop] at hfound
  rw [length_drop] at hlt
  cases hnext : body.nextIndex audioMediaType a with
  | none =>
    have hall := findIdx?_eq_none_iff.mp (Option.map_eq_none_iff.mp hnext)
    have hmem : body.mediaLines[k + 0] ∈ body.mediaLines.drop a :=
      mem_drop_iff_getElem.mpr ⟨k - a, by omega, by congr 1; omega⟩
    rw [hall _ hmem] at hfound
    exact absurd hfound Bool.false_ne_true
  | some i =>
    refine ⟨i, rfl, Nat.le_of_not_lt fun hki => ?_⟩
    obtain ⟨d, hd, rfl⟩ := Option.map_eq_some_iff.mp hnext
    obtain ⟨hdlt, -, hbefore⟩ := findIdx?_eq_some_iff_getElem.mp hd
    refine hbefore (k - a) (by omega) ?_
    rw [getElem_drop]
    convert hfound using 3
    omega

theorem getMediaPort_nonneg {mediaIndex : Int} (h : 0 ≤ body.getMediaPort mediaIndex (-1))
    (old : Int) : 0 ≤ body.getMediaPort mediaIndex old := by
  by_cases hnil : body.getMediaSubfield mediaIndex 1 = []
  · rw [show body.getMediaPort mediaIndex (-1) = -1 from if_pos hnil] at h
    exact absurd h (by decide)
  · rwa [show body.getMediaPort mediaIndex old = body.getMediaPort mediaIndex (-1) from
      (if_neg hnil).trans (if_neg hnil).symm]

theorem getMediaPort_neg {mediaIndex old : Int} (h : body.getMediaPort mediaIndex (-1) < 0)
    (hold : old < 0) : body.getMediaPort mediaIndex old < 0 := by
  by_cases hnil : body.getMediaSubfield mediaIndex 1 = []
  · rwa [show body.getMediaPort mediaIndex old = old from if_pos hnil]
  · rwa [show body.getMediaPort mediaIndex old = body.getMediaPort mediaIndex (-1) from
      (if_neg hnil).trans (if_neg hnil).symm]

theorem codecs_ne_nil_of_answers {fuel : Nat} (hrun : body.bestLoop f fuel a v best = some r)
    (ha : a ≤ k) (haudio : body.IsAudio k) (hport : 0 ≤ body.getMediaPort k (-1)) :
    r.codecs ≠ [] ∧ 0 ≤ r.rtpPort := by
  induction fuel generalizing a v best with
  | zero => cases hrun
  | succ fuel ih =>
    obtain ⟨i, hnext, hik⟩ := exists_nextIndex ha haudio
    by_cases hanswers : 0 ≤ body.getMediaPort i best.rtpPort
    · rw [bestLoop_of_answers hnext hanswers, Option.some_inj] at hrun
      subst hrun
      exact ⟨codecsOf_ne_nil _ _, hanswers⟩
    · have hne : i ≠ k := by
        rintro rfl
        exact hanswers (getMediaPort_nonneg hport _)
      rw [bestLoop_of_refuses hnext (Int.not_le.mp hanswers)] at hrun
      exact ih hrun (Nat.lt_of_le_of_ne hik hne)

theorem linesFrom_le (body : SdpBody) (v : Nat) :
    body.linesFrom videoMediaType v ≤ body.linesFrom videoMediaType 0 :=
  (drop_sublist v body.mediaLines).countP_le

theorem usedUp_iff (hnext : body.nextIndex audioMediaType a = some i) :
    body.UsedUp (i + 1) (body.nextVideo v) ↔ body.UsedUp a v := by
  have hle := linesFrom_le body v
  rw [UsedUp, UsedUp, (linesFrom_of_some hnext).2.1, linesFrom_nextVideo]
  generalize body.linesFrom videoMediaType 0 = m at hle ⊢
  generalize body.linesFrom audioMediaType (i + 1) = n
  by_cases hzero : body.linesFrom videoMediaType v = 0
  · have hsub : n + (m + 1) - m = n + 1 := by omega
    rw [if_pos hzero, hzero, Nat.sub_zero, hsub, Nat.dvd_add_self_right]
  · rw [if_neg hzero]
    have hsub : n + (m + 1) - (body.linesFrom videoMediaType v - 1) =
        n + 1 + (m + 1) - body.linesFrom videoMediaType v := by omega
    rw [hsub]

/-- **No audio line has a port**: the search ends exactly if the video lines are used up with
them, and reports nothing. -/
theorem bestLoop_of_refused (hrefuse : ∀ k, a ≤ k → body.IsAudio k → body.getMediaPort k (-1) < 0)
    (hfirst : ∀ i, body.nextIndex audioMediaType a = some i → body.getMediaPort i best.rtpPort < 0)
    (hcodecs : best.codecs = []) :
    (∀ fuel, body.bestLoop f fuel a v best = some r → r.codecs = [] ∧ body.UsedUp a v) ∧
      (body.UsedUp a v → ∃ fuel r, body.bestLoop f fuel a v best = some r ∧ r.codecs = []) := by
  induction hn : body.linesFrom audioMediaType a generalizing a v best with
  | zero =>
    have hnext : body.nextIndex audioMediaType a = none := by
      cases h : body.nextIndex audioMediaType a with
      | none => rfl
      | some i => exact absurd (hn.symm.trans (linesFrom_of_some h).2.1) (Nat.succ_ne_zero _).symm
    have ⟨hends, hends'⟩ := @bestLoop_of_none body f a v best r hnext
    have hle := linesFrom_le body v
    have husedUp : body.UsedUp a v ↔ body.linesFrom videoMediaType v = 0 := by
      rw [UsedUp, hn, Nat.zero_add]
      refine ⟨fun h => ?_, fun h => by rw [h, Nat.sub_zero]⟩
      have := Nat.le_of_dvd (by omega) h
      omega
    rw [husedUp]
    refine ⟨fun fuel h => ?_, fun h => ⟨2, best, hends' h, hcodecs⟩⟩
    obtain ⟨rfl, hzero⟩ := hends fuel h
    exact ⟨hcodecs, hzero⟩
  | succ n ih =>
    cases hnext : body.nextIndex audioMediaType a with
    | none => exact absurd (hn.symm.trans (linesFrom_of_none hnext)) (Nat.succ_ne_zero n)
    | some i =>
      obtain ⟨hai, hlines, hself⟩ := linesFrom_of_some hnext
      have hport := hfirst i hnext
      obtain ⟨hrun, hrun'⟩ := @ih (i + 1) (body.nextVideo v) (best.at body i)
        (fun k hk => hrefuse k (by omega))
        (fun j hj => getMediaPort_neg (hrefuse j (by have := (linesFrom_of_some hj).1; omega)
          (linesFrom_of_some hj).2.2) hport) hcodecs (by omega)
      rw [usedUp_iff hnext] at hrun hrun'
      refine ⟨fun fuel h => ?_, fun h => ?_⟩
      · cases fuel with
        | zero => cases h
        | succ fuel => exact hrun fuel ((bestLoop_of_refuses hnext hport fuel).symm.trans h)
      · obtain ⟨fuel, r, hr, hnil⟩ := hrun' h
        exact ⟨fuel + 1, r, (bestLoop_of_refuses hnext hport fuel).trans hr, hnil⟩

/-- **`getBestAudioCodecs`** ends, with the codecs of the first audio line, exactly if that
line has a port that is not below zero, or none has and the video lines are used up. -/
theorem getBestAudioCodecs_endsWithFirst_iff (body : SdpBody) (f : SdpCodecFactory)
    (rtcpPort : Int) :
    body.EndsWithFirst f rtcpPort ↔
      (∃ k, body.nextIndex audioMediaType 0 = some k ∧ 0 ≤ body.getMediaPort k 0) ∨
      (∀ k, body.nextIndex audioMediaType 0 = some k → body.getMediaPort k 0 < 0) ∧
        (∀ k, body.IsAudio k → body.getMediaPort k (-1) < 0) ∧ body.UsedUp 0 0 := by
  have hfirst {k : Nat} (hk : body.nextIndex audioMediaType 0 = some k) : body.IsAudio k :=
    (linesFrom_of_some hk).2.2
  have hbefore {j k : Nat} (hj : body.IsAudio j) (hk : body.nextIndex audioMediaType 0 = some k) :
      k ≤ j := by
    obtain ⟨i, hi, hij⟩ := exists_nextIndex (Nat.zero_le j) hj
    rwa [Option.some_inj.mp (hk.symm.trans hi)]
  constructor
  · rintro ⟨fuel, r, hrun, hone⟩
    by_cases hhead : ∃ k, body.nextIndex audioMediaType 0 = some k ∧ 0 ≤ body.getMediaPort k 0
    · exact .inl hhead
    have hrefused : ∀ k, body.nextIndex audioMediaType 0 = some k → body.getMediaPort k 0 < 0 :=
      fun k hk => Int.not_le.mp fun h => hhead ⟨k, hk, h⟩
    by_cases hall : ∀ k, body.IsAudio k → body.getMediaPort k (-1) < 0
    · exact .inr ⟨hrefused, hall,
        ((bestLoop_of_refused (fun k _ => hall k) hrefused rfl).1 fuel hrun).2⟩
    · push Not at hall
      obtain ⟨k, hk, hport⟩ := hall
      obtain ⟨hcodecs, hrtp⟩ := codecs_ne_nil_of_answers hrun (Nat.zero_le k) hk hport
      obtain ⟨j, v, hj, hfirstj, -, hportj, -⟩ := hone hcodecs
      obtain ⟨i, hi, hij⟩ := exists_nextIndex (Nat.zero_le j) hj
      rcases Nat.lt_or_eq_of_le hij with hlt | rfl
      · exact absurd (hfirstj i hlt (hfirst hi) 0) (codecsOf_ne_nil _ _)
      · rw [hportj] at hrtp
        exact absurd (hrefused i hi) (Int.not_lt.mpr hrtp)
  · rintro (⟨k, hk, hport⟩ | ⟨hrefused, hall, husedUp⟩)
    · refine ⟨1, _, bestLoop_of_answers hk hport 0, fun _ =>
        ⟨k, _, hfirst hk, fun j hjk hj => ?_, rfl, rfl, rfl⟩⟩
      exact absurd (hbefore hj hk) (Nat.not_le.mpr hjk)
    · obtain ⟨fuel, r, hrun, hnil⟩ :=
        (@bestLoop_of_refused body f 0 0 { rtcpPort := rtcpPort } { } (fun k _ => hall k) hrefused
          rfl).2 husedUp
      exact ⟨fuel, r, hrun, fun h => absurd hnil h⟩

/-- A description with a video line only. -/
theorem not_endsWithFirst :
    ¬ ∀ (body : SdpBody) (f : SdpCodecFactory) (rtcpPort : Int), body.EndsWithFirst f rtcpPort := by
  intro h
  obtain ⟨fuel, r, hrun, -⟩ := h [⟨text "m", text "video 5000 RTP/AVP 31"⟩] ⟨[], 1⟩ 0
  have hused := ((bestLoop_of_none (by decide)).1 fuel hrun).2
  exact absurd hused (by decide)

end

end SdpBody

end SipXRouter
