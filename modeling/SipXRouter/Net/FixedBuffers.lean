import SipXRouter.Net.SipMessage
import SipXRouter.Net.UrlRead
import SipXRouter.Utl.UtlString
import SipXRouter.Utl.UtlStringInv

/-!
# Texts printed into buffers

Two places print into a buffer whose size they have worked out beforehand.
`Url::getHostWithPort` has an array for a colon and five digits, while the parser reads six.
`SipMessage::setWarningField` asks for two bytes less than its format takes, and goes on
printing where the string has not been given more than that.
-/

namespace SipXRouter

open List

theorem length_natText_le_iff {n k : Nat} (hk : 0 < k) : (natText n).length ≤ k ↔ n < 10 ^ k := by
  rw [natText, length_map]
  exact Nat.length_toDigits_le_iff (by decide) hk

/-! ## The port -/

namespace Url

open Pattern

/-- The size of `portNum`. -/
def portNumSize : Nat := 7

/-- What `getHostWithPort` does with `portNum`: the port is printed into it, with a NUL. -/
def formatPort (portNum : Text) (u : Url) : Option Text :=
  if u.hostPort = portNone then some portNum
  else Block.write portNum 0 (byte ':' :: intText u.hostPort ++ [0])

theorem hostPort_parseHostAndPort {st : ParseState} (hst : portNone ≤ st.url.hostPort) :
    portNone ≤ (parseHostAndPort st).url.hostPort := by
  unfold parseHostAndPort
  cases matchAt hostAndPortRegex st.rest with
  | none =>
    dsimp only
    split
    · exact hst
    · exact hst
  | some m =>
    dsimp only
    cases m.group 2 with
    | none => exact le_rfl
    | some port => exact (by decide : portNone ≤ 0).trans (Int.natCast_nonneg _)

theorem hostPort_parseFront (form : UriForm) (s : Text) :
    portNone ≤ (parseFront form s).url.hostPort := by
  have hname (st : ParseState) :
      (parseDisplayName st).url.hostPort = st.url.hostPort := by
    unfold parseDisplayName
    cases matchAt displayNameRegex st.rest <;> rfl
  have hbrackets (st : ParseState) :
      (parseAngleBrackets st).url.hostPort = st.url.hostPort := by
    unfold parseAngleBrackets
    cases matchAt angleBracketsRegex st.rest <;> rfl
  have hscheme (st : ParseState) :
      (parseScheme form st).url.hostPort = st.url.hostPort := by
    unfold parseScheme
    cases matchAt (supportedSchemeRegex form) st.rest <;> rfl
  have hslashes (st : ParseState) : (skipSlashes st).url.hostPort = st.url.hostPort := by
    unfold skipSlashes
    split <;> rfl
  have huser (st : ParseState) : (parseUser st).url.hostPort = st.url.hostPort := by
    unfold parseUser
    split
    · rfl
    · cases matchAt usernameAndPasswordRegex st.rest <;> rfl
  unfold parseFront
  apply hostPort_parseHostAndPort
  rw [huser, hslashes, hscheme]
  cases form with
  | addrSpec => exact le_rfl
  | nameAddr =>
    show portNone ≤ (parseAngleBrackets (parseDisplayName _)).url.hostPort
    rw [hbrackets, hname]

theorem hostPort_parseString (s : Text) (form : UriForm) (nextUri : Bool) :
    portNone ≤ (parseString s form nextUri).url.hostPort := by
  have hkeeps : Keeps (parseFront form s) (parseString s form nextUri) :=
    (keeps_parseBack form _).trans (keeps_parseEnd form nextUri _)
  have hport : (parseString s form nextUri).url.hostPort = (parseFront form s).url.hostPort := by
    have hauthority := hkeeps.1
    simp only [authority, Prod.mk.injEq] at hauthority
    exact hauthority.2.2
  rw [hport]
  exact hostPort_parseFront form s

/-- **Where the port fits.** -/
theorem isSome_formatPort_iff {u : Url} (hu : portNone ≤ u.hostPort) {portNum : Text}
    (hsize : portNum.length = portNumSize) :
    (formatPort portNum u).isSome ↔ u.hostPort ≤ 99999 := by
  by_cases hport : u.hostPort = portNone
  · rw [formatPort, if_pos hport, hport]
    exact iff_of_true rfl (by decide)
  · obtain ⟨n, hn⟩ : ∃ n : Nat, u.hostPort = n := by
      refine Int.eq_ofNat_of_zero_le ?_
      rw [portNone] at hu hport
      omega
    have hlength : (byte ':' :: intText u.hostPort ++ [0]).length = (natText n).length + 2 := by
      rw [hn]
      simp [intText]
    have hdigits : (natText n).length ≤ 5 ↔ n < 10 ^ 5 := length_natText_le_iff (by decide)
    have hwrite : (formatPort portNum u).isSome ↔ (natText n).length + 2 ≤ 7 := by
      rw [formatPort, if_neg hport, Block.isSome_write_iff, hlength, hsize, portNumSize,
        Nat.zero_add]
    rw [hwrite, hn]
    omega

end Url

/-! ## The warning -/

namespace SipMessage

open UtlStringRep Outcome

/-- `%3d`. -/
def paddedText (i : Int) : Text :=
  replicate (3 - (intText i).length) (byte ' ') ++ intText i

/-- The text of the format of `setWarningField`. -/
def warningText (code : Int) (hostname text : Text) : Text :=
  paddedText code ++ byte ' ' :: hostname ++ byte ' ' :: byte '"' :: text ++ [byte '"']

/-- `sizeNeeded`. -/
def warningSizeNeeded (hostname text : Text) : Nat := 3 + hostname.length + text.length + 3

/-- What `setWarningField` does with `warningContent`: the text is printed over its bytes, with
a NUL, if the string has the size that was asked for. -/
def formatWarning (mem : Memory) (code : Int) (hostname text : Text) : Outcome UtlStringRep :=
  ((empty mem).capacity mem (warningSizeNeeded hostname text)).andThen fun s =>
    if warningSizeNeeded hostname text ≤ s.mCapacity then
      s.store 0 (warningText code hostname text ++ [0])
    else done s

/-- The number of characters of the code. -/
def codeWidth (code : Int) : Nat := max 3 (intText code).length

theorem length_warningText (code : Int) (hostname text : Text) :
    (warningText code hostname text ++ [0]).length =
      codeWidth code + (hostname.length + text.length) + 5 := by
  simp only [warningText, paddedText, codeWidth, length_append, length_cons,
    length_replicate, length_nil]
  omega

/-- The size of a new string that has been asked for `N` bytes. -/
def allocatedSize (N : Nat) : Nat := if N ≤ 100 then 100 else if N < 200 then 200 else N

/-- An empty string is given just the size that is allocated for it. -/
theorem mCapacity_capacity_empty {mem : Memory} {N : Nat} {left : Left UtlStringRep}
    (h : (empty mem).capacity mem N = some left) (hraised : left.raised = false) :
    left.state.mCapacity = allocatedSize N := by
  have hempty : (empty mem).mCapacity = 100 :=
    congrArg (· + 1) (length_ofFn : (ofFn mem.builtIn).length = 99)
  have hblock : (empty mem).blockSize N = if N < 200 then 200 else N := by
    rw [blockSize, hempty]
    rfl
  rw [UtlStringRep.capacity, hempty] at h
  unfold allocatedSize
  by_cases hle : N ≤ 100
  · rw [if_neg (Nat.not_lt.mpr hle)] at h
    rw [if_pos hle, ← Option.some.inj h, ← hempty]
  · rw [if_pos (Nat.not_le.mp hle)] at h
    rw [if_neg hle, ← hblock]
    cases halloc : mem.allocate ((empty mem).blockSize N) with
    | none =>
      rw [halloc] at h
      rw [← Option.some.inj h] at hraised
      exact absurd hraised (by simp)
    | some newData =>
      rw [halloc] at h
      obtain ⟨data, hdata, hdone⟩ := Option.bind_eq_some_iff.mp h
      replace hdata : Block.write newData 0 [0] = some data := hdata
      rw [← Option.some.inj hdone, ← mem.length_allocate halloc]
      exact Block.length_write hdata

/-- A memory that has a block of any size. -/
def roomyMemory : Memory where
  builtIn _ := 0
  allocate n := some (replicate n 0)
  length_allocate h := Option.some.inj h ▸ length_replicate

theorem exists_capacity_empty (mem : Memory) (N : Nat) :
    ∃ left, (empty mem).capacity mem N = some left := by
  have hends : ((empty mem).capacity mem N).Ends (Grown N (empty mem)) fun _ => True :=
    capacity_ends (Nat.zero_le _) N trivial
  obtain ⟨left, hleft, -⟩ := hends
  exact ⟨left, hleft⟩

theorem not_raised_roomyMemory {N : Nat} {left : Left UtlStringRep}
    (h : (empty roomyMemory).capacity roomyMemory N = some left) : left.raised = false := by
  unfold UtlStringRep.capacity at h
  split at h
  · obtain ⟨_, -, hdone⟩ := Option.bind_eq_some_iff.mp h
    rw [← Option.some.inj hdone]
  · rw [← Option.some.inj h]

/-- **Where the warning fits**, whatever the memory: nothing is printed beyond the bytes of the
string. -/
theorem isSome_formatWarning_iff (code : Int) (hostname text : Text) :
    (∀ mem, (formatWarning mem code hostname text).isSome) ↔
      codeWidth code + (hostname.length + text.length) ≤ 95 ∨
        94 < hostname.length + text.length ∧
          codeWidth code + (hostname.length + text.length) ≤ 195 := by
  have hsize : warningSizeNeeded hostname text = hostname.length + text.length + 6 := by
    rw [warningSizeNeeded]
    omega
  have hwidth : 3 ≤ codeWidth code := Nat.le_max_left _ _
  have hneeded : warningSizeNeeded hostname text ≤
      allocatedSize (warningSizeNeeded hostname text) := by
    unfold allocatedSize
    split
    · assumption
    · split <;> omega
  have hfits : (codeWidth code + (hostname.length + text.length) + 5 ≤
      allocatedSize (warningSizeNeeded hostname text)) ↔
      codeWidth code + (hostname.length + text.length) ≤ 95 ∨
        94 < hostname.length + text.length ∧
          codeWidth code + (hostname.length + text.length) ≤ 195 := by
    rw [hsize, allocatedSize]
    split
    · omega
    · split <;> omega
  have hstore {mem : Memory} {left : Left UtlStringRep}
      (h : (empty mem).capacity mem (warningSizeNeeded hostname text) = some left)
      (hraised : left.raised = false) :
      (formatWarning mem code hostname text).isSome ↔
        codeWidth code + (hostname.length + text.length) + 5 ≤
          allocatedSize (warningSizeNeeded hostname text) := by
    have hcapacity := mCapacity_capacity_empty h hraised
    have hwrite : (Block.write left.state.mpData 0 (warningText code hostname text ++ [0])).isSome ↔
        0 + (warningText code hostname text ++ [0]).length ≤ left.state.mpData.length :=
      Block.isSome_write_iff
    rw [length_warningText, Nat.zero_add] at hwrite
    rw [formatWarning, h, andThen, hraised, if_neg Bool.false_ne_true, hcapacity,
      if_pos hneeded, store, ← hcapacity, Option.isSome_bind]
    exact hwrite
  rw [← hfits]
  constructor
  · intro h
    obtain ⟨left, hleft⟩ := exists_capacity_empty roomyMemory (warningSizeNeeded hostname text)
    exact (hstore hleft (not_raised_roomyMemory hleft)).mp (h roomyMemory)
  · intro h mem
    obtain ⟨left, hleft⟩ := exists_capacity_empty mem (warningSizeNeeded hostname text)
    cases hraised : left.raised with
    | false => exact (hstore hleft hraised).mpr h
    | true =>
      -- without memory nothing is printed
      rw [formatWarning, hleft, andThen, hraised]
      rfl

/-- **Where the two buffers are large enough.**  A port that was read fits up to five digits.  A
warning fits where its length and that of the code leave the block that the string has been given
room for the two bytes that were not counted. -/
theorem buffers_fit_iff (s : Text) (form : UriForm) (nextUri : Bool) (portNum : Text)
    (code : Int) (hostname text : Text) :
    (portNum.length = Url.portNumSize →
      ((Url.formatPort portNum (Url.parseString s form nextUri).url).isSome ↔
        (Url.parseString s form nextUri).url.hostPort ≤ 99999)) ∧
    ((∀ mem, (formatWarning mem code hostname text).isSome) ↔
      codeWidth code + (hostname.length + text.length) ≤ 95 ∨
        94 < hostname.length + text.length ∧
          codeWidth code + (hostname.length + text.length) ≤ 195) :=
  ⟨Url.isSome_formatPort_iff (Url.hostPort_parseString s form nextUri),
    isSome_formatWarning_iff code hostname text⟩

theorem buffers_fit_iff_five :
    (text "0123456").length = Url.portNumSize ∧
    ((Url.formatPort (text "0123456") (Url.fromString (text "sip:a@b:5060") .addrSpec)).isSome ↔
      (Url.fromString (text "sip:a@b:5060") .addrSpec).hostPort ≤ 99999) :=
  ⟨rfl, (buffers_fit_iff (text "sip:a@b:5060") .addrSpec false (text "0123456") 0 [] []).1 rfl⟩

/-- A port of six digits takes eight bytes; a code of three digits, with ninety-three characters
behind it, takes a hundred and one. -/
theorem buffers_overrun :
    (Url.fromString (text "sip:a@b:100000") .addrSpec).hostPort = 100000 ∧
    Url.formatPort (text "0123456") (Url.fromString (text "sip:a@b:100000") .addrSpec) = none ∧
    formatWarning roomyMemory 399 (replicate 60 (byte 'h')) (replicate 33 (byte 't')) =
      none := by
  refine ⟨by decide, by decide, by decide⟩

end SipMessage

end SipXRouter
