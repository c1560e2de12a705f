import SipXRouter.Net.NameValueTokenizer

/-!
# Header lists, first lines and escapes

The part of `HttpMessage` that the SIP message class is built on: a first line,
a list of named header values, and the escaping of URL parameter values.

## Design notes

Header names are kept in upper case, as `NameValuePair::toUpper` leaves them, and
compared as texts.  A value that is empty is reported as absent by
`getHeaderValue`, although it takes part in the numbering.
-/

namespace SipXRouter

open List

/-! ## Escapes -/

/-- The byte value of a hexadecimal digit. -/
def hexByte (c : Byte) : Byte := UInt8.ofNat (hexValue c)

/-- The two upper case digits that `%02X` prints. -/
def hexPair (c : Byte) : Text :=
  [hexDigit (c / 16), hexDigit (c % 16)]
where
  hexDigit (d : Byte) : Byte := if d < 10 then d + 48 else d + 55

/-- The bytes `HttpMessage::escape` copies. -/
def isUnreserved (c : Byte) : Bool := isAlnum c || oneOf "-_." c

/-- One byte as `HttpMessage::escape` writes it. -/
def escapeByte (c : Byte) : Text :=
  if isUnreserved c then [c]
  else if c = byte ' ' then [byte '+']
  else byte '%' :: hexPair c

/-- `HttpMessage::escape`, up to the first NUL. -/
def escape (s : Text) : Text := (cString s).flatMap escapeByte

/-- The bytes `HttpMessage::escape` writes. -/
def isEscapeByte (c : Byte) : Bool := isUnreserved c || oneOf "+%" c

theorem isEscapeByte_escape (s : Text) : ∀ c ∈ escape s, isEscapeByte c = true := by
  have hpair : ∀ b : Byte, ∀ c ∈ hexPair b, isUnreserved c = true := by decide +kernel
  intro c hc
  obtain ⟨b, -, hb⟩ := mem_flatMap.mp hc
  unfold escapeByte at hb
  split at hb
  · next hplain => rw [mem_singleton.mp hb, isEscapeByte, hplain, Bool.true_or]
  · split at hb
    · rw [mem_singleton.mp hb]
      decide
    · rcases mem_cons.mp hb with rfl | hb
      · decide
      · rw [isEscapeByte, hpair b c hb, Bool.true_or]

/-- The scan of `HttpMessage::unescape`.  The variable `escaped` keeps its value
from one escape to the next, so a byte that is no hexadecimal digit leaves the
last one in place; an escape cut short ends the scan. -/
def unescapeLoop : Byte → Text → Text
  | _, [] => []
  | escaped, c :: cs =>
    if c = byte '+' then byte ' ' :: unescapeLoop escaped cs
    else if c = byte '%' then
      match cs with
      | [] => []
      | [_] => []
      | high :: low :: rest =>
        let escaped := if isHex high then hexByte high * 16 else escaped
        let escaped := if isHex low then escaped + hexByte low else escaped
        escaped :: unescapeLoop escaped rest
    else c :: unescapeLoop escaped cs

/-- `HttpMessage::unescape`.  The scan ends at a NUL.  Its result replaces the front of the
string as a C string, so an escaped NUL cuts it there and the tail of the escaped text shows
behind it. -/
def unescape (s : Text) : Text :=
  let result := unescapeLoop 255 (cString s)
  (result.takeWhile (· ≠ 0) ++ s.drop result.length).take result.length

theorem unescape_eq_self {s : Text} (hs : ∀ c ∈ s, c ≠ byte '+' ∧ c ≠ byte '%' ∧ c ≠ 0) :
    unescape s = s := by
  have hloop : ∀ (t : Text) (e : Byte), (∀ c ∈ t, c ≠ byte '+' ∧ c ≠ byte '%' ∧ c ≠ 0) →
      unescapeLoop e t = t := by
    intro t
    induction t with
    | nil => intro e _; rfl
    | cons c t ih =>
      intro e ht
      obtain ⟨hplus, hpercent, -⟩ := ht c (by simp)
      rw [unescapeLoop.eq_def]
      simp only [hplus, hpercent, if_false]
      rw [ih e fun d hd => ht d (by simp [hd])]
  have hself : cString s = s := cString_eq_self fun c hc => by simpa using (hs c hc).2.2
  have htake : s.takeWhile (· ≠ 0) = s := by
    rw [takeWhile_eq_self_iff]
    intro c hc
    simpa using (hs c hc).2.2
  rw [unescape, hself, hloop s _ hs, htake, drop_length, append_nil, take_length]

/-! ## Name and value lists -/

/-- The blanks that `parseCgiVariables` trims. -/
def isCgiBlank : Byte → Bool := oneOf " \t\n\r"

/-- One pair of a `name=value` list, or nothing where the name is blank. -/
def parseCgiVariable (pair : Text) : Option (Text × Text) :=
  match NameValueTokenizer.getSubFieldPtr pair 0 (· == byte '=') with
  | none => none
  | some (name, rest) =>
    let name := name.dropWhile NameValueTokenizer.isBlank
    if name = [] then none
    else
      -- further separators are passed over
      let value := rest.dropWhile (· == byte '=')
      some (trim isCgiBlank (unescape name), unescape (trim isCgiBlank value))

/-- `HttpRequestContext::parseCgiVariables` with `=` between name and value. -/
def parseCgiVariables (pairSeparator : Byte) (query : Text) : List (Text × Text) :=
  (segments (· == pairSeparator) query).filterMap parseCgiVariable

/-! ## Messages -/

/-- A message: its first line, its headers with upper case names, and the
address and port it was received from. -/
structure HttpMessage where
  firstHeaderLine : Text
  nameValues : List (Text × Text)
  sendAddress : Text := []
  sendPort : Int := -1
deriving DecidableEq

namespace HttpMessage

/-! ### The first line -/

/-- Where part `k` of the first line starts, behind any run of blanks. -/
def partStart : Nat → Text → Option Text
  | 0, line => some (line.dropWhile (· == byte ' '))
  | k + 1, line =>
    match (line.dropWhile (· == byte ' ')).dropWhile (· != byte ' ') with
    | [] => none
    | _ :: rest => partStart k rest

/-- `getFirstHeaderLinePart`: the first two parts end at a blank, the third is
all that follows. -/
def getFirstHeaderLinePart (m : HttpMessage) (k : Nat) : Text :=
  match partStart k m.firstHeaderLine with
  | none => []
  | some start => if k < 2 then start.takeWhile (· != byte ' ') else start

def getRequestUri (m : HttpMessage) : Text := m.getFirstHeaderLinePart 1

/-- The first line with another URI in it. -/
def changeRequestUri (m : HttpMessage) (newUri : Text) : HttpMessage :=
  { m with
    firstHeaderLine :=
      m.getFirstHeaderLinePart 0 ++ byte ' ' :: newUri ++ byte ' ' :: m.getFirstHeaderLinePart 2 }

/-! ### Headers -/

/-- The values of the headers with this very name, in their order. -/
def headerValues (m : HttpMessage) (name : Text) : List Text :=
  (m.nameValues.filter (·.1 == name)).map Prod.snd

/-- `getHeaderValue`: an empty value counts as none. -/
def getHeaderValue (m : HttpMessage) (index : Nat) (name : Text) : Option Text :=
  match (m.headerValues name)[index]? with
  | none => none
  | some value => if value = [] then none else some value

/-- Give the `index`-th pair of one name a new value. -/
def setValueAt (name value : Text) : Nat → List (Text × Text) → Option (List (Text × Text))
  | _, [] => none
  | k, nv :: rest =>
    if nv.1 = name then
      match k with
      | 0 => some ((nv.1, value) :: rest)
      | k + 1 => (setValueAt name value k rest).map (nv :: ·)
    else (setValueAt name value k rest).map (nv :: ·)

/-- `addHeaderField`: a new header at the end. -/
def addHeaderField (m : HttpMessage) (name value : Text) : HttpMessage :=
  { m with nameValues := m.nameValues ++ [(name, value)] }

/-- `setHeaderValue`: the header of that name and index, or a new one at the
end. -/
def setHeaderValue (m : HttpMessage) (name value : Text) (index : Nat) : HttpMessage :=
  match setValueAt name value index m.nameValues with
  | some nvs => { m with nameValues := nvs }
  | none => m.addHeaderField name value

@[simp] theorem setHeaderValue_sendAddress (m : HttpMessage) (name value : Text) (index : Nat) :
    (m.setHeaderValue name value index).sendAddress = m.sendAddress := by
  unfold setHeaderValue
  cases setValueAt name value index m.nameValues <;> rfl

@[simp] theorem setHeaderValue_sendPort (m : HttpMessage) (name value : Text) (index : Nat) :
    (m.setHeaderValue name value index).sendPort = m.sendPort := by
  unfold setHeaderValue
  cases setValueAt name value index m.nameValues <;> rfl

/-- `while (removeHeader(name, 0))`. -/
def removeHeaders (m : HttpMessage) (name : Text) : HttpMessage :=
  { m with nameValues := m.nameValues.filter (·.1 != name) }

/-- `insertHeaderField` at index 0. -/
def insertHeaderField (m : HttpMessage) (name value : Text) : HttpMessage :=
  { m with nameValues := (name, value) :: m.nameValues }

/-- What `setHeaderValue` does to the values of its own field. -/
theorem headerValues_setHeaderValue (m : HttpMessage) (name value : Text) (index : Nat) :
    (m.setHeaderValue name value index).headerValues name =
      if index < (m.headerValues name).length then (m.headerValues name).set index value
      else m.headerValues name ++ [value] := by
  have hset : ∀ (nvs : List (Text × Text)) (k : Nat),
      match setValueAt name value k nvs with
      | some nvs' =>
        k < ((nvs.filter (·.1 == name)).map Prod.snd).length ∧
        (nvs'.filter (·.1 == name)).map Prod.snd =
          ((nvs.filter (·.1 == name)).map Prod.snd).set k value
      | none => ((nvs.filter (·.1 == name)).map Prod.snd).length ≤ k := by
    intro nvs
    induction nvs with
    | nil => intro k; simp [setValueAt]
    | cons nv rest ih =>
      intro k
      by_cases hname : nv.1 = name
      · cases k with
        | zero => simp [setValueAt, hname]
        | succ k =>
          have hrest := ih k
          cases hrec : setValueAt name value k rest with
          | none => simpa [setValueAt, hname, hrec] using hrest
          | some nvs' => simpa [setValueAt, hname, hrec] using hrest
      · have hrest := ih k
        cases hrec : setValueAt name value k rest with
        | none => simpa [setValueAt, hname, hrec] using hrest
        | some nvs' => simpa [setValueAt, hname, hrec] using hrest
  have h := hset m.nameValues index
  cases hfound : setValueAt name value index m.nameValues with
  | some nvs =>
    rw [hfound] at h
    rw [setHeaderValue, hfound, headerValues, headerValues, if_pos h.1]
    exact h.2
  | none =>
    rw [hfound] at h
    rw [setHeaderValue, hfound, headerValues, headerValues, if_neg (Nat.not_lt.mpr h)]
    simp [addHeaderField]

/-- Setting a header leaves those of other names alone. -/
theorem headerValues_setHeaderValue_of_ne (m : HttpMessage) {name other : Text} (hne : name ≠ other)
    (value : Text) (index : Nat) :
    (m.setHeaderValue name value index).headerValues other = m.headerValues other := by
  have hset : ∀ (nvs nvs' : List (Text × Text)) (k : Nat), setValueAt name value k nvs = some nvs' →
      nvs'.filter (·.1 == other) = nvs.filter (·.1 == other) := by
    intro nvs
    induction nvs with
    | nil => intro nvs' k h; exact nomatch h
    | cons nv rest ih =>
      intro nvs' k h
      have hmap : ∀ k, (setValueAt name value k rest).map (nv :: ·) = some nvs' →
          nvs'.filter (·.1 == other) = (nv :: rest).filter (·.1 == other) := by
        intro k h
        obtain ⟨rest', hrest, rfl⟩ := Option.map_eq_some_iff.mp h
        rw [filter_cons, filter_cons, ih rest' k hrest]
      by_cases hname : nv.1 = name
      · cases k with
        | zero =>
          have hother : (nv.1 == other) = false := beq_eq_false_iff_ne.mpr (hname ▸ hne)
          rw [setValueAt, if_pos hname] at h
          rw [← Option.some.inj h, filter_cons, filter_cons, hother]
          rfl
        | succ k =>
          rw [setValueAt, if_pos hname] at h
          exact hmap k h
      · cases k with
        | zero =>
          rw [setValueAt, if_neg hname] at h
          exact hmap 0 h
        | succ k =>
          rw [setValueAt, if_neg hname] at h
          exact hmap (k + 1) h
  unfold setHeaderValue headerValues
  cases hfound : setValueAt name value index m.nameValues with
  | some nvs =>
    show (nvs.filter _).map _ = _
    rw [hset _ _ _ hfound]
  | none =>
    show ((m.nameValues ++ [(name, value)]).filter _).map _ = _
    have hnone : [(name, value)].filter (·.1 == other) = [] :=
      filter_cons_of_neg (ne_true_of_eq_false (beq_eq_false_iff_ne.mpr hne))
    rw [filter_append, hnone, append_nil]

end HttpMessage

end SipXRouter
