import SipXRouter.Net.NameValueTokenizer

/-!
# Bodies of several parts

An `HttpBody` with a boundary in its type is taken apart into its parts, and a body to
which parts are appended keeps its bytes ready to be sent.
-/

namespace SipXRouter

open List

namespace NameValueTokenizer

/-- The blanks that `UtlString::strip` removes. -/
def isStripped : Byte → Bool := oneOf "\t \n\r"

/-- What is behind a line end, which may be one byte or two. -/
def skipLineEnd : Text → Text
  | 13 :: 10 :: rest => rest
  | _ :: rest => rest
  | [] => []

/-- `getNextPair`: the name, the value and what is left.  An empty name is none. -/
def getNextPair (separator : Byte) (s : Text) : Text × Text × Text :=
  let isLineByte : Byte → Bool := fun c => c != byte '\n' && c != byte '\r'
  let line := s.takeWhile isLineByte
  let name := line.takeWhile (· != separator)
  (trim isStripped name, trim isStripped (line.drop (name.length + 1)),
    skipLineEnd (s.dropWhile isLineByte))

end NameValueTokenizer

namespace HttpMessage

/-- `parseHeaders` with at most `fuel` fields: the fields and what is left.  A name has no blank
in front, so no line continues another. -/
def parseHeadersLoop : Nat → Text → List (Text × Text) × Text
  | 0, s => ([], s)
  | fuel + 1, s =>
    let pair := NameValueTokenizer.getNextPair (byte ':') s
    if pair.1 = [] then ([], pair.2.2)
    else
      let others := parseHeadersLoop fuel pair.2.2
      ((pair.1.map toUpper, pair.2.1) :: others.1, others.2)

def parseHeaders (s : Text) : List (Text × Text) × Text := parseHeadersLoop (s.length + 1) s

end HttpMessage

/-- `MimeBodyPart`, without the bytes of its own. -/
structure MimeBodyPart where
  contentType : Text
  nameValues : List (Text × Text)
  rawStart : Nat
  rawLength : Nat
  start : Nat
  length : Nat
  deriving DecidableEq

/-- A body with its parts, which are places in its bytes. -/
structure HttpBody where
  contentType : Text := []
  bodyLength : Nat := 0
  body : Text := []
  multipartBoundary : Text := []
  bodyParts : List MimeBodyPart := []
  deriving DecidableEq

namespace HttpBody

/-- The places where a text occurs. -/
def occurrences (needle s : Text) : List Nat :=
  (range (s.length + 1)).filter fun i => needle.isPrefixOf (s.drop i)

/-- `UtlString::replace` by a text of the same length. -/
def replaceAt (s : Text) (pos : Nat) (new : Text) : Text :=
  s.take pos ++ new ++ s.drop (pos + new.length)

/-! ## Reading -/

/-- The boundary that the constructor finds in a type without blanks around it. -/
def boundaryOf (contentType : Text) : Text :=
  let lower := contentType.map toLower
  match (occurrences (text "boundary") lower).head? with
  | some i =>
    if (text "multipart/").isPrefixOf lower then
      match (contentType.drop (i + 8)).dropWhile NameValueTokenizer.isBlank with
      | 61 :: value =>
        let value := (cString value).dropWhile NameValueTokenizer.isBlank
        -- a blank in front would be left alone, but there is none
        let value := value.takeWhile (· != byte ' ')
        let value := value.takeWhile (· != byte '\t')
        trim (· == byte '"') value
      | _ => []
    else []
  | none => []

/-- The byte at an index; there is none behind the end. -/
def byteAt (s : Text) (i : Int) : Byte := if i < 0 then 0 else s.getD i.toNat 0

/-- `getMultipartBytes`: where the part begins, and its length, which is zero where there is no
part. -/
def getMultipartBytes (b : HttpBody) (partIndex : Nat) : Nat × Int :=
  let places := occurrences b.multipartBoundary b.body
  match places[partIndex]?, places[partIndex + 1]? with
  | some first, some next =>
    let partStart := first + b.multipartBoundary.length
    let partStart := if byteAt b.body partStart = byte '\r' then partStart + 1 else partStart
    let partStart := if byteAt b.body partStart = byte '\n' then partStart + 1 else partStart
    let partEnd : Int := (next : Int) - 3
    let partEnd := if byteAt b.body partEnd = byte '\n' then partEnd - 1 else partEnd
    let partEnd := if byteAt b.body partEnd = byte '\r' then partEnd - 1 else partEnd
    if 0 < partEnd then (partStart, partEnd - partStart + 1) else (0, 0)
  | _, _ => (0, 0)

/-- The type of a part, from the last field for it, with at most `fuel` fields. -/
def partContentType : Nat → Text → Text → Text
  | 0, contentType, _ => contentType
  | fuel + 1, contentType, s =>
    let pair := NameValueTokenizer.getNextPair (byte ':') s
    if pair.1 = [] then contentType
    else
      partContentType fuel
        (if pair.1.map toUpper = text "CONTENT-TYPE" then pair.2.1 else contentType) pair.2.2

/-- The constructor of `MimeBodyPart` from a part of `parent`. -/
def mimeBodyPart (parent : Text) (rawStart rawLength : Nat) (contentType : Text) : MimeBodyPart :=
  let raw := (parent.drop rawStart).take rawLength
  let headers := HttpMessage.parseHeaders raw
  let parsed := raw.length - headers.2.length
  -- the type is appended to the one that is there already
  let partType := (headers.1.find? fun field => field.1 == text "CONTENT-TYPE").map Prod.snd
  { contentType := trim NameValueTokenizer.isBlank (cString contentType) ++ partType.getD []
    nameValues := headers.1
    rawStart := rawStart
    rawLength := rawLength
    start := rawStart + parsed
    length := rawLength - parsed }

/-- The parts from the one with the index on, at most `fuel` of them. -/
def readParts (b : HttpBody) : Nat → Nat → List MimeBodyPart
  | 0, _ => []
  | fuel + 1, partIndex =>
    let part := b.getMultipartBytes partIndex
    if part.2 ≤ 0 then []
    else
      let bytes := (b.body.drop part.1).take part.2.toNat
      mimeBodyPart b.body part.1 part.2.toNat (partContentType (bytes.length + 1) [] bytes) ::
        readParts b fuel (partIndex + 1)

/-- The constructor from bytes. -/
def ofBytes (bytes contentType : Text) : HttpBody :=
  let type := trim NameValueTokenizer.isBlank (cString contentType)
  let b : HttpBody :=
    { contentType := type
      bodyLength := bytes.length
      body := bytes
      multipartBoundary := boundaryOf type }
  if b.multipartBoundary = [] then b
  else { b with bodyParts := readParts b (occurrences b.multipartBoundary bytes).length 0 }

def getLength (b : HttpBody) : Nat := b.bodyLength

/-- The bytes of a part, cut out of those of the body. -/
def partBytes (b : HttpBody) (part : MimeBodyPart) : Text := (b.body.drop part.start).take part.length

/-! ## Building -/

/-- A boundary of eight digits. -/
def boundaryText (counter : UInt32) : Text :=
  [28, 24, 20, 16, 12, 8, 4, 0].map fun shift =>
    (text "0123456789abcdef").getD ((counter.toNat >>> shift) % 16) 0

/-- `nextBoundary`, on the counter. -/
def nextBoundary (boundaryCounter : UInt32) : UInt32 := boundaryCounter + 0x54637281

/-- The loop for a boundary that is not in the body.  After `2 ^ 32` turns the counter is where it
was, and the loop does not end. -/
def findBoundary (body : Text) : Nat → UInt32 → Option UInt32
  | 0, _ => none
  | fuel + 1, counter =>
    let counter := nextBoundary counter
    if occurrences (boundaryText counter) body = [] then some counter
    else findBoundary body fuel counter

/-- `HttpBodyMultipart`: a body with no parts, and the counter. -/
def multipart (counter : UInt32) (contentType : Text) : HttpBody × UInt32 :=
  let counter := nextBoundary counter
  let boundary := boundaryText counter
  let b := ofBytes [] contentType
  ({ b with
      multipartBoundary := boundary
      body := text "--" ++ boundary ++ text "--\r\n"
      contentType := b.contentType ++ text ";boundary=\"" ++ boundary ++ text "\"" }, counter)

def headerLine (field : Text × Text) : Text := field.1 ++ text ": " ++ field.2 ++ text "\r\n"

/-- `appendBodyPart`; `none` is a loop without end. -/
def appendBodyPart (counter : UInt32) (b body : HttpBody) (parameters : List (Text × Text)) :
    Option (HttpBody × UInt32) :=
  let nameValues := parameters ++ [(text "CONTENT-TYPE", body.contentType),
    (text "CONTENT-TRANSFER-ENCODING", text "binary")]
  -- the last delimiter becomes one between parts
  let bytes := b.body.take (b.body.length - 4) ++ text "\r\n"
  let rawPartStart := bytes.length
  let bytes := bytes ++ nameValues.flatMap headerLine ++ text "\r\n"
  let partStart := bytes.length
  let bytes := bytes ++ body.body
  let partEnd := bytes.length
  let changed := occurrences b.multipartBoundary (bytes.drop partStart) ≠ []
  let whole := bytes ++ text "\r\n--" ++ b.multipartBoundary ++ text "--\r\n"
  let part : MimeBodyPart :=
    { contentType := body.contentType
      nameValues := nameValues
      rawStart := rawPartStart
      rawLength := partEnd - rawPartStart
      start := partStart
      length := partEnd - partStart }
  let b := { b with bodyLength := bytes.length, body := whole, bodyParts := b.bodyParts ++ [part] }
  if changed then
    (findBoundary whole (2 ^ 32) counter).map fun counter =>
      let boundary := boundaryText counter
      let whole := b.bodyParts.foldl (fun s part => replaceAt s (part.rawStart - 10) boundary) whole
      let whole := replaceAt whole (whole.length - 12) boundary
      -- the place of the parameter in the type
      let place := (occurrences (text ";boundary=\"") b.contentType).headD 0
      ({ b with
          multipartBoundary := boundary
          body := whole
          contentType := replaceAt b.contentType (place + 11) boundary }, counter)
  else some (b, counter)

/-- A part that is to be appended. -/
structure Part where
  bytes : Text
  contentType : Text
  parameters : List (Text × Text)

def Part.body (part : Part) : HttpBody := ofBytes part.bytes part.contentType

/-- A body made of parts, appended one after the other. -/
def build (counter : UInt32) (contentType : Text) (parts : List Part) : Option (HttpBody × UInt32) :=
  parts.foldlM (fun s part => appendBodyPart s.2 s.1 part.body part.parameters)
    (multipart counter contentType)

/-- Where the delimiters have their boundary. -/
def delimiters (b : HttpBody) : List Nat :=
  b.bodyParts.map (fun part => part.rawStart - 10) ++ [b.body.length - 12]

/-- The body says how long it is, has the boundary in its delimiters and nowhere else, and gives its
parts back when it is read. -/
structure WellBuilt (b : HttpBody) (parts : List Part) : Prop where
  length : b.getLength = b.body.length
  delimiters : occurrences b.multipartBoundary b.body = b.delimiters
  parts : (ofBytes b.body b.contentType).bodyParts.map (fun part =>
      (part.contentType, (ofBytes b.body b.contentType).partBytes part)) =
    parts.map fun part => (part.body.contentType, part.bytes)

/-! ## The length -/

theorem length_le_replaceAt (s : Text) (pos : Nat) (new : Text) :
    s.length ≤ (replaceAt s pos new).length := by
  simp only [replaceAt, length_append, length_take, length_drop]
  omega

theorem length_le_foldl_replaceAt (new : Text) (parts : List MimeBodyPart) (s : Text) :
    s.length ≤ (parts.foldl (fun s part => replaceAt s (part.rawStart - 10) new) s).length := by
  induction parts generalizing s with
  | nil => exact le_rfl
  | cons part parts ih => exact (length_le_replaceAt s _ new).trans (ih _)

theorem bodyLength_lt_appendBodyPart {counter counter' : UInt32} {b b' body : HttpBody}
    {parameters : List (Text × Text)}
    (h : appendBodyPart counter b body parameters = some (b', counter')) :
    b'.bodyLength < b'.body.length := by
  have hwhole : ∀ bytes boundary : Text,
      bytes.length < (bytes ++ text "\r\n--" ++ boundary ++ text "--\r\n").length := by
    intro bytes boundary
    simp only [length_append]
    have hend : (text "\r\n--").length = 4 := rfl
    omega
  unfold appendBodyPart at h
  simp only at h
  split at h
  · obtain ⟨counter, -, hb⟩ := Option.map_eq_some_iff.mp h
    obtain ⟨rfl, -⟩ := Prod.mk.inj hb
    refine (hwhole _ b.multipartBoundary).trans_le ?_
    exact (length_le_foldl_replaceAt _ _ _).trans (length_le_replaceAt _ _ _)
  · obtain ⟨rfl, -⟩ := Prod.mk.inj (Option.some.inj h)
    exact hwhole _ b.multipartBoundary

theorem bodyLength_ofBytes (bytes contentType : Text) :
    (ofBytes bytes contentType).bodyLength = bytes.length := by
  unfold ofBytes
  simp only
  split <;> rfl

theorem bodyLength_lt_multipart (counter : UInt32) (contentType : Text) :
    (multipart counter contentType).1.bodyLength < (multipart counter contentType).1.body.length := by
  have hzero : (multipart counter contentType).1.bodyLength = 0 := bodyLength_ofBytes [] contentType
  have hbody : (multipart counter contentType).1.body =
      text "--" ++ boundaryText (nextBoundary counter) ++ text "--\r\n" := rfl
  rw [hzero, hbody]
  simp [boundaryText, text]

theorem bodyLength_lt_build {counter counter' : UInt32} {contentType : Text} {parts : List Part}
    {b : HttpBody} (h : build counter contentType parts = some (b, counter')) :
    b.bodyLength < b.body.length := by
  have hfold : ∀ (parts : List Part) (s : HttpBody × UInt32), s.1.bodyLength < s.1.body.length →
      parts.foldlM (fun s part => appendBodyPart s.2 s.1 part.body part.parameters) s =
        some (b, counter') → b.bodyLength < b.body.length := by
    intro parts
    induction parts with
    | nil =>
      rintro s hs h
      obtain rfl := Option.some.inj h
      exact hs
    | cons part parts ih =>
      intro s _ h
      rw [foldlM_cons, Option.bind_eq_bind] at h
      obtain ⟨s', hs', hrest⟩ := Option.bind_eq_some_iff.mp h
      exact ih s' (bodyLength_lt_appendBodyPart hs') hrest
  exact hfold parts _ (bodyLength_lt_multipart counter contentType) h

/-- No body that is built has the length that it says. -/
theorem not_wellBuilt (counter : UInt32) (contentType : Text) (parts : List Part) :
    ¬ ∃ b counter', build counter contentType parts = some (b, counter') ∧ b.WellBuilt parts := by
  rintro ⟨b, counter', hbuild, hwell⟩
  exact (bodyLength_lt_build hbuild).ne hwell.length

/-! ### A body of one part -/

/-- One part of five bytes: the length is too small by the sixteen bytes of the last delimiter, and
the part that is read has its type twice.  A parameter behind the boundary is taken into it. -/
theorem not_wellBuilt_onePart :
    let parts : List Part := [⟨text "hello", text "text/plain", []⟩]
    ∃ b counter', build 0 (text "multipart/mixed") parts = some (b, counter') ∧ ¬ b.WellBuilt parts ∧
      b.getLength + 16 = b.body.length ∧
      (ofBytes b.body b.contentType).bodyParts.map MimeBodyPart.contentType =
        [text "text/plaintext/plain"] ∧
      (ofBytes [] (text "multipart/mixed;boundary=abc;type=x")).multipartBoundary =
        text "abc;type=x" := by
  intro parts
  have hbuilt : (build 0 (text "multipart/mixed") parts).map (fun s => (s.1.bodyLength + 16,
      (ofBytes s.1.body s.1.contentType).bodyParts.map MimeBodyPart.contentType)) =
      (build 0 (text "multipart/mixed") parts).map (fun s => (s.1.body.length,
        [text "text/plaintext/plain"])) := by
    decide
  have hsome : (build 0 (text "multipart/mixed") parts).isSome = true := by decide
  obtain ⟨⟨b, counter'⟩, hb⟩ := Option.isSome_iff_exists.mp hsome
  rw [hb] at hbuilt
  obtain ⟨hlength, htypes⟩ := Prod.mk.inj (Option.some.inj hbuilt)
  refine ⟨b, counter', hb, fun h => ?_, hlength, htypes, by decide⟩
  have hwhole : b.bodyLength = b.body.length := h.length
  have hlonger : b.bodyLength + 16 = b.body.length := hlength
  omega

end HttpBody

end SipXRouter
