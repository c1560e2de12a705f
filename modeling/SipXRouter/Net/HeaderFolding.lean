import SipXRouter.Net.HttpBody
import SipXRouter.Net.UrlParams

/-!
# Folded header fields

A header value may be folded: whitespace in it is replaced by a line break and blanks, and the
blanks at the front of a line say that it goes on with the line before.  `parseHeaders` looks
for them in the name that `getNextPair` delivers, which has lost its blanks on both sides.  So
each line is a field of its own.
-/

namespace SipXRouter

open List

namespace HttpMessage

open NameValueTokenizer

/-! ## The loop -/

/-- `backTrim(…, " \t")`, for which the NUL is one of the blanks too. -/
def backTrim (s : Text) : Text := (s.reverse.dropWhile fun c => isBlank c || c == 0).reverse

/-- A field as it is kept. -/
def stored (nv : Text × Text) : Text × Text := (cString (backTrim nv.1), cString nv.2)

/-- A line that was read: it goes on with the last field, or is a field of its own. -/
def addLine (fields : List (Text × Text)) (name value : Text) : List (Text × Text) :=
  match fields.getLast? with
  | none => fields ++ [stored (name.map toUpper, value)]
  | some previous =>
    if name.head?.any isBlank then
      fields.dropLast ++ [(previous.1,
        cString (previous.2 ++ name ++ if value = [] then [] else byte ':' :: cString value))]
    else fields ++ [stored (name.map toUpper, value)]

/-- `parseHeaders` with at most `fuel` lines. -/
def headersLoop : Nat → Text → List (Text × Text) → List (Text × Text)
  | 0, _, fields => fields
  | fuel + 1, s, fields =>
    let pair := getNextPair (byte ':') s
    if pair.1 = [] then fields else headersLoop fuel pair.2.2 (addLine fields pair.1 pair.2.1)

/-- The fields of `parseHeaders`.  Each line takes a byte, so that the length bounds their
number. -/
def headersOf (s : Text) : List (Text × Text) := headersLoop (s.length + 1) s []

theorem isBlank_of_stripped : ∀ c, isStripped c = false → isBlank c = false := by
  decide +kernel

theorem head?_name (separator : Byte) (s : Text) :
    (getNextPair separator s).1.head?.any isBlank = false := by
  have hfront : ∀ c ∈ (getNextPair separator s).1.head?, isStripped c = false := head?_trim _ _
  cases hhead : (getNextPair separator s).1.head? with
  | none => rfl
  | some c => exact isBlank_of_stripped c (hfront c hhead)

/-- **No line is a continuation**: each one makes a field. -/
theorem headersLoop_eq (fuel : Nat) (s : Text) (fields : List (Text × Text)) :
    headersLoop fuel s fields = fields ++ (parseHeadersLoop fuel s).1.map stored := by
  induction fuel generalizing s fields with
  | zero => exact (append_nil fields).symm
  | succ fuel ih =>
    rw [headersLoop, parseHeadersLoop]
    dsimp only
    by_cases hname : (getNextPair (byte ':') s).1 = []
    · rw [if_pos hname, if_pos hname, map_nil, append_nil]
    · have hline : addLine fields (getNextPair (byte ':') s).1 (getNextPair (byte ':') s).2.1 =
          fields ++ [stored ((getNextPair (byte ':') s).1.map toUpper,
            (getNextPair (byte ':') s).2.1)] := by
        rw [addLine]
        cases fields.getLast? with
        | none => rfl
        | some previous =>
          dsimp only
          rw [head?_name, if_neg Bool.false_ne_true]
      rw [if_neg hname, if_neg hname, hline, ih, append_assoc]
      rfl

end HttpMessage

/-! ## Folded fields -/

inductive LineBreak where
  | crlf | lf
deriving DecidableEq

/-- The bytes of a line break. -/
def LineBreak.bytes : LineBreak → Text
  | .crlf => [13, 10]
  | .lf => [10]

/-- One blank or more. -/
structure Blanks where
  bytes : Text
  bytes_ne : bytes ≠ []
  isBlank_bytes : ∀ c ∈ bytes, NameValueTokenizer.isBlank c = true

/-- The bytes that do not end a line. -/
def isLineByte (c : Byte) : Bool := c != 10 && c != 13 && c != 0

/-- Whitespace in a value with the text behind it, and how it is folded, if it is. -/
structure Gap where
  blanks : Blanks
  fold : Option (LineBreak × Blanks)
  first : Byte
  rest : Text
  first_eq : isLineByte first = true ∧ NameValueTokenizer.isBlank first = false
  isLineByte_rest : ∀ c ∈ rest, isLineByte c = true

/-- The bytes of a header name. -/
def isNameByte (c : Byte) : Bool :=
  isLineByte c && !NameValueTokenizer.isBlank c && c != byte ':'

/-- A header field: the name, blanks in front of the colon, and the value up to its first gap
and from there on. -/
structure HeaderLine where
  name : Text
  name_ne : name ≠ []
  isNameByte_name : ∀ c ∈ name, isNameByte c = true
  pad : Text
  isBlank_pad : ∀ c ∈ pad, NameValueTokenizer.isBlank c = true
  value : Text
  isLineByte_value : ∀ c ∈ value, isLineByte c = true
  gaps : List Gap
  lineBreak : LineBreak

namespace Gap

/-- The text behind the whitespace. -/
def text (g : Gap) : Text := g.first :: g.rest

/-- As it stands in one line. -/
def plain (g : Gap) : Text := g.blanks.bytes ++ g.text

/-- White space of a header as it is sent, with the line break where there is one. -/
def folded (g : Gap) : Text :=
  match g.fold with
  | none => g.plain
  | some (lineBreak, blanks) => lineBreak.bytes ++ blanks.bytes ++ g.text

end Gap

namespace HeaderLine

/-- What stands in front of the value. -/
def front (h : HeaderLine) : Text := h.name ++ h.pad ++ [byte ':']

/-- The field in one line. -/
def plain (h : HeaderLine) : Text :=
  h.front ++ h.value ++ h.gaps.flatMap Gap.plain ++ h.lineBreak.bytes

/-- The field with its folds. -/
def folded (h : HeaderLine) : Text :=
  h.front ++ h.value ++ h.gaps.flatMap Gap.folded ++ h.lineBreak.bytes

end HeaderLine

variable {name pad value : Text}

namespace HttpMessage

open NameValueTokenizer

/-- The same fields in the same order, with the same words in their values. -/
def SameHeaders (fields fields' : List (Text × Text)) : Prop :=
  Forall₂ (fun nv nv' => nv.1 = nv'.1 ∧ segments isBlank nv.2 = segments isBlank nv'.2)
    fields fields'

/-! ## One line -/

theorem lineByte_classes : ∀ c : Byte,
    (isNameByte c = true → isStripped c = false ∧ isBlank c = false ∧ isLineByte c = true) ∧
      (isBlank c = true → isLineByte c = true ∧ isStripped c = true ∧ c ≠ byte ':') ∧
      (isLineByte c = true → isStripped c = true → isBlank c = true) ∧
      (isLineByte c = true → (c != byte '\n' && c != byte '\r') = true) ∧
      (isNameByte c = true → (c != byte ':') = true) := by
  decide +kernel

theorem line_lineBreak {line : Text} (hline : ∀ c ∈ line, isLineByte c = true)
    (lineBreak : LineBreak) (rest : Text) :
    let s := line ++ (lineBreak.bytes ++ rest)
    s.takeWhile (fun c => c != byte '\n' && c != byte '\r') = line ∧
      skipLineEnd (s.dropWhile fun c => c != byte '\n' && c != byte '\r') = rest := by
  have hall : ∀ c ∈ line, (c != byte '\n' && c != byte '\r') = true := fun c hc =>
    (lineByte_classes c).2.2.2.1 (hline c hc)
  intro s
  constructor
  · rw [takeWhile_append_of_pos hall]
    cases lineBreak <;> exact append_nil line
  · rw [dropWhile_append_of_pos hall]
    cases lineBreak with
    | crlf => rfl
    | lf => cases rest <;> rfl

theorem trim_name_pad (hname : ∀ c ∈ name, isNameByte c = true)
    (hpad : ∀ c ∈ pad, isBlank c = true) : trim isStripped (name ++ pad) = name := by
  have hstripped : ∀ c ∈ name, isStripped c = false := fun c hc =>
    ((lineByte_classes c).1 (hname c hc)).1
  have hself : trim isStripped name = name :=
    trim_eq_self (fun c hc => hstripped c (mem_of_mem_head? hc))
      fun c hc => hstripped c (mem_of_getLast? hc)
  have hfront : ∀ c ∈ ([] : Text), isStripped c = true := fun c hc => absurd hc not_mem_nil
  exact trim_padded hself hfront fun c hc => ((lineByte_classes c).2.1 (hpad c hc)).2.1

/-- One line is read as its name and its value without the blanks around it. -/
theorem getNextPair_line (hname : ∀ c ∈ name, isNameByte c = true)
    (hpad : ∀ c ∈ pad, isBlank c = true) (hvalue : ∀ c ∈ value, isLineByte c = true)
    (lineBreak : LineBreak) (rest : Text) : getNextPair (byte ':')
        (name ++ pad ++ [byte ':'] ++ value ++ (lineBreak.bytes ++ rest)) =
      (name, trim isStripped value, rest) := by
  have hline : ∀ c ∈ name ++ pad ++ [byte ':'] ++ value, isLineByte c = true := by
    intro c hc
    simp only [mem_append, mem_singleton] at hc
    obtain ((hc | hc) | rfl) | hc := hc
    · exact ((lineByte_classes c).1 (hname c hc)).2.2
    · exact ((lineByte_classes c).2.1 (hpad c hc)).1
    · rfl
    · exact hvalue c hc
  have hcolon : (name ++ pad ++ [byte ':'] ++ value).takeWhile (· != byte ':') = name ++ pad := by
    rw [append_assoc, takeWhile_append_of_pos]
    · exact append_nil _
    · intro c hc
      obtain hc | hc := mem_append.mp hc
      · exact (lineByte_classes c).2.2.2.2 (hname c hc)
      · exact bne_iff_ne.mpr ((lineByte_classes c).2.1 (hpad c hc)).2.2
  have hbehind : (name ++ pad ++ [byte ':'] ++ value).drop ((name ++ pad).length + 1) = value := by
    rw [← length_singleton (a := byte ':'), ← length_append, drop_left]
  obtain ⟨htake, hskip⟩ := line_lineBreak hline lineBreak rest
  unfold getNextPair
  simp only [htake, hskip, hcolon, hbehind, trim_name_pad hname hpad]

theorem parseHeadersLoop_line (hne : name ≠ [])
    (hname : ∀ c ∈ name, isNameByte c = true) (hpad : ∀ c ∈ pad, isBlank c = true)
    (hvalue : ∀ c ∈ value, isLineByte c = true) (lineBreak : LineBreak) (rest : Text) (fuel : Nat) :
    (parseHeadersLoop (fuel + 1)
        (name ++ pad ++ [byte ':'] ++ value ++ (lineBreak.bytes ++ rest))).1 =
      (name.map toUpper, trim isStripped value) :: (parseHeadersLoop fuel rest).1 := by
  rw [parseHeadersLoop]
  dsimp only
  rw [getNextPair_line hname hpad hvalue, if_neg hne]

/-! ## Words -/

theorem flatten_segmentsAux (sep : Byte → Bool) (s cur : Text) :
    (segmentsAux sep cur s).flatten = cur ++ s.filter fun c => !sep c := by
  induction s generalizing cur with
  | nil =>
    rw [segmentsAux]
    split
    next h => rw [h]; rfl
    next => rfl
  | cons c s ih =>
    rw [segmentsAux]
    by_cases hc : sep c = true
    · rw [if_pos hc, filter_cons_of_neg (by rw [hc]; exact Bool.false_ne_true)]
      split
      next h => rw [ih, h]
      next => rw [flatten_cons, ih, nil_append]
    · rw [if_neg hc, ih, filter_cons_of_pos (by rw [Bool.eq_false_iff.mpr hc]; rfl),
        append_assoc, singleton_append]

theorem filter_trim {blank sep : Byte → Bool} {s : Text}
    (h : ∀ c ∈ s, blank c = true → sep c = true) :
    (trim blank s).filter (fun c => !sep c) = s.filter fun c => !sep c := by
  have hdrop : ∀ t : Text, (∀ c ∈ t, blank c = true → sep c = true) →
      (t.dropWhile blank).filter (fun c => !sep c) = t.filter fun c => !sep c := by
    intro t ht
    conv => rhs; rw [← takeWhile_append_dropWhile (p := blank) (l := t), filter_append]
    have hfront : (t.takeWhile blank).filter (fun c => !sep c) = [] := by
      rw [filter_eq_nil_iff]
      intro c hc
      rw [ht c ((List.takeWhile_prefix _).subset hc) (mem_takeWhile_imp hc)]
      exact Bool.false_ne_true
    rw [hfront, nil_append]
  have hback : ∀ c ∈ (s.dropWhile blank).reverse, blank c = true → sep c = true := fun c hc =>
    h c ((dropWhile_suffix _).subset (mem_reverse.mp hc))
  rw [trim, filter_reverse, hdrop _ hback, filter_reverse, reverse_reverse,
    hdrop s h]

theorem flatten_segments_stored (hvalue : ∀ c ∈ value, isLineByte c = true) :
    (segments isBlank (stored (name, trim isStripped value)).2).flatten =
      value.filter fun c => !isBlank c := by
  have hstripped : ∀ c ∈ value, isStripped c = true → isBlank c = true := fun c hc =>
    (lineByte_classes c).2.2.1 (hvalue c hc)
  have hnul : ∀ c ∈ trim isStripped value, (c != 0) = true := by
    intro c hc
    have hmem : c ∈ value := trim_subset _ _ hc
    exact bne_iff_ne.mpr (ne_of_class (hvalue c hmem) rfl)
  show (segments isBlank (cString (trim isStripped value))).flatten = _
  rw [cString_eq_self hnul, segments, flatten_segmentsAux, nil_append, filter_trim hstripped]

theorem words_ne {blanks : Text} {first : Byte} {rest : Text}
    (hvalue : ∀ c ∈ value, isLineByte c = true)
    (hmore : ∀ c ∈ blanks ++ first :: rest, isLineByte c = true) (hfirst : isBlank first = false) :
    segments isBlank (stored (name, trim isStripped (value ++ (blanks ++ first :: rest)))).2 ≠
      segments isBlank (stored (name, trim isStripped value)).2 := by
  intro h
  have hwhole : ∀ c ∈ value ++ (blanks ++ first :: rest), isLineByte c = true := by
    intro c hc
    exact (mem_append.mp hc).elim (hvalue c) (hmore c)
  have hflat := congrArg flatten h
  rw [flatten_segments_stored hvalue, flatten_segments_stored hwhole, filter_append,
    append_right_eq_self, filter_eq_nil_iff] at hflat
  refine hflat first (mem_append_right _ mem_cons_self) ?_
  rw [hfirst]
  rfl

end HttpMessage

/-! ## Folds -/

variable {g : Gap}

namespace Gap

theorem isLineByte_plain (g : Gap) : ∀ c ∈ g.plain, isLineByte c = true := by
  intro c hc
  obtain hc | hc := mem_append.mp hc
  · exact ((HttpMessage.lineByte_classes c).2.1 (g.blanks.isBlank_bytes c hc)).1
  · obtain rfl | hc := mem_cons.mp hc
    · exact g.first_eq.1
    · exact g.isLineByte_rest c hc

theorem folded_of_none (hfold : g.fold = none) : g.folded = g.plain := by
  rw [folded, hfold]

theorem flatMap_folded {gaps : List Gap} (hgaps : ∀ g ∈ gaps, g.fold = none) :
    gaps.flatMap folded = gaps.flatMap plain :=
  flatMap_congr fun g hg => folded_of_none (hgaps g hg)

theorem isLineByte_flatMap_plain (gaps : List Gap) :
    ∀ c ∈ gaps.flatMap plain, isLineByte c = true := by
  intro c hc
  obtain ⟨g, -, hcg⟩ := mem_flatMap.mp hc
  exact g.isLineByte_plain c hcg

theorem exists_first_fold {gaps : List Gap} (h : ¬ ∀ g ∈ gaps, g.fold = none) :
    ∃ before g after lineBreak blanks, gaps = before ++ g :: after ∧
      (∀ g ∈ before, g.fold = none) ∧ g.fold = some (lineBreak, blanks) := by
  induction gaps with
  | nil => exact absurd (fun g hg => absurd hg not_mem_nil) h
  | cons g gaps ih =>
    cases hfold : g.fold with
    | some fold =>
      exact ⟨[], g, gaps, fold.1, fold.2, rfl, fun _ h => absurd h not_mem_nil, hfold⟩
    | none =>
      have hgaps : ¬ ∀ g ∈ gaps, g.fold = none := fun hall =>
        h (forall_mem_cons.mpr ⟨hfold, hall⟩)
      obtain ⟨before, g', after, lineBreak, blanks, hsplit, hbefore, hg'⟩ := ih hgaps
      refine ⟨g :: before, g', after, lineBreak, blanks, ?_, ?_, hg'⟩
      · rw [hsplit, cons_append]
      · exact forall_mem_cons.mpr ⟨hfold, hbefore⟩

end Gap

theorem HeaderLine.isLineByte_append (h : HeaderLine) (gaps : List Gap) :
    ∀ c ∈ h.value ++ gaps.flatMap Gap.plain, isLineByte c = true := by
  intro c hc
  obtain hc | hc := mem_append.mp hc
  · exact h.isLineByte_value c hc
  · exact Gap.isLineByte_flatMap_plain gaps c hc

namespace HttpMessage

open NameValueTokenizer

theorem parseHeadersLoop_plain (h : HeaderLine) (rest : Text) (fuel : Nat) :
    (parseHeadersLoop (fuel + 1) (h.plain ++ rest)).1 =
      (h.name.map toUpper, trim isStripped (h.value ++ h.gaps.flatMap Gap.plain)) ::
        (parseHeadersLoop fuel rest).1 := by
  have hvalue := h.isLineByte_append h.gaps
  rw [← parseHeadersLoop_line h.name_ne h.isNameByte_name h.isBlank_pad hvalue h.lineBreak]
  simp only [HeaderLine.plain, HeaderLine.front, append_assoc]

theorem parseHeadersLoop_folded {h : HeaderLine} {before after : List Gap}
    {lineBreak : LineBreak} {blanks : Blanks} (hgaps : h.gaps = before ++ g :: after)
    (hbefore : ∀ g ∈ before, g.fold = none) (hfold : g.fold = some (lineBreak, blanks))
    (rest : Text) (fuel : Nat) : ∃ others, (parseHeadersLoop (fuel + 1) (h.folded ++ rest)).1 =
      (h.name.map toUpper, trim isStripped (h.value ++ before.flatMap Gap.plain)) :: others := by
  have hvalue := h.isLineByte_append before
  have htext : h.folded ++ rest =
      h.name ++ h.pad ++ [byte ':'] ++ (h.value ++ before.flatMap Gap.plain) ++ (lineBreak.bytes ++
        (blanks.bytes ++ g.text ++ after.flatMap Gap.folded ++ h.lineBreak.bytes ++ rest)) := by
    have hg : g.folded = lineBreak.bytes ++ blanks.bytes ++ g.text := by rw [Gap.folded, hfold]
    rw [HeaderLine.folded, HeaderLine.front, hgaps, flatMap_append, flatMap_cons,
      Gap.flatMap_folded hbefore, hg]
    simp only [append_assoc]
  rw [htext]
  exact ⟨_, parseHeadersLoop_line h.name_ne h.isNameByte_name h.isBlank_pad hvalue lineBreak _ fuel⟩

theorem words_ne_of_fold {h : HeaderLine} {before after : List Gap}
    (hgaps : h.gaps = before ++ g :: after) (name : Text) :
    segments isBlank (stored (name, trim isStripped (h.value ++ h.gaps.flatMap Gap.plain))).2 ≠
      segments isBlank
        (stored (name, trim isStripped (h.value ++ before.flatMap Gap.plain))).2 := by
  have hvalue := h.isLineByte_append before
  have hmore : ∀ c ∈ g.blanks.bytes ++ g.first :: (g.rest ++ after.flatMap Gap.plain),
      isLineByte c = true := by
    have hbytes : g.blanks.bytes ++ g.first :: (g.rest ++ after.flatMap Gap.plain) =
        g.plain ++ after.flatMap Gap.plain := by
      rw [Gap.plain, Gap.text, append_assoc, cons_append]
    rw [hbytes]
    intro c hc
    exact (mem_append.mp hc).elim (g.isLineByte_plain c) (Gap.isLineByte_flatMap_plain _ c)
  have hwhole : h.value ++ h.gaps.flatMap Gap.plain = h.value ++ before.flatMap Gap.plain ++
      (g.blanks.bytes ++ g.first :: (g.rest ++ after.flatMap Gap.plain)) := by
    rw [hgaps, flatMap_append, flatMap_cons, Gap.plain, Gap.text]
    simp only [append_assoc, cons_append]
  rw [hwhole]
  exact words_ne hvalue hmore g.first_eq.2

/-- One fold anywhere is enough to tell the two messages apart. -/
theorem not_sameHeaders_loop {headers : List HeaderLine}
    (hfolded : ¬ ∀ h ∈ headers, ∀ g ∈ h.gaps, g.fold = none) (tail : Text) {fuel fuel' : Nat}
    (hfuel : headers.length ≤ fuel) (hfuel' : headers.length ≤ fuel') : ¬ SameHeaders
      ((parseHeadersLoop fuel (headers.flatMap HeaderLine.plain ++ tail)).1.map stored)
      ((parseHeadersLoop fuel' (headers.flatMap HeaderLine.folded ++ tail)).1.map stored) := by
  induction headers generalizing fuel fuel' with
  | nil => exact absurd (fun h hh => absurd hh not_mem_nil) hfolded
  | cons h headers ih =>
    obtain ⟨fuel, rfl⟩ := Nat.exists_eq_succ_of_ne_zero (Nat.ne_zero_of_lt hfuel)
    obtain ⟨fuel', rfl⟩ := Nat.exists_eq_succ_of_ne_zero (Nat.ne_zero_of_lt hfuel')
    rw [flatMap_cons, flatMap_cons, append_assoc, append_assoc,
      parseHeadersLoop_plain]
    by_cases hgaps : ∀ g ∈ h.gaps, g.fold = none
    · have hsame : h.folded = h.plain := by
        rw [HeaderLine.folded, HeaderLine.plain, Gap.flatMap_folded hgaps]
      rw [hsame, parseHeadersLoop_plain]
      intro hall
      have hrest := (forall₂_cons.mp hall).2
      refine ih (fun hnone => hfolded ?_) (Nat.le_of_succ_le_succ hfuel)
        (Nat.le_of_succ_le_succ hfuel') hrest
      exact forall_mem_cons.mpr ⟨hgaps, hnone⟩
    · obtain ⟨before, g, after, lineBreak, blanks, hsplit, hbefore, hfold⟩ :=
        Gap.exists_first_fold hgaps
      obtain ⟨others, hothers⟩ := parseHeadersLoop_folded hsplit hbefore hfold
        (headers.flatMap HeaderLine.folded ++ tail) fuel'
      rw [hothers]
      intro hall
      exact words_ne_of_fold hsplit _ (forall₂_cons.mp hall).1.2

theorem length_le_flatMap {f : HeaderLine → Text} (hf : ∀ h, f h ≠ []) (headers : List HeaderLine) :
    headers.length ≤ (headers.flatMap f).length := by
  induction headers with
  | nil => exact le_rfl
  | cons h headers ih =>
    rw [flatMap_cons, length_append, length_cons]
    have hpos : 0 < (f h).length := length_pos_iff.mpr (hf h)
    omega

/-- **Folding is seen through only where nothing is folded**: the fields of a message, with whatever
behind them, are those of the message in which every value stands in one line just in case no
gap is folded. -/
theorem sameHeaders_folded_iff (headers : List HeaderLine) (tail : Text) :
    SameHeaders (headersOf (headers.flatMap HeaderLine.plain ++ tail))
        (headersOf (headers.flatMap HeaderLine.folded ++ tail)) ↔
      ∀ h ∈ headers, ∀ g ∈ h.gaps, g.fold = none := by
  constructor
  · intro hsame
    by_contra hfolded
    have hlength : ∀ f : HeaderLine → Text, (∀ h, f h ≠ []) →
        headers.length ≤ (headers.flatMap f ++ tail).length + 1 := by
      intro f hf
      have hle := length_le_flatMap hf headers
      rw [length_append]
      omega
    have hplain : ∀ h : HeaderLine, h.plain ≠ [] := fun h hnil => by
      simp [HeaderLine.plain, HeaderLine.front] at hnil
    have hfoldedNe : ∀ h : HeaderLine, h.folded ≠ [] := fun h hnil => by
      simp [HeaderLine.folded, HeaderLine.front] at hnil
    rw [headersOf, headersOf, headersLoop_eq, headersLoop_eq, nil_append, nil_append]
      at hsame
    exact not_sameHeaders_loop hfolded tail (hlength _ hplain) (hlength _ hfoldedNe) hsame
  · intro hnone
    have htext : headers.flatMap HeaderLine.folded = headers.flatMap HeaderLine.plain :=
      flatMap_congr fun h hh => by
        rw [HeaderLine.folded, HeaderLine.plain, Gap.flatMap_folded (hnone h hh)]
    rw [htext]
    exact forall₂_same.mpr fun nv _ => ⟨rfl, rfl⟩

/-- `Subject: hello world` in one line and with the second word in a line of its own. -/
theorem not_sameHeaders_subject :
    ∃ h : HeaderLine, h.plain = text "Subject: hello world\r\n" ∧
      h.folded = text "Subject: hello\r\n world\r\n" ∧
      headersOf h.plain = [(text "SUBJECT", text "hello world")] ∧
      headersOf h.folded = [(text "SUBJECT", text "hello"), (text "WORLD", [])] ∧
      ¬ SameHeaders (headersOf h.plain) (headersOf h.folded) := by
  let blank : Blanks := ⟨text " ", by decide, by decide⟩
  let h : HeaderLine :=
    { name := text "Subject"
      name_ne := by decide
      isNameByte_name := by decide
      pad := []
      isBlank_pad := by decide
      value := text " hello"
      isLineByte_value := by decide
      gaps := [⟨blank, some (.crlf, blank), byte 'w', text "orld", by decide, by decide⟩]
      lineBreak := .crlf }
  have hplain : headersOf h.plain = [(text "SUBJECT", text "hello world")] := by decide
  have hfolded : headersOf h.folded = [(text "SUBJECT", text "hello"), (text "WORLD", [])] := by
    decide
  refine ⟨h, by decide, by decide, hplain, hfolded, fun hsame => ?_⟩
  rw [hplain, hfolded] at hsame
  exact absurd hsame.length_eq (by decide)

end HttpMessage

end SipXRouter
