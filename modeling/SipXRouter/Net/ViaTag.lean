import SipXRouter.Net.UrlParams
import SipXRouter.Net.ViaField

/-!
# Parameters of a Via

`SipMessage::setViaTag` takes the parameters of a Via value apart, prints them again with one of
them changed or added, and puts the text in place of the value.  It looks for the parameter
without regard to case and keeps the name it finds; `getViaTag`, which reads it, asks for the
name as it is given.

## Design notes

Values are taken apart at every comma and parameters at every semicolon, as the tokenizer does,
also inside of quotes.
-/

namespace SipXRouter

open List

variable {e nv : Text × Text} {newVia v : Text}

namespace SipMessage

open NameValueTokenizer HttpMessage BranchId

/-! ## Writing a parameter -/

/-- Names are compared in upper case. -/
def sameName (tagName : Text) (nv : Text × Text) : Bool :=
  nv.1.map toUpper == tagName.map toUpper

/-- A parameter with the new value, if it is the one that is set. -/
def editPair (tagValue tagName : Text) (nv : Text × Text) : Text × Text :=
  (nv.1, if sameName tagName nv then tagValue else nv.2)

/-- A parameter as it is printed. -/
def pairText (nv : Text × Text) : Text := nv.1 ++ if nv.2 = [] then [] else byte '=' :: nv.2

/-- One turn of the loop of `setViaTag`.  A semicolon stands behind a text that is not empty. -/
def appendPair (newVia : Text) (nv : Text × Text) : Text :=
  (if newVia = [] then [] else newVia ++ [byte ';']) ++ pairText nv

/-- The text that `setViaTag` makes of a Via value. -/
def newViaText (tagValue tagName selectedVia : Text) : Text :=
  let list := parseViaParameters selectedVia
  let newVia := (list.map (editPair tagValue tagName)).foldl appendPair []
  if list.any (sameName tagName) then newVia
  else newVia ++ byte ';' :: pairText (tagName, tagValue)

/-- `setViaTag`: whether the value was found, and the message. -/
def setViaTag (m : SipMessage) (tagValue tagName : Text) (subFieldIndex : Nat) :
    Bool × SipMessage :=
  match getViaFieldSubField m subFieldIndex with
  | some selectedVia =>
    setFieldSubfield m viaField subFieldIndex (newViaText tagValue tagName selectedVia)
  | none => (false, m)

/-! ## What is expected -/

/-- What is expected of `setViaTag` for a Via value: the value of that number is changed and no
other one, the parameter is read with its value, and everything else that is read of the changed
value is as it was. -/
structure SetTo (m : SipMessage) (i : Nat) (via tagName tagValue newVia : Text) : Prop where
  success : (setViaTag m tagValue tagName i).1 = true
  /-- The other Via values keep their text and order. -/
  values : fieldSubfields (setViaTag m tagValue tagName i).2 viaField =
    (fieldSubfields m viaField).set i newVia
  read : getViaFieldSubField (setViaTag m tagValue tagName i).2 i = some newVia
  tag : getViaTag newVia tagName = some tagValue
  /-- The sent-protocol and the sent-by. -/
  sent : (parseViaParameters newVia).head? = (parseViaParameters via).head?
  others : (parseViaParameters newVia).filter (!sameName tagName ·) =
    (parseViaParameters via).filter (!sameName tagName ·)

/-- `setViaTag` does what is expected. -/
def ViaTagSet (m : SipMessage) (i : Nat) (via tagName tagValue : Text) : Prop :=
  ∃ newVia, SetTo m i via tagName tagValue newVia

/-! ## One parameter -/

/-- The first subfield: what stands before the first separator behind any leading ones. -/
theorem getSubFieldPtr_zero_eq (sep : Byte → Bool) (field : Text) : getSubFieldPtr field 0 sep =
    some ((field.dropWhile sep).takeWhile fun c => !sep c,
      (field.dropWhile sep).dropWhile fun c => !sep c) := by
  have hloop : ∀ (field cur : Text), cur ≠ [] → getSubFieldLoop sep 0 cur field =
      some (cur ++ field.takeWhile fun c => !sep c, field.dropWhile fun c => !sep c) := by
    intro field
    induction field with
    | nil =>
      intro cur _
      rw [getSubFieldLoop, if_pos rfl, takeWhile_nil, dropWhile_nil, append_nil]
    | cons c field ih =>
      intro cur hcur
      rw [getSubFieldLoop.eq_def]
      dsimp only
      by_cases hc : sep c = true
      · rw [if_pos hc, if_neg hcur, takeWhile_cons_of_neg (by simpa using hc),
          dropWhile_cons_of_neg (by simpa using hc), append_nil]
      · rw [if_neg hc, ih _ (by simp), takeWhile_cons_of_pos (by simpa using hc),
          dropWhile_cons_of_pos (by simpa using hc), append_assoc,
          singleton_append]
  rw [getSubFieldPtr]
  induction field with
  | nil => rfl
  | cons c field ih =>
    rw [getSubFieldLoop.eq_def]
    dsimp only
    by_cases hc : sep c = true
    · rw [if_pos hc, if_pos rfl, ih, dropWhile_cons_of_pos hc]
    · rw [if_neg hc, nil_append, hloop field [c] (by simp), dropWhile_cons_of_neg hc,
        takeWhile_cons_of_pos (by simpa using hc),
        dropWhile_cons_of_pos (by simpa using hc), singleton_append]

/-- The equals sign between a name and its value. -/
def isEquals (c : Byte) : Bool := c == byte '='

theorem viaParameter_eq (p : Text) : viaParameter p =
    if ((p.dropWhile isEquals).takeWhile fun c => !isEquals c).dropWhile isBlank = [] then none else
      some (trim isCgiBlank
          (((p.dropWhile isEquals).takeWhile fun c => !isEquals c).dropWhile isBlank),
        trim isCgiBlank (((p.dropWhile isEquals).dropWhile fun c => !isEquals c).dropWhile
          isEquals)) := by
  have hfirst := getSubFieldPtr_zero_eq isEquals p
  unfold viaParameter
  rw [show (fun c => c == byte '=') = isEquals from rfl, hfirst]

/-- What is read of a parameter. -/
structure IsViaPair (p : Text) (nv : Text × Text) : Prop where
  name_subset : nv.1 ⊆ p
  value_subset : nv.2 ⊆ p
  name_free : ∀ c ∈ nv.1, isEquals c = false
  name_trim : trim isCgiBlank nv.1 = nv.1
  value_trim : trim isCgiBlank nv.2 = nv.2
  /-- With its sign a value is no longer than what was read. -/
  length_le : (pairText nv).length ≤ p.length
  value_lt : nv.2.length < p.length

theorem isViaPair_of_viaParameter {p : Text} (h : viaParameter p = some nv) : IsViaPair p nv := by
  rw [viaParameter_eq] at h
  split at h
  · exact absurd h (by simp)
  · next hname =>
      obtain rfl := Option.some.inj h
      have hdrop := dropWhile_suffix isEquals (l := p)
      have htake := takeWhile_append_dropWhile (p := fun c => !isEquals c)
        (l := p.dropWhile isEquals)
      have hblank := dropWhile_suffix isBlank
        (l := (p.dropWhile isEquals).takeWhile fun c => !isEquals c)
      have hvalue := dropWhile_suffix isEquals
        (l := (p.dropWhile isEquals).dropWhile fun c => !isEquals c)
      generalize hfree : ((p.dropWhile isEquals).takeWhile fun c => !isEquals c) = name
        at hname htake hblank ⊢
      generalize hrest : ((p.dropWhile isEquals).dropWhile fun c => !isEquals c) = rest
        at htake hvalue ⊢
      have hlength := hdrop.length_le
      rw [← htake, length_append] at hlength
      have hpositive := length_pos_of_ne_nil hname
      have hblanks := hblank.length_le
      have hnames := length_trim_le isCgiBlank (name.dropWhile isBlank)
      have hvalues := length_trim_le isCgiBlank (rest.dropWhile isEquals)
      have hsub : name ++ rest ⊆ p := htake ▸ hdrop.subset
      -- the sign in front of what is not empty is dropped
      have hsign : rest.dropWhile isEquals = [] ∨
          (rest.dropWhile isEquals).length < rest.length := by
        cases hcons : rest with
        | nil => exact Or.inl rfl
        | cons c cs =>
          right
          have hhead := head?_dropWhile_not (fun c => !isEquals c) (p.dropWhile isEquals)
          rw [hrest, hcons] at hhead
          have hc : isEquals c = true := by simpa using hhead
          rw [dropWhile_cons_of_pos hc, length_cons]
          exact Nat.lt_succ_of_le (dropWhile_suffix isEquals).length_le
      refine ⟨?_, ?_, ?_, trim_trim _ _, trim_trim _ _, ?_, ?_⟩
      · intro c hc
        exact hsub (mem_append_left _ (hblank.subset (trim_subset _ _ hc)))
      · intro c hc
        exact hsub (mem_append_right _ (hvalue.subset (trim_subset _ _ hc)))
      · intro c hc
        have hmem : c ∈ name := hblank.subset (trim_subset _ _ hc)
        rw [← hfree] at hmem
        simpa using mem_takeWhile_imp hmem
      · rw [pairText, length_append]
        split
        · rw [length_nil]
          dsimp only
          omega
        · next hne =>
            rw [length_cons]
            rcases hsign with hnil | hlt
            · rw [hnil] at hne
              exact absurd rfl hne
            · dsimp only at hne ⊢
              omega
      · have hle := hvalue.length_le
        dsimp only
        omega

theorem value_lt_of_viaParameter
    (h : viaParameter (byte '=' :: v) = some nv) : nv.2.length < v.length := by
  have hskip : viaParameter (byte '=' :: v) = viaParameter v := by
    have hsign : isEquals (byte '=') = true := by decide
    rw [viaParameter_eq, viaParameter_eq, dropWhile_cons_of_pos hsign]
  rw [hskip] at h
  exact (isViaPair_of_viaParameter h).value_lt

theorem viaParameter_pairText (nv : Text × Text) (hne : nv.1 ≠ [])
    (hfree : ∀ c ∈ nv.1, isEquals c = false) (htrim : trim isCgiBlank nv.1 = nv.1) :
    viaParameter (pairText nv) = some (nv.1, trim isCgiBlank (nv.2.dropWhile isEquals)) := by
  have hhead : ∀ c ∈ nv.1.head?, isCgiBlank c = false := by
    intro c hc
    have h := head?_trim isCgiBlank nv.1
    rw [htrim] at h
    exact h c hc
  have hblank : nv.1.dropWhile isBlank = nv.1 := by
    have hclass : ∀ c, isBlank c = true → isCgiBlank c = true := by decide +kernel
    obtain ⟨c, cs, hcs⟩ := exists_cons_of_ne_nil hne
    rw [hcs] at hhead ⊢
    refine dropWhile_cons_of_neg fun hc => ?_
    exact Bool.false_ne_true ((hhead c rfl).symm.trans (hclass c hc))
  have hsign : isEquals (byte '=') = true := by decide
  have hdrop : (pairText nv).dropWhile isEquals = pairText nv := by
    obtain ⟨c, cs, hcs⟩ := exists_cons_of_ne_nil hne
    have hc := hfree c (by rw [hcs]; exact mem_cons_self)
    rw [pairText, hcs, cons_append, dropWhile_cons_of_neg (by rw [hc]; simp)]
  have hname : (pairText nv).takeWhile (fun c => !isEquals c) = nv.1 := by
    rw [pairText, takeWhile_append_of_pos (by simpa using hfree)]
    split
    · rw [takeWhile_nil, append_nil]
    · rw [takeWhile_cons_of_neg (by rw [hsign]; simp), append_nil]
  have hvalue : ((pairText nv).dropWhile fun c => !isEquals c).dropWhile isEquals =
      nv.2.dropWhile isEquals := by
    rw [pairText, dropWhile_append_of_pos (by simpa using hfree)]
    split
    · next hnil =>
        rw [hnil]
        rfl
    · rw [dropWhile_cons_of_neg (by rw [hsign]; simp), dropWhile_cons_of_pos hsign]
  rw [viaParameter_eq, hdrop, hname, hblank, if_neg hne, htrim, hvalue]

/-- A parameter is read again as it was if it has a name, and its value does not start with an
equals sign. -/
def Stable (nv : Text × Text) : Prop := nv.1 ≠ [] ∧ ∀ c ∈ nv.2.head?, isEquals c = false

/-- A pair is read back exactly when it is stable. -/
theorem viaParameter_pairText_eq_iff {p : Text} (h : IsViaPair p nv) :
    viaParameter (pairText nv) = some nv ↔ Stable nv := by
  by_cases hne : nv.1 = []
  · refine ⟨fun hread => ?_, fun hstable => absurd hne hstable.1⟩
    have htext : pairText nv = if nv.2 = [] then [] else byte '=' :: nv.2 := by
      rw [pairText, hne, nil_append]
    rw [htext] at hread
    split at hread
    · next hnil => exact absurd hread (by simp [viaParameter_eq])
    · exact absurd (value_lt_of_viaParameter hread) (Nat.lt_irrefl _)
  · rw [viaParameter_pairText nv hne h.name_free h.name_trim]
    constructor
    · intro hread
      refine ⟨hne, fun c hc => ?_⟩
      have hvalue : trim isCgiBlank (nv.2.dropWhile isEquals) = nv.2 :=
        congrArg Prod.snd (Option.some.inj hread)
      obtain ⟨cs, hcs⟩ : ∃ cs, nv.2 = c :: cs := head?_eq_some_iff.mp hc
      cases hsign : isEquals c with
      | false => rfl
      | true =>
        have hle := length_trim_le isCgiBlank (nv.2.dropWhile isEquals)
        have hdrop := (dropWhile_suffix isEquals (l := cs)).length_le
        rw [hvalue, hcs, dropWhile_cons_of_pos hsign, length_cons] at hle
        omega
    · rintro ⟨-, hhead⟩
      have hdrop : nv.2.dropWhile isEquals = nv.2 := by
        cases hcs : nv.2 with
        | nil => rfl
        | cons c cs =>
          have hc := hhead c (by rw [hcs]; rfl)
          rw [dropWhile_cons_of_neg (by rw [hc]; simp)]
      rw [hdrop, h.value_trim]

/-! ## The printed parameters -/

/-- The semicolon in front of a parameter. -/
def isSemi (c : Byte) : Bool := c == byte ';'

theorem segments_appendPair (acc : Text)
    (hnv : ∀ c ∈ pairText nv, isSemi c = false) : segments isSemi (appendPair acc nv) =
      segments isSemi acc ++ [pairText nv].filter (· ≠ []) := by
  have hsemi : isSemi (byte ';') = true := by decide
  rw [appendPair]
  split
  · next hnil => rw [hnil, segments_nil, nil_append, nil_append, segments_of_free hnv]
  · rw [append_assoc, singleton_append, segments_append_sep hsemi, segments_of_free hnv]

theorem filterMap_viaParameter_filter (p : Text) :
    ([p].filter (· ≠ [])).filterMap viaParameter = [p].filterMap viaParameter := by
  by_cases hnil : p = []
  · rw [hnil]
    rfl
  · rw [filter_cons_of_pos (by simpa using hnil)]
    rfl

theorem filterMap_segments_foldl : ∀ (pairs : List (Text × Text)) (acc : Text),
    (∀ nv ∈ pairs, ∀ c ∈ pairText nv, isSemi c = false) →
      (segments isSemi (pairs.foldl appendPair acc)).filterMap viaParameter =
        (segments isSemi acc).filterMap viaParameter ++
          pairs.filterMap fun nv => viaParameter (pairText nv) := by
  intro pairs
  induction pairs with
  | nil => intro acc _; rw [filterMap_nil, append_nil]; rfl
  | cons nv pairs ih =>
    intro acc hpairs
    obtain ⟨hnv, hrest⟩ := forall_mem_cons.mp hpairs
    have hone : [pairText nv].filterMap viaParameter =
        [nv].filterMap fun nv => viaParameter (pairText nv) := by
      rw [filterMap_cons, filterMap_cons]
      rfl
    rw [foldl_cons, ih _ hrest, segments_appendPair acc hnv, filterMap_append,
      filterMap_viaParameter_filter, hone, append_assoc, ← filterMap_append,
      singleton_append]

theorem mem_foldl_appendPair : ∀ {pairs : List (Text × Text)} {acc : Text} {c : Byte},
    c ∈ pairs.foldl appendPair acc →
      c ∈ acc ∨ c = byte ';' ∨ ∃ nv ∈ pairs, c ∈ pairText nv := by
  intro pairs
  induction pairs with
  | nil => intro acc c hc; exact Or.inl hc
  | cons nv pairs ih =>
    intro acc c hc
    rcases ih hc with hc | hc | ⟨nv', hnv', hc⟩
    · rw [appendPair] at hc
      rcases mem_append.mp hc with hc | hc
      · split at hc
        · exact absurd hc (by simp)
        · rcases mem_append.mp hc with hc | hc
          · exact Or.inl hc
          · exact Or.inr (Or.inl (mem_singleton.mp hc))
      · exact Or.inr (Or.inr ⟨nv, mem_cons_self, hc⟩)
    · exact Or.inr (Or.inl hc)
    · exact Or.inr (Or.inr ⟨nv', mem_cons_of_mem _ hnv', hc⟩)

theorem length_foldl_appendPair : ∀ (pairs : List (Text × Text)) (acc : Text),
    (pairs.foldl appendPair acc).length ≤ acc.length + spread (pairs.map pairText) := by
  intro pairs
  induction pairs with
  | nil => intro acc; exact Nat.le_refl _
  | cons nv pairs ih =>
    intro acc
    have hrest := ih (appendPair acc nv)
    have hstep : (appendPair acc nv).length ≤ acc.length + ((pairText nv).length + 1) := by
      rw [appendPair]
      split
      · rw [nil_append]
        omega
      · rw [length_append, length_append, length_singleton]
        omega
    rw [foldl_cons, map_cons, spread_cons]
    omega

section Printed

variable {via tagName tagValue : Text}

theorem exists_of_mem_parseViaParameters (h : nv ∈ parseViaParameters via) :
    ∃ p, IsViaPair p nv ∧ (∀ c ∈ p, isSemi c = false) ∧ p ⊆ cString via := by
  obtain ⟨p, hp, hread⟩ := mem_filterMap.mp h
  exact ⟨p, isViaPair_of_viaParameter hread, (mem_segments hp).2, segments_subset hp⟩

/-- The parameters that `setViaTag` prints. -/
def editedPairs (tagValue tagName via : Text) : List (Text × Text) :=
  let list := parseViaParameters via
  list.map (editPair tagValue tagName) ++
    if list.any (sameName tagName) then [] else [(tagName, tagValue)]

theorem forall_mem_pairText {q : Byte → Prop} (hequals : q (byte '='))
    (hname : ∀ c ∈ nv.1, q c) (hvalue : ∀ c ∈ nv.2, q c) : ∀ c ∈ pairText nv, q c := by
  intro c hc
  rcases mem_append.mp hc with hc | hc
  · exact hname c hc
  · split at hc
    · exact absurd hc not_mem_nil
    · rcases mem_cons.mp hc with rfl | hc
      · exact hequals
      · exact hvalue c hc

theorem forall_mem_editPair {q : Byte → Prop} (hvia : ∀ nv ∈ parseViaParameters via,
    (∀ c ∈ nv.1, q c) ∧ ∀ c ∈ nv.2, q c) (hvalue : ∀ c ∈ tagValue, q c)
    (hnv : nv ∈ (parseViaParameters via).map (editPair tagValue tagName)) :
    (∀ c ∈ nv.1, q c) ∧ ∀ c ∈ nv.2, q c := by
  obtain ⟨nv', hnv', rfl⟩ := mem_map.mp hnv
  refine ⟨(hvia nv' hnv').1, ?_⟩
  rw [editPair]
  dsimp only
  split
  · exact hvalue
  · exact (hvia nv' hnv').2

theorem forall_mem_newViaText {q : Byte → Prop} (hsemi : q (byte ';')) (hequals : q (byte '='))
    (hvia : ∀ c ∈ cString via, q c) (hname : ∀ c ∈ tagName, q c) (hvalue : ∀ c ∈ tagValue, q c) :
    ∀ c ∈ newViaText tagValue tagName via, q c := by
  have hread : ∀ nv ∈ parseViaParameters via, (∀ c ∈ nv.1, q c) ∧ ∀ c ∈ nv.2, q c := by
    intro nv hnv
    obtain ⟨p, hp, -, hsub⟩ := exists_of_mem_parseViaParameters hnv
    exact ⟨fun c hc => hvia c (hsub (hp.name_subset hc)),
      fun c hc => hvia c (hsub (hp.value_subset hc))⟩
  have hlist : ∀ c ∈ ((parseViaParameters via).map (editPair tagValue tagName)).foldl
      appendPair [], q c := by
    intro c hc
    rcases mem_foldl_appendPair hc with hc | rfl | ⟨nv, hnv, hc⟩
    · exact absurd hc not_mem_nil
    · exact hsemi
    · obtain ⟨hname', hvalue'⟩ := forall_mem_editPair hread hvalue hnv
      exact forall_mem_pairText hequals hname' hvalue' c hc
  intro c hc
  rw [newViaText] at hc
  split at hc
  · exact hlist c hc
  · rcases mem_append.mp hc with hc | hc
    · exact hlist c hc
    · rcases mem_cons.mp hc with rfl | hc
      · exact hsemi
      · exact forall_mem_pairText hequals hname hvalue c hc

/-- **What is read of the text that `setViaTag` prints**: its parameters one by one. -/
theorem parseViaParameters_printed (via : Text) (hname : ∀ c ∈ tagName, isSemi c = false ∧ c ≠ 0)
    (hvalue : ∀ c ∈ tagValue, isSemi c = false ∧ c ≠ 0) :
    parseViaParameters (newViaText tagValue tagName via) =
      (editedPairs tagValue tagName via).filterMap fun nv => viaParameter (pairText nv) := by
  have hsign : isSemi (byte '=') = false := by decide
  have hself : cString (newViaText tagValue tagName via) = newViaText tagValue tagName via := by
    refine cString_of_notMem fun hzero => ?_
    refine forall_mem_newViaText (by decide) (by decide) (fun c hc => ?_)
      (fun c hc => (hname c hc).2) (fun c hc => (hvalue c hc).2) 0 hzero rfl
    rintro rfl
    simpa using mem_takeWhile_imp hc
  have hread : ∀ nv ∈ parseViaParameters via,
      (∀ c ∈ nv.1, isSemi c = false) ∧ ∀ c ∈ nv.2, isSemi c = false := by
    intro nv hnv
    obtain ⟨p, hp, hsemi, -⟩ := exists_of_mem_parseViaParameters hnv
    exact ⟨fun c hc => hsemi c (hp.name_subset hc), fun c hc => hsemi c (hp.value_subset hc)⟩
  have hpairs : ∀ nv ∈ (parseViaParameters via).map (editPair tagValue tagName),
      ∀ c ∈ pairText nv, isSemi c = false := by
    intro nv hnv
    obtain ⟨hname', hvalue'⟩ := forall_mem_editPair hread (fun c hc => (hvalue c hc).1) hnv
    exact forall_mem_pairText hsign hname' hvalue'
  have hfold := filterMap_segments_foldl _ [] hpairs
  rw [segments_nil, filterMap_nil, nil_append] at hfold
  show (segments isSemi (cString (newViaText tagValue tagName via))).filterMap viaParameter = _
  rw [hself, newViaText, editedPairs]
  split
  · rw [append_nil]
    exact hfold
  · have hsemi : isSemi (byte ';') = true := by decide
    have htail : segments isSemi (pairText (tagName, tagValue)) =
        [pairText (tagName, tagValue)].filter (· ≠ []) :=
      segments_of_free (forall_mem_pairText hsign (fun c hc => (hname c hc).1)
        fun c hc => (hvalue c hc).1)
    rw [segments_append_sep hsemi, filterMap_append, filterMap_append, hfold, htail,
      filterMap_viaParameter_filter]
    rfl

/-- How much longer a Via value gets. -/
def viaRoom (tagValue tagName via : Text) : Nat :=
  ((parseViaParameters via).countP (sameName tagName) + 1) * (tagValue.length + 1) +
    tagName.length + 2

theorem length_newViaText_le :
    (newViaText tagValue tagName via).length ≤ via.length + viaRoom tagValue tagName via := by
  have hpairs : ∀ pieces : List Text,
      spread (((pieces.filterMap viaParameter).map (editPair tagValue tagName)).map pairText) ≤
        spread pieces +
          (pieces.filterMap viaParameter).countP (sameName tagName) * (tagValue.length + 1) := by
    intro pieces
    induction pieces with
    | nil => exact Nat.zero_le _
    | cons p pieces ih =>
      rw [spread_cons]
      cases hp : viaParameter p with
      | none =>
        rw [filterMap_cons_none hp]
        omega
      | some nv =>
        have hlength := (isViaPair_of_viaParameter hp).length_le
        have hedit : (pairText (editPair tagValue tagName nv)).length ≤ p.length +
            if sameName tagName nv then tagValue.length + 1 else 0 := by
          rw [pairText, length_append] at hlength ⊢
          rw [editPair]
          dsimp only
          split
          · split
            · rw [length_nil]
              omega
            · rw [length_cons]
              omega
          · exact hlength
        rw [filterMap_cons_some hp, map_cons, map_cons, spread_cons,
          countP_cons]
        split at hedit
        · next hsame =>
            rw [if_pos hsame, Nat.succ_mul]
            omega
        · next hsame =>
            rw [if_neg hsame,
              Nat.add_zero ((pieces.filterMap viaParameter).countP (sameName tagName))]
            omega
  have hread := hpairs (segments isSemi (cString via))
  have hspread := spread_segments_le isSemi (cString via)
  have hstring : (cString via).length ≤ via.length := (List.takeWhile_prefix _).length_le
  have hfold := length_foldl_appendPair
    ((parseViaParameters via).map (editPair tagValue tagName)) []
  rw [length_nil] at hfold
  have hparse : (segments isSemi (cString via)).filterMap viaParameter = parseViaParameters via :=
    rfl
  rw [hparse] at hread
  have htail : (pairText (tagName, tagValue)).length ≤ tagName.length + (tagValue.length + 1) := by
    rw [pairText, length_append]
    split
    · rw [length_nil]
      exact Nat.add_le_add_left (Nat.zero_le _) _
    · rw [length_cons]
  rw [newViaText, viaRoom, Nat.succ_mul]
  split
  · omega
  · rw [length_append, length_cons]
    omega

end Printed

/-! ## Where it is done -/

/-- A value that can be written without quotes. -/
structure IsTagValue (tagValue : Text) : Prop where
  bytes : ∀ c ∈ tagValue, isPrintableChar c = true ∧ isSemi c = false ∧ isComma c = false
  trimmed : trim isCgiBlank tagValue = tagValue
  front : ∀ c ∈ tagValue.head?, isEquals c = false

/-- A name that is read as it was written. -/
structure IsTagName (tagName : Text) : Prop where
  ne_nil : tagName ≠ []
  bytes : ∀ c ∈ tagName, isPrintableChar c = true ∧ isSemi c = false ∧ isComma c = false
  free : ∀ c ∈ tagName, isEquals c = false
  trimmed : trim isCgiBlank tagName = tagName

/-- Where `setViaTag` does what is expected: a parameter whose name is the same but for case comes
with one whose name is the same, the sent-protocol and the sent-by are not taken for it, and the
other parameters have a name and no second equals sign in front of their value. -/
structure Settable (via tagName tagValue : Text) : Prop where
  value : IsTagValue tagValue
  name : IsTagName tagName
  same : (∃ nv ∈ parseViaParameters via, sameName tagName nv = true) →
    ∃ nv ∈ parseViaParameters via, nv.1 = tagName
  sent : ∃ nv, (parseViaParameters via).head? = some nv ∧
    (sameName tagName nv = true → nv.2 = tagValue)
  others : ∀ nv ∈ parseViaParameters via, sameName tagName nv = false → Stable nv

theorem eq_some_of_filterMap_eq {α : Type} {f : α → Option α} :
    ∀ {l : List α}, l.filterMap f = l → ∀ x ∈ l, f x = some x := by
  intro l
  induction l with
  | nil => intro _ x hx; exact absurd hx not_mem_nil
  | cons y l ih =>
    intro h
    cases hy : f y with
    | none =>
      rw [filterMap_cons_none hy] at h
      have hle := length_filterMap_le f l
      rw [h, length_cons] at hle
      exact absurd hle (Nat.not_succ_le_self _)
    | some z =>
      rw [filterMap_cons_some hy, cons_eq_cons] at h
      refine forall_mem_cons.mpr ⟨?_, ih h.2⟩
      rw [hy, h.1]

theorem dropWhile_isEquals (hfront : ∀ c ∈ v.head?, isEquals c = false) :
    v.dropWhile isEquals = v := by
  cases v with
  | nil => rfl
  | cons c cs => exact dropWhile_cons_of_neg (by rw [hfront c rfl]; simp)

theorem front_of_trim (h : trim isCgiBlank (v.dropWhile isEquals) = v) :
    ∀ c ∈ v.head?, isEquals c = false := by
  intro c hc
  obtain ⟨cs, hcs⟩ : ∃ cs, v = c :: cs := head?_eq_some_iff.mp hc
  cases hsign : isEquals c with
  | false => rfl
  | true =>
    have hle := length_trim_le isCgiBlank (v.dropWhile isEquals)
    have hdrop := (dropWhile_suffix isEquals (l := cs)).length_le
    rw [h, hcs, dropWhile_cons_of_pos hsign, length_cons] at hle
    omega

theorem sameName_of_eq {tagName : Text} (h : nv.1 = tagName) : sameName tagName nv = true := by
  rw [sameName, h]
  exact beq_self_eq_true _

theorem ne_nil_of_sameName {tagName : Text} (hne : tagName ≠ [])
    (h : sameName tagName nv = true) : nv.1 ≠ [] := by
  intro hnil
  rw [sameName, hnil, map_nil] at h
  exact hne (map_eq_nil_iff.mp (eq_of_beq h).symm)

@[simp] theorem sameName_editPair (tagValue tagName : Text) (nv : Text × Text) :
    sameName tagName (editPair tagValue tagName nv) = sameName tagName nv := rfl

theorem editPair_of_sameName {tagValue tagName : Text}
    (h : sameName tagName nv = true) : editPair tagValue tagName nv = (nv.1, tagValue) := by
  rw [editPair, if_pos h]

theorem editPair_of_not_sameName {tagValue tagName : Text}
    (h : sameName tagName nv = false) : editPair tagValue tagName nv = nv := by
  rw [editPair, h]
  rfl

section Iff

variable {m : SipMessage} {i : Nat} {via tagName tagValue : Text}

theorem mem_editedPairs (he : e ∈ editedPairs tagValue tagName via) :
    (∃ nv ∈ parseViaParameters via, e = editPair tagValue tagName nv) ∨
      e = (tagName, tagValue) ∧ ∀ nv ∈ parseViaParameters via, sameName tagName nv = false := by
  rw [editedPairs] at he
  rcases mem_append.mp he with he | he
  · obtain ⟨nv, hnv, rfl⟩ := mem_map.mp he
    exact Or.inl ⟨nv, hnv, rfl⟩
  · split at he
    · exact absurd he not_mem_nil
    · next hany =>
        refine Or.inr ⟨mem_singleton.mp he, fun nv hnv => ?_⟩
        simpa using any_eq_false.mp (by simpa using hany) nv hnv

theorem viaParameter_set (hne : tagName ≠ []) (hfree : ∀ c ∈ tagName, isEquals c = false)
    (htrim : trim isCgiBlank tagName = tagName)
    (he : e ∈ editedPairs tagValue tagName via) (hsame : sameName tagName e = true) :
    viaParameter (pairText e) = some (e.1, trim isCgiBlank (tagValue.dropWhile isEquals)) := by
  rcases mem_editedPairs he with ⟨nv, hnv, rfl⟩ | ⟨rfl, -⟩
  · rw [sameName_editPair] at hsame
    obtain ⟨p, hp, -⟩ := exists_of_mem_parseViaParameters hnv
    rw [editPair_of_sameName hsame]
    exact viaParameter_pairText (nv.1, tagValue) (ne_nil_of_sameName hne hsame)
      hp.name_free hp.name_trim
  · exact viaParameter_pairText (tagName, tagValue) hne hfree htrim

theorem mem_of_not_sameName (he : e ∈ editedPairs tagValue tagName via)
    (hsame : sameName tagName e = false) : e ∈ parseViaParameters via := by
  rcases mem_editedPairs he with ⟨nv, hnv, rfl⟩ | ⟨rfl, -⟩
  · rw [sameName_editPair] at hsame
    rwa [editPair_of_not_sameName hsame]
  · have hown : sameName tagName (tagName, tagValue) = true := sameName_of_eq rfl
    exact absurd hown (by rw [hsame]; simp)

/-- All that is printed is read again. -/
theorem parseViaParameters_of_settable (h : Settable via tagName tagValue) :
    parseViaParameters (newViaText tagValue tagName via) = editedPairs tagValue tagName via := by
  have hplain {t : Text} (ht : ∀ c ∈ t, isPrintableChar c = true ∧ isSemi c = false ∧
      isComma c = false) : ∀ c ∈ t, isSemi c = false ∧ c ≠ 0 :=
    fun c hc => ⟨(ht c hc).2.1, ne_of_class (ht c hc).1 (by decide)⟩
  rw [parseViaParameters_printed via (hplain h.name.bytes) (hplain h.value.bytes)]
  have hself : ∀ e ∈ editedPairs tagValue tagName via, viaParameter (pairText e) = some e := by
    intro e he
    cases hsame : sameName tagName e with
    | true =>
      rw [viaParameter_set h.name.ne_nil h.name.free h.name.trimmed he hsame,
        dropWhile_isEquals h.value.front, h.value.trimmed]
      rcases mem_editedPairs he with ⟨nv, -, rfl⟩ | ⟨rfl, -⟩
      · rw [sameName_editPair] at hsame
        rw [editPair_of_sameName hsame]
      · rfl
    | false =>
      have hmem := mem_of_not_sameName he hsame
      obtain ⟨p, hp, -⟩ := exists_of_mem_parseViaParameters hmem
      exact (viaParameter_pairText_eq_iff hp).mpr (h.others e hmem hsame)
  exact (filterMap_congr hself).trans filterMap_some

/-- The parameters other than the one that is set. -/
theorem filter_editedPairs (via tagName tagValue : Text) :
    (editedPairs tagValue tagName via).filter (!sameName tagName ·) =
      (parseViaParameters via).filter (!sameName tagName ·) := by
  have hmap : ∀ params : List (Text × Text),
      (params.map (editPair tagValue tagName)).filter (!sameName tagName ·) =
        params.filter (!sameName tagName ·) := by
    intro params
    induction params with
    | nil => rfl
    | cons nv params ih =>
      rw [map_cons, filter_cons, filter_cons, ih, sameName_editPair]
      cases hsame : sameName tagName nv with
      | true => rfl
      | false => rw [editPair_of_not_sameName hsame]
  have htail : (if (parseViaParameters via).any (sameName tagName) then [] else
      [(tagName, tagValue)]).filter (!sameName tagName ·) = [] := by
    split
    · rfl
    · have hself : sameName tagName (tagName, tagValue) = true := sameName_of_eq rfl
      rw [filter_cons_of_neg (by rw [hself]; simp)]
      rfl
  rw [editedPairs, filter_append, hmap, htail, append_nil]

theorem getViaTag_eq_some (hmem : ∃ nv ∈ parseViaParameters newVia, nv.1 = tagName)
    (hall : ∀ nv ∈ parseViaParameters newVia, nv.1 = tagName → nv.2 = tagValue) :
    getViaTag newVia tagName = some tagValue := by
  obtain ⟨nv, hnv, hname⟩ := hmem
  rw [getViaTag]
  cases hfind : (parseViaParameters newVia).reverse.find? (·.1 == tagName) with
  | none =>
    have hnone := find?_eq_none.mp hfind nv (mem_reverse.mpr hnv)
    exact absurd (by simpa using hname) hnone
  | some found =>
    have hfound : found.1 = tagName := by simpa using find?_some hfind
    have hmem := mem_reverse.mp (mem_of_find?_eq_some hfind)
    rw [Option.map_some, hall found hmem hfound]

theorem mem_of_getViaTag (h : getViaTag newVia tagName = some tagValue) :
    (tagName, tagValue) ∈ parseViaParameters newVia := by
  rw [getViaTag, Option.map_eq_some_iff] at h
  obtain ⟨found, hfind, hvalue⟩ := h
  have hname : found.1 = tagName := by simpa using find?_some hfind
  have hmem := mem_reverse.mp (mem_of_find?_eq_some hfind)
  rwa [← hname, ← hvalue]

end Iff

section Main

variable {m : SipMessage} {i : Nat} {via tagName tagValue : Text}

theorem setViaTag_eq (tagName tagValue : Text) {room : Nat} (hm : ReadableVias m room)
    (hvia : (fieldSubfields m viaField)[i]? = some via) : setViaTag m tagValue tagName i =
      setFieldSubfield m viaField i (newViaText tagValue tagName via) := by
  rw [setViaTag, getViaFieldSubField_eq hm.printable, hvia]

theorem bytes_of_via {room : Nat} (hm : ReadableVias m room)
    (hvia : (fieldSubfields m viaField)[i]? = some via) :
    ∀ c ∈ via, isPrintableChar c = true ∧ isComma c = false := by
  have hmem : via ∈ fieldSubfields m viaField := mem_of_getElem? hvia
  obtain ⟨value, hvalue, hsub⟩ := mem_flatMap.mp hmem
  refine fun c hc => ⟨?_, (mem_subfields hsub).2 c hc⟩
  rw [subfields] at hsub
  split at hsub
  · exact hm.printable value hvalue c (segments_subset hsub c hc)
  · exact absurd hsub not_mem_nil

/-- Being settable is enough for the tag to be set. -/
theorem setTo_of_settable (hm : ReadableVias m (viaRoom tagValue tagName via))
    (hvia : (fieldSubfields m viaField)[i]? = some via) (h : Settable via tagName tagValue) :
    SetTo m i via tagName tagValue (newViaText tagValue tagName via) := by
  have hparse := parseViaParameters_of_settable h
  have hbytes : ∀ c ∈ newViaText tagValue tagName via, isPrintableChar c = true ∧ isComma c = false :=
    forall_mem_newViaText (by decide) (by decide)
      (fun c hc => bytes_of_via hm hvia c ((List.takeWhile_prefix _).subset hc))
      (fun c hc => ⟨(h.name.bytes c hc).1, (h.name.bytes c hc).2.2⟩)
      fun c hc => ⟨(h.value.bytes c hc).1, (h.value.bytes c hc).2.2⟩
  obtain ⟨first, hfirst, hsent⟩ := h.sent
  obtain ⟨rest, hrest⟩ : ∃ rest, parseViaParameters via = first :: rest :=
    head?_eq_some_iff.mp hfirst
  have hedited : (editedPairs tagValue tagName via).head? = some first := by
    rw [editedPairs, hrest]
    show some (editPair tagValue tagName first) = some first
    cases hsame : sameName tagName first with
    | true => rw [editPair_of_sameName hsame, ← hsent hsame]
    | false => rw [editPair_of_not_sameName hsame]
  have hne : newViaText tagValue tagName via ≠ [] := by
    intro hnil
    rw [hnil] at hparse
    rw [← hparse] at hedited
    exact absurd hedited (by simp [parseViaParameters, cString])
  obtain ⟨hsuccess, hvalues, -, hread⟩ := setFieldSubfield_spec hm hvia
    (fun c hc => (hbytes c hc).2) length_newViaText_le
  have hset := setViaTag_eq tagName tagValue hm hvia
  refine ⟨?_, ?_, ?_, ?_, ?_, ?_⟩
  · rw [hset]
    exact hsuccess
  · rw [hset]
    exact hvalues hne
  · rw [hset]
    exact hread hne fun c hc => (hbytes c hc).1
  · refine getViaTag_eq_some ?_ ?_
    · rw [hparse, editedPairs]
      by_cases hany : (parseViaParameters via).any (sameName tagName) = true
      · rw [if_pos hany, append_nil]
        obtain ⟨nv, hnv, hname⟩ := h.same (any_eq_true.mp hany)
        exact ⟨_, mem_map_of_mem hnv, hname⟩
      · rw [if_neg hany]
        exact ⟨_, mem_append_right _ (mem_singleton_self _), rfl⟩
    · intro e he hname
      rw [hparse] at he
      rcases mem_editedPairs he with ⟨nv, -, rfl⟩ | ⟨rfl, -⟩
      · have hsame : sameName tagName nv = true := sameName_of_eq hname
        rw [editPair_of_sameName hsame]
      · rfl
  · rw [hparse, hedited, hfirst]
  · rw [hparse]
    exact filter_editedPairs via tagName tagValue

/-- A tag that is set was settable. -/
theorem settable_of_setTo (hm : ReadableVias m (viaRoom tagValue tagName via))
    (hvia : (fieldSubfields m viaField)[i]? = some via)
    (h : SetTo m i via tagName tagValue newVia) : Settable via tagName tagValue := by
  have hlt : i < (fieldSubfields m viaField).length := (List.getElem?_eq_some_iff.mp hvia).1
  have hset := setViaTag_eq tagName tagValue hm hvia
  -- the name and the value were read of a printable text without commas
  have htag := mem_of_getViaTag h.tag
  obtain ⟨p, hp, hsemi, hsub⟩ := exists_of_mem_parseViaParameters htag
  have hprintable := isPrintable_of_getViaFieldSubField h.read
  have hcomma : ∀ c ∈ newVia, isComma c = false := by
    have hmem : newVia ∈ fieldSubfields (setViaTag m tagValue tagName i).2 viaField := by
      rw [h.values]
      exact mem_set hlt _
    exact (mem_fieldSubfields hmem).2
  have hbytes {t : Text} (ht : t ⊆ p) :
      ∀ c ∈ t, isPrintableChar c = true ∧ isSemi c = false ∧ isComma c = false := by
    intro c hc
    have hmem : c ∈ newVia := (List.takeWhile_prefix _).subset (hsub (ht hc))
    exact ⟨hprintable c hmem, hsemi c (ht hc), hcomma c hmem⟩
  have hname : ∀ c ∈ tagName, isPrintableChar c = true ∧ isSemi c = false ∧ isComma c = false :=
    hbytes hp.name_subset
  have hvalue : ∀ c ∈ tagValue, isPrintableChar c = true ∧ isSemi c = false ∧ isComma c = false :=
    hbytes hp.value_subset
  -- so the text that was printed is the one that was read
  have hfree : ∀ c ∈ newViaText tagValue tagName via, isComma c = false :=
    forall_mem_newViaText (by decide) (by decide)
      (fun c hc => (bytes_of_via hm hvia c ((List.takeWhile_prefix _).subset hc)).2)
      (fun c hc => (hname c hc).2.2) fun c hc => (hvalue c hc).2.2
  obtain ⟨-, hvalues, hfewer, -⟩ := setFieldSubfield_spec hm hvia hfree length_newViaText_le
  have hwritten := h.values
  rw [hset] at hwritten
  have hne : newViaText tagValue tagName via ≠ [] := by
    intro hnil
    have hless := hfewer hnil
    rw [hwritten, length_set] at hless
    exact absurd hless (Nat.lt_irrefl _)
  have htext : newViaText tagValue tagName via = newVia := by
    have heq := congrArg (·[i]?) ((hvalues hne).symm.trans hwritten)
    simpa [hlt] using heq
  have hplain {t : Text} (ht : ∀ c ∈ t, isPrintableChar c = true ∧ isSemi c = false ∧
      isComma c = false) : ∀ c ∈ t, isSemi c = false ∧ c ≠ 0 :=
    fun c hc => ⟨(ht c hc).2.1, ne_of_class (ht c hc).1 (by decide)⟩
  have hparse := parseViaParameters_printed via (hplain hname) (hplain hvalue)
  rw [htext] at hparse
  have hothers := h.others
  have hsent := h.sent
  rw [hparse] at htag hothers hsent
  obtain ⟨e, he, hread⟩ := mem_filterMap.mp htag
  -- a value alone is not read again, so the name is not empty
  have hnil : tagName ≠ [] := by
    intro hnil
    by_cases hfirst : e.1 = []
    · have hvalue : e.2 = tagValue := by
        have hsame : sameName tagName e = true := by
          rw [sameName, hfirst, hnil]
          rfl
        rcases mem_editedPairs he with ⟨nv, -, rfl⟩ | ⟨rfl, -⟩
        · rw [sameName_editPair] at hsame
          rw [editPair_of_sameName hsame]
        · rfl
      have hpair : pairText e = if tagValue = [] then [] else byte '=' :: tagValue := by
        rw [pairText, hfirst, hvalue, nil_append]
      rw [hpair] at hread
      split at hread
      · exact absurd hread (by simp [viaParameter_eq])
      · exact absurd (value_lt_of_viaParameter hread) (Nat.lt_irrefl _)
    · rcases mem_editedPairs he with ⟨nv, hnv, rfl⟩ | ⟨rfl, -⟩
      · obtain ⟨p', hp', -⟩ := exists_of_mem_parseViaParameters hnv
        rw [viaParameter_pairText _ hfirst hp'.name_free hp'.name_trim] at hread
        exact hfirst ((congrArg Prod.fst (Option.some.inj hread)).trans hnil)
      · exact hfirst hnil
  have hset_read {e : Text × Text} (he : e ∈ editedPairs tagValue tagName via)
      (hsame : sameName tagName e = true) :=
    viaParameter_set hnil hp.name_free hp.name_trim he hsame
  -- the other parameters were read again one by one
  have hstable : ∀ nv ∈ parseViaParameters via, sameName tagName nv = false → Stable nv := by
    have hfilter : ((editedPairs tagValue tagName via).filterMap fun nv =>
        viaParameter (pairText nv)).filter (!sameName tagName ·) =
        ((parseViaParameters via).filter (!sameName tagName ·)).filterMap fun nv =>
          (viaParameter (pairText nv)).filter (!sameName tagName ·) := by
      rw [← filter_editedPairs via tagName tagValue, filter_filterMap,
        filterMap_filter]
      refine filterMap_congr fun e he => ?_
      cases hsame : sameName tagName e with
      | true =>
        rw [hset_read he hsame]
        have hname : sameName tagName (e.1, trim isCgiBlank (tagValue.dropWhile isEquals)) =
            true := hsame
        rw [Option.filter_some, hname]
        rfl
      | false => rfl
    rw [hfilter] at hothers
    intro nv hnv hsame
    have hself := eq_some_of_filterMap_eq hothers nv
      (mem_filter.mpr ⟨hnv, by rw [hsame]; rfl⟩)
    obtain ⟨p', hp', -⟩ := exists_of_mem_parseViaParameters hnv
    exact (viaParameter_pairText_eq_iff hp').mp (Option.filter_eq_some_iff.mp hself).1
  -- the parameter that is found is one of those that were set
  have hesame : sameName tagName e = true := by
    cases hsame : sameName tagName e with
    | true => rfl
    | false =>
      have hmem := mem_of_not_sameName he hsame
      obtain ⟨p', hp', -⟩ := exists_of_mem_parseViaParameters hmem
      rw [(viaParameter_pairText_eq_iff hp').mpr (hstable e hmem hsame)] at hread
      rw [sameName_of_eq (congrArg Prod.fst (Option.some.inj hread))] at hsame
      exact absurd hsame (by simp)
  have hfirst_read {e : Text × Text} {rest : List (Text × Text)}
      (hedited : editedPairs tagValue tagName via = e :: rest) (hsame : sameName tagName e = true) :
      ((editedPairs tagValue tagName via).filterMap fun nv => viaParameter (pairText nv)).head? =
        some (e.1, trim isCgiBlank (tagValue.dropWhile isEquals)) := by
    have hself := hset_read (by rw [hedited]; exact mem_cons_self) hsame
    rw [hedited, filterMap_cons, hself]
    rfl
  rw [hset_read he hesame] at hread
  obtain ⟨hename, hevalue⟩ := Prod.mk.inj (Option.some.inj hread)
  refine ⟨⟨hvalue, hp.value_trim, front_of_trim hevalue⟩,
    ⟨hnil, hname, hp.name_free, hp.name_trim⟩, ?_, ?_, hstable⟩
  · rintro ⟨nv, hnv, hsame⟩
    rcases mem_editedPairs he with ⟨nv', hnv', rfl⟩ | ⟨-, hnone⟩
    · exact ⟨nv', hnv', hename⟩
    · exact absurd hsame (by rw [hnone nv hnv]; simp)
  · cases hparams : parseViaParameters via with
    | nil =>
      have hedited : editedPairs tagValue tagName via = [(tagName, tagValue)] := by
        rw [editedPairs, hparams]
        rfl
      rw [hfirst_read hedited (sameName_of_eq rfl), hparams] at hsent
      exact absurd hsent (by simp)
    | cons nv rest =>
      refine ⟨nv, rfl, fun hsame => ?_⟩
      obtain ⟨rest', hedited⟩ : ∃ rest', editedPairs tagValue tagName via =
          editPair tagValue tagName nv :: rest' := by
        rw [editedPairs, hparams]
        exact ⟨_, rfl⟩
      rw [hfirst_read hedited hsame, hparams, hevalue] at hsent
      exact (congrArg Prod.snd (Option.some.inj hsent)).symm

/-- **Setting a parameter of a Via.**  In headers that are read, `setViaTag` does what is expected
exactly where the name and the value can stand in a Via, a parameter of the same name is not only
there in another case, and the others are read again as they are printed. -/
theorem viaTagSet_iff (hm : ReadableVias m (viaRoom tagValue tagName via))
    (hvia : (fieldSubfields m viaField)[i]? = some via) :
    ViaTagSet m i via tagName tagValue ↔ Settable via tagName tagValue :=
  ⟨fun ⟨_, h⟩ => settable_of_setTo hm hvia h, fun h => ⟨_, setTo_of_settable hm hvia h⟩⟩

end Main

/-! ### A response with two Via values -/

/-- A response with two Via values in one header. -/
def twoVias : SipMessage where
  firstHeaderLine := text "SIP/2.0 200 OK"
  nameValues := [(viaField, text "SIP/2.0/UDP first.example.com;branch=x, SIP/2.0/TCP second")]

def firstVia : Text := text "SIP/2.0/UDP first.example.com;branch=x"

theorem viaTagSet_iff_twoVias : ViaTagSet twoVias 0 firstVia (text "branch") (text "y") := by
  have hparams : parseViaParameters firstVia =
      [(text "SIP/2.0/UDP first.example.com", []), (text "branch", text "x")] := by decide
  refine (viaTagSet_iff ⟨by decide, by decide, by decide⟩ (by decide)).mpr
    ⟨⟨by decide, by decide, by decide +kernel⟩, ⟨by decide, by decide, by decide, by decide⟩,
      ?_, ?_, ?_⟩
  · rw [hparams]
    decide
  · rw [hparams]
    exact ⟨_, rfl, by decide⟩
  · rw [hparams]
    intro nv hnv hsame
    rcases mem_cons.mp hnv with rfl | hnv
    · exact ⟨by decide, by decide +kernel⟩
    · rw [mem_singleton.mp hnv] at hsame
      exact absurd hsame (by decide)

/-- A parameter that is there in another case is set, and not found. -/
theorem not_viaTagSet_twoVias : ¬ ViaTagSet twoVias 0 firstVia (text "Branch") (text "y") := by
  rintro ⟨newVia, h⟩
  have hread : getViaFieldSubField (setViaTag twoVias (text "y") (text "Branch") 0).2 0 =
      some (text "SIP/2.0/UDP first.example.com;branch=y") := by decide
  have htag := h.tag
  rw [← Option.some.inj (hread.symm.trans h.read)] at htag
  exact absurd htag (by decide)

end SipMessage

end SipXRouter
