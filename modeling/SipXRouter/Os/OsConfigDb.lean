import SipXRouter.Net.XmlRpcBody
import SipXRouter.Utl.UtlString

/-!
# Configuration databases

`OsConfigDb` holds values under keys.  A file is read byte by byte and ends a line at a line feed
or a carriage return; a buffer is cut at the line feeds only, no more than 256 bytes of a line are
read, and what stands behind the last line feed is a line too.
-/

namespace SipXRouter

open List

/-- The database: its entries in the order of the keys, and whether keys are capitalized. -/
structure OsConfigDb where
  mDb : List (Text × Text) := []
  mCapitalizeName : Bool := false
  nodup : (mDb.map Prod.fst).Nodup

variable {entries : List (Text × Text)} {w : Text}

namespace OsConfigDb

/-- A new database. -/
def new (capitalizeName : Bool) : OsConfigDb := ⟨[], capitalizeName, nodup_nil⟩

/-! ## The entries -/

/-- `get`, nothing where there is no entry. -/
def get (db : OsConfigDb) (rKey : Text) : Option Text :=
  (db.mDb.find? (·.1 == rKey)).map Prod.snd

/-- Give the entry of a key a value. -/
def replaceValue (rKey rNewValue : Text) (entries : List (Text × Text)) : List (Text × Text) :=
  entries.map fun e => if e.1 = rKey then (e.1, rNewValue) else e

/-- `UtlSortedList::insert`: in front of the first key that is not below. -/
def insertSorted (rKey rNewValue : Text) (entries : List (Text × Text)) : List (Text × Text) :=
  entries.takeWhile (·.1 < rKey) ++ (rKey, rNewValue) :: entries.dropWhile (·.1 < rKey)

theorem map_fst_replaceValue (rKey rNewValue : Text) (entries : List (Text × Text)) :
    (replaceValue rKey rNewValue entries).map Prod.fst = entries.map Prod.fst := by
  rw [replaceValue, map_map]
  refine map_congr_left fun e _ => ?_
  show (if e.1 = rKey then (e.1, rNewValue) else e).1 = e.1
  split
  · rfl
  · rfl

theorem nodup_insertSorted {rKey : Text} (rNewValue : Text)
    (hnew : ∀ e ∈ entries, e.1 ≠ rKey) (hnodup : (entries.map Prod.fst).Nodup) :
    ((insertSorted rKey rNewValue entries).map Prod.fst).Nodup := by
  have hperm : (insertSorted rKey rNewValue entries).Perm ((rKey, rNewValue) :: entries) := by
    have hmiddle : (insertSorted rKey rNewValue entries).Perm
        ((rKey, rNewValue) :: (entries.takeWhile (·.1 < rKey) ++ entries.dropWhile (·.1 < rKey))) :=
      perm_middle
    rw [takeWhile_append_dropWhile] at hmiddle
    exact hmiddle
  refine (hperm.map Prod.fst).nodup_iff.mpr (nodup_cons.mpr ⟨fun hmem => ?_, hnodup⟩)
  obtain ⟨e, he, hkey⟩ := mem_map.mp hmem
  exact hnew e he hkey

/-- The entries behind `insertEntry` on a key and a value. -/
def inserted (rKey rNewValue : Text) (entries : List (Text × Text)) : List (Text × Text) :=
  if entries.any (·.1 == rKey) then replaceValue rKey rNewValue entries
  else insertSorted rKey rNewValue entries

theorem nodup_inserted (rKey rNewValue : Text) (hnodup : (entries.map Prod.fst).Nodup) :
    ((inserted rKey rNewValue entries).map Prod.fst).Nodup := by
  rw [inserted]
  split
  · rw [map_fst_replaceValue]
    exact hnodup
  · next hnone =>
      refine nodup_insertSorted rNewValue (fun e he hkey => hnone ?_) hnodup
      exact any_eq_true.mpr ⟨e, he, beq_iff_eq.mpr hkey⟩

/-- `insertEntry` on a key and a value: a key that is there gets the new value. -/
def insertEntry (db : OsConfigDb) (rKey rNewValue : Text) : OsConfigDb where
  mDb := inserted rKey rNewValue db.mDb
  mCapitalizeName := db.mCapitalizeName
  nodup := nodup_inserted rKey rNewValue db.nodup

/-- Inserting sets one key. -/
theorem get_insertEntry (db : OsConfigDb) (rKey rNewValue key : Text) :
    (db.insertEntry rKey rNewValue).get key =
      if rKey = key then some rNewValue else db.get key := by
  show ((inserted rKey rNewValue db.mDb).find? (·.1 == key)).map Prod.snd = _
  rw [get, inserted]
  split
  · next hany =>
      have hsame :
          ((·.1 == key) ∘ fun e : Text × Text => if e.1 = rKey then (e.1, rNewValue) else e) =
          (·.1 == key) := by
        funext e
        show ((if e.1 = rKey then (e.1, rNewValue) else e).1 == key) = (e.1 == key)
        split
        · rfl
        · rfl
      rw [replaceValue, find?_map, hsame]
      cases hfind : db.mDb.find? (·.1 == key) with
      | none =>
        obtain ⟨e, he, hkey⟩ := any_eq_true.mp hany
        have hne : rKey ≠ key := by
          rintro rfl
          exact absurd hkey (find?_eq_none.mp hfind e he)
        rw [if_neg hne]
        rfl
      | some e =>
        have hkey : e.1 = key :=
          eq_of_beq (find?_some (p := fun x : Text × Text => x.1 == key) hfind)
        show some (if e.1 = rKey then (e.1, rNewValue) else e).2 = _
        by_cases hr : rKey = key
        · rw [if_pos hr, if_pos (hkey.trans hr.symm)]
        · rw [if_neg hr, if_neg fun h => hr (h.symm.trans hkey)]
          rfl
  · next hnone =>
      have hsplit : (db.mDb.find? (·.1 == key)) =
          ((db.mDb.takeWhile (·.1 < rKey)).find? (·.1 == key)).or
            ((db.mDb.dropWhile (·.1 < rKey)).find? (·.1 == key)) := by
        rw [← find?_append, takeWhile_append_dropWhile]
      rw [insertSorted, find?_append, find?_cons]
      by_cases hr : rKey = key
      · have htake : (db.mDb.takeWhile (·.1 < rKey)).find? (·.1 == key) = none := by
          refine find?_eq_none.mpr fun e he hkey => hnone ?_
          refine any_eq_true.mpr ⟨e, (List.takeWhile_prefix _).subset he, ?_⟩
          rw [hr]
          exact hkey
        rw [htake, if_pos hr, hr]
        simp
      · have hne : (rKey == key) = false := beq_eq_false_iff_ne.mpr hr
        rw [hne, if_neg hr, hsplit]

/-! ## A line -/

def endsName (c : Byte) : Bool := isCSpace c || c == byte ':'

/-- What stands behind a colon, if there is one. -/
def afterColon : Text → Option Text
  | [] => none
  | c :: rest => if c = byte ':' then some rest else none

/-- `UtlString::toUpper`, if names are capitalized. -/
def capitalized (capitalizeName : Bool) (name : Text) : Text :=
  if capitalizeName then name.map toUpper else name

/-- The entry of a line, if it has one.  The line is read as a C string. -/
def lineEntry (capitalizeName : Bool) (fileLine : Text) : Option (Text × Text) :=
  let p := (cString fileLine).dropWhile isCSpace
  if p.head? = none ∨ p.head? = some (byte '#') then none
  else
    let name := p.takeWhile fun c => !endsName c
    if name = [] then none
    else
      (afterColon ((p.dropWhile fun c => !endsName c).dropWhile isCSpace)).map fun value =>
        (capitalized capitalizeName name, trim isCSpace value)

/-- `insertEntry` on a line. -/
def insertLine (db : OsConfigDb) (fileLine : Text) : OsConfigDb :=
  match lineEntry db.mCapitalizeName fileLine with
  | none => db
  | some e => db.insertEntry e.1 e.2

/-! ## The readers -/

/-- The loop over the bytes of a file.  The line that no line end follows is given up: the end of
the file is read as one more byte of it. -/
def fileLoop (db : OsConfigDb) : (fileLine : Text) → Text → OsConfigDb
  | _, [] => db
  | fileLine, c :: cs =>
    if c = byte '\n' ∨ c = byte '\r' then
      if fileLine ≠ [] then fileLoop (db.insertLine fileLine) [] cs else fileLoop db fileLine cs
    else fileLoop db (fileLine ++ [c]) cs

def loadFromUnencryptedFile (db : OsConfigDb) (contents : Text) : OsConfigDb :=
  db.fileLoop [] contents

/-- `MAX_FILELINE_SIZE`. -/
def maxFileLineSize : Nat := 256

/-- The loop over the lines of a buffer.  Each round takes at least one byte, so that the length
bounds their number. -/
def bufferLoop (db : OsConfigDb) : (fuel : Nat) → Text → OsConfigDb
  | 0, _ => db
  | fuel + 1, config =>
    if config = [] then db
    else
      let line := config.takeWhile (· != byte '\n')
      let configLine := line.take maxFileLineSize
      let config := config.drop (line.length + 1)
      if configLine = [] then bufferLoop db fuel config
      else bufferLoop (db.insertLine configLine) fuel config

def loadFromUnencryptedBuffer (db : OsConfigDb) (buf : Text) : OsConfigDb :=
  let config := cString buf
  db.bufferLoop config.length config

/-! ## What a list of entries sets -/

/-- The value that a list of entries leaves under a key. -/
def setBy (entries : List (Text × Text)) (key : Text) : Option Text :=
  entries.foldl (fun value e => if e.1 = key then some e.2 else value) none

/-- Enter the entries of a list of lines. -/
def insertLines (db : OsConfigDb) (lines : List Text) : OsConfigDb := lines.foldl insertLine db

def entriesOf (capitalizeName : Bool) (lines : List Text) : List (Text × Text) :=
  lines.filterMap (lineEntry capitalizeName)

theorem setBy_foldl (entries : List (Text × Text)) (key : Text) (value : Option Text) :
    entries.foldl (fun value e => if e.1 = key then some e.2 else value) value =
      (setBy entries key).or value := by
  induction entries generalizing value with
  | nil => rfl
  | cons e entries ih =>
    rw [setBy, foldl_cons, foldl_cons, ih, ih]
    split
    · cases setBy entries key <;> rfl
    · cases setBy entries key <;> rfl

theorem setBy_cons (e : Text × Text) (entries : List (Text × Text)) (key : Text) :
    setBy (e :: entries) key = (setBy entries key).or (if e.1 = key then some e.2 else none) := by
  rw [setBy, foldl_cons, setBy_foldl]

theorem setBy_append (entries others : List (Text × Text)) (key : Text) :
    setBy (entries ++ others) key = (setBy others key).or (setBy entries key) := by
  rw [setBy, foldl_append, setBy_foldl]
  rfl

theorem exists_of_setBy {key value : Text}
    (h : setBy entries key = some value) : (key, value) ∈ entries := by
  induction entries with
  | nil => cases h
  | cons e entries ih =>
    rw [setBy_cons, Option.or_eq_some_iff] at h
    rcases h with h | ⟨-, h⟩
    · exact mem_cons_of_mem _ (ih h)
    · split at h
      · next hkey =>
          rw [← hkey, ← Option.some_inj.mp h]
          exact mem_cons_self
      · cases h

theorem insertLine_mCapitalizeName (db : OsConfigDb) (fileLine : Text) :
    (db.insertLine fileLine).mCapitalizeName = db.mCapitalizeName := by
  rw [insertLine]
  split
  · rfl
  · rfl

theorem get_insertLines (db : OsConfigDb) (lines : List Text) (key : Text) :
    (db.insertLines lines).get key =
      (setBy (entriesOf db.mCapitalizeName lines) key).or (db.get key) := by
  induction lines generalizing db with
  | nil => rfl
  | cons line lines ih =>
    show ((db.insertLine line).insertLines lines).get key = _
    rw [ih, insertLine_mCapitalizeName, entriesOf, entriesOf, filterMap_cons, insertLine]
    cases lineEntry db.mCapitalizeName line with
    | none => rfl
    | some e =>
      show Option.or _ ((db.insertEntry e.1 e.2).get key) = (setBy (e :: _) key).or _
      rw [get_insertEntry, setBy_cons, Option.or_assoc]
      split
      · rfl
      · rfl

theorem get_new (capitalizeName : Bool) (key : Text) : (new capitalizeName).get key = none := rfl

/-! ## The readers as lists of lines -/

/-- Cut a text behind the bytes of a class: the pieces without these bytes, and what stands behind
the last one. -/
def cutFrom (stops : Byte → Bool) : (piece : Text) → Text → List Text × Text
  | piece, [] => ([], piece)
  | piece, c :: cs =>
    if stops c then (piece :: (cutFrom stops [] cs).1, (cutFrom stops [] cs).2)
    else cutFrom stops (piece ++ [c]) cs

def isLineFeed (c : Byte) : Bool := c == byte '\n'

def isReturn (c : Byte) : Bool := c == byte '\r'

def isLineEnd (c : Byte) : Bool := isLineFeed c || isReturn c

/-- A text between line feeds, and whether one follows it. -/
structure Line where
  text : Text
  ended : Bool
deriving DecidableEq

/-- The lines of a file; the last one has no line feed. -/
def linesOf (contents : Text) : List Line :=
  (cutFrom isLineFeed [] contents).1.map (⟨·, true⟩) ++
    [⟨(cutFrom isLineFeed [] contents).2, false⟩]

/-- What is read of a line from a file: the pieces between the returns, of which the last one
needs a line feed behind it. -/
def fileLines (line : Line) : List Text :=
  ((cutFrom isReturn [] line.text).1 ++
    if line.ended then [(cutFrom isReturn [] line.text).2] else []).filter (· ≠ [])

/-- What the loader of a buffer makes of a line: it is cut at its size, and dropped if it is empty.
-/
def bufferLines (line : Line) : List Text := [line.text.take maxFileLineSize].filter (· ≠ [])

theorem fileLoop_eq (db : OsConfigDb) (fileLine contents : Text) : db.fileLoop fileLine contents =
    db.insertLines ((cutFrom isLineEnd fileLine contents).1.filter (· ≠ [])) := by
  induction contents generalizing db fileLine with
  | nil => rfl
  | cons c cs ih =>
    have hend : (c = byte '\n' ∨ c = byte '\r') ↔ isLineEnd c = true := by
      simp [isLineEnd, isLineFeed, isReturn]
    rw [fileLoop, cutFrom]
    by_cases hc : isLineEnd c = true
    · rw [if_pos (hend.mpr hc), if_pos hc]
      by_cases hline : fileLine = []
      · rw [if_neg (not_not_intro hline), hline, ih, filter_cons_of_neg (by decide)]
      · rw [if_pos hline, ih, filter_cons_of_pos (by exact decide_eq_true hline)]
        rfl
    · rw [if_neg (fun h => hc (hend.mp h)), if_neg hc, ih]

theorem cutFrom_concat (stops : Byte → Bool) (piece contents : Text) (c : Byte) :
    cutFrom stops piece (contents ++ [c]) =
      if stops c then
        ((cutFrom stops piece contents).1 ++ [(cutFrom stops piece contents).2], [])
      else ((cutFrom stops piece contents).1, (cutFrom stops piece contents).2 ++ [c]) := by
  induction contents generalizing piece with
  | nil =>
    have hone : cutFrom stops piece [c] =
        if stops c then ([piece], []) else ([], piece ++ [c]) := rfl
    exact hone
  | cons d contents ih =>
    rw [cons_append, cutFrom, cutFrom]
    by_cases hd : stops d = true
    · rw [if_pos hd, if_pos hd, ih]
      split
      · rfl
      · rfl
    · rw [if_neg hd, if_neg hd, ih]

theorem cutFrom_isLineEnd (unit contents : Text) :
    (cutFrom isReturn [] unit).1 ++
        (cutFrom isLineEnd (cutFrom isReturn [] unit).2 contents).1 =
      (cutFrom isLineFeed unit contents).1.flatMap (fun line =>
          (cutFrom isReturn [] line).1 ++ [(cutFrom isReturn [] line).2]) ++
        (cutFrom isReturn [] (cutFrom isLineFeed unit contents).2).1 := by
  induction contents generalizing unit with
  | nil => exact append_nil _
  | cons c cs ih =>
    rw [cutFrom, cutFrom]
    by_cases hfeed : isLineFeed c = true
    · have hend : isLineEnd c = true := by rw [isLineEnd, hfeed, Bool.true_or]
      have h := ih []
      rw [if_pos hend, if_pos hfeed, flatMap_cons, append_assoc, append_assoc]
      show _ ++ _ :: _ = _ ++ (_ :: _)
      rw [← h]
      rfl
    · rw [Bool.not_eq_true] at hfeed
      have hconcat := cutFrom_concat isReturn [] unit c
      have h := ih (unit ++ [c])
      rw [hconcat] at h
      have hend : isLineEnd c = isReturn c := by rw [isLineEnd, hfeed, Bool.false_or]
      rw [hend, hfeed, if_neg Bool.false_ne_true]
      by_cases hreturn : isReturn c = true
      · rw [if_pos hreturn] at h ⊢
        rw [← h, append_assoc]
        rfl
      · rw [if_neg hreturn] at h ⊢
        exact h

/-- **What is read from a file.** -/
theorem loadFromUnencryptedFile_eq (db : OsConfigDb) (contents : Text) :
    db.loadFromUnencryptedFile contents =
      db.insertLines ((linesOf contents).flatMap fileLines) := by
  have hpieces : (cutFrom isLineEnd [] contents).1.filter (· ≠ []) =
      (linesOf contents).flatMap fileLines := by
    have h : (cutFrom isLineEnd [] contents).1 = _ := cutFrom_isLineEnd [] contents
    rw [h, linesOf, flatMap_append, filter_append, flatMap_map, filter_flatMap]
    congr 1
    show _ = fileLines ⟨(cutFrom isLineFeed [] contents).2, false⟩ ++ []
    rw [append_nil, fileLines]
    show _ = filter _ (_ ++ [])
    rw [append_nil]
  rw [loadFromUnencryptedFile, fileLoop_eq, hpieces]

theorem cutFrom_append {stops : Byte → Bool} (hw : ∀ c ∈ w, stops c = false)
    (piece rest : Text) : cutFrom stops piece (w ++ rest) = cutFrom stops (piece ++ w) rest := by
  induction w generalizing piece with
  | nil => rw [nil_append, append_nil]
  | cons c w ih =>
    rw [cons_append, cutFrom, hw c mem_cons_self, if_neg Bool.false_ne_true,
      ih fun d hd => hw d (mem_cons_of_mem _ hd)]
    simp

theorem linesOf_append (hw : ∀ c ∈ w, isLineFeed c = false) (rest : Text) :
    linesOf (w ++ byte '\n' :: rest) = ⟨w, true⟩ :: linesOf rest := by
  have hfeed : isLineFeed (byte '\n') = true := rfl
  rw [linesOf, cutFrom_append hw, cutFrom, if_pos hfeed]
  rfl

theorem linesOf_last (hw : ∀ c ∈ w, isLineFeed c = false) : linesOf w = [⟨w, false⟩] := by
  have hcut := cutFrom_append hw [] []
  rw [append_nil] at hcut
  rw [linesOf, hcut]
  rfl

theorem split_line (contents : Text) :
    (∀ c ∈ contents.takeWhile (· != byte '\n'), isLineFeed c = false) ∧
      (contents = contents.takeWhile (· != byte '\n') ∨
        ∃ rest, contents = contents.takeWhile (· != byte '\n') ++ byte '\n' :: rest) := by
  have hsplit := (takeWhile_append_dropWhile (p := (· != byte '\n')) (l := contents)).symm
  constructor
  · intro c hc
    have hne := mem_takeWhile_imp (p := (· != byte '\n')) hc
    exact bne_iff_ne.mp hne |> beq_eq_false_iff_ne.mpr
  · cases hdrop : contents.dropWhile (· != byte '\n') with
    | nil =>
      rw [hdrop, append_nil] at hsplit
      exact Or.inl hsplit
    | cons c rest =>
      have hc : c = byte '\n' := by
        have hhead := head?_dropWhile_not (· != byte '\n') contents
        rw [hdrop] at hhead
        simpa using hhead
      rw [hdrop, hc] at hsplit
      exact Or.inr ⟨rest, hsplit⟩

/-- The loop over a buffer inserts what each of its lines gives. -/
theorem bufferLoop_eq : ∀ (fuel : Nat) (db : OsConfigDb) {config : Text}, config.length ≤ fuel →
    db.bufferLoop fuel config = db.insertLines ((linesOf config).flatMap bufferLines) := by
  intro fuel
  induction fuel with
  | zero =>
    intro db config hfuel
    rw [eq_nil_of_length_eq_zero (Nat.le_zero.mp hfuel)]
    rfl
  | succ fuel ih =>
    intro db config hfuel
    by_cases hnil : config = []
    · rw [hnil]
      rfl
    obtain ⟨hline, hcases⟩ := split_line config
    rw [bufferLoop, if_neg hnil]
    generalize config.takeWhile (· != byte '\n') = line at hline hcases
    have hstep : ∀ {rest : Text}, rest.length ≤ fuel →
        (if line.take maxFileLineSize = [] then bufferLoop db fuel rest
          else bufferLoop (db.insertLine (line.take maxFileLineSize)) fuel rest) =
        db.insertLines (bufferLines ⟨line, true⟩ ++ (linesOf rest).flatMap bufferLines) := by
      intro rest hrest
      by_cases htake : line.take maxFileLineSize = []
      · rw [if_pos htake, ih db hrest, bufferLines,
          filter_cons_of_neg (by rw [decide_eq_true_eq]; exact not_not_intro htake)]
        rfl
      · rw [if_neg htake, ih _ hrest, bufferLines,
          filter_cons_of_pos (by exact decide_eq_true htake)]
        rfl
    rcases hcases with heq | ⟨rest, heq⟩
    · have hdrop : config.drop (line.length + 1) = [] := by
        rw [heq]
        exact drop_eq_nil_of_le (Nat.le_succ _)
      have h := @hstep [] (Nat.zero_le _)
      show (if line.take maxFileLineSize = [] then bufferLoop db fuel (config.drop _)
        else bufferLoop _ fuel (config.drop _)) = _
      rw [hdrop, h, heq, linesOf_last hline]
      rfl
    · have hdrop : config.drop (line.length + 1) = rest := by
        rw [heq, drop_length_add_append]
        rfl
      have hrest : rest.length ≤ fuel := by
        have hlength := congrArg length heq
        rw [length_append, length_cons] at hlength
        omega
      show (if line.take maxFileLineSize = [] then bufferLoop db fuel (config.drop _)
        else bufferLoop _ fuel (config.drop _)) = _
      rw [hdrop, hstep hrest, heq, linesOf_append hline, flatMap_cons]

/-- **What is read from a buffer.** -/
theorem loadFromUnencryptedBuffer_eq (db : OsConfigDb) {buf : Text} (hbuf : (0 : Byte) ∉ buf) :
    db.loadFromUnencryptedBuffer buf = db.insertLines ((linesOf buf).flatMap bufferLines) := by
  have hself : cString buf = buf := cString_eq_self fun c hc => by
    have hne : c ≠ 0 := fun h => hbuf (h ▸ hc)
    simpa using hne
  rw [loadFromUnencryptedBuffer, hself]
  exact bufferLoop_eq _ db le_rfl

/-! ## Texts that are loaded alike -/

variable (capitalizeName : Bool)

/-- What a line sets under a key when it is read from a file. -/
def setFromFile (line : Line) : Text → Option Text :=
  setBy (entriesOf capitalizeName (fileLines line))

def setFromBuffer (line : Line) : Text → Option Text :=
  setBy (entriesOf capitalizeName (bufferLines line))

/-- **A line that sets the same in both readings.** -/
def ReadAlike (line : Line) : Prop :=
  ∀ key, setFromFile capitalizeName line key = setFromBuffer capitalizeName line key

/-- A text is loaded alike from a file and from a buffer. -/
def LoadedAlike (contents : Text) : Prop :=
  ∀ key, ((new capitalizeName).loadFromUnencryptedFile contents).get key =
    ((new capitalizeName).loadFromUnencryptedBuffer contents).get key

/-- One of the loaders sets the key from this line. -/
def Sets (line : Line) (key : Text) : Prop :=
  setFromFile capitalizeName line key ≠ none ∨ setFromBuffer capitalizeName line key ≠ none

/-- No key is set by two lines. -/
def SetOnce (contents : Text) : Prop :=
  (linesOf contents).Pairwise fun line line' =>
    ∀ key, Sets capitalizeName line key → ¬ Sets capitalizeName line' key

theorem setBy_flatMap {β : Type} (f g : β → List (Text × Text)) (rows : List β) (key : Text)
    (h : ∀ row ∈ rows, setBy (f row) key = setBy (g row) key) :
    setBy (rows.flatMap f) key = setBy (rows.flatMap g) key := by
  induction rows with
  | nil => rfl
  | cons row rows ih =>
    rw [flatMap_cons, flatMap_cons, setBy_append, setBy_append,
      h row mem_cons_self, ih fun r hr => h r (mem_cons_of_mem _ hr)]

theorem setBy_flatMap_eq_none {β : Type} {f : β → List (Text × Text)} {rows : List β} {key : Text}
    (h : ∀ row ∈ rows, setBy (f row) key = none) : setBy (rows.flatMap f) key = none := by
  induction rows with
  | nil => rfl
  | cons row rows ih =>
    rw [flatMap_cons, setBy_append, h row mem_cons_self,
      ih fun r hr => h r (mem_cons_of_mem _ hr)]
    rfl

theorem setBy_eq_of_flatMap {β : Type} {f g : β → List (Text × Text)} {rows : List β}
    (honce : rows.Pairwise fun row row' => ∀ key,
      (setBy (f row) key ≠ none ∨ setBy (g row) key ≠ none) →
        ¬ (setBy (f row') key ≠ none ∨ setBy (g row') key ≠ none))
    (h : ∀ key, setBy (rows.flatMap f) key = setBy (rows.flatMap g) key) :
    ∀ row ∈ rows, ∀ key, setBy (f row) key = setBy (g row) key := by
  induction rows with
  | nil => exact fun row hrow => absurd hrow not_mem_nil
  | cons row rows ih =>
    obtain ⟨hhead, htail⟩ := pairwise_cons.mp honce
    have hnone : ∀ key, (setBy (f row) key ≠ none ∨ setBy (g row) key ≠ none) →
        setBy (rows.flatMap f) key = none ∧ setBy (rows.flatMap g) key = none := by
      intro key hset
      have hrest : ∀ r ∈ rows, setBy (f r) key = none ∧ setBy (g r) key = none := by
        intro r hr
        have hnot := hhead r hr key hset
        rw [not_or, not_ne_iff, not_ne_iff] at hnot
        exact hnot
      exact ⟨setBy_flatMap_eq_none fun r hr => (hrest r hr).1,
        setBy_flatMap_eq_none fun r hr => (hrest r hr).2⟩
    have hkey : ∀ key, (setBy (rows.flatMap f) key).or (setBy (f row) key) =
        (setBy (rows.flatMap g) key).or (setBy (g row) key) := by
      intro key
      rw [← setBy_append, ← setBy_append]
      exact h key
    have hsplit : ∀ key, setBy (f row) key = setBy (g row) key ∧
        setBy (rows.flatMap f) key = setBy (rows.flatMap g) key := by
      intro key
      by_cases hset : setBy (f row) key ≠ none ∨ setBy (g row) key ≠ none
      · have hfirst := hkey key
        rw [(hnone key hset).1, (hnone key hset).2] at hfirst ⊢
        exact ⟨hfirst, rfl⟩
      · rw [not_or, not_ne_iff, not_ne_iff] at hset
        have hothers := hkey key
        rw [hset.1, hset.2, Option.or_none, Option.or_none] at hothers
        exact ⟨hset.1.trans hset.2.symm, hothers⟩
    intro r hr
    rcases mem_cons.mp hr with rfl | hr
    · exact fun key => (hsplit key).1
    · exact ih htail (fun key => (hsplit key).2) r hr

theorem entriesOf_flatMap {β : Type} (f : β → List Text) (rows : List β) :
    entriesOf capitalizeName (rows.flatMap f) =
      rows.flatMap fun row => entriesOf capitalizeName (f row) :=
  filterMap_flatMap

/-- **Which texts are loaded alike**: those whose lines are all read alike; where no key is set by
two lines, no others. -/
theorem loadedAlike_iff {contents : Text} (htext : (0 : Byte) ∉ contents) :
    ((∀ line ∈ linesOf contents, ReadAlike capitalizeName line) →
        LoadedAlike capitalizeName contents) ∧
      (SetOnce capitalizeName contents → LoadedAlike capitalizeName contents →
        ∀ line ∈ linesOf contents, ReadAlike capitalizeName line) := by
  have hloaded : LoadedAlike capitalizeName contents ↔
      ∀ key, setBy ((linesOf contents).flatMap fun line =>
          entriesOf capitalizeName (fileLines line)) key =
        setBy ((linesOf contents).flatMap fun line =>
          entriesOf capitalizeName (bufferLines line)) key := by
    refine forall_congr' fun key => ?_
    rw [loadFromUnencryptedFile_eq, loadFromUnencryptedBuffer_eq _ htext, get_insertLines,
      get_insertLines, get_new, Option.or_none, Option.or_none, ← entriesOf_flatMap,
      ← entriesOf_flatMap]
    rfl
  rw [hloaded]
  constructor
  · intro halike key
    exact setBy_flatMap _ _ _ key fun line hline => halike line hline key
  · intro honce hset
    exact setBy_eq_of_flatMap honce hset

/-! ## Plain lines -/

/-- White space at the end of a line changes nothing. -/
theorem lineEntry_concat {c : Byte} (hc : isCSpace c = true) (fileLine : Text) :
    lineEntry capitalizeName (fileLine ++ [c]) = lineEntry capitalizeName fileLine := by
  have hzero : c ≠ 0 := by
    rintro rfl
    exact absurd hc (by decide)
  have hends : (!endsName c) = false := by rw [endsName, hc, Bool.true_or, Bool.not_true]
  have hcolon : c ≠ byte ':' := by
    rintro rfl
    exact absurd hc (by decide)
  have hafter : ∀ {x : Text}, x ≠ [] →
      afterColon (x ++ [c]) = (afterColon x).map (· ++ [c]) := by
    intro x hx
    obtain ⟨d, x, rfl⟩ := exists_cons_of_ne_nil hx
    rw [cons_append, afterColon, afterColon]
    split
    · rfl
    · rfl
  rw [lineEntry, lineEntry, UtlString.cString_append]
  simp only
  split
  · rfl
  · next hnul =>
      have hself : cString fileLine = fileLine := cString_eq_self fun d hd => by
        refine bne_iff_ne.mpr fun hd0 => hnul ?_
        rw [contains_iff_mem, ← hd0]
        exact hd
      have hone : cString [c] = [c] := takeWhile_cons_of_pos (bne_iff_ne.mpr hzero)
      rw [hself, hone, dropWhile_concat hc]
      generalize fileLine.dropWhile isCSpace = p
      by_cases hnil : p = []
      · rw [if_pos hnil, hnil]
      · obtain ⟨d, ds, hp⟩ := exists_cons_of_ne_nil hnil
        have hhead : (p ++ [c]).head? = p.head? := by
          rw [hp]
          rfl
        have hname : (p ++ [c]).takeWhile (fun c => !endsName c) =
            p.takeWhile fun c => !endsName c := by
          rw [takeWhile_append]
          split
          · next hlength =>
              rw [takeWhile_cons_of_neg (by rw [hends]; exact Bool.false_ne_true),
                append_nil]
              exact ((List.takeWhile_prefix _).eq_of_length hlength).symm
          · rfl
        have hbehind : (p ++ [c]).dropWhile (fun c => !endsName c) =
            p.dropWhile (fun c => !endsName c) ++ [c] := by
          rw [dropWhile_append]
          split
          · next hempty =>
              rw [List.isEmpty_iff.mp hempty]
              exact dropWhile_cons_of_neg (by rw [hends]; exact Bool.false_ne_true)
          · rfl
        rw [if_neg hnil, hhead, hname, hbehind, dropWhile_concat hc]
        generalize (p.dropWhile fun c => !endsName c).dropWhile isCSpace = q
        by_cases hq : q = []
        · rw [if_pos hq, hq]
        · rw [if_neg hq, hafter hq]
          cases afterColon q with
          | none => rfl
          | some value => simp only [Option.map_some, trim_concat hc]

/-- **A line of at most 256 bytes that ends in a line feed**, maybe with a return in front of it,
and has no other return, is read alike. -/
theorem readAlike_of_plain {body tail : Text} (hbody : ∀ c ∈ body, isReturn c = false)
    (htail : tail = [] ∨ tail = text "\r") (hlength : (body ++ tail).length ≤ maxFileLineSize) :
    ReadAlike capitalizeName ⟨body ++ tail, true⟩ := by
  have hcut : cutFrom isReturn [] body = ([], body) := by
    have h := cutFrom_append hbody [] []
    rw [append_nil] at h
    exact h
  have hfile : fileLines ⟨body ++ tail, true⟩ = [body].filter (· ≠ []) := by
    rw [fileLines]
    rcases htail with rfl | rfl
    · rw [append_nil]
      show ((cutFrom isReturn [] body).1 ++ [(cutFrom isReturn [] body).2]).filter _ = _
      rw [hcut]
      rfl
    · show ((cutFrom isReturn [] (body ++ [byte '\r'])).1 ++
        [(cutFrom isReturn [] (body ++ [byte '\r'])).2]).filter _ = _
      rw [cutFrom_concat, hcut]
      show ([body] ++ [[]]).filter (· ≠ []) = [body].filter (· ≠ [])
      have hempty : [([] : Text)].filter (· ≠ []) = [] := rfl
      rw [filter_append, hempty, append_nil]
  have hnone : lineEntry capitalizeName [] = none := rfl
  have hentries : ∀ line : Text, entriesOf capitalizeName ([line].filter (· ≠ [])) =
      (lineEntry capitalizeName line).toList := by
    intro line
    by_cases hline : line = []
    · rw [hline, hnone]
      rfl
    · rw [filter_cons_of_pos (by exact decide_eq_true hline), entriesOf,
        filterMap_cons, filter_nil]
      cases lineEntry capitalizeName line <;> rfl
  have hsame : lineEntry capitalizeName (body ++ tail) = lineEntry capitalizeName body := by
    rcases htail with rfl | rfl
    · rw [append_nil]
    · exact lineEntry_concat capitalizeName (by decide) body
  intro key
  rw [setFromFile, setFromBuffer, hfile, hentries, bufferLines, hentries,
    take_of_length_le hlength, hsame]

/-- **A plain line** ends in a line feed, maybe with a return in front of it, has no other return,
and is no longer than 256 bytes; nothing behind the last line feed is plain too. -/
def Line.IsPlain (line : Line) : Prop :=
  line = ⟨[], false⟩ ∨ ∃ body tail, line = ⟨body ++ tail, true⟩ ∧
    (∀ c ∈ body, isReturn c = false) ∧ (tail = [] ∨ tail = SipXRouter.text "\r") ∧
    (body ++ tail).length ≤ maxFileLineSize

theorem Line.IsPlain.readAlike {line : Line} (h : line.IsPlain) :
    ReadAlike capitalizeName line := by
  obtain rfl | ⟨body, tail, rfl, hbody, htail, hlength⟩ := h
  · exact fun key => rfl
  · exact readAlike_of_plain capitalizeName hbody htail hlength

end OsConfigDb

end SipXRouter
