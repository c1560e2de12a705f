import SipXRouter.Os.OsConfigDb

/-!
# Configuration databases that come back

Both writers of `OsConfigDb` write one line for each entry, so that reading a line again is all
that has to be looked at: its name may not hold white space, and the readers have different ideas
of where a line ends.

## Design notes

* The writers also take the bytes that they leave out from the entries themselves; what is read
  back is compared with the database as it was before.
-/

namespace SipXRouter

open List

variable {e : Text × Text} {name : Text}

namespace OsConfigDb


/-! ## The writers -/

/-- `DB_LINE_FORMAT`, on an entry without the bytes that the writers leave out. -/
def entryLine (e : Text × Text) : Text :=
  cString (e.1.filter (· != byte '\r')) ++ text " : " ++ cString (e.2.filter (· != byte '\n')) ++
    text "\r\n"

/-- What `storeToBuffer` and `storeToFile` write. -/
def stored (db : OsConfigDb) : Text := db.mDb.flatMap entryLine

variable (capitalizeName : Bool)

/-! ## The entry of a line -/

theorem capitalized_capitalized (name : Text) :
    capitalized capitalizeName (capitalized capitalizeName name) =
      capitalized capitalizeName name := by
  have hupper : ∀ c, toUpper (toUpper c) = toUpper c := by decide +kernel
  rw [capitalized, capitalized]
  split
  · rw [map_map]
    exact map_congr_left fun c _ => hupper c
  · rfl

/-- **The entry of a line**: the name is not empty and has no white space, and both parts are bytes
of the line and no NUL. -/
theorem lineEntry_spec {fileLine : Text} (h : lineEntry capitalizeName fileLine = some e) :
    e.1 ≠ [] ∧ (∀ c ∈ e.1, isCSpace c = false ∧ c ≠ 0) ∧ capitalized capitalizeName e.1 = e.1 ∧
      ∀ c ∈ e.2, c ∈ fileLine ∧ c ≠ 0 := by
  have hcString : ∀ c ∈ cString fileLine, c ∈ fileLine ∧ c ≠ 0 := by
    intro c hc
    have hne := mem_takeWhile_imp (p := (· != 0)) hc
    exact ⟨(List.takeWhile_prefix _).subset hc, bne_iff_ne.mp hne⟩
  have hupper : ∀ c, isCSpace c = false ∧ c ≠ 0 → isCSpace (toUpper c) = false ∧ toUpper c ≠ 0 := by
    decide +kernel
  rw [lineEntry] at h
  simp only at h
  split at h
  · cases h
  split at h
  · cases h
  next _ hname =>
    obtain ⟨value, hvalue, rfl⟩ := Option.map_eq_some_iff.mp h
    have hplain : ∀ c ∈ ((cString fileLine).dropWhile isCSpace).takeWhile (fun c => !endsName c),
        isCSpace c = false ∧ c ≠ 0 := by
      intro c hc
      have hends := mem_takeWhile_imp (p := fun c => !endsName c) hc
      have hmem := (dropWhile_sublist _).subset ((List.takeWhile_prefix _).subset hc)
      refine ⟨?_, (hcString c hmem).2⟩
      rw [endsName, Bool.not_eq_true', Bool.or_eq_false_iff] at hends
      exact hends.1
    refine ⟨?_, ?_, capitalized_capitalized capitalizeName _, fun c hc => ?_⟩
    · show capitalized capitalizeName _ ≠ []
      rw [capitalized]
      split
      · exact fun hnil => hname (map_eq_nil_iff.mp hnil)
      · exact hname
    · show ∀ c ∈ capitalized capitalizeName _, _
      rw [capitalized]
      split
      · intro c hc
        obtain ⟨d, hd, rfl⟩ := mem_map.mp hc
        exact hupper d (hplain d hd)
      · exact hplain
    · have hrest : ∀ {s value : Text}, afterColon s = some value → value ⊆ s := by
        intro s value h
        cases s with
        | nil => cases h
        | cons d s =>
          rw [afterColon] at h
          split at h
          · rw [← Option.some_inj.mp h]
            exact subset_cons_self d s
          · cases h
      have hmem := hrest hvalue (trim_subset _ _ hc)
      have hmem := (dropWhile_sublist _).subset ((dropWhile_sublist _).subset
        ((dropWhile_sublist _).subset hmem))
      exact hcString c hmem

/-- A word that can be the name of an entry. -/
structure IsName (name : Text) : Prop where
  ne_nil : name ≠ []
  bytes : ∀ c ∈ name, endsName c = false ∧ c ≠ 0
  no_comment : name.head? ≠ some (byte '#')

/-- The entry that a line gives, by its name. -/
theorem lineEntry_name {rest : Text} (hname : IsName name)
    (hrest : ∀ c ∈ rest.head?, endsName c = true) :
    lineEntry capitalizeName (name ++ rest) =
      (afterColon ((cString rest).dropWhile isCSpace)).map fun value =>
        (capitalized capitalizeName name, trim isCSpace value) := by
  have hcString : cString (name ++ rest) = name ++ cString rest :=
    takeWhile_append_of_pos fun c hc => bne_iff_ne.mpr (hname.bytes c hc).2
  have hplain : ∀ c ∈ name, (!endsName c) = true := fun c hc => by
    rw [(hname.bytes c hc).1]
    rfl
  have hhead : ∀ c ∈ (cString rest).head?, ¬ (!endsName c) = true := by
    intro c hc
    have hmem : c ∈ rest.head? := by
      cases rest with
      | nil => exact hc
      | cons d rest =>
        by_cases hd : (d != 0) = true
        · rw [cString, takeWhile_cons_of_pos (p := (· != 0)) hd] at hc
          exact hc
        · rw [cString, takeWhile_cons_of_neg (p := (· != 0)) hd] at hc
          cases hc
    rw [hrest c hmem]
    decide
  have htake : (name ++ cString rest).takeWhile (fun c => !endsName c) = name := by
    rw [takeWhile_append_of_pos hplain]
    have hnil : (cString rest).takeWhile (fun c => !endsName c) = [] :=
      takeWhile_eq_nil_of_head fun c hc => Bool.eq_false_iff.mpr (hhead c hc)
    rw [hnil, append_nil]
  have hdrop : (name ++ cString rest).dropWhile (fun c => !endsName c) = cString rest := by
    rw [dropWhile_append_of_pos hplain]
    cases hs : cString rest with
    | nil => rfl
    | cons c cs => exact dropWhile_cons_of_neg (hhead c (hs ▸ rfl))
  obtain ⟨c, cs, hcons⟩ := exists_cons_of_ne_nil hname.ne_nil
  have hspace : ¬ isCSpace c = true := by
    have hends := (hname.bytes c (hcons ▸ mem_cons_self)).1
    rw [endsName, Bool.or_eq_false_iff] at hends
    rw [hends.1]
    decide
  have hfront : (name ++ cString rest).dropWhile isCSpace = name ++ cString rest := by
    rw [hcons]
    exact dropWhile_cons_of_neg hspace
  have hcomment : ¬ ((name ++ cString rest).head? = none ∨
      (name ++ cString rest).head? = some (byte '#')) := by
    have hsome := hname.no_comment
    rw [hcons] at hsome ⊢
    rintro (h | h)
    · cases h
    · exact hsome h
  rw [lineEntry]
  simp only
  rw [hcString, hfront, if_neg hcomment, htake, if_neg hname.ne_nil, hdrop]

theorem lineEntry_colon (hname : IsName name) (rest : Text) :
    lineEntry capitalizeName (name ++ text " :" ++ rest) =
      some (capitalized capitalizeName name, trim isCSpace (cString rest)) := by
  have hends : ∀ c ∈ (text " :" ++ rest).head?, endsName c = true := by
    intro c hc
    rw [← Option.some_inj.mp hc]
    decide
  have hcString : cString (text " :" ++ rest) = text " :" ++ cString rest :=
    takeWhile_append_of_pos (by decide)
  rw [append_assoc, lineEntry_name capitalizeName hname hends, hcString]
  rfl

theorem lineEntry_cut (hname : IsName name) {rest : Text}
    (hrest : rest = [] ∨ rest = text " ") : lineEntry capitalizeName (name ++ rest) = none := by
  rcases hrest with rfl | rfl
  · exact lineEntry_name capitalizeName hname fun c hc => absurd hc (by simp)
  · refine lineEntry_name capitalizeName hname fun c hc => ?_
    rw [← Option.some_inj.mp hc]
    decide

/-! ## Databases that come back -/

/-- An entry that a database of the claim may have: trimmed, without line feeds, and with a key
that has no colon and is no comment. -/
structure Storable (e : Text × Text) : Prop where
  key_trimmed : trim isCSpace e.1 = e.1
  value_trimmed : trim isCSpace e.2 = e.2
  key_bytes : ∀ c ∈ e.1, c ≠ byte '\n' ∧ c ≠ byte ':'
  value_bytes : ∀ c ∈ e.2, c ≠ byte '\n'
  no_comment : e.1.head? ≠ some (byte '#')

/-- **An entry that can be read**: its key is not empty, has no white space and is capitalized
where keys are, and neither part has a NUL. -/
structure Readable (e : Text × Text) : Prop where
  key_ne_nil : e.1 ≠ []
  key_bytes : ∀ c ∈ e.1, isCSpace c = false ∧ c ≠ 0
  key_capitalized : capitalized capitalizeName e.1 = e.1
  value_bytes : ∀ c ∈ e.2, c ≠ 0

/-- What of a line has to stand in the bytes that are read of it. -/
def needed (e : Text × Text) : Nat :=
  if e.2 = [] then e.1.length + 2 else e.1.length + 3 + e.2.length

/-- A line that is read from a buffer as far as needed. -/
def Fits (e : Text × Text) : Prop := needed e ≤ maxFileLineSize

/-- What is loaded from a file that was written is the database. -/
def ComesBackFromFile (db : OsConfigDb) : Prop :=
  ∀ key, ((new db.mCapitalizeName).loadFromUnencryptedFile db.stored).get key = db.get key

/-- What is loaded from a buffer that was written is the database. -/
def ComesBackFromBuffer (db : OsConfigDb) : Prop :=
  ∀ key, ((new db.mCapitalizeName).loadFromUnencryptedBuffer db.stored).get key = db.get key

variable {capitalizeName} in
theorem Readable.isName (h : Readable capitalizeName e) (hs : Storable e) :
    IsName e.1 where
  ne_nil := h.key_ne_nil
  bytes c hc := by
    refine ⟨?_, (h.key_bytes c hc).2⟩
    rw [endsName, (h.key_bytes c hc).1, Bool.false_or]
    exact beq_eq_false_iff_ne.mpr (hs.key_bytes c hc).2
  no_comment := hs.no_comment

def lineText (e : Text × Text) : Text :=
  cString (e.1.filter (· != byte '\r')) ++ text " : " ++ cString (e.2.filter (· != byte '\n')) ++
    text "\r"

theorem entryLine_eq (e : Text × Text) : entryLine e = lineText e ++ [byte '\n'] := by
  rw [entryLine, lineText, append_assoc _ (text "\r")]
  rfl

theorem lineText_eq (hs : Storable e) (h : Readable capitalizeName e) :
    lineText e = e.1 ++ text " : " ++ e.2 ++ text "\r" := by
  have hspace : ∀ c, isCSpace c = false → c ≠ byte '\r' := by decide +kernel
  have hkey : e.1.filter (· != byte '\r') = e.1 :=
    filter_eq_self.mpr fun c hc => bne_iff_ne.mpr (hspace c (h.key_bytes c hc).1)
  have hvalue : e.2.filter (· != byte '\n') = e.2 :=
    filter_eq_self.mpr fun c hc => bne_iff_ne.mpr (hs.value_bytes c hc)
  have hkey0 : cString e.1 = e.1 :=
    cString_eq_self fun c hc => bne_iff_ne.mpr (h.key_bytes c hc).2
  have hvalue0 : cString e.2 = e.2 :=
    cString_eq_self fun c hc => bne_iff_ne.mpr (h.value_bytes c hc)
  rw [lineText, hkey, hvalue, hkey0, hvalue0]

/-- The lines of a stored file are those of its entries. -/
theorem linesOf_stored {db : OsConfigDb} (hs : ∀ e ∈ db.mDb, Storable e) :
    linesOf db.stored = db.mDb.map (fun e => ⟨lineText e, true⟩) ++ [⟨[], false⟩] := by
  have hfeed : ∀ e, Storable e → ∀ c ∈ lineText e, isLineFeed c = false := by
    intro e he c hc
    have hkey : ∀ c ∈ cString (e.1.filter (· != byte '\r')), isLineFeed c = false := by
      intro c hc
      have hmem := (mem_filter.mp ((List.takeWhile_prefix _).subset hc)).1
      exact beq_eq_false_iff_ne.mpr (he.key_bytes c hmem).1
    have hvalue : ∀ c ∈ cString (e.2.filter (· != byte '\n')), isLineFeed c = false := by
      intro c hc
      have hmem := (mem_filter.mp ((List.takeWhile_prefix _).subset hc)).2
      exact beq_eq_false_iff_ne.mpr (bne_iff_ne.mp hmem)
    have hcolon : ∀ c ∈ text " : ", isLineFeed c = false := by decide
    have hreturn : ∀ c ∈ text "\r", isLineFeed c = false := by decide
    rw [lineText, mem_append, mem_append, mem_append] at hc
    rcases hc with ((hc | hc) | hc) | hc
    · exact hkey c hc
    · exact hcolon c hc
    · exact hvalue c hc
    · exact hreturn c hc
  rw [stored]
  generalize db.mDb = entries at hs
  induction entries with
  | nil => rfl
  | cons e entries ih =>
    have hrest := ih fun e' he' => hs e' (mem_cons_of_mem _ he')
    rw [flatMap_cons, entryLine_eq, append_assoc]
    show linesOf (lineText e ++ byte '\n' :: entries.flatMap entryLine) = _
    rw [linesOf_append (hfeed e (hs e mem_cons_self)), hrest]
    rfl

theorem zero_notMem_stored (db : OsConfigDb) : (0 : Byte) ∉ db.stored := by
  have hcString : ∀ s : Text, (0 : Byte) ∉ cString s := fun s hmem =>
    absurd (mem_takeWhile_imp (p := (· != 0)) hmem) (by decide)
  intro hmem
  obtain ⟨e, -, hline⟩ := mem_flatMap.mp hmem
  rw [entryLine, mem_append, mem_append, mem_append] at hline
  rcases hline with ((h | h) | h) | h
  · exact hcString _ h
  · exact absurd h (by decide)
  · exact hcString _ h
  · exact absurd h (by decide)

theorem get_eq_setBy (db : OsConfigDb) (key : Text) : db.get key = setBy db.mDb key := by
  have hnodup := db.nodup
  rw [get]
  generalize db.mDb = entries at hnodup
  induction entries with
  | nil => rfl
  | cons e entries ih =>
    obtain ⟨hnew, hnodup⟩ := nodup_cons.mp hnodup
    rw [find?_cons, setBy_cons, ← ih hnodup]
    by_cases hkey : e.1 = key
    · have hnone : entries.find? (·.1 == key) = none := by
        refine find?_eq_none.mpr fun e' he' heq => hnew ?_
        rw [hkey, ← beq_iff_eq.mp heq]
        exact mem_map_of_mem he'
      have hbeq : (e.1 == key) = true := beq_iff_eq.mpr hkey
      rw [hbeq, hnone, if_pos hkey]
      rfl
    · have hbeq : (e.1 == key) = false := beq_eq_false_iff_ne.mpr hkey
      rw [hbeq, if_neg hkey, Option.or_none]

theorem get_eq_some {db : OsConfigDb} (he : e ∈ db.mDb) : db.get e.1 = some e.2 := by
  have hnodup := db.nodup
  rw [get]
  generalize db.mDb = entries at he hnodup
  induction entries with
  | nil => exact absurd he not_mem_nil
  | cons e' entries ih =>
    obtain ⟨hnew, hnodup⟩ := nodup_cons.mp hnodup
    rw [find?_cons]
    rcases mem_cons.mp he with rfl | he
    · have hbeq : (e.1 == e.1) = true := beq_self_eq_true _
      rw [hbeq]
      rfl
    · have hbeq : (e'.1 == e.1) = false := by
        refine beq_eq_false_iff_ne.mpr fun heq => hnew ?_
        rw [heq]
        exact mem_map_of_mem he
      rw [hbeq]
      exact ih he hnodup

theorem setBy_filterMap {entries : List (Text × Text)} (hnodup : (entries.map Prod.fst).Nodup)
    {f : Text × Text → Option (Text × Text)} (hf : ∀ e ∈ entries, ∀ e' ∈ f e, e'.1 = e.1) :
    ∀ e ∈ entries, setBy (entries.filterMap f) e.1 = (f e).map Prod.snd := by
  induction entries with
  | nil => exact fun e he => absurd he not_mem_nil
  | cons e₀ entries ih =>
    obtain ⟨hnew, hnodup⟩ := nodup_cons.mp hnodup
    have hrest := ih hnodup fun e he => hf e (mem_cons_of_mem _ he)
    have hfirst : ∀ key, setBy ((e₀ :: entries).filterMap f) key =
        (setBy (entries.filterMap f) key).or
          (if e₀.1 = key then (f e₀).map Prod.snd else none) := by
      intro key
      have hsame := hf e₀ mem_cons_self
      rw [filterMap_cons]
      cases hfe : f e₀ with
      | none =>
        show setBy _ key = Option.or _ (if e₀.1 = key then none else none)
        rw [ite_self, Option.or_none]
      | some e' =>
        show setBy (e' :: _) key = Option.or _ (if e₀.1 = key then some e'.2 else none)
        rw [setBy_cons, hsame e' hfe]
    intro e he
    rw [hfirst]
    rcases mem_cons.mp he with rfl | he
    · have hnone : setBy (entries.filterMap f) e.1 = none := by
        rw [Option.eq_none_iff_forall_not_mem]
        intro value hvalue
        obtain ⟨e₁, he₁, hfe₁⟩ := mem_filterMap.mp (exists_of_setBy hvalue)
        have hkey : e.1 = e₁.1 :=
          hf e₁ (mem_cons_of_mem _ he₁) (e.1, value) hfe₁
        exact hnew (hkey ▸ mem_map_of_mem he₁)
      rw [hnone, if_pos rfl]
      rfl
    · have hne : e₀.1 ≠ e.1 := fun heq => hnew (heq ▸ mem_map_of_mem he)
      rw [if_neg hne, Option.or_none]
      exact hrest e he

theorem setBy_filterMap_iff (db : OsConfigDb) {f : Text × Text → Option (Text × Text)}
    (hf : ∀ e ∈ db.mDb, ∀ e' ∈ f e, e'.1 = e.1) :
    (∀ key, setBy (db.mDb.filterMap f) key = db.get key) ↔
      ∀ e ∈ db.mDb, (f e).map Prod.snd = some e.2 := by
  have hset := setBy_filterMap db.nodup hf
  constructor
  · intro h e he
    rw [← hset e he, h, get_eq_some he]
  · intro h key
    by_cases hkey : key ∈ db.mDb.map Prod.fst
    · obtain ⟨e, he, rfl⟩ := mem_map.mp hkey
      rw [hset e he, h e he, get_eq_some he]
    · have hnone : ∀ {entries : List (Text × Text)}, (∀ e ∈ entries, e.1 ∈ db.mDb.map Prod.fst) →
          setBy entries key = none := by
        intro entries hentries
        rw [Option.eq_none_iff_forall_not_mem]
        exact fun value hvalue => hkey (hentries _ (exists_of_setBy hvalue))
      rw [get_eq_setBy, hnone fun e he => mem_map_of_mem he, hnone]
      intro e' he'
      obtain ⟨e, he, hfe⟩ := mem_filterMap.mp he'
      rw [hf e he e' hfe]
      exact mem_map_of_mem he

theorem cutFrom_bytes {stops : Byte → Bool} (contents : Text) :
    ∀ {piece : Text}, (∀ c ∈ piece, stops c = false) →
      (∀ p ∈ (cutFrom stops piece contents).1, ∀ c ∈ p, stops c = false) ∧
        ∀ c ∈ (cutFrom stops piece contents).2, stops c = false := by
  induction contents with
  | nil => exact fun hpiece => ⟨fun p hp => absurd hp not_mem_nil, hpiece⟩
  | cons c cs ih =>
    intro piece hpiece
    rw [cutFrom]
    by_cases hc : stops c = true
    · have hnil : ∀ d ∈ ([] : Text), stops d = false := fun d hd => absurd hd not_mem_nil
      obtain ⟨hpieces, hlast⟩ := ih hnil
      rw [if_pos hc]
      refine ⟨fun p hp => ?_, hlast⟩
      rcases mem_cons.mp hp with rfl | hp
      · exact hpiece
      · exact hpieces p hp
    · rw [if_neg hc]
      refine ih fun d hd => ?_
      rcases mem_append.mp hd with hd | hd
      · exact hpiece d hd
      · rw [mem_singleton.mp hd]
        exact Bool.eq_false_iff.mpr hc

theorem mem_fileLines {line : Line} {piece : Text} (h : piece ∈ fileLines line) :
    ∀ c ∈ piece, c ≠ byte '\r' := by
  have hnil : ∀ c ∈ ([] : Text), isReturn c = false := fun c hc => absurd hc not_mem_nil
  obtain ⟨hpieces, hlast⟩ := cutFrom_bytes line.text hnil
  have hmem := (mem_filter.mp h).1
  have hbytes : ∀ c ∈ piece, isReturn c = false := by
    rcases mem_append.mp hmem with hmem | hmem
    · exact hpieces piece hmem
    · split at hmem
      · rw [mem_singleton.mp hmem]
        exact hlast
      · exact absurd hmem not_mem_nil
  exact fun c hc => beq_eq_false_iff_ne.mp (hbytes c hc)

theorem IsName.take (h : IsName name) {n : Nat} (hn : 0 < n) : IsName (name.take n) where
  ne_nil := by
    obtain ⟨c, cs, hcons⟩ := exists_cons_of_ne_nil h.ne_nil
    obtain ⟨m, rfl⟩ : ∃ m, n = m + 1 := ⟨n - 1, by omega⟩
    rw [hcons, take_succ_cons]
    exact cons_ne_nil _ _
  bytes c hc := h.bytes c (mem_of_mem_take hc)
  no_comment := by
    obtain ⟨m, rfl⟩ : ∃ m, n = m + 1 := ⟨n - 1, by omega⟩
    have hcomment := h.no_comment
    cases name with
    | nil => exact hcomment
    | cons c cs => exact hcomment

/-! ## White space around a value -/

/-- As much of a written value as has to be read. -/
theorem trim_take_iff {v : Text} (hv : trim isCSpace v = v) (m : Nat) :
    trim isCSpace ((text " " ++ (v ++ text "\r")).take m) = v ↔ v = [] ∨ v.length + 1 ≤ m := by
  have hfront : ∀ c ∈ text " ", isCSpace c = true := by decide
  have hback : ∀ c ∈ text "\r", isCSpace c = true := by decide
  constructor
  · intro h
    by_contra hnot
    rw [not_or] at hnot
    obtain ⟨hne, hshort⟩ := hnot
    cases m with
    | zero => exact hne h.symm
    | succ m =>
      have hdrop : trim isCSpace ((text " " ++ (v ++ text "\r")).take (m + 1)) =
          trim isCSpace ((v ++ text "\r").take m) := rfl
      have hlength := length_trim_le isCSpace ((v ++ text "\r").take m)
      rw [← hdrop, h, length_take] at hlength
      omega
  · rintro (rfl | hlong)
    · refine trim_of_all fun c hc => ?_
      have hmem := mem_of_mem_take hc
      rcases mem_append.mp hmem with hmem | hmem
      · exact hfront c hmem
      · exact hback c hmem
    · obtain ⟨j, rfl⟩ : ∃ j, m = (text " ").length + (v.length + j) := ⟨m - (v.length + 1), by
        have hone : (text " ").length = 1 := rfl
        omega⟩
      rw [take_length_add_append, take_length_add_append]
      exact trim_padded hv hfront fun c hc => hback c (mem_of_mem_take hc)

/-- **What is read of the line of a readable entry**, as far as it goes. -/
theorem lineEntry_take (hs : Storable e) (h : Readable capitalizeName e) :
    lineEntry capitalizeName ((lineText e).take maxFileLineSize) =
      if e.1.length + 2 ≤ maxFileLineSize then
        some (e.1, trim isCSpace ((text " " ++ (e.2 ++ text "\r")).take
          (maxFileLineSize - (e.1.length + 2))))
      else none := by
  have hname := h.isName hs
  have hline : lineText e = e.1 ++ (text " :" ++ (text " " ++ (e.2 ++ text "\r"))) := by
    rw [lineText_eq capitalizeName hs h]
    simp [text]
  rw [hline]
  split
  · next hlong =>
      have htake : (e.1 ++ (text " :" ++ (text " " ++ (e.2 ++ text "\r")))).take maxFileLineSize =
          e.1 ++ text " :" ++ (text " " ++ (e.2 ++ text "\r")).take
            (maxFileLineSize - (e.1.length + 2)) := by
        have hsize : maxFileLineSize = e.1.length +
            ((text " :").length + (maxFileLineSize - (e.1.length + 2))) := by
          have htwo : (text " :").length = 2 := rfl
          omega
        conv_lhs => rw [hsize]
        rw [take_length_add_append, take_length_add_append, append_assoc]
      have hcString : cString ((text " " ++ (e.2 ++ text "\r")).take
          (maxFileLineSize - (e.1.length + 2))) = (text " " ++ (e.2 ++ text "\r")).take
            (maxFileLineSize - (e.1.length + 2)) := by
        refine cString_eq_self fun c hc => bne_iff_ne.mpr ?_
        have hmem := mem_of_mem_take hc
        rw [mem_append, mem_append] at hmem
        rcases hmem with hmem | hmem | hmem
        · rw [mem_singleton.mp hmem]
          decide
        · exact h.value_bytes c hmem
        · rw [mem_singleton.mp hmem]
          decide
      rw [htake, lineEntry_colon capitalizeName hname, hcString, h.key_capitalized]
  · next hshort =>
      rcases Nat.lt_or_ge e.1.length maxFileLineSize with hlt | hge
      · have hsize : maxFileLineSize = e.1.length + 1 := by omega
        have htake : (e.1 ++ (text " :" ++ (text " " ++ (e.2 ++ text "\r")))).take maxFileLineSize =
            e.1 ++ text " " := by
          rw [hsize, take_length_add_append]
          rfl
        rw [htake]
        exact lineEntry_cut capitalizeName hname (Or.inr rfl)
      · have hpos : 0 < maxFileLineSize := by decide
        have hcut := lineEntry_cut capitalizeName (hname.take hpos) (Or.inl rfl)
        rw [append_nil] at hcut
        rw [take_append_of_le_length hge]
        exact hcut

section Stored

variable {db : OsConfigDb} (hs : ∀ e ∈ db.mDb, Storable e)

include hs

theorem get_loadFromUnencryptedFile_stored (key : Text) :
    ((new db.mCapitalizeName).loadFromUnencryptedFile db.stored).get key =
      setBy (db.mDb.flatMap fun e =>
        entriesOf db.mCapitalizeName (fileLines ⟨lineText e, true⟩)) key := by
  have hlast : fileLines ⟨[], false⟩ = [] := rfl
  rw [loadFromUnencryptedFile_eq, get_insertLines, get_new, Option.or_none, linesOf_stored hs,
    flatMap_append, flatMap_map, flatMap_singleton, hlast, append_nil,
    entriesOf_flatMap]
  rfl

theorem get_loadFromUnencryptedBuffer_stored (key : Text) :
    ((new db.mCapitalizeName).loadFromUnencryptedBuffer db.stored).get key =
      setBy (db.mDb.filterMap fun e =>
        lineEntry db.mCapitalizeName ((lineText e).take maxFileLineSize)) key := by
  have hlast : bufferLines ⟨[], false⟩ = [] := rfl
  have hline : ∀ e, entriesOf db.mCapitalizeName (bufferLines ⟨lineText e, true⟩) =
      (lineEntry db.mCapitalizeName ((lineText e).take maxFileLineSize)).toList := by
    intro e
    have hne : (lineText e).take maxFileLineSize ≠ [] := by
      rw [lineText]
      simp [maxFileLineSize, text]
    rw [bufferLines, filter_cons_of_pos (by exact decide_eq_true hne), filter_nil,
      entriesOf, filterMap_cons]
    cases lineEntry db.mCapitalizeName ((lineText e).take maxFileLineSize) <;> rfl
  rw [loadFromUnencryptedBuffer_eq _ (zero_notMem_stored db), get_insertLines, get_new,
    Option.or_none, linesOf_stored hs, flatMap_append, flatMap_map,
    flatMap_singleton, hlast, append_nil, entriesOf_flatMap,
    filterMap_eq_flatMap_toList]
  congr 1
  exact flatMap_congr fun e _ => hline e

/-- **Which databases come back from a file**: those of readable entries without returns in their
values. -/
theorem comesBackFromFile_iff : ComesBackFromFile db ↔
    ∀ e ∈ db.mDb, Readable db.mCapitalizeName e ∧ ∀ c ∈ e.2, c ≠ byte '\r' := by
  constructor
  · intro h e he
    have hset := (get_loadFromUnencryptedFile_stored hs e.1).symm.trans (h e.1)
    rw [get_eq_some he] at hset
    obtain ⟨row, -, hmem⟩ := mem_flatMap.mp (exists_of_setBy hset)
    obtain ⟨piece, hpiece, hentry⟩ := mem_filterMap.mp hmem
    obtain ⟨hne, hkey, hcapitalized, hvalue⟩ := lineEntry_spec _ hentry
    exact ⟨⟨hne, hkey, hcapitalized, fun c hc => (hvalue c hc).2⟩,
      fun c hc => mem_fileLines hpiece c (hvalue c hc).1⟩
  · intro h key
    have hline : ∀ e ∈ db.mDb,
        entriesOf db.mCapitalizeName (fileLines ⟨lineText e, true⟩) = [e] := by
      intro e he
      obtain ⟨hreadable, hreturn⟩ := h e he
      have hspace : ∀ c, isCSpace c = false → isReturn c = false := by decide +kernel
      have hbody : ∀ c ∈ e.1 ++ text " : " ++ e.2, isReturn c = false := by
        intro c hc
        rw [mem_append, mem_append] at hc
        rcases hc with (hc | hc) | hc
        · exact hspace c (hreadable.key_bytes c hc).1
        · have hcolon : ∀ c ∈ text " : ", isReturn c = false := by decide
          exact hcolon c hc
        · exact beq_eq_false_iff_ne.mpr (hreturn c hc)
      have hcut : cutFrom isReturn [] (e.1 ++ text " : " ++ e.2) =
          ([], e.1 ++ text " : " ++ e.2) := by
        have h := cutFrom_append hbody [] []
        rw [append_nil] at h
        exact h
      have hlines : fileLines ⟨lineText e, true⟩ = [e.1 ++ text " : " ++ e.2] := by
        have hne : e.1 ++ text " : " ++ e.2 ≠ [] := by simp [text]
        rw [fileLines, lineText_eq db.mCapitalizeName (hs e he) hreadable]
        show (((cutFrom isReturn [] (e.1 ++ text " : " ++ e.2 ++ [byte '\r'])).1 ++
          [(cutFrom isReturn [] (e.1 ++ text " : " ++ e.2 ++ [byte '\r'])).2]).filter (· ≠ [])) = _
        rw [cutFrom_concat, hcut]
        show [e.1 ++ text " : " ++ e.2, []].filter (· ≠ []) = _
        rw [filter_cons_of_pos (by exact decide_eq_true hne)]
        rfl
      have hvalue : cString (text " " ++ e.2) = text " " ++ (e.2 ++ []) := by
        rw [append_nil]
        refine cString_eq_self fun c hc => ?_
        rcases mem_append.mp hc with hc | hc
        · rw [mem_singleton.mp hc]
          decide
        · exact bne_iff_ne.mpr (hreadable.value_bytes c hc)
      have hentry : lineEntry db.mCapitalizeName (e.1 ++ text " : " ++ e.2) = some e := by
        have hcolon := lineEntry_colon db.mCapitalizeName (hreadable.isName (hs e he))
          (text " " ++ e.2)
        rw [hvalue, trim_padded (hs e he).value_trimmed (by decide) (by simp),
          hreadable.key_capitalized] at hcolon
        rw [← hcolon]
        congr 1
        simp [text]
      rw [hlines, entriesOf, filterMap_cons, hentry]
      rfl
    rw [get_loadFromUnencryptedFile_stored hs, get_eq_setBy, flatMap_congr hline,
      flatMap_singleton']

/-- **Which databases come back from a buffer**: those of readable entries whose lines fit. -/
theorem comesBackFromBuffer_iff :
    ComesBackFromBuffer db ↔ ∀ e ∈ db.mDb, Readable db.mCapitalizeName e ∧ Fits e := by
  have hkeys : (∀ e ∈ db.mDb, Readable db.mCapitalizeName e) →
      (ComesBackFromBuffer db ↔ ∀ e ∈ db.mDb, Fits e) := by
    intro hreadable
    have hsame : ∀ e ∈ db.mDb, ∀ e' ∈ lineEntry db.mCapitalizeName
        ((lineText e).take maxFileLineSize), e'.1 = e.1 := by
      intro e he e' he'
      rw [Option.mem_def, lineEntry_take _ (hs e he) (hreadable e he)] at he'
      split at he'
      · rw [← Option.some_inj.mp he']
      · cases he'
    have hback : ComesBackFromBuffer db ↔ _ := forall_congr' fun key => by
      rw [get_loadFromUnencryptedBuffer_stored hs]
    rw [hback, setBy_filterMap_iff db hsame]
    refine forall₂_congr fun e he => ?_
    rw [lineEntry_take _ (hs e he) (hreadable e he), Fits, needed]
    split
    · next hlong =>
        show some (trim isCSpace _) = some e.2 ↔ _
        rw [Option.some_inj, trim_take_iff (hs e he).value_trimmed]
        split
        · next hnil => exact ⟨fun _ => hlong, fun _ => Or.inl hnil⟩
        · next hne =>
            constructor
            · intro h
              have hlength := h.resolve_left hne
              omega
            · intro h
              exact Or.inr (by omega)
    · next hshort =>
        constructor
        · intro h
          cases h
        · intro h
          split at h
          · exact absurd h hshort
          · exact absurd (by omega) hshort
  constructor
  · intro h
    have hreadable : ∀ e ∈ db.mDb, Readable db.mCapitalizeName e := by
      intro e he
      have hset := (get_loadFromUnencryptedBuffer_stored hs e.1).symm.trans (h e.1)
      rw [get_eq_some he] at hset
      obtain ⟨e', -, hentry⟩ := mem_filterMap.mp (exists_of_setBy hset)
      obtain ⟨hne, hkey, hcapitalized, hvalue⟩ := lineEntry_spec _ hentry
      exact ⟨hne, hkey, hcapitalized, fun c hc => (hvalue c hc).2⟩
    exact fun e he => ⟨hreadable e he, (hkeys hreadable).mp h e he⟩
  · exact fun h => (hkeys fun e he => (h e he).1).mpr fun e he => (h e he).2

end Stored

/-- **Loading and storing**: the texts that are loaded alike, as those of plain lines are, and the
databases that come back from a file and from a buffer. -/
theorem loads_iff (capitalizeName : Bool) {contents : Text} (htext : (0 : Byte) ∉ contents)
    {db : OsConfigDb} (hs : ∀ e ∈ db.mDb, Storable e) :
    ((∀ line : Line, line.IsPlain → ReadAlike capitalizeName line) ∧
        ((∀ line ∈ linesOf contents, ReadAlike capitalizeName line) →
          LoadedAlike capitalizeName contents) ∧
        (SetOnce capitalizeName contents → LoadedAlike capitalizeName contents →
          ∀ line ∈ linesOf contents, ReadAlike capitalizeName line)) ∧
      (ComesBackFromFile db ↔
        ∀ e ∈ db.mDb, Readable db.mCapitalizeName e ∧ ∀ c ∈ e.2, c ≠ byte '\r') ∧
      (ComesBackFromBuffer db ↔ ∀ e ∈ db.mDb, Readable db.mCapitalizeName e ∧ Fits e) :=
  ⟨⟨fun _ h => h.readAlike capitalizeName, loadedAlike_iff capitalizeName htext⟩,
    comesBackFromFile_iff hs, comesBackFromBuffer_iff hs⟩

/-! ### A server's settings -/

/-- A database of one entry. -/
def single (key value : String) : OsConfigDb where
  mDb := [(text key, text value)]
  nodup := nodup_singleton _

theorem loads_single :
    LoadedAlike false (text "LOG_LEVEL : INFO\r\n") ∧
      ComesBackFromFile (single "LOG_LEVEL" "INFO") ∧
      ComesBackFromBuffer (single "LOG_LEVEL" "INFO") := by
  have hs : ∀ e ∈ (single "LOG_LEVEL" "INFO").mDb, Storable e := by
    intro e he
    rw [mem_singleton.mp he]
    exact ⟨by decide, by decide, by decide, by decide, by decide⟩
  have hreadable : ∀ e ∈ (single "LOG_LEVEL" "INFO").mDb, Readable false e := by
    intro e he
    rw [mem_singleton.mp he]
    exact ⟨by decide, by decide, rfl, by decide⟩
  have htext : (0 : Byte) ∉ text "LOG_LEVEL : INFO\r\n" := by decide
  obtain ⟨⟨hplain, halike, -⟩, hfile, hbuffer⟩ := loads_iff false htext hs
  refine ⟨halike fun line hline => hplain line ?_, hfile.mpr fun e he => ⟨hreadable e he, ?_⟩,
    hbuffer.mpr fun e he => ⟨hreadable e he, ?_⟩⟩
  · rcases mem_cons.mp hline with rfl | hline
    · exact Or.inr ⟨text "LOG_LEVEL : INFO", text "\r", rfl, by decide, Or.inr rfl, by decide⟩
    · exact Or.inl (mem_singleton.mp hline)
  · rw [mem_singleton.mp he]
    decide
  · rw [mem_singleton.mp he]
    exact Nat.le_of_ble_eq_true rfl

/-- A last line without a line feed is read from a buffer only, and a key of two words is not
found again. -/
theorem not_loads_single :
    ¬ LoadedAlike false (text "LOG_LEVEL : INFO") ∧
      (∀ e ∈ (single "LOG LEVEL" "INFO").mDb, Storable e) ∧
      ¬ ComesBackFromFile (single "LOG LEVEL" "INFO") ∧
      ¬ ComesBackFromBuffer (single "LOG LEVEL" "INFO") := by
  have hs : ∀ e ∈ (single "LOG LEVEL" "INFO").mDb, Storable e := by
    intro e he
    rw [mem_singleton.mp he]
    exact ⟨by decide, by decide, by decide, by decide, by decide⟩
  have hnot : ¬ Readable false (text "LOG LEVEL", text "INFO") := by
    intro h
    exact absurd (h.key_bytes (byte ' ') (by decide)).1 (by decide)
  refine ⟨fun h => ?_, hs, fun h => ?_, fun h => ?_⟩
  · exact absurd (h (text "LOG_LEVEL")) (by decide)
  · exact hnot ((comesBackFromFile_iff hs).mp h _ mem_cons_self).1
  · exact hnot ((comesBackFromBuffer_iff hs).mp h _ mem_cons_self).1

end OsConfigDb

end SipXRouter
