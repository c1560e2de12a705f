import SipXRouter.Utl.UtlStringRep

/-!
# Operations keep the representation

Every operation on a `UtlString` that is given what it needs leaves a size below the
capacity and a NUL behind the bytes.  The operations are taken apart into growing, writing
bytes and writing the NUL; each part says what it leaves, and `Outcome.Ends.andThen` puts
them together.

`capacity` is the exception: it keeps the NUL only by luck.
-/

namespace SipXRouter

open List

variable {N pos size : Nat} {bytes : Text} {str : Source}

namespace UtlStringRep

open Outcome

/-! ## The parts of an operation -/

/-- An operation is defined and leaves the invariant, also where it raises an exception. -/
abbrev Keeps (o : Outcome UtlStringRep) : Prop := o.Ends Inv Inv

section Parts

variable {s : UtlStringRep} {mem : Memory}

theorem inv_empty (mem : Memory) : (empty mem).Inv where
  size_lt := Nat.succ_pos _
  terminated := rfl

theorem Inv.length_bytes (h : s.Inv) : s.bytes.length = s.mSize :=
  length_take_of_le h.size_lt.le

theorem Inv.read_bytes (h : s.Inv) : Block.read s.mpData 0 s.mSize = some s.bytes := by
  have hle : 0 + s.mSize ≤ s.mpData.length := by
    rw [Nat.zero_add]
    exact h.size_lt.le
  rw [Block.read_of_le hle, drop_zero, bytes]

theorem Inv.exists_read (h : s.Inv) (pos length : Nat) (hle : pos + length ≤ s.mSize + 1) :
    ∃ cells, Block.read s.mpData pos length = some cells ∧ cells.length = length :=
  Block.exists_read _ _ _ (hle.trans h.size_lt)

theorem setEnd_ends {E : UtlStringRep → Prop} (h : size < s.mCapacity) :
    (setEnd size s).Ends (fun t => t.Inv ∧ t.mSize = size) E := by
  obtain ⟨data, hdata, hlen⟩ := Block.exists_write s.mpData size [(0 : Byte)] h
  have hend : setEnd size s = done { s with mpData := data, mSize := size } := by
    rw [setEnd, store, hdata]
    rfl
  rw [hend]
  exact ends_done ⟨⟨h.trans_eq hlen.symm, Block.getElem?_write_self hdata⟩, rfl⟩

theorem keeps_setEnd (h : size < s.mCapacity) : Keeps (setEnd size s) :=
  (setEnd_ends h).imp fun _ ht => ht.1

theorem store_ends {E : UtlStringRep → Prop} (h : pos + bytes.length ≤ s.mCapacity) :
    (store pos bytes s).Ends (fun t => t.mCapacity = s.mCapacity ∧ t.mSize = s.mSize) E := by
  obtain ⟨data, hdata, hlen⟩ := Block.exists_write _ _ _ h
  rw [store, hdata]
  exact ends_done ⟨hlen, rfl⟩

theorem Inv.keeps_store (h : s.Inv)
    (hle : pos + bytes.length ≤ s.mSize) : Keeps (store pos bytes s) := by
  obtain ⟨data, hdata, hlen⟩ := Block.exists_write _ _ _ (hle.trans h.size_lt.le)
  rw [store, hdata]
  refine ends_done ⟨h.size_lt.trans_eq hlen.symm, ?_⟩
  show data[s.mSize]? = some 0
  rw [Block.getElem?_write hdata, if_neg (by omega)]
  exact h.terminated

theorem store_setEnd_ends {E : UtlStringRep → Prop}
    (hbytes : pos + bytes.length ≤ s.mCapacity) (hsize : size < s.mCapacity) :
    ((store pos bytes s).andThen (setEnd size)).Ends (fun t => t.Inv ∧ t.mSize = size) E := by
  apply (store_ends hbytes).andThen
  intro t ht
  exact setEnd_ends (hsize.trans_eq ht.1.symm)

theorem Inv.keeps_mapBytes (h : s.Inv) (f : Byte → Byte) : Keeps (mapBytes f s) := by
  apply h.keeps_store
  rw [length_map, h.length_bytes, Nat.zero_add]

/-! ### Removing -/

theorem Inv.keeps_remove (h : s.Inv) (pos : Nat) : Keeps (remove pos s) := by
  unfold remove
  split
  · next hpos => exact keeps_setEnd (hpos.trans h.size_lt)
  · exact ends_done h

/-- `remove(0)` leaves no bytes. -/
theorem Inv.keeps_remove_zero (h : s.Inv) :
    (remove 0 s).Ends (fun t => t.Inv ∧ t.mSize = 0) Inv := by
  unfold remove
  split
  · next hpos => exact setEnd_ends (hpos.trans h.size_lt)
  · next hpos => exact ends_done ⟨h, by omega⟩

theorem Inv.keeps_removePart (h : s.Inv) (pos N : Nat) : Keeps (removePart pos N s) := by
  unfold removePart
  split
  · next hrange =>
      obtain ⟨hpos, hN, hlt⟩ := hrange
      have hend : pos + N ≤ s.mSize := by
        unfold toSizeT at hN
        omega
      obtain ⟨tail, htail, hlen⟩ := h.exists_read (pos + N)
        (s.mSize - (pos + N) + 1) (by omega)
      have hcap := h.size_lt
      rw [htail]
      exact (store_setEnd_ends (by omega) (by omega)).imp fun _ ht => ht.1
  · exact ends_done h

/-- What removing bytes from the front leaves. -/
structure FrontRemoved (N : Nat) (s t : UtlStringRep) : Prop where
  inv : t.Inv
  bytes_eq : ∃ k ≤ N, t.bytes = s.bytes.drop k

theorem Inv.keeps_removePart_zero (h : s.Inv) (N : Nat) :
    (removePart 0 N s).Ends (FrontRemoved N s) Inv := by
  unfold removePart
  split
  · next hrange =>
      obtain ⟨hpos, hN, hlt⟩ := hrange
      have hend : N ≤ s.mSize := by
        unfold toSizeT at hN
        omega
      have hcap := h.size_lt
      unfold mCapacity at hcap
      have htail : Block.read s.mpData (0 + N) (s.mSize - (0 + N) + 1) =
          some ((s.mpData.drop N).take (s.mSize - N + 1)) := by
        rw [Block.read_of_le (by omega), Nat.zero_add]
      have hlen : ((s.mpData.drop N).take (s.mSize - N + 1)).length = s.mSize - N + 1 := by
        rw [length_take, length_drop]
        omega
      obtain ⟨data, hdata, hdlen⟩ :=
        Block.exists_write s.mpData 0 ((s.mpData.drop N).take (s.mSize - N + 1)) (by omega)
      obtain ⟨data', hdata', hdlen'⟩ := Block.exists_write data (s.mSize - N) [(0 : Byte)]
        (by show s.mSize - N + 1 ≤ _; omega)
      have hstores : (store 0 ((s.mpData.drop N).take (s.mSize - N + 1)) s).andThen
          (setEnd (s.mSize - N)) = done { s with mpData := data', mSize := s.mSize - N } := by
        rw [store, hdata]
        show setEnd (s.mSize - N) { s with mpData := data } = _
        rw [setEnd, store, hdata']
        rfl
      rw [htail, Option.bind_some, hstores]
      refine ends_done ⟨⟨?_, Block.getElem?_write_self hdata'⟩, N, le_refl N, ?_⟩
      · show s.mSize - N < data'.length
        omega
      · show data'.take (s.mSize - N) = (s.mpData.take s.mSize).drop N
        ext1 i
        by_cases hi : i < s.mSize - N
        · rw [getElem?_take_of_lt hi, Block.getElem?_write hdata', if_neg (by omega),
            Block.getElem?_write hdata, if_pos (by omega), getElem?_take_of_lt (by omega),
            getElem?_drop, getElem?_drop, getElem?_take_of_lt (by omega)]
          rfl
        · rw [getElem?_eq_none (by rw [length_take]; omega), getElem?_eq_none
            (by rw [length_drop, length_take]; omega)]
  · exact ends_done ⟨h, 0, Nat.zero_le N, rfl⟩

/-! ### Growing -/

/-- What `capacity(N)` leaves of the string `s`. -/
structure Grown (N : Nat) (s t : UtlStringRep) : Prop where
  mSize_eq : t.mSize = s.mSize
  room : N ≤ t.mCapacity
  le : s.mCapacity ≤ t.mCapacity
  same : N ≤ s.mCapacity → t = s

theorem lt_blockSize (h : s.mCapacity < N) : N ≤ s.blockSize N ∧ s.mCapacity < s.blockSize N := by
  unfold blockSize
  split <;> omega

/-- `capacity` makes room, and leaves the string alone where it fails. -/
theorem capacity_ends (h : s.mSize ≤ s.mCapacity) (N : Nat) {E : UtlStringRep → Prop} (hE : E s) :
    (capacity mem N s).Ends (Grown N s) E := by
  unfold capacity
  split
  · next hgrow =>
      obtain ⟨hN, hlt⟩ := lt_blockSize hgrow
      split
      · exact ends_raise hE
      · next newData hnew =>
          have hlen := mem.length_allocate hnew
          have hdone : ∀ {data : Text}, data.length = s.blockSize N →
              Ends (Grown N s) E (done { s with mpData := data, onHeap := true }) := fun hdata =>
            ends_done ⟨rfl, hN.trans_eq hdata.symm, hlt.le.trans_eq hdata.symm,
              fun hle => absurd hgrow (by omega)⟩
          dsimp only
          split
          · obtain ⟨cells, hcells, hclen⟩ := Block.exists_read s.mpData 0 s.mSize
              (by rw [Nat.zero_add]; exact h)
            obtain ⟨data, hdata, hdlen⟩ := Block.exists_write newData 0 cells
              (by unfold mCapacity at *; omega)
            rw [hcells, Option.bind_some, hdata]
            exact hdone (hdlen.trans hlen)
          · obtain ⟨data, hdata, hdlen⟩ := Block.exists_write newData 0 [(0 : Byte)]
              (by rw [hlen]; show 0 + 1 ≤ _; omega)
            rw [hdata]
            exact hdone (hdlen.trans hlen)
  · next hgrow => exact ends_done ⟨rfl, by omega, le_refl _, fun _ => rfl⟩

theorem Inv.capacity_grow (h : s.Inv) {newData : Text} (hpos : 0 < s.mSize)
    (hgrow : s.mCapacity < N) (hnew : mem.allocate (s.blockSize N) = some newData) :
    ∃ data, capacity mem N s = done { s with mpData := data, onHeap := true } ∧
      data.length = s.blockSize N ∧ data[s.mSize]? = newData[s.mSize]? := by
  have hlen := mem.length_allocate hnew
  have hlt := (lt_blockSize hgrow).2
  have hsize := h.size_lt
  obtain ⟨data, hdata, hdlen⟩ :=
    Block.exists_write newData 0 s.bytes (by rw [h.length_bytes]; omega)
  refine ⟨data, ?_, hdlen.trans hlen, ?_⟩
  · unfold capacity
    rw [if_pos hgrow, hnew]
    dsimp only
    rw [if_pos hpos, h.read_bytes, Option.bind_some, hdata]
    rfl
  · rw [Block.getElem?_write hdata, if_neg (by rw [h.length_bytes]; omega)]

/-- `capacity` for an empty string. -/
theorem Inv.keeps_capacity_zero (h : s.Inv) (hzero : s.mSize = 0) (N : Nat) :
    Keeps (capacity mem N s) := by
  unfold capacity
  split
  · next hgrow =>
      split
      · exact ends_raise h
      · next newData hnew =>
          have hlen := mem.length_allocate hnew
          have hlt := (lt_blockSize hgrow).2
          obtain ⟨data, hdata, hdlen⟩ := Block.exists_write newData 0 [(0 : Byte)]
            (by show 0 + 1 ≤ _; omega)
          dsimp only
          rw [if_neg (by omega), hdata]
          refine ends_done ⟨?_, ?_⟩
          · show s.mSize < data.length
            omega
          · show data[s.mSize]? = some 0
            rw [hzero]
            exact Block.getElem?_write_self hdata
  · exact ends_done h

/-- **`capacity` by itself** keeps the invariant exactly when the string is empty, or the
buffer large enough, or the block holds a NUL in the right place. -/
theorem Inv.keeps_capacity_iff (h : s.Inv) : Keeps (capacity mem N s) ↔
    (0 < s.mSize → s.mCapacity < N →
      ∀ block, mem.allocate (s.blockSize N) = some block → block[s.mSize]? = some 0) := by
  constructor
  · intro hkeeps hpos hgrow block hblock
    obtain ⟨data, hdone, -, hend⟩ := h.capacity_grow hpos hgrow hblock
    rw [hdone] at hkeeps
    obtain ⟨left, hleft, hinv⟩ := hkeeps
    cases hleft
    exact hend.symm.trans hinv.terminated
  · intro hsafe
    by_cases hpos : 0 < s.mSize
    · by_cases hgrow : s.mCapacity < N
      · cases hblock : mem.allocate (s.blockSize N) with
        | none =>
          unfold capacity
          rw [if_pos hgrow, hblock]
          exact ends_raise h
        | some block =>
          obtain ⟨data, hdone, hlen, hend⟩ := h.capacity_grow hpos hgrow hblock
          rw [hdone]
          refine ends_done ⟨?_, hend.trans (hsafe hpos hgrow block hblock)⟩
          exact (h.size_lt.trans (lt_blockSize hgrow).2).trans_eq hlen.symm
      · unfold capacity
        rw [if_neg hgrow]
        exact ends_done h
    · exact h.keeps_capacity_zero (by omega) N

/-! ### Appending and inserting -/

theorem Inv.keeps_appendWith (h : s.Inv) {read : UtlStringRep → Option Text}
    (hread : 0 < N → N ≠ utlStringToEnd → ∀ grown, Grown (s.mSize + N + 1) s grown →
      ∃ bytes, read grown = some bytes ∧ bytes.length = N) : Keeps (appendWith mem N read s) := by
  unfold appendWith
  split
  · next hN =>
      apply (capacity_ends h.size_lt.le (s.mSize + N + 1) h).andThen
      intro grown hgrown
      have hroom := hgrown.room
      obtain ⟨bytes, hbytes, hlen⟩ := hread hN.1 hN.2 grown hgrown
      rw [hbytes, Option.bind_some]
      exact (store_setEnd_ends (by omega) (by omega)).imp fun _ ht => ht.1
  · exact ends_done h

theorem Inv.keeps_appendBytes (h : s.Inv) (bytes : Text) : Keeps (appendBytes mem bytes s) :=
  h.keeps_appendWith fun _ _ _ _ => ⟨bytes, rfl, rfl⟩

theorem Inv.keeps_appendChars (h : s.Inv) (szStr : Option Text) :
    Keeps (appendChars mem szStr s) := by
  cases szStr with
  | none => exact ends_done h
  | some szStr => exact h.keeps_appendBytes (cString szStr)

theorem Source.exists_read {src : Source} {length : Nat} {grown : UtlStringRep} (h : s.Inv)
    (hle : pos + length ≤ (src.string s).mSize) (hgrown : Grown (s.mSize + length + 1) s grown)
    (hself : src = .self → ¬ s.Moves length) :
    ∃ bytes, src.read pos length s grown = some bytes ∧ bytes.length = length := by
  cases src with
  | other str valid => exact valid.exists_read _ _ (Nat.le_succ_of_le hle)
  | self =>
    have hstays : ¬ (s.onHeap = true ∧ s.mCapacity < grown.mCapacity) := by
      rintro ⟨hheap, hlt⟩
      apply hself rfl
      refine ⟨hheap, ?_⟩
      by_contra hroom
      rw [hgrown.same (by omega)] at hlt
      exact absurd hlt (lt_irrefl _)
    rw [Source.read, if_neg hstays]
    exact h.exists_read _ _ (Nat.le_succ_of_le hle)

theorem Inv.keeps_append (h : s.Inv) (hself : str = .self → ¬ s.Moves s.mSize) :
    Keeps (append mem str s) := by
  apply h.keeps_appendWith
  intro _ _ grown hgrown
  refine str.exists_read h (Nat.zero_add _).le hgrown ?_
  rintro rfl
  exact hself rfl

theorem Inv.keeps_appendPart (h : s.Inv) {position length : Nat}
    (hrange : position < (str.string s).mSize →
      length = utlStringToEnd ∨ position + length < 2 ^ 64)
    (hself : position < (str.string s).mSize → str = .self →
      ¬ s.Moves (partLength s position length)) : Keeps (appendPart mem str position length s) := by
  unfold appendPart
  split
  · next hpos =>
      have hle : position + partLength (str.string s) position length ≤ (str.string s).mSize := by
        have hrange := hrange hpos
        unfold partLength toSizeT
        split <;> omega
      dsimp only
      rw [if_pos hle]
      apply h.keeps_appendWith
      intro _ _ grown hgrown
      refine str.exists_read h hle hgrown ?_
      rintro rfl
      exact hself hpos rfl
  · exact ends_done h

theorem Inv.keeps_appendFormattedNumber (h : s.Inv) (formatResult : Int)
    (conversionString format : Text) :
    Keeps (appendFormattedNumber mem formatResult conversionString format s) := by
  unfold appendFormattedNumber
  split
  · exact h.keeps_appendChars _
  · apply ((h.keeps_appendChars _).andThen fun t ht => ht.keeps_appendChars _).andThen
    intro t ht
    exact ht.keeps_appendChars _

theorem Inv.keeps_insertWith (h : s.Inv) {position : Nat} {read : UtlStringRep → Option Text}
    (hread : position ≤ s.mSize → ∀ opened, s.mCapacity ≤ opened.mCapacity →
      s.mSize + N + 1 ≤ opened.mCapacity →
      (s.mSize + N + 1 ≤ s.mCapacity → opened.mCapacity = s.mCapacity) →
      ∃ bytes, read opened = some bytes ∧ bytes.length = N) :
    Keeps (insertWith mem position N read s) := by
  unfold insertWith
  split
  · next hpos =>
      apply (capacity_ends h.size_lt.le (s.mSize + N + 1) h).andThen
      intro grown hgrown
      have hroom := hgrown.room
      obtain ⟨tail, htail, hlen⟩ := Block.exists_read grown.mpData position (s.mSize - position)
        (by unfold mCapacity at hroom; omega)
      rw [htail, Option.bind_some]
      apply (store_ends (by omega)).andThen
      rintro opened ⟨hcap, -⟩
      obtain ⟨bytes, hbytes, hblen⟩ := hread hpos opened (hgrown.le.trans_eq hcap.symm)
        (hroom.trans_eq hcap.symm) fun hle => by rw [hcap, hgrown.same hle]
      rw [hbytes, Option.bind_some]
      exact (store_setEnd_ends (by omega) (by omega)).imp fun _ ht => ht.1
  · exact ends_done h

theorem Inv.keeps_insertBytes (h : s.Inv) (position : Nat) (source : Text) :
    Keeps (insertBytes mem position source s) :=
  h.keeps_insertWith fun _ _ _ _ _ => ⟨source, rfl, rfl⟩

theorem Inv.keeps_insertChars (h : s.Inv) (position : Nat) (source : Option Text) :
    Keeps (insertChars mem position source s) := by
  cases source with
  | none => exact ends_done h
  | some source =>
    unfold insertChars
    dsimp only
    split
    · exact h.keeps_insertBytes position _
    · split
      · exact h.keeps_appendChars _
      · exact ends_done h

theorem Inv.keeps_insert (h : s.Inv) {start : Nat}
    (hself : str = .self → start ≤ s.mSize → 0 < s.mSize →
      if s.mCapacity < s.mSize + s.mSize + 1 then s.onHeap = false else start = s.mSize) :
    Keeps (insert mem start str s) := by
  unfold insert
  split
  · next hrange =>
      apply h.keeps_insertWith
      intro hpos opened hle hroom hsame
      cases str with
      | other str valid => exact valid.exists_read _ _ (by rw [Nat.zero_add]; exact Nat.le_succ _)
      | self =>
        have hself := hself rfl hpos hrange.2
        unfold Source.readApart
        simp only [Source.string] at hroom hsame
        by_cases hgrow : s.mCapacity < s.mSize + s.mSize + 1
        · rw [if_pos hgrow] at hself
          rw [hself]
          rw [if_pos (by omega), if_neg Bool.false_ne_true]
          exact h.exists_read _ _ (by omega)
        · rw [if_neg hgrow] at hself
          rw [hsame (by omega), if_neg (lt_irrefl _), if_neg (by omega)]
          exact Block.exists_read _ _ _ (by unfold mCapacity at hroom; omega)
  · exact ends_done h

/-! ### Replacing, assigning, resizing -/

theorem Inv.keeps_become (h : s.Inv) (newUtlString : UtlStringRep) :
    Keeps (become mem newUtlString s) := by
  apply (h.keeps_remove 0).andThen
  intro t ht
  exact ht.keeps_appendBytes _

theorem Inv.keeps_replace (h : s.Inv) (replaceStr : Option Text) (L : Nat)
    (hrange : s.ReplaceInRange pos N) : Keeps (replace mem pos N replaceStr L s) := by
  unfold replace
  cases replaceStr with
  | none => exact ends_done h
  | some replaceStr =>
    dsimp only
    split
    · have hnew : Keeps
        (((appendWith mem pos (fun _ => Block.read s.mpData 0 pos) (empty mem)).andThen
          (appendBytes mem (replaceStr.take L))).andThen
          (appendWith mem (s.replaceTail pos N).2 fun _ =>
            Block.read s.mpData (s.replaceTail pos N).1 (s.replaceTail pos N).2)) := by
        have hfront :
            Keeps (appendWith mem pos (fun _ => Block.read s.mpData 0 pos) (empty mem)) := by
          apply (inv_empty mem).keeps_appendWith
          intro _ hpos _ _
          apply Block.exists_read
          rw [Nat.zero_add]
          exact hrange.1.resolve_left hpos
        apply (hfront.andThen fun t ht => ht.keeps_appendBytes _).andThen
        intro t ht
        apply ht.keeps_appendWith
        intro hlen _ _ _
        exact Block.exists_read _ _ _ (hrange.2.resolve_left hlen.ne')
      exact hnew.making h fun t _ => h.keeps_become t
    · exact ends_done h

theorem Inv.keeps_prepend (h : s.Inv) (szStr : Option Text) : Keeps (prepend mem szStr s) := by
  have hnul : s.mpData.contains 0 = true := by
    rw [contains_iff_mem]
    exact mem_of_getElem? h.terminated
  have hnew : Keeps ((appendChars mem szStr (empty mem)).andThen fun newUtlString =>
      if s.mpData.contains 0 then appendChars mem (some s.mpData) newUtlString else none) := by
    apply ((inv_empty mem).keeps_appendChars szStr).andThen
    intro t ht
    rw [if_pos hnul]
    exact ht.keeps_appendChars _
  exact hnew.making h fun t _ => h.keeps_become t

theorem Inv.keeps_replaceAt (h : s.Inv) (pos : Nat) (newChar : Byte) :
    Keeps (replaceAt pos newChar s) := by
  unfold replaceAt
  split
  · next hpos => exact h.keeps_store hpos
  · exact ends_done h

theorem Inv.keeps_replaceChar (h : s.Inv) (src tgt : Byte) : Keeps (replaceChar src tgt s) := by
  unfold replaceChar
  split
  · exact h.keeps_mapBytes _
  · exact ends_done h

theorem Inv.keeps_assignChars (h : s.Inv) (szStr : Option Text) :
    Keeps (assignChars mem szStr s) := by
  apply (h.keeps_remove 0).andThen
  intro t ht
  exact ht.keeps_appendChars szStr

theorem Inv.keeps_assign (h : s.Inv) (str : Source) : Keeps (assign mem str s) := by
  cases str with
  | self => exact ends_done h
  | other other valid =>
    apply (h.keeps_remove_zero.andThen fun t ht => ht.1.keeps_capacity_zero ht.2 _).andThen
    intro t ht
    exact ht.keeps_append nofun

theorem Inv.keeps_resize (h : s.Inv) (hN : s.mSize < N → N + 1 < 2 ^ 64) :
    Keeps (resize mem N s) := by
  unfold resize
  split
  · next hlt =>
      have hgrown : (if s.mCapacity ≤ N then capacity mem (toSizeT (N + 1)) s else done s).Ends
          (fun t => N < t.mCapacity) Inv := by
        split
        · have hsize : toSizeT (N + 1) = N + 1 := by
            have hN := hN hlt
            unfold toSizeT
            omega
          rw [hsize]
          exact (capacity_ends h.size_lt.le (N + 1) h).imp fun _ ht => ht.room
        · next hroom => exact ends_done (by omega)
      apply hgrown.andThen
      intro t ht
      have hfill : s.mSize + (replicate (N - s.mSize) (0 : Byte)).length ≤ t.mCapacity := by
        rw [length_replicate]
        omega
      exact (store_setEnd_ends hfill ht).imp fun _ ht => ht.1
  · exact h.keeps_remove N

/-! ### Stripping -/

/-- What NUL does not belong to ends at the NUL. -/
theorem Inv.length_takeWhile_le (h : s.Inv) {p : Byte → Bool} (hp : p 0 = false) :
    (s.mpData.takeWhile p).length ≤ s.mSize := by
  have hend := h.terminated
  by_contra hlt
  have hprefix : (s.mpData.takeWhile p)[s.mSize]? = some 0 := by
    rw [← getElem?_append_left (by omega), takeWhile_append_dropWhile]
    exact hend
  have hwithin := mem_takeWhile_imp (mem_of_getElem? hprefix)
  rw [hp] at hwithin
  exact Bool.false_ne_true hwithin

/-- The blanks in front end at the NUL. -/
theorem Inv.length_leading (h : s.Inv) : (s.mpData.takeWhile isStripped).length ≤ s.mSize :=
  h.length_takeWhile_le (by decide)

theorem Inv.isStripped_of_mem_take (h : s.Inv) {k : Nat} {c : Byte}
    (hk : k ≤ (s.mpData.takeWhile isStripped).length) (hc : c ∈ s.bytes.take k) :
    isStripped c = true := by
  have htake : s.bytes.take k = (s.mpData.takeWhile isStripped).take k := by
    have hsize := h.length_leading
    rw [bytes, take_take, Nat.min_eq_left (hk.trans hsize)]
    conv_lhs => rw [← takeWhile_append_dropWhile (p := isStripped) (l := s.mpData)]
    exact take_append_of_le_length hk
  rw [htake] at hc
  exact mem_takeWhile_imp (mem_of_mem_take hc)

theorem Inv.keeps_stripLeading (h : s.Inv) :
    (stripLeading s).Ends (FrontRemoved (s.mpData.takeWhile isStripped).length s) Inv := by
  have hrun := h.length_leading
  have hremoved : ∀ n ≤ (s.mpData.takeWhile isStripped).length,
      (if 0 < n then removePart 0 n s else done s).Ends
        (FrontRemoved (s.mpData.takeWhile isStripped).length s) Inv := by
    intro n hn
    split
    · apply (h.keeps_removePart_zero n).imp
      rintro t ⟨ht, k, hk, hbytes⟩
      exact ⟨ht, k, hk.trans hn, hbytes⟩
    · exact ends_done ⟨h, 0, Nat.zero_le _, rfl⟩
  unfold stripLeading
  dsimp only
  split
  · exact hremoved _ (Nat.min_le_left _ _)
  · rw [if_pos (hrun.trans_lt h.size_lt)]
    exact hremoved _ (Nat.mod_le _ _)

theorem Inv.keeps_stripTrailing (h : s.Inv)
    (hsafe : (∀ c ∈ s.bytes, isStripped c = true) → s.mSize < 2 ^ 32) :
    Keeps (stripTrailing s) := by
  have hends : ¬ ((s.bytes.reverse.takeWhile isStripped).length = s.mSize ∧
      2 ^ 32 ≤ (s.bytes.reverse.takeWhile isStripped).length) := by
    rintro ⟨hall, hlarge⟩
    have hwhole : s.bytes.reverse.takeWhile isStripped = s.bytes.reverse := by
      apply (List.takeWhile_prefix isStripped).eq_of_length
      rw [hall, length_reverse, h.length_bytes]
    have hlt := hsafe fun c hc => by
      rw [takeWhile_eq_self_iff] at hwhole
      exact hwhole c (mem_reverse.mpr hc)
    omega
  unfold stripTrailing
  dsimp only
  rw [if_neg hends]
  split
  · exact h.keeps_remove _
  · exact ends_done h

theorem Inv.keeps_strip (h : s.Inv) {type : StripType}
    (hsafe : type ≠ .leading → (∀ c ∈ s.bytes, isStripped c = true) → s.mSize < 2 ^ 32) :
    Keeps (strip type s) := by
  unfold strip
  split
  · cases type with
    | leading => exact h.keeps_stripLeading.imp fun _ ht => ht.inv
    | trailing => exact h.keeps_stripTrailing (hsafe nofun)
    | both =>
      apply h.keeps_stripLeading.andThen
      rintro t ⟨ht, k, hk, hbytes⟩
      split
      · apply ht.keeps_stripTrailing
        intro hblank
        have hall : ∀ c ∈ s.bytes, isStripped c = true := by
          intro c hc
          rw [← take_append_drop k s.bytes, mem_append] at hc
          rcases hc with hfront | hback
          · exact h.isStripped_of_mem_take hk hfront
          · exact hblank c (hbytes ▸ hback)
        have hlt := hsafe nofun hall
        rw [← ht.length_bytes, hbytes, length_drop, h.length_bytes]
        omega
      · exact ends_done ht
  · exact ends_done h

theorem length_takeWhile_le_of_prefix {p : Byte → Bool} {l l' : Text} (h : l <+: l') :
    (l.takeWhile p).length ≤ (l'.takeWhile p).length := by
  obtain ⟨r, rfl⟩ := h
  rw [takeWhile_append]
  split
  · next hall =>
      rw [hall, length_append]
      exact Nat.le_add_right _ _
  · exact le_refl _

theorem Inv.keeps_stripChar (h : s.Inv) {type : StripType} {toBeStriped : Byte}
    (hleading : type ≠ .trailing → (s.bytes.takeWhile (· == toBeStriped)).length < 2 ^ 32)
    (htrailing : type ≠ .leading → (s.bytes.reverse.takeWhile (· == toBeStriped)).length < 2 ^ 32) :
    Keeps (stripChar type toBeStriped s) := by
  unfold stripChar
  split
  · have hfront : (if type = .trailing then done s
        else stripCharCount (s.bytes.takeWhile (· == toBeStriped)).length
          (fun count => removePart 0 count s) s).Ends (FrontRemoved s.mSize s) Inv := by
      have hnothing : FrontRemoved s.mSize s s := ⟨h, 0, Nat.zero_le _, rfl⟩
      split
      · exact ends_done hnothing
      · next htype =>
          have hlt := hleading htype
          unfold stripCharCount
          rw [if_neg (by omega)]
          split
          · apply (h.keeps_removePart_zero _).imp
            rintro t ⟨ht, k, hk, hbytes⟩
            refine ⟨ht, k, hk.trans ?_, hbytes⟩
            rw [← h.length_bytes]
            exact (List.takeWhile_prefix _).length_le
          · exact ends_done hnothing
    apply hfront.andThen
    rintro t ⟨ht, k, hk, hbytes⟩
    split
    · exact ends_done ht
    · next htype =>
        have hle : (t.bytes.reverse.takeWhile (· == toBeStriped)).length ≤
            (s.bytes.reverse.takeWhile (· == toBeStriped)).length := by
          apply length_takeWhile_le_of_prefix
          rw [List.reverse_prefix, hbytes]
          exact drop_suffix k s.bytes
        have hlt := htrailing htype
        unfold stripCharCount
        rw [if_neg (by omega)]
        split
        · exact ht.keeps_remove _
        · exact ends_done ht
  · exact ends_done h

end Parts

/-! ## Runs -/

variable {mem : Memory} {s : UtlStringRep}

/-- **Every operation** that is given what it needs keeps the invariant. -/
theorem step_ends {op : Op} (h : s.Inv) (hsafe : Safe mem s op) : Keeps (step mem s op) := by
  cases op with
  | assignChars szStr => exact h.keeps_assignChars szStr
  | assign str => exact h.keeps_assign str
  | appendChars szStr => exact h.keeps_appendChars szStr
  | appendBytes bytes => exact h.keeps_appendBytes bytes
  | append str =>
    apply h.keeps_append
    rintro rfl
    exact hsafe
  | appendPart str position length =>
    apply h.keeps_appendPart
    · exact fun hpos => (hsafe hpos).1
    · rintro hpos rfl
      exact (hsafe hpos).2
  | appendChar c => exact h.keeps_appendBytes [c]
  | appendNumber formatResult conversionString format =>
    exact h.keeps_appendFormattedNumber formatResult conversionString format
  | prepend szStr => exact h.keeps_prepend szStr
  | insertChars position source => exact h.keeps_insertChars position source
  | insertBytes position source => exact h.keeps_insertBytes position source
  | insertChar position source => exact h.keeps_insertBytes position [source]
  | insert start str =>
    apply h.keeps_insert
    rintro rfl
    exact hsafe
  | remove pos => exact h.keeps_remove pos
  | removePart pos N => exact h.keeps_removePart pos N
  | replaceAt pos newChar => exact h.keeps_replaceAt pos newChar
  | replaceChar src tgt => exact h.keeps_replaceChar src tgt
  | replaceChars pos N replaceStr =>
    exact h.keeps_replace (some replaceStr) (cString replaceStr).length hsafe
  | replaceString pos N replaceStr =>
    exact h.keeps_replace (some (replaceStr.string s).mpData) (replaceStr.string s).mSize hsafe
  | replace pos N replaceStr L => exact h.keeps_replace _ _ hsafe
  | strip type => exact h.keeps_strip hsafe
  | stripChar type toBeStriped => exact h.keeps_stripChar hsafe.1 hsafe.2
  | toLower => exact h.keeps_mapBytes _
  | toUpper => exact h.keeps_mapBytes _
  | resize N => exact h.keeps_resize hsafe
  | capacity N => exact h.keeps_capacity_iff.mpr hsafe

/-- Every constructor makes a valid string. -/
theorem construct_ends (mem : Memory) (c : Construct) : Keeps (construct mem c) := by
  have hempty := inv_empty mem
  cases c with
  | default => exact ends_done hempty
  | chars szSource => exact hempty.keeps_appendChars szSource
  | bytes szSource => exact hempty.keeps_appendBytes szSource
  | copy source valid =>
    apply (hempty.keeps_capacity_zero rfl source.mCapacity).andThen
    intro t ht
    exact ht.keeps_append nofun
  | copyPart source valid length =>
    apply (hempty.keeps_capacity_zero rfl source.mCapacity).andThen
    intro t ht
    apply ht.keeps_appendWith
    intro _ _ _ _
    exact valid.exists_read _ _ (by omega)

/-- `data()` is a C string whose first NUL is at or before `length()`. -/
theorem Inv.length_data_le (h : s.Inv) : (cString s.mpData).length ≤ s.mSize :=
  h.length_takeWhile_le (by decide)

/-- The invariant, and what it says about `data()`. -/
def Valid (s : UtlStringRep) : Prop := s.Inv ∧ (cString s.mpData).length ≤ s.mSize

/-- A new string, and the operations on it in turn, each with what memory holds then. -/
def SoundRun (mem : Memory) (c : Construct) (run : List (Memory × Op)) : Prop :=
  ∃ left, construct mem c = some left ∧
    (left.raised = false → Sound (fun s e => step e.1 s e.2) Valid left.state run)

/-- Each operation of a run is given what it needs. -/
def SafeRun (mem : Memory) (c : Construct) (run : List (Memory × Op)) : Prop :=
  ∀ left, construct mem c = some left →
    AllSafe (fun s e => step e.1 s e.2) (fun s e => Safe e.1 s e.2) left.state run

/-- **Runs**: from any constructor, every operation is defined and leaves a valid string if
each is given what it needs. -/
theorem SafeRun.soundRun {c : Construct} {run : List (Memory × Op)} (h : SafeRun mem c run) :
    SoundRun mem c run := by
  obtain ⟨left, hleft, hinv⟩ := construct_ends mem c
  rw [ite_self] at hinv
  refine ⟨left, hleft, fun _ => ?_⟩
  have hsound := (h left hleft).sound hinv fun s e hs hsafe => step_ends hs hsafe
  exact hsound.imp fun s hs => ⟨hs, hs.length_data_le⟩

/-- Memory that holds the byte `c` everywhere, and never runs out. -/
def filledMemory (c : Byte) : Memory where
  builtIn _ := c
  allocate n := some (replicate n c)
  length_allocate h := by
    cases h
    exact length_replicate

/-- The string `abc` in its built-in buffer. -/
def abc : UtlStringRep where
  mpData := text "abc" ++ 0 :: replicate 96 255
  mSize := 3

theorem construct_abc : construct (filledMemory 255) (.chars (some (text "abc"))) = done abc := by
  decide +kernel

/-- A run in which `capacity` has the buffer it needs already. -/
theorem SafeRun.soundRun_abc : SoundRun (filledMemory 255) (.chars (some (text "abc")))
    [(filledMemory 255, .capacity 50), (filledMemory 255, .toUpper)] := by
  apply SafeRun.soundRun
  intro left hleft
  rw [construct_abc] at hleft
  cases hleft
  refine ⟨fun _ hlt => absurd hlt (by decide), fun left _ => ⟨trivial, fun _ _ => trivial⟩⟩

/-- `UtlString s("abc"); s.capacity(200);` leaves no NUL behind the bytes when the block does
not happen to hold one. -/
theorem not_sound_capacity : ¬ ∀ (mem : Memory) (c : Construct) (run : List (Memory × Op)),
    SoundRun mem c run := by
  intro h
  obtain ⟨left, hleft, hrun⟩ := h (filledMemory 255) (.chars (some (text "abc")))
    [(filledMemory 255, .capacity 200)]
  rw [construct_abc] at hleft
  cases hleft
  obtain ⟨-, left, hleft, hinv, -⟩ := hrun rfl
  have hend : (step (filledMemory 255) abc (.capacity 200)).map (fun left =>
      left.state.mpData[left.state.mSize]?) = some (some 255) := by
    decide +kernel
  have hstep : step (filledMemory 255) abc (.capacity 200) = some left := hleft
  rw [hstep, Option.map_some, hinv.terminated] at hend
  exact absurd hend (by decide)

end UtlStringRep

end SipXRouter
