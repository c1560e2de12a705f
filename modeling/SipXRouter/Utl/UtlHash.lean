import SipXRouter.Chains

/-!
# The hash tables of the utility library

`UtlHashBag` and `UtlHashMap` share their layout: an array of bucket lists that is indexed
by the folded hash of an entry, and that grows when the mean bucket holds three entries and
no iterator is attached.

## Design notes

The number of buckets is `1 << bits`, which the code computes as an `int`; it is taken to be
`2 ^ bits`, as it is for every table that fits into a memory.
-/

namespace SipXRouter

namespace UtlHash

/-! ## Bucket numbers -/

/-- The loop of `bucketNumber`: the bits above those used so far are shifted down and folded
in until none is left. -/
def foldHighBits (bits : Nat) : Nat → Nat → Nat → Nat
  | 0, _, foldedHash => foldedHash
  | fuel + 1, highBits, foldedHash =>
    if highBits >>> bits = 0 then foldedHash
    else
      foldHighBits bits fuel (highBits >>> bits)
        (foldedHash ^^^ (highBits >>> bits &&& (2 ^ bits - 1)))

/-- The bucket of a hash: its high bits are folded onto the low ones. -/
def bucketNumber (bits : Nat) (hash : UInt32) : Nat :=
  foldHighBits bits 32 hash.toNat (hash.toNat &&& (2 ^ bits - 1))

theorem foldHighBits_lt {bits : Nat} (fuel highBits : Nat) {foldedHash : Nat}
    (h : foldedHash < 2 ^ bits) : foldHighBits bits fuel highBits foldedHash < 2 ^ bits := by
  induction fuel generalizing highBits foldedHash with
  | zero => exact h
  | succ fuel ih =>
    rw [foldHighBits]
    split
    · exact h
    · apply ih
      refine Nat.xor_lt_two_pow h ?_
      rw [Nat.and_two_pow_sub_one_eq_mod]
      exact Nat.mod_lt _ (Nat.two_pow_pos bits)

theorem bucketNumber_lt (bits : Nat) (hash : UInt32) : bucketNumber bits hash < 2 ^ bits := by
  refine foldHighBits_lt _ _ ?_
  rw [Nat.and_two_pow_sub_one_eq_mod]
  exact Nat.mod_lt _ (Nat.two_pow_pos bits)

/-! ## Growth -/

/-- The initial `mBucketBits`. -/
def initialBucketBits : Nat := 4

/-- The mean bucket has three entries or more. -/
def crowded (elements bits : Nat) : Bool := 3 ≤ elements / 2 ^ bits

/-- The loop of `resize` that looks for a number of bits. -/
def moreBits (elements : Nat) : Nat → Nat → Nat
  | 0, bits => bits
  | fuel + 1, bits => if crowded elements bits then moreBits elements fuel (bits + 1) else bits

/-- The bits that `resize` takes. -/
def newBucketBits (elements bits : Nat) : Nat := moreBits elements elements (bits + 1)

theorem not_crowded_moreBits (elements : Nat) {fuel bits : Nat} (h : elements ≤ fuel + bits) :
    crowded elements (moreBits elements fuel bits) = false := by
  induction fuel generalizing bits with
  | zero =>
    have hlt : elements < 2 ^ bits :=
      Nat.lt_of_lt_of_le Nat.lt_two_pow_self (Nat.pow_le_pow_right Nat.two_pos (by omega))
    rw [moreBits, crowded, Nat.div_eq_of_lt hlt]
    rfl
  | succ fuel ih =>
    rw [moreBits]
    split
    · exact ih (by omega)
    · next hmean => exact Bool.eq_false_iff.mpr hmean

theorem not_crowded_newBucketBits (elements bits : Nat) :
    crowded elements (newBucketBits elements bits) = false :=
  not_crowded_moreBits elements (Nat.le_add_right elements (bits + 1))

section Table

variable {α : Type*} (f : Filing α UInt32)

/-- The table with as many buckets as its entries ask for. -/
def resize (t : Table α) : Table α := t.refile f (newBucketBits t.elements t.bits)

/-- `resizeIfNeededAndSafe`; `isUnLinked` says that there are no iterators. -/
def resizeIfNeededAndSafe (isUnLinked : Bool) (t : Table α) : Table α :=
  if crowded t.elements t.bits && isUnLinked then resize f t else t

/-- The private `insert`, for an entry that is counted already. -/
def insertLink (isUnLinked : Bool) (t : Table α) (a : α) : Table α :=
  resizeIfNeededAndSafe f isUnLinked (t.file f a)

/-- An entry is counted and inserted. -/
def insertNew (isUnLinked : Bool) (t : Table α) (a : α) : Table α :=
  insertLink f isUnLinked { t with elements := t.elements + 1 } a

/-- An entry is detached and no longer counted. -/
def unlink [DecidableEq α] (t : Table α) (a : α) : Table α :=
  { t.detach f a with elements := t.elements - 1 }

/-- The entries are in their buckets, in order, and counted. -/
structure Sound (t : Table α) : Prop where
  filed : t.Filed f
  counted : t.Counted

variable {f} {t : Table α}

theorem sound_blank (bits : Nat) : Sound f (Table.blank 0 bits) where
  filed := Table.filed_blank 0 bits
  counted := by
    rw [Table.Counted, Table.content_blank]
    rfl

theorem content_resizeIfNeededAndSafe (hcounted : t.Counted) (isUnLinked : Bool) :
    (resizeIfNeededAndSafe f isUnLinked t).content = t.content := by
  rw [resizeIfNeededAndSafe]
  split
  · exact Table.content_refile hcounted _
  · rfl

theorem Sound.resizeIfNeededAndSafe (h : Sound f t) (isUnLinked : Bool) :
    Sound f (resizeIfNeededAndSafe f isUnLinked t) := by
  rw [UtlHash.resizeIfNeededAndSafe]
  split
  · refine ⟨Table.Filed.refile h.counted _, ?_⟩
    rw [Table.Counted, resize, Table.refile_elements t h.counted, Table.content_refile h.counted]
    exact h.counted
  · exact h

theorem sound_insertNew_of_file (h : Sound f t) (a : α) :
    Sound f ({ t with elements := t.elements + 1 }.file f a : Table α) := by
  have hfiled : Table.Filed f { t with elements := t.elements + 1 } :=
    ⟨h.filed.length_eq, h.filed.chain_eq, h.filed.sorted⟩
  refine ⟨hfiled.file a, ?_⟩
  rw [Table.Counted, hfiled.content_file, Multiset.card_cons]
  exact congrArg (· + 1) h.counted

theorem Sound.insertNew (h : Sound f t) (isUnLinked : Bool) (a : α) :
    Sound f (insertNew f isUnLinked t a) :=
  (sound_insertNew_of_file h a).resizeIfNeededAndSafe isUnLinked

theorem Sound.content_insertNew (h : Sound f t) (isUnLinked : Bool) (a : α) :
    (UtlHash.insertNew f isUnLinked t a).content = a ::ₘ t.content := by
  have hfiled : Table.Filed f { t with elements := t.elements + 1 } :=
    ⟨h.filed.length_eq, h.filed.chain_eq, h.filed.sorted⟩
  rw [UtlHash.insertNew, insertLink,
    content_resizeIfNeededAndSafe (sound_insertNew_of_file h a).counted, hfiled.content_file]
  rfl

theorem Sound.content_unlink [DecidableEq α] (h : Sound f t) {a : α} (ha : a ∈ t.content) :
    (UtlHash.unlink f t a).content = t.content.erase a := h.filed.content_detach ha

theorem Sound.unlink [DecidableEq α] (h : Sound f t) {a : α} (ha : a ∈ t.content) :
    Sound f (UtlHash.unlink f t a) := by
  have hfiled := h.filed.detach a
  refine ⟨⟨hfiled.length_eq, hfiled.chain_eq, hfiled.sorted⟩, ?_⟩
  rw [Table.Counted, h.content_unlink ha, Multiset.card_erase_of_mem ha, ← h.counted]
  rfl

theorem Sound.clear (h : Sound f t) : Sound f t.clear := by
  refine ⟨h.filed.clear h.counted, ?_⟩
  rw [Table.Counted, Table.content_clear h.counted]
  rfl

/-! ### Room -/

/-- The mean bucket has fewer than three entries, or iterators keep the table from growing. -/
def Roomy (t : Table α) (isUnLinked : Bool) : Prop :=
  isUnLinked = true → t.elements < 3 * 2 ^ t.bits

theorem crowded_eq_false_iff (elements bits : Nat) :
    crowded elements bits = false ↔ elements < 3 * 2 ^ bits := by
  rw [crowded, decide_eq_false_iff_not, Nat.not_le, Nat.div_lt_iff_lt_mul (Nat.two_pow_pos bits)]

theorem roomy_resizeIfNeededAndSafe (hcounted : t.Counted) (isUnLinked : Bool) :
    Roomy (resizeIfNeededAndSafe f isUnLinked t) isUnLinked := by
  intro hunlinked
  rw [← crowded_eq_false_iff, resizeIfNeededAndSafe]
  split
  · rw [resize, Table.refile_elements t hcounted, Table.refile_bits t hcounted]
    exact not_crowded_newBucketBits t.elements t.bits
  · next hsafe =>
      rw [hunlinked, Bool.and_true] at hsafe
      exact Bool.eq_false_iff.mpr hsafe

theorem Sound.roomy_insertNew (h : Sound f t) (isUnLinked : Bool) (a : α) :
    Roomy (UtlHash.insertNew f isUnLinked t a) isUnLinked :=
  roomy_resizeIfNeededAndSafe (sound_insertNew_of_file h a).counted isUnLinked

theorem Roomy.mono {t' : Table α} {isUnLinked : Bool} (h : Roomy t isUnLinked)
    (helements : t'.elements ≤ t.elements) (hbits : t'.bits = t.bits) : Roomy t' isUnLinked := by
  intro hunlinked
  rw [hbits]
  exact Nat.lt_of_le_of_lt helements (h hunlinked)

theorem roomy_blank (isUnLinked : Bool) :
    Roomy (Table.blank 0 initialBucketBits : Table α) isUnLinked :=
  fun _ => (by decide : 0 < 3 * 2 ^ initialBucketBits)

end Table

end UtlHash

end SipXRouter
