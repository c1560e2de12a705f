import SipXRouter.Bytes

/-!
# The digest

`NetMd5Codec` hashes the concatenation of its inputs and prints the result as 32
lower case hexadecimal digits.  The compression function itself plays no role in
the arguments made here: a digest is any function with results of that form, and
`Ideal` says that nothing else hashes to the digest of a signed text.

A function with so short results cannot be injective; `Ideal` asks for injectivity
only where it matters, on the texts that were signed.
-/

namespace SipXRouter

open List

/-- A digest with the results that `appendHashValue` prints. -/
structure NetMd5Codec where
  hash : Text → Text
  length_hash : ∀ x, (hash x).length = 32
  isHexLower_hash : ∀ x, ∀ c ∈ hash x, isHexLower c = true

namespace NetMd5Codec

/-- The codec is free of collisions as far as these texts go. -/
def Ideal (md5 : NetMd5Codec) (signed : List Text) : Prop :=
  ∀ s ∈ signed, ∀ x, md5.hash x = md5.hash s → x = s

/-- The digest of a text that has none in the table. -/
def unknown : Text := replicate 32 (byte '0')

section Table

variable (table : List (Text × Text))
  (htable : ∀ entry ∈ table, entry.2.length = 32 ∧ ∀ c ∈ entry.2, isHexLower c = true)

/-- A digest given by a table of texts and their digests. -/
def ofTable : NetMd5Codec where
  hash x := ((table.find? (·.1 == x)).map Prod.snd).getD unknown
  length_hash x := by
    cases hx : table.find? (·.1 == x) with
    | none => rfl
    | some entry => exact (htable _ (mem_of_find?_eq_some hx)).1
  isHexLower_hash x := by
    cases hx : table.find? (·.1 == x) with
    | none =>
      intro c hc
      rw [eq_of_mem_replicate (hc : c ∈ unknown)]
      decide
    | some entry => exact (htable _ (mem_of_find?_eq_some hx)).2

theorem ideal_ofTable (hknown : ∀ entry ∈ table, entry.2 ≠ unknown)
    (hinj : ∀ e ∈ table, ∀ e' ∈ table, e.2 = e'.2 → e.1 = e'.1)
    {signed : List Text} (hsigned : ∀ s ∈ signed, ∃ entry ∈ table, entry.1 = s) :
    (ofTable table htable).Ideal signed := by
  have hfound : ∀ s ∈ signed, ∃ entry ∈ table, entry.1 = s ∧
      table.find? (·.1 == s) = some entry := by
    intro s hs
    obtain ⟨entry, hentry, rfl⟩ := hsigned s hs
    cases hfind : table.find? (·.1 == entry.1) with
    | none => simpa using find?_eq_none.mp hfind entry hentry
    | some e =>
      exact ⟨e, mem_of_find?_eq_some hfind, by simpa using find?_some hfind, rfl⟩
  intro s hs x hx
  obtain ⟨entry, hentry, rfl, hfind⟩ := hfound s hs
  simp only [ofTable, hfind, Option.map_some, Option.getD_some] at hx
  cases hfindx : table.find? (·.1 == x) with
  | none =>
    rw [hfindx] at hx
    exact absurd hx.symm (hknown entry hentry)
  | some e =>
    rw [hfindx] at hx
    have hex : e.1 = x := by simpa using find?_some hfindx
    rw [← hex]
    exact hinj e (mem_of_find?_eq_some hfindx) entry hentry hx

end Table

theorem isHex_of_isHexLower {c : Byte} (hc : isHexLower c = true) : isHex c = true := by
  unfold isHexLower at hc
  unfold isHex
  rw [hc, Bool.true_or]

end NetMd5Codec

end SipXRouter
