import Mathlib.Data.List.Sort
import Mathlib.Data.Int.Order.Basic
import Mathlib.Order.Basic

/-!
# Three-way comparisons

A sorting routine takes a function that compares two entries and returns a number whose
sign tells their order.  The order that comes out is determined where the function gives
opposite signs for the two orders of its arguments and "not after" is transitive.

A comparison is ranked by a function into a linear order where "not after" is the order
of the ranks.  It is then transitive whatever it says about ties.
-/

namespace SipXRouter.Comparison

open List

variable {α ρ : Type*} [LinearOrder ρ]

/-- The comparison of two entries and that of the same entries the other way round have
opposite signs. -/
def OppositeSigns (cmp : α → α → Int) (a b : α) : Prop := (cmp b a).sign = -(cmp a b).sign

instance (cmp : α → α → Int) (a b : α) : Decidable (OppositeSigns cmp a b) :=
  inferInstanceAs (Decidable (_ = _))

/-- The comparison does not put an entry after another one exactly if its rank is not
above that of the other one. -/
def Ranked (cmp : α → α → Int) (rank : α → ρ) : Prop := ∀ a b, cmp a b ≤ 0 ↔ rank a ≤ rank b

/-- `ys` are the entries `xs` in an order that the comparison allows. -/
structure Arranged (cmp : α → α → Int) (xs ys : List α) : Prop where
  perm : ys.Perm xs
  inOrder : ys.Pairwise fun a b => cmp a b ≤ 0

/-- The two orders of the arguments give opposite signs, and "not after" is transitive. -/
structure TotalPreorder (cmp : α → α → Int) : Prop where
  opposite : ∀ a b, OppositeSigns cmp a b
  trans : ∀ {a b c}, cmp a b ≤ 0 → cmp b c ≤ 0 → cmp a c ≤ 0

/-- No entry is after a later one. -/
def InOrder (cmp : α → α → Int) (xs : List α) : Prop := xs.Pairwise fun a b => cmp a b ≤ 0

variable {cmp : α → α → Int} {rank : α → ρ} {xs ys zs : List α}

theorem OppositeSigns.le_zero_iff {a b : α} (h : OppositeSigns cmp a b) :
    cmp b a ≤ 0 ↔ 0 ≤ cmp a b := by
  rw [OppositeSigns] at h
  rw [← Int.sign_nonpos_iff, h, ← Int.sign_nonneg_iff]
  omega

theorem Ranked.trans (h : Ranked cmp rank) {a b c : α} (hab : cmp a b ≤ 0) (hbc : cmp b c ≤ 0) :
    cmp a c ≤ 0 :=
  (h a c).mpr (((h a b).mp hab).trans ((h b c).mp hbc))

theorem Ranked.exists_arranged (h : Ranked cmp rank) (xs : List α) : ∃ ys, Arranged cmp xs ys := by
  refine ⟨xs.mergeSort fun a b => decide (rank a ≤ rank b), mergeSort_perm _ _, ?_⟩
  have htrans : ∀ a b c, decide (rank a ≤ rank b) = true → decide (rank b ≤ rank c) = true →
      decide (rank a ≤ rank c) = true := by
    simpa using fun a b c => le_trans
  have htotal : ∀ a b, (decide (rank a ≤ rank b) || decide (rank b ≤ rank a)) = true := by
    simpa using fun a b => le_total (rank a) (rank b)
  refine (pairwise_mergeSort htrans htotal xs).imp fun {a b} hab => ?_
  exact (h a b).mpr (by simpa using hab)

theorem Arranged.pairwise_rank (h : Arranged cmp xs ys) (hrank : Ranked cmp rank) :
    ys.Pairwise fun a b => rank a ≤ rank b :=
  h.inOrder.imp fun {a b} hab => (hrank a b).mp hab

/-! ## Entries in order -/

theorem TotalPreorder.inOrder_insert (h : TotalPreorder cmp) {key : α} {before after : List α}
    (hxs : InOrder cmp (before ++ after)) (hbefore : ∀ a ∈ before, cmp a key < 0)
    (hafter : ∀ a ∈ after.head?, 0 ≤ cmp a key) : InOrder cmp (before ++ key :: after) := by
  obtain ⟨hb, ha, hab⟩ := pairwise_append.mp hxs
  refine pairwise_append.mpr ⟨hb, ?_, fun a hmem b hmem' => ?_⟩
  · refine pairwise_cons.mpr ⟨fun a hmem => ?_, ha⟩
    cases after with
    | nil => exact absurd hmem not_mem_nil
    | cons first rest =>
      have hfirst := (h.opposite first key).le_zero_iff.mpr (hafter first rfl)
      rcases mem_cons.mp hmem with rfl | hmem
      · exact hfirst
      · exact h.trans hfirst ((pairwise_cons.mp ha).1 a hmem)
  · rcases mem_cons.mp hmem' with rfl | hmem'
    · exact (hbefore a hmem).le
    · exact hab a hmem b hmem'

/-- The first place not below a key is the first place of the key, where it is there. -/
theorem TotalPreorder.findIdx?_eq (h : TotalPreorder cmp) {key : α} (hxs : InOrder cmp xs) :
    ((xs.findIdx? fun a => 0 ≤ cmp a key).filter fun i => xs[i]?.any fun a => cmp a key == 0) =
      xs.findIdx? fun a => cmp a key == 0 := by
  induction xs with
  | nil => rfl
  | cons a xs ih =>
    obtain ⟨hfirst, hrest⟩ := pairwise_cons.mp hxs
    rw [findIdx?_cons, findIdx?_cons]
    rcases Int.lt_trichotomy (cmp a key) 0 with hlt | heq | hgt
    · have hne : (cmp a key == 0) = false := by simp; omega
      have hnot : decide (0 ≤ cmp a key) = false := by simp; omega
      rw [hne, hnot, ← ih hrest]
      cases hfound : xs.findIdx? fun a => 0 ≤ cmp a key with
      | none => simp
      | some i => simp [Option.filter]
    · simp [heq]
    · have hge : decide (0 ≤ cmp a key) = true := by simp; omega
      have hne : (cmp a key == 0) = false := by simp; omega
      have hnone : xs.findIdx? (fun b => cmp b key == 0) = none := by
        rw [findIdx?_eq_none_iff]
        intro b hb
        have hab := hfirst b hb
        by_contra heq
        have hle := h.trans hab (le_of_eq (by simpa using heq))
        omega
      rw [hne, hge, hnone]
      simp [hne]
end SipXRouter.Comparison
