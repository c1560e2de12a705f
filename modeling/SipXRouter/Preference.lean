import Mathlib.Data.List.Count
import Mathlib.Order.Basic

/-!
# Lists in the order of preference

Entries have values, and no entry stands in front of one with a greater value.  A new
entry goes in front of the first one with a smaller value, so that it comes behind those
of its own value.

Values need not be comparable: the order is only asked to be a preorder.
-/

namespace SipXRouter.Preference

open List

variable {α Q : Type*} [Preorder Q]

/-- No entry is followed by one with a greater value. -/
def NonIncreasing (q : α → Q) (xs : List α) : Prop := xs.Pairwise fun a b => ¬q a < q b

/-- The entry has a value that is equal to `v` in the order. -/
def hasValue [DecidableLE Q] (q : α → Q) (v : Q) (a : α) : Bool := decide (q a ≤ v ∧ v ≤ q a)

variable {q : α → Q} {x y : α} {xs : List α}

theorem NonIncreasing.not_le_of_mem {a b : α} (h : NonIncreasing q (a :: xs)) (ha : q a < q x)
    (hb : b ∈ a :: xs) : ¬q x ≤ q b := by
  intro hle
  rcases mem_cons.mp hb with rfl | hb
  · exact lt_irrefl _ (ha.trans_le hle)
  · exact (pairwise_cons.mp h).1 b hb (ha.trans_le hle)

variable [DecidableLT Q]

/-- The list with a new entry in front of the first one with a smaller value. -/
def insertBelow (q : α → Q) (x : α) (xs : List α) : List α :=
  xs.takeWhile (fun a => !decide (q a < q x)) ++ x :: xs.dropWhile fun a => !decide (q a < q x)

theorem insertBelow_cons_of_lt {a : α} (h : q a < q x) :
    insertBelow q x (a :: xs) = x :: a :: xs := by
  simp [insertBelow, h]

theorem insertBelow_cons_of_not_lt {a : α} (h : ¬q a < q x) :
    insertBelow q x (a :: xs) = a :: insertBelow q x xs := by
  simp [insertBelow, h]

theorem elim_findIdx?_insertIdx (x : α) (xs : List α) :
    (xs.findIdx? fun a => q a < q x).elim (xs ++ [x]) (fun i => xs.insertIdx i x) =
      insertBelow q x xs := by
  induction xs with
  | nil => rfl
  | cons a xs ih =>
    rw [findIdx?_cons]
    by_cases ha : q a < q x
    · simp [insertBelow_cons_of_lt, ha]
    · rw [insertBelow_cons_of_not_lt ha, ← ih]
      cases hfound : xs.findIdx? fun a => q a < q x with
      | none => simp [ha]
      | some i => simp [ha]

theorem insertBelow_perm : (insertBelow q x xs).Perm (x :: xs) := by
  have hsplit := takeWhile_append_dropWhile (p := fun a => !decide (q a < q x)) (l := xs)
  calc insertBelow q x xs
    _ |>.Perm (x :: (xs.takeWhile _ ++ xs.dropWhile _)) := perm_middle
    _ = x :: xs := by rw [hsplit]

@[simp] theorem mem_insertBelow : y ∈ insertBelow q x xs ↔ y = x ∨ y ∈ xs := by
  rw [insertBelow_perm.mem_iff, mem_cons]

theorem nodup_insertBelow (hx : x ∉ xs) (h : xs.Nodup) : (insertBelow q x xs).Nodup :=
  insertBelow_perm.nodup_iff.mpr (nodup_cons.mpr ⟨hx, h⟩)

/-- The order is kept. -/
theorem NonIncreasing.insertBelow (h : NonIncreasing q xs) :
    NonIncreasing q (insertBelow q x xs) := by
  induction xs with
  | nil => exact pairwise_singleton _ _
  | cons a xs ih =>
    obtain ⟨hfirst, hrest⟩ := pairwise_cons.mp h
    by_cases ha : q a < q x
    · rw [insertBelow_cons_of_lt ha]
      refine pairwise_cons.mpr ⟨fun b hb hlt => ?_, h⟩
      exact h.not_le_of_mem ha hb hlt.le
    · rw [insertBelow_cons_of_not_lt ha]
      refine pairwise_cons.mpr ⟨fun b hb => ?_, ih hrest⟩
      rcases mem_insertBelow.mp hb with rfl | hb
      · exact ha
      · exact hfirst b hb

theorem filter_insertBelow [DecidableLE Q] (h : NonIncreasing q xs) (v : Q) :
    (insertBelow q x xs).filter (hasValue q v) =
      xs.filter (hasValue q v) ++ [x].filter (hasValue q v) := by
  induction xs with
  | nil => rfl
  | cons a xs ih =>
    by_cases ha : q a < q x
    · rw [insertBelow_cons_of_lt ha, filter_cons]
      by_cases hx : hasValue q v x = true
      · have hnone : (a :: xs).filter (hasValue q v) = [] := by
          refine filter_eq_nil_iff.mpr fun b hb hv => ?_
          have hvb := (of_decide_eq_true hv).2
          exact h.not_le_of_mem ha hb ((of_decide_eq_true hx).1.trans hvb)
        rw [if_pos hx, hnone, nil_append, filter_cons_of_pos hx, filter_nil]
      · rw [if_neg hx, filter_cons_of_neg hx, filter_nil, append_nil]
    · rw [insertBelow_cons_of_not_lt ha, filter_cons, filter_cons,
        ih (pairwise_cons.mp h).2]
      split
      · rfl
      · rfl

/-! ## Many entries -/

/-- `ys` are the entries `xs`, with those of the same value in the same order. -/
structure Stable [DecidableLE Q] (q : α → Q) (xs ys : List α) : Prop where
  perm : ys.Perm xs
  filter : ∀ v, ys.filter (hasValue q v) = xs.filter (hasValue q v)

variable [DecidableLE Q] {ys : List α}

omit [DecidableLT Q] in
theorem Stable.refl (q : α → Q) (xs : List α) : Stable q xs xs := ⟨.refl xs, fun _ => rfl⟩

theorem Stable.insertBelow (h : Stable q xs ys) (hys : NonIncreasing q ys) (x : α) :
    Stable q (xs ++ [x]) (insertBelow q x ys) := by
  refine ⟨?_, fun v => ?_⟩
  · calc Preference.insertBelow q x ys
      _ |>.Perm (x :: ys) := insertBelow_perm
      _ |>.Perm (x :: xs) := h.perm.cons x
      _ |>.Perm (xs ++ [x]) := (perm_append_singleton x xs).symm
  · rw [filter_insertBelow hys, h.filter, filter_append]

end SipXRouter.Preference
