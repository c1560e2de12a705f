import Mathlib.Data.List.Basic
import Mathlib.Data.List.Nodup
import Mathlib.Tactic

/-!
# Lists of lists, read by a flat index and written by a row index

A sequence of values may be laid out in rows.  A program that reads value number
`q` of the sequence but writes row number `q` as a whole is right where value `q`
is all that row `q` holds, and where it is not it replaces other values or leaves
the one it meant in place.
-/

namespace SipXRouter

open List

namespace Layout

variable {α : Type*} {q : Nat} {rows : List (List α)} {xs : List α}

/-- Row number `q` holds one value, and `q` values stand in the rows before it. -/
def AlignedAt (rows : List (List α)) (q : Nat) : Prop :=
  ((rows.map length).take q).sum = q ∧ (rows.map length)[q]? = some 1

instance (rows : List (List α)) (q : Nat) : Decidable (AlignedAt rows q) :=
  inferInstanceAs (Decidable (_ ∧ _))

/-- Replace row `q` by one value, or add a row where there is none. -/
def putRow (rows : List (List α)) (q : Nat) (x : α) : List (List α) :=
  if q < rows.length then rows.set q [x] else rows ++ [[x]]

/-- Write one place after the other, each with a function of the value read there. -/
def rewriteAll (f : Option α → α) (places : List Nat) (rows : List (List α)) : List (List α) :=
  places.foldl (fun rows q => putRow rows q (f rows.flatten[q]?)) rows

/-- The sequence with the values at some places rewritten. -/
def rewritten (f : α → α) (places : List Nat) (xs : List α) : List α :=
  xs.mapIdx fun i x => if i ∈ places then f x else x

@[simp] theorem length_rewritten (f : α → α) (places : List Nat) (xs : List α) :
    (rewritten f places xs).length = xs.length := by
  simp [rewritten]

theorem getElem?_rewritten (f : α → α) (places : List Nat) (xs : List α) (i : Nat) :
    (rewritten f places xs)[i]? = xs[i]?.map fun x => if i ∈ places then f x else x := by
  simp [rewritten, getElem?_mapIdx]

@[simp] theorem rewritten_nil (f : α → α) (xs : List α) : rewritten f [] xs = xs := by
  refine ext_getElem? fun i => ?_
  rw [getElem?_rewritten]
  simp

/-- The places of the values of a kind, from number `n` on. -/
def placesFrom (p : α → Bool) : Nat → List α → List Nat
  | _, [] => []
  | n, x :: xs => if p x then n :: placesFrom p (n + 1) xs else placesFrom p (n + 1) xs

theorem le_of_mem_placesFrom {p : α → Bool} {n : Nat} (hq : q ∈ placesFrom p n xs) : n ≤ q := by
  induction xs generalizing n with
  | nil => simp [placesFrom] at hq
  | cons x xs ih =>
    rw [placesFrom] at hq
    split at hq
    · rcases mem_cons.mp hq with rfl | hq
      · exact le_rfl
      · exact Nat.le_of_succ_le (ih hq)
    · exact Nat.le_of_succ_le (ih hq)

theorem lt_of_mem_placesFrom {p : α → Bool} {n : Nat}
    (hq : q ∈ placesFrom p n xs) : q < n + xs.length := by
  induction xs generalizing n with
  | nil => simp [placesFrom] at hq
  | cons x xs ih =>
    rw [placesFrom] at hq
    rw [length_cons]
    split at hq
    · rcases mem_cons.mp hq with rfl | hq
      · omega
      · have := ih hq
        omega
    · have := ih hq
      omega

theorem placesFrom_eq_nil {p : α → Bool} (hnone : ∀ x ∈ xs, p x = false) (n : Nat) :
    placesFrom p n xs = [] := by
  induction xs generalizing n with
  | nil => rfl
  | cons x xs ih =>
    rw [placesFrom, if_neg (by simp [hnone x]), ih fun y hy => hnone y (by simp [hy])]

theorem mem_placesFrom {p : α → Bool} {i : Nat} {x : α} (hx : xs[i]? = some x)
    (n : Nat) : n + i ∈ placesFrom p n xs ↔ p x = true := by
  induction xs generalizing n i with
  | nil => simp at hx
  | cons y ys ih =>
    cases i with
    | zero =>
      obtain rfl : y = x := by simpa using hx
      have hlater : n ∉ placesFrom p (n + 1) ys := fun hmem =>
        Nat.not_succ_le_self n (le_of_mem_placesFrom hmem)
      by_cases hy : p y = true <;> simp [placesFrom, hy, hlater]
    | succ i =>
      have hrest := ih (by simpa using hx) (n + 1)
      rw [Nat.add_right_comm, Nat.add_assoc] at hrest
      by_cases hy : p y = true <;> simp [placesFrom, hy, hrest]

theorem nodup_placesFrom (p : α → Bool) (n : Nat) (xs : List α) : (placesFrom p n xs).Nodup := by
  induction xs generalizing n with
  | nil => simp [placesFrom]
  | cons x xs ih =>
    rw [placesFrom]
    split
    · refine nodup_cons.mpr ⟨fun hmem => ?_, ih _⟩
      exact Nat.not_succ_le_self n (le_of_mem_placesFrom hmem)
    · exact ih _

theorem AlignedAt.split (h : AlignedAt rows q) :
    ∃ front x back, rows = front ++ [x] :: back ∧ front.length = q ∧ front.flatten.length = q := by
  obtain ⟨hsum, hone⟩ := h
  rw [getElem?_map, Option.map_eq_some_iff] at hone
  obtain ⟨row, hrow, hlen⟩ := hone
  obtain ⟨x, rfl⟩ := length_eq_one_iff.mp hlen
  obtain ⟨hq, hget⟩ := List.getElem?_eq_some_iff.mp hrow
  refine ⟨rows.take q, x, rows.drop (q + 1), ?_, by simp [Nat.le_of_lt hq], ?_⟩
  · rw [← hget, ← drop_eq_getElem_cons hq, take_append_drop]
  · rw [length_flatten, map_take, hsum]

theorem AlignedAt.lt_length (h : AlignedAt rows q) : q < rows.length := by
  obtain ⟨front, x, back, rfl, hlen, -⟩ := h.split
  simp [hlen]

/-- The value that stands alone in row `q` is value number `q`. -/
theorem AlignedAt.getElem? (h : AlignedAt rows q) :
    ∃ x, rows[q]? = some [x] ∧ rows.flatten[q]? = some x := by
  obtain ⟨front, x, back, rfl, hlen, hflat⟩ := h.split
  refine ⟨x, ?_, ?_⟩
  · simp [← hlen]
  · rw [flatten_append, flatten_cons, getElem?_append_right (by omega), hflat]
    simp

theorem flatten_putRow (h : AlignedAt rows q) (y : α) :
    (putRow rows q y).flatten = rows.flatten.set q y := by
  rw [putRow, if_pos h.lt_length]
  obtain ⟨front, x, back, rfl, hlen, hflat⟩ := h.split
  have hset : (front ++ [x] :: back).set q [y] = front ++ [y] :: back := by
    rw [set_append_right _ _ (by omega), hlen]
    simp
  rw [hset, flatten_append, flatten_append, flatten_cons, flatten_cons,
    set_append_right _ _ (by omega), hflat]
  simp

theorem lengths_putRow (h : AlignedAt rows q) (y : α) :
    (putRow rows q y).map length = rows.map length := by
  rw [putRow, if_pos h.lt_length]
  obtain ⟨front, x, back, rfl, hlen, -⟩ := h.split
  rw [set_append_right _ _ (by omega), hlen]
  simp

theorem alignedAt_putRow (h : AlignedAt rows q) (y : α)
    (r : Nat) : AlignedAt (putRow rows q y) r ↔ AlignedAt rows r := by
  rw [AlignedAt, AlignedAt, lengths_putRow h]

theorem rewritten_set {f : α → α} {places : List Nat} (hq : q ∉ places) {x : α}
    (hx : xs[q]? = some x) :
    rewritten f places (xs.set q (f x)) = rewritten f (q :: places) xs := by
  refine ext_getElem? fun i => ?_
  rw [getElem?_rewritten, getElem?_rewritten, getElem?_set]
  by_cases hi : q = i
  · subst hi
    obtain ⟨hlt, hget⟩ := List.getElem?_eq_some_iff.mp hx
    simp [hq, hlt, hget]
  · have hne : i ≠ q := fun h => hi h.symm
    simp [hi, hne]

theorem rewritten_placesFrom (f : α → α) (p : α → Bool) (xs rest : List α) :
    rewritten f (placesFrom p 0 xs) (xs ++ rest) =
      (xs.map fun x => if p x then f x else x) ++ rest := by
  refine ext_getElem? fun i => ?_
  rw [getElem?_rewritten]
  by_cases hi : i < xs.length
  · have hget : xs[i]? = some xs[i] := getElem?_eq_getElem hi
    have hplace := mem_placesFrom (p := p) hget 0
    rw [Nat.zero_add] at hplace
    rw [getElem?_append_left hi, getElem?_append_left (by simpa using hi),
      getElem?_map, hget]
    simp only [Option.map_some, hplace]
  · have hplace : i ∉ placesFrom p 0 xs := fun hmem => hi (by
      have := lt_of_mem_placesFrom hmem
      omega)
    have hle := Nat.not_lt.mp hi
    rw [getElem?_append_right hle, getElem?_append_right (by simpa using hle),
      length_map]
    simp only [hplace, if_false, Option.map_id']

/-- **Writing by row.**  Where every place to be written is aligned, writing row by
row rewrites the sequence at these places. -/
theorem flatten_rewriteAll (f : Option α → α) :
    ∀ (places : List Nat) (rows : List (List α)), places.Nodup → (∀ q ∈ places, AlignedAt rows q) →
      (rewriteAll f places rows).flatten = rewritten (fun x => f (some x)) places rows.flatten := by
  intro places
  induction places with
  | nil => intro rows _ _; simp [rewriteAll]
  | cons q places ih =>
    intro rows hnodup haligned
    obtain ⟨hq, hnodup⟩ := nodup_cons.mp hnodup
    obtain ⟨hhead, htail⟩ := forall_mem_cons.mp haligned
    obtain ⟨x, -, hx⟩ := hhead.getElem?
    have hrest := ih (putRow rows q (f (some x))) hnodup
      (fun r hr => (alignedAt_putRow hhead _ r).mpr (htail r hr))
    calc (rewriteAll f (q :: places) rows).flatten
        = (rewriteAll f places (putRow rows q (f (some x)))).flatten := by
          rw [rewriteAll, foldl_cons, hx]
          rfl
      _ = rewritten (fun x => f (some x)) places (rows.flatten.set q (f (some x))) := by
          rw [hrest, flatten_putRow hhead]
      _ = rewritten (fun x => f (some x)) (q :: places) rows.flatten := rewritten_set hq hx

end Layout

end SipXRouter
