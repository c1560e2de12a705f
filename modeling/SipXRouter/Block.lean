import Mathlib.Data.List.Basic
import Mathlib.Tactic

/-!
# Blocks of memory

A block of memory is a list of cells.  Reading and writing a range of it is defined where
the range lies within the block.
-/

namespace SipXRouter.Block

open List

variable {α : Type*}

/-- The `length` cells from `pos` on. -/
def read (block : List α) (pos length : Nat) : Option (List α) :=
  if pos + length ≤ block.length then some ((block.drop pos).take length) else none

/-- A block with cells written from `pos` on. -/
def write (block : List α) (pos : Nat) (cells : List α) : Option (List α) :=
  if pos + cells.length ≤ block.length then
    some (block.take pos ++ cells ++ block.drop (pos + cells.length))
  else none

variable {block block' cells : List α} {pos length : Nat}

theorem read_of_le (h : pos + length ≤ block.length) :
    read block pos length = some ((block.drop pos).take length) := if_pos h

theorem length_of_read (h : read block pos length = some cells) : cells.length = length := by
  unfold read at h
  split at h
  · next hle =>
      cases h
      rw [length_take, length_drop]
      omega
  · exact absurd h (by simp)

theorem exists_read (block : List α) (pos length : Nat) (h : pos + length ≤ block.length) :
    ∃ cells, read block pos length = some cells ∧ cells.length = length :=
  ⟨_, read_of_le h, length_of_read (read_of_le h)⟩

theorem length_write (h : write block pos cells = some block') : block'.length = block.length := by
  unfold write at h
  split at h
  · next hle =>
      cases h
      simp only [length_append, length_take, length_drop]
      omega
  · exact absurd h (by simp)

theorem exists_write (block : List α) (pos : Nat) (cells : List α)
    (h : pos + cells.length ≤ block.length) :
    ∃ block', write block pos cells = some block' ∧ block'.length = block.length := by
  have hwrite : write block pos cells = some _ := if_pos h
  exact ⟨_, hwrite, length_write hwrite⟩

theorem isSome_write_iff : (write block pos cells).isSome ↔ pos + cells.length ≤ block.length := by
  unfold write
  split
  · next hle => exact iff_of_true rfl hle
  · next hle => exact iff_of_false Bool.false_ne_true hle

theorem getElem?_write (h : write block pos cells = some block') (i : Nat) :
    block'[i]? = if pos ≤ i ∧ i < pos + cells.length then cells[i - pos]? else block[i]? := by
  unfold write at h
  split at h
  · next hle =>
      cases h
      have hfront : (block.take pos).length = pos := by
        rw [length_take]
        omega
      by_cases hbefore : i < pos
      · rw [if_neg (by omega), append_assoc, getElem?_append_left (by omega),
          getElem?_take_of_lt hbefore]
      · rw [append_assoc, getElem?_append_right (by omega), hfront]
        by_cases hwithin : i < pos + cells.length
        · rw [if_pos ⟨by omega, hwithin⟩, getElem?_append_left (by omega)]
        · rw [if_neg (by omega), getElem?_append_right (by omega), getElem?_drop]
          congr 1
          omega
  · exact absurd h (by simp)

/-- A single cell written. -/
theorem getElem?_write_self {a : α} (h : write block pos [a] = some block') :
    block'[pos]? = some a := by
  rw [getElem?_write h, if_pos ⟨le_refl pos, by simp⟩]
  simp

end SipXRouter.Block
