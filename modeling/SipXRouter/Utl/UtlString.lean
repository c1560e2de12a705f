import Mathlib.Data.List.Infix
import SipXRouter.Bytes

/-!
# Positions in a string

What the source does to a `UtlString` by positions: it looks for a text.
-/

namespace SipXRouter.UtlString

open List

/-- `UtlString::index`, the first position of a text. -/
def index (s searchString : Text) : Option Nat := s.tails.findIdx? searchString.isPrefixOf

theorem index_eq_some {s searchString : Text} {i : Nat} (h : index s searchString = some i) :
    ∃ pre post, s = pre ++ (searchString ++ post) ∧ pre.length = i := by
  obtain ⟨hlen, hprefix, -⟩ := findIdx?_eq_some_iff_getElem.mp h
  rw [length_tails] at hlen
  rw [getElem_tails, isPrefixOf_iff_prefix] at hprefix
  obtain ⟨post, hpost⟩ := hprefix
  refine ⟨s.take i, post, ?_, length_take_of_le (by omega)⟩
  rw [hpost, take_append_drop]

theorem exists_index {s searchString : Text} (h : searchString <:+: s) :
    ∃ i, index s searchString = some i := by
  obtain ⟨pre, post, rfl⟩ := h
  rw [← Option.isSome_iff_exists, index, findIdx?_isSome, any_eq_true]
  refine ⟨searchString ++ post, (mem_tails _ _).mpr ?_, ?_⟩
  · rw [append_assoc]
    exact suffix_append pre _
  · exact isPrefixOf_iff_prefix.mpr (prefix_append _ _)

theorem cString_append (a b : Text) :
    cString (a ++ b) = if a.contains 0 then cString a else a ++ cString b := by
  induction a with
  | nil => rfl
  | cons c a ih =>
    by_cases hc : c = 0
    · simp [cString, hc]
    · have hne : (0 : Byte) ≠ c := Ne.symm hc
      simp only [cString, cons_append, takeWhile_cons, bne_iff_ne, ne_eq, hc,
        not_false_eq_true, if_true, contains_cons, beq_eq_false_iff_ne.mpr hne,
        Bool.false_or] at ih ⊢
      rw [ih]
      split <;> rfl

end SipXRouter.UtlString
