import SipXRouter.Bytes
import SipXRouter.Utl.UtlHashMap

/-!
# Strings as keys

The comparison of two strings ends at the first NUL; the hash is taken over all bytes.  A table
looks for the hash first, so that it finds an equal key only if it hashes equally.

## Design notes

A `char` has a sign, as on the platforms that the code is built for.
-/

namespace SipXRouter

open List

namespace UtlString

/-! ## Hash and comparison -/

/-- A `char` in a sum of `unsigned`s. -/
def charValue (c : Byte) : UInt32 := c.toInt8.toInt32.toUInt32

/-- `hash`: over `mSize` bytes. -/
def hash (s : Text) : UInt32 :=
  s.foldl (fun hashValue c => (hashValue <<< 5) - hashValue + charValue c) 0

/-- `strcmp` of two texts that end here. -/
def strcmp : Text → Text → Int
  | [], [] => 0
  | [], _ :: _ => -1
  | _ :: _, [] => 1
  | a :: s, b :: t => if a = b then strcmp s t else if a < b then -1 else 1

/-- `compareTo` of another string: its `data()` is compared as a C string. -/
def compareTo (s compareStr : Text) : Int := strcmp (cString s) (cString compareStr)

def isEqual (s t : Text) : Bool := compareTo s t == 0

theorem strcmp_eq_zero_iff {s t : Text} : strcmp s t = 0 ↔ s = t := by
  induction s generalizing t with
  | nil =>
    cases t with
    | nil => exact iff_of_true rfl rfl
    | cons b t => exact iff_of_false (by rw [strcmp]; decide) (cons_ne_nil b t).symm
  | cons a s ih =>
    cases t with
    | nil => exact iff_of_false (by rw [strcmp]; decide) (cons_ne_nil a s)
    | cons b t =>
      rw [strcmp, List.cons.injEq, ← ih]
      by_cases hab : a = b
      · rw [if_pos hab]
        exact (and_iff_right hab).symm
      · rw [if_neg hab]
        refine iff_of_false ?_ fun h => hab h.1
        split <;> decide

theorem isEqual_iff {s t : Text} : isEqual s t = true ↔ cString s = cString t := by
  rw [isEqual, beq_iff_eq, compareTo, strcmp_eq_zero_iff]

/-! ## Tables of strings -/

/-- The strings over a set of bytes. -/
abbrev Keys (S : Byte → Prop) := { s : Text // ∀ c ∈ s, S c }

/-- What the tables ask of a string. -/
def containable (S : Byte → Prop) : UtlContainable (Keys S) where
  hash s := hash s.1
  isEqual s t := isEqual s.1 t.1

/-- Equal strings hash equally, and whatever is done to a bag or a map, an element or a key that
is in it is found under every string that is equal to it. -/
structure FoundUnderEqual (S : Byte → Prop) (V : Type*) [DecidableEq V] : Prop where
  hash : ∀ s t : Keys S, isEqual s.1 t.1 = true → hash s.1 = hash t.1
  compareTo : ∀ s t : Keys S, compareTo s.1 t.1 = 0 → UtlString.hash s.1 = UtlString.hash t.1
  bag : ∀ (ops : List (UtlHashBag.Op (Keys S))),
    ∀ s ∈ (UtlHashBag.new.run (containable S) ops).1.contents, ∀ t : Keys S,
      isEqual s.1 t.1 = true →
        ((UtlHashBag.new.run (containable S) ops).1.find (containable S) t).isSome = true
  map : ∀ (ops : List (UtlHashMap.Op (Keys S) V)),
    ∀ e ∈ (UtlHashMap.new.run (containable S) ops).1.contents, ∀ t : Keys S,
      isEqual e.1.1 t.1 = true →
        ((UtlHashMap.new.run (containable S) ops).1.find (containable S) t).isSome = true

variable {S : Byte → Prop}

/-- Equality is one of C strings, so that only the hash is in question. -/
theorem lawful_of_congruent (h : (containable S).Congruent) : (containable S).Lawful where
  refl _ := isEqual_iff.mpr rfl
  symm h := isEqual_iff.mpr (isEqual_iff.mp h).symm
  trans h h' := isEqual_iff.mpr ((isEqual_iff.mp h).trans (isEqual_iff.mp h'))
  congruent := h

/-- The tables follow from the hash. -/
theorem foundUnderEqual_of_congruent {V : Type*} [DecidableEq V]
    (h : (containable S).Congruent) : FoundUnderEqual S V where
  hash := h
  compareTo s t hcompare := h s t (beq_iff_eq.mpr hcompare)
  bag ops s hs t hequal := by
    have hsound := (UtlHashBag.sound_new.run h ops).1
    have hcontains := (hsound.contains_iff h t).mpr ⟨s, hs, hequal⟩
    rw [UtlHashBag.find, Option.isSome_map]
    exact hcontains
  map ops e he t hequal := by
    have hlawful := lawful_of_congruent h
    have hrepresents := (UtlHashMap.represents_new.run hlawful ops).1
    rw [hrepresents.find_eq hlawful, Option.isSome_map,
      hrepresents.lists.eq_some_of_mem he hequal]
    rfl

/-! ## Where the hash agrees -/

theorem hash_of_forall_zero {s : Text} (h : ∀ c ∈ s, c = 0) : hash s = 0 := by
  rw [eq_replicate_of_mem h, hash]
  generalize s.length = n
  induction n with
  | zero => rfl
  | succ n ih =>
    rw [replicate_succ, foldl_cons]
    exact ih

theorem hash_append_zero_ne : ∀ c : Byte, c ≠ 0 → hash [c] ≠ hash [c, 0] := by
  decide +kernel

theorem congruent_iff : (containable S).Congruent ↔ ¬ S 0 ∨ ∀ c, S c → c = 0 := by
  constructor
  · intro h
    by_contra hnot
    rw [not_or, not_not, not_forall] at hnot
    obtain ⟨hzero, c, hc⟩ := hnot
    rw [Classical.not_imp] at hc
    obtain ⟨hc, hne⟩ := hc
    have hone : ∀ d ∈ [c], S d := by simpa using hc
    have htwo : ∀ d ∈ [c, 0], S d := by simpa using ⟨hc, hzero⟩
    refine hash_append_zero_ne c hne (h ⟨[c], hone⟩ ⟨[c, 0], htwo⟩ (isEqual_iff.mpr ?_))
    have hbyte : (c != 0) = true := bne_iff_ne.mpr hne
    show [c].takeWhile (· != 0) = [c, 0].takeWhile (· != 0)
    rw [takeWhile_cons_of_pos (p := (· != 0)) hbyte,
      takeWhile_cons_of_pos (p := (· != 0)) hbyte]
    rfl
  · rintro (hzero | hall) s t hequal
    · have hself : ∀ s : Keys S, cString s.1 = s.1 := fun s =>
        cString_of_notMem fun hc => hzero (s.2 0 hc)
      have heq : s.1 = t.1 := by
        rw [← hself s, ← hself t]
        exact isEqual_iff.mp hequal
      exact congrArg hash heq
    · show hash s.1 = hash t.1
      rw [hash_of_forall_zero fun c hc => hall c (s.2 c hc),
        hash_of_forall_zero fun c hc => hall c (t.2 c hc)]

/-- **Equal strings hash equally, and are found under each other**, if and only if the strings
have no NUL, or nothing else. -/
theorem foundUnderEqual_iff (S : Byte → Prop) (V : Type*) [DecidableEq V] :
    FoundUnderEqual S V ↔ ¬ S 0 ∨ ∀ c, S c → c = 0 :=
  ⟨fun h => congruent_iff.mp h.hash, fun h => foundUnderEqual_of_congruent (congruent_iff.mpr h)⟩

/-- A letter, and a letter and a NUL: equal, with two hashes, and the one is not found under the
other. -/
theorem not_foundUnderEqual_embeddedNul :
    isEqual (text "a") (text "a" ++ [0]) = true ∧ hash (text "a") ≠ hash (text "a" ++ [0]) ∧
      ¬ FoundUnderEqual (fun _ => True) Nat := by
  refine ⟨by decide, by decide, fun h => ?_⟩
  exact absurd (h.hash ⟨text "a", fun _ _ => trivial⟩ ⟨text "a" ++ [0], fun _ _ => trivial⟩
    (by decide)) (by decide)

end UtlString

end SipXRouter
