import Mathlib.Data.List.Basic

/-!
# Searches that may break off

A loop over a list that stops at its first result, where looking at an entry may
break off the whole search.  What is found and what is looked at on the way are kept
apart: `Reads` says of one entry that it gives a result, which may be that there is
nothing, or breaks off at one of the things looked at.  Nested loops are nested
searches, and `Reads.first` takes the statement from the entries to the loop.
-/

namespace SipXRouter.Search

open List

variable {α β γ : Type}

/-- The first result for the entries of a list; `none` is a search that broke off. -/
def first (f : α → Option (Option β)) : List α → Option (Option β)
  | [] => some none
  | a :: as =>
    match f a with
    | none => none
    | some (some b) => some (some b)
    | some none => first f as

/-- A search behind a test, which may break off as well. -/
def guarded (test : Option Bool) (search : Option (Option β)) : Option (Option β) :=
  match test with
  | none => none
  | some false => some none
  | some true => search

/-- What is looked at in a search: all of each entry, up to the first result. -/
def visited (looks : α → List γ) (found : α → Option β) : List α → List γ
  | [] => []
  | a :: as => looks a ++ if (found a).isSome then [] else visited looks found as

/-- What `f` does for an entry: it breaks off if something it looks at is not as it
should be, and else its result is that of `found`. -/
structure Reads (Sound : γ → Prop) (f : α → Option (Option β)) (found : α → Option β)
    (looks : α → List γ) : Prop where
  some_of : ∀ a, (∀ c ∈ looks a, Sound c) → f a = some (found a)
  none_of : ∀ a, (∃ c ∈ looks a, ¬ Sound c) → f a = none

namespace Reads

variable {Sound : γ → Prop} {f : α → Option (Option β)} {found : α → Option β}
  {looks : α → List γ}

/-- A loop over entries. -/
theorem first (h : Reads Sound f found looks) :
    Reads Sound (first f) (findSome? found) (visited looks found) where
  some_of := by
    intro as
    induction as with
    | nil => intro _; rfl
    | cons a as ih =>
      intro hsound
      rw [visited, forall_mem_append] at hsound
      rw [Search.first, h.some_of a hsound.1, findSome?_cons]
      cases hfound : found a with
      | some b => rfl
      | none =>
        refine ih ?_
        simpa [hfound] using hsound.2
  none_of := by
    intro as
    induction as with
    | nil => rintro ⟨c, hc, -⟩; exact absurd hc not_mem_nil
    | cons a as ih =>
      rintro ⟨c, hc, hbad⟩
      rw [Search.first]
      by_cases hhead : ∃ d ∈ looks a, ¬ Sound d
      · rw [h.none_of a hhead]
      · have hsound : ∀ d ∈ looks a, Sound d := by
          intro d hd
          by_contra hd'
          exact hhead ⟨d, hd, hd'⟩
        rw [h.some_of a hsound]
        rw [visited, mem_append] at hc
        rcases hc with hc | hc
        · exact absurd ⟨c, hc, hbad⟩ hhead
        · cases hfound : found a with
          | some b => simp [hfound] at hc
          | none => exact ih ⟨c, by simpa [hfound] using hc, hbad⟩

/-- A search under a test reads what the test looks at, and then its own part. -/
theorem guarded {test : α → Option Bool} (htest : ∀ a, (test a).isSome ↔ ∀ c ∈ looks a, Sound c)
    {search : Option (Option β)} {b : Option β} {more : List γ}
    (hsome : (∀ c ∈ more, Sound c) → search = some b)
    (hnone : (∃ c ∈ more, ¬ Sound c) → search = none) :
    Reads Sound (fun a => guarded (test a) search) (fun a => if test a = some true then b else none)
      fun a => looks a ++ if test a = some true then more else [] where
  some_of := by
    intro a hsound
    rw [forall_mem_append] at hsound
    obtain ⟨result, hresult⟩ := Option.isSome_iff_exists.mp ((htest a).mpr hsound.1)
    simp only [hresult] at hsound ⊢
    cases result with
    | false => rfl
    | true => exact hsome hsound.2
  none_of := by
    rintro a ⟨c, hc, hbad⟩
    cases hresult : test a with
    | none => rfl
    | some result =>
      have hsound := (htest a).mp (by rw [hresult]; rfl)
      rw [hresult] at hc
      rcases mem_append.mp hc with hc | hc
      · exact absurd (hsound c hc) hbad
      · cases result with
        | false => exact absurd hc not_mem_nil
        | true => exact hnone ⟨c, hc, hbad⟩

theorem tested {test : α → Option Bool} (htest : ∀ a, (test a).isSome ↔ ∀ c ∈ looks a, Sound c)
    (b : β) : Reads Sound (fun a => Search.guarded (test a) (some (some b)))
      (fun a => if test a = some true then some b else none) looks := by
  have h := guarded htest (fun _ : ∀ c ∈ [], Sound c => (rfl : some (some b) = some (some b)))
    fun ⟨_, hc, _⟩ => absurd hc not_mem_nil
  simpa only [ite_self, append_nil] using h

end Reads

theorem find?_flatMap_filter (p : α → Bool) (g : α → List β) (q : β → Bool) (as : List α) :
    ((as.filter p).flatMap g).find? q =
      as.findSome? fun a => if p a then (g a).find? q else none := by
  induction as with
  | nil => rfl
  | cons a as ih =>
    by_cases hp : p a = true
    · rw [filter_cons_of_pos hp, flatMap_cons, find?_append, ih,
        findSome?_cons, if_pos hp]
      cases (g a).find? q <;> rfl
    · rw [filter_cons_of_neg hp, ih, findSome?_cons, if_neg hp]

/-- The same thing is found at each entry that passes a test. -/
theorem findSome?_ite (p : α → Prop) [DecidablePred p] (b : Option β) (as : List α) :
    (as.findSome? fun a => if p a then b else none) = if as.any p then b else none := by
  induction as with
  | nil => rfl
  | cons a as ih =>
    rw [findSome?_cons, ih, any_cons]
    by_cases hp : p a
    · cases b <;> simp [hp]
    · simp [hp]

end SipXRouter.Search
