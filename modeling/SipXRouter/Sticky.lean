import Mathlib.Data.List.Basic

/-!
# Searches with a flag that is left standing

A loop that looks at one entry after another, keeps a flag from each to the next, and
searches behind an entry when the flag says so.  It stops at the first result, and
looking at an entry or searching behind it may break the loop off.

An entry matches on its own if it does so with a flag that was not set before.  What
such a loop should find is the first result behind an entry that matches on its own.  It
does so exactly when no entry with a result stands behind one that leaves the flag set for
it, unless an entry before both of them gives the result; this speaks of what each entry
does on its own and not of the loop.
-/

namespace SipXRouter.Sticky

open List

variable {α β γ : Type*}

/-- What a loop does: the flag after an entry, whether the search behind the entry is
made, and its result.  The flag is only ever in favour of the search and of itself. -/
structure Loop (α β : Type*) where
  next : α → Bool → Option Bool
  fires : α → Bool → Bool
  search : α → Option (Option β)
  next_of_next : ∀ a, next a false = some true → next a true = some true
  fires_of_own : ∀ a flag flag', (next a false).any (fires a) = true →
    next a flag = some flag' → fires a flag' = true

variable {a : α} {as earlier : List α} {b : β} {flag flag' : Bool}

namespace Loop

variable (l : Loop α β)

/-- The entry matches on its own. -/
def own (a : α) : Bool := (l.next a false).any (l.fires a)

/-- The loop: the flag at its end, and the first result with its entry. -/
def scan : Bool → List α → Option (Bool × Option (α × β))
  | flag, [] => some (flag, none)
  | flag, a :: as =>
    match l.next a flag with
    | none => none
    | some flag' =>
      if l.fires a flag' then
        match l.search a with
        | none => none
        | some (some b) => some (flag', some (a, b))
        | some none => scan flag' as
      else scan flag' as

/-- The loop over lists of entries, one list after another. -/
def scanAll (entries : γ → List α) : Bool → List γ → Option (Bool × Option (α × β))
  | flag, [] => some (flag, none)
  | flag, c :: cs =>
    match l.scan flag (entries c) with
    | none => none
    | some (flag', some found) => some (flag', some found)
    | some (flag', none) => scanAll entries flag' cs

/-- What should be found: the first result behind an entry that matches on its own. -/
def firstOwn (found : α → Option β) (as : List α) : Option (α × β) :=
  as.findSome? fun a => if l.own a then (found a).map (a, ·) else none

/-- The last of the entries that sets the flag or takes it back has set it. -/
def LeftStanding (as : List α) : Prop :=
  ∃ before a behind, as = before ++ a :: behind ∧ l.next a false = some true ∧
    ∀ a' ∈ behind, l.next a' true = some true

/-- The entry `a` behind `earlier`, where it matches on its own, is good; and where only
the flag that `earlier` leaves standing speaks for it, it has no result either. -/
structure IsUnmixed (found : α → Option β) (good : α → Prop) (earlier : List α) (a : α) :
    Prop where
  own : l.own a = true → good a
  left : l.own a = false → l.LeftStanding earlier → (l.next a true).any (l.fires a) = true →
    good a ∧ found a = none

/-- No result of an entry comes from a flag left standing, among those before which no
entry that matches on its own has one. -/
def Unmixed (found : α → Option β) (good : α → Prop) (as : List α) : Prop :=
  ∀ earlier a later, as = earlier ++ a :: later →
    (∀ a' ∈ earlier, l.own a' = true → found a' = none) → l.IsUnmixed found good earlier a

/-- A scan of two lists is that of the first and, with its flag, that of the second. -/
theorem scan_append (flag : Bool) (as as' : List α) :
    l.scan flag (as ++ as') =
      match l.scan flag as with
      | none => none
      | some (flag', some found) => some (flag', some found)
      | some (flag', none) => l.scan flag' as' := by
  induction as generalizing flag with
  | nil => rfl
  | cons a as ih =>
    rw [cons_append, scan, scan]
    cases l.next a flag with
    | none => rfl
    | some flag' =>
      dsimp only
      split
      · cases l.search a with
        | none => rfl
        | some result =>
          cases result with
          | none => exact ih flag'
          | some b => rfl
      · exact ih flag'

theorem scanAll_eq (entries : γ → List α) (flag : Bool) (cs : List γ) :
    l.scanAll entries flag cs = l.scan flag (cs.flatMap entries) := by
  induction cs generalizing flag with
  | nil => rfl
  | cons c cs ih =>
    rw [scanAll, flatMap_cons, scan_append]
    cases l.scan flag (entries c) with
    | none => rfl
    | some result =>
      obtain ⟨flag', found⟩ := result
      cases found with
      | none => exact ih flag'
      | some found => rfl

variable {l} {good : α → Prop} {found : α → Option β}

theorem own_of_mem_firstOwn (h : l.firstOwn found as = some (a, b)) :
    l.own a = true ∧ found a = some b := by
  obtain ⟨a', -, ha'⟩ := exists_of_findSome?_eq_some h
  split at ha'
  · next hown =>
      obtain ⟨b', hb', heq⟩ := Option.map_eq_some_iff.mp ha'
      obtain ⟨rfl, rfl⟩ := Prod.mk.inj heq
      exact ⟨hown, hb'⟩
  · simp at ha'

/-- An entry that gives nothing is passed over. -/
theorem firstOwn_cons_of_none (h : l.own a = true → found a = none) (as : List α) :
    l.firstOwn found (a :: as) = l.firstOwn found as := by
  rw [firstOwn, findSome?_cons]
  split
  · next hsome =>
      split at hsome
      · next hown => rw [h hown] at hsome; simp at hsome
      · simp at hsome
  · rfl

/-- The search finds what the scan finds. -/
theorem search_of_scan
    (h : l.scan flag as = some (flag', some (a, b))) : l.search a = some (some b) := by
  induction as generalizing flag with
  | nil => simp [scan] at h
  | cons a' as ih =>
    rw [scan] at h
    cases hnext : l.next a' flag with
    | none => simp [hnext] at h
    | some flag'' =>
      simp only [hnext] at h
      split at h
      · cases hsearch : l.search a' with
        | none => simp [hsearch] at h
        | some found =>
          cases found with
          | none => exact ih (by simpa [hsearch] using h)
          | some b' =>
            simp only [hsearch, Option.some_inj, Prod.mk.injEq] at h
            obtain ⟨-, rfl, rfl⟩ := h
            exact hsearch
      · exact ih h

/-- A loop that comes to its end has passed over nothing. -/
theorem firstOwn_of_scan (hnone : ∀ a, l.search a = some none → found a = none)
    (h : l.scan flag as = some (flag', none)) :
    l.firstOwn found as = none := by
  induction as generalizing flag with
  | nil => rfl
  | cons a as ih =>
    rw [scan] at h
    cases hnext : l.next a flag with
    | none => simp [hnext] at h
    | some flag'' =>
      simp only [hnext] at h
      by_cases hfires : l.fires a flag'' = true
      · rw [if_pos hfires] at h
        cases hsearch : l.search a with
        | none => simp [hsearch] at h
        | some result =>
          cases result with
          | some b => simp [hsearch] at h
          | none =>
            rw [firstOwn_cons_of_none fun _ => hnone a hsearch]
            exact ih (by simpa [hsearch] using h)
      · have hown : l.own a = true → found a = none := fun hown =>
          absurd (l.fires_of_own a flag flag'' hown hnext) hfires
        rw [if_neg hfires] at h
        rw [firstOwn_cons_of_none hown]
        exact ih h

theorem leftStanding_concat : l.LeftStanding (as ++ [a]) ↔
    l.next a false = some true ∨ l.LeftStanding as ∧ l.next a true = some true := by
  constructor
  · rintro ⟨before, a', behind, heq, hset, hkeep⟩
    rcases eq_nil_or_concat behind with rfl | ⟨behind, last, rfl⟩
    · obtain ⟨-, hlast⟩ := append_inj' heq rfl
      obtain rfl := (List.cons.inj hlast).1
      exact Or.inl hset
    · rw [concat_eq_append, ← cons_append, ← append_assoc] at heq
      obtain ⟨rfl, hlast⟩ := append_inj' heq rfl
      obtain rfl := (List.cons.inj hlast).1
      exact Or.inr ⟨⟨before, a', behind, rfl, hset, fun x hx => hkeep x (by simp [hx])⟩,
        hkeep a (by simp)⟩
  · rintro (hset | ⟨⟨before, a', behind, rfl, hset, hkeep⟩, hlast⟩)
    · exact ⟨as, a, [], rfl, hset, by simp⟩
    · refine ⟨before, a', behind ++ [a], by simp, hset, fun x hx => ?_⟩
      rcases mem_append.mp hx with hx | hx
      · exact hkeep x hx
      · rwa [mem_singleton.mp hx]

/-- The flag that the loop carries is the one that is left standing. -/
theorem leftStanding_concat_iff
    (hflag : flag = true ↔ l.LeftStanding as) (hnext : l.next a flag = some flag') :
    flag' = true ↔ l.LeftStanding (as ++ [a]) := by
  rw [leftStanding_concat, ← hflag]
  cases flag with
  | false => simp [hnext]
  | true =>
    rw [hnext]
    simp only [Option.some_inj, true_and]
    refine ⟨Or.inr, fun h => h.elim (fun hset => ?_) id⟩
    simpa [hnext] using l.next_of_next a hset

/-- The entries `as`, behind `earlier`. -/
def UnmixedBehind (l : Loop α β) (found : α → Option β) (good : α → Prop)
    (earlier as : List α) : Prop :=
  ∀ between a later, as = between ++ a :: later →
    (∀ a' ∈ earlier ++ between, l.own a' = true → found a' = none) →
    l.IsUnmixed found good (earlier ++ between) a

/-- An entry that is passed over. -/
theorem unmixedBehind_cons (h : l.IsUnmixed found good earlier a) :
    l.UnmixedBehind found good earlier (a :: as) ↔
      l.UnmixedBehind found good (earlier ++ [a]) as := by
  constructor
  · intro hall between a' later heq hpassed
    have happend : earlier ++ [a] ++ between = earlier ++ a :: between := by simp
    rw [happend] at hpassed ⊢
    exact hall (a :: between) a' later (congrArg (a :: ·) heq) hpassed
  · intro hall between a' later heq hpassed
    cases between with
    | nil =>
      obtain ⟨rfl, -⟩ := List.cons.inj heq
      rwa [append_nil]
    | cons first between =>
      obtain ⟨rfl, htail⟩ := List.cons.inj heq
      have happend : earlier ++ a :: between = earlier ++ [a] ++ between := by simp
      rw [happend] at hpassed ⊢
      exact hall between a' later htail hpassed

/-- The entry at which the loop ends. -/
theorem unmixedBehind_found
    (hgood : good a ↔ found a = some b) (hflag : flag = true ↔ l.LeftStanding earlier)
    (hpassed : ∀ a' ∈ earlier, l.own a' = true → found a' = none)
    (hnext : l.next a flag = some flag') (hfires : l.fires a flag' = true) :
    l.UnmixedBehind found good earlier (a :: as) ↔ some (a, b) = l.firstOwn found (a :: as) := by
  have hhead : l.UnmixedBehind found good earlier (a :: as) → l.IsUnmixed found good earlier a :=
    fun hall => by simpa using hall [] a as rfl (by simpa using hpassed)
  by_cases hown : l.own a = true
  · constructor
    · intro hall
      rw [firstOwn, findSome?_cons, if_pos hown, hgood.mp ((hhead hall).own hown)]
      rfl
    · intro hfirst between a' later heq hpassed'
      have hfound := (own_of_mem_firstOwn hfirst.symm).2
      cases between with
      | nil =>
        obtain ⟨rfl, -⟩ := List.cons.inj heq
        exact ⟨fun _ => hgood.mpr hfound, fun hnot => absurd hown (by simp [hnot])⟩
      | cons first between =>
        obtain ⟨rfl, -⟩ := List.cons.inj heq
        have hnone := hpassed' a (by simp) hown
        rw [hfound] at hnone
        cases hnone
  · have hnot : l.own a = false := by simpa using hown
    refine iff_of_false (fun hall => ?_) fun hfirst => hown (own_of_mem_firstOwn hfirst.symm).1
    -- only a flag that was set before can have led here
    cases flag with
    | false =>
      rw [own, hnext, Option.any_some, hfires] at hnot
      cases hnot
    | true =>
      have hcarried : (l.next a true).any (l.fires a) = true := by simp [hnext, hfires]
      obtain ⟨hisGood, hnone⟩ := (hhead hall).left hnot (hflag.mp rfl) hcarried
      rw [hgood.mp hisGood] at hnone
      cases hnone

/-- What is found behind `earlier`, by a loop with the flag that these leave standing. -/
theorem unmixedBehind_iff_of_scan (hnone : ∀ a, l.search a = some none → good a ∧ found a = none)
    (hgood : ∀ a b, l.search a = some (some b) → (good a ↔ found a = some b))
    {result : Option (α × β)}
    (hflag : flag = true ↔ l.LeftStanding earlier)
    (hpassed : ∀ a' ∈ earlier, l.own a' = true → found a' = none)
    (h : l.scan flag as = some (flag', result)) :
    l.UnmixedBehind found good earlier as ↔ result = l.firstOwn found as := by
  induction as generalizing earlier flag with
  | nil =>
    obtain ⟨-, rfl⟩ := Prod.mk.inj (Option.some_inj.mp h)
    exact iff_of_true (fun between a later heq => by simp at heq) rfl
  | cons a as ih =>
    rw [scan] at h
    cases hnext : l.next a flag with
    | none => simp [hnext] at h
    | some flag'' =>
      simp only [hnext] at h
      have hflag' := leftStanding_concat_iff hflag hnext
      have hpass : l.IsUnmixed found good earlier a → (l.own a = true → found a = none) →
          l.scan flag'' as = some (flag', result) →
          (l.UnmixedBehind found good earlier (a :: as) ↔
            result = l.firstOwn found (a :: as)) := by
        intro hunmixed hown hscan
        rw [unmixedBehind_cons hunmixed, firstOwn_cons_of_none hown]
        refine ih hflag' (fun a' ha' => ?_) hscan
        rcases mem_append.mp ha' with ha' | ha'
        · exact hpassed a' ha'
        · rwa [mem_singleton.mp ha']
      by_cases hfires : l.fires a flag'' = true
      · rw [if_pos hfires] at h
        cases hsearch : l.search a with
        | none => simp [hsearch] at h
        | some found' =>
          cases found' with
          | none =>
            obtain ⟨hisGood, hnothing⟩ := hnone a hsearch
            exact hpass ⟨fun _ => hisGood, fun _ _ _ => ⟨hisGood, hnothing⟩⟩
              (fun _ => hnothing) (by simpa [hsearch] using h)
          | some b =>
            simp only [hsearch, Option.some_inj, Prod.mk.injEq] at h
            obtain ⟨-, rfl⟩ := h
            exact unmixedBehind_found (hgood a b hsearch) hflag hpassed hnext hfires
      · rw [if_neg hfires] at h
        -- an entry that is not searched does not match on its own either
        have hown : l.own a ≠ true := fun hown =>
          hfires (l.fires_of_own a flag flag'' hown hnext)
        refine hpass ⟨fun h => absurd h hown, fun _ hleft hcarried => ?_⟩
          (fun h => absurd h hown) h
        obtain rfl : flag = true := hflag.mpr hleft
        rw [hnext, Option.any_some] at hcarried
        exact absurd hcarried hfires

/-- **What the loop finds**, where it returns, is what it should find exactly if the entries
are not mixed up by the flag. -/
theorem unmixed_iff_of_scan (hnone : ∀ a, l.search a = some none → good a ∧ found a = none)
    (hgood : ∀ a b, l.search a = some (some b) → (good a ↔ found a = some b))
    {result : Option (α × β)}
    (h : l.scan false as = some (flag, result)) :
    l.Unmixed found good as ↔ result = l.firstOwn found as := by
  have hbehind : l.UnmixedBehind found good [] as ↔ result = l.firstOwn found as :=
    unmixedBehind_iff_of_scan hnone hgood (by simp [LeftStanding]) (by simp) h
  exact hbehind

end Loop

end SipXRouter.Sticky
