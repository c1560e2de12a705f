import SipXRouter.Utl.UtlHashMap
import SipXRouter.Traversal

/-!
# Iterators of hash tables

`UtlHashBagIterator` and `UtlHashMapIterator` stand on a link of a bucket.  A table tells its
iterators of a link before it detaches it, so that one that stands there can move back.
`removing` asks for that with `link = mpCurrentLink`, an assignment: every iterator that
stands anywhere moves back.

## Design notes

* A link that was detached may be anything; what is read from it is not defined, and a run
  that reads it has no outcome.
* An iterator returns the link, and with it the element.
* No elements are inserted under way, and a table does not grow while it has iterators.
-/

namespace SipXRouter

open List

namespace UtlHash

/-! ## Iterators on a table -/

/-- The operations of a kind of iterator. -/
structure Iteration (α ι κ : Type*) where
  init : Table α → κ → ι
  next : Table α → ι → Option (Option α × ι)
  removing : Table α → α → ι → Option ι
  current : ι → Option α

/-- An iterator under way: what it was made to return, what it has returned, and whether it has
returned `NULL`. -/
structure Passage (α ι : Type*) where
  iterator : ι
  start : List α
  returned : List α
  finished : Bool
deriving DecidableEq

/-- A table and its iterators. -/
structure Journeys (α ι : Type*) where
  table : Table α
  passages : List (Passage α ι)
deriving DecidableEq

/-- An iterator is made, takes a step, or a link is removed. -/
inductive Move (α κ : Type*) where
  | start (key : κ)
  | step (i : Nat)
  | remove (link : α)

namespace Journeys

variable {α ι κ : Type*} [DecidableEq α] (f : Filing α UInt32) (I : Iteration α ι κ)
  (selects : κ → α → Bool) {moves moves' : List (Move α κ)} {p : Nat}

/-- Each iterator on a link that is removed steps back. -/
def notifyIteratorsOfRemove (t : Table α) (link : α) :
    List (Passage α ι) → Option (List (Passage α ι))
  | [] => some []
  | p :: ps =>
    match I.removing t link p.iterator with
    | none => none
    | some iterator =>
      (notifyIteratorsOfRemove t link ps).map ({ p with iterator } :: ·)

/-- An iterator has taken a step. -/
def advanced (p : Passage α ι) (r : Option α × ι) : Passage α ι :=
  { p with
    iterator := r.2
    returned := p.returned ++ r.1.toList
    finished := p.finished || r.1.isNone }

/-- What a move does to a table and its iterators. -/
def move (s : Journeys α ι) : Move α κ → Option (Journeys α ι)
  | .start key =>
    let p : Passage α ι :=
      ⟨I.init s.table key, s.table.chains.flatten.filter (selects key), [], false⟩
    some { s with passages := s.passages ++ [p] }
  | .step i =>
    match s.passages[i]? with
    | none => some s
    | some p =>
      (I.next s.table p.iterator).map fun r =>
        { s with passages := s.passages.set i (advanced p r) }
  | .remove link =>
    if link ∈ s.table.chains.flatten then
      (notifyIteratorsOfRemove I s.table link s.passages).map fun passages =>
        ⟨unlink f s.table link, passages⟩
    else some s

def run (s : Journeys α ι) : List (Move α κ) → Option (Journeys α ι)
  | [] => some s
  | m :: moves => (move f I selects s m).bind fun s' => run s' moves

/-- At a removal each iterator stands on the link or on none. -/
def Clean (s : Journeys α ι) : Move α κ → Prop
  | .remove link =>
    link ∈ s.table.chains.flatten → ∀ p ∈ s.passages,
      I.current p.iterator = none ∨ I.current p.iterator = some link
  | _ => True

/-- At all removals of a run each iterator stands on the link or on none. -/
def CleanAll (s : Journeys α ι) : List (Move α κ) → Prop
  | [] => True
  | m :: moves => Clean I s m ∧ ∀ s' ∈ move f I selects s m, CleanAll s' moves

instance decidableClean (s : Journeys α ι) : ∀ m : Move α κ, Decidable (Clean I s m)
  | .start _ => isTrue trivial
  | .step _ => isTrue trivial
  | .remove link =>
    inferInstanceAs (Decidable (link ∈ s.table.chains.flatten → ∀ p ∈ s.passages,
      I.current p.iterator = none ∨ I.current p.iterator = some link))

instance decidableCleanAll : ∀ (s : Journeys α ι) (moves : List (Move α κ)),
    Decidable (CleanAll f I selects s moves)
  | _, [] => isTrue trivial
  | s, m :: moves =>
    match decidableClean I s m with
    | isFalse h => isFalse fun hall => h hall.1
    | isTrue h =>
      match hmove : move f I selects s m with
      | none => isTrue ⟨h, fun s' hs' => by simp [hmove] at hs'⟩
      | some s₁ =>
        match decidableCleanAll s₁ moves with
        | isFalse h' => isFalse fun hall => h' (hall.2 s₁ hmove)
        | isTrue h' => isTrue ⟨h, fun s' hs' => by
            rw [hmove] at hs'
            exact Option.some_inj.mp hs' ▸ h'⟩

/-- What is asked of iterators: no link that was removed, every element once, none that they
were not made to return, and at the end all that are still there. -/
def Right (s : Journeys α ι) : Prop :=
  ∀ p ∈ s.passages, (∀ a ∈ I.current p.iterator, a ∈ s.table.chains.flatten) ∧
    p.returned.Nodup ∧ p.returned ⊆ p.start ∧
    (p.finished = true → ∀ a ∈ p.start, a ∈ s.table.chains.flatten → a ∈ p.returned)

end Journeys

/-! ### What a kind of iterator has to do -/

/-- A kind of iterator goes through what is ahead of it, and stays where it is when a link is
removed that it may stand on. -/
structure Iteration.Traverses {α ι κ : Type*} [DecidableEq α] (f : Filing α UInt32)
    (I : Iteration α ι κ) (selects : κ → α → Bool) (Valid : Table α → ι → Prop)
    (ahead : Table α → ι → List α) : Prop where
  current_mem : ∀ {t it}, Valid t it → ∀ a ∈ I.current it, a ∈ t.chains.flatten
  ahead_subset : ∀ {t it}, t.chains.flatten.Nodup → Valid t it → ahead t it ⊆ t.chains.flatten
  init_spec : ∀ {t} (key), t.Filed f → Valid t (I.init t key) ∧
    ahead t (I.init t key) = t.chains.flatten.filter (selects key)
  next_spec : ∀ {t it}, t.Filed f → t.chains.flatten.Nodup → Valid t it →
    ∃ r it', I.next t it = some (r, it') ∧ Valid t it' ∧
      ahead t it = r.toList ++ ahead t it' ∧ (r = none → ahead t it' = [])
  removing_spec : ∀ {t it link}, t.Filed f → t.chains.flatten.Nodup → Valid t it →
    (I.current it = none ∨ I.current it = some link) →
    ∃ it', I.removing t link it = some it' ∧ Valid (unlink f t link) it' ∧
      ahead (unlink f t link) it' = (ahead t it).filter (· ≠ link)

section Later

variable {α ι : Type*}

/-- What may become of iterators: they return, beyond what they have, what is still there. -/
def Later (s s' : Journeys α ι) : Prop :=
  s'.table.chains.flatten ⊆ s.table.chains.flatten ∧
    ∀ (i : Nat) p, s.passages[i]? = some p →
      ∃ p', s'.passages[i]? = some p' ∧ p'.start = p.start ∧
        ∀ a ∈ p'.returned, a ∈ p.returned ∨ a ∈ s.table.chains.flatten

theorem Later.refl (s : Journeys α ι) : Later s s :=
  ⟨fun _ ha => ha, fun _ p hp => ⟨p, hp, rfl, fun _ ha => Or.inl ha⟩⟩

theorem Later.trans {s s' s'' : Journeys α ι} (h : Later s s') (h' : Later s' s'') :
    Later s s'' := by
  refine ⟨fun a ha => h.1 (h'.1 ha), fun i p hp => ?_⟩
  obtain ⟨p', hp', hstart, hreturned⟩ := h.2 i p hp
  obtain ⟨p'', hp'', hstart', hreturned'⟩ := h'.2 i p' hp'
  refine ⟨p'', hp'', hstart'.trans hstart, fun a ha => ?_⟩
  rcases hreturned' a ha with ha | ha
  · exact hreturned a ha
  · exact Or.inr (h.1 ha)

end Later

theorem forall₂_getElem? {α β : Type*} {R : α → β → Prop} {as : List α} {bs : List β}
    (h : Forall₂ R as bs) {i : Nat} {b : β} (hb : bs[i]? = some b) :
    ∃ a, as[i]? = some a ∧ R a b := by
  induction h generalizing i with
  | nil => simp at hb
  | cons hab _ ih =>
    cases i with
    | zero =>
      rw [getElem?_cons_zero, Option.some_inj] at hb
      exact ⟨_, rfl, hb ▸ hab⟩
    | succ i => exact ih hb

theorem flatten_filter_eq {α : Type*} {chains : List (List α)} {test : α → Bool}
    (hp : p < chains.length)
    (h : ∀ i (hi : i < chains.length), i ≠ p → ∀ a ∈ chains[i], test a = false) :
    chains.flatten.filter test = chains[p].filter test := by
  induction chains generalizing p with
  | nil => exact absurd hp (Nat.not_lt_zero p)
  | cons c chains ih =>
    rw [flatten_cons, filter_append]
    cases p with
    | zero =>
      have hnone : chains.flatten.filter test = [] := by
        refine filter_eq_nil_iff.mpr fun a ha => ?_
        obtain ⟨chain, hchain, hac⟩ := mem_flatten.mp ha
        obtain ⟨i, hi, rfl⟩ := getElem_of_mem hchain
        rw [h (i + 1) (Nat.succ_lt_succ hi) (Nat.succ_ne_zero i) a hac]
        exact Bool.false_ne_true
      rw [hnone, append_nil]
      rfl
    | succ p =>
      have hnone : c.filter test = [] := by
        refine filter_eq_nil_iff.mpr fun a ha => ?_
        rw [h 0 (Nat.succ_pos _) (Nat.succ_ne_zero p).symm a ha]
        exact Bool.false_ne_true
      rw [hnone, nil_append]
      exact ih (Nat.lt_of_succ_lt_succ hp) fun i hi hne =>
        h (i + 1) (Nat.succ_lt_succ hi) fun heq => hne (Nat.succ.inj heq)

section Traverses

variable {α ι κ : Type*} [DecidableEq α] {f : Filing α UInt32} {t : Table α}

theorem Filed.unlink (h : t.Filed f) (link : α) : (UtlHash.unlink f t link).Filed f :=
  ⟨(h.detach link).length_eq, (h.detach link).chain_eq, (h.detach link).sorted⟩

theorem chains_unlink (h : t.Filed f) (hnodup : t.chains.flatten.Nodup) (link : α) :
    (UtlHash.unlink f t link).chains = without t.chains link := by
  apply ext_getElem
  · rw [length_without]
    exact length_modify _ _ _
  · intro i hi hi'
    have hlt : i < t.chains.length := (length_without t.chains link) ▸ hi'
    simp only [UtlHash.unlink, Table.detach, Table.modify, getElem_modify, without,
      getElem_map]
    split
    · rw [((nodup_flatten.mp hnodup).1 _ (getElem_mem hlt)).erase_eq_filter link]
      exact filter_congr fun a _ => by
        rw [Bool.eq_iff_iff, bne_iff_ne, decide_eq_true_iff]
    · next hne =>
        refine (filter_eq_self.mpr fun a ha => decide_eq_true ?_).symm
        rintro rfl
        exact hne (h.chain_eq i hlt a ha)

/-- The invariant of iterators under way. -/
structure SoundJourneys (f : Filing α UInt32) (Valid : Table α → ι → Prop)
    (ahead : Table α → ι → List α) (s : Journeys α ι) : Prop where
  filed : s.table.Filed f
  nodup : s.table.chains.flatten.Nodup
  valid : ∀ p ∈ s.passages, Valid s.table p.iterator
  fair : ∀ p ∈ s.passages,
    Fair p.start p.returned (ahead s.table p.iterator) s.table.chains.flatten
  finished : ∀ p ∈ s.passages, p.finished = true → ahead s.table p.iterator = []

variable {I : Iteration α ι κ} {selects : κ → α → Bool} {Valid : Table α → ι → Prop}
  {ahead : Table α → ι → List α} {s : Journeys α ι}

theorem SoundJourneys.right (hT : I.Traverses f selects Valid ahead)
    (h : SoundJourneys f Valid ahead s) : s.Right I := by
  intro p hp
  refine ⟨hT.current_mem (h.valid p hp), (h.fair p hp).nodup_returned,
    (h.fair p hp).returned_subset, fun hfinished a ha hmem => ?_⟩
  have hfair := h.fair p hp
  rw [h.finished p hp hfinished] at hfair
  exact hfair.mem_returned ha hmem

theorem SoundJourneys.start (hT : I.Traverses f selects Valid ahead)
    (h : SoundJourneys f Valid ahead s) (key : κ) :
    ∃ s', s.move f I selects (.start key) = some s' ∧ SoundJourneys f Valid ahead s' ∧
      Later s s' := by
  obtain ⟨hvalid, hahead⟩ := hT.init_spec key h.filed
  refine ⟨_, rfl, ⟨h.filed, h.nodup, ?_, ?_, ?_⟩, fun _ ha => ha, fun i p hp => ?_⟩
  · intro p hp
    rcases mem_append.mp hp with hp | hp
    · exact h.valid p hp
    · rw [mem_singleton.mp hp]
      exact hvalid
  · intro p hp
    rcases mem_append.mp hp with hp | hp
    · exact h.fair p hp
    · rw [mem_singleton.mp hp, hahead]
      exact Fair.new (h.nodup.filter _) fun a ha => (mem_filter.mp ha).1
  · intro p hp hfinished
    rcases mem_append.mp hp with hp | hp
    · exact h.finished p hp hfinished
    · rw [mem_singleton.mp hp] at hfinished
      exact absurd hfinished Bool.false_ne_true
  · have hlt := (List.getElem?_eq_some_iff.mp hp).1
    refine ⟨p, ?_, rfl, fun _ ha => Or.inl ha⟩
    rw [getElem?_append_left hlt]
    exact hp

/-- A step of one iterator leaves the others on their way. -/
theorem SoundJourneys.step (hT : I.Traverses f selects Valid ahead)
    (h : SoundJourneys f Valid ahead s) (i : Nat) :
    ∃ s', s.move f I selects (.step i) = some s' ∧ SoundJourneys f Valid ahead s' ∧
      Later s s' := by
  rw [Journeys.move]
  cases hi : s.passages[i]? with
  | none => exact ⟨s, rfl, h, Later.refl s⟩
  | some p =>
    have hp : p ∈ s.passages := mem_of_getElem? hi
    obtain ⟨r, it', hnext, hvalid, hahead, hnone⟩ := hT.next_spec h.filed h.nodup (h.valid p hp)
    -- what is returned is ahead, and so it is still there
    have hthere : ∀ a ∈ r, a ∈ s.table.chains.flatten := by
      intro a ha
      apply hT.ahead_subset h.nodup (h.valid p hp)
      rw [hahead]
      exact mem_append_left _ (Option.mem_toList.mpr ha)
    have hfair := h.fair p hp
    rw [hahead] at hfair
    have hmove : ((I.next s.table p.iterator).map fun r =>
        { s with passages := s.passages.set i (Journeys.advanced p r) }) =
        some { s with passages := s.passages.set i (Journeys.advanced p (r, it')) } := by
      rw [hnext]
      rfl
    refine ⟨_, hmove, ⟨h.filed, h.nodup, ?_, ?_, ?_⟩, fun _ ha => ha, ?_⟩
    · intro q hq
      rcases mem_or_eq_of_mem_set hq with hq | rfl
      · exact h.valid q hq
      · exact hvalid
    · intro q hq
      rcases mem_or_eq_of_mem_set hq with hq | rfl
      · exact h.fair q hq
      · cases r with
        | none =>
          show Fair p.start (p.returned ++ []) (ahead s.table it') _
          rw [append_nil]
          exact hfair
        | some a => exact hfair.take (hthere a rfl)
    · intro q hq hfinished
      rcases mem_or_eq_of_mem_set hq with hq | rfl
      · exact h.finished q hq hfinished
      · cases r with
        | none => exact hnone rfl
        | some a =>
          have hdone := h.finished p hp (by simpa [Journeys.advanced] using hfinished)
          rw [hahead] at hdone
          exact absurd hdone (cons_ne_nil _ _)
    · intro j q hq
      by_cases hij : i = j
      · subst hij
        obtain rfl := Option.some_inj.mp (hi.symm.trans hq)
        have hlt := (List.getElem?_eq_some_iff.mp hi).1
        refine ⟨Journeys.advanced p (r, it'), ?_, rfl, fun a ha => ?_⟩
        · exact getElem?_set_self hlt
        · rcases mem_append.mp ha with ha | ha
          · exact Or.inl ha
          · exact Or.inr (hthere a (Option.mem_toList.mp ha))
      · refine ⟨q, ?_, rfl, fun a ha => Or.inl ha⟩
        show (s.passages.set i _)[j]? = some q
        rw [getElem?_set_ne hij]
        exact hq

/-- What a removal does to the iterators, one by one. -/
theorem notify_spec (hT : I.Traverses f selects Valid ahead) {t : Table α} (hfiled : t.Filed f)
    (hnodup : t.chains.flatten.Nodup) {link : α} {ps : List (Passage α ι)}
    (hvalid : ∀ p ∈ ps, Valid t p.iterator)
    (hclean : ∀ p ∈ ps, I.current p.iterator = none ∨ I.current p.iterator = some link) :
    ∃ ps', Journeys.notifyIteratorsOfRemove I t link ps = some ps' ∧
      Forall₂ (fun p p' => p'.start = p.start ∧ p'.returned = p.returned ∧
        p'.finished = p.finished ∧ Valid (UtlHash.unlink f t link) p'.iterator ∧
        ahead (UtlHash.unlink f t link) p'.iterator =
          (ahead t p.iterator).filter (· ≠ link)) ps ps' := by
  induction ps with
  | nil => exact ⟨[], rfl, Forall₂.nil⟩
  | cons p ps ih =>
    obtain ⟨it', hremoving, hvalid', hahead'⟩ := hT.removing_spec hfiled hnodup
      (hvalid p mem_cons_self) (hclean p mem_cons_self)
    obtain ⟨ps', hnotify, hforall⟩ := ih (fun q hq => hvalid q (mem_cons_of_mem p hq))
      fun q hq => hclean q (mem_cons_of_mem p hq)
    refine ⟨{ p with iterator := it' } :: ps', ?_, Forall₂.cons ?_ hforall⟩
    · rw [Journeys.notifyIteratorsOfRemove, hremoving, hnotify]
      rfl
    · exact ⟨rfl, rfl, rfl, hvalid', hahead'⟩

/-- A removal moves every iterator that stands there. -/
theorem SoundJourneys.remove (hT : I.Traverses f selects Valid ahead)
    (h : SoundJourneys f Valid ahead s) {link : α}
    (hclean : s.Clean (κ := κ) I (.remove link)) :
    ∃ s', s.move f I selects (.remove link) = some s' ∧ SoundJourneys f Valid ahead s' ∧
      Later s s' := by
  rw [Journeys.move]
  split
  · next hlink =>
      obtain ⟨ps', hnotify, hforall⟩ := notify_spec hT h.filed h.nodup h.valid (hclean hlink)
      have hchains := chains_unlink h.filed h.nodup link
      have hof : ∀ p' ∈ ps', ∃ p ∈ s.passages, p'.start = p.start ∧ p'.returned = p.returned ∧
          p'.finished = p.finished ∧ Valid (UtlHash.unlink f s.table link) p'.iterator ∧
          ahead (UtlHash.unlink f s.table link) p'.iterator =
            (ahead s.table p.iterator).filter (· ≠ link) := by
        intro p' hp'
        obtain ⟨i, hi⟩ := getElem?_of_mem hp'
        obtain ⟨p, hp, hrel⟩ := forall₂_getElem? hforall hi
        exact ⟨p, mem_of_getElem? hp, hrel⟩
      refine ⟨⟨UtlHash.unlink f s.table link, ps'⟩, by rw [hnotify]; rfl, ⟨?_, ?_, ?_, ?_, ?_⟩, ?_, ?_⟩
      · exact Filed.unlink h.filed link
      · rw [hchains]
        exact nodup_without h.nodup link
      · intro p' hp'
        obtain ⟨p, -, -, -, -, hvalid, -⟩ := hof p' hp'
        exact hvalid
      · intro p' hp'
        obtain ⟨p, hp, hstart, hreturned, -, -, hahead⟩ := hof p' hp'
        rw [hstart, hreturned, hahead, hchains, flatten_without]
        exact (h.fair p hp).remove link
      · intro p' hp' hfinished
        obtain ⟨p, hp, -, -, hfin, -, hahead⟩ := hof p' hp'
        rw [hahead, h.finished p hp (hfin ▸ hfinished)]
        rfl
      · intro a ha
        rw [hchains] at ha
        exact (mem_flatten_without.mp ha).1
      · intro i p hp
        obtain ⟨p', hp', hstart, hreturned, -⟩ := forall₂_getElem? hforall.flip hp
        exact ⟨p', hp', hstart, fun a ha => Or.inl (hreturned ▸ ha)⟩
  · exact ⟨s, rfl, h, Later.refl s⟩

theorem SoundJourneys.move (hT : I.Traverses f selects Valid ahead)
    (h : SoundJourneys f Valid ahead s) {m : Move α κ} (hclean : s.Clean I m) :
    ∃ s', s.move f I selects m = some s' ∧ SoundJourneys f Valid ahead s' ∧ Later s s' := by
  cases m with
  | start key => exact h.start hT key
  | step i => exact h.step hT i
  | remove link => exact h.remove hT hclean

theorem SoundJourneys.run (hT : I.Traverses f selects Valid ahead)
    (h : SoundJourneys f Valid ahead s) (hclean : s.CleanAll f I selects moves) :
    ∃ s', s.run f I selects moves = some s' ∧ SoundJourneys f Valid ahead s' ∧ Later s s' := by
  induction moves generalizing s with
  | nil => exact ⟨s, rfl, h, Later.refl s⟩
  | cons m moves ih =>
    obtain ⟨s₁, hmove, h₁, hlater₁⟩ := h.move hT hclean.1
    obtain ⟨s₂, hrun, h₂, hlater₂⟩ := ih h₁ (hclean.2 s₁ hmove)
    refine ⟨s₂, ?_, h₂, hlater₁.trans hlater₂⟩
    rw [Journeys.run, hmove, Option.bind_some, hrun]

theorem cleanAll_append
    (h : s.CleanAll f I selects (moves ++ moves')) : s.CleanAll f I selects moves ∧
      ∀ s' ∈ s.run f I selects moves, s'.CleanAll f I selects moves' := by
  induction moves generalizing s with
  | nil =>
    refine ⟨trivial, fun s' hs' => ?_⟩
    rw [← Option.some_inj.mp hs']
    exact h
  | cons m moves ih =>
    refine ⟨⟨h.1, fun s' hs' => (ih (h.2 s' hs')).1⟩, fun s' hs' => ?_⟩
    rw [Journeys.run] at hs'
    obtain ⟨s₁, hs₁, hrun⟩ := Option.bind_eq_some_iff.mp hs'
    exact (ih (h.2 s₁ hs₁)).2 s' hrun

end Traverses

end UtlHash

open UtlHash

/-! ## The iterator of a bag -/

/-- `UtlHashBagIterator`; a key comes with `mSubsetHash`. -/
structure UtlHashBagIterator (O : Type*) where
  mpSubsetMatch : Option (O × UInt32)
  mPosition : Nat
  mpCurrentLink : Option (UtlLink O)
  mLinkIsValid : Bool
deriving DecidableEq

namespace UtlHashBagIterator

variable {O : Type*} [DecidableEq O] (c : UtlContainable O)

def cursor (it : UtlHashBagIterator O) : Cursor (UtlLink O) := ⟨it.mPosition, it.mpCurrentLink⟩

def init (b : Table (UtlLink O)) (key : Option O) : UtlHashBagIterator O where
  mpSubsetMatch := key.map fun key => (key, c.hash key)
  mPosition :=
    match key with
    | none => 0
    | some key => bucketNumber b.bits (c.hash key)
  mpCurrentLink := none
  mLinkIsValid := true

def matches' (subset : O × UInt32) (link : UtlLink O) : Bool :=
  link.hash == subset.2 && c.isEqual link.data subset.1

/-- `operator()`: the link whose element is returned. -/
def next (b : Table (UtlLink O)) (it : UtlHashBagIterator O) :
    Option (Option (UtlLink O) × UtlHashBagIterator O) :=
  if it.mPosition < 2 ^ b.bits then
    (it.cursor.rest b.chains).map fun links =>
      match it.mpSubsetMatch with
      | some subset =>
        match UtlHashBag.filing.search subset.2 (matches' c subset) links with
        | some link => (some link, { it with mpCurrentLink := some link, mLinkIsValid := true })
        | none => (none, { it with mPosition := 2 ^ b.bits, mLinkIsValid := true })
      | none =>
        let reached := Cursor.walk b.chains it.mPosition links
        (reached.1,
          { it with
            mPosition := reached.2
            mpCurrentLink := reached.1
            mLinkIsValid := true })
  else some (none, { it with mpCurrentLink := none, mLinkIsValid := true })

/-- `removing`.  The link that is removed is not looked at: the test for it assigns to it. -/
def removing (b : Table (UtlLink O)) (_link : UtlLink O) (it : UtlHashBagIterator O) :
    Option (UtlHashBagIterator O) :=
  match it.mpCurrentLink with
  | none => some it
  | some _ =>
    (it.cursor.stepBack b.chains).map fun cursor =>
      { it with mpCurrentLink := cursor.current, mLinkIsValid := false }

def iteration : Iteration (UtlLink O) (UtlHashBagIterator O) (Option O) where
  init := init c
  next := next c
  removing := removing
  current := mpCurrentLink

/-- What an iterator is made to return: all links, or those that equal its key. -/
def selects (key : Option O) (link : UtlLink O) : Bool :=
  key.all fun key => matches' c (key, c.hash key) link

/-- What an iterator has before it. -/
def ahead (b : Table (UtlLink O)) (it : UtlHashBagIterator O) : List (UtlLink O) :=
  match it.mpSubsetMatch with
  | none => it.cursor.ahead b.chains
  | some subset => it.cursor.aheadOf (matches' c subset) b.chains

/-- An iterator stands on a link that is there, and in its own bucket. -/
def Valid (b : Table (UtlLink O)) (it : UtlHashBagIterator O) : Prop := it.cursor.Valid b.chains

variable {c} {b : Table (UtlLink O)} {it : UtlHashBagIterator O}

theorem init_spec (hb : b.Filed UtlHashBag.filing) (key : Option O) : Valid b (init c b key) ∧
    ahead c b (init c b key) = b.chains.flatten.filter (selects c key) := by
  refine ⟨fun a ha => absurd ha (by simp [init, cursor]), ?_⟩
  cases key with
  | none =>
    have hp : 0 < b.chains.length := by
      rw [hb.length_eq]
      exact Nat.two_pow_pos b.bits
    show (Cursor.mk 0 none).ahead b.chains = b.chains.flatten.filter fun _ => true
    rw [Cursor.ahead, if_pos hp, filter_true]
    show b.chains.getD 0 [] ++ (b.chains.drop 1).flatten = b.chains.flatten
    cases b.chains with
    | nil => rfl
    | cons chain chains => rfl
  | some key =>
    have hp := hb.chain_lt (c.hash key)
    show (Cursor.mk (bucketNumber b.bits (c.hash key)) none).aheadOf (matches' c (key, c.hash key))
      b.chains = b.chains.flatten.filter (matches' c (key, c.hash key))
    rw [Cursor.aheadOf, if_pos (show bucketNumber _ _ < _ from hp)]
    -- no other bucket has a link of this hash
    rw [flatten_filter_eq hp fun i hi hne link hlink => ?_]
    · show (b.chainOf UtlHashBag.filing (c.hash key)).filter _ = _
      rw [Table.chainOf_eq hp]
    · rw [matches', Bool.and_eq_false_iff, beq_eq_false_iff_ne]
      left
      rintro hhash
      apply hne
      rw [← hb.chain_eq i hi link hlink]
      exact congrArg (bucketNumber b.bits) hhash

omit [DecidableEq O] in
theorem search_eq_find? (hb : b.Filed UtlHashBag.filing) {p : Nat} {pre post : List (UtlLink O)}
    (hp : b.chains[p]? = some (pre ++ post)) (subset : O × UInt32) :
    UtlHashBag.filing.search subset.2 (matches' c subset) post =
      post.find? (matches' c subset) := by
  have hsorted : UtlHashBag.filing.Sorted post :=
    (hb.sorted _ (mem_of_getElem? hp)).sublist (sublist_append_right pre post)
  refine Filing.search_eq_find? _ hsorted fun link _ hmatch => ?_
  rw [matches', Bool.and_eq_true, beq_iff_eq] at hmatch
  exact hmatch.1

theorem ahead_of_end (c : UtlContainable O) (subset : Option (O × UInt32)) {p : Nat}
    (current : Option (UtlLink O)) (valid : Bool) (hp : ¬p < b.chains.length) :
    ahead c b ⟨subset, p, current, valid⟩ = [] := by
  cases subset with
  | none => exact if_neg hp
  | some subset => exact if_neg hp

/-- One step gives the next member ahead, or the end. -/
theorem next_spec (hb : b.Filed UtlHashBag.filing) (hnodup : b.chains.flatten.Nodup)
    (hit : Valid b it) : ∃ r it', next c b it = some (r, it') ∧ Valid b it' ∧
      ahead c b it = r.toList ++ ahead c b it' ∧ (r = none → ahead c b it' = []) := by
  obtain ⟨subset, position, current, valid⟩ := it
  rw [next, ← hb.length_eq]
  split
  · next hp =>
      cases subset with
      | none =>
        obtain ⟨post, found, p', hrest, hwalk, hspec⟩ := Cursor.walk_spec hnodup hit hp
        refine ⟨found, ⟨none, p', found, true⟩, ?_, ?_⟩
        · rw [hrest, Option.map_some]
          show some ((Cursor.walk b.chains position post).1, _) = _
          rw [show Cursor.walk b.chains position post = (found, p') from hwalk]
        · cases found with
          | some a => exact ⟨hspec.1, hspec.2, fun hfalse => absurd hfalse (by simp)⟩
          | none =>
            obtain ⟨hahead, rfl⟩ := hspec
            have hend := ahead_of_end c none none true (Nat.lt_irrefl b.chains.length)
            refine ⟨fun a ha => absurd ha (by simp [cursor]), ?_, fun _ => hend⟩
            rw [hend]
            exact hahead
      | some subset =>
        obtain ⟨pre, post, found, hrest, hpost, hfind, hspec⟩ :=
          Cursor.find_spec hnodup hit hp (matches' c subset)
        have hsearch := search_eq_find? (c := c) hb hpost subset
        rw [hfind] at hsearch
        rw [hrest, Option.map_some]
        cases found with
        | some a =>
          refine ⟨some a, ⟨some subset, position, some a, true⟩, ?_, hspec.1, hspec.2,
            fun hfalse => absurd hfalse (by simp)⟩
          simp only [hsearch]
        | none =>
          have hend := ahead_of_end c (some subset) current true (Nat.lt_irrefl b.chains.length)
          refine ⟨none, ⟨some subset, b.chains.length, current, true⟩, ?_, ?_, ?_, fun _ => hend⟩
          · simp only [hsearch]
          · intro a ha
            refine ⟨(hit a ha).1, fun chain hchain => ?_⟩
            exact absurd (List.getElem?_eq_some_iff.mp hchain).1 (Nat.lt_irrefl _)
          · rw [hend]
            exact hspec
  · next hp =>
      have hend := ahead_of_end c subset none true hp
      refine ⟨none, _, rfl, fun a ha => absurd ha (by simp [cursor]), ?_, fun _ => hend⟩
      rw [ahead_of_end c subset current valid hp]
      exact hend.symm

theorem removing_spec (hb : b.Filed UtlHashBag.filing) (hnodup : b.chains.flatten.Nodup)
    (hit : Valid b it) {link : UtlLink O}
    (hlink : it.mpCurrentLink = none ∨ it.mpCurrentLink = some link) :
    ∃ it', removing b link it = some it' ∧ Valid (unlink UtlHashBag.filing b link) it' ∧
      ahead c (unlink UtlHashBag.filing b link) it' = (ahead c b it).filter (· ≠ link) := by
  obtain ⟨subset, position, current, valid⟩ := it
  obtain ⟨cursor', hstep, hposition, hvalid, hrest⟩ := Cursor.stepBack_spec hnodup hit hlink
  have hchains := chains_unlink hb hnodup link
  -- whether or not it stood on a link, it is where a step back takes it
  have hremoving : ∃ valid', removing b link ⟨subset, position, current, valid⟩ =
      some ⟨subset, cursor'.position, cursor'.current, valid'⟩ := by
    cases current with
    | none =>
      obtain rfl := Option.some_inj.mp hstep
      exact ⟨valid, rfl⟩
    | some a =>
      refine ⟨false, ?_⟩
      rw [removing, hstep, hposition]
      rfl
  obtain ⟨valid', hremoving⟩ := hremoving
  refine ⟨_, hremoving, ?_, ?_⟩
  · rw [Valid, hchains]
    exact hvalid
  · cases subset with
    | none =>
      show cursor'.ahead (unlink _ b link).chains = _
      rw [hchains]
      exact Cursor.ahead_stepBack hnodup hit hposition hrest
    | some subset =>
      show cursor'.aheadOf (matches' c subset) (unlink _ b link).chains = _
      rw [hchains]
      exact Cursor.aheadOf_stepBack hnodup hit (matches' c subset) hposition hrest

theorem traverses (c : UtlContainable O) :
    (iteration c).Traverses UtlHashBag.filing (selects c) Valid (ahead c) where
  current_mem hit a ha := (hit a ha).1
  ahead_subset := by
    intro b it hnodup hit
    rw [ahead]
    split
    · exact Cursor.ahead_subset hnodup hit
    · exact Cursor.aheadOf_subset hnodup hit _
  init_spec key hb := init_spec hb key
  next_spec hb hnodup hit := next_spec hb hnodup hit
  removing_spec hb hnodup hit hlink := removing_spec hb hnodup hit hlink

end UtlHashBagIterator

/-! ## The iterator of a map -/

/-- Where an iterator of a map stands. -/
structure UtlHashMapIterator (K V : Type*) where
  mPosition : Nat
  mpCurrentPair : Option (UtlPair K V)
  mPairIsValid : Bool
deriving DecidableEq

namespace UtlHashMapIterator

variable {K V : Type*} [DecidableEq K] [DecidableEq V]

def cursor (it : UtlHashMapIterator K V) : Cursor (UtlPair K V) := ⟨it.mPosition, it.mpCurrentPair⟩

def init : UtlHashMapIterator K V := ⟨0, none, true⟩

/-- `operator()`: the pair whose key is returned.  At the end the pair stays. -/
def next (m : Table (UtlPair K V)) (it : UtlHashMapIterator K V) :
    Option (Option (UtlPair K V) × UtlHashMapIterator K V) :=
  if it.mPosition < 2 ^ m.bits then
    (it.cursor.rest m.chains).map fun pairs =>
      let reached := Cursor.walk m.chains it.mPosition pairs
      (reached.1, ⟨reached.2, reached.1 <|> it.mpCurrentPair, true⟩)
  else some (none, { it with mpCurrentPair := none, mPairIsValid := true })

/-- `removing`.  The pair that is removed is not looked at here either. -/
def removing (m : Table (UtlPair K V)) (_key : UtlPair K V) (it : UtlHashMapIterator K V) :
    Option (UtlHashMapIterator K V) :=
  match it.mpCurrentPair with
  | none => some it
  | some _ =>
    (it.cursor.stepBack m.chains).map fun cursor =>
      { it with mpCurrentPair := cursor.current, mPairIsValid := false }

def iteration : Iteration (UtlPair K V) (UtlHashMapIterator K V) Unit where
  init _ _ := init
  next := next
  removing := removing
  current := mpCurrentPair

/-- An iterator has all pairs before it. -/
def selects (_key : Unit) (_pair : UtlPair K V) : Bool := true

/-- What an iterator has before it. -/
def ahead (m : Table (UtlPair K V)) (it : UtlHashMapIterator K V) : List (UtlPair K V) :=
  it.cursor.ahead m.chains

/-- An iterator stands on a pair that is there, and in its own bucket. -/
def Valid (m : Table (UtlPair K V)) (it : UtlHashMapIterator K V) : Prop := it.cursor.Valid m.chains

variable {m : Table (UtlPair K V)} {it : UtlHashMapIterator K V}

theorem init_spec (hm : m.Filed UtlHashMap.filing) :
    Valid m init ∧ ahead m init = m.chains.flatten := by
  refine ⟨fun a ha => absurd ha (by simp [init, cursor]), ?_⟩
  have hp : 0 < m.chains.length := by
    rw [hm.length_eq]
    exact Nat.two_pow_pos m.bits
  show (Cursor.mk 0 none).ahead m.chains = m.chains.flatten
  rw [Cursor.ahead, if_pos hp]
  show m.chains.getD 0 [] ++ (m.chains.drop 1).flatten = m.chains.flatten
  cases m.chains with
  | nil => rfl
  | cons chain chains => rfl

theorem next_spec (hm : m.Filed UtlHashMap.filing) (hnodup : m.chains.flatten.Nodup)
    (hit : Valid m it) : ∃ r it', next m it = some (r, it') ∧ Valid m it' ∧
      ahead m it = r.toList ++ ahead m it' ∧ (r = none → ahead m it' = []) := by
  obtain ⟨position, current, valid⟩ := it
  rw [next, ← hm.length_eq]
  split
  · next hp =>
      obtain ⟨post, found, p', hrest, hwalk, hspec⟩ := Cursor.walk_spec hnodup hit hp
      refine ⟨found, ⟨p', found <|> current, true⟩, ?_, ?_⟩
      · rw [hrest, Option.map_some]
        show some ((Cursor.walk m.chains position post).1, _) = _
        rw [show Cursor.walk m.chains position post = (found, p') from hwalk]
      · cases found with
        | some a => exact ⟨hspec.1, hspec.2, fun hfalse => absurd hfalse (by simp)⟩
        | none =>
          obtain ⟨hahead, rfl⟩ := hspec
          have hend : ahead m ⟨m.chains.length, current, true⟩ = [] := if_neg (Nat.lt_irrefl _)
          refine ⟨fun a ha => ⟨(hit a ha).1, fun chain hchain => ?_⟩, ?_, fun _ => hend⟩
          · exact absurd (List.getElem?_eq_some_iff.mp hchain).1 (Nat.lt_irrefl _)
          · show ahead m _ = [] ++ ahead m ⟨m.chains.length, current, true⟩
            rw [hend]
            exact hahead
  · next hp =>
      have hend : ahead m ⟨position, none, true⟩ = [] := if_neg hp
      have hnow : ahead m ⟨position, current, valid⟩ = [] := if_neg hp
      refine ⟨none, _, rfl, fun a ha => absurd ha (by simp [cursor]), ?_, fun _ => hend⟩
      rw [hnow]
      exact hend.symm

theorem removing_spec (hm : m.Filed UtlHashMap.filing) (hnodup : m.chains.flatten.Nodup)
    (hit : Valid m it) {pair : UtlPair K V}
    (hpair : it.mpCurrentPair = none ∨ it.mpCurrentPair = some pair) :
    ∃ it', removing m pair it = some it' ∧ Valid (unlink UtlHashMap.filing m pair) it' ∧
      ahead (unlink UtlHashMap.filing m pair) it' = (ahead m it).filter (· ≠ pair) := by
  obtain ⟨position, current, valid⟩ := it
  obtain ⟨cursor', hstep, hposition, hvalid, hrest⟩ := Cursor.stepBack_spec hnodup hit hpair
  have hchains := chains_unlink hm hnodup pair
  have hremoving : ∃ valid', removing m pair ⟨position, current, valid⟩ =
      some ⟨cursor'.position, cursor'.current, valid'⟩ := by
    cases current with
    | none =>
      obtain rfl := Option.some_inj.mp hstep
      exact ⟨valid, rfl⟩
    | some a =>
      refine ⟨false, ?_⟩
      rw [removing, hstep, hposition]
      rfl
  obtain ⟨valid', hremoving⟩ := hremoving
  refine ⟨_, hremoving, ?_, ?_⟩
  · rw [Valid, hchains]
    exact hvalid
  · show cursor'.ahead (unlink _ m pair).chains = _
    rw [hchains]
    exact Cursor.ahead_stepBack hnodup hit hposition hrest

theorem traverses : (iteration (K := K) (V := V)).Traverses UtlHashMap.filing selects Valid ahead where
  current_mem hit a ha := (hit a ha).1
  ahead_subset hnodup hit := Cursor.ahead_subset hnodup hit
  init_spec _ hm := by
    obtain ⟨hvalid, hahead⟩ := init_spec hm
    refine ⟨hvalid, hahead.trans ?_⟩
    exact (filter_eq_self.mpr fun _ _ => rfl).symm
  next_spec hm hnodup hit := next_spec hm hnodup hit
  removing_spec hm hnodup hit hpair := removing_spec hm hnodup hit hpair

end UtlHashMapIterator

/-! ## Iterators under removal -/

namespace UtlHash

section Runs

variable {α ι κ : Type*} [DecidableEq α] {f : Filing α UInt32} {I : Iteration α ι κ}
  {selects : κ → α → Bool} {Valid : Table α → ι → Prop} {ahead : Table α → ι → List α}

/-- What is asked of a run in two parts: after each of them the iterators are right, and the
second part makes no iterator return what was removed in the first and not returned there. -/
def RightRun (f : Filing α UInt32) (I : Iteration α ι κ) (selects : κ → α → Bool) (t : Table α)
    (moves moves' : List (Move α κ)) : Prop :=
  ∃ s s', (Journeys.mk t []).run f I selects moves = some s ∧ s.run f I selects moves' = some s' ∧
    s.Right I ∧ s'.Right I ∧
    ∀ (i : Nat) p, s.passages[i]? = some p → ∃ p', s'.passages[i]? = some p' ∧ p'.start = p.start ∧
      ∀ a, a ∉ s.table.chains.flatten → a ∉ p.returned → a ∉ p'.returned

theorem Iteration.Traverses.rightRun (hT : I.Traverses f selects Valid ahead) {t : Table α}
    (hfiled : t.Filed f) (hnodup : t.chains.flatten.Nodup)
    (hclean : (Journeys.mk t []).CleanAll f I selects (moves ++ moves')) :
    RightRun f I selects t moves moves' := by
  have hsound : SoundJourneys f Valid ahead (Journeys.mk t []) :=
    ⟨hfiled, hnodup, fun p hp => absurd hp not_mem_nil, fun p hp => absurd hp not_mem_nil,
      fun p hp => absurd hp not_mem_nil⟩
  obtain ⟨hclean₁, hclean₂⟩ := cleanAll_append hclean
  obtain ⟨s, hrun, h, -⟩ := hsound.run hT hclean₁
  obtain ⟨s', hrun', h', hlater⟩ := h.run hT (hclean₂ s hrun)
  refine ⟨s, s', hrun, hrun', h.right hT, h'.right hT, fun i p hp => ?_⟩
  obtain ⟨p', hp', hstart, hreturned⟩ := hlater.2 i p hp
  refine ⟨p', hp', hstart, fun a hremoved hnot ha => ?_⟩
  rcases hreturned a ha with hret | hthere
  · exact hnot hret
  · exact hremoved hthere

theorem not_rightRun_of_returned {t : Table α} (a : α)
    (h : ((Journeys.mk t []).run f I selects moves).map
      (fun s => s.passages.map Passage.returned) = some [[a, a]]) :
    ¬RightRun f I selects t moves moves' := by
  rintro ⟨s, s', hrun, -, hright, -⟩
  rw [hrun, Option.map_some, Option.some_inj] at h
  have hmem : [a, a] ∈ s.passages.map Passage.returned := by
    rw [h]
    exact mem_singleton_self _
  obtain ⟨p, hp, hreturned⟩ := mem_map.mp hmem
  have hnodup := (hright p hp).2.1
  rw [hreturned] at hnodup
  exact absurd hnodup (by simp)

end Runs

/-- **Iterators under removal**, of a bag and of a map: in a run in which every link that is
removed is the one that each iterator stands on, if it stands on any, no iterator is left on a
link that was removed, each returns every element that stays once and only once, and none
that was removed before it was reached. -/
theorem run_right_of_clean {O K V : Type*} [DecidableEq O] [DecidableEq K] [DecidableEq V]
    (c : UtlContainable O) (b : Table (UtlLink O)) (m : Table (UtlPair K V))
    (hb : b.Filed UtlHashBag.filing) (hm : m.Filed UtlHashMap.filing)
    (hblinks : b.chains.flatten.Nodup) (hmlinks : m.chains.flatten.Nodup) :
    (∀ moves moves' : List (Move (UtlLink O) (Option O)),
      (Journeys.mk b []).CleanAll UtlHashBag.filing (UtlHashBagIterator.iteration c)
          (UtlHashBagIterator.selects c) (moves ++ moves') →
        RightRun UtlHashBag.filing (UtlHashBagIterator.iteration c) (UtlHashBagIterator.selects c) b
          moves moves') ∧
    ∀ moves moves' : List (Move (UtlPair K V) Unit),
      (Journeys.mk m []).CleanAll UtlHashMap.filing UtlHashMapIterator.iteration
          UtlHashMapIterator.selects (moves ++ moves') →
        RightRun UtlHashMap.filing UtlHashMapIterator.iteration UtlHashMapIterator.selects m
          moves moves' :=
  ⟨fun _ _ hclean => (UtlHashBagIterator.traverses c).rightRun hb hblinks hclean,
    fun _ _ hclean => UtlHashMapIterator.traverses.rightRun hm hmlinks hclean⟩

/-! ### Two buckets -/

/-- Numbers by their value, which hash to their tens. -/
def tens : UtlContainable Nat where
  hash n := UInt32.ofNat (n / 10)
  isEqual m n := m == n

theorem tens_lawful : tens.Lawful where
  refl a := beq_self_eq_true a
  symm h := beq_iff_eq.mpr (beq_iff_eq.mp h).symm
  trans h h' := beq_iff_eq.mpr ((beq_iff_eq.mp h).trans (beq_iff_eq.mp h'))
  congruent _ _ h := congrArg tens.hash (beq_iff_eq.mp h)

/-- A bag with 10 and 11 in one bucket and 20 in another. -/
def twoBuckets : UtlHashBag Nat :=
  (UtlHashBag.run tens .new [.insert 0 (some 11), .insert 1 (some 10), .insert 2 (some 20)]).1

/-- A map with the same keys. -/
def twoBucketsMap : UtlHashMap Nat Nat :=
  (UtlHashMap.run tens .new [.insert 0 (some 11), .insert 1 (some 10), .insert 2 (some 20)]).1

/-- Two iterators, one for all elements and one for 20; 10 is removed while the first stands on
it, and the second nowhere. -/
theorem run_right_of_clean_twoBuckets :
    RightRun UtlHashBag.filing (UtlHashBagIterator.iteration tens)
      (UtlHashBagIterator.selects tens) twoBuckets.table
      [.start none, .start (some 20), .step 0, .remove ⟨1, 10, 1⟩, .step 0]
      [.step 1, .step 0, .step 0] := by
  have hbag := (UtlHashBag.sound_new.run tens_lawful.congruent
    [.insert 0 (some 11), .insert 1 (some 10), .insert 2 (some 20)]).1
  have hmap := (UtlHashMap.represents_new (V := Nat).run tens_lawful
    [.insert 0 (some 11), .insert 1 (some 10), .insert 2 (some 20)]).1
  exact (run_right_of_clean tens twoBuckets.table twoBucketsMap.table hbag.table.filed
    hmap.table.filed (by decide +kernel) (by decide +kernel)).1 _ _ (by decide +kernel)

/-- An iterator has returned 10, and 20 is removed: it returns 10 again.  An iterator has
returned 11, and 10 is removed, which stands before it: it stands on the link of 10, and
nothing is known of its next step.  In the map 11 comes first, and is returned again. -/
theorem not_rightRun_twoBuckets :
    ¬RightRun UtlHashBag.filing (UtlHashBagIterator.iteration tens)
        (UtlHashBagIterator.selects tens) twoBuckets.table
        [.start none, .step 0, .remove ⟨2, 20, 2⟩, .step 0] [] ∧
      ¬RightRun UtlHashBag.filing (UtlHashBagIterator.iteration tens)
        (UtlHashBagIterator.selects tens) twoBuckets.table
        [.start none, .step 0, .step 0, .remove ⟨1, 10, 1⟩] [.step 0] ∧
      ¬RightRun UtlHashMap.filing UtlHashMapIterator.iteration UtlHashMapIterator.selects
        twoBucketsMap.table
        [.start (), .step 0, .remove ⟨2, 20, 2, .internalNull⟩, .step 0] [] := by
  refine ⟨?_, ?_, ?_⟩
  · exact not_rightRun_of_returned ⟨1, 10, 1⟩ (by decide +kernel)
  · rintro ⟨s, s', hrun, hrun', -⟩
    have hall : ((Journeys.mk twoBuckets.table []).run UtlHashBag.filing
        (UtlHashBagIterator.iteration tens) (UtlHashBagIterator.selects tens)
        [.start none, .step 0, .step 0, .remove ⟨1, 10, 1⟩]).bind
          (fun s => s.run UtlHashBag.filing (UtlHashBagIterator.iteration tens)
            (UtlHashBagIterator.selects tens) [.step 0]) = none := by
      decide +kernel
    rw [hrun, Option.bind_some, hrun'] at hall
    exact absurd hall (by simp)
  · exact not_rightRun_of_returned ⟨0, 11, 1, .internalNull⟩ (by decide +kernel)

end UtlHash

end SipXRouter
