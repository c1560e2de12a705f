import Mathlib.Data.List.Nodup

/-!
# Traversals of chains

A cursor stands in one of several chains, on an entry or before the first one, and goes
through the entries that follow it in its chain and in the chains after it.  Entries may be
taken out of the chains under way.
-/

namespace SipXRouter

open List

/-! ## Chains and their entries -/

section Chains

variable {α : Type*} [DecidableEq α] {chain : List α} {p : Nat}

/-- The entries of a chain after one of them. -/
def followers (a : α) (chain : List α) : List α := (chain.dropWhile (· != a)).tail

/-- The entry of a chain before one of them. -/
def predecessor (a : α) (chain : List α) : Option α := (chain.takeWhile (· != a)).getLast?

/-- The chain that an entry is in; there is none for an entry that was taken out. -/
def holding (chains : List (List α)) (a : α) : Option (List α) := chains.find? (a ∈ ·)

def without (chains : List (List α)) (x : α) : List (List α) :=
  chains.map fun chain => chain.filter (· ≠ x)

variable {a x : α} {pre post : List α} {chains : List (List α)}

theorem followers_append (ha : a ∉ pre) : followers a (pre ++ a :: post) = post := by
  have hpre : ∀ b ∈ pre, (b != a) = true := by
    intro b hb
    rw [bne_iff_ne]
    rintro rfl
    exact ha hb
  rw [followers, dropWhile_append_of_pos hpre, dropWhile_cons_of_neg (by simp),
    tail_cons]

theorem predecessor_append (ha : a ∉ pre) : predecessor a (pre ++ a :: post) = pre.getLast? := by
  have hpre : ∀ b ∈ pre, (b != a) = true := by
    intro b hb
    rw [bne_iff_ne]
    rintro rfl
    exact ha hb
  rw [predecessor, takeWhile_append_of_pos hpre, takeWhile_cons_of_neg (by simp),
    append_nil]

@[simp] theorem length_without (chains : List (List α)) (x : α) :
    (without chains x).length = chains.length := length_map _

theorem flatten_without (chains : List (List α)) (x : α) :
    (without chains x).flatten = chains.flatten.filter (· ≠ x) := by
  rw [without, filter_flatten]

theorem mem_flatten_without {y : α} :
    y ∈ (without chains x).flatten ↔ y ∈ chains.flatten ∧ y ≠ x := by
  rw [flatten_without, mem_filter, decide_eq_true_iff]

theorem nodup_without (h : chains.flatten.Nodup) (x : α) : (without chains x).flatten.Nodup := by
  rw [flatten_without]
  exact h.filter _

theorem holding_eq (h : chains.flatten.Nodup)
    (hchain : chains[p]? = some chain) (ha : a ∈ chain) : holding chains a = some chain := by
  induction chains generalizing p with
  | nil => simp at hchain
  | cons c chains ih =>
    rw [flatten_cons, List.nodup_append] at h
    cases p with
    | zero =>
      rw [getElem?_cons_zero, Option.some_inj] at hchain
      rw [holding, find?_cons_of_pos (by simpa [hchain] using ha), hchain]
    | succ p =>
      rw [getElem?_cons_succ] at hchain
      have hflat : a ∈ chains.flatten :=
        mem_flatten.mpr ⟨chain, mem_of_getElem? hchain, ha⟩
      have hac : a ∉ c := fun hac => h.2.2 a hac a hflat rfl
      rw [holding, find?_cons_of_neg (by simpa using hac)]
      exact ih h.2.1 hchain

omit [DecidableEq α] in
theorem index_unique (h : chains.flatten.Nodup) {q : Nat} {chain' : List α}
    (hp : chains[p]? = some chain) (hq : chains[q]? = some chain') (ha : a ∈ chain)
    (ha' : a ∈ chain') : p = q := by
  induction chains generalizing p q with
  | nil => simp at hp
  | cons c chains ih =>
    rw [flatten_cons, List.nodup_append] at h
    have hflat : ∀ {i : Nat} {d : List α}, chains[i]? = some d → a ∈ d → a ∈ c → False := by
      intro i d hd had hac
      have hmem : a ∈ chains.flatten := mem_flatten.mpr ⟨d, mem_of_getElem? hd, had⟩
      exact h.2.2 a hac a hmem rfl
    cases p with
    | zero =>
      rw [getElem?_cons_zero, Option.some_inj] at hp
      cases q with
      | zero => rfl
      | succ q => exact (hflat hq ha' (hp ▸ ha)).elim
    | succ p =>
      cases q with
      | zero =>
        rw [getElem?_cons_zero, Option.some_inj] at hq
        exact (hflat hp ha (hq ▸ ha')).elim
      | succ q => rw [ih h.2.1 hp hq]

end Chains

/-- A cursor: the number of its chain, and the entry it stands on. -/
structure Cursor (α : Type*) where
  position : Nat
  current : Option α
deriving DecidableEq

namespace Cursor

variable {α : Type*} {chain : List α} {p : Nat} {chains : List (List α)}

/-! ## Chains one after another -/

/-- The chains after the one at a position are looked through for one that is not empty. -/
def skip : List (List α) → Nat → Option α × Nat
  | [], position => (none, position + 1)
  | chain :: chains, position =>
    match chain with
    | a :: _ => (some a, position + 1)
    | [] => skip chains (position + 1)

/-- The next entry, of the chain or of a later one, and its chain. -/
def walk (chains : List (List α)) (position : Nat) : List α → Option α × Nat
  | a :: _ => (some a, position)
  | [] => skip (chains.drop (position + 1)) position

theorem skip_spec {p : Nat} {cs : List (List α)} (hcs : cs = chains.drop (p + 1))
    (hp : p < chains.length) :
    match skip cs p with
    | (some a, p') =>
      ∃ post, chains[p']? = some (a :: post) ∧
        cs.flatten = a :: post ++ (chains.drop (p' + 1)).flatten
    | (none, p') => cs.flatten = [] ∧ p' = chains.length := by
  induction cs generalizing p with
  | nil =>
    rw [skip]
    refine ⟨rfl, ?_⟩
    have hle := drop_eq_nil_iff.mp hcs.symm
    omega
  | cons chain cs ih =>
    have hlt : p + 1 < chains.length := by
      by_contra hle
      rw [drop_eq_nil_of_le (Nat.le_of_not_lt hle)] at hcs
      exact cons_ne_nil _ _ hcs
    rw [drop_eq_getElem_cons hlt] at hcs
    obtain ⟨hchain, hrest⟩ := List.cons.inj hcs
    cases chain with
    | cons a post =>
      refine ⟨post, ?_, ?_⟩
      · rw [getElem?_eq_getElem hlt, ← hchain]
      · rw [flatten_cons, hrest]
    | nil => exact ih hrest hlt

theorem getElem?_of_lt (hp : p < chains.length) : ∃ chain, chains[p]? = some chain :=
  ⟨_, getElem?_eq_getElem hp⟩

variable [DecidableEq α]

/-! ## What is ahead -/

/-- What is left of the chain at a cursor. -/
def rest (chains : List (List α)) (c : Cursor α) : Option (List α) :=
  match c.current with
  | none => some (chains.getD c.position [])
  | some a => (holding chains a).map (followers a)

/-- All entries before the cursor. -/
def ahead (chains : List (List α)) (c : Cursor α) : List α :=
  if c.position < chains.length then
    (c.rest chains).getD [] ++ (chains.drop (c.position + 1)).flatten
  else []

/-- The entries before the cursor in its chain that pass a test. -/
def aheadOf (test : α → Bool) (chains : List (List α)) (c : Cursor α) : List α :=
  if c.position < chains.length then ((c.rest chains).getD []).filter test else []

/-- A cursor stands on an entry that is there, and in its own chain. -/
def Valid (chains : List (List α)) (c : Cursor α) : Prop :=
  ∀ a ∈ c.current, a ∈ chains.flatten ∧ ∀ chain ∈ chains[c.position]?, a ∈ chain

variable {c : Cursor α}

theorem rest_append (h : chains.flatten.Nodup) {a : α} {pre post : List α}
    (hchain : chains[p]? = some (pre ++ a :: post)) : rest chains ⟨p, some a⟩ = some post := by
  have hnodup : (pre ++ a :: post).Nodup :=
    (nodup_flatten.mp h).1 _ (mem_of_getElem? hchain)
  have ha : a ∉ pre := fun ha =>
    (List.nodup_append.mp hnodup).2.2 a ha a mem_cons_self rfl
  have hholding : holding chains a = some (pre ++ a :: post) :=
    holding_eq h hchain (mem_append_right pre mem_cons_self)
  show (holding chains a).map (followers a) = some post
  rw [hholding, Option.map_some, followers_append ha]

theorem rest_of_valid (h : chains.flatten.Nodup) (hc : c.Valid chains)
    (hchain : chains[c.position]? = some chain) :
    ∃ pre post, c.rest chains = some post ∧ chain = pre ++ post := by
  obtain ⟨p, current⟩ := c
  cases current with
  | none =>
    refine ⟨[], chain, ?_, rfl⟩
    rw [rest, getD_eq_getElem?_getD, hchain]
    rfl
  | some a =>
    obtain ⟨pre, post, rfl, -⟩ := eq_append_cons_of_mem ((hc a rfl).2 chain hchain)
    refine ⟨pre ++ [a], post, rest_append h hchain, ?_⟩
    rw [append_assoc]
    rfl

theorem ahead_subset (h : chains.flatten.Nodup) (hc : c.Valid chains) :
    c.ahead chains ⊆ chains.flatten := by
  intro a ha
  rw [ahead] at ha
  split at ha
  · next hp =>
      obtain ⟨chain, hchain⟩ := getElem?_of_lt hp
      obtain ⟨pre, post, hrest, rfl⟩ := rest_of_valid h hc hchain
      rw [hrest, Option.getD_some] at ha
      rcases mem_append.mp ha with ha | ha
      · exact mem_flatten.mpr
          ⟨_, mem_of_getElem? hchain, mem_append_right pre ha⟩
      · obtain ⟨chain', hchain', ha'⟩ := mem_flatten.mp ha
        exact mem_flatten.mpr ⟨chain', mem_of_mem_drop hchain', ha'⟩
  · exact absurd ha not_mem_nil

theorem aheadOf_subset (h : chains.flatten.Nodup) (hc : c.Valid chains) (test : α → Bool) :
    c.aheadOf test chains ⊆ chains.flatten := by
  intro a ha
  apply ahead_subset h hc
  rw [aheadOf] at ha
  rw [ahead]
  split at ha
  · next hp =>
      rw [if_pos hp]
      exact mem_append_left _ (mem_filter.mp ha).1
  · exact absurd ha not_mem_nil

/-! ## Steps and what is ahead -/

theorem ahead_of_reached (h : chains.flatten.Nodup) {a : α} {p : Nat} {pre post : List α}
    (hp : chains[p]? = some (pre ++ a :: post)) :
    Valid chains ⟨p, some a⟩ ∧ ahead chains ⟨p, some a⟩ = post ++ (chains.drop (p + 1)).flatten := by
  have ha : a ∈ pre ++ a :: post := mem_append_right pre mem_cons_self
  refine ⟨fun b hb => ?_, ?_⟩
  · obtain rfl := Option.some_inj.mp hb
    refine ⟨mem_flatten.mpr ⟨_, mem_of_getElem? hp, ha⟩, fun chain hchain => ?_⟩
    rw [hp] at hchain
    rw [← Option.some_inj.mp hchain]
    exact ha
  · rw [ahead, if_pos (List.getElem?_eq_some_iff.mp hp).1, rest_append h hp, Option.getD_some]

/-- **A step of a walk** returns the first entry ahead and has the others before it. -/
theorem walk_spec (h : chains.flatten.Nodup) (hc : c.Valid chains) (hp : c.position < chains.length) :
    ∃ post found p', c.rest chains = some post ∧ walk chains c.position post = (found, p') ∧
      match found with
      | some a => Valid chains ⟨p', some a⟩ ∧ c.ahead chains = a :: ahead chains ⟨p', some a⟩
      | none => c.ahead chains = [] ∧ p' = chains.length := by
  obtain ⟨chain, hchain⟩ := getElem?_of_lt hp
  obtain ⟨pre, post, hrest, rfl⟩ := rest_of_valid h hc hchain
  cases post with
  | cons a post =>
    obtain ⟨hvalid, hahead⟩ := ahead_of_reached h hchain
    refine ⟨_, some a, c.position, hrest, rfl, hvalid, ?_⟩
    rw [ahead, if_pos hp, hrest, hahead]
    rfl
  | nil =>
    have hskip := @skip_spec _ chains _ _ rfl hp
    rcases hfound : skip (chains.drop (c.position + 1)) c.position with ⟨found, p'⟩
    rw [hfound] at hskip
    refine ⟨[], found, p', hrest, hfound, ?_⟩
    rw [ahead, if_pos hp, hrest, Option.getD_some, nil_append]
    cases found with
    | none => exact hskip
    | some a =>
      obtain ⟨post', hp', hflatten⟩ := hskip
      obtain ⟨hvalid, hahead⟩ := @ahead_of_reached _ _ _ h a p' [] post' hp'
      refine ⟨hvalid, ?_⟩
      rw [hflatten, hahead]
      rfl

/-- **A step of a search** returns the first entry ahead that passes the test. -/
theorem find_spec (h : chains.flatten.Nodup) (hc : c.Valid chains) (hp : c.position < chains.length)
    (test : α → Bool) :
    ∃ pre post found, c.rest chains = some post ∧ chains[c.position]? = some (pre ++ post) ∧
      post.find? test = found ∧
      match found with
      | some a =>
        Valid chains ⟨c.position, some a⟩ ∧
          c.aheadOf test chains = a :: aheadOf test chains ⟨c.position, some a⟩
      | none => c.aheadOf test chains = [] := by
  obtain ⟨chain, hchain⟩ := getElem?_of_lt hp
  obtain ⟨pre, post, hrest, rfl⟩ := rest_of_valid h hc hchain
  refine ⟨pre, post, _, hrest, hchain, rfl, ?_⟩
  rw [aheadOf, if_pos hp, hrest, Option.getD_some]
  cases hfind : post.find? test with
  | none => exact filter_eq_nil_iff.mpr (find?_eq_none.mp hfind)
  | some a =>
    obtain ⟨htest, skipped, post', rfl, hskipped⟩ := find?_eq_some_iff_append.mp hfind
    have hchain' : chains[c.position]? = some ((pre ++ skipped) ++ a :: post') := by
      rw [append_assoc]
      exact hchain
    have hnone : skipped.filter test = [] :=
      filter_eq_nil_iff.mpr fun b hb => by simpa using hskipped b hb
    refine ⟨(ahead_of_reached h hchain').1, ?_⟩
    rw [aheadOf, if_pos hp, rest_append h hchain', Option.getD_some, filter_append, hnone,
      nil_append, filter_cons_of_pos htest]

/-! ## Entries that are taken out -/

/-- The cursor is moved from the entry it stands on to the one before it. -/
def stepBack (chains : List (List α)) (c : Cursor α) : Option (Cursor α) :=
  match c.current with
  | none => some c
  | some a => (holding chains a).map fun chain => { c with current := predecessor a chain }

theorem getElem?_without (hchain : chains[p]? = some chain) (x : α) :
    (without chains x)[p]? = some (chain.filter (· ≠ x)) := by
  rw [without, getElem?_map, hchain]
  rfl

/-- **A cursor that is moved back** when its entry is taken out, or that stands on none, has the
same before it but for that entry. -/
theorem stepBack_spec (h : chains.flatten.Nodup) (hc : c.Valid chains) {x : α}
    (hx : c.current = none ∨ c.current = some x) :
    ∃ c', c.stepBack chains = some c' ∧ c'.position = c.position ∧ c'.Valid (without chains x) ∧
      (c.position < chains.length →
        c'.rest (without chains x) = (c.rest chains).map fun post => post.filter (· ≠ x)) := by
  obtain ⟨p, current⟩ := c
  rcases hx with rfl | rfl
  · refine ⟨⟨p, none⟩, rfl, rfl, fun a ha => absurd ha (by simp), fun hp => ?_⟩
    obtain ⟨chain, hchain⟩ := getElem?_of_lt (p := p) hp
    show some ((without chains x).getD p []) = (some (chains.getD p [])).map _
    rw [getD_eq_getElem?_getD, getD_eq_getElem?_getD, getElem?_without hchain, hchain]
    rfl
  · obtain ⟨hflat, hpos⟩ := hc x rfl
    obtain ⟨chain, hmem, hxchain⟩ := mem_flatten.mp hflat
    obtain ⟨q, hq⟩ := getElem?_of_mem hmem
    obtain ⟨pre, post, rfl, hpre⟩ := eq_append_cons_of_mem hxchain
    have hstep : stepBack chains ⟨p, some x⟩ = some ⟨p, pre.getLast?⟩ := by
      show (holding chains x).map _ = _
      rw [holding_eq h hq hxchain, Option.map_some, predecessor_append hpre]
    have hfilter : (pre ++ x :: post).filter (· ≠ x) = pre ++ post.filter (· ≠ x) := by
      rw [filter_append, filter_cons_of_neg (by simp),
        filter_eq_self.mpr fun b hb => decide_eq_true (by rintro rfl; exact hpre hb)]
    have hq' : (without chains x)[q]? = some (pre ++ post.filter (· ≠ x)) := by
      rw [getElem?_without hq, hfilter]
    -- a cursor that is still in the chains stands in the chain of its entry
    have hpq : p < chains.length → p = q := by
      intro hp
      obtain ⟨chain, hchain⟩ := getElem?_of_lt (p := p) hp
      exact index_unique h hchain hq (hpos chain hchain) hxchain
    refine ⟨_, hstep, rfl, fun a ha => ?_, fun hp => ?_⟩
    · have hapre : a ∈ pre := mem_of_getLast? ha
      have haout : a ∈ pre ++ post.filter (· ≠ x) := mem_append_left _ hapre
      refine ⟨mem_flatten.mpr ⟨_, mem_of_getElem? hq', haout⟩, fun chain hchain => ?_⟩
      have hp : p < chains.length := by
        have hlt := (List.getElem?_eq_some_iff.mp hchain).1
        rwa [length_without] at hlt
      rw [show (without chains x)[p]? = _ from hpq hp ▸ hq'] at hchain
      rw [← Option.some_inj.mp hchain]
      exact haout
    · obtain rfl := hpq hp
      rw [rest_append h hq, Option.map_some]
      rcases eq_nil_or_concat pre with rfl | ⟨pre', y, rfl⟩
      · show some ((without chains x).getD p []) = _
        rw [getD_eq_getElem?_getD, hq']
        rfl
      · rw [concat_eq_append, getLast?_concat]
        have hsplit : (without chains x)[p]? = some (pre' ++ y :: post.filter (· ≠ x)) := by
          rw [hq', concat_eq_append, append_assoc]
          rfl
        exact rest_append (nodup_without h x) hsplit

theorem ahead_stepBack {c' : Cursor α} (h : chains.flatten.Nodup) (hc : c.Valid chains) {x : α}
    (hposition : c'.position = c.position) (hrest : c.position < chains.length →
      c'.rest (without chains x) = (c.rest chains).map fun post => post.filter (· ≠ x)) :
    c'.ahead (without chains x) = (c.ahead chains).filter (· ≠ x) := by
  rw [ahead, ahead, length_without, hposition]
  split
  · next hp =>
      obtain ⟨chain, hchain⟩ := getElem?_of_lt hp
      obtain ⟨pre, post, hpost, -⟩ := rest_of_valid h hc hchain
      rw [hrest hp, hpost, Option.map_some, Option.getD_some, Option.getD_some, filter_append,
        without, ← map_drop, filter_flatten]
  · rfl

theorem aheadOf_stepBack {c' : Cursor α} (h : chains.flatten.Nodup) (hc : c.Valid chains) {x : α}
    (test : α → Bool) (hposition : c'.position = c.position) (hrest : c.position < chains.length →
      c'.rest (without chains x) = (c.rest chains).map fun post => post.filter (· ≠ x)) :
    c'.aheadOf test (without chains x) = (c.aheadOf test chains).filter (· ≠ x) := by
  rw [aheadOf, aheadOf, length_without, hposition]
  split
  · next hp =>
      obtain ⟨chain, hchain⟩ := getElem?_of_lt hp
      obtain ⟨pre, post, hpost, -⟩ := rest_of_valid h hc hchain
      rw [hrest hp, hpost, Option.map_some, Option.getD_some, Option.getD_some, filter_comm]
  · rfl

end Cursor

/-! ## Accounts -/

/-- The account of a traversal over the entries of `start`: those that it has returned and
those that it has ahead are, in order, all that were returned or are still there. -/
structure Fair {α : Type*} [DecidableEq α] (start returned ahead present : List α) : Prop where
  nodup : start.Nodup
  split : returned ++ ahead = start.filter fun a => a ∈ returned ∨ a ∈ present

namespace Fair

variable {α : Type*} [DecidableEq α] {start returned ahead present : List α}

theorem new (hnodup : start.Nodup) (hpresent : start ⊆ present) : Fair start [] start present where
  nodup := hnodup
  split := by
    rw [nil_append]
    exact (filter_eq_self.mpr fun a ha => decide_eq_true (Or.inr (hpresent ha))).symm

theorem take {a : α} (h : Fair start returned (a :: ahead) present) (ha : a ∈ present) :
    Fair start (returned ++ [a]) ahead present where
  nodup := h.nodup
  split := by
    rw [append_assoc, singleton_append, h.split]
    refine filter_congr fun b _ => decide_eq_decide.mpr ?_
    rw [mem_append, mem_singleton]
    constructor
    · rintro (hb | hb)
      · exact Or.inl (Or.inl hb)
      · exact Or.inr hb
    · rintro ((hb | rfl) | hb)
      · exact Or.inl hb
      · exact Or.inr ha
      · exact Or.inr hb

theorem nodup_append (h : Fair start returned ahead present) : (returned ++ ahead).Nodup := by
  rw [h.split]
  exact h.nodup.filter _

/-- An entry is taken out. -/
theorem remove (h : Fair start returned ahead present) (x : α) :
    Fair start returned (ahead.filter (· ≠ x)) (present.filter (· ≠ x)) where
  nodup := h.nodup
  split := by
    -- what was returned stays, and of the rest goes what is taken out
    have hfilter := congrArg (filter fun a => a ∈ returned ∨ a ≠ x) h.split
    have hreturned : returned.filter (fun a => a ∈ returned ∨ a ≠ x) = returned :=
      filter_eq_self.mpr fun a ha => decide_eq_true (Or.inl ha)
    have hahead : ahead.filter (fun a => a ∈ returned ∨ a ≠ x) = ahead.filter (· ≠ x) := by
      refine filter_congr fun a ha => decide_eq_decide.mpr (or_iff_right fun hreturned => ?_)
      exact (List.nodup_append.mp h.nodup_append).2.2 a hreturned a ha rfl
    rw [filter_append, hreturned, hahead, filter_filter] at hfilter
    rw [hfilter]
    refine filter_congr fun a _ => ?_
    rw [← Bool.decide_and]
    refine decide_eq_decide.mpr ?_
    rw [mem_filter, decide_eq_true_iff, and_comm, ← or_and_left]

theorem nodup_returned (h : Fair start returned ahead present) : returned.Nodup :=
  (List.nodup_append.mp h.nodup_append).1

theorem returned_subset (h : Fair start returned ahead present) : returned ⊆ start := by
  intro a ha
  have hmem : a ∈ returned ++ ahead := mem_append_left ahead ha
  rw [h.split] at hmem
  exact (mem_filter.mp hmem).1

theorem mem_returned (h : Fair start returned [] present) {a : α} (hstart : a ∈ start)
    (ha : a ∈ present) : a ∈ returned := by
  have hmem : a ∈ start.filter fun a => a ∈ returned ∨ a ∈ present :=
    mem_filter.mpr ⟨hstart, decide_eq_true (Or.inr ha)⟩
  rw [← h.split, append_nil] at hmem
  exact hmem

end Fair

end SipXRouter
