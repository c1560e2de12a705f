import Mathlib.Algebra.Order.Group.Multiset

/-!
# Tables of sorted chains

A table files its entries in `2 ^ bits` chains.  The chain of an entry is given by its key,
and within a chain the keys follow one another in a fixed order, so that a search can stop
at the first key that comes later.
-/

namespace SipXRouter

open List

/-- The order of the keys in a chain.  `stops k e` says that the walk for a new key `k`
ends at an entry with the key `e`, before which the new entry then stands. -/
structure ChainOrder (κ : Type*) where
  le : κ → κ → Bool
  stops : κ → κ → Bool
  refl : ∀ k, le k k = true
  trans : ∀ {a b c}, le a b = true → le b c = true → le a c = true
  le_of_stops : ∀ {k e}, stops k e = true → le k e = true
  le_of_goesOn : ∀ {k e}, stops k e = false → le e k = true

/-- How entries are filed: by a key, in the order of the keys, in a chain of the
`2 ^ bits` that there are. -/
structure Filing (α κ : Type*) where
  key : α → κ
  order : ChainOrder κ
  chain : Nat → κ → Nat
  chain_lt : ∀ bits k, chain bits k < 2 ^ bits

namespace Filing

variable {α κ : Type*} {a : α} {chain : List α} {k : κ} (f : Filing α κ)

/-! ## One chain -/

/-- A new entry is put before the first one at which the walk stops. -/
def insert (a : α) : List α → List α
  | [] => [a]
  | b :: chain => if f.order.stops (f.key a) (f.key b) then a :: b :: chain else b :: insert a chain

/-- A search along a chain, up to the first later key. -/
def search (k : κ) (found : α → Bool) : List α → Option α
  | [] => none
  | a :: chain =>
    if f.order.le (f.key a) k then
      if found a then some a else search k found chain
    else none

/-- The keys of a chain follow in order. -/
def Sorted (chain : List α) : Prop :=
  chain.Pairwise fun a b => f.order.le (f.key a) (f.key b) = true

theorem insert_perm (a : α) (chain : List α) : (f.insert a chain).Perm (a :: chain) := by
  induction chain with
  | nil => rfl
  | cons b chain ih =>
    rw [insert]
    split
    · rfl
    · exact (ih.cons b).trans (Perm.swap a b chain)

theorem sorted_insert (h : f.Sorted chain) : f.Sorted (f.insert a chain) := by
  induction chain with
  | nil => exact pairwise_singleton _ _
  | cons b chain ih =>
    obtain ⟨hb, hchain⟩ := pairwise_cons.mp h
    rw [insert]
    split
    · next hstops =>
        have hab := f.order.le_of_stops hstops
        refine pairwise_cons.mpr ⟨fun c hc => ?_, h⟩
        rcases mem_cons.mp hc with rfl | hc
        · exact hab
        · exact f.order.trans hab (hb c hc)
    · next hgoes =>
        have hba := f.order.le_of_goesOn (Bool.eq_false_iff.mpr hgoes)
        refine pairwise_cons.mpr ⟨fun c hc => ?_, ih hchain⟩
        rcases mem_cons.mp ((f.insert_perm a chain).mem_iff.mp hc) with rfl | hc
        · exact hba
        · exact hb c hc

theorem sorted_erase [DecidableEq α] (h : f.Sorted chain) :
    f.Sorted (chain.erase a) := h.sublist erase_sublist

/-- In a sorted chain the search that stops at the first larger key misses nothing. -/
theorem search_eq_find? {found : α → Bool} (h : f.Sorted chain)
    (hfound : ∀ a ∈ chain, found a = true → f.key a = k) :
    f.search k found chain = chain.find? found := by
  induction chain with
  | nil => rfl
  | cons a chain ih =>
    obtain ⟨ha, hchain⟩ := pairwise_cons.mp h
    rw [search, find?_cons]
    split
    · split
      · next htrue => rw [htrue]
      · next hfalse =>
          rw [Bool.eq_false_iff.mpr hfalse, ih hchain fun b hb => hfound b (mem_cons_of_mem a hb)]
    · next hlater =>
        -- what comes after a later key is later still
        have hnone : ∀ b ∈ a :: chain, ¬found b = true := by
          intro b hb hbk
          apply hlater
          rcases mem_cons.mp hb with rfl | hb'
          · rw [hfound b hb hbk]
            exact f.order.refl k
          · rw [← hfound b hb hbk]
            exact ha b hb'
        rw [← find?_cons, find?_eq_none.mpr hnone]

end Filing

/-! ## Tables -/

/-- The chains of a table, and the count that is kept of their entries. -/
structure Table (α : Type*) where
  elements : Nat
  bits : Nat
  chains : List (List α)
deriving DecidableEq

namespace Table

variable {α κ : Type*} {a : α} {chain : List α} {k : κ} {cs : List (List α)}

/-- A table without entries, for a count of them. -/
def blank (elements bits : Nat) : Table α := ⟨elements, bits, replicate (2 ^ bits) []⟩

/-- The entries of a table. -/
def content (t : Table α) : Multiset α := (t.chains.flatten : Multiset α)

/-- A chain is changed. -/
def modify (t : Table α) (i : Nat) (g : List α → List α) : Table α :=
  { t with chains := t.chains.modify i g }

@[simp] theorem modify_elements (t : Table α) (i : Nat) (g : List α → List α) :
    (t.modify i g).elements = t.elements := rfl

@[simp] theorem modify_bits (t : Table α) (i : Nat) (g : List α → List α) :
    (t.modify i g).bits = t.bits := rfl

theorem content_modify (t : Table α) {i : Nat} (g : List α → List α) (h : i < t.chains.length) :
    (t.modify i g).content + (t.chains[i] : Multiset α) = t.content + (g t.chains[i] : Multiset α) := by
  obtain ⟨elements, bits, chains⟩ := t
  unfold modify content
  induction chains generalizing i with
  | nil => exact absurd h (Nat.not_lt_zero _)
  | cons c chains ih =>
    cases i with
    | zero =>
      simp only [modify_zero_cons, flatten_cons, ← Multiset.coe_add,
        getElem_cons_zero]
      rw [add_right_comm, add_comm (g c : Multiset α), add_right_comm]
    | succ i =>
      simp only [modify_succ_cons, flatten_cons, ← Multiset.coe_add,
        getElem_cons_succ]
      rw [add_assoc, add_assoc, ih (Nat.lt_of_succ_lt_succ h)]

section Filed

variable (f : Filing α κ)

/-- Every entry is in its chain, and every chain is in order. -/
structure Filed (t : Table α) : Prop where
  length_eq : t.chains.length = 2 ^ t.bits
  chain_eq : ∀ i (h : i < t.chains.length), ∀ a ∈ t.chains[i], f.chain t.bits (f.key a) = i
  sorted : ∀ chain ∈ t.chains, f.Sorted chain

/-- The count is that of the entries. -/
def Counted (t : Table α) : Prop := t.elements = t.content.card

/-- The chain of a key. -/
def chainOf (t : Table α) (k : κ) : List α := t.chains.getD (f.chain t.bits k) []

/-- The entry is put into its chain. -/
def file (t : Table α) (a : α) : Table α := t.modify (f.chain t.bits (f.key a)) (f.insert a)

/-- The search for an entry of a key. -/
def lookup (t : Table α) (k : κ) (found : α → Bool) : Option α :=
  f.search k found (t.chainOf f k)

/-- The entry is taken out of its chain. -/
def detach [DecidableEq α] (t : Table α) (a : α) : Table α :=
  t.modify (f.chain t.bits (f.key a)) (·.erase a)

/-- The entries of some chains are filed, one after another, until the count is used up. -/
def fileAll : Nat → List (List α) → Table α → Table α
  | _, [], t => t
  | toBeMoved, c :: cs, t =>
    if toBeMoved = 0 then t else fileAll (toBeMoved - c.length) cs (c.foldl (file f) t)

/-- The table with another number of chains. -/
def refile (t : Table α) (bits : Nat) : Table α :=
  fileAll f t.elements t.chains (blank t.elements bits)

/-- The chains are emptied until the count is used up. -/
def emptied : Nat → List (List α) → List (List α)
  | _, [] => []
  | toBeRemoved, c :: cs =>
    if toBeRemoved = 0 then c :: cs else [] :: emptied (toBeRemoved - c.length) cs

/-- The entries of the chains that are emptied. -/
def taken : Nat → List (List α) → List α
  | _, [] => []
  | toBeRemoved, c :: cs =>
    if toBeRemoved = 0 then [] else c ++ taken (toBeRemoved - c.length) cs

/-- All entries are taken out. -/
def clear (t : Table α) : Table α :=
  { t with elements := 0, chains := emptied t.elements t.chains }

variable {f} {t : Table α}

/-! ### One chain of a table -/

theorem filed_blank (elements bits : Nat) : Filed f (blank elements bits : Table α) where
  length_eq := length_replicate
  chain_eq i h a ha := by
    rw [show (blank elements bits : Table α).chains[i] = [] from getElem_replicate _] at ha
    exact absurd ha not_mem_nil
  sorted chain hchain := by
    rw [eq_of_mem_replicate hchain]
    exact List.Pairwise.nil

theorem content_blank (elements bits : Nat) : (blank elements bits : Table α).content = 0 := by
  rw [content, blank, flatten_replicate_nil]
  rfl

theorem Filed.chain_lt (h : Filed f t) (k : κ) : f.chain t.bits k < t.chains.length := by
  rw [h.length_eq]
  exact f.chain_lt t.bits k

theorem chainOf_eq (h : f.chain t.bits k < t.chains.length) :
    t.chainOf f k = t.chains[f.chain t.bits k] := by
  rw [chainOf, getD_eq_getElem?_getD, getElem?_eq_getElem h]
  rfl

theorem Filed.mem_chainOf (h : Filed f t) : a ∈ t.chainOf f (f.key a) ↔ a ∈ t.content := by
  rw [chainOf_eq (h.chain_lt _), content, Multiset.mem_coe, mem_flatten]
  constructor
  · intro ha
    exact ⟨_, getElem_mem _, ha⟩
  · rintro ⟨chain, hchain, ha⟩
    obtain ⟨i, hi, rfl⟩ := getElem_of_mem hchain
    have heq := h.chain_eq i hi a ha
    simpa only [heq] using ha

theorem Filed.mem_content_of_mem_chainOf (h : Filed f t)
    (ha : a ∈ t.chainOf f k) : a ∈ t.content := by
  rw [chainOf_eq (h.chain_lt k)] at ha
  rw [content, Multiset.mem_coe, mem_flatten]
  exact ⟨_, getElem_mem _, ha⟩

theorem Filed.sorted_chainOf (h : Filed f t) (k : κ) : f.Sorted (t.chainOf f k) := by
  rw [chainOf_eq (h.chain_lt k)]
  exact h.sorted _ (getElem_mem _)

/-- A chain may be changed as long as it stays sorted and its members belong there. -/
theorem Filed.modify (h : Filed f t) {i : Nat} {g : List α → List α}
    (hsorted : ∀ chain, f.Sorted chain → f.Sorted (g chain))
    (hmem : ∀ chain, ∀ a ∈ g chain, a ∈ chain ∨ f.chain t.bits (f.key a) = i) :
    Filed f (t.modify i g) where
  length_eq := by
    rw [Table.modify, length_modify]
    exact h.length_eq
  chain_eq j hj a ha := by
    rw [Table.modify, length_modify] at hj
    simp only [Table.modify, getElem_modify] at ha
    split at ha
    · next hij =>
        rcases hmem _ a ha with ha | ha
        · exact h.chain_eq j hj a ha
        · rw [← hij]
          exact ha
    · exact h.chain_eq j hj a ha
  sorted chain hchain := by
    obtain ⟨j, hj, rfl⟩ := getElem_of_mem hchain
    rw [Table.modify, length_modify] at hj
    simp only [Table.modify, getElem_modify]
    split
    · exact hsorted _ (h.sorted _ (getElem_mem hj))
    · exact h.sorted _ (getElem_mem hj)

theorem Filed.file (h : Filed f t) (a : α) : Filed f (t.file f a) := by
  refine h.modify (fun _ => f.sorted_insert) (fun chain b hb => ?_)
  rcases mem_cons.mp ((f.insert_perm a chain).mem_iff.mp hb) with rfl | hb
  · exact Or.inr rfl
  · exact Or.inl hb

theorem Filed.content_file (h : Filed f t) (a : α) : (t.file f a).content = a ::ₘ t.content := by
  have hmodify := content_modify t (f.insert a) (h.chain_lt (f.key a))
  rw [Multiset.coe_eq_coe.mpr (f.insert_perm a _), ← Multiset.cons_coe, Multiset.add_cons,
    ← Multiset.cons_add] at hmodify
  exact add_right_cancel hmodify

theorem Filed.detach [DecidableEq α] (h : Filed f t) (a : α) : Filed f (t.detach f a) :=
  h.modify (fun _ => f.sorted_erase) fun _ _ hb => Or.inl (mem_of_mem_erase hb)

theorem Filed.content_detach [DecidableEq α] (h : Filed f t) (ha : a ∈ t.content) :
    (t.detach f a).content = t.content.erase a := by
  have hmodify := content_modify t (·.erase a) (h.chain_lt (f.key a))
  have hchain := (h.mem_chainOf).mpr ha
  rw [chainOf_eq (h.chain_lt _)] at hchain
  have hperm := Multiset.coe_eq_coe.mpr (perm_cons_erase hchain)
  rw [← Multiset.cons_coe] at hperm
  rw [hperm, Multiset.add_cons, ← Multiset.cons_add] at hmodify
  rw [← add_right_cancel hmodify, Multiset.erase_cons_head]
  rfl

/-! ### Searches -/

theorem Filed.lookup_eq_some (h : Filed f t) {found : α → Bool}
    (hfound : ∀ a ∈ t.content, found a = true → f.key a = k) (ha : t.lookup f k found = some a) :
    a ∈ t.content ∧ found a = true := by
  rw [lookup, f.search_eq_find? (h.sorted_chainOf k)
    fun b hb => hfound b (h.mem_content_of_mem_chainOf hb)] at ha
  exact ⟨h.mem_content_of_mem_chainOf (mem_of_find?_eq_some ha), find?_some ha⟩

theorem Filed.lookup_eq_none (h : Filed f t) {found : α → Bool}
    (hfound : ∀ a ∈ t.content, found a = true → f.key a = k) (hnone : t.lookup f k found = none) :
    ∀ a ∈ t.content, ¬found a = true := by
  rw [lookup, f.search_eq_find? (h.sorted_chainOf k)
    fun b hb => hfound b (h.mem_content_of_mem_chainOf hb), find?_eq_none] at hnone
  intro a ha hfa
  have hchain := h.mem_chainOf.mpr ha
  rw [hfound a ha hfa] at hchain
  exact hnone a hchain hfa

/-! ### All chains of a table -/

@[simp] theorem foldl_file_elements (entries : List α) (t : Table α) :
    (entries.foldl (file f) t).elements = t.elements := by
  induction entries generalizing t with
  | nil => rfl
  | cons a entries ih => rw [foldl_cons, ih, file, modify_elements]

@[simp] theorem foldl_file_bits (entries : List α) (t : Table α) :
    (entries.foldl (file f) t).bits = t.bits := by
  induction entries generalizing t with
  | nil => rfl
  | cons a entries ih => rw [foldl_cons, ih, file, modify_bits]

theorem Filed.foldl_file (h : Filed f t) (entries : List α) :
    Filed f (entries.foldl (Table.file f) t) := by
  induction entries generalizing t with
  | nil => exact h
  | cons a entries ih => exact ih (h.file a)

theorem Filed.content_foldl_file (h : Filed f t) (entries : List α) :
    (entries.foldl (Table.file f) t).content = t.content + (entries : Multiset α) := by
  induction entries generalizing t with
  | nil => exact (add_zero _).symm
  | cons a entries ih =>
    rw [foldl_cons, ih (h.file a), h.content_file, Multiset.cons_add, ← Multiset.cons_coe,
      Multiset.add_cons]

theorem fileAll_eq {toBeMoved : Nat} (hcount : toBeMoved = cs.flatten.length)
    (t : Table α) : fileAll f toBeMoved cs t = cs.flatten.foldl (file f) t := by
  induction cs generalizing toBeMoved t with
  | nil => rfl
  | cons c cs ih =>
    rw [flatten_cons, length_append] at hcount
    rw [fileAll, flatten_cons, foldl_append]
    split
    · next hzero =>
        have hc : c = [] := eq_nil_of_length_eq_zero (by omega)
        have hcs : cs.flatten = [] := eq_nil_of_length_eq_zero (by omega)
        rw [hc, hcs]
        rfl
    · exact ih (by omega) _

theorem emptied_eq {toBeRemoved : Nat}
    (hcount : toBeRemoved = cs.flatten.length) : emptied toBeRemoved cs = cs.map fun _ => [] := by
  induction cs generalizing toBeRemoved with
  | nil => rfl
  | cons c cs ih =>
    rw [flatten_cons, length_append] at hcount
    rw [emptied, map_cons]
    split
    · next hzero =>
        have hc : c = [] := eq_nil_of_length_eq_zero (by omega)
        have hnil : ∀ d ∈ cs, d = [] :=
          flatten_eq_nil_iff.mp (eq_nil_of_length_eq_zero (by omega))
        rw [hc, map_congr_left (fun d hd => (hnil d hd).symm), map_id']
    · rw [ih (by omega)]

theorem taken_eq {toBeRemoved : Nat}
    (hcount : toBeRemoved = cs.flatten.length) : taken toBeRemoved cs = cs.flatten := by
  induction cs generalizing toBeRemoved with
  | nil => rfl
  | cons c cs ih =>
    rw [flatten_cons, length_append] at hcount
    rw [taken, flatten_cons]
    split
    · next hzero =>
        have hc : c = [] := eq_nil_of_length_eq_zero (by omega)
        have hcs : cs.flatten = [] := eq_nil_of_length_eq_zero (by omega)
        rw [hc, hcs]
        rfl
    · rw [ih (by omega)]

@[simp] theorem refile_elements (t : Table α) (hcount : t.Counted) (bits : Nat) :
    (t.refile f bits).elements = t.elements := by
  rw [refile, fileAll_eq hcount, foldl_file_elements]
  rfl

@[simp] theorem refile_bits (t : Table α) (hcount : t.Counted) (bits : Nat) :
    (t.refile f bits).bits = bits := by
  rw [refile, fileAll_eq hcount, foldl_file_bits]
  rfl

theorem Filed.refile (hcount : t.Counted) (bits : Nat) : Filed f (t.refile f bits) := by
  rw [Table.refile, fileAll_eq hcount]
  exact (filed_blank t.elements bits).foldl_file _

/-- A table is moved with every entry. -/
theorem content_refile (hcount : t.Counted) (bits : Nat) : (t.refile f bits).content = t.content := by
  rw [refile, fileAll_eq hcount, (filed_blank t.elements bits).content_foldl_file, content_blank,
    zero_add]
  rfl

theorem content_clear (hcount : t.Counted) : t.clear.content = 0 := by
  rw [clear, content, emptied_eq hcount]
  simp

theorem Filed.clear (h : Filed f t) (hcount : t.Counted) : Filed f t.clear := by
  refine ⟨?_, fun i hi a ha => ?_, fun chain hchain => ?_⟩
  · rw [Table.clear, emptied_eq hcount, length_map]
    exact h.length_eq
  · simp [Table.clear, emptied_eq hcount] at ha
  · simp only [Table.clear, emptied_eq hcount, mem_map] at hchain
    obtain ⟨-, -, rfl⟩ := hchain
    exact List.Pairwise.nil

end Filed

end Table

end SipXRouter
