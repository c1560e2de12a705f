import Mathlib.Data.List.Nodup
import Mathlib.Data.Set.Insert
import Mathlib.Logic.Function.Basic
import Mathlib.Logic.Relation
import SipXRouter.Preference

/-!
# How transactions are linked to trees

A transaction points to its parent and has a list of its children, in the order of their
q values.  `linkChild` sets both, and gives the child the busy mark of its new parent.

## Design notes

A q value is a `double`, of which only the comparison is used: any preorder will do, so
that also what cannot be compared is covered.
-/

namespace SipXRouter

open List

namespace TransactionLinks

open Preference

/-- What is read and written of a `SipTransaction` here. -/
structure SipTransaction (ι Q : Type*) where
  parentTransaction : Option ι := none
  childTransactions : List ι := []
  qvalue : Q
  isBusy : Int := 0
  isServerTransaction : Bool := false
  isUaTransaction : Bool := true

/-- The transactions by their addresses. -/
abbrev Transactions (ι Q : Type*) := ι → SipTransaction ι Q

variable {ι Q : Type*} {calls : List (ι × ι)} {cs : List ι}

namespace Transactions

def qvalue (h : Transactions ι Q) (t : ι) : Q := (h t).qvalue

variable [DecidableEq ι]

def write (h : Transactions ι Q) (t : ι) (f : SipTransaction ι Q → SipTransaction ι Q) :
    Transactions ι Q :=
  Function.update h t (f (h t))

theorem write_apply (h : Transactions ι Q) (t x : ι) (f : SipTransaction ι Q → SipTransaction ι Q) :
    h.write t f x = if x = t then f (h x) else h x := by
  rw [write, Function.update_apply]
  split
  · rename_i hx
    rw [hx]
  · rfl

end Transactions

variable [Preorder Q] [DecidableLT Q]

/-! ## Linking -/

/-- The loop of `linkChild`: the index of the first child with a smaller q value. -/
def findSortIndex (h : Transactions ι Q) (newChild : ι) : (sortIndex : Nat) → List ι → Option Nat
  | _, [] => none
  | sortIndex, childTransaction :: rest =>
    if (h childTransaction).qvalue < (h newChild).qvalue then some sortIndex
    else findSortIndex h newChild (sortIndex + 1) rest

variable [DecidableEq ι]

/-- The new list of children of `linkChild`. -/
def insertChild (h : Transactions ι Q) (childTransactions : List ι) (newChild : ι) : List ι :=
  if newChild ∈ childTransactions then childTransactions
  else
    match findSortIndex h newChild 0 childTransactions with
    | some sortIndex => childTransactions.insertIdx sortIndex newChild
    -- it goes last
    | none => childTransactions ++ [newChild]

/-- The first part of `linkChild`: the pointer and the mark. -/
def adopt (h : Transactions ι Q) (this newChild : ι) : Transactions ι Q :=
  let h := h.write newChild fun t => { t with parentTransaction := some this }
  h.write newChild fun t => { t with isBusy := (h this).isBusy }

/-- The second part of `linkChild`: the list of children. -/
def addToChildren (h : Transactions ι Q) (this newChild : ι) : Transactions ι Q :=
  h.write this fun t =>
    { t with childTransactions := insertChild h t.childTransactions newChild }

/-- The third part of `linkChild`: a server UA transaction becomes a server proxy transaction. -/
def convertToProxy (h : Transactions ι Q) (this : ι) : Transactions ι Q :=
  if (h this).isServerTransaction && (h this).isUaTransaction then
    h.write this fun t => { t with isUaTransaction := false }
  else h

/-- A child is adopted, put in its place among the children, and its parent made a proxy. -/
def linkChild (h : Transactions ι Q) (this newChild : ι) : Transactions ι Q :=
  convertToProxy (addToChildren (adopt h this newChild) this newChild) this

/-- A sequence of calls, each with the parent and the new child. -/
def linkAll (h : Transactions ι Q) (calls : List (ι × ι)) : Transactions ι Q :=
  calls.foldl (fun h call => linkChild h call.1 call.2) h

variable {h : Transactions ι Q} {p c x : ι}

omit [DecidableEq ι] in
theorem findSortIndex_eq (k : Nat) (cs : List ι) :
    findSortIndex h c k cs = (cs.findIdx? fun d => h.qvalue d < h.qvalue c).map (· + k) := by
  induction cs generalizing k with
  | nil => rfl
  | cons d cs ih =>
    rw [findSortIndex, findIdx?_cons, ih]
    by_cases hlt : (h d).qvalue < (h c).qvalue
    · simp [Transactions.qvalue, hlt]
    · simp [Transactions.qvalue, hlt, Function.comp_def, Nat.add_comm, Nat.add_left_comm]

theorem insertChild_of_mem (hc : c ∈ cs) : insertChild h cs c = cs := if_pos hc

theorem insertChild_congr {h' : Transactions ι Q} (hq : h'.qvalue = h.qvalue) (cs : List ι) :
    insertChild h' cs c = insertChild h cs c := by
  unfold insertChild
  rw [findSortIndex_eq, findSortIndex_eq, hq]

theorem insertChild_of_notMem (hc : c ∉ cs) : insertChild h cs c = insertBelow h.qvalue c cs := by
  rw [insertChild, if_neg hc, findSortIndex_eq, ← elim_findIdx?_insertIdx]
  cases cs.findIdx? fun d => h.qvalue d < h.qvalue c with
  | none => rfl
  | some i => rfl

omit [Preorder Q] [DecidableLT Q] in
theorem proj_convertToProxy {β : Sort*} (π : SipTransaction ι Q → β)
    (hπ : ∀ t : SipTransaction ι Q, π { t with isUaTransaction := false } = π t)
    (h : Transactions ι Q) (t x : ι) : π (convertToProxy h t x) = π (h x) := by
  unfold convertToProxy
  split
  · rw [Transactions.write_apply]
    split
    · exact hπ (h x)
    · rfl
  · rfl

omit [Preorder Q] [DecidableLT Q] in
@[simp] theorem adopt_qvalue : (adopt h p c).qvalue = h.qvalue := by
  funext x
  simp only [Transactions.qvalue, adopt, Transactions.write_apply, apply_ite SipTransaction.qvalue,
    ite_self]

@[simp] theorem linkChild_qvalue : (linkChild h p c).qvalue = h.qvalue := by
  funext x
  show (linkChild h p c x).qvalue = (h x).qvalue
  unfold linkChild
  rw [proj_convertToProxy SipTransaction.qvalue fun _ => rfl]
  simp only [addToChildren, Transactions.write_apply, apply_ite SipTransaction.qvalue, ite_self]
  exact congrFun adopt_qvalue x

@[simp] theorem linkChild_parentTransaction : (linkChild h p c x).parentTransaction =
    if x = c then some p else (h x).parentTransaction := by
  unfold linkChild
  rw [proj_convertToProxy SipTransaction.parentTransaction fun _ => rfl]
  simp only [addToChildren, adopt, Transactions.write_apply,
    apply_ite SipTransaction.parentTransaction, ite_self]

@[simp] theorem linkChild_isBusy : (linkChild h p c x).isBusy =
    if x = c then (h p).isBusy else (h x).isBusy := by
  unfold linkChild
  rw [proj_convertToProxy SipTransaction.isBusy fun _ => rfl]
  simp only [addToChildren, adopt, Transactions.write_apply, apply_ite SipTransaction.isBusy,
    ite_self]

@[simp] theorem linkChild_childTransactions : (linkChild h p c x).childTransactions =
    if x = p then insertChild h (h p).childTransactions c else (h x).childTransactions := by
  have hadopt (y : ι) : (adopt h p c y).childTransactions = (h y).childTransactions := by
    simp only [adopt, Transactions.write_apply, apply_ite SipTransaction.childTransactions,
      ite_self]
  unfold linkChild
  rw [proj_convertToProxy SipTransaction.childTransactions fun _ => rfl, addToChildren,
    Transactions.write_apply]
  split
  · rename_i hx
    show insertChild _ (adopt h p c x).childTransactions c = _
    rw [hadopt, hx, insertChild_congr adopt_qvalue]
  · exact hadopt x

/-! ## The lists of children -/

/-- The lists of children are in the order of the q values and name no child twice. -/
structure Ordered (h : Transactions ι Q) : Prop where
  nonIncreasing : ∀ p, NonIncreasing h.qvalue (h p).childTransactions
  nodup : ∀ p, (h p).childTransactions.Nodup

theorem Ordered.linkChild (hord : Ordered h) (p c : ι) : Ordered (linkChild h p c) := by
  constructor
  · intro t
    rw [linkChild_qvalue, linkChild_childTransactions]
    split
    · by_cases hc : c ∈ (h p).childTransactions
      · rw [insertChild_of_mem hc]
        exact hord.nonIncreasing p
      · rw [insertChild_of_notMem hc]
        exact (hord.nonIncreasing p).insertBelow
    · exact hord.nonIncreasing t
  · intro t
    rw [linkChild_childTransactions]
    split
    · by_cases hc : c ∈ (h p).childTransactions
      · rw [insertChild_of_mem hc]
        exact hord.nodup p
      · rw [insertChild_of_notMem hc]
        exact nodup_insertBelow hc (hord.nodup p)
    · exact hord.nodup t

theorem mem_insertChild : x ∈ insertChild h cs c ↔ x = c ∨ x ∈ cs := by
  by_cases hc : c ∈ cs
  · rw [insertChild_of_mem hc]
    exact ⟨Or.inr, fun hx => hx.elim (fun heq => heq ▸ hc) id⟩
  · rw [insertChild_of_notMem hc, mem_insertBelow]

theorem mem_childTransactions_linkChild {t : ι} : x ∈ (linkChild h p c t).childTransactions ↔
    (t = p ∧ x = c) ∨ x ∈ (h t).childTransactions := by
  rw [linkChild_childTransactions]
  split
  · rename_i ht
    rw [mem_insertChild, ht]
    simp
  · rename_i ht
    simp [ht]

/-- A list of children as it would be with every new child at its end. -/
def inOrderOfLinking (p : ι) (children : List ι) (calls : List (ι × ι)) : List ι :=
  calls.foldl (fun cs call => if call.1 = p ∧ call.2 ∉ cs then cs ++ [call.2] else cs) children

theorem linkAll_cons (call : ι × ι) (calls : List (ι × ι)) :
    linkAll h (call :: calls) = linkAll (linkChild h call.1 call.2) calls := rfl

@[simp] theorem linkAll_qvalue (calls : List (ι × ι)) : (linkAll h calls).qvalue = h.qvalue := by
  induction calls generalizing h with
  | nil => rfl
  | cons call calls ih => rw [linkAll_cons, ih, linkChild_qvalue]

theorem Ordered.linkAll (hord : Ordered h) (calls : List (ι × ι)) : Ordered (linkAll h calls) := by
  induction calls generalizing h with
  | nil => exact hord
  | cons call calls ih => exact ih (hord.linkChild call.1 call.2)

theorem stable_linkChild [DecidableLE Q] (hord : Ordered h) {xs : List ι} (t p c : ι)
    (hxs : Stable h.qvalue xs (h t).childTransactions) :
    Stable h.qvalue (if p = t ∧ c ∉ xs then xs ++ [c] else xs)
      (linkChild h p c t).childTransactions := by
  rw [linkChild_childTransactions]
  by_cases hp : t = p
  · subst hp
    by_cases hc : c ∈ xs
    · rw [if_pos rfl, if_neg (fun hnot => hnot.2 hc), insertChild_of_mem (hxs.perm.mem_iff.mpr hc)]
      exact hxs
    · rw [if_pos rfl, if_pos ⟨rfl, hc⟩, insertChild_of_notMem (hxs.perm.mem_iff.not.mpr hc)]
      exact hxs.insertBelow (hord.nonIncreasing t) c
  · rw [if_neg hp, if_neg (fun hnot => hp hnot.1.symm)]
    exact hxs

theorem stable_linkAll [DecidableLE Q] (hord : Ordered h) {xs : List ι} (t : ι)
    (calls : List (ι × ι)) (hxs : Stable h.qvalue xs (h t).childTransactions) :
    Stable h.qvalue (inOrderOfLinking t xs calls) (linkAll h calls t).childTransactions := by
  induction calls generalizing h xs with
  | nil => exact hxs
  | cons call calls ih =>
    have hstep := stable_linkChild hord t call.1 call.2 hxs
    rw [← linkChild_qvalue (h := h) (p := call.1) (c := call.2)] at hstep ⊢
    exact ih (hord.linkChild call.1 call.2) hstep

theorem mem_linkAll {t : ι} (calls : List (ι × ι)) : x ∈ (linkAll h calls t).childTransactions ↔
    (t, x) ∈ calls ∨ x ∈ (h t).childTransactions := by
  induction calls generalizing h with
  | nil => simp [linkAll]
  | cons call calls ih =>
    rw [linkAll_cons, ih, mem_childTransactions_linkChild, mem_cons, Prod.ext_iff, ← or_assoc,
      or_comm (a := (t, x) ∈ calls)]

/-! ## The pointers and the marks -/

theorem linkAll_parentTransaction_of_notMem (hx : x ∉ calls.map Prod.snd) :
    (linkAll h calls x).parentTransaction = (h x).parentTransaction := by
  induction calls generalizing h with
  | nil => rfl
  | cons call calls ih =>
    rw [map_cons, mem_cons, not_or] at hx
    rw [linkAll_cons, ih hx.2, linkChild_parentTransaction, if_neg hx.1]

theorem linkAll_isBusy_of_notMem (hx : x ∉ calls.map Prod.snd) :
    (linkAll h calls x).isBusy = (h x).isBusy := by
  induction calls generalizing h with
  | nil => rfl
  | cons call calls ih =>
    rw [map_cons, mem_cons, not_or] at hx
    rw [linkAll_cons, ih hx.2, linkChild_isBusy, if_neg hx.1]

theorem linkAll_parentTransaction_of_last {earlier later : List (ι × ι)}
    (hc : c ∉ later.map Prod.snd) :
    (linkAll h (earlier ++ (p, c) :: later) c).parentTransaction = some p := by
  have hsplit : linkAll h (earlier ++ (p, c) :: later) =
      linkAll (linkChild (linkAll h earlier) p c) later := by
    rw [linkAll, foldl_append]
    rfl
  rw [hsplit, linkAll_parentTransaction_of_notMem hc, linkChild_parentTransaction, if_pos rfl]

/-- The pointers and the lists say the same, and a child has the mark of its parent. -/
structure Linked (h : Transactions ι Q) : Prop where
  mem_iff : ∀ p c, c ∈ (h p).childTransactions ↔ (h c).parentTransaction = some p
  isBusy_eq : ∀ p c, (h c).parentTransaction = some p → (h c).isBusy = (h p).isBusy

/-- A transaction that has just been made. -/
structure IsNew (h : Transactions ι Q) (c : ι) : Prop where
  parentTransaction : (h c).parentTransaction = none
  childTransactions : (h c).childTransactions = []

/-- Every call links a new transaction, and not to itself. -/
def LinksNew : Transactions ι Q → List (ι × ι) → Prop
  | _, [] => True
  | h, call :: calls =>
    (IsNew h call.2 ∧ call.2 ≠ call.1) ∧ LinksNew (linkChild h call.1 call.2) calls

/-- Two transactions are of one tree. -/
def SameTree (h : Transactions ι Q) : ι → ι → Prop :=
  Relation.EqvGen fun c p => (h c).parentTransaction = some p

omit [DecidableEq ι] [Preorder Q] [DecidableLT Q] in
theorem Linked.isBusy_eq_of_sameTree (hlinked : Linked h) {x y : ι} (hxy : SameTree h x y) :
    (h x).isBusy = (h y).isBusy := by
  induction hxy with
  | rel c p hparent => exact hlinked.isBusy_eq p c hparent
  | refl _ => rfl
  | symm _ _ _ ih => exact ih.symm
  | trans _ _ _ _ _ ih₁ ih₂ => exact ih₁.trans ih₂

/-- A new transaction is linked below its parent on both sides. -/
theorem Linked.linkChild (hlinked : Linked h) (hnew : IsNew h c) (hne : c ≠ p) :
    Linked (linkChild h p c) := by
  have hnot (t : ι) : c ∉ (h t).childTransactions := by
    rw [hlinked.mem_iff, hnew.parentTransaction]
    exact Option.some_ne_none t |>.symm
  constructor
  · intro t x
    rw [mem_childTransactions_linkChild, linkChild_parentTransaction]
    by_cases hx : x = c
    · subst hx
      rw [if_pos rfl, Option.some_inj]
      constructor
      · rintro (⟨rfl, -⟩ | hmem)
        · rfl
        · exact absurd hmem (hnot t)
      · rintro rfl
        exact .inl ⟨rfl, rfl⟩
    · rw [if_neg hx, ← hlinked.mem_iff]
      exact ⟨fun h => h.elim (fun h => absurd h.2 hx) id, .inr⟩
  · intro t x hparent
    rw [linkChild_parentTransaction] at hparent
    rw [linkChild_isBusy, linkChild_isBusy]
    by_cases hx : x = c
    · rw [if_pos hx, Option.some_inj] at hparent
      rw [if_pos hx, ← hparent, if_neg hne.symm]
    · rw [if_neg hx] at hparent ⊢
      -- a new transaction is no parent
      have ht : t ≠ c := by
        rintro rfl
        have hmem := (hlinked.mem_iff t x).mpr hparent
        rw [hnew.childTransactions] at hmem
        exact not_mem_nil hmem
      rw [if_neg ht]
      exact hlinked.isBusy_eq t x hparent

theorem Linked.linkAll (hlinked : Linked h) (hnew : LinksNew h calls) :
    Linked (linkAll h calls) := by
  induction calls generalizing h with
  | nil => exact hlinked
  | cons call calls ih => exact ih (hlinked.linkChild hnew.1.1 hnew.1.2) hnew.2

/-- After any sequence of calls the children are in the order of their q values, those of
equal q values in the order in which they were linked, each linked child is once in the
list of its parent and points to it.  Where new transactions are linked, a linked child
has the mark of the whole tree, as the members had it before. -/
theorem linkAll_ordered [DecidableLE Q] (hord : Ordered h) (calls : List (ι × ι)) :
    (∀ p, NonIncreasing h.qvalue (linkAll h calls p).childTransactions) ∧
    (∀ p, Stable h.qvalue (inOrderOfLinking p (h p).childTransactions calls)
      (linkAll h calls p).childTransactions) ∧
    (∀ p c, (p, c) ∈ calls → (linkAll h calls p).childTransactions.count c = 1) ∧
    (∀ p c earlier later, calls = earlier ++ (p, c) :: later → c ∉ later.map Prod.snd →
      (linkAll h calls c).parentTransaction = some p) ∧
    (Linked h → LinksNew h calls → ∀ p c, (p, c) ∈ calls →
      (linkAll h calls c).parentTransaction = some p ∧
      (∀ t, SameTree (linkAll h calls) p t →
        (linkAll h calls c).isBusy = (linkAll h calls t).isBusy) ∧
      ∀ t ∉ calls.map Prod.snd, SameTree (linkAll h calls) p t →
        (linkAll h calls c).isBusy = (h t).isBusy) := by
  have hord' := hord.linkAll calls
  refine ⟨fun p => ?_, fun p => ?_, fun p c hc => ?_, ?_, fun hlinked hnew p c hc => ?_⟩
  · have hp := hord'.nonIncreasing p
    rwa [linkAll_qvalue] at hp
  · exact stable_linkAll hord p calls (.refl _ _)
  · exact count_eq_one_of_mem (hord'.nodup p) ((mem_linkAll calls).mpr (.inl hc))
  · rintro p c earlier later rfl hlast
    exact linkAll_parentTransaction_of_last hlast
  · have hlinked' := hlinked.linkAll hnew
    have hparent := (hlinked'.mem_iff p c).mp ((mem_linkAll calls).mpr (.inl hc))
    have hmark : ∀ t, SameTree (linkAll h calls) p t →
        (linkAll h calls c).isBusy = (linkAll h calls t).isBusy := by
      intro t ht
      exact (hlinked'.isBusy_eq p c hparent).trans (hlinked'.isBusy_eq_of_sameTree ht)
    refine ⟨hparent, hmark, fun t hold ht => ?_⟩
    rw [hmark t ht, linkAll_isBusy_of_notMem hold]

theorem linkAll_ordered_threeContacts :
    let h : Transactions Nat Nat := fun t => { qvalue := t }
    let calls := [(0, 1), (0, 3), (0, 2)]
    (linkAll h calls 0).childTransactions = [3, 2, 1] ∧
      NonIncreasing h.qvalue (linkAll h calls 0).childTransactions ∧
      (linkAll h calls 2).parentTransaction = some 0 := by
  intro h calls
  have hord : Ordered h := ⟨fun _ => .nil, fun _ => .nil⟩
  have hlinked : Linked h := by
    constructor
    · intro p c
      exact ⟨fun hc => absurd hc not_mem_nil, fun hc => absurd hc (Option.some_ne_none p).symm⟩
    · intro p c hc
      exact absurd hc (Option.some_ne_none p).symm
  have hnew : LinksNew h calls :=
    ⟨⟨⟨rfl, rfl⟩, by decide⟩, ⟨⟨rfl, rfl⟩, by decide⟩, ⟨⟨rfl, rfl⟩, by decide⟩, trivial⟩
  obtain ⟨hsorted, -, -, -, hlast⟩ := linkAll_ordered hord calls
  exact ⟨by decide, hsorted 0, (hlast hlinked hnew 0 2 (by decide)).1⟩

end TransactionLinks

end SipXRouter
