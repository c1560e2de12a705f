import Mathlib.Data.Multiset.Basic
import SipXRouter.Comparison

/-!
# Sorted lists

`UtlSortedList` keeps objects in the order of `compareTo`.  Insertion, removal and `find` walk to
the first element that is not before the object; `index` walks the whole list, and looks at the
hashes first.

## Design notes

* An object is known by its address, a value of the type `O`.
* `UtlContainable` asks that equal objects hash equally.  Where they do not, `index` does not
  find what `find` finds.
-/

namespace SipXRouter

open List

/-- What the list asks of a `UtlContainable`. -/
structure UtlComparable (O : Type*) where
  hash : O → UInt32
  compareTo : O → O → Int

/-- `compareTo` is a total preorder, and equal objects hash equally. -/
structure UtlComparable.Lawful {O : Type*} (c : UtlComparable O) : Prop where
  preorder : Comparison.TotalPreorder c.compareTo
  congruent : ∀ a b, c.compareTo a b = 0 → c.hash a = c.hash b

/-- `UtlLink`, as the list uses it. -/
structure UtlSortedList.Link (O : Type*) where
  data : O
  hash : UInt32
deriving DecidableEq

structure UtlSortedList (O : Type*) where
  links : List (UtlSortedList.Link O)
deriving DecidableEq

namespace UtlSortedList

variable {O : Type*}

/-- The constructor. -/
def new : UtlSortedList O := ⟨[]⟩

/-- The elements in their order. -/
def contents (l : UtlSortedList O) : List O := l.links.map Link.data

/-- Whether a place is looked for or an object. -/
inductive MatchType where
  | position
  | exactly
deriving DecidableEq

variable (c : UtlComparable O)

/-! ## Operations -/

/-- `findNode`: where the first link is that is not before the object. -/
def findNode (l : UtlSortedList O) (matchType : MatchType) (obj : O) : Option Nat :=
  let foundNode := l.links.findIdx? fun link => 0 ≤ c.compareTo link.data obj
  if matchType = .exactly then
    foundNode.filter fun i => l.links[i]?.any fun link => c.compareTo link.data obj == 0
  else foundNode

/-- `UtlLink::listBefore`: before no link is at the end. -/
def listBefore (l : UtlSortedList O) (existing : Option Nat) (newLink : Link O) : UtlSortedList O :=
  match existing with
  | none => ⟨l.links ++ [newLink]⟩
  | some i => ⟨l.links.take i ++ newLink :: l.links.drop i⟩

/-- `removeLink`, with the object of the link. -/
def removeLink (l : UtlSortedList O) (found : Option Nat) : UtlSortedList O × Option O :=
  match found with
  | none => (l, none)
  | some i => (⟨l.links.eraseIdx i⟩, l.links[i]?.map Link.data)

def insert (l : UtlSortedList O) (obj : O) : UtlSortedList O × Option O :=
  (l.listBefore (l.findNode c .position obj) ⟨obj, c.hash obj⟩, some obj)

def remove (l : UtlSortedList O) (obj : O) : UtlSortedList O × Option O :=
  l.removeLink (l.findNode c .exactly obj)

/-- `UtlList::removeReference`. -/
def removeReference [DecidableEq O] (l : UtlSortedList O) (obj : O) : UtlSortedList O × Option O :=
  l.removeLink (l.links.findIdx? fun link => link.data == obj)

def find (l : UtlSortedList O) (obj : O) : Option O :=
  (l.findNode c .exactly obj).bind fun i => l.links[i]?.map Link.data

/-- `UtlList::contains`. -/
def contains (l : UtlSortedList O) (obj : O) : Bool := (l.find c obj).isSome

/-- The place of the first object with this hash that compares equal. -/
def index (l : UtlSortedList O) (obj : O) : Option Nat :=
  l.links.findIdx? fun link => link.hash == c.hash obj && c.compareTo link.data obj == 0

/-- `occurrencesOf`: `comparison` stays zero, so that the walk goes to the end. -/
def occurrencesOf (l : UtlSortedList O) (obj : O) : Nat :=
  l.links.countP fun link => c.compareTo link.data obj == 0

/-- `UtlList::at`. -/
def elementAt (l : UtlSortedList O) (n : Nat) : Option O := l.links[n]?.map Link.data

/-! ## Runs -/

/-- The operations on a list. -/
inductive Op (O : Type*) where
  | insert (obj : O)
  | remove (obj : O)
  | removeReference (obj : O)
  | find (obj : O)
  | contains (obj : O)
  | index (obj : O)
  | occurrencesOf (obj : O)
  | elementAt (n : Nat)

/-- What an operation returns. -/
inductive Result (O : Type*) where
  | object (object : Option O)
  | truth (value : Bool)
  | position (value : Option Nat)
  | count (value : Nat)
deriving DecidableEq

variable [DecidableEq O]

/-- One operation, with its result. -/
def step (l : UtlSortedList O) : Op O → UtlSortedList O × Result O
  | .insert obj => (l.insert c obj).map id .object
  | .remove obj => (l.remove c obj).map id .object
  | .removeReference obj => (l.removeReference obj).map id .object
  | .find obj => (l, .object (l.find c obj))
  | .contains obj => (l, .truth (l.contains c obj))
  | .index obj => (l, .position (l.index c obj))
  | .occurrencesOf obj => (l, .count (l.occurrencesOf c obj))
  | .elementAt n => (l, .object (l.elementAt n))

def run (l : UtlSortedList O) : List (Op O) → UtlSortedList O × List (Result O)
  | [] => (l, [])
  | op :: ops => (run (l.step c op).1 ops).map id ((l.step c op).2 :: ·)

/-! ## Lists in order -/

/-- Whether an element is equal to an object. -/
def equals (obj a : O) : Bool := c.compareTo a obj == 0

/-- What an operation may give and leave, of elements in order. -/
def Behaves (s : List O) : Op O → Result O → List O → Prop
  | .insert obj, r, s' => r = .object (some obj) ∧ (s' : Multiset O) = obj ::ₘ s
  | .remove obj, r, s' => r = .object (s.find? (equals c obj)) ∧ s' = s.eraseP (equals c obj)
  | .removeReference obj, r, s' =>
    r = .object (if obj ∈ s then some obj else none) ∧ s' = s.erase obj
  | .find obj, r, s' => r = .object (s.find? (equals c obj)) ∧ s' = s
  | .contains obj, r, s' => r = .truth (s.any (equals c obj)) ∧ s' = s
  | .index obj, r, s' => r = .position (s.findIdx? (equals c obj)) ∧ s' = s
  | .occurrencesOf obj, r, s' => r = .count (s.countP (equals c obj)) ∧ s' = s
  | .elementAt n, r, s' => r = .object s[n]? ∧ s' = s

/-- What a run may give and leave: after each operation the elements are in order. -/
def BehavesAll (s : List O) : List (Op O) → List (Result O) → List O → Prop
  | [], results, s' => results = [] ∧ s' = s
  | op :: ops, results, s' =>
    ∃ r s₁ rest, results = r :: rest ∧ Behaves c s op r s₁ ∧ Comparison.InOrder c.compareTo s₁ ∧
      BehavesAll s₁ ops rest s'

/-! ## The list is sorted -/

/-- The invariant: the elements are in order, and the links have their hashes. -/
structure Sound (l : UtlSortedList O) : Prop where
  inOrder : Comparison.InOrder c.compareTo l.contents
  hashed : ∀ link ∈ l.links, link.hash = c.hash link.data

variable {c} {l : UtlSortedList O}

omit [DecidableEq O] in
theorem sound_new : Sound c (new : UtlSortedList O) where
  inOrder := List.Pairwise.nil
  hashed _ hlink := absurd hlink not_mem_nil

/-! ### Searches -/

section Searches

omit [DecidableEq O]

theorem findIdx?_links (l : UtlSortedList O) (p : O → Bool) :
    (l.links.findIdx? fun link => p link.data) = l.contents.findIdx? p :=
  findIdx?_map.symm

theorem getElem?_contents (l : UtlSortedList O) (i : Nat) :
    l.links[i]?.map Link.data = l.contents[i]? := getElem?_map.symm

theorem Sound.findNode_exactly (h : Sound c l) (hc : c.Lawful) (obj : O) :
    l.findNode c .exactly obj = l.contents.findIdx? (equals c obj) := by
  have hfilter : (fun i : Nat => l.links[i]?.any fun link => c.compareTo link.data obj == 0) =
      fun i => l.contents[i]?.any fun a => c.compareTo a obj == 0 := by
    funext i
    rw [← getElem?_contents, Option.any_map]
  simp only [findNode, if_true, hfilter]
  rw [findIdx?_links l fun a => decide (0 ≤ c.compareTo a obj)]
  exact hc.preorder.findIdx?_eq h.inOrder

theorem Sound.find_eq (h : Sound c l) (hc : c.Lawful) (obj : O) :
    l.find c obj = l.contents.find? (equals c obj) := by
  rw [find, h.findNode_exactly hc, find?_eq_bind_findIdx?_getElem?]
  simp only [getElem?_contents]

theorem findIdx?_congr {α : Type*} {p q : α → Bool} {s : List α} (h : ∀ a ∈ s, p a = q a) :
    s.findIdx? p = s.findIdx? q := by
  induction s with
  | nil => rfl
  | cons a s ih =>
    obtain ⟨ha, hs⟩ := forall_mem_cons.mp h
    rw [findIdx?_cons, findIdx?_cons, ha, ih hs]

theorem Sound.index_eq (h : Sound c l) (hc : c.Lawful) (obj : O) :
    l.index c obj = l.contents.findIdx? (equals c obj) := by
  rw [index, ← findIdx?_links]
  refine findIdx?_congr fun link hlink => ?_
  show (link.hash == c.hash obj && equals c obj link.data) = equals c obj link.data
  cases hequal : equals c obj link.data with
  | false => exact Bool.and_false _
  | true =>
    have hhash := hc.congruent link.data obj (beq_iff_eq.mp hequal)
    rw [h.hashed link hlink, hhash, beq_self_eq_true]
    rfl

theorem removeLink_findIdx? (l : UtlSortedList O) (p : O → Bool) :
    (l.removeLink (l.contents.findIdx? p)).2 = l.contents.find? p ∧
      (l.removeLink (l.contents.findIdx? p)).1.contents = l.contents.eraseP p ∧
      ∀ link ∈ (l.removeLink (l.contents.findIdx? p)).1.links, link ∈ l.links := by
  rw [find?_eq_bind_findIdx?_getElem?, eraseP_eq_eraseIdx]
  cases l.contents.findIdx? p with
  | none => exact ⟨rfl, rfl, fun _ h => h⟩
  | some i =>
    refine ⟨getElem?_contents l i, ?_, fun _ h => mem_of_mem_eraseIdx h⟩
    exact (eraseIdx_map Link.data l.links i).symm

theorem Sound.removeLink (h : Sound c l) (p : O → Bool) :
    Sound c (l.removeLink (l.contents.findIdx? p)).1 := by
  obtain ⟨-, hcontents, hlinks⟩ := removeLink_findIdx? l p
  refine ⟨?_, fun link hlink => h.hashed link (hlinks link hlink)⟩
  rw [hcontents]
  exact h.inOrder.sublist (eraseP_sublist)

/-! ### Insertion -/

/-- An insertion goes in front of the first that is not less. -/
theorem exists_listBefore (c : UtlComparable O) (l : UtlSortedList O) (obj : O) :
    ∃ before after, l.links = before ++ after ∧
      (l.insert c obj).1.links = before ++ ⟨obj, c.hash obj⟩ :: after ∧
      (∀ link ∈ before, c.compareTo link.data obj < 0) ∧
      ∀ link ∈ after.head?, 0 ≤ c.compareTo link.data obj := by
  rw [insert, findNode, if_neg (by decide)]
  cases hfound : l.links.findIdx? fun link => 0 ≤ c.compareTo link.data obj with
  | none =>
    rw [findIdx?_eq_none_iff] at hfound
    refine ⟨l.links, [], (append_nil _).symm, rfl, fun link hlink => ?_, fun _ h => ?_⟩
    · simpa using hfound link hlink
    · exact absurd h (by simp)
  | some i =>
    obtain ⟨hlt, hi, hbefore⟩ := findIdx?_eq_some_iff_getElem.mp hfound
    refine ⟨l.links.take i, l.links.drop i, (take_append_drop i _).symm, ?_, ?_, ?_⟩
    · rfl
    · intro link hlink
      obtain ⟨j, hj, rfl⟩ := mem_take_iff_getElem.mp hlink
      simpa using hbefore j (by omega)
    · intro link hlink
      rw [head?_drop, getElem?_eq_getElem hlt, Option.mem_some_iff] at hlink
      subst hlink
      simpa using hi

theorem Sound.insert (h : Sound c l) (hc : c.Lawful) (obj : O) : Sound c (l.insert c obj).1 ∧
    ((l.insert c obj).1.contents : Multiset O) = obj ::ₘ (l.contents : Multiset O) := by
  obtain ⟨before, after, hlinks, hinserted, hbefore, hafter⟩ := exists_listBefore c l obj
  have hcontents : (l.insert c obj).1.contents =
      before.map Link.data ++ obj :: after.map Link.data := by
    rw [contents, hinserted, map_append, map_cons]
  have hsplit : l.contents = before.map Link.data ++ after.map Link.data := by
    rw [contents, hlinks, map_append]
  refine ⟨⟨?_, fun link hlink => ?_⟩, ?_⟩
  · rw [hcontents]
    refine hc.preorder.inOrder_insert (hsplit ▸ h.inOrder) ?_ ?_
    · exact forall_mem_map.mpr hbefore
    · intro a ha
      rw [head?_map] at ha
      obtain ⟨link, hlink, rfl⟩ := Option.map_eq_some_iff.mp ha
      exact hafter link hlink
  · rw [hinserted] at hlink
    rcases mem_append.mp hlink with hlink | hlink
    · exact h.hashed link (hlinks ▸ mem_append_left _ hlink)
    · rcases mem_cons.mp hlink with rfl | hlink
      · rfl
      · exact h.hashed link (hlinks ▸ mem_append_right _ hlink)
  · rw [hcontents, hsplit]
    exact Multiset.coe_eq_coe.mpr perm_middle

end Searches

/-! ### Runs -/

theorem find?_beq (s : List O) (obj : O) :
    s.find? (· == obj) = if obj ∈ s then some obj else none := by
  split
  · next hmem =>
    cases hfound : s.find? (· == obj) with
    | none => exact absurd (find?_eq_none.mp hfound obj hmem) (by simp)
    | some a => rw [beq_iff_eq.mp (find?_some (p := (· == obj)) hfound)]
  · next hmem =>
    refine find?_eq_none.mpr fun a ha heq => hmem ?_
    rwa [← beq_iff_eq.mp heq]

/-- Every operation keeps the list sorted and does what a multiset does. -/
theorem Sound.step (h : Sound c l) (hc : c.Lawful) (op : Op O) :
    Sound c (l.step c op).1 ∧ Behaves c l.contents op (l.step c op).2 (l.step c op).1.contents := by
  cases op with
  | insert obj =>
    obtain ⟨hsound, hcontents⟩ := h.insert hc obj
    exact ⟨hsound, rfl, hcontents⟩
  | remove obj =>
    have hremove : l.remove c obj = l.removeLink (l.contents.findIdx? (equals c obj)) := by
      rw [remove, h.findNode_exactly hc]
    obtain ⟨hfound, hcontents, -⟩ := removeLink_findIdx? l (equals c obj)
    rw [UtlSortedList.step, hremove]
    exact ⟨h.removeLink _, congrArg Result.object hfound, hcontents⟩
  | removeReference obj =>
    have hremove : l.removeReference obj = l.removeLink (l.contents.findIdx? (· == obj)) := by
      rw [removeReference, ← findIdx?_links]
    obtain ⟨hfound, hcontents, -⟩ := removeLink_findIdx? l (· == obj)
    rw [UtlSortedList.step, hremove]
    refine ⟨h.removeLink _, congrArg Result.object (hfound.trans (find?_beq _ obj)), ?_⟩
    exact hcontents.trans (erase_eq_eraseP' obj l.contents).symm
  | find obj => exact ⟨h, congrArg Result.object (h.find_eq hc obj), rfl⟩
  | contains obj =>
    refine ⟨h, congrArg Result.truth ?_, rfl⟩
    rw [contains, h.find_eq hc, Bool.eq_iff_iff, find?_isSome, any_eq_true]
  | index obj => exact ⟨h, congrArg Result.position (h.index_eq hc obj), rfl⟩
  | occurrencesOf obj =>
    refine ⟨h, congrArg Result.count ?_, rfl⟩
    exact (countP_map (p := equals c obj) (f := Link.data)).symm
  | elementAt n => exact ⟨h, congrArg Result.object (getElem?_contents l n), rfl⟩

theorem Sound.run (h : Sound c l) (hc : c.Lawful) (ops : List (Op O)) :
    BehavesAll c l.contents ops (l.run c ops).2 (l.run c ops).1.contents := by
  induction ops generalizing l with
  | nil => exact ⟨rfl, rfl⟩
  | cons op ops ih =>
    obtain ⟨hsound, hbehaves⟩ := h.step hc op
    exact ⟨_, _, _, rfl, hbehaves, hsound.inOrder, ih hsound⟩

/-- **The list is a sorted multiset**: over any run it is in order after each operation, has what
was inserted and not removed, and each search gives the first element that is equal. -/
theorem run_sorted (hc : c.Lawful) (ops : List (Op O)) :
    BehavesAll c [] ops (run c new ops).2 (run c new ops).1.contents := sound_new.run hc ops

/-- Pairs that are compared by their first part. -/
def compareFirst (a b : Nat × Nat) : Int := a.1 - b.1

theorem totalPreorder_compareFirst : Comparison.TotalPreorder compareFirst where
  opposite a b := by
    rw [Comparison.OppositeSigns, compareFirst, compareFirst, ← Int.sign_neg, Int.neg_sub]
  trans {a b c} hab hbc := by
    unfold compareFirst at *
    omega

theorem run_sorted_compareFirst :
    let c : UtlComparable (Nat × Nat) := ⟨fun a => UInt32.ofNat a.1, compareFirst⟩
    let ops : List (Op (Nat × Nat)) :=
      [.insert (3, 0), .insert (1, 0), .insert (3, 1), .index (3, 2), .remove (3, 2), .find (3, 2)]
    BehavesAll c [] ops (run c new ops).2 (run c new ops).1.contents := by
  intro c ops
  refine run_sorted ⟨totalPreorder_compareFirst, fun a b h => ?_⟩ ops
  have hfirst : (a.1 : Int) - b.1 = 0 := h
  exact congrArg UInt32.ofNat (show a.1 = b.1 by omega)

/-- With a hash of the second part, `index` does not find what is there. -/
theorem not_behavesAll_hash :
    let c : UtlComparable (Nat × Nat) := ⟨fun a => UInt32.ofNat a.2, compareFirst⟩
    let ops : List (Op (Nat × Nat)) := [.insert (3, 0), .index (3, 1)]
    Comparison.TotalPreorder c.compareTo ∧
      (run c new ops).2 = [.object (some (3, 0)), .position none] ∧
      ¬ BehavesAll c [] ops (run c new ops).2 (run c new ops).1.contents := by
  intro c ops
  have hresults : (run c new ops).2 = [.object (some (3, 0)), .position none] := by decide
  refine ⟨totalPreorder_compareFirst, hresults, ?_⟩
  rw [hresults]
  rintro ⟨r, s₁, rest, hfirst, ⟨-, hcontents⟩, -, r', s₂, rest', hsecond, ⟨hindex, -⟩, -⟩
  obtain ⟨-, rfl⟩ := List.cons.inj hfirst
  obtain ⟨rfl, -⟩ := List.cons.inj hsecond
  have hs : s₁ = [(3, 0)] := by
    rw [← Multiset.coe_eq_coe.trans perm_singleton]
    exact hcontents
  rw [hs] at hindex
  exact absurd hindex (by decide)

end UtlSortedList

end SipXRouter
