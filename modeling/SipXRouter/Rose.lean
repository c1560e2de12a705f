import Mathlib.Data.List.Forall2
import Mathlib.Order.Lattice

/-!
# Rose trees

Trees with a label at each node and a list of subtrees below it, where a node is
addressed by the positions on the way down to it.

## Design notes

A condition on a node may depend on the subtrees below it, so a change further down
can break it.  `All.alter` therefore asks for a relation between a subtree and what
takes its place, that is all the node above needs to know about the change.
-/

namespace SipXRouter

open List

/-- A tree with a label at each node and a list of subtrees below it. -/
inductive Rose (α : Type*) where
  | node (label : α) (children : List (Rose α))

namespace Rose

variable {α : Type*} {l : List α} {path : List Nat} {r : Rose α}

/-- The label of the root. -/
def label : Rose α → α
  | node a _ => a

def children : Rose α → List (Rose α)
  | node _ cs => cs

@[simp] theorem label_node (a : α) (cs : List (Rose α)) : (node a cs).label = a := rfl

@[simp] theorem children_node (a : α) (cs : List (Rose α)) : (node a cs).children = cs := rfl

/-- The subtree at a path. -/
def get? : Rose α → List Nat → Option (Rose α)
  | r, [] => some r
  | r, i :: path =>
    match r.children[i]? with
    | none => none
    | some c => c.get? path

/-- The tree with `f` applied to the subtree at a path, and `up` to each label on the
way to it. -/
def alter (up : α → α) (f : Rose α → Rose α) : List Nat → Rose α → Rose α
  | [], r => f r
  | i :: path, r => node (up r.label) (r.children.modify i (alter up f path))

@[simp] theorem get?_nil (r : Rose α) : r.get? [] = some r := by
  cases r
  rfl

def label? (r : Rose α) (path : List Nat) : Option α := (r.get? path).map label

@[simp] theorem label?_nil (r : Rose α) : r.label? [] = some r.label := by
  rw [label?, get?_nil, Option.map_some]

theorem label?_cons (r : Rose α) (i : Nat) (path : List Nat) :
    r.label? (i :: path) = r.children[i]?.bind fun c => c.label? path := by
  rw [label?, get?]
  cases r.children[i]? with
  | none => rfl
  | some c => rfl

theorem label?_append {this : Rose α} (h : r.get? path = some this)
    (path' : List Nat) : r.label? (path ++ path') = this.label? path' := by
  induction path generalizing r with
  | nil =>
    obtain rfl := Option.some.inj ((get?_nil r).symm.trans h)
    rfl
  | cons i path ih =>
    rw [cons_append, label?_cons]
    rw [get?] at h
    cases hc : r.children[i]? with
    | none => simp [hc] at h
    | some c =>
      rw [hc] at h
      exact ih h

/-- The tree with another label at the root. -/
def setLabel (g : α → α) (r : Rose α) : Rose α := node (g r.label) r.children

theorem label?_setLabel (g : α → α) (r : Rose α) (path : List Nat) :
    (r.setLabel g).label? path = (r.label? path).map (if path = [] then g else id) := by
  cases path with
  | nil => rw [label?_nil, label?_nil, if_pos rfl, Option.map_some, setLabel, label_node]
  | cons i path =>
    rw [label?_cons, label?_cons, if_neg (cons_ne_nil i path), Option.map_id, id]
    rfl

theorem label?_alter_setLabel (g : α → α) (path : List Nat) (r : Rose α) (path' : List Nat) :
    (r.alter id (setLabel g) path).label? path' =
      (r.label? path').map (if path' = path then g else id) := by
  induction path generalizing r path' with
  | nil => exact label?_setLabel g r path'
  | cons i path ih =>
    cases path' with
    | nil => simp [alter]
    | cons j path' =>
      rw [alter, label?_cons, children_node, getElem?_modify, label?_cons]
      by_cases hij : i = j
      · subst hij
        cases r.children[i]? with
        | none => rfl
        | some c => simpa using ih c path'
      · have hne : ¬(j :: path' = i :: path) := fun h => hij (List.cons.inj h).1.symm
        cases r.children[j]? with
        | none => rfl
        | some c => simp [hij, hne]

mutual

/-- The tree with every label changed, in a way that may depend on the path to it. -/
def mapLabels (f : List Nat → α → α) : Rose α → Rose α
  | node a cs => node (f [] a) (mapChildren f 0 cs)

/-- The same for trees below a node, from an index on. -/
def mapChildren (f : List Nat → α → α) : Nat → List (Rose α) → List (Rose α)
  | _, [] => []
  | i, c :: cs => c.mapLabels (fun path => f (i :: path)) :: mapChildren f (i + 1) cs

end

theorem getElem?_mapChildren (f : List Nat → α → α) (i : Nat) (cs : List (Rose α)) (j : Nat) :
    (mapChildren f i cs)[j]? = cs[j]?.map fun c => c.mapLabels fun path => f ((i + j) :: path) := by
  induction cs generalizing i j with
  | nil => simp [mapChildren]
  | cons c cs ih =>
    rw [mapChildren]
    cases j with
    | zero => rfl
    | succ j =>
      rw [getElem?_cons_succ, getElem?_cons_succ, ih, Nat.add_assoc, Nat.add_comm 1]

theorem label?_mapLabels (f : List Nat → α → α) (r : Rose α) (path : List Nat) :
    (r.mapLabels f).label? path = (r.label? path).map (f path) := by
  induction path generalizing r f with
  | nil =>
    cases r
    simp [mapLabels]
  | cons i path ih =>
    obtain ⟨a, cs⟩ := r
    rw [mapLabels, label?_cons, children_node, getElem?_mapChildren, label?_cons, children_node,
      Nat.zero_add]
    cases cs[i]? with
    | none => rfl
    | some c => exact ih _ c

theorem label_alter {up : α → α} {f : Rose α → Rose α} (hpath : path ≠ [])
    (r : Rose α) : (r.alter up f path).label = up r.label := by
  cases path with
  | nil => exact absurd rfl hpath
  | cons i path => rfl

mutual

/-- The number of nodes on the longest way down. -/
def height : Rose α → Nat
  | node _ cs => heights cs + 1

/-- The greatest height of a list of trees. -/
def heights : List (Rose α) → Nat
  | [] => 0
  | c :: cs => max c.height (heights cs)

end

/-! ## Conditions on every node -/

/-- Every node meets `P`, which may look at the subtrees below the node. -/
inductive All (P : α → List (Rose α) → Prop) : Rose α → Prop
  | node {a : α} {cs : List (Rose α)} (here : P a cs) (child : ∀ c ∈ cs, All P c) :
      All P (node a cs)

theorem All.here {P : α → List (Rose α) → Prop} (h : All P r) : P r.label r.children := by
  cases h with
  | node here _ => exact here

theorem All.child {P : α → List (Rose α) → Prop} {c : Rose α} (h : All P r)
    (hc : c ∈ r.children) : All P c := by
  cases h with
  | node _ child => exact child c hc

theorem All.mono {P P' : α → List (Rose α) → Prop} (h : All P r)
    (himp : ∀ a cs, P a cs → P' a cs) : All P' r := by
  induction h with
  | node here _ ih => exact .node (himp _ _ here) ih

theorem All.get? {P : α → List (Rose α) → Prop} {x : Rose α}
    (h : All P r) (hx : r.get? path = some x) : All P x := by
  induction path generalizing r with
  | nil =>
    obtain rfl := Option.some.inj hx
    exact h
  | cons i path ih =>
    rw [Rose.get?] at hx
    cases hc : r.children[i]? with
    | none => simp [hc] at hx
    | some c =>
      rw [hc] at hx
      exact ih (h.child (mem_of_getElem? hc)) hx

/-! ## Changes of one subtree -/

theorem forall₂_modify {R : α → α → Prop} (hrefl : ∀ x, R x x) {f : α → α}
    {i : Nat} (h : ∀ x, l[i]? = some x → R x (f x)) : Forall₂ R l (l.modify i f) := by
  induction l generalizing i with
  | nil => simp
  | cons x l ih =>
    cases i with
    | zero =>
      rw [modify_zero_cons]
      exact .cons (h x rfl) (forall₂_same.mpr fun y _ => hrefl y)
    | succ i =>
      rw [modify_succ_cons]
      exact .cons (hrefl x) (ih fun y hy => h y hy)

theorem exists_of_mem_right {R : α → α → Prop} {l' : List α} (h : Forall₂ R l l') {y : α}
    (hy : y ∈ l') : ∃ x ∈ l, R x y := by
  induction h with
  | nil => exact absurd hy not_mem_nil
  | cons hxy _ ih =>
    rcases mem_cons.mp hy with rfl | hy
    · exact ⟨_, mem_cons_self, hxy⟩
    · obtain ⟨x, hx, hxy⟩ := ih hy
      exact ⟨x, mem_cons_of_mem _ hx, hxy⟩

theorem pairwise_of_forall₂ {R S : α → α → Prop}
    (hS : ∀ x x' y y', R x x' → R y y' → S x y → S x' y') {l' : List α}
    (h : Forall₂ R l l') (hl : l.Pairwise S) : l'.Pairwise S := by
  induction h with
  | nil => exact .nil
  | cons hxy hrest ih =>
    rw [pairwise_cons] at hl ⊢
    refine ⟨fun y' hy' => ?_, ih hl.2⟩
    obtain ⟨y, hy, hyy'⟩ := exists_of_mem_right hrest hy'
    exact hS _ _ _ _ hxy hyy' (hl.1 y hy)

/-- What holds of every member holds of every member after a change at one position. -/
theorem forall_mem_modify {p : α → Prop} {f : α → α} {i : Nat} (hl : ∀ x ∈ l, p x)
    (hf : ∀ x, l[i]? = some x → p (f x)) : ∀ y ∈ l.modify i f, p y := by
  induction l generalizing i with
  | nil => simp
  | cons x l ih =>
    rw [forall_mem_cons] at hl
    cases i with
    | zero =>
      rw [modify_zero_cons, forall_mem_cons]
      exact ⟨hf x rfl, hl.2⟩
    | succ i =>
      rw [modify_succ_cons, forall_mem_cons]
      exact ⟨hl.1, ih hl.2 fun y hy => hf y hy⟩

/-- A condition on every node is kept by a change of one subtree, if the node above
can tell from `R` that its own condition is kept. -/
theorem All.alter {P : α → List (Rose α) → Prop} {R : Rose α → Rose α → Prop} {up : α → α}
    {f : Rose α → Rose α} (hrefl : ∀ x, R x x)
    (hkeep : ∀ a cs cs', P a cs → Forall₂ R cs cs' → P (up a) cs')
    (hlift : ∀ a cs cs', Forall₂ R cs cs' → R (Rose.node a cs) (Rose.node (up a) cs')) (h : All P r)
    (hf : ∀ x, r.get? path = some x → All P x → All P (f x) ∧ R x (f x)) :
    All P (r.alter up f path) ∧ R r (r.alter up f path) := by
  induction path generalizing r with
  | nil => exact hf r (get?_nil r) h
  | cons i path ih =>
    obtain ⟨a, cs⟩ := r
    have hchild : ∀ c, cs[i]? = some c →
        All P (c.alter up f path) ∧ R c (c.alter up f path) := by
      intro c hc
      refine ih (h.child (mem_of_getElem? hc)) fun x hx => hf x ?_
      rw [Rose.get?, children_node, hc]
      exact hx
    have hrel : Forall₂ R cs (cs.modify i (Rose.alter up f path)) :=
      forall₂_modify hrefl fun c hc => (hchild c hc).2
    have hall : ∀ c ∈ cs.modify i (Rose.alter up f path), All P c :=
      forall_mem_modify (fun c hc => h.child hc) fun c hc => (hchild c hc).1
    exact ⟨.node (hkeep a cs _ h.here hrel) hall, hlift a cs _ hrel⟩

/-! ## Ways down -/

/-- There is a node with `P` on whose way down, from the root to itself, every label
meets `Q`. -/
inductive Via (Q P : α → Prop) : Rose α → Prop
  | here {a : α} {cs : List (Rose α)} (way : Q a) (goal : P a) : Via Q P (node a cs)
  | under {a : α} {cs : List (Rose α)} {c : Rose α} (way : Q a) (mem : c ∈ cs)
      (rest : Via Q P c) : Via Q P (node a cs)

theorem Via.root {Q P : α → Prop} (h : Via Q P r) : Q r.label := by
  cases h with
  | here way _ => exact way
  | under way _ _ => exact way

theorem via_node {Q P : α → Prop} {a : α} {cs : List (Rose α)} :
    Via Q P (node a cs) ↔ Q a ∧ (P a ∨ ∃ c ∈ cs, Via Q P c) := by
  constructor
  · intro h
    cases h with
    | here way goal => exact ⟨way, Or.inl goal⟩
    | under way mem rest => exact ⟨way, Or.inr ⟨_, mem, rest⟩⟩
  · rintro ⟨way, goal | ⟨c, mem, rest⟩⟩
    · exact .here way goal
    · exact .under way mem rest

section Decidable

variable {Q P : α → Prop} [DecidablePred Q] [DecidablePred P]

mutual

instance decidableVia : ∀ r : Rose α, Decidable (Via Q P r)
  | node a cs =>
    have := decidableViaBelow cs
    decidable_of_iff (Q a ∧ (P a ∨ ∃ c ∈ cs, Via Q P c)) via_node.symm

instance decidableViaBelow : ∀ cs : List (Rose α), Decidable (∃ c ∈ cs, Via Q P c)
  | [] => isFalse (by simp)
  | c :: cs =>
    have := decidableVia c
    have := decidableViaBelow cs
    decidable_of_iff (Via Q P c ∨ ∃ c ∈ cs, Via Q P c) (by simp)

end

end Decidable

end Rose

end SipXRouter
