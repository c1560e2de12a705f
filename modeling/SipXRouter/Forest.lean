import Mathlib.Data.List.Nodup
import Mathlib.Data.Set.Insert

/-!
# Locks on forests

Objects are arranged in trees that grow, are joined and lose nodes.  A tree is locked by
a mark that stands on each of its nodes; the locks that are held are known by one node
each.  The marks of a tree stay equal, and no two locks are held on one tree.
-/

namespace SipXRouter

open List

/-- A list of trees: the first node, the trees below it, and the trees beside it. -/
inductive Forest (ι β : Type*) where
  | nil
  | node (id : ι) (mark : β) (children siblings : Forest ι β)
deriving DecidableEq

namespace Forest

variable {ι β : Type*} {n p : ι} {x : ι × β}

/-! ## Nodes and trees -/

/-- All nodes with their marks, parents first. -/
def toList : Forest ι β → List (ι × β)
  | nil => []
  | node id m c s => (id, m) :: (c.toList ++ s.toList)

/-- The nodes of each tree. -/
def trees : Forest ι β → List (List (ι × β))
  | nil => []
  | node id m c s => ((id, m) :: c.toList) :: s.trees

/-- The trees of a forest, by their names. -/
def roots : Forest ι β → List ι
  | nil => []
  | node id _ _ s => id :: s.roots

/-- All names in a forest, those of a tree before those behind it. -/
def ids (F : Forest ι β) : List ι := F.toList.map Prod.fst

/-- The two nodes are in one tree. -/
def Together (F : Forest ι β) (t u : ι) : Prop :=
  ∃ T ∈ F.trees, t ∈ T.map Prod.fst ∧ u ∈ T.map Prod.fst

instance [DecidableEq ι] (F : Forest ι β) (t u : ι) : Decidable (F.Together t u) :=
  inferInstanceAs (Decidable (∃ T ∈ F.trees, t ∈ T.map Prod.fst ∧ u ∈ T.map Prod.fst))

theorem Together.symm {F : Forest ι β} {t u : ι} (h : F.Together t u) : F.Together u t := by
  obtain ⟨T, hT, ht, hu⟩ := h
  exact ⟨T, hT, hu, ht⟩

theorem flatten_trees (F : Forest ι β) : F.trees.flatten = F.toList := by
  induction F with
  | nil => rfl
  | node id m c s _ ihs => simp [trees, toList, ihs]

theorem mem_toList_iff {F : Forest ι β} : x ∈ F.toList ↔ ∃ T ∈ F.trees, x ∈ T := by
  rw [← flatten_trees, mem_flatten]

theorem mem_toList_of_mem {F : Forest ι β} {T : List (ι × β)} (hT : T ∈ F.trees)
    (hx : x ∈ T) : x ∈ F.toList :=
  mem_toList_iff.mpr ⟨T, hT, hx⟩

theorem ids_eq_flatten (F : Forest ι β) : F.ids = (F.trees.map (map Prod.fst)).flatten := by
  rw [ids, ← flatten_trees, map_flatten]

theorem mem_ids_iff {F : Forest ι β} {t : ι} : t ∈ F.ids ↔ ∃ T ∈ F.trees, t ∈ T.map Prod.fst := by
  simp [ids_eq_flatten]

theorem together_iff {F : Forest ι β} {t u : ι} :
    F.Together t u ↔ ∃ L ∈ F.trees.map (map Prod.fst), t ∈ L ∧ u ∈ L := by
  simp [Together]

theorem together_self {F : Forest ι β} {t : ι} (ht : t ∈ F.ids) : F.Together t t := by
  obtain ⟨T, hT, htT⟩ := mem_ids_iff.mp ht
  exact ⟨T, hT, htT, htT⟩

theorem mark_eq {F : Forest ι β} (h : F.ids.Nodup) {t : ι} {m m' : β} (hm : (t, m) ∈ F.toList)
    (hm' : (t, m') ∈ F.toList) : m = m' :=
  congrArg Prod.snd (inj_on_of_nodup_map h hm hm' rfl)

/-! ## Marking a tree -/

/-- Mark all nodes. -/
def setAll (m : β) : Forest ι β → Forest ι β
  | nil => nil
  | node id _ c s => node id m (c.setAll m) (s.setAll m)

@[simp] theorem toList_setAll (m : β) (F : Forest ι β) :
    (F.setAll m).toList = F.toList.map fun x => (x.1, m) := by
  induction F with
  | nil => rfl
  | node id m' c s ihc ihs => simp [setAll, toList, ihc, ihs]

/-- Two forests side by side. -/
def append : Forest ι β → Forest ι β → Forest ι β
  | nil, G => G
  | node id m c s, G => node id m c (s.append G)

@[simp] theorem toList_append (F G : Forest ι β) :
    (F.append G).toList = F.toList ++ G.toList := by
  induction F with
  | nil => rfl
  | node id m c s _ ihs => simp [append, toList, ihs]

@[simp] theorem trees_append (F G : Forest ι β) : (F.append G).trees = F.trees ++ G.trees := by
  induction F with
  | nil => rfl
  | node id m c s _ ihs => simp [append, trees, ihs]

@[simp] theorem roots_append (F G : Forest ι β) : (F.append G).roots = F.roots ++ G.roots := by
  induction F with
  | nil => rfl
  | node id m c s _ ihs => simp [append, roots, ihs]

section DecidableEq

variable [DecidableEq ι]

/-- Mark all nodes of the tree of `t`, from its topmost node down. -/
def setTree (m : β) (t : ι) : Forest ι β → Forest ι β
  | nil => nil
  | node id m' c s =>
    if t = id ∨ t ∈ c.ids then node id m (c.setAll m) (s.setTree m t)
    else node id m' c (s.setTree m t)

theorem trees_setTree (m : β) (t : ι) (F : Forest ι β) : (F.setTree m t).trees =
    F.trees.map fun T => if t ∈ T.map Prod.fst then T.map fun x => (x.1, m) else T := by
  induction F with
  | nil => rfl
  | node id m' c s _ ihs =>
    unfold setTree
    split
    next hmem =>
      have hmem : t ∈ ((id, m') :: c.toList).map Prod.fst := by simpa [ids] using hmem
      simp only [trees, ihs, toList_setAll]
      rw [map_cons, if_pos hmem, map_cons]
    next hmem =>
      have hmem : t ∉ ((id, m') :: c.toList).map Prod.fst := by simpa [ids] using hmem
      simp only [trees, ihs]
      rw [map_cons, if_neg hmem]

theorem map_fst_trees_setTree (m : β) (t : ι) (F : Forest ι β) :
    (F.setTree m t).trees.map (map Prod.fst) = F.trees.map (map Prod.fst) := by
  rw [trees_setTree, map_map]
  refine map_congr_left fun T _ => ?_
  simp only [Function.comp_apply]
  split
  · rw [map_map]
    rfl
  · rfl

@[simp] theorem ids_setTree (m : β) (t : ι) (F : Forest ι β) : (F.setTree m t).ids = F.ids := by
  rw [ids_eq_flatten, map_fst_trees_setTree, ← ids_eq_flatten]

theorem together_setTree {m : β} {r t u : ι} {F : Forest ι β} :
    (F.setTree m r).Together t u ↔ F.Together t u := by
  rw [together_iff, map_fst_trees_setTree, ← together_iff]

@[simp] theorem roots_setTree (m : β) (t : ι) (F : Forest ι β) :
    (F.setTree m t).roots = F.roots := by
  induction F with
  | nil => rfl
  | node id m' c s _ ihs =>
    unfold setTree
    split <;> simp [roots, ihs]

/-! ## Adding a child -/

/-- Add the node `n` with the trees `sub` below it to the children of `p`, with the mark
of `p`. -/
def graft (p n : ι) : Forest ι β → (sub : Forest ι β) → Forest ι β
  | nil, _ => nil
  | node id m c s, sub =>
    node id m (if id = p then node n m sub (c.graft p n sub) else c.graft p n sub)
      (s.graft p n sub)

/-- What `graft` does to a list of nodes. -/
def graftList (p n : ι) (l T : List (ι × β)) : List (ι × β) :=
  T.flatMap fun x => if x.1 = p then x :: (n, x.2) :: l else [x]

theorem toList_graft (p n : ι) (sub F : Forest ι β) :
    (F.graft p n sub).toList = graftList p n sub.toList F.toList := by
  induction F with
  | nil => rfl
  | node id m c s ihc ihs =>
    simp only [graft, toList, graftList, flatMap_cons, flatMap_append] at ihc ihs ⊢
    split
    · simp [toList, ihc, ihs]
    · simp [ihc, ihs]

theorem trees_graft (p n : ι) (sub F : Forest ι β) :
    (F.graft p n sub).trees = F.trees.map (graftList p n sub.toList) := by
  induction F with
  | nil => rfl
  | node id m c s _ ihs =>
    have hc := toList_graft p n sub c
    simp only [graft, trees, ihs, map_cons, List.cons.injEq, and_true]
    simp only [graftList, flatMap_cons] at hc ⊢
    split
    · simp [toList, hc]
    · simp [hc]

@[simp] theorem roots_graft (p n : ι) (sub F : Forest ι β) : (F.graft p n sub).roots = F.roots := by
  induction F with
  | nil => rfl
  | node id m c s _ ihs => simp [graft, roots, ihs]

theorem map_fst_graftList_perm {l T : List (ι × β)} (h : (T.map Prod.fst).Nodup)
    (hp : p ∈ T.map Prod.fst) :
    ((graftList p n l T).map Prod.fst).Perm (T.map Prod.fst ++ n :: l.map Prod.fst) := by
  induction T with
  | nil => cases hp
  | cons x T ih =>
    rw [map_cons, nodup_cons] at h
    simp only [graftList, flatMap_cons] at ih ⊢
    by_cases hx : x.1 = p
    · have hrest : T.flatMap (fun x => if x.1 = p then x :: (n, x.2) :: l else [x]) = T := by
        refine Eq.trans (flatMap_congr fun y hy => ?_) (flatMap_singleton' T)
        rw [if_neg]
        rintro rfl
        exact h.1 (hx ▸ mem_map_of_mem hy)
      rw [hrest, if_pos hx]
      simp only [map_append, map_cons, cons_append]
      have hcomm : (n :: l.map Prod.fst ++ T.map Prod.fst).Perm
          (T.map Prod.fst ++ n :: l.map Prod.fst) := perm_append_comm
      exact hcomm.cons _
    · rw [if_neg hx]
      simp only [map_cons, cons_append, nil_append]
      exact (ih h.2 ((mem_cons.mp hp).resolve_left (Ne.symm hx))).cons _

theorem ids_graft_perm {sub F : Forest ι β} (h : F.ids.Nodup) (hp : p ∈ F.ids) :
    (F.graft p n sub).ids.Perm (F.ids ++ n :: sub.ids) := by
  rw [ids, toList_graft]
  exact map_fst_graftList_perm h hp

theorem mem_graftList {l T : List (ι × β)} :
    x ∈ graftList p n l T ↔ x ∈ T ∨ (∃ m, (p, m) ∈ T ∧ (x = (n, m) ∨ x ∈ l)) := by
  simp only [graftList, mem_flatMap]
  constructor
  · rintro ⟨y, hy, hx⟩
    split at hx
    next hp =>
      obtain rfl := hp
      simp only [mem_cons] at hx
      rcases hx with rfl | hx
      · exact Or.inl hy
      · exact Or.inr ⟨y.2, hy, hx⟩
    next => exact Or.inl (mem_singleton.mp hx ▸ hy)
  · rintro (hx | ⟨m, hm, hx⟩)
    · refine ⟨x, hx, ?_⟩
      split <;> simp
    · refine ⟨_, hm, ?_⟩
      rw [if_pos rfl]
      simpa using Or.inr hx

/-! ## Taking out a tree -/

/-- The trees below the topmost node `t`. -/
def childrenOf (t : ι) : Forest ι β → Forest ι β
  | nil => nil
  | node id _ c s => if id = t then c else s.childrenOf t

/-- The forest without the tree with the topmost node `t`. -/
def dropRoot (t : ι) : Forest ι β → Forest ι β
  | nil => nil
  | node id m c s => if id = t then s else node id m c (s.dropRoot t)

theorem trees_perm_of_mem_roots {F : Forest ι β} {t : ι} (h : t ∈ F.roots) :
    ∃ m, F.trees.Perm (((t, m) :: (F.childrenOf t).toList) :: (F.dropRoot t).trees) := by
  induction F with
  | nil => cases h
  | node id m c s _ ihs =>
    by_cases hid : id = t
    · subst hid
      exact ⟨m, by simp [trees, childrenOf, dropRoot]⟩
    · obtain ⟨m', hm'⟩ := ihs ((mem_cons.mp h).resolve_left (Ne.symm hid))
      refine ⟨m', ?_⟩
      simp only [trees, childrenOf, dropRoot, if_neg hid]
      exact (hm'.cons _).trans (Perm.swap _ _ _)

/-- A tree that is moved below another node brings in no new nodes. -/
theorem mem_ids_of_mem_link {F : Forest ι β} {t u : ι} (h : t ∈ F.roots)
    (hu : u ∈ ((F.dropRoot t).graft p t (F.childrenOf t)).ids) : u ∈ F.ids := by
  obtain ⟨m, hperm⟩ := trees_perm_of_mem_roots h
  have hmem : ∀ T ∈ ((t, m) :: (F.childrenOf t).toList) :: (F.dropRoot t).trees,
      ∀ x ∈ T, x.1 ∈ F.ids := fun T hT x hx =>
    mem_map_of_mem (mem_toList_of_mem (hperm.symm.subset hT) hx)
  obtain ⟨x, hx, rfl⟩ := mem_map.mp hu
  rw [toList_graft, mem_graftList] at hx
  rcases hx with hx | ⟨m', -, rfl | hx⟩
  · obtain ⟨T, hT, hxT⟩ := mem_toList_iff.mp hx
    exact hmem T (mem_cons_of_mem _ hT) x hxT
  · exact hmem _ mem_cons_self (t, m) mem_cons_self
  · exact hmem _ mem_cons_self x (mem_cons_of_mem _ hx)

theorem mem_roots_dropRoot {F : Forest ι β} {t u : ι} (h : u ∈ F.roots) (hne : u ≠ t) :
    u ∈ (F.dropRoot t).roots := by
  induction F with
  | nil => cases h
  | node id m c s _ ihs =>
    unfold dropRoot
    rcases mem_cons.mp h with rfl | h
    · rw [if_neg hne]
      exact mem_cons_self
    · split
      · exact h
      · exact mem_cons_of_mem _ (ihs h)

/-! ## Taking out a node -/

/-- What is left without `t`, and the trees that were below it. -/
def delete (t : ι) : Forest ι β → Forest ι β × Forest ι β
  | nil => (nil, nil)
  | node id m c s =>
    let c' := c.delete t
    let s' := s.delete t
    if id = t then (s'.1, c'.1.append (c'.2.append s'.2))
    else (node id m c'.1 s'.1, c'.2.append s'.2)

/-- Take out a node; those below it become topmost nodes. -/
def destroy (t : ι) (F : Forest ι β) : Forest ι β := (F.delete t).1.append (F.delete t).2

theorem toList_delete_perm (t : ι) (F : Forest ι β) :
    ((F.delete t).1.toList ++ (F.delete t).2.toList).Perm (F.toList.filter (·.1 ≠ t)) := by
  induction F with
  | nil => exact Perm.nil
  | node id m c s ihc ihs =>
    have hboth := ihc.append ihs
    rw [← filter_append] at hboth
    unfold delete
    by_cases hid : id = t
    · simp only [if_pos hid, toList, toList_append]
      rw [filter_cons_of_neg (by simp [hid])]
      refine Perm.trans ?_ hboth
      generalize (c.delete t).1.toList = a, (c.delete t).2.toList = b,
        (s.delete t).1.toList = d, (s.delete t).2.toList = e
      rw [append_assoc, ← append_assoc a b e]
      refine (perm_append_comm_assoc d (a ++ b) e).trans ?_
      simp
    · simp only [if_neg hid, toList, toList_append]
      rw [filter_cons_of_pos (by simp [hid]), cons_append]
      refine (Perm.trans ?_ hboth).cons _
      generalize (c.delete t).1.toList = a, (c.delete t).2.toList = b,
        (s.delete t).1.toList = d, (s.delete t).2.toList = e
      simp only [append_assoc]
      exact (perm_append_comm_assoc d b e).append_left a

theorem toList_destroy_perm (t : ι) (F : Forest ι β) :
    (F.destroy t).toList.Perm (F.toList.filter (·.1 ≠ t)) := by
  rw [destroy, toList_append]
  exact toList_delete_perm t F

theorem toList_delete_subset (t : ι) (F : Forest ι β) :
    (F.delete t).1.toList ⊆ F.toList ∧ (F.delete t).2.toList ⊆ F.toList := by
  rw [← append_subset]
  exact fun x hx => mem_of_mem_filter ((toList_delete_perm t F).subset hx)

/-- The trees left after a deletion are parts of those before it. -/
theorem exists_tree_of_mem_destroy {t : ι} {F : Forest ι β} {T' : List (ι × β)}
    (hT' : T' ∈ (F.destroy t).trees) : ∃ T ∈ F.trees, T' ⊆ T := by
  rw [destroy, trees_append] at hT'
  induction F generalizing T' with
  | nil => cases hT'
  | node id m c s _ ihs =>
    have hsubset := toList_delete_subset t c
    have hbelow : ∀ T', T' ∈ (c.delete t).1.trees ∨ T' ∈ (c.delete t).2.trees →
        T' ⊆ (id, m) :: c.toList := by
      rintro T' (hmem | hmem) x hx
      · exact mem_cons_of_mem _ (hsubset.1 (mem_toList_of_mem hmem hx))
      · exact mem_cons_of_mem _ (hsubset.2 (mem_toList_of_mem hmem hx))
    have hbeside : T' ∈ (s.delete t).1.trees ∨ T' ∈ (s.delete t).2.trees →
        ∃ T ∈ (node id m c s).trees, T' ⊆ T := by
      intro hmem
      obtain ⟨T, hT, hTT'⟩ := ihs (mem_append.mpr hmem)
      exact ⟨T, mem_cons_of_mem _ hT, hTT'⟩
    unfold delete at hT'
    by_cases hid : id = t
    · simp only [hid, if_true, trees_append, mem_append] at hT'
      rcases hT' with hmem | hmem | hmem | hmem
      · exact hbeside (Or.inl hmem)
      · exact ⟨_, mem_cons_self, hbelow T' (Or.inl hmem)⟩
      · exact ⟨_, mem_cons_self, hbelow T' (Or.inr hmem)⟩
      · exact hbeside (Or.inr hmem)
    · simp only [hid, if_false, trees, trees_append, cons_append, mem_cons,
        mem_append] at hT'
      rcases hT' with rfl | hmem | hmem | hmem
      · exact ⟨_, mem_cons_self, cons_subset_cons _ hsubset.1⟩
      · exact hbeside (Or.inl hmem)
      · exact ⟨_, mem_cons_self, hbelow T' (Or.inr hmem)⟩
      · exact hbeside (Or.inr hmem)

theorem mem_roots_destroy {F : Forest ι β} {t u : ι} (h : u ∈ F.roots) (hne : u ≠ t) :
    u ∈ (F.destroy t).roots := by
  have hleft : u ∈ (F.delete t).1.roots := by
    induction F with
    | nil => cases h
    | node id m c s _ ihs =>
      unfold delete
      rcases mem_cons.mp h with rfl | h
      · simp [hne, roots]
      · by_cases hid : id = t
        · simpa [hid] using ihs h
        · simpa [hid, roots] using Or.inr (ihs h)
  simp [destroy, hleft]

end DecidableEq

/-! ## Locks -/

/-- The marks say which trees are locked, and the nodes of `H` stand for different trees
that are. -/
structure Exclusive (F : Forest ι Bool) (H : Set ι) : Prop where
  nodup : F.ids.Nodup
  uniform : ∀ T ∈ F.trees, ∀ x ∈ T, ∀ y ∈ T, x.2 = y.2
  locked : ∀ t ∈ H, (t, true) ∈ F.toList
  apart : ∀ t ∈ H, ∀ u ∈ H, F.Together t u → t = u

namespace Exclusive

variable {F : Forest ι Bool} {H : Set ι} {t u : ι}

theorem mark_eq_of_together (h : Exclusive F H) {m m' : Bool} (htogether : F.Together t u)
    (ht : (t, m) ∈ F.toList) (hu : (u, m') ∈ F.toList) : m = m' := by
  obtain ⟨T, hT, htT, huT⟩ := htogether
  obtain ⟨⟨_, mt⟩, hmt, rfl⟩ := mem_map.mp htT
  obtain ⟨⟨_, mu⟩, hmu, rfl⟩ := mem_map.mp huT
  rw [mark_eq h.nodup ht (mem_toList_of_mem hT hmt), mark_eq h.nodup hu (mem_toList_of_mem hT hmu)]
  exact h.uniform T hT _ hmt _ hmu

/-- A new tree can be added, and be held by whoever adds it. -/
theorem create (h : Exclusive F H) (hnew : t ∉ F.ids) :
    Exclusive (node t true nil F) (insert t H) := by
  have hnotMem : ∀ u ∈ H, u ≠ t := fun u hu hut =>
    hnew (hut ▸ mem_map_of_mem (h.locked u hu))
  refine ⟨?_, ?_, ?_, ?_⟩
  · simpa [ids, toList] using ⟨by simpa [ids] using hnew, h.nodup⟩
  · intro T hT
    rcases mem_cons.mp hT with rfl | hT
    · simp [toList]
    · exact h.uniform T hT
  · intro u hu
    rcases hu with rfl | hu
    · exact mem_cons_self
    · exact mem_cons_of_mem _ (h.locked u hu)
  · rintro u hu v hv ⟨T, hT, huT, hvT⟩
    rcases mem_cons.mp hT with rfl | hTF
    · simp only [toList, map_cons, map_nil, mem_singleton] at huT hvT
      rw [huT, hvT]
    · have hold : ∀ w ∈ insert t H, w ∈ T.map Prod.fst → w ∈ H := by
        rintro w (rfl | hw) hwT
        · exact absurd (mem_ids_iff.mpr ⟨T, hTF, hwT⟩) hnew
        · exact hw
      exact h.apart u (hold u hu huT) v (hold v hv hvT) ⟨T, hTF, huT, hvT⟩

variable [DecidableEq ι]

theorem mem_setTree_of_not_together {m m' : Bool} (hu : (u, m') ∈ F.toList)
    (hapart : ¬ F.Together u t) : (u, m') ∈ (F.setTree m t).toList := by
  obtain ⟨T, hT, huT⟩ := mem_toList_iff.mp hu
  refine mem_toList_iff.mpr ⟨T, ?_, huT⟩
  rw [trees_setTree, mem_map]
  refine ⟨T, hT, if_neg fun htT => hapart ⟨T, hT, mem_map_of_mem huT, htT⟩⟩

theorem mem_setTree_of_together {m : Bool} (htogether : F.Together u t) :
    (u, m) ∈ (F.setTree m t).toList := by
  obtain ⟨T, hT, huT, htT⟩ := htogether
  obtain ⟨x, hx, rfl⟩ := mem_map.mp huT
  refine mem_toList_iff.mpr ⟨T.map fun x => (x.1, m), ?_, mem_map.mpr ⟨x, hx, rfl⟩⟩
  rw [trees_setTree, mem_map]
  exact ⟨T, hT, if_pos htT⟩

theorem uniform_setTree (h : Exclusive F H) (m : Bool) (t : ι) :
    ∀ T ∈ (F.setTree m t).trees, ∀ x ∈ T, ∀ y ∈ T, x.2 = y.2 := by
  intro T' hT' x hx y hy
  rw [trees_setTree, mem_map] at hT'
  obtain ⟨T, hT, rfl⟩ := hT'
  split at hx
  next htT =>
    rw [if_pos htT] at hy
    obtain ⟨_, -, rfl⟩ := mem_map.mp hx
    obtain ⟨_, -, rfl⟩ := mem_map.mp hy
    rfl
  next htT =>
    rw [if_neg htT] at hy
    exact h.uniform T hT x hx y hy

theorem acquire (h : Exclusive F H) (ht : (t, false) ∈ F.toList) :
    Exclusive (F.setTree true t) (insert t H) := by
  have hapart : ∀ u ∈ H, ¬ F.Together t u := fun u hu htogether =>
    Bool.false_ne_true (h.mark_eq_of_together htogether ht (h.locked u hu))
  have htF : t ∈ F.ids := mem_map_of_mem ht
  refine ⟨by rw [ids_setTree]; exact h.nodup, h.uniform_setTree true t, ?_, ?_⟩
  · intro u hu
    rcases hu with rfl | hu
    · exact mem_setTree_of_together (together_self htF)
    · by_cases htogether : F.Together u t
      · exact mem_setTree_of_together htogether
      · exact mem_setTree_of_not_together (h.locked u hu) htogether
  · intro u hu v hv htogether
    rw [together_setTree] at htogether
    rcases hu with rfl | hu <;> rcases hv with rfl | hv
    · rfl
    · exact absurd htogether (hapart v hv)
    · exact absurd htogether.symm (hapart u hu)
    · exact h.apart u hu v hv htogether

theorem release (h : Exclusive F H) (ht : t ∈ H) : Exclusive (F.setTree false t) (H \ {t}) := by
  refine ⟨by rw [ids_setTree]; exact h.nodup, h.uniform_setTree false t, ?_, ?_⟩
  · rintro u ⟨hu, hne⟩
    exact mem_setTree_of_not_together (h.locked u hu) fun htogether =>
      hne (h.apart u hu t ht htogether)
  · rintro u ⟨hu, -⟩ v ⟨hv, -⟩ htogether
    exact h.apart u hu v hv (together_setTree.mp htogether)

/-- A new node can be added to a tree, whether it is held or not. -/
theorem graft (h : Exclusive F H) (hp : p ∈ F.ids) (hnew : n ∉ F.ids) :
    Exclusive (F.graft p n nil) H := by
  have hmem : ∀ {T : List (ι × Bool)} {x : ι × Bool}, x ∈ graftList p n [] T ↔
      x ∈ T ∨ ∃ m, (p, m) ∈ T ∧ x = (n, m) := by
    intro T x
    simp [mem_graftList]
  refine ⟨?_, ?_, ?_, ?_⟩
  · refine (ids_graft_perm h.nodup hp).nodup_iff.mpr ?_
    rw [show (nil : Forest ι Bool).ids = [] from rfl, ← concat_eq_append]
    exact h.nodup.concat hnew
  · intro T' hT' x hx y hy
    rw [trees_graft, mem_map] at hT'
    obtain ⟨T, hT, rfl⟩ := hT'
    -- every mark of the tree is the mark of a node that was there before
    have hold : ∀ z ∈ graftList p n [] T, ∃ z' ∈ T, z.2 = z'.2 := by
      intro z hz
      rcases hmem.mp hz with hz | ⟨m, hm, rfl⟩
      · exact ⟨z, hz, rfl⟩
      · exact ⟨(p, m), hm, rfl⟩
    obtain ⟨x', hx', hxx'⟩ := hold x hx
    obtain ⟨y', hy', hyy'⟩ := hold y hy
    rw [hxx', hyy']
    exact h.uniform T hT x' hx' y' hy'
  · intro u hu
    rw [toList_graft]
    exact hmem.mpr (Or.inl (h.locked u hu))
  · rintro u hu v hv ⟨T', hT', huT, hvT⟩
    rw [trees_graft, mem_map] at hT'
    obtain ⟨T, hT, rfl⟩ := hT'
    have hold : ∀ w ∈ H, w ∈ (graftList p n [] T).map Prod.fst → w ∈ T.map Prod.fst := by
      intro w hw hwT
      obtain ⟨x, hx, rfl⟩ := mem_map.mp hwT
      rcases hmem.mp hx with hx | ⟨m, -, rfl⟩
      · exact mem_map_of_mem hx
      · exact absurd (mem_map_of_mem (h.locked n hw)) hnew
    exact h.apart u hu v hv ⟨T, hT, hold u hu huT, hold v hv hvT⟩

/-- Two roots that one caller holds may be linked, and the child is given up. -/
theorem link (h : Exclusive F H) (hp : p ∈ H) (ht : t ∈ H) (hpt : p ≠ t)
    (hroot : t ∈ F.roots) : Exclusive ((F.dropRoot t).graft p t (F.childrenOf t)) (H \ {p}) := by
  obtain ⟨m, hperm⟩ := trees_perm_of_mem_roots hroot
  have hTt : (t, m) :: (F.childrenOf t).toList ∈ F.trees := hperm.symm.subset mem_cons_self
  have hD : ∀ T ∈ (F.dropRoot t).trees, T ∈ F.trees := fun T hT =>
    hperm.symm.subset (mem_cons_of_mem _ hT)
  obtain rfl : m = true := mark_eq h.nodup (mem_toList_of_mem hTt mem_cons_self) (h.locked t ht)
  have hids : F.ids.Perm (t :: (F.childrenOf t).ids ++ (F.dropRoot t).ids) := by
    rw [ids_eq_flatten F, ids_eq_flatten (F.dropRoot t)]
    exact ((hperm.map (map Prod.fst)).flatten)
  have hTtogether : ∀ x ∈ (t, true) :: (F.childrenOf t).toList, F.Together x.1 t := fun x hx =>
    ⟨_, hTt, mem_map_of_mem hx, mem_map_of_mem mem_cons_self⟩
  have hTtrue : ∀ x ∈ (t, true) :: (F.childrenOf t).toList, x.2 = true := fun x hx =>
    h.uniform _ hTt x hx _ mem_cons_self
  -- the other trees hold all that is not in the tree of `t`
  have hother : ∀ u ∈ H, u ≠ t → (u, true) ∈ (F.dropRoot t).toList := by
    intro u hu hut
    obtain ⟨T, hT, huT⟩ := mem_toList_iff.mp (h.locked u hu)
    rcases mem_cons.mp (hperm.subset hT) with rfl | hT
    · exact absurd (h.apart u hu t ht (hTtogether _ huT)) hut
    · exact mem_toList_of_mem hT huT
  have hpD : (p, true) ∈ (F.dropRoot t).toList := hother p hp hpt
  -- the marks of the tree that grows
  have hgrown : ∀ T ∈ (F.dropRoot t).trees, (∃ m, (p, m) ∈ T) →
      ∀ x ∈ graftList p t (F.childrenOf t).toList T, x.2 = true := by
    rintro T hT ⟨m, hm⟩ x hx
    obtain rfl : m = true := mark_eq h.nodup (mem_toList_of_mem (hD T hT) hm) (h.locked p hp)
    rcases mem_graftList.mp hx with hx | ⟨m', hm', hx⟩
    · exact h.uniform T (hD T hT) x hx _ hm
    · obtain rfl : m' = true := h.uniform T (hD T hT) _ hm' _ hm
      exact hTtrue x (mem_cons.mpr hx)
  refine ⟨?_, ?_, ?_, ?_⟩
  · have hnodup := hids.nodup_iff.mp h.nodup
    refine (ids_graft_perm (nodup_append.mp hnodup).2.1 (mem_map_of_mem hpD)).nodup_iff.mpr ?_
    exact (perm_append_comm.nodup_iff).mp hnodup
  · intro T' hT' x hx y hy
    rw [trees_graft, mem_map] at hT'
    obtain ⟨T, hT, rfl⟩ := hT'
    by_cases hpT : ∃ m, (p, m) ∈ T
    · rw [hgrown T hT hpT x hx, hgrown T hT hpT y hy]
    · have hsame : ∀ z ∈ graftList p t (F.childrenOf t).toList T, z ∈ T := fun z hz =>
        (mem_graftList.mp hz).resolve_right fun ⟨m, hm, _⟩ => hpT ⟨m, hm⟩
      exact h.uniform T (hD T hT) x (hsame x hx) y (hsame y hy)
  · rintro u ⟨hu, -⟩
    rw [toList_graft, mem_graftList]
    by_cases hut : u = t
    · exact Or.inr ⟨true, hpD, Or.inl (by rw [hut])⟩
    · exact Or.inl (hother u hu hut)
  · rintro u ⟨hu, hup⟩ v ⟨hv, hvp⟩ ⟨T', hT', huT, hvT⟩
    rw [trees_graft, mem_map] at hT'
    obtain ⟨T, hT, rfl⟩ := hT'
    by_cases hpT : ∃ m, (p, m) ∈ T
    · -- of the tree that grows only `t` is held
      have honly : ∀ w ∈ H, w ≠ p →
          w ∈ (graftList p t (F.childrenOf t).toList T).map Prod.fst → w = t := by
        intro w hw hwp hwT
        obtain ⟨m, hm⟩ := hpT
        obtain ⟨x, hx, rfl⟩ := mem_map.mp hwT
        rcases mem_graftList.mp hx with hx | ⟨m', -, hx⟩
        · exact absurd (h.apart x.1 hw p hp ⟨T, hD T hT, mem_map_of_mem hx,
            mem_map_of_mem hm⟩) hwp
        · rcases hx with rfl | hx
          · rfl
          · exact h.apart x.1 hw t ht (hTtogether x (mem_cons_of_mem _ hx))
      rw [honly u hu hup huT, honly v hv hvp hvT]
    · have hsame : ∀ w, w ∈ (graftList p t (F.childrenOf t).toList T).map Prod.fst →
          w ∈ T.map Prod.fst := by
        intro w hw
        obtain ⟨x, hx, rfl⟩ := mem_map.mp hw
        exact mem_map_of_mem ((mem_graftList.mp hx).resolve_right
          fun ⟨m, hm, _⟩ => hpT ⟨m, hm⟩)
      exact h.apart u hu v hv ⟨T, hD T hT, hsame u huT, hsame v hvT⟩

/-- A node that is not locked can be taken out. -/
theorem destroy (h : Exclusive F H) (ht : (t, false) ∈ F.toList) : Exclusive (F.destroy t) H := by
  have hperm := toList_destroy_perm t F
  refine ⟨?_, ?_, ?_, ?_⟩
  · refine (hperm.map Prod.fst).nodup_iff.mpr ?_
    exact h.nodup.sublist (filter_sublist.map Prod.fst)
  · intro T' hT' x hx y hy
    obtain ⟨T, hT, hsubset⟩ := exists_tree_of_mem_destroy hT'
    exact h.uniform T hT x (hsubset hx) y (hsubset hy)
  · intro u hu
    have hut : u ≠ t := by
      rintro rfl
      exact Bool.false_ne_true (mark_eq h.nodup ht (h.locked u hu))
    exact hperm.symm.subset (mem_filter.mpr ⟨h.locked u hu, by simpa using hut⟩)
  · rintro u hu v hv ⟨T', hT', huT, hvT⟩
    obtain ⟨T, hT, hsubset⟩ := exists_tree_of_mem_destroy hT'
    exact h.apart u hu v hv ⟨T, hT, map_subset _ hsubset huT, map_subset _ hsubset hvT⟩

end Exclusive

end Forest

end SipXRouter
