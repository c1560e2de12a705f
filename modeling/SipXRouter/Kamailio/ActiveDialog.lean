import SipXRouter.Kamailio.DialogCollator

/-!
# The active dialog of a user

A document of the collator lists a dialog at most once and at most one dialog that is not
terminated.  A dialog without a payload is terminated, unless a second leg of it is found
behind the first, which makes it a candidate again.
-/

namespace SipXRouter.Kamailio

open List

/-- The ids of the dialogs that payloads report. -/
def payloadIds (payloads : List Payload) : List Text :=
  (payloads.filterMap parseDialogInfoXML).map fun i => i.dialog.id

/-- The legs of the dialogs that have a payload, from the payloads and from the entries. -/
def candidates (it : Iteration) (redis : Table) (user domain : Text) (payloads : List Payload) :
    List DialogInfo :=
  (collated it redis user domain payloads).2.1 ++
    (getAllDialogInfo it (collated it redis user domain payloads).1 user domain).filter fun i =>
      ((collated it redis user domain payloads).2.1.map fun j => j.dialog.id).contains i.dialog.id

/-- A leg that is stored as not terminated, of a dialog without a payload. -/
structure AbsentActive (redis : Table) (user domain : Text) (payloads : List Payload) (i : DialogInfo) :
    Prop where
  lookup : redis.lookup (entryKey user domain i.dialog) = some i
  active : i.dialog.state ≠ text "terminated"
  absent : i.dialog.id ∉ payloadIds payloads

/-- The document of a call. -/
structure OneActive (it : Iteration) (redis : Table) (user domain : Text) (payloads : List Payload)
    (doc : DialogInfoElement) : Prop where
  nodup : (doc.dialogs.map DialogElement.id).Nodup
  one : (doc.dialogs.filter fun d => d.state ≠ some (text "terminated")).length ≤ 1
  preferred : ∀ d ∈ doc.dialogs, ∀ state, d.state = some state → state ≠ text "terminated" →
    ∀ i ∈ candidates it redis user domain payloads,
      getPreferenceByState i.dialog.state ≤ getPreferenceByState state
  listed : ∀ i, AbsentActive redis user domain payloads i →
    ∃ d ∈ doc.dialogs, d.id = some i.dialog.id ∧ d.state = some (text "terminated")
  ended : ∀ i, AbsentActive redis user domain payloads i → ∀ j,
    redis.lookup (entryKey user domain j.dialog) = some j → j.dialog.id = i.dialog.id →
    ∃ k, (collateAndAggregatePayloads it redis user domain payloads).1.lookup
      (entryKey user domain j.dialog) = some k ∧ k.dialog.state = text "terminated"

/-- The search finds the leg and no other one of its dialog that is not terminated, and no payload
has the key of an entry of the dialog. -/
structure Alone (redis : Table) (user domain : Text) (payloads : List Payload) (i : DialogInfo) :
    Prop where
  found : Glob.covers (searchPattern user domain) (entryKey user domain i.dialog) = true
  single : ∀ key j, redis.lookup key = some j → Glob.covers (searchPattern user domain) key = true →
    j.dialog.id = i.dialog.id → j.dialog.state ≠ text "terminated" →
    key = entryKey user domain i.dialog
  untouched : ∀ j ∈ payloads.filterMap readPayload, ∀ k,
    redis.lookup (entryKey user domain j.dialog) = some k → k.dialog.id ≠ i.dialog.id

/-- Each dialog without a payload has one leg to terminate. -/
def EndsAbsent (redis : Table) (user domain : Text) (payloads : List Payload) : Prop :=
  ∀ i, AbsentActive redis user domain payloads i → Alone redis user domain payloads i

variable {i : DialogInfo} {id key : Text} {is : List DialogInfo} {s : Table × Table} {t : Table}

section

variable {it : Iteration} {redis : Table} {user domain : Text} {payloads : List Payload}

/-! ## The last stage -/

/-- One dialog stands terminated in place of another. -/
def GivesWay (i j : DialogInfo) : Prop :=
  j.dialog.id = i.dialog.id ∧ j.dialog.state = text "terminated"

theorem forceTerminate_givesWay (redis : Table) (i : DialogInfo) :
    GivesWay i (forceTerminate user domain redis i).2 := by
  unfold forceTerminate
  simp only
  split <;> exact ⟨rfl, rfl⟩

theorem giveWay_givesWay (redis : Table) (i : DialogInfo) :
    GivesWay i (giveWay user domain redis i).2 := by
  unfold giveWay
  split
  · next h => exact ⟨rfl, h⟩
  · exact forceTerminate_givesWay redis i

/-- What the dialogs looked at so far have left: each shown one is one of them or has given way to
the preferred one. -/
structure Finalized (passed : List DialogInfo) (s : Finalizing) : Prop where
  dialogs : ∃ before after, passed = before ++ s.active :: after ∧
    Forall₂ GivesWay before s.before ∧ Forall₂ GivesWay after s.after
  preferred : ∀ i ∈ passed,
    getPreferenceByState i.dialog.state ≤ getPreferenceByState s.active.dialog.state

theorem finalizeAggregate_spec {passed : List DialogInfo} {s : Finalizing} (h : Finalized passed s)
    (i : DialogInfo) : Finalized (passed ++ [i]) (finalizeAggregate user domain s i) := by
  obtain ⟨⟨before, after, rfl, hbefore, hafter⟩, hpreferred⟩ := h
  unfold finalizeAggregate
  split
  · next hcompare =>
    have hle := sub_nonneg.mp hcompare
    refine ⟨⟨before ++ s.active :: after, [], rfl, ?_, Forall₂.nil⟩, ?_⟩
    · exact rel_append hbefore (Forall₂.cons (giveWay_givesWay _ _) hafter)
    · simp only [forall_mem_append, forall_mem_singleton]
      simp only [forall_mem_append] at hpreferred
      exact ⟨⟨fun j hj => (hpreferred.1 j hj).trans hle, fun j hj => (hpreferred.2 j hj).trans hle⟩,
        le_rfl⟩
  · next hcompare =>
    have hle := le_of_lt (sub_neg.mp (not_le.mp hcompare))
    refine ⟨⟨before, after ++ [i], by simp, hbefore, ?_⟩, ?_⟩
    · exact rel_append hafter (Forall₂.cons (giveWay_givesWay _ _) Forall₂.nil)
    · rw [forall_mem_append, forall_mem_singleton]
      exact ⟨hpreferred, hle⟩

theorem foldl_finalizeAggregate_spec {passed : List DialogInfo} {s : Finalizing}
    (h : Finalized passed s) : Finalized (passed ++ is) (is.foldl (finalizeAggregate user domain) s) := by
  induction is generalizing passed s with
  | nil => rwa [append_nil]
  | cons i is ih =>
    have hstep : Finalized (passed ++ [i]) (finalizeAggregate user domain s i) :=
      finalizeAggregate_spec h i
    have hrest := ih hstep
    rwa [append_assoc] at hrest

theorem finalizeAggregatePayloads_spec (user domain : Text) (redis : Table)
    (hne : is ≠ []) : ∃ before active after before' after', is = before ++ active :: after ∧
      (finalizeAggregatePayloads user domain redis is).2 = before' ++ active :: after' ∧
      Forall₂ GivesWay before before' ∧ Forall₂ GivesWay after after' ∧
      ∀ i ∈ is, getPreferenceByState i.dialog.state ≤ getPreferenceByState active.dialog.state := by
  cases is with
  | nil => exact absurd rfl hne
  | cons first others =>
    have hfirst : Finalized [first] ⟨redis, [], first, []⟩ :=
      ⟨⟨[], [], rfl, Forall₂.nil, Forall₂.nil⟩, by simp⟩
    have hfold : Finalized ([first] ++ others)
        (others.foldl (finalizeAggregate user domain) ⟨redis, [], first, []⟩) :=
      foldl_finalizeAggregate_spec hfirst
    obtain ⟨⟨before, after, heq, hbefore, hafter⟩, hpreferred⟩ := hfold
    exact ⟨before, _, after, _, _, heq, rfl, hbefore, hafter, hpreferred⟩

/-! ## The aggregated dialogs -/

/-- A map from ids to dialogs. -/
def KeyedById (t : Table) : Prop := ∀ id i, t.lookup id = some i → i.dialog.id = id

theorem keyedById_offer (h : KeyedById t) (i : DialogInfo) :
    KeyedById (t.offer compareDialogByPreference i.dialog.id i) := by
  intro id j hj
  obtain hj | ⟨rfl, rfl⟩ := lookup_offer hj
  · exact h id j hj
  · rfl

theorem keyedById_aggregateRemote (h : KeyedById s.2) (i : DialogInfo) :
    KeyedById (aggregateRemote user domain s i).2 := by
  unfold aggregateRemote
  split
  · exact keyedById_offer h i
  · split
    · exact h
    · intro id j hj
      by_cases hid : id = i.dialog.id
      · subst hid
        obtain rfl := Option.some.inj ((AList.lookup_insert s.2).symm.trans hj)
        exact (forceTerminate_givesWay s.1 i).1
      · exact h id j ((AList.lookup_insert_ne hid).symm.trans hj)

theorem keyedById_aggregated : KeyedById (aggregated it redis user domain payloads).2 := by
  have hfold : ∀ (is : List DialogInfo) (s : Table × Table), KeyedById s.2 →
      KeyedById (is.foldl (aggregateRemote user domain) s).2 := by
    intro is
    induction is with
    | nil => exact fun s h => h
    | cons i is ih => exact fun s h => ih _ (keyedById_aggregateRemote h i)
  exact hfold _ (_, _) fun id i hi => (lookup_aggregateLocalPayloads hi).2

theorem ids_filterMap_lookup (h : KeyedById t) {keys : List Text} (hkeys : ∀ k ∈ keys, k ∈ t) :
    (keys.filterMap t.lookup).map (fun i => i.dialog.id) = keys := by
  induction keys with
  | nil => rfl
  | cons k keys ih =>
    obtain ⟨hk, hkeys⟩ := forall_mem_cons.mp hkeys
    obtain ⟨i, hi⟩ := Option.isSome_iff_exists.mp (AList.lookup_isSome.mpr hk)
    rw [filterMap_cons_some (f := fun k => t.lookup k) hi, map_cons, ih hkeys, h k i hi]

theorem nodup_ids_values (h : KeyedById t) : ((it.values t).map fun i => i.dialog.id).Nodup := by
  rw [Iteration.values, ids_filterMap_lookup h fun k hk => AList.mem_keys.mpr ((it.hash_perm _).mem_iff.mp hk)]
  exact (it.hash_perm _).nodup_iff.mpr t.keys_nodup

/-- The dialog under an id is at least as preferred as this one. -/
def Covered (t : Table) (id : Text) (i : DialogInfo) : Prop :=
  ∃ j, t.lookup id = some j ∧ getPreferenceByState i.dialog.state ≤ getPreferenceByState j.dialog.state

theorem covered_offer_self (t : Table) (i : DialogInfo) :
    Covered (t.offer compareDialogByPreference i.dialog.id i) i.dialog.id i := by
  unfold Table.offer
  split
  · next old hold =>
    split
    · exact ⟨i, AList.lookup_insert t, le_rfl⟩
    · next hcompare => exact ⟨old, hold, le_of_lt (sub_neg.mp (not_le.mp hcompare))⟩
  · exact ⟨i, AList.lookup_insert t, le_rfl⟩

theorem Covered.offer (h : Covered t id i) (j : DialogInfo) :
    Covered (t.offer compareDialogByPreference j.dialog.id j) id i := by
  obtain ⟨k, hk, hik⟩ := h
  unfold Table.offer
  split
  · next old hold =>
    split
    · next hcompare =>
      by_cases hid : id = j.dialog.id
      · subst hid
        obtain rfl := Option.some.inj (hk.symm.trans hold)
        exact ⟨j, AList.lookup_insert t, hik.trans (sub_nonneg.mp hcompare)⟩
      · exact ⟨k, (AList.lookup_insert_ne hid).trans hk, hik⟩
    · exact ⟨k, hk, hik⟩
  · next hnone =>
    have hid : id ≠ j.dialog.id := by
      rintro rfl
      exact absurd (hnone.symm.trans hk) (by simp)
    exact ⟨k, (AList.lookup_insert_ne hid).trans hk, hik⟩

theorem Covered.aggregateRemote (h : Covered s.2 id i)
    (j : DialogInfo) : Covered (aggregateRemote user domain s j).2 id i := by
  unfold Kamailio.aggregateRemote
  split
  · exact h.offer j
  · next hid =>
    split
    · exact h
    · obtain ⟨k, hk, hik⟩ := h
      refine ⟨k, (AList.lookup_insert_ne ?_).trans hk, hik⟩
      rintro rfl
      exact hid (AList.lookup_isSome.mp (by rw [hk]; rfl))

theorem Covered.foldl_aggregateRemote (h : Covered s.2 id i) :
    Covered (is.foldl (Kamailio.aggregateRemote user domain) s).2 id i := by
  induction is generalizing s with
  | nil => exact h
  | cons j is ih => exact ih (h.aggregateRemote j)

theorem covered_aggregateLocalPayloads (hi : i ∈ is) :
    Covered (aggregateLocalPayloads is) i.dialog.id i := by
  have hfold : ∀ (is : List DialogInfo) (t : Table), (i ∈ is ∨ Covered t i.dialog.id i) →
      Covered (is.foldl (fun t i => t.offer compareDialogByPreference i.dialog.id i) t) i.dialog.id i := by
    intro is
    induction is with
    | nil => exact fun t h => h.resolve_left not_mem_nil
    | cons j is ih =>
      intro t h
      refine ih _ ?_
      obtain hi | h := h
      · obtain rfl | hi := mem_cons.mp hi
        · exact Or.inr (covered_offer_self t i)
        · exact Or.inl hi
      · exact Or.inr (h.offer j)
  exact hfold is ∅ (Or.inl hi)

theorem covered_foldl_aggregateRemote (hi : i ∈ is) (hid : i.dialog.id ∈ s.2) :
    Covered (is.foldl (aggregateRemote user domain) s).2 i.dialog.id i := by
  induction is generalizing s with
  | nil => exact absurd hi not_mem_nil
  | cons j is ih =>
    rw [foldl_cons]
    obtain rfl | hi := mem_cons.mp hi
    · have hoffer : aggregateRemote user domain s i =
          (s.1, s.2.offer compareDialogByPreference i.dialog.id i) := if_pos hid
      rw [hoffer]
      exact Covered.foldl_aggregateRemote (covered_offer_self s.2 i)
    · obtain ⟨k, hk⟩ := Option.isSome_iff_exists.mp (AList.lookup_isSome.mpr hid)
      have hcovered : Covered s.2 i.dialog.id k := ⟨k, hk, le_rfl⟩
      have hnext : Covered (aggregateRemote user domain s j).2 i.dialog.id k :=
        hcovered.aggregateRemote j
      obtain ⟨k', hk', -⟩ := hnext
      exact ih hi (AList.lookup_isSome.mp (by rw [hk']; rfl))

theorem covered_of_mem_candidates (hi : i ∈ candidates it redis user domain payloads) :
    Covered (aggregated it redis user domain payloads).2 i.dialog.id i := by
  obtain hi | hi := mem_append.mp hi
  · exact Covered.foldl_aggregateRemote (s := (_, _)) (covered_aggregateLocalPayloads hi)
  · obtain ⟨hmem, hid⟩ := mem_filter.mp hi
    obtain ⟨j, hj, hjid⟩ := mem_map.mp (contains_iff_mem.mp hid)
    refine covered_foldl_aggregateRemote (s := (_, _)) hmem ?_
    obtain ⟨k, hk, -⟩ := covered_aggregateLocalPayloads hj
    rw [← hjid]
    exact AList.lookup_isSome.mp (by rw [hk]; rfl)

/-! ## A dialog without a payload -/

/-- The entries of a dialog are the same. -/
def SameFor (id : Text) (redis r : Table) : Prop :=
  ∀ key j, j.dialog.id = id → (redis.lookup key = some j ↔ r.lookup key = some j)

theorem sameFor_collateRemote {r : Table} {j : DialogInfo} (hr : SameFor id redis r)
    (hj : j.dialog.id ≠ id)
    (huntouched : ∀ k, redis.lookup (entryKey user domain j.dialog) = some k → k.dialog.id ≠ id) :
    SameFor id redis (collateRemote user domain r j).1 ∧
      (collateRemote user domain r j).2.dialog.id ≠ id := by
  have hwrite : SameFor id redis (setDialogInfo r (generateKey user domain j.dialog) j) := by
    intro key k hk
    by_cases hkey : key = entryKey user domain j.dialog
    · subst hkey
      refine ⟨fun h => absurd hk (huntouched k h), fun h => ?_⟩
      obtain rfl := Option.some.inj ((AList.lookup_insert r).symm.trans h)
      exact absurd hk hj
    · exact (hr key k hk).trans (Eq.congr_left (AList.lookup_insert_ne hkey)).symm
  unfold collateRemote
  simp only
  split
  · next current hcurrent =>
    split
    · exact ⟨hwrite, hj⟩
    · exact ⟨hr, fun hid => huntouched current ((hr _ current hid).mpr hcurrent) hid⟩
  · exact ⟨hwrite, hj⟩

theorem id_mem_payloadIds {j : DialogInfo} (hj : j ∈ payloads.filterMap readPayload) :
    j.dialog.id ∈ payloadIds payloads := by
  obtain ⟨payload, hmem, hpayload⟩ := mem_filterMap.mp hj
  exact mem_map.mpr ⟨j, mem_filterMap.mpr
    ⟨payload, hmem, (Option.filter_eq_some_iff.mp hpayload).1⟩, rfl⟩

theorem sameFor_collated (it : Iteration) (hid : id ∉ payloadIds payloads)
    (huntouched : ∀ j ∈ payloads.filterMap readPayload, ∀ k,
      redis.lookup (entryKey user domain j.dialog) = some k → k.dialog.id ≠ id) :
    SameFor id redis (collated it redis user domain payloads).1 ∧
      ∀ j ∈ (collated it redis user domain payloads).2.1, j.dialog.id ≠ id := by
  have hall : ∀ (is : List DialogInfo) (r : Table), (∀ j ∈ is, j ∈ payloads.filterMap readPayload) →
      SameFor id redis r → SameFor id redis (collateRemotePayloads user domain r is).1 ∧
        ∀ j ∈ (collateRemotePayloads user domain r is).2.1, j.dialog.id ≠ id := by
    intro is
    induction is with
    | nil => exact fun r _ hr => ⟨hr, fun j hj => absurd hj not_mem_nil⟩
    | cons j is ih =>
      intro r his hr
      obtain ⟨hj, his⟩ := forall_mem_cons.mp his
      have hne : j.dialog.id ≠ id := fun h => hid (h ▸ id_mem_payloadIds hj)
      obtain ⟨hfirst, hfirstId⟩ := sameFor_collateRemote hr hne (huntouched j hj)
      obtain ⟨hrest, hrestIds⟩ := ih _ his hfirst
      rw [collateRemotePayloads, if_pos (valid_of_mem_payloads hj)]
      exact ⟨hrest, forall_mem_cons.mpr ⟨hfirstId, hrestIds⟩⟩
  exact hall _ redis (fun j hj => mem_payloads_of_mem_collateLocalPayloads hj) fun _ _ _ => Iff.rfl

/-- Where one live entry has the dialog, it is found once in the list for the user. -/
theorem getAllDialogInfo_split (it : Iteration) {r : Table}
    (hlookup : r.lookup (entryKey user domain i.dialog) = some i) (hvalid : i.valid = true)
    (hfound : Glob.covers (searchPattern user domain) (entryKey user domain i.dialog) = true)
    (hsingle : ∀ key j, r.lookup key = some j → Glob.covers (searchPattern user domain) key = true →
      j.dialog.id = i.dialog.id → j.dialog.state ≠ text "terminated" →
      key = entryKey user domain i.dialog) :
    ∃ before after, getAllDialogInfo it r user domain = before ++ i :: after ∧
      ∀ j ∈ before ++ after, j.dialog.id = i.dialog.id → j.dialog.state = text "terminated" := by
  let keys := (it.reply r.keys).filter (Glob.covers (searchPattern user domain))
  have hmem : entryKey user domain i.dialog ∈ keys := by
    refine mem_filter.mpr ⟨(it.reply_perm _).mem_iff.mpr ?_, hfound⟩
    exact AList.mem_keys.mp (AList.lookup_isSome.mp (by rw [hlookup]; rfl))
  have hnodup : keys.Nodup := ((it.reply_perm _).nodup_iff.mpr r.keys_nodup).filter _
  obtain ⟨first, last, hkeys⟩ := append_of_mem hmem
  rw [hkeys, nodup_middle, nodup_cons] at hnodup
  refine ⟨(first.filterMap fun k => r.lookup k).filter DialogInfo.valid,
    (last.filterMap fun k => r.lookup k).filter DialogInfo.valid, ?_, ?_⟩
  · show ((keys.filterMap fun k => r.lookup k).filter DialogInfo.valid) = _
    rw [hkeys, filterMap_append, filterMap_cons_some (f := fun k => r.lookup k) hlookup,
      filter_append, filter_cons_of_pos hvalid]
  · intro j hj hid
    by_contra hactive
    rw [← filter_append, ← filterMap_append] at hj
    obtain ⟨key, hkey, hj⟩ := mem_filterMap.mp (mem_filter.mp hj).1
    have hcovers : Glob.covers (searchPattern user domain) key = true := by
      have hmem : key ∈ keys := by
        rw [hkeys]
        exact (append_sublist_append_left first).mpr (sublist_cons_self _ _) |>.subset hkey
      exact (mem_filter.mp hmem).2
    exact hnodup.1 (hsingle key j hj hcovers hid hactive ▸ hkey)

/-- The entry is that of a terminated dialog. -/
def TerminatedAt (key : Text) (t : Table) : Prop :=
  ∃ j, t.lookup key = some j ∧ j.dialog.state = text "terminated"

theorem TerminatedAt.insert {key' : Text} (h : TerminatedAt key t)
    (hi : key' = key → i.dialog.state = text "terminated") : TerminatedAt key (t.insert key' i) := by
  by_cases hkey : key = key'
  · subst hkey
    exact ⟨i, AList.lookup_insert t, hi rfl⟩
  · obtain ⟨j, hj, hstate⟩ := h
    exact ⟨j, (AList.lookup_insert_ne hkey).trans hj, hstate⟩

theorem TerminatedAt.forceTerminate (h : TerminatedAt key t) (i : DialogInfo) :
    TerminatedAt key (forceTerminate user domain t i).1 := by
  unfold Kamailio.forceTerminate
  simp only
  split
  · exact h.insert fun _ => rfl
  · exact h

theorem terminatedAt_forceTerminate (hi : Sound i) (t : Table) :
    TerminatedAt (entryKey user domain i.dialog) (forceTerminate user domain t i).1 := by
  obtain ⟨rawPayload, hupdate, -⟩ := hi.update
  rw [forceTerminate_eq hupdate]
  exact ⟨_, AList.lookup_insert t, rfl⟩

theorem TerminatedAt.foldl_aggregateRemote
    (h : TerminatedAt key s.1) : TerminatedAt key (is.foldl (aggregateRemote user domain) s).1 := by
  induction is generalizing s with
  | nil => exact h
  | cons i is ih =>
    refine ih ?_
    unfold aggregateRemote
    split
    · exact h
    · split
      · exact h
      · exact h.forceTerminate i

theorem TerminatedAt.giveWay (h : TerminatedAt key t) (i : DialogInfo) :
    TerminatedAt key (giveWay user domain t i).1 := by
  unfold Kamailio.giveWay
  split
  · exact h
  · exact h.forceTerminate i

theorem TerminatedAt.finalizeAggregatePayloads (h : TerminatedAt key t)
    (is : List DialogInfo) : TerminatedAt key (finalizeAggregatePayloads user domain t is).1 := by
  have hfold : ∀ (is : List DialogInfo) (s : Finalizing), TerminatedAt key s.redis →
      TerminatedAt key (is.foldl (finalizeAggregate user domain) s).redis := by
    intro is
    induction is with
    | nil => exact fun s h => h
    | cons i is ih =>
      intro s h
      refine ih _ ?_
      unfold finalizeAggregate
      split <;> exact h.giveWay _
  cases is with
  | nil => exact h
  | cons first others => exact hfold others _ h

theorem not_mem_foldl_aggregateRemote
    (his : ∀ j ∈ is, j.dialog.id = id → j.dialog.state = text "terminated") (hid : id ∉ s.2) :
    id ∉ (is.foldl (aggregateRemote user domain) s).2 := by
  induction is generalizing s with
  | nil => exact hid
  | cons i is ih =>
    obtain ⟨hi, his⟩ := forall_mem_cons.mp his
    refine ih his ?_
    have hinsert : id ≠ i.dialog.id → ∀ j, id ∉ s.2.insert i.dialog.id j := by
      intro hne j hmem
      obtain h | h := (AList.mem_insert _).mp hmem
      · exact hne h
      · exact hid h
    unfold aggregateRemote
    split
    · next hmem =>
      have hne : id ≠ i.dialog.id := fun h => hid (h ▸ hmem)
      unfold Table.offer
      split
      · split
        · exact hinsert hne i
        · exact hid
      · exact hinsert hne i
    · split
      · exact hid
      · next hactive => exact hinsert (fun h => hactive (hi h.symm)) _

theorem TerminatedAt.aggregated
    (his : ∀ j ∈ is, j.dialog.id = id → j.dialog.state = text "terminated")
    (h : TerminatedAt id s.2) : TerminatedAt id (is.foldl (aggregateRemote user domain) s).2 := by
  induction is generalizing s with
  | nil => exact h
  | cons i is ih =>
    obtain ⟨hi, his⟩ := forall_mem_cons.mp his
    refine ih his ?_
    unfold aggregateRemote
    split
    · unfold Table.offer
      split
      · split
        · exact h.insert hi
        · exact h
      · exact h.insert hi
    · split
      · exact h
      · exact h.insert fun _ => (forceTerminate_givesWay s.1 i).2

/-! ## The document of a call -/

/-- Payloads with at most one dialog each keep the entries of the store sound. -/
theorem closed_sound (hstore : ∀ key j, redis.lookup key = some j → Sound j)
    (hone : ∀ payload ∈ payloads, AtMostOneDialog payload) :
    Closed it user domain payloads redis Sound := by
  have hwrites : ∀ r, Writes user domain Sound redis r → ∀ key j, r.lookup key = some j → Sound j := by
    intro r hr
    induction hr with
    | refl => exact hstore
    | tail _ hlast ih =>
      intro key j hj
      obtain ⟨k, hk, -, rfl⟩ := hlast
      by_cases hkey : key = entryKey user domain k.dialog
      · subst hkey
        obtain rfl := Option.some.inj ((AList.lookup_insert _).symm.trans hj)
        exact hk.stored
      · exact ih key j ((AList.lookup_insert_ne hkey).symm.trans hj)
  refine ⟨fun i hi _ _ _ => ?_, fun _ _ r hr current h => hwrites r hr _ current h,
    fun r hr i hi => ?_, fun i hi rawPayload hupdate => ?_, fun _ h => h⟩
  · obtain ⟨payload, hmem, hpayload⟩ := mem_filterMap.mp hi
    exact (hone payload hmem).parse (Option.filter_eq_some_iff.mp hpayload).1 (valid_of_mem_payloads hi)
  · obtain ⟨key, -, hlookup⟩ := mem_filterMap.mp (mem_filter.mp hi).1
    exact hwrites r hr key i hlookup
  · obtain ⟨rawPayload', hupdate', hsound⟩ := hi.update
    obtain rfl := Option.some.inj (hupdate.symm.trans hupdate')
    exact hsound

/-- After the loop an absent dialog is terminated in the answer and in the store. -/
theorem terminatedAt_aggregated (it : Iteration)
    (hstore : ∀ key j, redis.lookup key = some j → Sound j)
    (hi : AbsentActive redis user domain payloads i)
    (halone : Alone redis user domain payloads i) :
    TerminatedAt i.dialog.id (aggregated it redis user domain payloads).2 ∧
      TerminatedAt (entryKey user domain i.dialog) (aggregated it redis user domain payloads).1 := by
  have hsound := hstore _ i hi.lookup
  obtain ⟨hsame, hids⟩ := sameFor_collated it hi.absent halone.untouched
  obtain ⟨before, after, hsplit, hothers⟩ := getAllDialogInfo_split it
    ((hsame _ i rfl).mp hi.lookup) hsound.1 halone.found
    fun key j hj hcovers hid => halone.single key j ((hsame key j hid).mpr hj) hcovers hid
  have hbefore : ∀ j ∈ before, j.dialog.id = i.dialog.id → j.dialog.state = text "terminated" :=
    fun j hj => hothers j (mem_append_left _ hj)
  have hafter : ∀ j ∈ after, j.dialog.id = i.dialog.id → j.dialog.state = text "terminated" :=
    fun j hj => hothers j (mem_append_right _ hj)
  have hnone : i.dialog.id ∉ aggregateLocalPayloads (collated it redis user domain payloads).2.1 := by
    intro hmem
    obtain ⟨j, hj⟩ := Option.isSome_iff_exists.mp (AList.lookup_isSome.mpr hmem)
    obtain ⟨hj, hid⟩ := lookup_aggregateLocalPayloads hj
    exact hids j hj hid
  rw [aggregated, hsplit, foldl_append, foldl_cons]
  -- the legs in front of it leave no dialog under the id, so it is terminated by force
  have hid : i.dialog.id ∉ (before.foldl (aggregateRemote user domain)
      ((collated it redis user domain payloads).1,
        aggregateLocalPayloads (collated it redis user domain payloads).2.1)).2 :=
    not_mem_foldl_aggregateRemote hbefore hnone
  have hforce : ∀ s : Table × Table, i.dialog.id ∉ s.2 → aggregateRemote user domain s i =
      ((forceTerminate user domain s.1 i).1,
        s.2.insert i.dialog.id (forceTerminate user domain s.1 i).2) := by
    intro s hs
    rw [aggregateRemote, if_neg hs, if_neg hi.active]
  rw [hforce _ hid]
  refine ⟨TerminatedAt.aggregated hafter ?_, TerminatedAt.foldl_aggregateRemote ?_⟩
  · exact ⟨_, AList.lookup_insert _, (forceTerminate_givesWay _ i).2⟩
  · exact terminatedAt_forceTerminate hsound _

theorem ids_of_givesWay {js : List DialogInfo} (h : Forall₂ GivesWay is js) :
    js.map (fun j => j.dialog.id) = is.map fun i => i.dialog.id := by
  induction h with
  | nil => rfl
  | cons hi _ ih => rw [map_cons, map_cons, hi.1, ih]

theorem terminated_of_givesWay {js : List DialogInfo} (h : Forall₂ GivesWay is js) :
    ∀ j ∈ js, j.dialog.state = text "terminated" := fun _ hj =>
  have ⟨_, _, hgives⟩ := exists_of_forall₂ h hj
  hgives.2

theorem ids_of_shows {ds : List DialogElement} (h : Forall₂ (fun i d => d.Shows i.dialog) is ds) :
    ds.map DialogElement.id = is.map fun i => some i.dialog.id := by
  induction h with
  | nil => rfl
  | cons hd _ ih => rw [map_cons, map_cons, hd.id, ih]

/-- Where every dialog without a payload has one leg to terminate, the document lists each dialog
once, one of them as not terminated at most, and those without a payload as terminated. -/
theorem oneActive_of_endsAbsent (hstore : ∀ key j, redis.lookup key = some j → Sound j)
    (hone : ∀ payload ∈ payloads, AtMostOneDialog payload)
    (hends : EndsAbsent redis user domain payloads) {doc : DialogInfoElement}
    (hdoc : (collateAndAggregatePayloads it redis user domain payloads).2 = some doc) :
    OneActive it redis user domain payloads doc := by
  obtain hcase | hcase := collateAndAggregatePayloads_cases it redis user domain payloads
  · exact absurd hdoc (by rw [hcase]; simp)
  have hstored : (collateAndAggregatePayloads it redis user domain payloads).1 =
      (finalized it redis user domain payloads).1 := congrArg Prod.fst hcase
  rw [hcase] at hdoc
  have hshows := shows_generateDialogPayload (closed_sound hstore hone).writes_finalized.2 hdoc
  have hne : it.values (aggregated it redis user domain payloads).2 ≠ [] := by
    intro hnil
    rw [finalized, hnil] at hdoc
    exact absurd hdoc (by simp [finalizeAggregatePayloads, generateDialogPayload,
      maskDialogInfoXMLVersion])
  obtain ⟨before, active, after, before', after', hvalues, hfinal, hbefore, hafter, hpreferred⟩ :=
    finalizeAggregatePayloads_spec user domain (aggregated it redis user domain payloads).1 hne
  have hfinal : (finalized it redis user domain payloads).2 = before' ++ active :: after' := hfinal
  rw [hfinal] at hshows
  refine ⟨?_, ?_, ?_, fun i hi => ?_, fun i hi j hj hid => ?_⟩
  · have hids : doc.dialogs.map DialogElement.id =
        ((it.values (aggregated it redis user domain payloads).2).map fun i => i.dialog.id).map some := by
      rw [ids_of_shows hshows, hvalues]
      simp only [map_append, map_cons, map_map, ← ids_of_givesWay hbefore,
        ← ids_of_givesWay hafter]
      rfl
    rw [hids]
    exact (nodup_ids_values keyedById_aggregated).map (Option.some_injective _)
  · have hfilter := rel_filter (p := fun i : DialogInfo => i.dialog.state ≠ text "terminated")
      (q := fun d : DialogElement => d.state ≠ some (text "terminated")) (fun i d hd => by simp [hd.state])
      hshows
    rw [← hfilter.length_eq, filter_append, filter_cons]
    have hnone : ∀ {is js : List DialogInfo}, Forall₂ GivesWay is js →
        js.filter (fun i => i.dialog.state ≠ text "terminated") = [] := by
      intro is js h
      refine filter_eq_nil_iff.mpr fun j hj => ?_
      simp [terminated_of_givesWay h j hj]
    rw [hnone hbefore, hnone hafter]
    split <;> simp
  · intro d hd state hstate hactive i hi
    obtain ⟨j, hj, hdj⟩ := exists_of_forall₂ hshows hd
    obtain rfl : state = j.dialog.state := Option.some.inj (hstate.symm.trans hdj.state)
    -- all others have given way
    have hj : j = active := by
      rw [mem_append, mem_cons] at hj
      obtain hj | rfl | hj := hj
      · exact absurd (terminated_of_givesWay hbefore j hj) hactive
      · rfl
      · exact absurd (terminated_of_givesWay hafter j hj) hactive
    obtain ⟨k, hk, hik⟩ := covered_of_mem_candidates hi
    rw [hj]
    exact hik.trans (hpreferred k (mem_values.mpr ⟨_, hk⟩))
  · obtain ⟨j, hj, hstate⟩ := (terminatedAt_aggregated it hstore hi (hends i hi)).1
    have hid := keyedById_aggregated _ j hj
    have hmem : ∃ k ∈ before' ++ active :: after', GivesWay j k := by
      have hj : j ∈ before ++ active :: after := hvalues ▸ mem_values.mpr ⟨_, hj⟩
      rw [mem_append, mem_cons] at hj
      obtain hj | rfl | hj := hj
      · obtain ⟨k, hk, h⟩ := exists_of_forall₂ hbefore.flip hj
        exact ⟨k, mem_append_left _ hk, h⟩
      · exact ⟨j, by simp, rfl, hstate⟩
      · obtain ⟨k, hk, h⟩ := exists_of_forall₂ hafter.flip hj
        exact ⟨k, by simp [hk], h⟩
    obtain ⟨k, hk, hgives⟩ := hmem
    obtain ⟨d, hd, hdk⟩ := exists_of_forall₂ hshows.flip hk
    exact ⟨d, hd, by rw [hdk.id, hgives.1, hid], by rw [hdk.state, hgives.2]⟩
  · rw [hstored]
    refine TerminatedAt.finalizeAggregatePayloads ?_ _
    by_cases hactive : j.dialog.state = text "terminated"
    · obtain ⟨hsame, -⟩ := sameFor_collated it hi.absent (hends i hi).untouched
      exact TerminatedAt.foldl_aggregateRemote (s := (_, _)) ⟨j, (hsame _ j hid).mp hj, hactive⟩
    · have hjAbsent : AbsentActive redis user domain payloads j := ⟨hj, hactive, hid ▸ hi.absent⟩
      exact (terminatedAt_aggregated it hstore hjAbsent (hends j hjAbsent)).2

end

def earlyLeg : DialogInfo := ((parseDialogInfoXML (payloadOf "1" "a" "b" "c" "early")).get rfl).stored

/-- The entry of one leg. -/
def earlyStore : Table := setDialogInfo ∅ (generateKey (text "5001") (text "inc") earlyLeg.dialog) earlyLeg

theorem oneActive_earlyStore :
    let payloads := [payloadOf "2" "d" "e" "f" "trying"]
    ∃ doc, (collateAndAggregatePayloads .asStored earlyStore (text "5001") (text "inc") payloads).2 =
      some doc ∧ OneActive .asStored earlyStore (text "5001") (text "inc") payloads doc := by
  have hone : ∀ key j, earlyStore.lookup key = some j →
      j = earlyLeg ∧ key = entryKey (text "5001") (text "inc") earlyLeg.dialog := by
    intro key j hj
    have hmem : (⟨key, j⟩ : Sigma fun _ : Text => DialogInfo) ∈
        [⟨entryKey (text "5001") (text "inc") earlyLeg.dialog, earlyLeg⟩] :=
      AList.mem_lookup_iff.mp hj
    cases mem_singleton.mp hmem
    exact ⟨rfl, rfl⟩
  have hsound : Sound earlyLeg := ⟨by decide, _, _, rfl, rfl, rfl, rfl, rfl, rfl, rfl⟩
  have hsome : (collateAndAggregatePayloads .asStored earlyStore (text "5001") (text "inc")
      [payloadOf "2" "d" "e" "f" "trying"]).2.isSome = true := by decide
  have hdoc := (Option.some_get hsome).symm
  refine ⟨_, hdoc, oneActive_of_endsAbsent (fun key j hj => (hone key j hj).1 ▸ hsound) (by decide)
    (fun i hi => ?_) hdoc⟩
  obtain ⟨rfl, -⟩ := hone _ i hi.lookup
  refine ⟨by decide, fun key j hj _ _ _ => (hone key j hj).2, ?_⟩
  intro j hj k hk
  rw [(hone _ k hk).1]
  obtain rfl := mem_singleton.mp hj
  exact absurd (hone _ k hk).2 (by decide)

/-- A fork has left two legs of one dialog.  The first one is terminated, and the second makes
the dialog the active one, although it has no payload. -/
theorem not_oneActive_of_second_leg :
    let legs := [payloadOf "1" "a" "b" "c" "early", payloadOf "1" "a" "g" "c" "confirmed"]
    let redis := (collateAndAggregatePayloads .asStored ∅ (text "5001") (text "inc") legs).1
    let payloads := [payloadOf "2" "d" "e" "f" "trying"]
    ∃ doc, (collateAndAggregatePayloads .asStored redis (text "5001") (text "inc") payloads).2 =
        some doc ∧
      doc.dialogs.map (fun d => (d.id, d.state)) =
        [(some (text "1"), some (text "confirmed")), (some (text "2"), some (text "terminated"))] ∧
      ¬ OneActive .asStored redis (text "5001") (text "inc") payloads doc := by
  intro legs redis payloads
  have hshown : (collateAndAggregatePayloads .asStored redis (text "5001") (text "inc") payloads).2.map
      (fun doc => doc.dialogs.map fun d => (d.id, d.state)) =
      some [(some (text "1"), some (text "confirmed")), (some (text "2"), some (text "terminated"))] := by
    decide
  obtain ⟨doc, hdoc, hdialogs⟩ := Option.map_eq_some_iff.mp hshown
  refine ⟨doc, hdoc, hdialogs, fun h => ?_⟩
  have habsent : AbsentActive redis (text "5001") (text "inc") payloads earlyLeg :=
    ⟨by decide, by decide, by decide⟩
  obtain ⟨d, hd, hid, hstate⟩ := h.listed earlyLeg habsent
  have hmem := mem_map_of_mem (f := fun d => (d.id, d.state)) hd
  rw [hdialogs, hid, hstate] at hmem
  exact absurd hmem (by decide)

end SipXRouter.Kamailio
