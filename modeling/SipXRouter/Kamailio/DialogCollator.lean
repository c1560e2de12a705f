import Mathlib.Data.List.AList
import Mathlib.Logic.Relation
import SipXRouter.Glob
import SipXRouter.Kamailio.DialogInfo

/-!
# The dialog collator

`DialogCollator` merges the dialog events of a user with those that it has stored.  The
Redis server is a finite map that is searched with a pattern.  It answers in any order,
and so does the iteration over a hash map.
-/

namespace SipXRouter.Kamailio

open List

/-- A map from texts to entries: the Redis server, or a hash map. -/
abbrev Table := AList fun _ : Text => DialogInfo

/-- The orders in which a hash map is passed through and in which Redis answers. -/
structure Iteration where
  hash : List Text → List Text
  hash_perm : ∀ keys, (hash keys).Perm keys
  reply : List Text → List Text
  reply_perm : ∀ keys, (reply keys).Perm keys

/-- Both orders as the entries stand. -/
def Iteration.asStored : Iteration := ⟨id, fun _ => .refl _, id, fun _ => .refl _⟩

/-- The entries of a hash map. -/
def Iteration.values (it : Iteration) (t : Table) : List DialogInfo :=
  (it.hash t.keys).filterMap t.lookup

/-- `DialogCollator::generateKey`. -/
def generateKey (user domain : Text) (d : Dialog) : Text :=
  user ++ text "@" ++ domain ++ text ":" ++ d.generateKey

/-- The key that a dialog is stored under. -/
def entryKey (user domain : Text) (d : Dialog) : Text := generateKey user domain d ++ text ":dialog"

def setDialogInfo (redis : Table) (key : Text) (i : DialogInfo) : Table :=
  redis.insert (key ++ text ":dialog") i.stored

def getDialogInfo (redis : Table) (key : Text) : Option DialogInfo := redis.lookup (key ++ text ":dialog")

/-- The pattern of `getAllDialogInfo`. -/
def searchPattern (user domain : Text) : Text := user ++ text "@" ++ domain ++ text ":*:dialog"

/-- The dialogs stored for a user, which are searched for by a pattern over the keys. -/
def getAllDialogInfo (it : Iteration) (redis : Table) (user domain : Text) : List DialogInfo :=
  (((it.reply redis.keys).filter (Glob.covers (searchPattern user domain))).filterMap
    redis.lookup).filter DialogInfo.valid

/-! ## The stages -/

/-- An entry of a hash map gives way to one that compares no less. -/
def Table.offer (t : Table) (compare : Dialog → Dialog → Int) (key : Text) (i : DialogInfo) : Table :=
  match t.lookup key with
  | some old => if 0 ≤ compare i.dialog old.dialog then t.insert key i else t
  | none => t.insert key i

/-- The payload is about music on hold. -/
def DialogInfo.isMoh (i : DialogInfo) : Bool := containsText (text "~~mh~") i.dialog.remoteTarget

/-- The entry that a payload contributes. -/
def readPayload (payload : Payload) : Option DialogInfo :=
  (parseDialogInfoXML payload).filter fun i => i.valid && !i.isMoh

/-- The map that `collateLocalPayloads` fills. -/
def collatedDialogMap (user domain : Text) (payloads : List Payload) : Table :=
  (payloads.filterMap readPayload).foldl
    (fun t i => t.offer compareDialogByState (generateKey user domain i.dialog) i) ∅

/-- One dialog for each leg that the payloads report. -/
def collateLocalPayloads (it : Iteration) (user domain : Text) (payloads : List Payload) :
    List DialogInfo :=
  it.values (collatedDialogMap user domain payloads)

/-- One turn of `collateRemotePayloads`. -/
def collateRemote (user domain : Text) (redis : Table) (i : DialogInfo) : Table × DialogInfo :=
  let key := generateKey user domain i.dialog
  match getDialogInfo redis key with
  | some current =>
    if 0 ≤ compareDialogByState i.dialog current.dialog then (setDialogInfo redis key i, i)
    else (redis, current)
  | none => (setDialogInfo redis key i, i)

/-- `collateRemotePayloads`; the flag is its result. -/
def collateRemotePayloads (user domain : Text) :
    Table → List DialogInfo → Table × List DialogInfo × Bool
  | redis, [] => (redis, [], false)
  | redis, i :: is =>
    if i.valid then
      let first := collateRemote user domain redis i
      let others := collateRemotePayloads user domain first.1 is
      (others.1, first.2 :: others.2.1, true)
    else
      let others := collateRemotePayloads user domain redis is
      (others.1, i :: others.2.1, others.2.2)

/-- One dialog for each id: the preferred one of those that have it. -/
def aggregateLocalPayloads (collatedDialogs : List DialogInfo) : Table :=
  collatedDialogs.foldl (fun t i => t.offer compareDialogByPreference i.dialog.id i) ∅

/-- A dialog is terminated by force.  The entry is written if its payload can be changed. -/
def forceTerminate (user domain : Text) (redis : Table) (i : DialogInfo) : Table × DialogInfo :=
  let terminated := { i with dialog := { i.dialog with state := text "terminated" } }
  match updateDialogInfoXMLState i.rawPayload (text "terminated") with
  | some rawPayload =>
    let terminated := { terminated with rawPayload := rawPayload }
    (setDialogInfo redis (generateKey user domain i.dialog) terminated, terminated)
  | none => (redis, terminated)

/-- One turn of `aggregateRemotePayloads`. -/
def aggregateRemote (user domain : Text) (s : Table × Table) (i : DialogInfo) : Table × Table :=
  if i.dialog.id ∈ s.2 then (s.1, s.2.offer compareDialogByPreference i.dialog.id i)
  else if i.dialog.state = text "terminated" then s
  else
    let terminated := forceTerminate user domain s.1 i
    (terminated.1, s.2.insert i.dialog.id terminated.2)

/-- `aggregateRemotePayloads`; `none` where nothing is found. -/
def aggregateRemotePayloads (it : Iteration) (user domain : Text) (redis aggregateDialogs : Table) :
    Option (Table × Table) :=
  match getAllDialogInfo it redis user domain with
  | [] => none
  | dialogInfos => some (dialogInfos.foldl (aggregateRemote user domain) (redis, aggregateDialogs))

/-- A turn of `finalizeAggregatePayloads`: the dialogs that were passed, with the active one. -/
structure Finalizing where
  redis : Table
  before : List DialogInfo
  active : DialogInfo
  after : List DialogInfo

/-- The dialogs in the order of the iteration. -/
def Finalizing.dialogs (s : Finalizing) : List DialogInfo := s.before ++ s.active :: s.after

/-- A dialog that is not terminated is made so, in the store too. -/
def giveWay (user domain : Text) (redis : Table) (i : DialogInfo) : Table × DialogInfo :=
  if i.dialog.state = text "terminated" then (redis, i) else forceTerminate user domain redis i

/-- One turn of `finalizeAggregatePayloads`. -/
def finalizeAggregate (user domain : Text) (s : Finalizing) (current : DialogInfo) : Finalizing :=
  if 0 ≤ compareDialogByPreference current.dialog s.active.dialog then
    let old := giveWay user domain s.redis s.active
    { redis := old.1, before := s.before ++ old.2 :: s.after, active := current, after := [] }
  else
    let current := giveWay user domain s.redis current
    { s with redis := current.1, after := s.after ++ [current.2] }

/-- `finalizeAggregatePayloads`, on the dialogs in the order of the iteration. -/
def finalizeAggregatePayloads (user domain : Text) (redis : Table) :
    List DialogInfo → Table × List DialogInfo
  | [] => (redis, [])
  | first :: others =>
    let s := others.foldl (finalizeAggregate user domain) ⟨redis, [], first, []⟩
    (s.redis, s.dialogs)

/-- `generateDialogPayload`; the empty text is `none`. -/
def generateDialogPayload (dialogs : List DialogInfo) : Payload :=
  maskDialogInfoXMLVersion (dialogs.foldl mergeDialogInfoXMLDialog none)

/-- `collateAndAggregatePayloads`: the entries and the document that is returned. -/
def collateAndAggregatePayloads (it : Iteration) (redis : Table) (user domain : Text)
    (payloads : List Payload) : Table × Payload :=
  match collateLocalPayloads it user domain payloads with
  | [] => (redis, none)
  | collatedDialogs =>
    let collated := collateRemotePayloads user domain redis collatedDialogs
    if collated.2.2 then
      let aggregateDialogs := aggregateLocalPayloads collated.2.1
      match aggregateRemotePayloads it user domain collated.1 aggregateDialogs with
      | none => (collated.1, none)
      | some (redis, aggregateDialogs) =>
        let final := finalizeAggregatePayloads user domain redis (it.values aggregateDialogs)
        (final.1, generateDialogPayload final.2)
    else (collated.1, none)

section Stages

variable (it : Iteration) (redis : Table) (user domain : Text) (payloads : List Payload)

/-- A call after `collateRemotePayloads`. -/
def collated : Table × List DialogInfo × Bool :=
  collateRemotePayloads user domain redis (collateLocalPayloads it user domain payloads)

/-- A call after `aggregateRemotePayloads`. -/
def aggregated : Table × Table :=
  (getAllDialogInfo it (collated it redis user domain payloads).1 user domain).foldl
    (aggregateRemote user domain)
    ((collated it redis user domain payloads).1,
      aggregateLocalPayloads (collated it redis user domain payloads).2.1)

/-- A call after `finalizeAggregatePayloads`. -/
def finalized : Table × List DialogInfo :=
  finalizeAggregatePayloads user domain (aggregated it redis user domain payloads).1
    (it.values (aggregated it redis user domain payloads).2)

/-- A call ends without a document before the aggregation, or behind the last stage. -/
theorem collateAndAggregatePayloads_cases :
    collateAndAggregatePayloads it redis user domain payloads =
        ((collated it redis user domain payloads).1, none) ∨
      collateAndAggregatePayloads it redis user domain payloads =
        ((finalized it redis user domain payloads).1,
          generateDialogPayload (finalized it redis user domain payloads).2) := by
  unfold collateAndAggregatePayloads
  split
  · next hnil =>
    left
    rw [collated, hnil]
    rfl
  simp only
  split
  · split
    · exact Or.inl rfl
    · next redis' aggregateDialogs hsome =>
      unfold aggregateRemotePayloads at hsome
      split at hsome
      · exact absurd hsome (by simp)
      · right
        have haggregated : aggregated it redis user domain payloads = (redis', aggregateDialogs) :=
          Option.some.inj hsome
        rw [finalized, haggregated]
  · exact Or.inl rfl

end Stages

/-! ## What a call writes -/

variable {is : List DialogInfo} {key' : Text} {t : Table}

section Writes

variable {user domain : Text} {it : Iteration} {redis redis' : Table} {i : DialogInfo}

/-- The stored entry for the dialog, if there is one, is of no higher priority. -/
def NotBelow (user domain : Text) (redis : Table) (i : DialogInfo) : Prop :=
  ∀ old, redis.lookup (entryKey user domain i.dialog) = some old →
    getPriorityByState old.dialog.state ≤ getPriorityByState i.dialog.state

/-- One entry is written. -/
def Write (user domain : Text) (P : DialogInfo → Prop) (redis redis' : Table) : Prop :=
  ∃ i, P i ∧ NotBelow user domain redis i ∧
    redis' = redis.insert (entryKey user domain i.dialog) i.stored

/-- Entries are written one after another. -/
def Writes (user domain : Text) (P : DialogInfo → Prop) : Table → Table → Prop :=
  Relation.ReflTransGen (Write user domain P)

/-- A dialog that is terminated together with its payload. -/
def terminated (i : DialogInfo) (rawPayload : Payload) : DialogInfo :=
  { i with
    rawPayload := rawPayload
    dialog := { i.dialog with state := text "terminated" } }

theorem notBelow_of_terminated (h : i.dialog.state = text "terminated") :
    NotBelow user domain redis i := fun old _ => by
  rw [h]
  exact getPriorityByState_le old.dialog.state

/-- What the entries of a call have in common: the payloads that are stored, those that give
way to what is stored, what the search finds, and what is terminated by force. -/
structure Closed (it : Iteration) (user domain : Text) (payloads : List Payload) (redis : Table)
    (P : DialogInfo → Prop) : Prop where
  write : ∀ i ∈ payloads.filterMap readPayload, ∀ r, Writes user domain P redis r →
    NotBelow user domain r i → P i
  ignore : ∀ i ∈ payloads.filterMap readPayload, ∀ r, Writes user domain P redis r →
    ∀ current, r.lookup (entryKey user domain i.dialog) = some current → P current
  find : ∀ r, Writes user domain P redis r → ∀ i ∈ getAllDialogInfo it r user domain, P i
  force : ∀ i, P i → ∀ rawPayload,
    updateDialogInfoXMLState i.rawPayload (text "terminated") = some rawPayload →
    P (terminated i rawPayload)
  sound : ∀ i, P i → Sound i

theorem Sound.update (h : Sound i) : ∃ rawPayload,
    updateDialogInfoXMLState i.rawPayload (text "terminated") = some rawPayload ∧
      Sound (terminated i rawPayload) := by
  obtain ⟨hvalid, e, d, hpayload, hdialogs, hshows⟩ := h
  let d' : DialogElement := { d with state := some (text "terminated") }
  refine ⟨some { e with dialogs := [d'] }, ?_, ?_, { e with dialogs := [d'] }, d', rfl, rfl,
    hshows.id, hshows.callId, hshows.localTag, hshows.remoteTag, rfl⟩
  · simp [updateDialogInfoXMLState, hpayload, hdialogs, hshows.state, d']
  · simp only [DialogInfo.valid, Dialog.valid, Bool.and_eq_true] at hvalid ⊢
    obtain ⟨hinfo, hdialog, -⟩ := hvalid
    have hterminated : (text "terminated" != []) = true := by decide
    exact ⟨hinfo, hdialog, hterminated⟩

theorem forceTerminate_eq {rawPayload : Payload}
    (h : updateDialogInfoXMLState i.rawPayload (text "terminated") = some rawPayload) :
    forceTerminate user domain redis i =
      (redis.insert (entryKey user domain i.dialog) (terminated i rawPayload).stored,
        terminated i rawPayload) := by
  rw [forceTerminate, h]
  rfl

theorem lookup_offer {compare : Dialog → Dialog → Int} {key : Text} {j : DialogInfo}
    (h : (t.offer compare key i).lookup key' = some j) :
    t.lookup key' = some j ∨ key' = key ∧ j = i := by
  have hinsert : (t.insert key i).lookup key' = some j → t.lookup key' = some j ∨ key' = key ∧ j = i := by
    intro h
    by_cases hkey : key' = key
    · subst hkey
      rw [AList.lookup_insert] at h
      exact Or.inr ⟨rfl, (Option.some.inj h).symm⟩
    · rw [AList.lookup_insert_ne hkey] at h
      exact Or.inl h
  unfold Table.offer at h
  split at h
  · split at h
    · exact hinsert h
    · exact Or.inl h
  · exact hinsert h

theorem lookup_foldl_offer {compare : Dialog → Dialog → Int} {key : DialogInfo → Text}
    {j : DialogInfo}
    (h : (is.foldl (fun t i => t.offer compare (key i) i) t).lookup key' = some j) :
    t.lookup key' = some j ∨ j ∈ is ∧ key' = key j := by
  induction is generalizing t with
  | nil => exact Or.inl h
  | cons i is ih =>
    obtain h | ⟨hmem, hkey⟩ := ih h
    · obtain h | ⟨rfl, rfl⟩ := lookup_offer h
      · exact Or.inl h
      · exact Or.inr ⟨mem_cons_self, rfl⟩
    · exact Or.inr ⟨mem_cons_of_mem _ hmem, hkey⟩

theorem mem_values : i ∈ it.values t ↔ ∃ key, t.lookup key = some i := by
  rw [Iteration.values, mem_filterMap]
  constructor
  · rintro ⟨key, -, h⟩
    exact ⟨key, h⟩
  · rintro ⟨key, h⟩
    refine ⟨key, (it.hash_perm _).mem_iff.mpr ?_, h⟩
    exact AList.mem_keys.mp (AList.lookup_isSome.mp (by rw [h]; rfl))

theorem valid_of_mem_payloads {payloads : List Payload} (h : i ∈ payloads.filterMap readPayload) :
    i.valid = true := by
  obtain ⟨payload, -, hpayload⟩ := mem_filterMap.mp h
  have hboth := (Option.filter_eq_some_iff.mp hpayload).2
  rw [Bool.and_eq_true] at hboth
  exact hboth.1

theorem mem_payloads_of_mem_collateLocalPayloads {payloads : List Payload}
    (h : i ∈ collateLocalPayloads it user domain payloads) : i ∈ payloads.filterMap readPayload := by
  obtain ⟨key, hkey⟩ := mem_values.mp h
  obtain hnil | ⟨hmem, -⟩ := lookup_foldl_offer hkey
  · exact absurd hnil (by simp)
  · exact hmem

theorem lookup_aggregateLocalPayloads {collatedDialogs : List DialogInfo} {id : Text}
    (h : (aggregateLocalPayloads collatedDialogs).lookup id = some i) :
    i ∈ collatedDialogs ∧ i.dialog.id = id := by
  obtain hnil | ⟨hmem, hid⟩ := lookup_foldl_offer h
  · exact absurd hnil (by simp)
  · exact ⟨hmem, hid.symm⟩

namespace Closed

variable {payloads : List Payload} {P : DialogInfo → Prop}
  (hc : Closed it user domain payloads redis P)

include hc

theorem writes_forceTerminate (r : Table) (hi : P i) :
    Writes user domain P r (forceTerminate user domain r i).1 ∧
      P (forceTerminate user domain r i).2 := by
  obtain ⟨rawPayload, hupdate, -⟩ := (hc.sound i hi).update
  have hterminated := hc.force i hi rawPayload hupdate
  rw [forceTerminate_eq hupdate]
  exact ⟨Relation.ReflTransGen.single ⟨_, hterminated, notBelow_of_terminated rfl, rfl⟩, hterminated⟩

/-- One entry of the peer writes at most under its own key. -/
theorem writes_collateRemote {r : Table} (hr : Writes user domain P redis r)
    (hi : i ∈ payloads.filterMap readPayload) :
    Writes user domain P r (collateRemote user domain r i).1 ∧
      P (collateRemote user domain r i).2 := by
  have hwrite : NotBelow user domain r i →
      Writes user domain P r (setDialogInfo r (generateKey user domain i.dialog) i) ∧ P i :=
    fun hbelow =>
      have hP := hc.write i hi r hr hbelow
      ⟨Relation.ReflTransGen.single ⟨i, hP, hbelow, rfl⟩, hP⟩
  unfold collateRemote
  simp only
  split
  · next current hcurrent =>
    split
    · next hcompare =>
      refine hwrite fun old hold => ?_
      obtain rfl := Option.some.inj (hcurrent.symm.trans hold)
      exact sub_nonneg.mp hcompare
    · exact ⟨Relation.ReflTransGen.refl, hc.ignore i hi r hr current hcurrent⟩
  · next hnone =>
    exact hwrite fun old hold => absurd (hnone.symm.trans hold) (by simp)

theorem writes_collateRemotePayloads {r : Table}
    (his : ∀ i ∈ is, i ∈ payloads.filterMap readPayload) (hr : Writes user domain P redis r) :
    Writes user domain P r (collateRemotePayloads user domain r is).1 ∧
      ∀ j ∈ (collateRemotePayloads user domain r is).2.1, P j := by
  induction is generalizing r with
  | nil => exact ⟨Relation.ReflTransGen.refl, fun j hj => absurd hj not_mem_nil⟩
  | cons i is ih =>
    have hi := his i mem_cons_self
    rw [collateRemotePayloads, if_pos (valid_of_mem_payloads hi)]
    obtain ⟨hfirst, hP⟩ := hc.writes_collateRemote hr hi
    obtain ⟨hothers, hPs⟩ := ih (fun j hj => his j (mem_cons_of_mem _ hj)) (hr.trans hfirst)
    exact ⟨hfirst.trans hothers, forall_mem_cons.mpr ⟨hP, hPs⟩⟩

theorem writes_aggregateRemote {s : Table × Table} (hs : ∀ id j, s.2.lookup id = some j → P j)
    (hi : P i) : Writes user domain P s.1 (aggregateRemote user domain s i).1 ∧
      ∀ id j, (aggregateRemote user domain s i).2.lookup id = some j → P j := by
  unfold aggregateRemote
  split
  · refine ⟨Relation.ReflTransGen.refl, fun id j hj => ?_⟩
    obtain hj | ⟨-, rfl⟩ := lookup_offer hj
    · exact hs id j hj
    · exact hi
  · split
    · exact ⟨Relation.ReflTransGen.refl, hs⟩
    · obtain ⟨hforce, hP⟩ := hc.writes_forceTerminate s.1 hi
      refine ⟨hforce, fun id j hj => ?_⟩
      by_cases hid : id = i.dialog.id
      · subst hid
        obtain rfl := Option.some.inj ((AList.lookup_insert s.2).symm.trans hj)
        exact hP
      · exact hs id j ((AList.lookup_insert_ne hid).symm.trans hj)

theorem writes_foldl_aggregateRemote {s : Table × Table}
    (hs : ∀ id j, s.2.lookup id = some j → P j) (his : ∀ i ∈ is, P i) :
    Writes user domain P s.1 (is.foldl (aggregateRemote user domain) s).1 ∧
      ∀ id j, (is.foldl (aggregateRemote user domain) s).2.lookup id = some j → P j := by
  induction is generalizing s with
  | nil => exact ⟨Relation.ReflTransGen.refl, hs⟩
  | cons i is ih =>
    obtain ⟨hfirst, hs⟩ := hc.writes_aggregateRemote hs (his i mem_cons_self)
    obtain ⟨hothers, hs⟩ := ih hs fun j hj => his j (mem_cons_of_mem _ hj)
    exact ⟨hfirst.trans hothers, hs⟩

theorem writes_giveWay (r : Table) (hi : P i) :
    Writes user domain P r (giveWay user domain r i).1 ∧ P (giveWay user domain r i).2 := by
  unfold giveWay
  split
  · exact ⟨Relation.ReflTransGen.refl, hi⟩
  · exact hc.writes_forceTerminate r hi

theorem writes_finalizeAggregate {s : Finalizing} (hs : ∀ j ∈ s.dialogs, P j) (hi : P i) :
    Writes user domain P s.redis (finalizeAggregate user domain s i).redis ∧
      ∀ j ∈ (finalizeAggregate user domain s i).dialogs, P j := by
  simp only [Finalizing.dialogs, forall_mem_append, forall_mem_cons] at hs
  obtain ⟨hbefore, hactive, hafter⟩ := hs
  unfold finalizeAggregate
  split
  · obtain ⟨hw, hold⟩ := hc.writes_giveWay s.redis hactive
    refine ⟨hw, ?_⟩
    simp only [Finalizing.dialogs, forall_mem_append, forall_mem_cons]
    exact ⟨⟨hbefore, hold, hafter⟩, hi, fun j hj => absurd hj not_mem_nil⟩
  · obtain ⟨hw, hcurrent⟩ := hc.writes_giveWay s.redis hi
    refine ⟨hw, ?_⟩
    simp only [Finalizing.dialogs, forall_mem_append, forall_mem_cons]
    exact ⟨hbefore, hactive, hafter, hcurrent, fun j hj => absurd hj not_mem_nil⟩

theorem writes_foldl_finalizeAggregate {s : Finalizing}
    (hs : ∀ j ∈ s.dialogs, P j) (his : ∀ i ∈ is, P i) :
    Writes user domain P s.redis (is.foldl (finalizeAggregate user domain) s).redis ∧
      ∀ j ∈ (is.foldl (finalizeAggregate user domain) s).dialogs, P j := by
  induction is generalizing s with
  | nil => exact ⟨Relation.ReflTransGen.refl, hs⟩
  | cons i is ih =>
    obtain ⟨hfirst, hs⟩ := hc.writes_finalizeAggregate hs (his i mem_cons_self)
    obtain ⟨hothers, hs⟩ := ih hs fun j hj => his j (mem_cons_of_mem _ hj)
    exact ⟨hfirst.trans hothers, hs⟩

theorem writes_finalizeAggregatePayloads (r : Table) (his : ∀ i ∈ is, P i) :
    Writes user domain P r (finalizeAggregatePayloads user domain r is).1 ∧
      ∀ j ∈ (finalizeAggregatePayloads user domain r is).2, P j := by
  cases is with
  | nil => exact ⟨Relation.ReflTransGen.refl, his⟩
  | cons first others =>
    obtain ⟨hfirst, hothers⟩ := forall_mem_cons.mp his
    exact hc.writes_foldl_finalizeAggregate (s := ⟨r, [], first, []⟩)
      (forall_mem_singleton.mpr hfirst) hothers

theorem writes_collated : Writes user domain P redis (collated it redis user domain payloads).1 ∧
    ∀ j ∈ (collated it redis user domain payloads).2.1, P j :=
  hc.writes_collateRemotePayloads (fun _ hi => mem_payloads_of_mem_collateLocalPayloads hi)
    Relation.ReflTransGen.refl

theorem writes_aggregated : Writes user domain P (collated it redis user domain payloads).1
      (aggregated it redis user domain payloads).1 ∧
    ∀ id j, (aggregated it redis user domain payloads).2.lookup id = some j → P j := by
  obtain ⟨hw, hcollated⟩ := hc.writes_collated
  have hlocal : ∀ id j, (aggregateLocalPayloads
      (collated it redis user domain payloads).2.1).lookup id = some j → P j :=
    fun id j hj => hcollated j (lookup_aggregateLocalPayloads hj).1
  exact hc.writes_foldl_aggregateRemote (s := (_, _)) hlocal (hc.find _ hw)

theorem writes_finalized : Writes user domain P (aggregated it redis user domain payloads).1
      (finalized it redis user domain payloads).1 ∧
    ∀ j ∈ (finalized it redis user domain payloads).2, P j :=
  hc.writes_finalizeAggregatePayloads _ fun i hi => by
    obtain ⟨id, hid⟩ := mem_values.mp hi
    exact hc.writes_aggregated.2 id i hid

theorem writes_collateAndAggregatePayloads :
    Writes user domain P redis (collated it redis user domain payloads).1 ∧
      Writes user domain P (collated it redis user domain payloads).1
        (collateAndAggregatePayloads it redis user domain payloads).1 ∧
      ∃ dialogs, (collateAndAggregatePayloads it redis user domain payloads).2 =
        generateDialogPayload dialogs ∧ ∀ i ∈ dialogs, P i := by
  refine ⟨hc.writes_collated.1, ?_⟩
  obtain hcase | hcase := collateAndAggregatePayloads_cases it redis user domain payloads
  · rw [hcase]
    exact ⟨Relation.ReflTransGen.refl, [], rfl, fun i hi => absurd hi not_mem_nil⟩
  · rw [hcase]
    exact ⟨hc.writes_aggregated.1.trans hc.writes_finalized.1, _, rfl, hc.writes_finalized.2⟩

end Closed

end Writes

/-! ## The document that is returned -/

theorem merge_of_sound {i : DialogInfo} (h : Sound i) : ∃ e d, i.rawPayload = some e ∧
    e.dialogs = [d] ∧ d.Shows i.dialog ∧ ∀ xml : DialogInfoElement,
      mergeDialogInfoXMLDialog (some xml) i = some { xml with dialogs := xml.dialogs ++ [d] } := by
  obtain ⟨-, e, d, hpayload, hdialogs, hshows⟩ := h
  refine ⟨e, d, hpayload, hdialogs, hshows, fun xml => ?_⟩
  simp [mergeDialogInfoXMLDialog, hpayload, hdialogs]

theorem foldl_mergeDialogInfoXMLDialog (h : ∀ i ∈ is, Sound i)
    (xml : DialogInfoElement) : ∃ dialogs, Forall₂ (fun i d => d.Shows i.dialog) is dialogs ∧
      is.foldl mergeDialogInfoXMLDialog (some xml) =
        some { xml with dialogs := xml.dialogs ++ dialogs } := by
  induction is generalizing xml with
  | nil => exact ⟨[], Forall₂.nil, by simp⟩
  | cons i is ih =>
    obtain ⟨hi, his⟩ := forall_mem_cons.mp h
    obtain ⟨e, d, -, -, hshows, hmerge⟩ := merge_of_sound hi
    obtain ⟨dialogs, hdialogs, hfold⟩ := ih his { xml with dialogs := xml.dialogs ++ [d] }
    refine ⟨d :: dialogs, Forall₂.cons hshows hdialogs, ?_⟩
    rw [foldl_cons, hmerge, hfold]
    simp

theorem exists_of_forall₂ {α β : Type} {R : α → β → Prop} {as : List α} {bs : List β}
    (h : Forall₂ R as bs) {b : β} (hb : b ∈ bs) : ∃ a ∈ as, R a b := by
  induction h with
  | nil => exact absurd hb not_mem_nil
  | cons hR _ ih =>
    obtain rfl | hb := mem_cons.mp hb
    · exact ⟨_, mem_cons_self, hR⟩
    · obtain ⟨a, ha, hR⟩ := ih hb
      exact ⟨a, mem_cons_of_mem _ ha, hR⟩

theorem shows_generateDialogPayload (h : ∀ i ∈ is, Sound i)
    {doc : DialogInfoElement} (hdoc : generateDialogPayload is = some doc) :
    Forall₂ (fun i d => d.Shows i.dialog) is doc.dialogs := by
  cases is with
  | nil => exact absurd hdoc (by simp [generateDialogPayload, maskDialogInfoXMLVersion])
  | cons i is =>
    obtain ⟨hi, his⟩ := forall_mem_cons.mp h
    obtain ⟨e, d, hpayload, hdialogs, hshows, -⟩ := merge_of_sound hi
    obtain ⟨dialogs, hshowsAll, hfold⟩ := foldl_mergeDialogInfoXMLDialog his e
    have hfirst : mergeDialogInfoXMLDialog none i = some e := by
      simp [mergeDialogInfoXMLDialog, hpayload, hdialogs]
    rw [generateDialogPayload, foldl_cons, hfirst, hfold] at hdoc
    obtain rfl := Option.some.inj hdoc
    rw [hdialogs]
    exact Forall₂.cons hshows hshowsAll

/-! ## What is stored of the payloads -/

theorem mem_offer {compare : Dialog → Dialog → Int} {key : Text} {i : DialogInfo}
    (h : key' = key ∨ key' ∈ t) : key' ∈ t.offer compare key i := by
  have hinsert : key' ∈ t.insert key i := (AList.mem_insert t).mpr h
  unfold Table.offer
  split
  · next old hold =>
    split
    · exact hinsert
    · obtain rfl | h := h
      · exact AList.lookup_isSome.mp (by rw [hold]; rfl)
      · exact h
  · exact hinsert

theorem mem_foldl_offer {compare : Dialog → Dialog → Int} {key : DialogInfo → Text}
    (h : (∃ i ∈ is, key i = key') ∨ key' ∈ t) :
    key' ∈ is.foldl (fun t i => t.offer compare (key i) i) t := by
  induction is generalizing t with
  | nil => exact h.resolve_left fun ⟨_, hmem, _⟩ => absurd hmem not_mem_nil
  | cons i is ih =>
    refine ih ?_
    obtain ⟨j, hj, rfl⟩ | h := h
    · obtain rfl | hj := mem_cons.mp hj
      · exact Or.inr (mem_offer (Or.inl rfl))
      · exact Or.inl ⟨j, hj, rfl⟩
    · exact Or.inr (mem_offer (Or.inr h))

theorem exists_mem_collateLocalPayloads (it : Iteration) (user domain : Text) {payloads : List Payload}
    {i : DialogInfo} (h : i ∈ payloads.filterMap readPayload) :
    ∃ j ∈ collateLocalPayloads it user domain payloads,
      generateKey user domain j.dialog = generateKey user domain i.dialog := by
  have hmem : generateKey user domain i.dialog ∈ collatedDialogMap user domain payloads :=
    mem_foldl_offer (Or.inl ⟨i, h, rfl⟩)
  obtain ⟨j, hj⟩ := Option.isSome_iff_exists.mp (AList.lookup_isSome.mpr hmem)
  refine ⟨j, mem_values.mpr ⟨_, hj⟩, ?_⟩
  obtain hnil | ⟨-, hkey⟩ := lookup_foldl_offer hj
  · exact absurd hnil (by simp)
  · exact hkey.symm

theorem lookup_collateRemote (user domain : Text) (redis : Table) (i : DialogInfo) :
    ∃ j, (collateRemote user domain redis i).1.lookup (entryKey user domain i.dialog) = some j := by
  have hset : ∃ j, (setDialogInfo redis (generateKey user domain i.dialog) i).lookup
      (entryKey user domain i.dialog) = some j := ⟨i.stored, AList.lookup_insert redis⟩
  unfold collateRemote
  simp only
  split
  · next current hcurrent =>
    split
    · exact hset
    · exact ⟨current, hcurrent⟩
  · exact hset

end SipXRouter.Kamailio
