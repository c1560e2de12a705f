import SipXRouter.Net.Url

/-!
# The subscription database

`SubscribeDB` keeps a document for each subscription in a Mongo collection, with a second
collection for the local region where one is configured.  Its queries ask the local database
first and then the global collection, where a condition on the shard keeps the documents of the
own shard from being reported twice.  The condition names the shard of the *global* connection;
`RegDB` names the one of the local connection there.  `subscriptionExists` has the condition the
other way around and asks the global collection for the documents of that shard alone.

The cursor of a query delivers the documents in an order of its own, so the answers of a query
that returns documents are a relation.
-/

namespace SipXRouter

open List

/-- The document of a subscription.  Numbers are stored as 32 bit integers with a sign. -/
structure Subscription where
  component : Text := []
  uri : Text := []
  callId : Text := []
  contact : Text := []
  expires : Int := 0
  subscribeCseq : Int := 0
  eventTypeKey : Text := []
  eventType : Text := []
  id : Text := []
  toUri : Text := []
  fromUri : Text := []
  key : Text := []
  recordRoute : Text := []
  notifyCseq : Int := 0
  accept : Text := []
  version : Int := 0
  shardId : Int := 0
  deriving DecidableEq

/-- A number of a document, read into an `unsigned int`. -/
def asUnsigned (n : Int) : Nat := (n % 2 ^ 32).toNat

/-- A collection, and the shard its connection is configured with. -/
structure Collection where
  shardId : Int
  docs : List Subscription
  deriving DecidableEq

/-- The database: the global collection, and the local one (`_local`) where it is configured. -/
structure SubscribeDB where
  global : Collection
  regional : Option Collection := none
  deriving DecidableEq

variable {delivered : List Subscription}

namespace SubscribeDB

/-! ## Two stages -/

/-- The documents the local database finds. -/
def localMatches (db : SubscribeDB) (query : Subscription → Bool) : List Subscription :=
  match db.regional with
  | none => []
  | some s => s.docs.filter query

/-- The documents the global collection is asked for: where there is a local database, those
with another shard than that of the global connection. -/
def globalMatches (db : SubscribeDB) (query : Subscription → Bool) : List Subscription :=
  db.global.docs.filter fun d =>
    query d && (db.regional.isNone || d.shardId != db.global.shardId)

/-- A cursor delivers documents in any order, first those of the local database. -/
def Cursors (db : SubscribeDB) (query : Subscription → Bool) (delivered : List Subscription) : Prop :=
  ∃ localCursor globalCursor : List Subscription,
    localCursor.Perm (db.localMatches query) ∧ globalCursor.Perm (db.globalMatches query) ∧
    delivered = localCursor ++ globalCursor

/-- `removeAllExpired` at time `clock`: the rows of the own shard go from the collection that
writes go to. -/
def removeAllExpired (db : SubscribeDB) (clock : Nat) : SubscribeDB :=
  let purge (c : Collection) : Collection :=
    { c with docs := c.docs.filter fun d => !(d.shardId == c.shardId && decide (d.expires ≤ clock)) }
  match db.regional with
  | some s => { db with regional := some (purge s) }
  | none => { db with global := purge db.global }

/-! ## The queries -/

/-- The answers of `getAll`. -/
def GetAll (db : SubscribeDB) (answer : List Subscription) : Prop :=
  db.Cursors (fun _ => true) answer

/-- What `subscriptionExists` asks for. -/
def existsQuery (toUri fromUri callId : Text) (timeNow : Nat) (d : Subscription) : Bool :=
  d.toUri == toUri && d.fromUri == fromUri && d.callId == callId && decide ((timeNow : Int) ≤ d.expires)

/-- `subscriptionExists`.  In the global collection it asks for the shard of the connection. -/
def subscriptionExists (db : SubscribeDB) (toUri fromUri callId : Text) (timeNow : Nat) : Bool :=
  !(db.localMatches (existsQuery toUri fromUri callId timeNow)).isEmpty ||
    db.global.docs.any fun d => existsQuery toUri fromUri callId timeNow d &&
      (db.regional.isNone || d.shardId == db.global.shardId)

def tagOf (uri : Text) : Option Text :=
  (Url.ofText (cString uri) .nameAddr).getFieldParameter (text "tag")

/-- The row has these tags. -/
def hasTags (fromTag toTag : Text) (d : Subscription) : Bool :=
  tagOf d.fromUri == some fromTag && tagOf d.toUri == some toTag

/-- The answers of `findFromAndTo`: the URIs of the first row found, where one is found. -/
def FindFromAndTo (db : SubscribeDB) (callId fromTag toTag : Text) (answer : Option (Text × Text)) :
    Prop :=
  ∃ delivered, db.Cursors (fun d => d.callId == callId) delivered ∧
    answer = (delivered.find? (hasTags fromTag toTag)).map fun d =>
      (cString d.fromUri, cString d.toUri)

/-- The loop of `getMaxVersion`. -/
def maxVersion (value : Nat) (docs : List Subscription) : Nat :=
  docs.foldl (fun value d => if value < asUnsigned d.version then asUnsigned d.version else value) value

/-- `getMaxVersion`.  On its way from the local database the value passes through an `int`,
which changes nothing. -/
def getMaxVersion (db : SubscribeDB) (uri : Text) : Nat :=
  maxVersion (maxVersion 0 (db.localMatches fun d => d.uri == uri))
    (db.globalMatches fun d => d.uri == uri)

/-- What `getUnexpiredContactsFieldsContaining` reports. -/
def contactQuery (substringToMatch : Text) (timeNow : Nat) (d : Subscription) : Bool :=
  decide ((timeNow : Int) < d.expires) && containsText substringToMatch d.contact

/-- The answers of `getUnexpiredContactsFieldsContaining`, called at time `clock`. -/
def GetUnexpiredContactsFieldsContaining (db : SubscribeDB) (clock : Nat) (substringToMatch : Text)
    (timeNow : Nat) (answer : List Text) : Prop :=
  ∃ delivered, (db.removeAllExpired clock).Cursors (contactQuery substringToMatch timeNow) delivered ∧
    answer = delivered.map Subscription.contact

/-! ## The union -/

/-- The local database holds the rows of its shard, and the global collection those of all
others. -/
structure Distributed (db : SubscribeDB) (s : Collection) : Prop where
  regional : db.regional = some s
  own : ∀ d ∈ s.docs, d.shardId = s.shardId
  others : ∀ d ∈ db.global.docs, d.shardId ≠ s.shardId

/-- One collection of the local shard that holds the rows of both. -/
def union (db : SubscribeDB) : SubscribeDB :=
  match db.regional with
  | none => db
  | some s => { global := { shardId := s.shardId, docs := s.docs ++ db.global.docs } }

/-- A relational query gives only answers that it could give on the union. -/
def Transparent {α : Type*} (db : SubscribeDB) (query : SubscribeDB → α → Prop) : Prop :=
  ∀ answer, query db answer → query db.union answer

/-- The global collection has no matching row of the shard of its own connection. -/
def NoneOfShard (db : SubscribeDB) (query : Subscription → Bool) : Prop :=
  ∀ d ∈ db.global.docs, query d = true → d.shardId ≠ db.global.shardId

section Stages

variable {db : SubscribeDB} {s : Collection} {query : Subscription → Bool}

theorem union_eq (h : Distributed db s) :
    db.union = { global := { shardId := s.shardId, docs := s.docs ++ db.global.docs } } := by
  rw [union, h.regional]

theorem localMatches_eq (h : Distributed db s) : db.localMatches query = s.docs.filter query := by
  rw [localMatches, h.regional]

theorem globalMatches_eq (h : Distributed db s) : db.globalMatches query =
    db.global.docs.filter fun d => query d && d.shardId != db.global.shardId := by
  rw [globalMatches, h.regional]
  rfl

theorem cursors_union (h : Distributed db s) : db.union.Cursors query delivered ↔
    delivered.Perm (s.docs.filter query ++ db.global.docs.filter query) := by
  rw [union_eq h, Cursors]
  simp only [localMatches, globalMatches, Option.isNone_none, Bool.true_or, Bool.and_true,
    filter_append]
  constructor
  · rintro ⟨localCursor, globalCursor, hlocal, hglobal, rfl⟩
    rw [hlocal.eq_nil]
    exact hglobal
  · intro hperm
    exact ⟨[], delivered, Perm.refl _, hperm, rfl⟩

theorem Cursors.perm (hdelivered : db.Cursors query delivered) (h : Distributed db s) :
    (delivered ++ db.global.docs.filter fun d => query d && d.shardId == db.global.shardId).Perm
      (s.docs.filter query ++ db.global.docs.filter query) := by
  obtain ⟨localCursor, globalCursor, hlocal, hglobal, rfl⟩ := hdelivered
  rw [localMatches_eq h] at hlocal
  rw [globalMatches_eq h] at hglobal
  rw [append_assoc]
  refine hlocal.append ((hglobal.append_right _).trans ?_)
  have hsplit := filter_append_perm (fun d : Subscription => d.shardId != db.global.shardId)
    (db.global.docs.filter query)
  simp only [filter_filter] at hsplit
  refine Perm.trans (Perm.of_eq ?_) hsplit
  congr 1
  · exact filter_congr fun d _ => Bool.and_comm _ _
  · exact filter_congr fun d _ => by
      rw [Bool.and_comm]
      simp [bne]

theorem cursors_self (db : SubscribeDB) (query : Subscription → Bool) :
    db.Cursors query (db.localMatches query ++ db.globalMatches query) :=
  ⟨_, _, Perm.refl _, Perm.refl _, rfl⟩

theorem noneOfShard_of_length (h : Distributed db s) {delivered' : List Subscription}
    (hdelivered : db.Cursors query delivered) (hunion : db.union.Cursors query delivered')
    (hlength : delivered.length = delivered'.length) : db.NoneOfShard query := by
  have hperm := (hdelivered.perm h).length_eq
  rw [← ((cursors_union h).mp hunion).length_eq, length_append, hlength] at hperm
  have hnil := eq_nil_of_length_eq_zero (Nat.add_eq_left.mp hperm)
  intro d hd hquery hshard
  have hmem : d ∈ db.global.docs.filter fun d => query d && d.shardId == db.global.shardId :=
    mem_filter.mpr ⟨hd, by simp [hquery, hshard]⟩
  rw [hnil] at hmem
  exact not_mem_nil hmem

theorem Cursors.union (hdelivered : db.Cursors query delivered)
    (h : Distributed db s) (hnone : db.NoneOfShard query) : db.union.Cursors query delivered := by
  have hnil : (db.global.docs.filter fun d => query d && d.shardId == db.global.shardId) = [] := by
    rw [filter_eq_nil_iff]
    intro d hd hmatch
    rw [Bool.and_eq_true, beq_iff_eq] at hmatch
    exact hnone d hd hmatch.1 hmatch.2
  have hperm := hdelivered.perm h
  rw [hnil, append_nil] at hperm
  exact (cursors_union h).mpr hperm

end Stages

/-! ## Each query -/

section Queries

variable {db : SubscribeDB} {s : Collection}

theorem getAll_iff (h : Distributed db s) :
    db.Transparent GetAll ↔ ∀ d ∈ db.global.docs, d.shardId ≠ db.global.shardId := by
  constructor
  · intro htransparent d hd
    have hself := cursors_self db fun _ => true
    exact noneOfShard_of_length h hself (htransparent _ hself) rfl d hd rfl
  · intro hnone answer hanswer
    exact Cursors.union hanswer h fun d hd _ => hnone d hd

/-- When the answer over both collections is that over their union. -/
theorem subscriptionExists_iff (h : Distributed db s) (toUri fromUri callId : Text) (timeNow : Nat) :
    db.subscriptionExists toUri fromUri callId timeNow =
        db.union.subscriptionExists toUri fromUri callId timeNow ↔
      (∃ d ∈ db.global.docs, existsQuery toUri fromUri callId timeNow d = true) →
        (∃ d ∈ s.docs, existsQuery toUri fromUri callId timeNow d = true) ∨
          ∃ d ∈ db.global.docs, existsQuery toUri fromUri callId timeNow d = true ∧
            d.shardId = db.global.shardId := by
  generalize hquery : existsQuery toUri fromUri callId timeNow = query
  have hlocal : (!(s.docs.filter query).isEmpty) = true ↔ ∃ d ∈ s.docs, query d = true := by
    simp [filter_eq_nil_iff]
  have hcode : db.subscriptionExists toUri fromUri callId timeNow = true ↔
      (∃ d ∈ s.docs, query d = true) ∨
        ∃ d ∈ db.global.docs, query d = true ∧ d.shardId = db.global.shardId := by
    rw [subscriptionExists, hquery, localMatches_eq h, Bool.or_eq_true, hlocal, h.regional]
    simp
  have hunion : db.union.subscriptionExists toUri fromUri callId timeNow = true ↔
      (∃ d ∈ s.docs, query d = true) ∨ ∃ d ∈ db.global.docs, query d = true := by
    rw [subscriptionExists, hquery, union_eq h]
    simp [localMatches]
  rw [Bool.eq_iff_iff, hcode, hunion]
  constructor
  · intro hiff hother
    exact hiff.mpr (Or.inr hother)
  · intro hseen
    refine ⟨fun hfound => ?_, fun hfound => hfound.elim Or.inl hseen⟩
    rcases hfound with hfound | ⟨d, hd, hmatch, -⟩
    · exact Or.inl hfound
    · exact Or.inr ⟨d, hd, hmatch⟩

/-- A row that `findFromAndTo` looks for. -/
def tagsQuery (callId fromTag toTag : Text) (d : Subscription) : Bool :=
  d.callId == callId && hasTags fromTag toTag d

theorem findFromAndTo_iff (h : Distributed db s) (callId fromTag toTag : Text) :
    db.Transparent (fun db => db.FindFromAndTo callId fromTag toTag) ↔
      (∃ d ∈ db.global.docs, tagsQuery callId fromTag toTag d = true) →
        (∃ d ∈ s.docs, tagsQuery callId fromTag toTag d = true) ∨
          ∃ d ∈ db.global.docs, tagsQuery callId fromTag toTag d = true ∧
            d.shardId ≠ db.global.shardId := by
  have hmem (d : Subscription) : d ∈ s.docs.filter (·.callId == callId) ++
      db.global.docs.filter (·.callId == callId) ↔
      (d ∈ s.docs ∨ d ∈ db.global.docs) ∧ (d.callId == callId) = true := by
    rw [mem_append, mem_filter, mem_filter, ← or_and_right]
  constructor
  · rintro htransparent ⟨d, hd, hmatch⟩
    rw [tagsQuery, Bool.and_eq_true] at hmatch
    by_contra hseen
    have hself := cursors_self db (·.callId == callId)
    -- nothing that is delivered has the tags
    have hnone : (db.localMatches (·.callId == callId) ++ db.globalMatches (·.callId == callId)).find?
        (hasTags fromTag toTag) = none := by
      rw [find?_eq_none]
      intro d' hd' htags
      apply hseen
      rw [mem_append, localMatches_eq h, globalMatches_eq h, mem_filter,
        mem_filter] at hd'
      rcases hd' with ⟨hd', hcall⟩ | ⟨hd', hcall⟩
      · exact Or.inl ⟨d', hd', by rw [tagsQuery, hcall, htags]; rfl⟩
      · rw [Bool.and_eq_true, bne_iff_ne] at hcall
        exact Or.inr ⟨d', hd', by rw [tagsQuery, hcall.1, htags]; rfl, hcall.2⟩
    obtain ⟨delivered, hdelivered, hanswer⟩ := htransparent none ⟨_, hself, by rw [hnone]; rfl⟩
    have hall := find?_eq_none.mp (Option.map_eq_none_iff.mp hanswer.symm)
    have hin : d ∈ delivered :=
      ((cursors_union h).mp hdelivered).mem_iff.mpr ((hmem d).mpr ⟨Or.inr hd, hmatch.1⟩)
    exact hall d hin hmatch.2
  · rintro hseen answer ⟨delivered, hdelivered, rfl⟩
    have hperm := hdelivered.perm h
    cases hfind : delivered.find? (hasTags fromTag toTag) with
    | some d =>
      -- the row that was found may come first on the union
      have htags : hasTags fromTag toTag d = true := find?_some hfind
      have hd : d ∈ s.docs.filter (·.callId == callId) ++
          db.global.docs.filter (·.callId == callId) :=
        hperm.mem_iff.mp (mem_append_left _ (mem_of_find?_eq_some hfind))
      refine ⟨_, (cursors_union h).mpr (perm_cons_erase hd).symm, ?_⟩
      rw [find?_cons_of_pos htags]
    | none =>
      refine ⟨_, (cursors_union h).mpr (Perm.refl _), ?_⟩
      have hall := find?_eq_none.mp hfind
      have hunseen : ¬ ((∃ d ∈ s.docs, tagsQuery callId fromTag toTag d = true) ∨
          ∃ d ∈ db.global.docs, tagsQuery callId fromTag toTag d = true ∧
            d.shardId ≠ db.global.shardId) := by
        obtain ⟨localCursor, globalCursor, hlocal, hglobal, rfl⟩ := hdelivered
        rw [localMatches_eq h] at hlocal
        rw [globalMatches_eq h] at hglobal
        rintro (⟨d, hd, hmatch⟩ | ⟨d, hd, hmatch, hshard⟩)
        · rw [tagsQuery, Bool.and_eq_true] at hmatch
          exact hall d (mem_append_left _ (hlocal.mem_iff.mpr
            (mem_filter.mpr ⟨hd, hmatch.1⟩))) hmatch.2
        · rw [tagsQuery, Bool.and_eq_true] at hmatch
          exact hall d (mem_append_right _ (hglobal.mem_iff.mpr
            (mem_filter.mpr ⟨hd, by simp [hmatch.1, hshard]⟩))) hmatch.2
      have hnone : (s.docs.filter (·.callId == callId) ++
          db.global.docs.filter (·.callId == callId)).find? (hasTags fromTag toTag) = none := by
        rw [find?_eq_none]
        intro d hd htags
        obtain ⟨hd, hcall⟩ := (hmem d).mp hd
        have hmatch : tagsQuery callId fromTag toTag d = true := by rw [tagsQuery, hcall, htags]; rfl
        rcases hd with hd | hd
        · exact hunseen (Or.inl ⟨d, hd, hmatch⟩)
        · exact hunseen (hseen ⟨d, hd, hmatch⟩)
      rw [hnone]

theorem le_maxVersion_iff {value : Nat} {docs : List Subscription} {n : Nat} :
    n ≤ maxVersion value docs ↔ n ≤ value ∨ ∃ d ∈ docs, n ≤ asUnsigned d.version := by
  unfold maxVersion
  induction docs generalizing value with
  | nil => simp
  | cons d docs ih =>
    rw [foldl_cons, ih]
    simp only [mem_cons, exists_eq_or_imp]
    split
    · next hlt =>
        constructor
        · rintro (hn | hn)
          · exact Or.inr (Or.inl hn)
          · exact Or.inr (Or.inr hn)
        · rintro (hn | hn | hn)
          · exact Or.inl (hn.trans hlt.le)
          · exact Or.inl hn
          · exact Or.inr hn
    · next hge =>
        constructor
        · rintro (hn | hn)
          · exact Or.inl hn
          · exact Or.inr (Or.inr hn)
        · rintro (hn | hn | hn)
          · exact Or.inl hn
          · exact Or.inl (hn.trans (Nat.le_of_not_lt hge))
          · exact Or.inr hn

theorem getMaxVersion_iff (h : Distributed db s) (uri : Text) :
    db.getMaxVersion uri = db.union.getMaxVersion uri ↔
      ∀ d ∈ db.global.docs, d.uri = uri → d.shardId = db.global.shardId → asUnsigned d.version = 0 ∨
          (∃ d' ∈ s.docs, d'.uri = uri ∧ asUnsigned d.version ≤ asUnsigned d'.version) ∨
          ∃ d' ∈ db.global.docs, d'.uri = uri ∧ d'.shardId ≠ db.global.shardId ∧
            asUnsigned d.version ≤ asUnsigned d'.version := by
  have hcode (n : Nat) : n ≤ db.getMaxVersion uri ↔ n = 0 ∨
      (∃ d ∈ s.docs, d.uri = uri ∧ n ≤ asUnsigned d.version) ∨
      ∃ d ∈ db.global.docs, d.uri = uri ∧ d.shardId ≠ db.global.shardId ∧
        n ≤ asUnsigned d.version := by
    rw [getMaxVersion, le_maxVersion_iff, le_maxVersion_iff, localMatches_eq h, globalMatches_eq h]
    simp [or_assoc, and_assoc]
  have hunion (n : Nat) : n ≤ db.union.getMaxVersion uri ↔ n = 0 ∨
      (∃ d ∈ s.docs, d.uri = uri ∧ n ≤ asUnsigned d.version) ∨
      ∃ d ∈ db.global.docs, d.uri = uri ∧ n ≤ asUnsigned d.version := by
    rw [getMaxVersion, le_maxVersion_iff, le_maxVersion_iff, union_eq h]
    simp [localMatches, globalMatches, and_assoc, or_and_right, exists_or]
  constructor
  · intro heq d hd huri _
    rw [← hcode, heq, hunion]
    exact Or.inr (Or.inr ⟨d, hd, huri, le_rfl⟩)
  · intro hcovered
    refine le_antisymm ((hunion _).mpr ?_) ((hcode _).mpr ?_)
    · rcases (hcode (db.getMaxVersion uri)).mp le_rfl with hn | hn | ⟨d, hd, huri, -, hn⟩
      · exact Or.inl hn
      · exact Or.inr (Or.inl hn)
      · exact Or.inr (Or.inr ⟨d, hd, huri, hn⟩)
    · rcases (hunion (db.union.getMaxVersion uri)).mp le_rfl with hn | hn | ⟨d, hd, huri, hn⟩
      · exact Or.inl hn
      · exact Or.inr (Or.inl hn)
      · by_cases hshard : d.shardId = db.global.shardId
        · -- a row that is left out is covered by one that is not
          rcases hcovered d hd huri hshard with hzero | ⟨d', hd', huri', hle⟩ |
            ⟨d', hd', huri', hshard', hle⟩
          · exact Or.inl (Nat.eq_zero_of_le_zero (hzero ▸ hn))
          · exact Or.inr (Or.inl ⟨d', hd', huri', hn.trans hle⟩)
          · exact Or.inr (Or.inr ⟨d', hd', huri', hshard', hn.trans hle⟩)
        · exact Or.inr (Or.inr ⟨d, hd, huri, hshard, hn⟩)

theorem Distributed.removeAllExpired (h : Distributed db s) (clock : Nat) :
    ∃ s', Distributed (db.removeAllExpired clock) s' ∧
      (db.removeAllExpired clock).global = db.global ∧
      db.union.removeAllExpired clock = (db.removeAllExpired clock).union := by
  have hpurged : db.removeAllExpired clock =
      { db with regional := some { s with
          docs := s.docs.filter fun d => !(d.shardId == s.shardId && decide (d.expires ≤ clock)) } } := by
    rw [SubscribeDB.removeAllExpired, h.regional]
  have hsplit : Distributed (db.removeAllExpired clock) { s with
      docs := s.docs.filter fun d => !(d.shardId == s.shardId && decide (d.expires ≤ clock)) } := by
    rw [hpurged]
    exact ⟨rfl, fun d hd => h.own d (mem_of_mem_filter hd), h.others⟩
  refine ⟨_, hsplit, by rw [hpurged], ?_⟩
  have hothers : (db.global.docs.filter fun d =>
      !(d.shardId == s.shardId && decide (d.expires ≤ (clock : Int)))) = db.global.docs := by
    rw [filter_eq_self]
    intro d hd
    simp [h.others d hd]
  rw [union_eq hsplit, union_eq h, SubscribeDB.removeAllExpired, hpurged]
  dsimp only
  rw [filter_append, hothers]

theorem getUnexpiredContacts_iff (h : Distributed db s) (clock : Nat) (substringToMatch : Text)
    (timeNow : Nat) :
    db.Transparent (fun db answer =>
        db.GetUnexpiredContactsFieldsContaining clock substringToMatch timeNow answer) ↔
      db.NoneOfShard (contactQuery substringToMatch timeNow) := by
  obtain ⟨s', hsplit, hglobal, hunion⟩ := h.removeAllExpired clock
  have hnone : db.NoneOfShard (contactQuery substringToMatch timeNow) ↔
      (db.removeAllExpired clock).NoneOfShard (contactQuery substringToMatch timeNow) := by
    rw [NoneOfShard, NoneOfShard, hglobal]
  rw [hnone]
  constructor
  · intro htransparent
    have hself := cursors_self (db.removeAllExpired clock) (contactQuery substringToMatch timeNow)
    obtain ⟨delivered, hdelivered, hanswer⟩ := htransparent _ ⟨_, hself, rfl⟩
    rw [hunion] at hdelivered
    have hlength := congrArg length hanswer
    rw [length_map, length_map] at hlength
    exact noneOfShard_of_length hsplit hself hdelivered hlength
  · rintro hnone answer ⟨delivered, hdelivered, rfl⟩
    refine ⟨delivered, ?_, rfl⟩
    rw [hunion]
    exact hdelivered.union hsplit hnone

end Queries

/-- **When the queries see both databases.**  Each query answers as on the union of both exactly
when the rows that it leaves out of the global collection make no difference: for
`subscriptionExists` those of every shard but that of the global connection, and for the others
those of that shard. -/
theorem regional_queries_iff {db : SubscribeDB} {s : Collection} (h : Distributed db s) :
    (∀ toUri fromUri callId timeNow,
      db.subscriptionExists toUri fromUri callId timeNow =
          db.union.subscriptionExists toUri fromUri callId timeNow ↔
        (∃ d ∈ db.global.docs, existsQuery toUri fromUri callId timeNow d = true) →
          (∃ d ∈ s.docs, existsQuery toUri fromUri callId timeNow d = true) ∨
            ∃ d ∈ db.global.docs, existsQuery toUri fromUri callId timeNow d = true ∧
              d.shardId = db.global.shardId) ∧
    (∀ callId fromTag toTag,
      db.Transparent (fun db => db.FindFromAndTo callId fromTag toTag) ↔
        (∃ d ∈ db.global.docs, tagsQuery callId fromTag toTag d = true) →
          (∃ d ∈ s.docs, tagsQuery callId fromTag toTag d = true) ∨
            ∃ d ∈ db.global.docs, tagsQuery callId fromTag toTag d = true ∧
              d.shardId ≠ db.global.shardId) ∧
    (∀ uri, db.getMaxVersion uri = db.union.getMaxVersion uri ↔
      ∀ d ∈ db.global.docs, d.uri = uri → d.shardId = db.global.shardId →
        asUnsigned d.version = 0 ∨
          (∃ d' ∈ s.docs, d'.uri = uri ∧ asUnsigned d.version ≤ asUnsigned d'.version) ∨
          ∃ d' ∈ db.global.docs, d'.uri = uri ∧ d'.shardId ≠ db.global.shardId ∧
            asUnsigned d.version ≤ asUnsigned d'.version) ∧
    (db.Transparent GetAll ↔ ∀ d ∈ db.global.docs, d.shardId ≠ db.global.shardId) ∧
    (∀ clock substringToMatch timeNow,
      db.Transparent (fun db answer =>
          db.GetUnexpiredContactsFieldsContaining clock substringToMatch timeNow answer) ↔
        db.NoneOfShard (contactQuery substringToMatch timeNow)) :=
  ⟨subscriptionExists_iff h, findFromAndTo_iff h, getMaxVersion_iff h, getAll_iff h,
    getUnexpiredContacts_iff h⟩

/-- A subscription of shard `shardId`. -/
def row (shardId : Int) : Subscription :=
  { callId := text "a@1", toUri := text "<sip:200@example.com>;tag=t",
    fromUri := text "<sip:201@example.com>;tag=f", contact := text "sip:201@10.0.0.1",
    expires := 500, version := 3, shardId := shardId }

/-- The rows of shard 1 are local, and there is a row of shard 2. -/
def twoRegions : SubscribeDB :=
  { global := { shardId := 1, docs := [row 2] }, regional := some { shardId := 1, docs := [] } }

theorem distributed_twoRegions : Distributed twoRegions { shardId := 1, docs := [] } where
  regional := rfl
  own := by decide
  others := by decide

theorem getAll_twoRegions : twoRegions.Transparent GetAll :=
  (regional_queries_iff distributed_twoRegions).2.2.2.1.mpr (by decide)

/-- A subscription of another region does not exist for `subscriptionExists`. -/
theorem otherRegion_not_found :
    Distributed twoRegions { shardId := 1, docs := [] } ∧
      twoRegions.subscriptionExists (text "<sip:200@example.com>;tag=t")
        (text "<sip:201@example.com>;tag=f") (text "a@1") 200 = false ∧
      twoRegions.union.subscriptionExists (text "<sip:200@example.com>;tag=t")
        (text "<sip:201@example.com>;tag=f") (text "a@1") 200 = true :=
  ⟨⟨rfl, by decide, by decide⟩, by decide +kernel, by decide +kernel⟩

end SubscribeDB

end SipXRouter
