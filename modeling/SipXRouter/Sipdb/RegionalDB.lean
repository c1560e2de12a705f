import SipXRouter.Sipdb.RegDB

/-!
# Queries over a local and a global collection

A `RegDB` with a local collection answers its queries in two stages: the local
database first, and then the documents of all other shards in the global
collection.  `getUnexpiredContactsUser` answers with what both stages have
collected.  `isRegisteredBinding` and the two queries by instrument drop the
answer of the first stage and report the second one alone.
-/

namespace SipXRouter.RegDB

open List

/-! ## Two stages -/

/-- The documents of the local collection that a query asks for. -/
def localMatches (db : RegDB) (query : RegBinding → Bool) : List RegBinding :=
  match db.regional with
  | none => []
  | some s => s.docs.filter query

/-- The documents of the global collection that a query asks for: where there is a
local collection, those of the other shards. -/
def globalMatches (db : RegDB) (query : RegBinding → Bool) : List RegBinding :=
  db.global.docs.filter fun b =>
    query b &&
      match db.regional with
      | none => true
      | some s => b.shardId != s.shardId

/-- `isRegisteredBinding`.  The local database is asked first, for nothing. -/
def isRegisteredBinding (db : RegDB) (curl : Url) : Bool :=
  !(db.globalMatches fun b => b.binding == bindingText curl).isEmpty

/-- One stage of a lookup: `true` for a cursor that has documents, and these are
added to the bindings. -/
def readMatches (bindings cursor : List RegBinding) : Bool × List RegBinding :=
  match cursor with
  | [] => (false, bindings)
  | _ :: _ => (true, cursor.foldl pushOrReplaceBinding bindings)

/-- Both stages.  Of the first one only the bindings are used. -/
def readBoth (bindings localCursor globalCursor : List RegBinding) : Bool × List RegBinding :=
  readMatches (readMatches bindings localCursor).2 globalCursor

/-- The query can answer so, for some order of its cursors. -/
def Answers (db : RegDB) (query : RegBinding → Bool) (answer : Bool × List RegBinding) : Prop :=
  ∃ localCursor globalCursor,
    localCursor.Perm (db.localMatches query) ∧ globalCursor.Perm (db.globalMatches query) ∧
    answer = readBoth [] localCursor globalCursor

def userInstrumentQuery (identity instrument : Text) (timeNow : Nat) (b : RegBinding) : Bool :=
  b.identity == identity && b.instrument == instrument && decide (timeNow < b.expirationTime)

def instrumentQuery (instrument : Text) (timeNow : Nat) (b : RegBinding) : Bool :=
  b.instrument == instrument && decide (timeNow < b.expirationTime)

/-- The answers of `getUnexpiredContactsUserInstrument`. -/
def getUnexpiredContactsUserInstrument (db : RegDB) (identity instrument : Text) (timeNow : Nat) :
    Bool × List RegBinding → Prop :=
  db.Answers (userInstrumentQuery identity instrument timeNow)

/-- The answers of `getUnexpiredContactsInstrument`. -/
def getUnexpiredContactsInstrument (db : RegDB) (instrument : Text) (timeNow : Nat) :
    Bool × List RegBinding → Prop :=
  db.Answers (instrumentQuery instrument timeNow)

/-! ## The union -/

/-- The documents of the local shard `s` are in the local collection, and the
global collection holds those of the other shards. -/
structure Distributed (db : RegDB) (s : Store) : Prop where
  regional : db.regional = some s
  own : ∀ b ∈ s.docs, b.shardId = s.shardId
  others : ∀ b ∈ db.global.docs, b.shardId ≠ s.shardId

/-- One collection that holds the documents of both. -/
def union (db : RegDB) : RegDB :=
  { global := { db.global with
      docs := (db.regional.elim [] Store.docs) ++ db.global.docs } }

/-- Some document of the database answers the query. -/
def Holds (db : RegDB) (query : RegBinding → Bool) : Prop :=
  ∃ b ∈ db.global.docs, query b = true

/-- `isRegisteredBinding` answers as it would on the union. -/
def IsRegisteredTransparent (db : RegDB) (curl : Url) : Prop :=
  db.isRegisteredBinding curl = true ↔
    ∃ b ∈ db.union.global.docs, b.binding = bindingText curl

/-- A query reports a match exactly when the union holds one, its list then has a
match of the union, and the union can give the same answer. -/
def LookupTransparent (db : RegDB) (query : RegBinding → Bool)
    (lookup : RegDB → Bool × List RegBinding → Prop) : Prop :=
  ∀ answer, lookup db answer →
    (answer.1 = true ↔ db.union.Holds query) ∧
    (db.union.Holds query → ∃ b ∈ answer.2, b ∈ db.union.global.docs ∧ query b = true) ∧
    lookup db.union answer

/-- Whatever matches the query in the local collection, another shard has a match. -/
def MatchedElsewhere (db : RegDB) (s : Store) (query : RegBinding → Bool) : Prop :=
  (∃ b ∈ s.docs, query b = true) → db.Holds query

section Stages

variable {db : RegDB} {s : Store} {query : RegBinding → Bool}

@[simp] theorem localMatches_union : db.union.localMatches query = [] := rfl

theorem union_docs (h : Distributed db s) : db.union.global.docs = s.docs ++ db.global.docs := by
  rw [union, h.regional]
  rfl

theorem union_holds (h : Distributed db s) :
    db.union.Holds query ↔ (∃ b ∈ s.docs, query b = true) ∨ db.Holds query := by
  simp only [Holds, union_docs h, mem_append]
  constructor
  · rintro ⟨b, hb | hb, hq⟩
    · exact Or.inl ⟨b, hb, hq⟩
    · exact Or.inr ⟨b, hb, hq⟩
  · rintro (⟨b, hb, hq⟩ | ⟨b, hb, hq⟩)
    · exact ⟨b, Or.inl hb, hq⟩
    · exact ⟨b, Or.inr hb, hq⟩

theorem localMatches_eq (h : Distributed db s) : db.localMatches query = s.docs.filter query := by
  rw [localMatches, h.regional]

theorem globalMatches_eq (h : Distributed db s) :
    db.globalMatches query = db.global.docs.filter query := by
  rw [globalMatches, h.regional]
  refine filter_congr fun b hb => ?_
  simp [h.others b hb]

theorem globalMatches_union (h : Distributed db s) :
    db.union.globalMatches query = db.localMatches query ++ db.globalMatches query := by
  rw [localMatches_eq h, globalMatches_eq h, ← filter_append, ← union_docs h]
  exact filter_congr fun b _ => Bool.and_true _

theorem cursor_ne_nil_iff {cursor : List RegBinding}
    (hcursor : cursor.Perm (db.global.docs.filter query)) : cursor ≠ [] ↔ db.Holds query := by
  constructor
  · intro hne
    obtain ⟨b, hb⟩ := exists_mem_of_ne_nil _ hne
    exact ⟨b, mem_filter.mp (hcursor.mem_iff.mp hb)⟩
  · rintro ⟨b, hb, hquery⟩
    exact ne_nil_of_mem (hcursor.mem_iff.mpr (mem_filter.mpr ⟨hb, hquery⟩))

theorem perm_union (h : Distributed db s) {localCursor globalCursor : List RegBinding}
    (hlocal : localCursor.Perm (db.localMatches query))
    (hglobal : globalCursor.Perm (db.globalMatches query)) :
    (localCursor ++ globalCursor).Perm (db.union.global.docs.filter query) := by
  rw [union_docs h, filter_append, ← localMatches_eq h, ← globalMatches_eq h]
  exact hlocal.append hglobal

end Stages

/-! ## A lookup -/

theorem readMatches_snd (bindings cursor : List RegBinding) :
    (readMatches bindings cursor).2 = cursor.foldl pushOrReplaceBinding bindings := by
  cases cursor <;> rfl

theorem readMatches_fst (bindings cursor : List RegBinding) :
    (readMatches bindings cursor).1 = true ↔ cursor ≠ [] := by
  cases cursor <;> simp [readMatches]

theorem readBoth_snd (localCursor globalCursor : List RegBinding) :
    (readBoth [] localCursor globalCursor).2 =
      (localCursor ++ globalCursor).foldl pushOrReplaceBinding [] := by
  rw [readBoth, readMatches_snd, readMatches_snd, foldl_append]

theorem readBoth_fst (localCursor globalCursor : List RegBinding) :
    (readBoth [] localCursor globalCursor).1 = true ↔ globalCursor ≠ [] :=
  readMatches_fst _ _

section Lookup

variable {db : RegDB} {s : Store} {query : RegBinding → Bool} {answer : Bool × List RegBinding}

theorem answers_union_iff (h : Distributed db s) :
    db.union.Answers query answer ↔ ∃ cursor : List RegBinding,
      cursor.Perm (db.localMatches query ++ db.globalMatches query) ∧
      answer = readMatches [] cursor := by
  simp only [Answers, localMatches_union, globalMatches_union h]
  constructor
  · rintro ⟨lc, gc, hlc, hgc, rfl⟩
    rw [hlc.eq_nil]
    exact ⟨gc, hgc, rfl⟩
  · rintro ⟨cursor, hcursor, rfl⟩
    exact ⟨[], cursor, Perm.refl _, hcursor, rfl⟩

theorem Answers.fst_iff (hanswer : db.Answers query answer) (h : Distributed db s) :
    answer.1 = true ↔ db.Holds query := by
  obtain ⟨lc, gc, -, hgc, rfl⟩ := hanswer
  rw [globalMatches_eq h] at hgc
  rw [readBoth_fst]
  exact cursor_ne_nil_iff hgc

theorem exists_match_of_cursor {cursor : List RegBinding}
    (hcursor : cursor.Perm (db.global.docs.filter query)) (hholds : db.Holds query) :
    ∃ b ∈ cursor.foldl pushOrReplaceBinding [], b ∈ db.global.docs ∧ query b = true := by
  have hne : cursor ≠ [] := (cursor_ne_nil_iff hcursor).mpr hholds
  obtain ⟨b, hb⟩ := exists_mem_of_ne_nil _
    (Newest.foldl_pushOrReplace_ne_nil sameBinding RegBinding.timestamp (l := []) (Or.inr hne))
  have hmem : b ∈ cursor :=
    (Newest.mem_foldl_pushOrReplace sameBinding RegBinding.timestamp hb).resolve_left
      not_mem_nil
  exact ⟨b, hb, mem_filter.mp (hcursor.mem_iff.mp hmem)⟩

theorem Answers.exists_match (hanswer : db.Answers query answer) (h : Distributed db s)
    (hholds : db.union.Holds query) :
    ∃ b ∈ answer.2, b ∈ db.union.global.docs ∧ query b = true := by
  obtain ⟨lc, gc, hlc, hgc, rfl⟩ := hanswer
  rw [readBoth_snd]
  exact exists_match_of_cursor (perm_union h hlc hgc) hholds

theorem Answers.union (hanswer : db.Answers query answer) (h : Distributed db s)
    (hreport : answer.1 = true ↔ db.union.Holds query) : db.union.Answers query answer := by
  obtain ⟨lc, gc, hlc, hgc, rfl⟩ := hanswer
  refine (answers_union_iff h).mpr ⟨lc ++ gc, hlc.append hgc, Prod.ext ?_ ?_⟩
  · rw [Bool.eq_iff_iff, hreport, readMatches_fst]
    exact (cursor_ne_nil_iff (perm_union h hlc hgc)).symm
  · rw [readBoth_snd, readMatches_snd]

theorem answers_readBoth (db : RegDB) (query : RegBinding → Bool) :
    db.Answers query (readBoth [] (db.localMatches query) (db.globalMatches query)) :=
  ⟨_, _, Perm.refl _, Perm.refl _, rfl⟩

theorem lookupTransparent_iff (h : Distributed db s) :
    LookupTransparent db query (fun db => db.Answers query) ↔ MatchedElsewhere db s query := by
  constructor
  · intro htransparent hlocal
    have hanswer := db.answers_readBoth query
    exact (hanswer.fst_iff h).mp
      ((htransparent _ hanswer).1.mpr ((union_holds h).mpr (Or.inl hlocal)))
  · intro helsewhere answer hanswer
    have hreport : answer.1 = true ↔ db.union.Holds query := by
      rw [hanswer.fst_iff h, union_holds h]
      exact ⟨Or.inr, fun hor => hor.elim helsewhere id⟩
    exact ⟨hreport, hanswer.exists_match h, hanswer.union h hreport⟩

theorem isRegisteredTransparent_iff (h : Distributed db s) (curl : Url) :
    IsRegisteredTransparent db curl ↔
      MatchedElsewhere db s fun b => b.binding == bindingText curl := by
  have hunion : (∃ b ∈ db.union.global.docs, b.binding = bindingText curl) ↔
      db.union.Holds fun b => b.binding == bindingText curl := by simp [Holds]
  have hreport : db.isRegisteredBinding curl = true ↔
      db.Holds fun b => b.binding == bindingText curl := by
    rw [isRegisteredBinding, globalMatches_eq h, Bool.not_eq_true', isEmpty_eq_false_iff]
    exact cursor_ne_nil_iff (Perm.refl _)
  rw [IsRegisteredTransparent, hunion, hreport, union_holds h]
  exact ⟨fun hiff hlocal => hiff.mpr (Or.inl hlocal),
    fun helsewhere => ⟨Or.inr, fun hor => hor.elim helsewhere id⟩⟩

end Lookup

/-! ## The queries -/

/-- **When the queries see both collections.**  Each of the three answers as on the
union exactly when the matches are not all in the local collection. -/
theorem regional_transparent_iff {db : RegDB} {s : Store} (h : Distributed db s) :
    (∀ curl : Url, IsRegisteredTransparent db curl ↔
      MatchedElsewhere db s fun b => b.binding == bindingText curl) ∧
    (∀ identity instrument timeNow,
      LookupTransparent db (userInstrumentQuery identity instrument timeNow)
          (fun db => db.getUnexpiredContactsUserInstrument identity instrument timeNow) ↔
        MatchedElsewhere db s (userInstrumentQuery identity instrument timeNow)) ∧
    (∀ instrument timeNow,
      LookupTransparent db (instrumentQuery instrument timeNow)
          (fun db => db.getUnexpiredContactsInstrument instrument timeNow) ↔
        MatchedElsewhere db s (instrumentQuery instrument timeNow)) :=
  ⟨isRegisteredTransparent_iff h, fun _ _ _ => lookupTransparent_iff h,
    fun _ _ => lookupTransparent_iff h⟩

/-- A phone of shard `shardId`. -/
def phone (shardId : Nat) : RegBinding :=
  { identity := text "200@example.com", callId := text "a@1", contact := text "sip:200@10.0.0.1",
    binding := text "sip:200@10.0.0.1", instrument := text "0004f2000001", shardId := shardId,
    cseq := 1, expirationTime := 500, timestamp := 100 }

def homeStore : Store := { shardId := 1, docs := [phone 1] }

/-- The phone is registered with the local shard alone. -/
def homeOnly : RegDB := { global := { shardId := 0, docs := [] }, regional := some homeStore }

/-- The phone is registered with another shard too. -/
def homeAndAway : RegDB :=
  { global := { shardId := 0, docs := [phone 2] }, regional := some homeStore }

theorem distributed_homeOnly : Distributed homeOnly homeStore where
  regional := rfl
  own := by decide
  others := by decide

theorem distributed_homeAndAway : Distributed homeAndAway homeStore where
  regional := rfl
  own := by decide
  others := by decide

theorem homeAndAway_transparent :
    LookupTransparent homeAndAway (instrumentQuery (text "0004f2000001") 200)
      (fun db => db.getUnexpiredContactsInstrument (text "0004f2000001") 200) :=
  ((regional_transparent_iff distributed_homeAndAway).2.2 _ _).mpr
    fun _ => ⟨phone 2, by decide, by decide⟩

/-- A phone of the local shard is not found by any of the three queries. -/
theorem homeOnly_not_transparent :
    Distributed homeOnly homeStore ∧
      ¬ IsRegisteredTransparent homeOnly
        { userId := text "200", hostAddress := text "10.0.0.1" } ∧
      ¬ LookupTransparent homeOnly
        (userInstrumentQuery (text "200@example.com") (text "0004f2000001") 200)
        (fun db => db.getUnexpiredContactsUserInstrument (text "200@example.com")
          (text "0004f2000001") 200) ∧
      ¬ LookupTransparent homeOnly (instrumentQuery (text "0004f2000001") 200)
        (fun db => db.getUnexpiredContactsInstrument (text "0004f2000001") 200) := by
  have hquery (query : RegBinding → Bool) (hphone : query (phone 1) = true) :
      ¬ MatchedElsewhere homeOnly homeStore query := by
    intro helsewhere
    obtain ⟨b, hb, -⟩ := helsewhere ⟨phone 1, by simp [homeStore], hphone⟩
    exact absurd hb not_mem_nil
  refine ⟨distributed_homeOnly, ?_, ?_, ?_⟩
  · rw [isRegisteredTransparent_iff distributed_homeOnly]
    exact hquery _ (by decide)
  · intro h
    exact hquery _ (by decide) ((lookupTransparent_iff distributed_homeOnly).mp h)
  · intro h
    exact hquery _ (by decide) ((lookupTransparent_iff distributed_homeOnly).mp h)

/-! ## The lookup by user -/

/-- The answers of `getUnexpiredContactsUser`, which reports what is in the list. -/
def UserAnswers (identity : Text) (timeNow : Nat) (db : RegDB) (answer : Bool × List RegBinding) :
    Prop :=
  db.Returns identity timeNow answer.2 ∧ answer.1 = !answer.2.isEmpty

/-- What `getUnexpiredContactsUser` asks for. -/
def userQuery (identity : Text) (timeNow : Nat) (b : RegBinding) : Bool :=
  decide (timeNow < b.expirationTime) && belongsTo identity b

theorem unexpired_eq_matches (db : RegDB) (identity : Text) (timeNow : Nat) :
    db.unexpired identity timeNow =
      db.localMatches (userQuery identity timeNow) ++
        db.globalMatches (userQuery identity timeNow) := rfl

theorem returns_union {db : RegDB} {s : Store} (h : Distributed db s) {identity : Text}
    {timeNow : Nat} {bindings : List RegBinding} (hreturns : db.Returns identity timeNow bindings) :
    db.union.Returns identity timeNow bindings := by
  obtain ⟨entries, hperm, rfl⟩ := hreturns.eq_foldl
  have htime : ∀ b ∈ entries, timeNow < b.expirationTime := fun b hb =>
    unexpired_expirationTime (hperm.mem_iff.mp hb)
  refine ⟨[], entries, Perm.refl _, ?_, (readCursor_eq htime []).symm⟩
  rw [unexpired_eq_matches, ← globalMatches_union h] at hperm
  exact hperm

/-- **The lookup by user** answers as on the union, wherever the matches are. -/
theorem getUnexpiredContactsUser_transparent {db : RegDB} {s : Store} (h : Distributed db s)
    (identity : Text) (timeNow : Nat) :
    LookupTransparent db (userQuery identity timeNow) (UserAnswers identity timeNow) := by
  rintro ⟨found, bindings⟩ ⟨hreturns, hfound⟩
  obtain ⟨entries, hperm, hbindings⟩ := hreturns.eq_foldl
  have hunion : entries.Perm (db.union.global.docs.filter (userQuery identity timeNow)) :=
    hperm.trans (perm_union h (Perm.refl _) (Perm.refl _))
  dsimp only at hfound hbindings ⊢
  subst hfound hbindings
  refine ⟨?_, exists_match_of_cursor hunion, returns_union h hreturns, rfl⟩
  rw [Bool.not_eq_true', isEmpty_eq_false_iff, ← cursor_ne_nil_iff hunion]
  refine ⟨?_, fun hne => Newest.foldl_pushOrReplace_ne_nil _ _ (Or.inr hne)⟩
  rintro hne rfl
  exact hne rfl

end SipXRouter.RegDB
