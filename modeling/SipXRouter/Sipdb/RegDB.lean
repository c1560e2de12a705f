import SipXRouter.Newest
import SipXRouter.Net.Url

/-!
# The registration database

`RegDB` keeps the bindings of registered contacts in a Mongo collection, with a
second collection for the local shard where there is one.  A collection is a
list of documents; the cursor of a query delivers the documents that answer it
in an order of its own, so what a lookup returns is a relation (`Returns`) and
holds for every order.
-/

namespace SipXRouter

open List Newest

/-- The fields of a binding. -/
structure RegBinding where
  identity : Text
  uri : Text := []
  callId : Text
  contact : Text
  binding : Text := []
  qvalue : Text := []
  instanceId : Text := []
  gruu : Text := []
  path : Text := []
  instrument : Text := []
  shardId : Nat := 0
  cseq : Nat := 0
  expirationTime : Nat := 0
  timestamp : Nat := 0
deriving DecidableEq

/-- The text a contact is looked up by: `sip:`, the user where there is one, host
and port. -/
def bindingText (curl : Url) : Text :=
  text "sip:" ++ (if curl.userId = [] then [] else curl.userId ++ [byte '@']) ++
    curl.getHostWithPort

/-- What `updateBinding` fills in at time `clock`: a missing time stamp and a
missing binding text. -/
def RegBinding.completed (b : RegBinding) (clock : Nat) : RegBinding :=
  { b with
    timestamp := if b.timestamp = 0 then clock else b.timestamp
    binding := if b.binding = [] then bindingText (Url.ofText b.contact .nameAddr) else b.binding }

/-- A collection and the shard that writes to it. -/
structure Store where
  shardId : Nat
  docs : List RegBinding
deriving DecidableEq

/-- The database: the global collection, and the collection of the local shard
(`_local`) where one is configured. -/
structure RegDB where
  global : Store
  regional : Option Store := none
deriving DecidableEq

/-! ## Writes -/

namespace Store

/-- `updateBinding` in one collection: the document of the same identity, contact
and shard is removed and the new one inserted. -/
def updateBinding (s : Store) (b : RegBinding) : Store :=
  { s with
    docs := s.docs.filter (fun d =>
      !(d.identity == b.identity && d.contact == b.contact && d.shardId == s.shardId)) ++
      [{ b with shardId := s.shardId }] }

/-- `expireOldBindings` in one collection. -/
def expireOldBindings (s : Store) (identity callId : Text) (cseq : Nat) : Store :=
  { s with
    docs := s.docs.filter fun d =>
      !(d.identity == identity && d.callId == callId && decide (d.cseq < cseq) &&
        d.shardId == s.shardId) }

/-- `expireAllBindings` in one collection. -/
def expireAllBindings (s : Store) (identity : Text) : Store :=
  { s with docs := s.docs.filter fun d => !(d.shardId == s.shardId && d.identity == identity) }

end Store

variable {bindings : List RegBinding} {db : RegDB} {identity : Text} {timeNow : Nat}

namespace RegDB

/-- The collection that writes go to. -/
def writeStore (db : RegDB) : Store := db.regional.getD db.global

/-- Change the collection that writes go to. -/
def modifyStore (db : RegDB) (f : Store → Store) : RegDB :=
  match db.regional with
  | some s => { db with regional := some (f s) }
  | none => { db with global := f db.global }

@[simp] theorem writeStore_modifyStore (db : RegDB) (f : Store → Store) :
    (db.modifyStore f).writeStore = f db.writeStore := by
  cases hr : db.regional <;> simp [modifyStore, writeStore, hr]

/-- `updateBinding` at time `clock`. -/
def updateBinding (db : RegDB) (clock : Nat) (b : RegBinding) : RegDB :=
  db.modifyStore fun s => s.updateBinding (b.completed clock)

def expireOldBindings (db : RegDB) (identity callId : Text) (cseq : Nat) : RegDB :=
  db.modifyStore fun s => s.expireOldBindings identity callId cseq

def expireAllBindings (db : RegDB) (identity : Text) : RegDB :=
  db.modifyStore fun s => s.expireAllBindings identity

/-- `isOutOfSequence` looks at nothing. -/
def isOutOfSequence (_db : RegDB) (_identity _callId : Text) (_cseq : Nat) : Bool := false

/-! ## The lookup -/

/-- `GRUU_PREFIX`. -/
def gruuPrefix : Text := text "~~gr~"

/-- Whether a document belongs to an identity; an identity that is a GRUU is
looked up as such. -/
def belongsTo (identity : Text) (b : RegBinding) : Bool :=
  if gruuPrefix.isPrefixOf identity then b.gruu == identity ++ text ";gr"
  else b.identity == identity

/-- The documents the query of the local collection asks for. -/
def localQuery (db : RegDB) (identity : Text) (timeNow : Nat) : List RegBinding :=
  match db.regional with
  | none => []
  | some s => s.docs.filter fun b => decide (timeNow < b.expirationTime) && belongsTo identity b

/-- The documents the query of the global collection asks for: where there is a
local collection, those of the other shards. -/
def globalQuery (db : RegDB) (identity : Text) (timeNow : Nat) : List RegBinding :=
  db.global.docs.filter fun b =>
    decide (timeNow < b.expirationTime) && belongsTo identity b &&
      match db.regional with
      | none => true
      | some s => b.shardId != s.shardId

/-- The bindings of an identity that have not expired, the local ones first. -/
def unexpired (db : RegDB) (identity : Text) (timeNow : Nat) : List RegBinding :=
  db.localQuery identity timeNow ++ db.globalQuery identity timeNow

/-- The test of `push_or_replace_binding`. -/
def sameBinding (old new : RegBinding) : Bool :=
  old.callId == new.callId || old.contact == new.contact

/-- `push_or_replace_binding`. -/
def pushOrReplaceBinding : List RegBinding → RegBinding → List RegBinding :=
  pushOrReplace sameBinding RegBinding.timestamp

/-- The loop over a cursor, which passes over expired documents. -/
def readCursor (timeNow : Nat) (bindings cursor : List RegBinding) : List RegBinding :=
  cursor.foldl
    (fun acc b => if timeNow < b.expirationTime then pushOrReplaceBinding acc b else acc) bindings

/-- `getUnexpiredContactsUser` on what its cursors deliver, the local one first. -/
def getUnexpiredContactsUser (timeNow : Nat) (localCursor globalCursor : List RegBinding) :
    List RegBinding :=
  readCursor timeNow (readCursor timeNow [] localCursor) globalCursor

/-- The lookup returns `bindings` for some order of its cursors. -/
def Returns (db : RegDB) (identity : Text) (timeNow : Nat) (bindings : List RegBinding) : Prop :=
  ∃ localCursor globalCursor,
    localCursor.Perm (db.localQuery identity timeNow) ∧
    globalCursor.Perm (db.globalQuery identity timeNow) ∧
    bindings = getUnexpiredContactsUser timeNow localCursor globalCursor

/-- One binding for each contact that has an unexpired one, and a newest one,
whatever the order of the cursors. -/
def ContactsKept (db : RegDB) (identity : Text) (timeNow : Nat) : Prop :=
  ∀ bindings, db.Returns identity timeNow bindings →
    NewestPerKey RegBinding.contact RegBinding.timestamp (db.unexpired identity timeNow) bindings

/-- No two contacts share a Call-Id. -/
def CallIdsApart (docs : List RegBinding) : Prop :=
  ∀ a ∈ docs, ∀ b ∈ docs, a.callId = b.callId → a.contact = b.contact

theorem unexpired_expirationTime {b : RegBinding}
    (h : b ∈ db.unexpired identity timeNow) : timeNow < b.expirationTime := by
  rw [unexpired, mem_append] at h
  rcases h with h | h
  · rw [localQuery] at h
    split at h
    · simp at h
    · simp only [mem_filter, Bool.and_eq_true, decide_eq_true_eq] at h
      exact h.2.1
  · simp only [globalQuery, mem_filter, Bool.and_eq_true, decide_eq_true_eq] at h
    exact h.2.1.1

theorem readCursor_eq {cursor : List RegBinding}
    (h : ∀ b ∈ cursor, timeNow < b.expirationTime) (bindings : List RegBinding) :
    readCursor timeNow bindings cursor = cursor.foldl pushOrReplaceBinding bindings := by
  induction cursor generalizing bindings with
  | nil => rfl
  | cons b cursor ih =>
    have hb : timeNow < b.expirationTime := h b (by simp)
    have hrest := ih fun c hc => h c (by simp [hc])
    simp only [readCursor, foldl_cons, if_pos hb] at hrest ⊢
    exact hrest _

theorem Returns.eq_foldl (h : db.Returns identity timeNow bindings) :
    ∃ entries : List RegBinding, entries.Perm (db.unexpired identity timeNow) ∧
      bindings = entries.foldl pushOrReplaceBinding [] := by
  obtain ⟨lc, gc, hlc, hgc, rfl⟩ := h
  have hperm : (lc ++ gc).Perm (db.unexpired identity timeNow) := hlc.append hgc
  have htime : ∀ b ∈ lc ++ gc, timeNow < b.expirationTime := fun b hb =>
    unexpired_expirationTime (hperm.mem_iff.mp hb)
  refine ⟨lc ++ gc, hperm, ?_⟩
  rw [getUnexpiredContactsUser, readCursor_eq fun b hb => htime b (by simp [hb]),
    readCursor_eq fun b hb => htime b (by simp [hb]), foldl_append]

theorem returns_unexpired (db : RegDB) (identity : Text) (timeNow : Nat) :
    db.Returns identity timeNow (getUnexpiredContactsUser timeNow (db.localQuery identity timeNow)
        (db.globalQuery identity timeNow)) :=
  ⟨_, _, Perm.refl _, Perm.refl _, rfl⟩

/-- Whatever key the test of `push_or_replace_binding` amounts to on the unexpired
bindings, the newest binding for each key is returned. -/
theorem Returns.newestPerKey {κ : Type*} {key : RegBinding → κ}
    (h : db.Returns identity timeNow bindings)
    (hsame : ∀ a ∈ db.unexpired identity timeNow, ∀ b ∈ db.unexpired identity timeNow,
      sameBinding b a = true ↔ key b = key a) :
    NewestPerKey key RegBinding.timestamp (db.unexpired identity timeNow) bindings := by
  obtain ⟨entries, hperm, rfl⟩ := h.eq_foldl
  refine NewestPerKey.perm (newestPerKey_foldl entries ?_) hperm
  intro a ha b hb
  exact hsame a (hperm.mem_iff.mp ha) b (hperm.mem_iff.mp hb)

theorem Returns.newestPerContact (h : db.Returns identity timeNow bindings)
    (hapart : CallIdsApart (db.unexpired identity timeNow)) :
    NewestPerKey RegBinding.contact RegBinding.timestamp (db.unexpired identity timeNow) bindings := by
  refine h.newestPerKey fun a ha b hb => ?_
  simp only [sameBinding, Bool.or_eq_true, beq_iff_eq]
  exact ⟨fun h => h.elim (hapart b hb a ha) id, Or.inr⟩

/-- **No contact is lost** when no two contacts share a Call-Id.  Where the
unexpired bindings have distinct contacts, that is also necessary. -/
theorem contactsKept_of_callIdsApart (db : RegDB) (identity : Text) (timeNow : Nat) :
    (CallIdsApart (db.unexpired identity timeNow) → ContactsKept db identity timeNow) ∧
      (((db.unexpired identity timeNow).map RegBinding.contact).Nodup →
        ContactsKept db identity timeNow → CallIdsApart (db.unexpired identity timeNow)) := by
  refine ⟨fun hapart bindings hreturns => hreturns.newestPerContact hapart,
    fun hdistinct hkept => ?_⟩
  intro a ha b hb hcall
  -- on distinct contacts the test comes down to the Call-Id, so that Call-Ids
  -- are not repeated in what is returned, although both contacts have to be
  have hcontact : ∀ c ∈ db.unexpired identity timeNow, ∀ d ∈ db.unexpired identity timeNow,
      c.contact = d.contact → c = d := fun c hc d hd =>
    inj_on_of_nodup_map hdistinct hc hd
  have hreturns := db.returns_unexpired identity timeNow
  have hbyContact := hkept _ hreturns
  have htest : ∀ c ∈ db.unexpired identity timeNow, ∀ d ∈ db.unexpired identity timeNow,
      sameBinding d c = true ↔ d.callId = c.callId := by
    intro c hc d hd
    simp only [sameBinding, Bool.or_eq_true, beq_iff_eq]
    exact ⟨fun h => h.elim id fun h => congrArg _ (hcontact d hd c hc h), Or.inl⟩
  have hbyCallId := hreturns.newestPerKey htest
  obtain ⟨a', ha', haa⟩ := hbyContact.all a ha
  obtain ⟨b', hb', hbb⟩ := hbyContact.all b hb
  have ha'eq : a' = a := hcontact a' (hbyContact.mem a' ha') a ha haa
  have hb'eq : b' = b := hcontact b' (hbyContact.mem b' hb') b hb hbb
  subst ha'eq hb'eq
  exact congrArg _ (inj_on_of_nodup_map hbyCallId.once ha' hb' hcall)

/-- Two contacts registered with different Call-Ids. -/
def twoPhones : RegDB :=
  { global := { shardId := 1, docs :=
    [{ identity := text "200@example.com", callId := text "a@1", contact := text "sip:200@10.0.0.1",
       shardId := 1, cseq := 1, expirationTime := 500, timestamp := 100 },
     { identity := text "200@example.com", callId := text "b@2", contact := text "sip:200@10.0.0.2",
       shardId := 1, cseq := 1, expirationTime := 600, timestamp := 120 }] } }

/-- Two contacts registered in one request. -/
def oneRegister : RegDB :=
  { global := { shardId := 1, docs :=
    [{ identity := text "200@example.com", callId := text "a@1", contact := text "sip:200@10.0.0.1",
       shardId := 1, cseq := 1, expirationTime := 500, timestamp := 100 },
     { identity := text "200@example.com", callId := text "a@1", contact := text "sip:200@10.0.0.2",
       shardId := 1, cseq := 1, expirationTime := 500, timestamp := 100 }] } }

theorem contactsKept_twoPhones :
    CallIdsApart (twoPhones.unexpired (text "200@example.com") 200) ∧
      ContactsKept twoPhones (text "200@example.com") 200 := by
  have hapart : CallIdsApart (twoPhones.unexpired (text "200@example.com") 200) := by
    unfold CallIdsApart
    decide
  exact ⟨hapart, (contactsKept_of_callIdsApart _ _ _).1 hapart⟩

/-- Of two contacts of one Call-Id the second one read is dropped. -/
theorem one_register_two_contacts_lost :
    ¬ ContactsKept oneRegister (text "200@example.com") 200 := by
  intro h
  have hkept := h _ (returns_unexpired _ _ _)
  obtain ⟨a, ha, hcontact⟩ := hkept.all
    { identity := text "200@example.com", callId := text "a@1",
      contact := text "sip:200@10.0.0.2", shardId := 1, cseq := 1, expirationTime := 500,
      timestamp := 100 } (by decide)
  revert a
  decide

end RegDB

end SipXRouter
