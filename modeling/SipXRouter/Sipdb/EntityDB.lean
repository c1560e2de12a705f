import SipXRouter.Memo
import SipXRouter.Net.Url

/-!
# The entity collection and its cache

`EntityDB` finds the record of a user by identity, by user id or by alias.  The
three lookups keep the records they find in one cache, under the text that was
looked up and without the field it was looked up in.
-/

namespace SipXRouter

open List

variable {call : Call} {calls : List Call} {db : List EntityRecord}

namespace EntityDB

open Memo

/-! ## Records and queries -/

/-- An alias of a user. -/
structure Alias where
  id : Text
  contact : Text
  relation : Text
deriving DecidableEq

/-- The fields of a document that the lookups read. -/
structure EntityRecord where
  identity : Text
  userId : Text
  realm : Text
  password : Text
  authType : Text
  aliases : List Alias
deriving DecidableEq

/-- The fields a record is found by. -/
inductive Field where
  | identity | userId | aliasId
deriving DecidableEq

/-- A query for the records with a text in one field. -/
structure Query where
  field : Field
  key : Text
deriving DecidableEq

/-- Whether a record answers a query. -/
def Query.holds (q : Query) (r : EntityRecord) : Bool :=
  match q.field with
  | .identity => r.identity == q.key
  | .userId => r.userId == q.key
  | .aliasId => r.aliases.any (·.id == q.key)

/-- `findOne`: the first record, in the order of the collection, that answers the
query. -/
def findOne (db : List EntityRecord) (q : Query) : Option EntityRecord := db.find? q.holds

/-! ## Texts -/

/-- The scan of `boost::split` with adjacent separators compressed. -/
def splitLoop (sep : Byte → Bool) : (inSep : Bool) → Text → Text → List Text
  | _, cur, [] => [cur]
  | inSep, cur, c :: cs =>
    if sep c then
      if inSep then splitLoop sep true cur cs else cur :: splitLoop sep true [] cs
    else splitLoop sep false (cur ++ [c]) cs

/-- The tokens around `@`. -/
def splitAt (s : Text) : List Text := splitLoop (· == byte '@') false [] s

/-- `ID_SIPX_PROVISION`. -/
def sipxProvision : Text := text "~~id~sipXprovision"

/-- `validate_identity_string`: all provisioning identities share one record. -/
def validateIdentityString (identity : Text) : Text :=
  if sipxProvision.isPrefixOf identity then
    match splitAt identity with
    | [] => sipxProvision
    | [_] => sipxProvision
    | [_, domain] => sipxProvision ++ byte '@' :: domain
    | _ => identity
  else identity

/-! ## Lookups -/

/-- A program over the lookups. -/
abbrev Lookup (R : Type) := Prog Query EntityRecord R

def findByIdentity (identity : Text) : Lookup (Option EntityRecord) :=
  .ask ⟨.identity, validateIdentityString identity⟩ .done

def findByUserId (userId : Text) : Lookup (Option EntityRecord) :=
  .ask ⟨.userId, validateIdentityString userId⟩ .done

def findByAliasUserId (aliasId : Text) : Lookup (Option EntityRecord) :=
  .ask ⟨.aliasId, aliasId⟩ .done

/-- By identity first, and by alias where that finds none. -/
def findByIdentityOrAlias (identity aliasId : Text) : Lookup (Option EntityRecord) :=
  (if identity = [] then .done none else findByIdentity identity).bind fun found =>
    match found with
    | some entity => .done (some entity)
    | none => if aliasId = [] then .done none else findByAliasUserId aliasId

/-- `findByAliasIdentity`: the user part as an alias, in a record whose identity
ends in the host part. -/
def findByAliasIdentity (identity : Text) : Lookup (Option EntityRecord) :=
  match splitAt identity with
  | [userId, host] =>
    (findByAliasUserId userId).bind fun found =>
      .done (found.filter fun entity => host.isSuffixOf entity.identity)
  | _ => .done none

/-- `getCredential` for a URI: user id, password token and type. -/
def getCredential (uri : Url) (realm : Text) : Lookup (Option (Text × Text × Text)) :=
  (findByIdentity uri.getIdentity).bind fun found =>
    .done ((found.filter (·.realm == realm)).map fun entity =>
      (entity.userId, entity.password, entity.authType))

/-- `getCredential` for a user id: URI, password token and type. -/
def getCredentialOfUserId (userId realm : Text) : Lookup (Option (Url × Text × Text)) :=
  (findByUserId userId).bind fun found =>
    .done ((found.filter (·.realm == realm)).map fun entity =>
      (Url.ofText entity.identity .nameAddr, entity.password, entity.authType))

/-- `getAliasContacts`: the aliases, and whether the record is that of a user. -/
def getAliasContacts (aliasIdentity : Url) : Lookup (Option (List Alias × Bool)) :=
  if aliasIdentity.userId = [] then .done none
  else
    (findByAliasIdentity aliasIdentity.getIdentity).bind fun found =>
      .done (found.map fun entity =>
        (entity.aliases.filter (·.id == aliasIdentity.userId),
          entity.realm != [] && entity.password != []))

/-! ## Runs -/

/-- A call of the class. -/
inductive Call where
  | findByIdentity (identity : Text)
  | findByUserId (userId : Text)
  | findByAliasUserId (aliasId : Text)
  | findByIdentityOrAlias (identity aliasId : Text)
  | findByAliasIdentity (identity : Text)
  | getCredential (uri : Url) (realm : Text)
  | getCredentialOfUserId (userId realm : Text)
  | getAliasContacts (aliasIdentity : Url)

/-- What a call returns. -/
inductive Result where
  | record (entity : Option EntityRecord)
  | credential (found : Option (Text × Text × Text))
  | uriCredential (found : Option (Url × Text × Text))
  | contacts (found : Option (List Alias × Bool))
deriving DecidableEq

/-- The program of a call. -/
def Call.lookup : Call → Lookup Result
  | .findByIdentity identity => (EntityDB.findByIdentity identity).bind (.done ∘ .record)
  | .findByUserId userId => (EntityDB.findByUserId userId).bind (.done ∘ .record)
  | .findByAliasUserId aliasId => (EntityDB.findByAliasUserId aliasId).bind (.done ∘ .record)
  | .findByIdentityOrAlias identity aliasId =>
    (EntityDB.findByIdentityOrAlias identity aliasId).bind (.done ∘ .record)
  | .findByAliasIdentity identity => (EntityDB.findByAliasIdentity identity).bind (.done ∘ .record)
  | .getCredential uri realm => (EntityDB.getCredential uri realm).bind (.done ∘ .credential)
  | .getCredentialOfUserId userId realm =>
    (EntityDB.getCredentialOfUserId userId realm).bind (.done ∘ .uriCredential)
  | .getAliasContacts aliasIdentity =>
    (EntityDB.getAliasContacts aliasIdentity).bind (.done ∘ .contacts)

/-- The query of a call that is one of the three plain lookups. -/
def Call.query? : Call → Option Query
  | .findByIdentity identity => some ⟨.identity, validateIdentityString identity⟩
  | .findByUserId userId => some ⟨.userId, validateIdentityString userId⟩
  | .findByAliasUserId aliasId => some ⟨.aliasId, aliasId⟩
  | _ => none

/-- The results of a sequence of calls that share the cache, empty at first. -/
def run (db : List EntityRecord) (calls : List Call) : List Result :=
  runAll Query.key (findOne db) (calls.map Call.lookup) []

/-- The result of a call on an empty cache. -/
def freshResult (db : List EntityRecord) (call : Call) : Result :=
  (call.lookup.run Query.key (findOne db) []).1

/-- The queries that the calls make of the collection, in order. -/
def queries (db : List EntityRecord) (calls : List Call) : List Query :=
  (calls.map Call.lookup).flatMap (Prog.asked (findOne db))

/-- No text is looked up in two fields that hold different records: a later query
with the text of an earlier hit finds the same record. -/
def KeysApart (db : List EntityRecord) (calls : List Call) : Prop :=
  (queries db calls).Pairwise (Agree Query.key (findOne db))

instance (db : List EntityRecord) (calls : List Call) : Decidable (KeysApart db calls) :=
  inferInstanceAs (Decidable (List.Pairwise _ _))

/-- Each call of a run returns what it returns on an empty cache, and a record
found by one of the plain lookups has the text in the field that was asked for. -/
structure CacheTransparent (db : List EntityRecord) (calls : List Call) : Prop where
  fresh : run db calls = calls.map (freshResult db)
  found : ∀ (i : Nat) (call : Call) (q : Query) (entity : EntityRecord),
    calls[i]? = some call → call.query? = some q →
      (run db calls)[i]? = some (.record (some entity)) → q.holds entity = true

/-! ## Transparency -/

theorem lookup_of_query {q : Query} (h : call.query? = some q) :
    call.lookup = .ask q fun found => .done (.record found) := by
  cases call <;> cases h <;> rfl

theorem map_of_plain {α : Type} {f : Call → α} {g : Query → α}
    (hfg : ∀ call q, call.query? = some q → f call = g q) (h : ∀ call ∈ calls, call.query? ≠ none) :
    calls.map f = (calls.filterMap Call.query?).map g := by
  induction calls with
  | nil => rfl
  | cons call calls ih =>
    obtain ⟨q, hq⟩ := Option.ne_none_iff_exists'.mp (h call (by simp))
    rw [filterMap_cons_some hq, map_cons, map_cons, hfg call q hq,
      ih fun c hc => h c (by simp [hc])]

theorem KeysApart.of_mem (h : KeysApart db calls) (hcall : call ∈ calls) : KeysApart db [call] := by
  have hsub : Sublist (queries db [call]) (queries db calls) := by
    simpa [queries, flatMap_def] using
      sublist_flatten_of_mem (mem_map_of_mem (mem_map_of_mem hcall))
  exact h.sublist hsub

theorem run_eq (h : KeysApart db calls) :
    run db calls = calls.map fun call => call.lookup.eval (findOne db) := by
  rw [run, runAll_eq _ h, map_map]
  rfl

theorem freshResult_eq
    (h : KeysApart db [call]) : freshResult db call = call.lookup.eval (findOne db) := by
  have hrun := run_eq h
  simpa [run, runAll, freshResult] using hrun

theorem freshResult_of_query (db : List EntityRecord) {q : Query}
    (h : call.query? = some q) : freshResult db call = Result.record (findOne db q) := by
  have happart : KeysApart db [call] := by
    simp [KeysApart, queries, lookup_of_query h, Prog.asked]
  rw [freshResult_eq happart, lookup_of_query h]
  rfl

/-- **Transparency of the cache** for every run that keeps its keys apart; for runs
of plain lookups keeping them apart is also necessary. -/
theorem cacheTransparent_of_keysApart (db : List EntityRecord) (calls : List Call) :
    (KeysApart db calls → CacheTransparent db calls) ∧
      ((∀ call ∈ calls, call.query? ≠ none) → CacheTransparent db calls →
        KeysApart db calls) := by
  refine ⟨fun hapart => ⟨?_, ?_⟩, fun hplain htransparent => ?_⟩
  · rw [run_eq hapart]
    exact map_congr_left fun call hcall => (freshResult_eq (hapart.of_mem hcall)).symm
  · intro i call q entity hcall hq hresult
    rw [run_eq hapart, getElem?_map, hcall, Option.map_some, lookup_of_query hq] at hresult
    have hfound : findOne db q = some entity := by simpa [Prog.eval] using hresult
    exact find?_some hfound
  · -- the calls are single queries, so that their results are the answers to these
    have hasks := map_of_plain (fun _ _ => lookup_of_query) hplain
    have hanswers : calls.map (freshResult db) =
        ((calls.filterMap Call.query?).map (findOne db)).map Result.record := by
      rw [map_map]
      exact map_of_plain (fun _ _ => freshResult_of_query db) hplain
    have hfresh := htransparent.fresh
    rw [run, hasks, runAll_asks, hanswers] at hfresh
    rw [KeysApart, queries, hasks, asked_asks, ← fetchAll_eq_iff]
    exact map_injective_iff.mpr (fun _ _ h => by simpa using h) hfresh

/-- Two users, the second of which has the user id of the first as an alias. -/
def collidingUsers : List EntityRecord :=
  [⟨text "200@example.com", text "200", text "example.com", text "p1", text "DIGEST", []⟩,
    ⟨text "201@example.com", text "201", text "example.com", text "p2", text "DIGEST",
      [⟨text "200", text "sip:201@example.com", text "alias"⟩,
        ⟨text "sales", text "sip:201@example.com", text "alias"⟩]⟩]

theorem cacheTransparent_distinct_keys :
    KeysApart collidingUsers [.findByUserId (text "200"), .findByAliasUserId (text "sales"),
        .getCredentialOfUserId (text "200") (text "example.com")] ∧
      CacheTransparent collidingUsers [.findByUserId (text "200"),
        .findByAliasUserId (text "sales"),
        .getCredentialOfUserId (text "200") (text "example.com")] :=
  ⟨by decide, (cacheTransparent_of_keysApart _ _).1 (by decide)⟩

/-- After the user id, the same text looked up as an alias delivers the record of
the user id, which has no such alias. -/
theorem userId_then_alias_not_transparent :
    ¬ CacheTransparent collidingUsers
      [.findByUserId (text "200"), .findByAliasUserId (text "200")] := by
  intro h
  have hrun : (run collidingUsers [.findByUserId (text "200"), .findByAliasUserId (text "200")])[1]? =
      some (.record (some ⟨text "200@example.com", text "200", text "example.com", text "p1",
        text "DIGEST", []⟩)) := by
    decide
  have hholds := h.found 1 _ _ _ rfl rfl hrun
  exact absurd hholds (by decide)

end EntityDB

end SipXRouter
