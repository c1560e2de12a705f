import SipXRouter.Registry.RegisterSequence
import SipXRouter.Sipdb.RegionalDB

/-!
# The collection of a registrar

Over any sequence of REGISTER requests, of whatever addresses of record and Call-Ids, the
collection that is written has at most one document of its shard for an identity and a contact,
and the documents of other identities and of other shards stay as they are.  With a local
collection beside the global one, calls go on finding the contacts of both.
-/

namespace SipXRouter

open List

namespace SipRegistrarServer

/-- One document of the shard for an identity and a contact. -/
def OncePerContact (s : Store) : Prop :=
  (s.docs.filter (·.shardId == s.shardId)).Pairwise fun a b =>
    ¬ (a.identity = b.identity ∧ a.contact = b.contact)

/-- The documents of other identities or of other shards. -/
def foreign (identities : List Text) (s : Store) : List RegBinding :=
  s.docs.filter fun d => !(d.shardId == s.shardId && identities.contains d.identity)

/-- The identity that a write is for. -/
def Write.identity : Write → Text
  | updateBinding _ b => b.identity
  | expireOldBindings identity _ _ => identity
  | expireAllBindings identity _ _ => identity

variable {s : Store} {identities : List Text} {w : Write}

/-! ## One write -/

theorem OncePerContact.onStore (h : OncePerContact s) : OncePerContact (w.onStore s) := by
  cases w with
  | updateBinding clock b =>
    show ((_ ++ [_] : List RegBinding).filter _).Pairwise _
    rw [filter_append]
    refine pairwise_append.mpr
      ⟨h.sublist (filter_sublist.filter _), (pairwise_singleton _ _).filter _, ?_⟩
    rintro a ha d hd ⟨hidentity, hcontact⟩
    -- what would stand beside the new document has been removed
    obtain rfl := mem_singleton.mp (mem_of_mem_filter hd)
    obtain ⟨ha, hshard⟩ := mem_filter.mp ha
    have hkept := (mem_filter.mp ha).2
    rw [hidentity, hcontact, eq_of_beq hshard] at hkept
    simp at hkept
  | expireOldBindings identity callId cseq => exact h.sublist (filter_sublist.filter _)
  | expireAllBindings identity callId cseq => exact h.sublist (filter_sublist.filter _)

theorem foreign_filter {p : RegBinding → Bool}
    (hp : ∀ d, p d = false → d.shardId = s.shardId ∧ d.identity ∈ identities) :
    foreign identities { s with docs := s.docs.filter p } = foreign identities s := by
  rw [foreign, foreign, filter_filter]
  refine filter_congr fun d _ => ?_
  cases hd : p d with
  | true => rw [Bool.and_true]
  | false =>
    obtain ⟨hshard, hidentity⟩ := hp d hd
    simp [hshard, hidentity]

theorem foreign_append {docs : List RegBinding} {b : RegBinding} (hshard : b.shardId = s.shardId)
    (hb : b.identity ∈ identities) :
    foreign identities { s with docs := docs ++ [b] } =
      foreign identities { s with docs := docs } := by
  rw [foreign, foreign, filter_append]
  simp [hshard, hb]

/-- A write for one of the identities leaves the others alone. -/
theorem foreign_onStore (hw : w.identity ∈ identities) :
    foreign identities (w.onStore s) = foreign identities s := by
  cases w with
  | updateBinding clock b =>
    refine Eq.trans (foreign_append (s := s) ?_ ?_) (foreign_filter fun d hd => ?_)
    · rfl
    · exact hw
    simp only [Bool.not_eq_false', Bool.and_eq_true, beq_iff_eq] at hd
    exact ⟨hd.2, hd.1.1 ▸ hw⟩
  | expireOldBindings identity callId cseq =>
    refine foreign_filter fun d hd => ?_
    simp only [Bool.not_eq_false', Bool.and_eq_true, beq_iff_eq] at hd
    exact ⟨hd.2, hd.1.1.1 ▸ hw⟩
  | expireAllBindings identity callId cseq =>
    refine foreign_filter fun d hd => ?_
    simp only [Bool.not_eq_false', Bool.and_eq_true, beq_iff_eq] at hd
    exact ⟨hd.1, hd.2 ▸ hw⟩

/-! ## Runs -/

/-- All writes of a request are for its address of record. -/
theorem identity_of_mem_writesOf {server : Server} {step : Step} :
    ∀ w ∈ writesOf server step, w.identity = step.env.toUrl.getIdentity := by
  intro w hw
  rw [writesOf] at hw
  obtain ⟨-, hwrites⟩ | ⟨-, hwrites, -⟩ | ⟨-, -, -, hwrites⟩ |
    ⟨-, -, -, -, ⟨collected, longest, hall, -, hregs⟩, hwrites⟩ :=
    applyRegisterToDirectory_cases server step.env { global := ⟨0, []⟩ } step.req
  all_goals rw [hwrites] at hw
  · exact absurd hw not_mem_nil
  · exact absurd hw not_mem_nil
  · rw [mem_singleton.mp hw]
    rfl
  · rcases mem_append.mp hw with hw | hw
    · rw [hregs] at hw
      obtain ⟨i, hi, rfl⟩ := mem_mapIdx.mp hw
      obtain ⟨b, hb, heq⟩ := mem_map.mp (getElem_mem hi)
      obtain ⟨contact, -, hcollected⟩ := exists_collected hall hb
      exact heq ▸ (hcollected.bindingFor _ _).identity
    · rw [mem_singleton.mp hw]
      rfl

/-- What every write for one of the identities keeps, a run keeps. -/
theorem run_keeps {server : Server} {Inv : Store → Prop}
    (hwrite : ∀ (s : Store) (w : Write), w.identity ∈ identities → Inv s → Inv (w.onStore s)) :
    ∀ (steps : List Step) (db : RegDB), (∀ s ∈ steps, s.env.toUrl.getIdentity ∈ identities) →
      Inv db.writeStore → Inv (run server db steps).writeStore := by
  intro steps
  induction steps with
  | nil => exact fun _ _ h => h
  | cons step steps ih =>
    intro db hsteps h
    obtain ⟨hstep, hrest⟩ := forall_mem_cons.mp hsteps
    refine ih (process server db step) hrest ?_
    rw [writeStore_process]
    refine foldlRecOn _ _ h fun s hs w hw => hwrite s w ?_ hs
    rw [identity_of_mem_writesOf w hw]
    exact hstep

/-- **What a registrar keeps** over every sequence of requests. -/
theorem run_keepsCollection (server : Server) (db : RegDB) (steps : List Step) :
    (OncePerContact db.writeStore → OncePerContact (run server db steps).writeStore) ∧
      foreign (steps.map (·.env.toUrl.getIdentity)) (run server db steps).writeStore =
        foreign (steps.map (·.env.toUrl.getIdentity)) db.writeStore := by
  have hsteps (s : Step) (hs : s ∈ steps) :
      s.env.toUrl.getIdentity ∈ steps.map (·.env.toUrl.getIdentity) :=
    mem_map.mpr ⟨s, hs, rfl⟩
  refine ⟨run_keeps (fun s w _ h => h.onStore) steps db hsteps, ?_⟩
  exact @run_keeps _ server (fun s => foreign _ s = foreign _ db.writeStore)
    (fun s w hw h => (foreign_onStore hw).trans h) steps db hsteps rfl

/-- Bindings of another identity, and of the identity in another shard. -/
def otherBindings : List RegBinding :=
  [{ identity := text "201@example.com", callId := text "b@1", contact := text "<sip:201@10.0.0.2>",
      shardId := 1 },
    { identity := text "200@example.com", callId := text "a@1", contact := text "<sip:200@10.0.0.1>",
      shardId := 2 }]

/-- A phone that repeats a request has one document of the shard, and the others stay. -/
theorem run_keepsCollection_repeated :
    let steps := [testStep 1 (text "<sip:200@10.0.0.1>"), testStep 2 (text "<sip:200@10.0.0.1>")]
    let s := (run testServer { global := ⟨1, otherBindings⟩ } steps).writeStore
    OncePerContact s ∧ foreign (steps.map (·.env.toUrl.getIdentity)) s = otherBindings := by
  intro steps s
  obtain ⟨honce, hforeign⟩ := run_keepsCollection testServer { global := ⟨1, otherBindings⟩ } steps
  refine ⟨honce ?_, hforeign.trans (by decide)⟩
  unfold OncePerContact
  decide

/-! ## Two collections -/

open RegDB

/-- A write goes to the local collection, and is of its shard. -/
theorem distributed_apply {db : RegDB} (h : Distributed db s) (w : Write) :
    Distributed (w.apply db) (w.onStore s) := by
  cases w with
  | updateBinding clock b =>
    refine ⟨?_, fun d hd => ?_, ?_⟩
    · simp [Write.apply, RegDB.updateBinding, modifyStore, h.regional, Write.onStore]
    · rcases mem_append.mp hd with hd | hd
      · exact h.own d (mem_of_mem_filter hd)
      · rw [mem_singleton.mp hd]
        rfl
    · simpa [Write.apply, RegDB.updateBinding, modifyStore, h.regional] using h.others
  | expireOldBindings identity callId cseq =>
    refine ⟨?_, fun d hd => h.own d (mem_of_mem_filter hd), ?_⟩
    · simp [Write.apply, RegDB.expireOldBindings, modifyStore, h.regional, Write.onStore]
    · simpa [Write.apply, RegDB.expireOldBindings, modifyStore, h.regional] using h.others
  | expireAllBindings identity callId cseq =>
    refine ⟨?_, fun d hd => h.own d (mem_of_mem_filter hd), ?_⟩
    · simp [Write.apply, RegDB.expireAllBindings, modifyStore, h.regional, Write.onStore]
    · simpa [Write.apply, RegDB.expireAllBindings, modifyStore, h.regional] using h.others

theorem exists_distributed_run {server : Server} (steps : List Step) :
    ∀ {db : RegDB} {s : Store}, Distributed db s → ∃ s', Distributed (run server db steps) s' := by
  have hwrites (writes : List Write) : ∀ {db : RegDB} {s : Store}, Distributed db s →
      Distributed (applyWrites db writes) (writes.foldl Write.onStore s) := by
    induction writes with
    | nil => exact fun h => h
    | cons w writes ih => exact fun h => ih (distributed_apply h w)
  induction steps with
  | nil => exact fun h => ⟨_, h⟩
  | cons step steps ih => exact fun h => ih (hwrites _ h)

/-- **The lookup by user** answers as on one collection, whatever requests have come in. -/
theorem run_lookupTransparent (server : Server) {db : RegDB} (h : Distributed db s)
    (steps : List Step) (identity : Text) (timeNow : Nat) :
    LookupTransparent (run server db steps) (userQuery identity timeNow)
      (UserAnswers identity timeNow) := by
  obtain ⟨s', hrun⟩ := @exists_distributed_run server steps db s h
  exact getUnexpiredContactsUser_transparent hrun identity timeNow

theorem run_lookupTransparent_homeAndAway :
    LookupTransparent (run testServer homeAndAway [testStep 1 (text "<sip:200@10.0.0.2>")])
      (userQuery (text "200@example.com") 200) (UserAnswers (text "200@example.com") 200) :=
  run_lookupTransparent testServer distributed_homeAndAway _ _ _

end SipRegistrarServer

end SipXRouter
