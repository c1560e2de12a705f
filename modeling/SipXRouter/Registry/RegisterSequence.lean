import SipXRouter.Registry.SipRegistrarServer

/-!
# Runs of REGISTER requests

Requests of one address of record and one Call-Id arrive in some order.  The
sequence check of the registrar lets every request pass, so that the bindings it
keeps depend on that order.
-/

namespace SipXRouter

open List

namespace SipRegistrarServer

/-- A request with its surroundings. -/
structure Step where
  env : Surroundings
  req : RegisterRequest

variable (server : Server) (identity callId : Text)

/-- One request on the database. -/
def process (db : RegDB) (step : Step) : RegDB :=
  applyWrites db (applyRegisterToDirectory server step.env db step.req).writes

/-- A sequence of requests on the database. -/
def run (db : RegDB) (steps : List Step) : RegDB := steps.foldl (process server) db

def ofCall (d : RegBinding) : Bool := d.identity == identity && d.callId == callId

/-- The bindings stored for the identity with the Call-Id. -/
def stored (db : RegDB) : List RegBinding := db.writeStore.docs.filter (ofCall identity callId)

/-- The database with no documents in the collection that is written. -/
def emptied (db : RegDB) : RegDB := db.modifyStore fun s => { s with docs := [] }

/-- The bindings that a request by itself produces. -/
def producedBy (db : RegDB) (step : Step) : List RegBinding :=
  stored identity callId (process server (emptied db) step)

/-- Whether a request is applied. -/
def applied (step : Step) : Bool :=
  (applyRegisterToDirectory server step.env { global := ⟨0, []⟩ } step.req).status == .success

/-- `step` is the applied request with the highest CSeq. -/
structure IsHighest (steps : List Step) (step : Step) : Prop where
  mem : step ∈ steps
  applied : SipRegistrarServer.applied server step = true
  highest : ∀ s ∈ steps, SipRegistrarServer.applied server s = true → s.req.cseq ≤ step.req.cseq

/-- After each prefix of a run the bindings are those of the applied request with
the highest CSeq, and a request below an applied one is refused. -/
structure StaleNeverWins (db : RegDB) (steps : List Step) : Prop where
  none : ∀ k, (∀ s ∈ steps.take k, applied server s = false) →
    stored identity callId (run server db (steps.take k)) = []
  highest : ∀ k step, IsHighest server (steps.take k) step →
    stored identity callId (run server db (steps.take k)) = producedBy server identity callId db step
  stale : ∀ k step, steps[k]? = some step →
    (∃ s ∈ steps.take k, applied server s = true ∧ step.req.cseq < s.req.cseq) →
    (applyRegisterToDirectory server step.env (run server db (steps.take k)) step.req).status =
        .outOfOrder ∧
      process server (run server db (steps.take k)) step = run server db (steps.take k)

/-- The requests of a run: of one identity and Call-Id, with distinct CSeqs. -/
structure OneCall (steps : List Step) : Prop where
  identity : ∀ s ∈ steps, s.env.toUrl.getIdentity = identity
  callId : ∀ s ∈ steps, s.req.callId = callId
  distinct : (steps.map (·.req.cseq)).Nodup

/-- No request arrives after an applied one with a higher CSeq. -/
def InOrder (steps : List Step) : Prop :=
  steps.Pairwise fun s s' => applied server s = true → ¬ s'.req.cseq < s.req.cseq

instance (steps : List Step) : Decidable (InOrder server steps) :=
  inferInstanceAs (Decidable (List.Pairwise _ _))

/-! ## One collection -/

section Collection

variable {identity callId} {s t : Store} {cseq : Nat}

/-- The bindings of the call that are not older than a CSeq. -/
def recent (identity callId : Text) (cseq : Nat) (s : Store) : List RegBinding :=
  s.docs.filter fun d => ofCall identity callId d && decide (cseq ≤ d.cseq)

/-- The bindings of the call were written by the shard of the collection. -/
def OwnShard (identity callId : Text) (s : Store) : Prop :=
  ∀ d ∈ s.docs, ofCall identity callId d = true → d.shardId = s.shardId

theorem recent_updateBinding (hshard : s.shardId = t.shardId)
    (hrecent : recent identity callId cseq s = recent identity callId cseq t) (b : RegBinding) :
    recent identity callId cseq (s.updateBinding b) =
      recent identity callId cseq (t.updateBinding b) := by
  simp only [recent, Store.updateBinding, filter_append] at hrecent ⊢
  rw [filter_comm, hrecent, ← filter_comm, hshard]

theorem OwnShard.updateBinding (h : OwnShard identity callId s) (b : RegBinding) :
    OwnShard identity callId (s.updateBinding b) := by
  intro d hd hcall
  simp only [Store.updateBinding, mem_append, mem_filter, mem_singleton] at hd
  rcases hd with ⟨hd, -⟩ | rfl
  · exact h d hd hcall
  · rfl

theorem filter_expireOldBindings (h : OwnShard identity callId s) :
    (s.expireOldBindings identity callId cseq).docs.filter (ofCall identity callId) =
      recent identity callId cseq s := by
  rw [Store.expireOldBindings, recent, filter_filter]
  refine filter_congr fun d hd => ?_
  by_cases hcall : ofCall identity callId d = true
  · have hown := h d hd hcall
    simp only [ofCall, Bool.and_eq_true, beq_iff_eq] at hcall
    simp [ofCall, hcall, hown, ← decide_not]
  · simp [Bool.not_eq_true _ ▸ hcall]

/-- No binding of the call is as new as the number. -/
def Below (identity callId : Text) (cseq : Nat) (s : Store) : Prop :=
  ∀ d ∈ s.docs, ofCall identity callId d = true → d.cseq < cseq

theorem Below.updateBinding (h : Below identity callId cseq s) {b : RegBinding}
    (hb : b.cseq < cseq) : Below identity callId cseq (s.updateBinding b) := by
  intro d hd hcall
  simp only [Store.updateBinding, mem_append, mem_filter, mem_singleton] at hd
  rcases hd with ⟨hd, -⟩ | rfl
  · exact h d hd hcall
  · exact hb

theorem Below.recent_eq_nil (h : Below identity callId cseq s) :
    recent identity callId cseq s = [] := by
  rw [recent, filter_eq_nil_iff]
  intro d hd hcall
  simp only [Bool.and_eq_true, decide_eq_true_eq] at hcall
  exact absurd (h d hd hcall.1) (Nat.not_lt.mpr hcall.2)

theorem filter_expireAllBindings (h : OwnShard identity callId s) :
    (s.expireAllBindings identity).docs.filter (ofCall identity callId) = [] := by
  rw [filter_eq_nil_iff]
  intro d hd hcall
  simp only [Store.expireAllBindings, mem_filter] at hd
  have hown := h d hd.1 hcall
  simp only [ofCall, Bool.and_eq_true, beq_iff_eq] at hcall
  simp [hown, hcall] at hd

end Collection

/-! ## One request -/

section Request

variable {server identity callId} {db : RegDB} {step : Step}

/-- What a write does to the collection that is written. -/
def Write.onStore (s : Store) : Write → Store
  | updateBinding clock b => s.updateBinding (b.completed clock)
  | expireOldBindings identity callId cseq => s.expireOldBindings identity callId cseq
  | expireAllBindings identity _ _ => s.expireAllBindings identity

theorem writeStore_applyWrites (writes : List Write) :
    ∀ db : RegDB, (applyWrites db writes).writeStore = writes.foldl Write.onStore db.writeStore := by
  induction writes with
  | nil => intro db; rfl
  | cons w writes ih =>
    intro db
    have hw : (Write.apply db w).writeStore = w.onStore db.writeStore := by
      cases w <;> simp [Write.apply, Write.onStore, RegDB.updateBinding, RegDB.expireOldBindings,
        RegDB.expireAllBindings]
    rw [applyWrites, foldl_cons, foldl_cons, ← hw]
    exact ih _

@[simp] theorem onStore_shardId (s : Store) (w : Write) : (w.onStore s).shardId = s.shardId := by
  cases w <;> rfl

theorem foldl_onStore_shardId (writes : List Write) (s : Store) :
    (writes.foldl Write.onStore s).shardId = s.shardId := by
  induction writes generalizing s with
  | nil => rfl
  | cons w writes ih => rw [foldl_cons, ih, onStore_shardId]

/-- The outcome of a call does not depend on the database. -/
theorem applyRegisterToDirectory_eq (db db' : RegDB) (env : Surroundings) (req : RegisterRequest) :
    applyRegisterToDirectory server env db req = applyRegisterToDirectory server env db' req :=
  rfl

/-- The writes of a request. -/
def writesOf (server : Server) (step : Step) : List Write :=
  (applyRegisterToDirectory server step.env { global := ⟨0, []⟩ } step.req).writes

theorem writeStore_process (db : RegDB) (step : Step) :
    (process server db step).writeStore = (writesOf server step).foldl Write.onStore db.writeStore :=
  writeStore_applyWrites _ db

theorem producedBy_eq (db : RegDB) (step : Step) : producedBy server identity callId db step =
    ((writesOf server step).foldl Write.onStore ⟨db.writeStore.shardId, []⟩).docs.filter
      (ofCall identity callId) := by
  rw [producedBy, stored, writeStore_process, emptied, RegDB.writeStore_modifyStore]

theorem process_of_not_applied (h : applied server step = false) : process server db step = db := by
  obtain ⟨-, hwrites⟩ | ⟨-, hwrites, -⟩ | ⟨hsuccess, -⟩ | ⟨hsuccess, -⟩ :=
    applyRegisterToDirectory_cases server step.env db step.req
  · rw [process, hwrites]
    rfl
  · rw [process, hwrites]
    rfl
  all_goals
    rw [applyRegisterToDirectory_eq db { global := ⟨0, []⟩ }] at hsuccess
    simp [applied, hsuccess] at h

/-- What a request writes: one removal of all, or updates and then the removal of the old. -/
theorem writesOf_cases (h : applied server step = true)
    (hid : step.env.toUrl.getIdentity = identity) (hcall : step.req.callId = callId) :
    writesOf server step = [.expireAllBindings identity callId step.req.cseq] ∨
    ∃ updates, writesOf server step =
        updates ++ [.expireOldBindings identity callId step.req.cseq] ∧
      ∀ w ∈ updates, ∃ clock b, w = .updateBinding clock b ∧ b.cseq = step.req.cseq := by
  have hsuccess : (applyRegisterToDirectory server step.env { global := ⟨0, []⟩ } step.req).status =
      .success := by simpa [applied] using h
  obtain ⟨hstatus, -⟩ | ⟨hstatus, -⟩ | ⟨-, -, -, hwrites⟩ |
    ⟨-, -, -, -, ⟨collected, longest, hall, -, hregs⟩, hwrites⟩ :=
    applyRegisterToDirectory_cases server step.env { global := ⟨0, []⟩ } step.req
  · simp [hsuccess] at hstatus
  · simp [hsuccess] at hstatus
  · exact Or.inl (by rw [writesOf, hwrites, hid, hcall])
  · have hcseq : ∀ b ∈ (applyRegisterToDirectory server step.env { global := ⟨0, []⟩ }
        step.req).registrations, b.cseq = step.req.cseq := by
      intro b hb
      rw [hregs] at hb
      obtain ⟨b₀, hb₀, rfl⟩ := mem_map.mp hb
      obtain ⟨contact, -, hcollected⟩ := exists_collected hall hb₀
      exact (hcollected.bindingFor _ _).cseq
    refine Or.inr ⟨_, by rw [writesOf, hwrites, hid, hcall], ?_⟩
    intro w hw
    obtain ⟨i, hi, rfl⟩ := mem_mapIdx.mp hw
    exact ⟨_, _, rfl, hcseq _ (getElem_mem hi)⟩

theorem recent_updates {updates : List Write} {cseq : Nat}
    (hupdates : ∀ w ∈ updates, ∃ clock b, w = .updateBinding clock b ∧ b.cseq = cseq) :
    ∀ {s t : Store}, s.shardId = t.shardId →
      recent identity callId cseq s = recent identity callId cseq t →
      recent identity callId cseq (updates.foldl Write.onStore s) =
        recent identity callId cseq (updates.foldl Write.onStore t) := by
  induction updates with
  | nil => intro s t _ hrecent; exact hrecent
  | cons w updates ih =>
    intro s t hshard hrecent
    obtain ⟨clock, b, rfl, -⟩ := hupdates w (by simp)
    refine ih (fun w hw => hupdates w (by simp [hw])) ?_ ?_
    · simpa using hshard
    · exact recent_updateBinding hshard hrecent _

theorem OwnShard.updates {updates : List Write} {cseq : Nat}
    (hupdates : ∀ w ∈ updates, ∃ clock b, w = .updateBinding clock b ∧ b.cseq = cseq) :
    ∀ {s : Store}, OwnShard identity callId s → Below identity callId (cseq + 1) s →
      OwnShard identity callId (updates.foldl Write.onStore s) ∧
        Below identity callId (cseq + 1) (updates.foldl Write.onStore s) := by
  induction updates with
  | nil => intro s hown hbelow; exact ⟨hown, hbelow⟩
  | cons w updates ih =>
    intro s hown hbelow
    obtain ⟨clock, b, rfl, hcseq⟩ := hupdates w (by simp)
    refine ih (fun w hw => hupdates w (by simp [hw])) (hown.updateBinding _)
      (hbelow.updateBinding ?_)
    exact hcseq.trans_lt (Nat.lt_succ_self cseq)

/-- **One request.**  On a database in which the bindings of the call are its own and
older, an applied request leaves for the call exactly what it leaves on an empty
database; and these are its own again, and not newer. -/
theorem stored_process (hid : step.env.toUrl.getIdentity = identity)
    (hcall : step.req.callId = callId) (happlied : applied server step = true)
    (hown : OwnShard identity callId db.writeStore)
    (hbelow : Below identity callId step.req.cseq db.writeStore) :
    stored identity callId (process server db step) = producedBy server identity callId db step ∧
      OwnShard identity callId (process server db step).writeStore ∧
      Below identity callId (step.req.cseq + 1) (process server db step).writeStore := by
  have hbelow' : Below identity callId (step.req.cseq + 1) db.writeStore :=
    fun d hd h => Nat.lt_succ_of_lt (hbelow d hd h)
  rw [producedBy_eq, stored, writeStore_process]
  rcases writesOf_cases happlied hid hcall with hwrites | ⟨updates, hwrites, hupdates⟩
  · rw [hwrites]
    refine ⟨?_, ?_, ?_⟩
    · simp only [foldl_cons, foldl_nil, Write.onStore]
      rw [filter_expireAllBindings hown]
      rfl
    · intro d hd h
      exact hown d (mem_of_mem_filter hd) h
    · intro d hd h
      exact hbelow' d (mem_of_mem_filter hd) h
  · rw [hwrites]
    simp only [foldl_append, foldl_cons, foldl_nil, Write.onStore]
    obtain ⟨hown', hbelow''⟩ := OwnShard.updates hupdates hown hbelow'
    have hempty := OwnShard.updates hupdates
      (show OwnShard identity callId ⟨db.writeStore.shardId, []⟩ from fun d hd => by simp at hd)
      (fun d hd => by simp at hd)
    refine ⟨?_, ?_, ?_⟩
    · rw [filter_expireOldBindings hown', filter_expireOldBindings hempty.1]
      exact recent_updates hupdates rfl (by rw [hbelow.recent_eq_nil]; rfl)
    · intro d hd h
      exact hown' d (mem_of_mem_filter hd) h
    · intro d hd h
      exact hbelow'' d (mem_of_mem_filter hd) h

end Request

/-! ## Runs -/

section Runs

variable {server identity callId} {db : RegDB} {steps : List Step}

theorem OneCall.sublist {steps' : List Step} (h : OneCall identity callId steps)
    (hsub : Sublist steps' steps) : OneCall identity callId steps' where
  identity s hs := h.identity s (hsub.subset hs)
  callId s hs := h.callId s (hsub.subset hs)
  distinct := h.distinct.sublist (hsub.map _)

theorem OneCall.eq_of_cseq (h : OneCall identity callId steps) {s s' : Step} (hs : s ∈ steps)
    (hs' : s' ∈ steps) (hcseq : s.req.cseq = s'.req.cseq) : s = s' :=
  inj_on_of_nodup_map h.distinct hs hs' hcseq

/-- **A run in order.**  The bindings of the call are what the last applied request
leaves on an empty database. -/
theorem stored_run (hstart : stored identity callId db = []) (steps : List Step) :
    OneCall identity callId steps → InOrder server steps →
      OwnShard identity callId (run server db steps).writeStore ∧
      (run server db steps).writeStore.shardId = db.writeStore.shardId ∧
      (∀ d ∈ stored identity callId (run server db steps),
        ∃ s ∈ steps, applied server s = true ∧ d.cseq ≤ s.req.cseq) ∧
      stored identity callId (run server db steps) =
        ((steps.filter (applied server)).getLast?).elim []
          (producedBy server identity callId db) := by
  induction steps using reverseRecOn with
  | nil =>
    intro _ _
    have hnone : ∀ d ∈ db.writeStore.docs, ofCall identity callId d ≠ true :=
      filter_eq_nil_iff.mp hstart
    refine ⟨fun d hd h => absurd h (hnone d hd), rfl, ?_, hstart⟩
    intro d hd
    rw [run, foldl_nil, hstart] at hd
    simp at hd
  | append_singleton steps step ih =>
    intro hone horder
    obtain ⟨hbefore, -, hlast⟩ := pairwise_append.mp horder
    obtain ⟨hown, hshard, hcseq, hstored⟩ :=
      ih (hone.sublist (sublist_append_left _ _)) hbefore
    have hrun : run server db (steps ++ [step]) = process server (run server db steps) step := by
      simp [run]
    rw [hrun]
    by_cases happlied : applied server step = true
    · -- all that is stored is older than the request that arrives
      have hbelow : Below identity callId step.req.cseq (run server db steps).writeStore := by
        intro d hd h
        obtain ⟨s, hs, hsa, hle⟩ := hcseq d (mem_filter.mpr ⟨hd, h⟩)
        have hnot := hlast s hs step (by simp) hsa
        have hne : s.req.cseq ≠ step.req.cseq := by
          have hdistinct := hone.distinct
          rw [map_append, nodup_append] at hdistinct
          exact hdistinct.2.2 _ (mem_map_of_mem hs) _ (by simp)
        omega
      obtain ⟨hproduced, hown', hbelow'⟩ := stored_process (hone.identity step (by simp))
        (hone.callId step (by simp)) happlied hown hbelow
      refine ⟨hown', ?_, ?_, ?_⟩
      · rw [writeStore_process, foldl_onStore_shardId, hshard]
      · intro d hd
        obtain ⟨hd, h⟩ := mem_filter.mp hd
        exact ⟨step, by simp, happlied, Nat.lt_succ_iff.mp (hbelow' d hd h)⟩
      · rw [hproduced, producedBy_eq, hshard, ← producedBy_eq, filter_append]
        simp [happlied]
    · have hfalse : applied server step = false := by simpa using happlied
      rw [process_of_not_applied hfalse]
      refine ⟨hown, hshard, ?_, ?_⟩
      · intro d hd
        obtain ⟨s, hs, h⟩ := hcseq d hd
        exact ⟨s, by simp [hs], h⟩
      · simpa [filter_append, hfalse] using hstored

theorem getLast?_of_isHighest {step : Step} (h : IsHighest server steps step)
    (hone : OneCall identity callId steps) (horder : InOrder server steps) :
    (steps.filter (applied server)).getLast? = some step := by
  have hmem : step ∈ steps.filter (applied server) := mem_filter.mpr ⟨h.mem, h.applied⟩
  obtain ⟨before, last, hsplit⟩ : ∃ before last, steps.filter (applied server) = before ++ [last] :=
    ⟨_, _, (dropLast_append_getLast (ne_nil_of_mem hmem)).symm⟩
  have hlast : last ∈ steps.filter (applied server) := by simp [hsplit]
  obtain ⟨hlastmem, hlastapplied⟩ := mem_filter.mp hlast
  have hle := h.highest last hlastmem hlastapplied
  have hge : step.req.cseq ≤ last.req.cseq := by
    have hpair := horder.sublist (filter_sublist (p := applied server))
    rw [hsplit, pairwise_append] at hpair
    rw [hsplit, mem_append, mem_singleton] at hmem
    rcases hmem with hmem | rfl
    · exact not_lt.mp (hpair.2.2 step hmem last (by simp) h.applied)
    · exact le_refl _
  rw [hsplit, getLast?_concat, hone.eq_of_cseq hlastmem h.mem (le_antisymm hle hge)]

/-- **Stale requests never win exactly in the runs in which none arrives**: no
request after an applied one with a higher CSeq. -/
theorem staleNeverWins_iff (hone : OneCall identity callId steps)
    (hstart : stored identity callId db = []) :
    StaleNeverWins server identity callId db steps ↔ InOrder server steps := by
  constructor
  · intro h
    rw [InOrder, pairwise_iff_getElem]
    intro i j hi hj hij happlied hlt
    have hmem : steps[i] ∈ steps.take j := mem_take_iff_getElem.mpr ⟨i, by omega, rfl⟩
    obtain ⟨hstatus, -⟩ := h.stale j steps[j] (getElem?_eq_getElem hj)
      ⟨_, hmem, happlied, hlt⟩
    -- no call ends so
    obtain ⟨hcase, -⟩ | ⟨hcase, -⟩ | ⟨hcase, -⟩ | ⟨hcase, -⟩ :=
      applyRegisterToDirectory_cases server steps[j].env (run server db (steps.take j))
        steps[j].req
    all_goals simp [hstatus] at hcase
  · intro horder
    have hrun : ∀ k, stored identity callId (run server db (steps.take k)) =
        (((steps.take k).filter (applied server)).getLast?).elim []
          (producedBy server identity callId db) := fun k =>
      (stored_run hstart _ (hone.sublist (take_sublist _ _))
        (horder.sublist (take_sublist _ _))).2.2.2
    refine ⟨?_, ?_, ?_⟩
    · intro k hnone
      have hempty : (steps.take k).filter (applied server) = [] := by
        rw [filter_eq_nil_iff]
        intro s hs
        simp [hnone s hs]
      rw [hrun, hempty]
      rfl
    · intro k step hhighest
      rw [hrun, getLast?_of_isHighest hhighest (hone.sublist (take_sublist _ _))
        (horder.sublist (take_sublist _ _))]
      rfl
    · rintro k step hstep ⟨s, hs, happlied, hlt⟩
      obtain ⟨i, hi, rfl⟩ := mem_take_iff_getElem.mp hs
      obtain ⟨hk, rfl⟩ := List.getElem?_eq_some_iff.mp hstep
      have hpair := pairwise_iff_getElem.mp horder i k (by omega) hk (by omega)
      exact absurd hlt (hpair happlied)

/-- A request of one phone for a contact, with a CSeq. -/
def testStep (cseq : Nat) (contact : Text) : Step where
  env := testSurroundings
  req := { callId := text "a@1", cseq := cseq, contacts := [contact] }

theorem staleNeverWins_in_order :
    InOrder testServer [testStep 1 (text "<sip:200@10.0.0.1>"), testStep 2 (text "<sip:200@10.0.0.2>")] ∧
      StaleNeverWins testServer (text "200@example.com") (text "a@1") { global := ⟨1, []⟩ }
        [testStep 1 (text "<sip:200@10.0.0.1>"), testStep 2 (text "<sip:200@10.0.0.2>")] := by
  have horder : InOrder testServer
      [testStep 1 (text "<sip:200@10.0.0.1>"), testStep 2 (text "<sip:200@10.0.0.2>")] := by
    simp [InOrder, testStep]
  refine ⟨horder, (staleNeverWins_iff ⟨?_, ?_, ?_⟩ rfl).mpr horder⟩
  · intro s hs
    fin_cases hs <;> decide
  · intro s hs
    fin_cases hs <;> rfl
  · decide

/-- The request with the lower CSeq arrives last and is applied. -/
theorem reordered_register_wins :
    ¬ StaleNeverWins testServer (text "200@example.com") (text "a@1") { global := ⟨1, []⟩ }
      [testStep 2 (text "<sip:200@10.0.0.2>"), testStep 1 (text "<sip:200@10.0.0.1>")] := by
  intro h
  have happlied : applied testServer (testStep 2 (text "<sip:200@10.0.0.2>")) = true := by
    decide +kernel
  obtain ⟨hstatus, -⟩ := h.stale 1 (testStep 1 (text "<sip:200@10.0.0.1>")) rfl
    ⟨_, by simp, happlied, by decide⟩
  revert hstatus
  decide +kernel

end Runs

end SipRegistrarServer

end SipXRouter
