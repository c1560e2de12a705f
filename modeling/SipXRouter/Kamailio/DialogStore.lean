import SipXRouter.Run
import SipXRouter.Kamailio.DialogCollator

/-!
# Runs of the dialog collator

The entries over any sequence of calls.  A leg is a user, a domain, a Call-Id and two tags;
its entry stands under a key in which these texts follow each other.
-/

namespace SipXRouter.Kamailio

open List

/-- A leg of a dialog. -/
structure Leg where
  user : Text
  domain : Text
  callId : Text
  remoteTag : Text
  localTag : Text
  deriving DecidableEq

def Leg.of (user domain : Text) (d : Dialog) : Leg := ⟨user, domain, d.callId, d.remoteTag, d.localTag⟩

/-- The key of the leg's entry. -/
def Leg.key (l : Leg) : Text :=
  entryKey l.user l.domain { callId := l.callId, remoteTag := l.remoteTag, localTag := l.localTag }

/-- A call of `collateAndAggregatePayloads`. -/
structure Call where
  it : Iteration
  user : Text
  domain : Text
  payloads : List Payload

/-- The entries after a call. -/
def Call.store (redis : Table) (c : Call) : Table :=
  (collateAndAggregatePayloads c.it redis c.user c.domain c.payloads).1

/-- The document that one call hands out. -/
def Call.document (redis : Table) (c : Call) : Payload :=
  (collateAndAggregatePayloads c.it redis c.user c.domain c.payloads).2

/-- The entries after a run that begins with none. -/
def stored (calls : List Call) : Table := calls.foldl Call.store ∅

/-- The legs of the payloads. -/
def Call.legs (c : Call) : List Leg :=
  (c.payloads.filterMap readPayload).map fun i => Leg.of c.user c.domain i.dialog

/-- What is stored for a leg, if the entry under its key is of this leg. -/
def entry (redis : Table) (l : Leg) : Option DialogInfo :=
  (redis.lookup l.key).filter fun i => Leg.of l.user l.domain i.dialog = l

/-- Payloads have at most one dialog each, a key stands for one leg, and a search finds no leg of another
user or domain. -/
structure Separate (calls : List Call) : Prop where
  oneDialog : ∀ c ∈ calls, ∀ payload ∈ c.payloads, AtMostOneDialog payload
  key_inj : ∀ l ∈ calls.flatMap Call.legs, ∀ l' ∈ calls.flatMap Call.legs, l.key = l'.key → l = l'
  search : ∀ c ∈ calls, ∀ l ∈ calls.flatMap Call.legs,
    Glob.covers (searchPattern c.user c.domain) l.key = true → l.user = c.user ∧ l.domain = c.domain

/-- How the entries of the legs develop over a run. -/
structure Kept (calls : List Call) : Prop where
  /-- The state of a leg does not go back. -/
  forward : ∀ earlier between later, calls = earlier ++ between ++ later → ∀ l i,
    entry (stored earlier) l = some i → ∃ j, entry (stored (earlier ++ between)) l = some j ∧
      getPriorityByState i.dialog.state ≤ getPriorityByState j.dialog.state
  /-- A leg is not reported in a state that it has left behind. -/
  reported : ∀ earlier c later, calls = earlier ++ c :: later → ∀ l i,
    entry (stored earlier) l = some i → l.user = c.user → l.domain = c.domain →
    ∀ doc, c.document (stored earlier) = some doc → ∀ d ∈ doc.dialogs, d.callId = some l.callId →
      d.remoteTag = some l.remoteTag → d.localTag = some l.localTag →
      ∃ state, d.state = some state ∧ getPriorityByState i.dialog.state ≤ getPriorityByState state
  /-- Each leg has an entry of its own. -/
  own : ∀ earlier later, calls = earlier ++ later → ∀ l ∈ earlier.flatMap Call.legs,
    ∃ i, entry (stored earlier) l = some i
  /-- A call leaves the legs of other users and domains as they are. -/
  frame : ∀ earlier c later, calls = earlier ++ c :: later → ∀ l i, entry (stored earlier) l = some i →
    l ∈ earlier.flatMap Call.legs → (l.user ≠ c.user ∨ l.domain ≠ c.domain) →
    entry (c.store (stored earlier)) l = some i

/-! ## Entries under separate keys -/

section Entries

variable {legs : List Leg} {user domain : Text} {redis redis' : Table} {P : DialogInfo → Prop}

/-- Every entry is that of a leg. -/
def Entries (legs : List Leg) (redis : Table) : Prop :=
  ∀ key i, redis.lookup key = some i →
    Sound i ∧ ∃ l ∈ legs, l.key = key ∧ Leg.of l.user l.domain i.dialog = l

/-- No entry is lost, and none goes back. -/
def Forward (redis redis' : Table) : Prop :=
  ∀ key i, redis.lookup key = some i → ∃ j, redis'.lookup key = some j ∧
    getPriorityByState i.dialog.state ≤ getPriorityByState j.dialog.state

theorem forward_of_writes (h : Writes user domain P redis redis') : Forward redis redis' := by
  induction h with
  | refl => exact fun key i hi => ⟨i, hi, le_rfl⟩
  | tail _ hlast ih =>
    intro key i hi
    obtain ⟨j, hj, hij⟩ := ih key i hi
    obtain ⟨k, -, hbelow, rfl⟩ := hlast
    by_cases hkey : key = entryKey user domain k.dialog
    · subst hkey
      exact ⟨k.stored, AList.lookup_insert _, hij.trans (hbelow j hj)⟩
    · exact ⟨j, (AList.lookup_insert_ne hkey).trans hj, hij⟩

theorem entries_of_writes (hentries : Entries legs redis)
    (hP : ∀ i, P i → Sound i ∧ Leg.of user domain i.dialog ∈ legs)
    (h : Writes user domain P redis redis') : Entries legs redis' := by
  induction h with
  | refl => exact hentries
  | tail _ hlast ih =>
    intro key i hi
    obtain ⟨k, hk, -, rfl⟩ := hlast
    obtain ⟨hsound, hleg⟩ := hP k hk
    by_cases hkey : key = entryKey user domain k.dialog
    · subst hkey
      obtain rfl := Option.some.inj ((AList.lookup_insert _).symm.trans hi)
      exact ⟨hsound.stored, _, hleg, rfl, rfl⟩
    · exact ih key i ((AList.lookup_insert_ne hkey).symm.trans hi)

theorem lookup_of_writes {key : Text} (h : Writes user domain P redis redis')
    (hkey : ∀ i, P i → entryKey user domain i.dialog ≠ key) : redis'.lookup key = redis.lookup key := by
  induction h with
  | refl => rfl
  | tail _ hlast ih =>
    obtain ⟨k, hk, -, rfl⟩ := hlast
    exact (AList.lookup_insert_ne (hkey k hk).symm).trans ih

end Entries

/-! ## One call -/

variable {i : DialogInfo} {l : Leg}

section Call

variable {legs : List Leg} {c : Call} {redis : Table}

/-- What the entries of a call have in common. -/
def InCall (legs : List Leg) (c : Call) (redis : Table) (i : DialogInfo) : Prop :=
  Sound i ∧ Leg.of c.user c.domain i.dialog ∈ legs ∧ NotBelow c.user c.domain redis i

/-- The conditions on one call among those of a run. -/
structure SeparateCall (legs : List Leg) (c : Call) : Prop where
  oneDialog : ∀ payload ∈ c.payloads, AtMostOneDialog payload
  legs_subset : ∀ l ∈ c.legs, l ∈ legs
  key_inj : ∀ l ∈ legs, ∀ l' ∈ legs, l.key = l'.key → l = l'
  search : ∀ l ∈ legs, Glob.covers (searchPattern c.user c.domain) l.key = true →
    l.user = c.user ∧ l.domain = c.domain

theorem NotBelow.of_forward {user domain : Text} {redis redis' : Table}
    (hforward : Forward redis redis') (h : NotBelow user domain redis' i) :
    NotBelow user domain redis i := by
  intro old hold
  obtain ⟨new, hnew, hle⟩ := hforward _ old hold
  exact hle.trans (h new hnew)

theorem notBelow_of_lookup {user domain : Text} {redis : Table}
    (h : redis.lookup (entryKey user domain i.dialog) = some i) : NotBelow user domain redis i := by
  intro old hold
  obtain rfl := Option.some.inj (h.symm.trans hold)
  exact le_rfl

theorem SeparateCall.leg_mem (hc : SeparateCall legs c)
    (hi : i ∈ c.payloads.filterMap readPayload) : Leg.of c.user c.domain i.dialog ∈ legs :=
  hc.legs_subset _ (mem_map.mpr ⟨i, hi, rfl⟩)

theorem SeparateCall.sound (hc : SeparateCall legs c)
    (hi : i ∈ c.payloads.filterMap readPayload) : Sound i := by
  obtain ⟨payload, hmem, hpayload⟩ := mem_filterMap.mp hi
  exact (hc.oneDialog payload hmem).parse (Option.filter_eq_some_iff.mp hpayload).1
    (valid_of_mem_payloads hi)

theorem SeparateCall.closed (hc : SeparateCall legs c) (hentries : Entries legs redis) :
    Closed c.it c.user c.domain c.payloads redis (InCall legs c redis) where
  write i hi r hr hbelow := ⟨hc.sound hi, hc.leg_mem hi, hbelow.of_forward (forward_of_writes hr)⟩
  ignore i hi r hr current hcurrent := by
    have hr' := entries_of_writes hentries (fun _ h => ⟨h.1, h.2.1⟩) hr
    obtain ⟨hsound, l, hl, hkey, hleg⟩ := hr' _ current hcurrent
    obtain rfl := hc.key_inj l hl _ (hc.leg_mem hi) hkey
    have hsame : entryKey c.user c.domain current.dialog = entryKey c.user c.domain i.dialog :=
      congrArg Leg.key hleg
    refine ⟨hsound, hleg.symm ▸ hl, ?_⟩
    exact (notBelow_of_lookup (hsame ▸ hcurrent)).of_forward (forward_of_writes hr)
  find r hr i hi := by
    have hr' := entries_of_writes hentries (fun _ h => ⟨h.1, h.2.1⟩) hr
    obtain ⟨key, hmem, hlookup⟩ := mem_filterMap.mp (mem_filter.mp hi).1
    obtain ⟨hsound, l, hl, rfl, hleg⟩ := hr' key i hlookup
    obtain ⟨huser, hdomain⟩ := hc.search l hl (mem_filter.mp hmem).2
    rw [huser, hdomain] at hleg
    have hkey : entryKey c.user c.domain i.dialog = l.key := congrArg Leg.key hleg
    refine ⟨hsound, hleg.symm ▸ hl, ?_⟩
    exact (notBelow_of_lookup (hkey.symm ▸ hlookup)).of_forward (forward_of_writes hr)
  force i hi rawPayload hupdate := by
    obtain ⟨rawPayload', hupdate', hsound⟩ := hi.1.update
    obtain rfl := Option.some.inj (hupdate.symm.trans hupdate')
    exact ⟨hsound, hi.2.1, notBelow_of_terminated rfl⟩
  sound i hi := hi.1

theorem entry_eq_some :
    entry redis l = some i ↔ redis.lookup l.key = some i ∧ Leg.of l.user l.domain i.dialog = l := by
  rw [entry, Option.filter_eq_some_iff, decide_eq_true_iff]

theorem Leg.of_congr {user domain : Text} {d d' : Dialog} (h : Leg.of user domain d = Leg.of user domain d')
    (user' domain' : Text) : Leg.of user' domain' d = Leg.of user' domain' d' := by
  obtain ⟨-, -, hcallId, hremoteTag, hlocalTag⟩ := Leg.mk.injEq .. ▸ h
  rw [Leg.of, Leg.of, hcallId, hremoteTag, hlocalTag]

theorem entry_of_forward {redis' : Table}
    (hinj : ∀ l ∈ legs, ∀ l' ∈ legs, l.key = l'.key → l = l') (hentries : Entries legs redis)
    (hentries' : Entries legs redis') (hforward : Forward redis redis')
    (hi : entry redis l = some i) : ∃ j, entry redis' l = some j ∧
      getPriorityByState i.dialog.state ≤ getPriorityByState j.dialog.state := by
  obtain ⟨hlookup, hleg⟩ := entry_eq_some.mp hi
  obtain ⟨j, hj, hle⟩ := hforward _ i hlookup
  refine ⟨j, entry_eq_some.mpr ⟨hj, ?_⟩, hle⟩
  obtain ⟨-, l₁, hl₁, hkey₁, hleg₁⟩ := hentries _ i hlookup
  obtain ⟨-, l₂, hl₂, hkey₂, hleg₂⟩ := hentries' _ j hj
  obtain rfl := hinj l₁ hl₁ l₂ hl₂ (hkey₁.trans hkey₂.symm)
  rw [← hleg]
  exact Leg.of_congr (hleg₂.trans hleg₁.symm) l.user l.domain |>.trans (by rw [hleg])

namespace SeparateCall

variable (hc : SeparateCall legs c) (hentries : Entries legs redis)

include hc hentries

theorem writes_store : Writes c.user c.domain (InCall legs c redis) redis (c.store redis) := by
  obtain ⟨hfirst, hrest, -⟩ := (hc.closed hentries).writes_collateAndAggregatePayloads
  exact hfirst.trans hrest

theorem entries_store : Entries legs (c.store redis) :=
  entries_of_writes hentries (fun _ h => ⟨h.1, h.2.1⟩) (hc.writes_store hentries)

theorem forward_store : Forward redis (c.store redis) := forward_of_writes (hc.writes_store hentries)

theorem lookup_collateRemotePayloads {is : List DialogInfo} {r : Table}
    (hr : Writes c.user c.domain (InCall legs c redis) redis r)
    (his : ∀ i ∈ is, i ∈ c.payloads.filterMap readPayload) (hi : i ∈ is) :
    ∃ j, (collateRemotePayloads c.user c.domain r is).1.lookup (entryKey c.user c.domain i.dialog) =
      some j := by
  induction is generalizing r with
  | nil => exact absurd hi not_mem_nil
  | cons first is ih =>
    have hclosed := hc.closed hentries
    have hfirst := his first mem_cons_self
    have hrest := fun j hj => his j (mem_cons_of_mem _ hj)
    obtain ⟨hw, -⟩ := hclosed.writes_collateRemote hr hfirst
    rw [collateRemotePayloads, if_pos (valid_of_mem_payloads hfirst)]
    obtain rfl | hi := mem_cons.mp hi
    · obtain ⟨j, hj⟩ := lookup_collateRemote c.user c.domain r i
      obtain ⟨hothers, -⟩ := hclosed.writes_collateRemotePayloads hrest (hr.trans hw)
      obtain ⟨k, hk, -⟩ := forward_of_writes hothers _ j hj
      exact ⟨k, hk⟩
    · exact ih (hr.trans hw) hrest hi

theorem lookup_store (hl : l ∈ c.legs) : ∃ i, (c.store redis).lookup l.key = some i := by
  obtain ⟨i, hi, rfl⟩ := mem_map.mp hl
  obtain ⟨j, hj, hkey⟩ := exists_mem_collateLocalPayloads c.it c.user c.domain hi
  obtain ⟨k, hk⟩ := hc.lookup_collateRemotePayloads hentries Relation.ReflTransGen.refl
    (fun _ h => mem_payloads_of_mem_collateLocalPayloads h) hj
  obtain ⟨-, hrest, -⟩ := (hc.closed hentries).writes_collateAndAggregatePayloads
  have hsame : entryKey c.user c.domain j.dialog = (Leg.of c.user c.domain i.dialog).key :=
    congrArg (· ++ text ":dialog") hkey
  rw [hsame] at hk
  obtain ⟨k', hk', -⟩ := forward_of_writes hrest _ k hk
  exact ⟨k', hk'⟩

theorem frame_store (hl : l ∈ legs) (hother : l.user ≠ c.user ∨ l.domain ≠ c.domain) :
    entry (c.store redis) l = entry redis l := by
  have hlookup : (c.store redis).lookup l.key = redis.lookup l.key := by
    refine lookup_of_writes (hc.writes_store hentries) fun i hi hkey => ?_
    obtain rfl := hc.key_inj _ hi.2.1 l hl hkey
    exact hother.elim (absurd rfl) (absurd rfl)
  rw [entry, entry, hlookup]

theorem reported_of_entry (hi : entry redis l = some i)
    (huser : l.user = c.user) (hdomain : l.domain = c.domain) {doc : DialogInfoElement}
    (hdoc : c.document redis = some doc) {d : DialogElement} (hd : d ∈ doc.dialogs)
    (hcallId : d.callId = some l.callId) (hremoteTag : d.remoteTag = some l.remoteTag)
    (hlocalTag : d.localTag = some l.localTag) :
    ∃ state, d.state = some state ∧ getPriorityByState i.dialog.state ≤ getPriorityByState state := by
  obtain ⟨-, -, dialogs, hdialogs, hall⟩ := (hc.closed hentries).writes_collateAndAggregatePayloads
  have hshows := shows_generateDialogPayload (fun j hj => (hall j hj).1) (hdialogs.symm.trans hdoc)
  obtain ⟨j, hj, hd⟩ := exists_of_forall₂ hshows hd
  refine ⟨j.dialog.state, hd.state, (hall j hj).2.2 i ?_⟩
  have hkey : entryKey c.user c.domain j.dialog = l.key := by
    rw [← huser, ← hdomain]
    have hsame : Leg.of l.user l.domain j.dialog = l := by
      rw [Leg.of, ← Option.some.inj (hd.callId.symm.trans hcallId |>.symm),
        ← Option.some.inj (hd.remoteTag.symm.trans hremoteTag |>.symm),
        ← Option.some.inj (hd.localTag.symm.trans hlocalTag |>.symm)]
    exact congrArg Leg.key hsame
  rw [hkey]
  exact (entry_eq_some.mp hi).1

end SeparateCall

end Call

/-! ## Whole runs -/

theorem Separate.call {calls : List Call} (h : Separate calls) {c : Call} (hc : c ∈ calls) :
    SeparateCall (calls.flatMap Call.legs) c :=
  ⟨h.oneDialog c hc, fun _ hl => mem_flatMap.mpr ⟨c, hc, hl⟩, h.key_inj, h.search c hc⟩

section Runs

variable {calls : List Call} (h : Separate calls)

include h

theorem entries_foldl {redis : Table} (hentries : Entries (calls.flatMap Call.legs) redis)
    {next : List Call} (hnext : ∀ c ∈ next, c ∈ calls) :
    Entries (calls.flatMap Call.legs) (next.foldl Call.store redis) ∧
      Forward redis (next.foldl Call.store redis) := by
  induction next generalizing redis with
  | nil => exact ⟨hentries, fun key i hi => ⟨i, hi, le_rfl⟩⟩
  | cons c next ih =>
    have hc := h.call (hnext c mem_cons_self)
    obtain ⟨hrest, hforward⟩ := ih (hc.entries_store hentries)
      fun d hd => hnext d (mem_cons_of_mem _ hd)
    refine ⟨hrest, fun key i hi => ?_⟩
    obtain ⟨j, hj, hij⟩ := hc.forward_store hentries key i hi
    obtain ⟨k, hk, hjk⟩ := hforward key j hj
    exact ⟨k, hk, hij.trans hjk⟩

theorem entries_stored {earlier : List Call} (hearlier : ∀ c ∈ earlier, c ∈ calls) :
    Entries (calls.flatMap Call.legs) (stored earlier) :=
  (entries_foldl h (fun key i hi => absurd hi (by simp)) hearlier).1

theorem own_stored {earlier : List Call} (hearlier : ∀ c ∈ earlier, c ∈ calls)
    (hl : l ∈ earlier.flatMap Call.legs) : ∃ i, entry (stored earlier) l = some i := by
  obtain ⟨c, hc, hlc⟩ := mem_flatMap.mp hl
  obtain ⟨before, after, rfl⟩ := append_of_mem hc
  have hbefore := entries_stored h fun d hd => hearlier d (mem_append_left _ hd)
  have hcall := h.call (hearlier c hc)
  obtain ⟨i, hi⟩ := hcall.lookup_store hbefore hlc
  obtain ⟨hentries, hforward⟩ := entries_foldl h (hcall.entries_store hbefore)
    fun d hd => hearlier d (mem_append_right _ (mem_cons_of_mem _ hd))
  obtain ⟨j, hj, -⟩ := hforward _ i hi
  -- the entry under the key is that of a leg with the key, so of this leg
  obtain ⟨-, l', hl', hkey, hleg⟩ := hentries _ j hj
  obtain rfl := hcall.key_inj l' hl' l (hcall.legs_subset l hlc) hkey
  refine ⟨j, entry_eq_some.mpr ⟨?_, hleg⟩⟩
  rw [stored, foldl_append]
  exact hj

/-- Over a run with separate legs the entries are kept. -/
theorem kept_of_separate : Kept calls where
  forward := by
    rintro earlier between later hcalls l i hi
    have hearlier : ∀ c ∈ earlier, c ∈ calls := fun c hc => hcalls ▸ by simp [hc]
    have hbetween : ∀ c ∈ between, c ∈ calls := fun c hc => hcalls ▸ by simp [hc]
    have hentries := entries_stored h hearlier
    obtain ⟨hentries', hforward⟩ := entries_foldl h hentries hbetween
    rw [stored, foldl_append]
    exact entry_of_forward h.key_inj hentries hentries' hforward hi
  reported := by
    rintro earlier c later hcalls l i hi huser hdomain doc hdoc d hd hcallId hremoteTag hlocalTag
    have hearlier : ∀ c ∈ earlier, c ∈ calls := fun c hc => hcalls ▸ by simp [hc]
    have hc : c ∈ calls := hcalls ▸ by simp
    exact (h.call hc).reported_of_entry (entries_stored h hearlier) hi huser hdomain hdoc hd hcallId
      hremoteTag hlocalTag
  own := by
    rintro earlier later hcalls l hl
    exact own_stored h (fun c hc => hcalls ▸ mem_append_left _ hc) hl
  frame := by
    rintro earlier c later hcalls l i hi hl hother
    have hearlier : ∀ c ∈ earlier, c ∈ calls := fun c hc => hcalls ▸ by simp [hc]
    have hc : c ∈ calls := hcalls ▸ by simp
    have hmem : l ∈ calls.flatMap Call.legs := by
      obtain ⟨c', hc', hl'⟩ := mem_flatMap.mp hl
      exact mem_flatMap.mpr ⟨c', hearlier c' hc', hl'⟩
    rw [(h.call hc).frame_store (entries_stored h hearlier) hmem hother]
    exact hi

end Runs

/-- Two users, with a dialog that goes on. -/
def separateCalls : List Call :=
  [⟨.asStored, text "5001", text "inc", [payloadOf "1" "a" "b" "c" "early", payloadOf "2" "d" "e" "f" "trying"]⟩,
    ⟨.asStored, text "5002", text "inc", [payloadOf "1" "a" "c" "b" "early"]⟩,
    ⟨.asStored, text "5001", text "inc", [payloadOf "1" "a" "b" "c" "confirmed"]⟩]

theorem kept_separateCalls : Separate separateCalls ∧ Kept separateCalls := by
  have h : Separate separateCalls := ⟨by decide, by decide, by decide⟩
  exact ⟨h, kept_of_separate h⟩

/-- The Call-Id of one leg ends where the tag of the other begins: the second leg finds the
entry of the first, which is terminated, and gets none of its own. -/
theorem not_kept_of_same_key :
    let calls : List Call :=
      [⟨.asStored, text "5001", text "inc", [payloadOf "1" "a" "bc" "d" "terminated"]⟩,
        ⟨.asStored, text "5001", text "inc", [payloadOf "2" "ab" "c" "d" "confirmed"]⟩]
    ¬ Kept calls := by
  intro calls h
  let l : Leg := ⟨text "5001", text "inc", text "ab", text "c", text "d"⟩
  have hnone : entry (stored calls) l = none := by decide
  obtain ⟨i, hi⟩ := h.own calls [] rfl l (by decide)
  exact absurd (hnone.symm.trans hi) (by simp)

end SipXRouter.Kamailio
