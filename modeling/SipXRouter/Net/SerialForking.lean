import SipXRouter.Net.SequentialSearch

/-!
# Serial forking over whole runs

Whatever responses come in, whichever timers go off and whenever the request is
cancelled, the children of every transaction are sent their requests in their turn.

## Design notes

An event changes one transaction, and the condition on the one above it depends on its
children.  `Follows` is what carries over from the one to the other.
-/

namespace SipXRouter

open List

namespace TransactionTree

open SipTransaction SipTransactionList

variable {u : Transaction} {x : Tree}

/-! ## Changes by events -/

/-- What a transaction may become, as far as the one above can tell: it is the same in
the order, and nothing below it becomes pending. -/
structure Follows (x y : Tree) : Prop where
  lasting : Lasting x.label y.label
  pending : Pending y → Pending x

theorem Follows.refl (x : Tree) : Follows x x := ⟨.refl x.label, id⟩

theorem pending_of_forall₂ {t : Transaction} {cs cs' : List Tree}
    (hpursued : u.isDnsSrvChild = true ∧ u.isPursued = true →
      t.isDnsSrvChild = true ∧ t.isPursued = true)
    (hcs : Forall₂ (fun c d => Pending d → Pending c) cs cs')
    (h : Pending (.node u cs')) : Pending (.node t cs) := by
  rw [pending_node] at h ⊢
  rcases h with hhere | ⟨d, hd, hpending⟩
  · exact Or.inl (hpursued hhere)
  · obtain ⟨c, hc, hcd⟩ := Rose.exists_of_mem_right hcs hd
    exact Or.inr ⟨c, hc, hcd hpending⟩

theorem Good.of_follows {t : Transaction} {cs cs' : List Tree} (h : Good t cs)
    (hcs : Forall₂ Follows cs cs') : Good t cs' where
  toOrdered := h.toOrdered.of_lasting (hcs.imp fun _ _ hcd => hcd.lasting)
  recursing := by
    rintro ⟨d, hd, hpending⟩
    obtain ⟨c, hc, hcd⟩ := Rose.exists_of_mem_right hcs hd
    exact h.recursing ⟨c, hc, hcd.pending hpending⟩

theorem good_alter (hx : x.All Good) (provoExtendsTimer : Transaction → Bool)
    {f : Tree → Tree} {path : List Nat}
    (hf : ∀ y, x.get? path = some y → y.All Good → (f y).All Good ∧ Follows y (f y)) :
    (x.alter (fun t => { t with provoExtendsTimer := provoExtendsTimer t }) f path).All Good := by
  refine (Rose.All.alter (R := Follows) Follows.refl ?_ ?_ hx hf).1
  · intro t cs cs' hgood hcs
    have hgood := hgood.of_follows hcs
    exact ⟨⟨hgood.known, hgood.sorted, hgood.unsentLast, hgood.unsent, hgood.canceled, hgood.client,
      hgood.server, hgood.contact, hgood.contacts, hgood.leaf, hgood.target⟩, hgood.recursing⟩
  · intro t cs cs' hcs
    exact ⟨⟨⟨rfl, rfl, rfl, rfl⟩, id, Or.inl⟩,
      pending_of_forall₂ id (hcs.imp fun _ _ hcd => hcd.pending)⟩

/-- What an event does to a transaction. -/
structure Changed (t u : Transaction) : Prop extends Alike t u where
  known : t.IsSent → u.IsSent
  isPursued : u.isPursued = true → t.isPursued = true
  isRecursing : u.isRecursing = t.isRecursing
  isCanceled : t.isCanceled = true → u.isCanceled = true
  dnsDestinations : u.dnsDestinations = t.dnsDestinations
  hasResponse : u.isUnsent = true → u.hasResponse = t.hasResponse
  lastFinalResponse : u.lastFinalResponse = t.lastFinalResponse ∨
    (t.isDnsSrvChild = true ∨ t.isServerTransaction = true) ∧ ∃ m, u.lastFinalResponse = some m ∧
      ∀ target ∈ m.contacts, 0 ≤ target.qvalue

/-- Where only the permitted fields change, what is good stays so. -/
theorem Good.of_changed {t : Transaction} {cs : List Tree} (h : Good t cs) (hu : Changed t u) :
    Good u cs where
  known := by
    intro hsent
    exact hu.known (h.known (hu.isUnsent.symm.trans hsent))
  sorted := h.sorted
  unsentLast := h.unsentLast
  unsent := by
    intro hunsent
    obtain ⟨hnil, hresponse, hrecursing⟩ := h.unsent (hu.isUnsent.symm.trans hunsent)
    exact ⟨hnil, (hu.hasResponse hunsent).trans hresponse, hu.isRecursing.trans hrecursing⟩
  canceled := by
    intro c hc hcanceled
    rcases h.canceled c hc hcanceled with hexpired | hparent | hserver
    · exact Or.inl hexpired
    · exact Or.inr (Or.inl (hu.isCanceled hparent))
    · exact Or.inr (Or.inr (hu.isServerTransaction.trans hserver))
  client := h.client
  server := fun hserver => h.server (hu.isServerTransaction.symm.trans hserver)
  contact := by
    intro hfinal
    rcases hu.lastFinalResponse with heq | ⟨hdns | hserver, -⟩
    · exact h.contact (heq ▸ hfinal)
    · by_cases hnone : t.lastFinalResponse = none
      · rw [h.leaf hdns hnone]
        exact fun _ hc => nomatch hc
      · exact h.contact hnone
    · intro c hc
      obtain ⟨-, hq, hdns⟩ := h.server hserver c hc
      exact ⟨hq ▸ zero_le_one, hdns⟩
  contacts := by
    intro m hm
    rcases hu.lastFinalResponse with heq | ⟨-, m', hm', hcontacts⟩
    · exact h.contacts m (heq ▸ hm)
    · obtain rfl := Option.some.inj (hm'.symm.trans hm)
      exact hcontacts
  leaf := by
    intro hdns hnone
    rcases hu.lastFinalResponse with heq | ⟨-, m', hm', -⟩
    · exact h.leaf (hu.isDnsSrvChild.symm.trans hdns) (heq.symm.trans hnone)
    · rw [hnone] at hm'
      cases hm'
  target := by
    intro hne
    obtain ⟨hclient, hdns, hnone⟩ := h.target (hu.dnsDestinations ▸ hne)
    refine ⟨hu.isServerTransaction.trans hclient, hu.isDnsSrvChild.trans hdns, ?_⟩
    rcases hu.lastFinalResponse with heq | ⟨hdns' | hserver, -⟩
    · exact heq.trans hnone
    · rw [hdns] at hdns'
      cases hdns'
    · rw [hclient] at hserver
      cases hserver
  recursing := by
    intro hpending
    rw [hu.isRecursing, hu.isServerTransaction]
    exact h.recursing hpending

theorem Changed.all_good (h : Changed x.label u) (hx : x.All Good) :
    (Rose.node u x.children).All Good :=
  .node (hx.here.of_changed h) fun _ hc => hx.child hc

theorem Changed.pending (h : Changed x.label u)
    (hpending : Pending (.node u x.children)) : Pending x := by
  obtain ⟨t, cs⟩ := x
  refine pending_of_forall₂ (fun hu => ?_) (forall₂_same.mpr fun _ _ => id) hpending
  exact ⟨h.isDnsSrvChild.symm.trans hu.1, h.isPursued hu.2⟩

theorem Changed.follows (h : Changed x.label u)
    (hexpired : x.label.hasExpired = true → u.hasExpired = true)
    (hcanceled : u.isCanceled = true → x.label.isCanceled = true ∨ u.hasExpired = true) :
    Follows x (.node u x.children) :=
  ⟨⟨h.toAlike, hexpired, hcanceled⟩, h.pending⟩

section Changed

variable {t : Transaction}

theorem changed_addProvisional (hsent : t.IsSent) (m : Message) : Changed t (t.addProvisional m) := by
  have hstate : (t.addProvisional m).IsSent ∧
      ((t.addProvisional m).isCalling = true → t.isCalling = true) := by
    unfold Transaction.IsSent at hsent ⊢
    unfold Transaction.isCalling Transaction.addProvisional advance
    cases hs : t.state <;> simp_all [rank]
  have hunsent : (t.addProvisional m).isUnsent = t.isUnsent :=
    hstate.1.isUnsent.trans hsent.isUnsent.symm
  refine ⟨⟨rfl, rfl, rfl, hunsent⟩, fun _ => hstate.1, fun hpursued => ?_, rfl, id, rfl,
    fun h => ?_, Or.inl rfl⟩
  · rw [Transaction.isPursued, Bool.and_eq_true] at hpursued ⊢
    exact ⟨hstate.2 hpursued.1, hpursued.2⟩
  · rw [hstate.1.isUnsent] at h
    cases h

theorem changed_addFinal (hsent : t.IsSent)
    (ht : t.isDnsSrvChild = true ∨ t.isServerTransaction = true) {m : Message}
    (hcontacts : ∀ target ∈ m.contacts, 0 ≤ target.qvalue) : Changed t (t.addFinal m) := by
  have hunsent : (t.addFinal m).isUnsent = false := (isSent_addFinal t m).isUnsent
  refine ⟨⟨rfl, rfl, rfl, hunsent.trans hsent.isUnsent.symm⟩, fun _ => isSent_addFinal t m,
    fun hpursued => ?_, rfl, id, rfl, fun h => ?_, Or.inr ⟨ht, m, rfl, hcontacts⟩⟩
  · rw [Transaction.isPursued, isCalling_addFinal, Bool.false_and] at hpursued
    cases hpursued
  · rw [hunsent] at h
    cases h

/-- A request that is not sent any more. -/
theorem changed_state (t : Transaction) :
    Changed t { t with state := if t.state = .calling then .complete else t.state } := by
  split
  · rename_i hstate
    have hcomplete : rank .calling ≤ rank .complete := by decide
    refine ⟨⟨rfl, rfl, rfl, ?_⟩, fun _ => hcomplete, (fun h => nomatch h), rfl, id, rfl,
      (fun h => nomatch h), Or.inl rfl⟩
    rw [Transaction.isUnsent, Transaction.isUnsent, hstate]
    rfl
  · exact ⟨⟨rfl, rfl, rfl, rfl⟩, id, id, rfl, id, rfl, fun _ => rfl, Or.inl rfl⟩

theorem changed_cancel (t : Transaction) : Changed t t.cancel := by
  unfold Transaction.cancel
  split
  · exact ⟨.refl t, id, id, rfl, id, rfl, fun _ => rfl, Or.inl rfl⟩
  · refine ⟨⟨rfl, rfl, rfl, rfl⟩, id, fun h => ?_, rfl, fun _ => rfl, rfl, fun _ => rfl,
      Or.inl rfl⟩
    rw [Transaction.isPursued, Bool.not_true, Bool.and_false] at h
    cases h

theorem changed_expire (t : Transaction) : Changed t t.expire := by
  have h := changed_cancel t
  exact ⟨⟨h.isServerTransaction, h.isDnsSrvChild, h.qvalue, h.isUnsent⟩, h.known, h.isPursued,
    h.isRecursing, h.isCanceled, h.dnsDestinations, h.hasResponse, h.lastFinalResponse⟩

end Changed

theorem good_cancelChild (hx : x.All Good)
    (hcanceled : x.label.isServerTransaction = true ∨ x.label.isCanceled = true) (index : Nat) :
    (cancelChild index x).All Good ∧ Follows x (cancelChild index x) := by
  obtain ⟨t, cs⟩ := x
  have hcs : Forall₂ (fun c d : Tree => Alike c.label d.label ∧ (Pending d → Pending c)) cs
      (cs.modify index fun c => .node c.label.cancel c.children) := by
    refine Rose.forall₂_modify (fun c => ⟨.refl _, id⟩) fun c _ => ?_
    exact ⟨(changed_cancel c.label).toAlike, (changed_cancel c.label).pending⟩
  have hpending := hcs.imp fun _ _ hcd => hcd.2
  refine ⟨.node ⟨?_, ?_⟩ ?_, .refl t, pending_of_forall₂ id hpending⟩
  · exact hx.here.toOrdered.of_alike (hcs.imp fun _ _ hcd => hcd.1)
      fun _ _ _ => Or.inr hcanceled.symm
  · rintro ⟨d, hd, hdpending⟩
    obtain ⟨c, hc, hcd⟩ := Rose.exists_of_mem_right hpending hd
    exact hx.here.recursing ⟨c, hc, hcd hdpending⟩
  · refine Rose.forall_mem_modify (fun c hc => hx.child hc) fun c hc => ?_
    exact (changed_cancel c.label).all_good (hx.child (mem_of_getElem? hc))

/-! ## Runs -/

/-- The tree of a server transaction, and what has been tried. -/
structure InTurn (root : Tree) (attempts : List Attempt) : Prop where
  isRoot : IsRoot root.label
  sent : root.label.IsSent
  good : root.All Good
  attempts : ∀ a ∈ attempts, Respects a

theorem closed_inTurn (ua : UserAgent) : Closed ua InTurn where
  final := by
    intro x attempts response h
    have hchanged : Changed x.label (x.label.addFinal { response }) :=
      changed_addFinal h.sent (Or.inr h.isRoot.isServerTransaction) fun _ htarget => nomatch htarget
    exact ⟨⟨h.isRoot.isServerTransaction, h.isRoot.isDnsSrvChild⟩, hchanged.known h.sent,
      hchanged.all_good h.good, h.attempts⟩
  provisional := by
    intro x attempts h
    have hchanged := changed_addProvisional h.sent { response := { statusCode := 0 } }
    have hlabel : x.label.addProvisional { response := { statusCode := 0 } } =
        { x.label with
          hasProvisionalResponse := true
          state := advance x.label.state .proceeding } := by
      simp [Transaction.addProvisional]
    rw [hlabel] at hchanged
    exact ⟨⟨h.isRoot.isServerTransaction, h.isRoot.isDnsSrvChild⟩, hchanged.known h.sent,
      hchanged.all_good h.good, h.attempts⟩
  search := by
    intro x attempts h
    have hspec := spec_searchBelow ua x.height h.good h.sent
    exact ⟨h.isRoot.of_kept (kept_searchBelow ua _ _), hspec.sent, hspec.good,
      forall_mem_append.mpr ⟨h.attempts, hspec.attempts⟩⟩

section InTurn

variable {ua : UserAgent} {root : Tree} {attempts : List Attempt} {path : List Nat}

theorem InTurn.alter (h : InTurn root attempts) (hpath : path ≠ [])
    (provoExtendsTimer : Transaction → Bool) {f : Tree → Tree}
    (hf : ∀ y, root.get? path = some y → y.All Good → (f y).All Good ∧ Follows y (f y)) :
    InTurn (root.alter (fun t => { t with provoExtendsTimer := provoExtendsTimer t }) f path)
      attempts where
  isRoot := by
    rw [Rose.label_alter hpath]
    exact ⟨h.isRoot.isServerTransaction, h.isRoot.isDnsSrvChild⟩
  sent := by
    rw [Rose.label_alter hpath]
    exact h.sent
  good := good_alter h.good provoExtendsTimer hf
  attempts := h.attempts

theorem InTurn.modifyAt (h : InTurn root attempts) (hpath : path ≠ [])
    {f : Transaction → Transaction} (hf : ∀ t, Changed t (f t))
    (hexpired : ∀ t, t.hasExpired = true → (f t).hasExpired = true)
    (hcanceled : ∀ t, (f t).isCanceled = true → t.isCanceled = true ∨ (f t).hasExpired = true) :
    InTurn (modifyAt root path f) attempts :=
  h.alter hpath Transaction.provoExtendsTimer fun _ _ hy =>
    ⟨(hf _).all_good hy, (hf _).follows (hexpired _) (hcanceled _)⟩

theorem InTurn.addResponse (h : InTurn root attempts) (hpath : path ≠ [])
    (hx : root.get? path = some x) (hu : Changed x.label u)
    (hexpired : u.hasExpired = x.label.hasExpired) (hcanceled : u.isCanceled = x.label.isCanceled) :
    InTurn (addResponse root path u) attempts := by
  refine h.alter hpath (fun _ => u.provoExtendsTimer) fun y hy hgood => ?_
  obtain rfl := Option.some.inj (hx.symm.trans hy)
  exact ⟨hu.all_good hgood, hu.follows hexpired.trans fun hc => Or.inl (hcanceled.symm.trans hc)⟩

theorem InTurn.cancelChild (h : InTurn root attempts) (hx : root.get? path = some x)
    (hcanceled : x.label.isServerTransaction = true ∨ x.label.isCanceled = true) (index : Nat) :
    InTurn (root.alter id (cancelChild index) path) attempts := by
  by_cases hpath : path = []
  · subst hpath
    rw [Rose.get?_nil] at hx
    obtain rfl := Option.some.inj hx
    exact ⟨h.isRoot, h.sent, (good_cancelChild h.good hcanceled index).1, h.attempts⟩
  · refine h.alter hpath Transaction.provoExtendsTimer fun y hy hgood => ?_
    obtain rfl := Option.some.inj (hx.symm.trans hy)
    exact good_cancelChild hgood hcanceled index

theorem InTurn.sendRequest {s : State} (h : InTurn s.root s.attempts) (request : SipRequest)
    (target : Target) :
    InTurn (sendRequest ua s request target).root (sendRequest ua s request target).attempts := by
  have hserver := h.isRoot.isServerTransaction
  have hold := h.good.here.server hserver
  have hnew := new_targetTransaction { target with qvalue := 1 }
  have hspec := (spec_handleOutgoing ua hnew.good hnew.client hnew.unsent request).1
  have hkept := kept_handleOutgoing ua (targetTransaction { target with qvalue := 1 }) request
  unfold TransactionTree.sendRequest
  dsimp only
  generalize handleOutgoing ua (targetTransaction { target with qvalue := 1 }) request = sent
    at hspec hkept
  have hall : ∀ c ∈ linkChild s.root.children sent.tree,
      c.label.isUnsent = false ∧ c.label.qvalue = 1 ∧ c.label.isDnsSrvChild = false := by
    intro c hc
    rcases mem_linkChild.mp hc with rfl | hc
    · exact ⟨hspec.sent.isUnsent, hkept.qvalue, hkept.isDnsSrvChild⟩
    · exact hold c hc
  refine ⟨h.isRoot, h.sent, .node ⟨⟨h.good.here.known, sorted_linkChild h.good.here.sorted, ?_,
    fun hunsent => ?_, fun _ _ _ => Or.inr (Or.inr hserver), fun c hc => ?_, fun _ => hall,
    fun _ c hc => ⟨(hall c hc).2.1 ▸ zero_le_one, (hall c hc).2.2⟩, h.good.here.contacts,
    fun hdns => ?_, h.good.here.target⟩, fun _ => Or.inr hserver⟩ fun c hc => ?_, ?_⟩
  · refine pairwise_of_forall_mem_list fun c hc d _ hunsent => ?_
    rw [(hall c hc).1] at hunsent
    cases hunsent
  · rw [h.sent.isUnsent] at hunsent
    cases hunsent
  · rcases mem_linkChild.mp hc with rfl | hc
    · exact hkept.isServerTransaction
    · exact h.good.here.client c hc
  · rw [h.isRoot.isDnsSrvChild] at hdns
    cases hdns
  · rcases mem_linkChild.mp hc with rfl | hc
    · exact hspec.good
    · exact h.good.child hc
  · rw [forall_mem_append, forall_mem_cons]
    refine ⟨h.attempts, ⟨fun sibling hmem hlt => ?_, fun hdns => nomatch hdns⟩, hspec.attempts⟩
    dsimp only at hmem
    rw [takeWhile_append_dropWhile] at hmem
    exact absurd (hold sibling hmem).2.1 hlt.ne'

end InTurn

/-- The contacts of a redirection have q values from 0 to 1. -/
def Event.InRange : Event → Prop
  | .response _ m => ∀ target ∈ m.contacts, 0 ≤ target.qvalue ∧ target.qvalue ≤ 1
  | _ => True

instance decidableInRange : (e : Event) → Decidable e.InRange
  | .response _ m =>
    inferInstanceAs (Decidable (∀ target ∈ m.contacts, 0 ≤ target.qvalue ∧ target.qvalue ≤ 1))
  | .send _ _ | .resend _ _ _ | .expires _ _ _ | .cancelChild _ _ | .cancel _ =>
    inferInstanceAs (Decidable True)

/-- Every event keeps the attempts in turn. -/
theorem inTurn_step {ua : UserAgent} {s : State} (h : InTurn s.root s.attempts) {e : Event}
    (he : Allowed s e) (hrange : e.InRange) : InTurn (step ua s e).root (step ua s e).attempts := by
  have hclosed := closed_inTurn ua
  cases e with
  | send request target => exact h.sendRequest request target
  | response path m =>
    obtain ⟨x, hx, hdns, hunsent⟩ := he
    have hpath := h.isRoot.path_ne_nil hx (Or.inl hdns)
    have hsent := (h.good.get? hx).here.known hunsent
    rw [step, hx]
    refine hclosed.receive h ?_ ?_
    · exact h.addResponse hpath hx (changed_addProvisional hsent m) rfl rfl
    · refine h.addResponse hpath hx (changed_addFinal hsent (Or.inl hdns) ?_) rfl rfl
      exact fun target htarget => (hrange target htarget).1
  | resend path ofCancel resent =>
    obtain ⟨x, hx, hdns, -⟩ := he
    have hpath := h.isRoot.path_ne_nil hx (Or.inl hdns)
    rw [step, hx]
    exact hclosed.handleResendEvent h (h.modifyAt hpath changed_state (fun _ => id)
      fun _ => Or.inl)
  | expires path ofCancel extendable =>
    obtain ⟨x, hx, hclient, -⟩ := he
    have hpath := h.isRoot.path_ne_nil hx (Or.inr hclient)
    rw [step, hx]
    split
    · refine hclosed.handleExpiresEvent h (h.modifyAt hpath (fun t => ?_) (fun _ => id)
        fun _ => Or.inl) (h.modifyAt hpath changed_expire (fun _ _ => rfl) fun _ _ => Or.inr rfl)
      exact ⟨⟨rfl, rfl, rfl, rfl⟩, id, id, rfl, id, rfl, fun _ => rfl, Or.inl rfl⟩
    · exact h
  | cancelChild path index =>
    obtain ⟨x, hx, hcanceled⟩ := he
    exact h.cancelChild hx hcanceled index
  | cancel cancel => exact hclosed.handleCancel h

theorem inTurn_start (isInvite : Bool) (request : SipRequest) :
    InTurn (start isInvite request).root (start isInvite request).attempts := by
  have hsent : (start isInvite request).root.label.IsSent := by
    cases isInvite with
    | true => exact (by decide : rank .calling ≤ rank .proceeding)
    | false => exact le_refl (rank .calling)
  refine ⟨⟨rfl, rfl⟩, hsent, good_nil (fun _ => hsent) (fun hunsent => ?_) (fun _ hm => nomatch hm)
    fun hne => absurd rfl hne, fun _ ha => nomatch ha⟩
  have hfalse := hsent.isUnsent.symm.trans hunsent
  cases hfalse

/-- In every run each child is sent its request in its turn: no sibling with a higher q
value is waiting for a final response, unless the q values between them go down in steps
that do not count, and of the servers of a target no earlier one has a request out or got
a response, unless it has timed out. -/
theorem respects_of_reaches {ua : UserAgent} {isInvite : Bool} {request : SipRequest} {s : State}
    (h : Run.Reaches (step ua) (fun s e => Allowed s e ∧ e.InRange) (start isInvite request) s) :
    ∀ a ∈ s.attempts, Respects a := by
  have hstep : ∀ s e, InTurn s.root s.attempts → Allowed s e ∧ e.InRange →
      InTurn (step ua s e).root (step ua s e).attempts :=
    fun _ _ hs he => inTurn_step hs he.1 he.2
  exact (h.invariant (inTurn_start isInvite request) hstep).attempts

/-- A target with two servers redirects to two contacts. -/
def redirectedTwice : List Event :=
  [.send ⟨[]⟩ { servers := [{}, {}] },
    -- the first server does not answer
    .expires [0, 0] false false,
    .response [0, 1] { answer 302 with
      contacts := [{ qvalue := 1, servers := [{}] }, { qvalue := 1 / 2, servers := [{}] }] },
    .response [0, 1, 0, 0] (answer 486)]

/-- The second server is tried after the first, and the second contact after the first. -/
theorem respects_redirectedTwice :
    ((redirectedTwice.foldl (step {}) (start true ⟨[]⟩)).attempts.map fun a =>
        (a.child.label.isDnsSrvChild, a.child.label.qvalue, a.before.length)) =
      [(false, 1, 0), (true, 1, 0), (true, 9999 / 10000, 1), (false, 1, 0), (true, 1, 0),
        (false, 1 / 2, 1), (true, 1 / 2, 0)] ∧
      ∀ a ∈ (redirectedTwice.foldl (step {}) (start true ⟨[]⟩)).attempts, Respects a :=
  ⟨by decide +kernel, respects_of_reaches (Run.AllAllowed.reaches (by decide +kernel))⟩

/-- A server is tried only when every earlier one has neither a request out nor got a
response. -/
def Attempt.Silent (a : Attempt) : Prop :=
  a.child.label.isDnsSrvChild = true → ∀ server ∈ a.before,
    server.label.isPursued = false ∧ server.label.hasResponse = false

instance decidableSilent (a : Attempt) : Decidable a.Silent :=
  inferInstanceAs (Decidable (_ → ∀ server ∈ a.before, _ ∧ _))

/-- No sibling whose q value is higher by more than counts is waiting for a final response. -/
def Attempt.Serial (a : Attempt) : Prop :=
  ∀ sibling ∈ a.before ++ a.after, a.child.label.qvalue < sibling.label.qvalue →
    ¬ Close a.child.label.qvalue sibling.label.qvalue → ¬ Waiting sibling

instance (p q : ℚ) : Decidable (Close p q) := inferInstanceAs (Decidable (_ < _))

instance : DecidablePred Transaction.IsOut := fun _ => inferInstanceAs (Decidable (_ ∧ _))

instance (t : Tree) : Decidable (Waiting t) :=
  inferInstanceAs (Decidable (Rose.Via (fun _ => _ = false) _ t))

instance decidableSerial (a : Attempt) : Decidable a.Serial :=
  inferInstanceAs (Decidable (∀ sibling ∈ _, _ → ¬ Close _ _ → ¬ Waiting sibling))

/-- The first of three servers answers when it has been given up already. -/
def lateRinging : List Event :=
  [.send ⟨[]⟩ { servers := [{}, {}, {}] },
    .expires [0, 0] false false,
    .response [0, 0] (answer 180),
    .expires [0, 1] false false]

/-- A redirection to three contacts, whose q values go down in steps that do not count. -/
def closeContacts : List Event :=
  [.send ⟨[]⟩ { servers := [{}] },
    .response [0, 0] { answer 302 with
      contacts := [{ qvalue := 1, servers := [{}] },
        { qvalue := 999994 / 1000000, servers := [{}] },
        { qvalue := 999988 / 1000000, servers := [{}] }] }]

/-- The third server is tried all the same, and the third contact while the first is waiting. -/
theorem not_silent_and_not_serial :
    (Run.AllAllowed (step {}) (fun s e => Allowed s e ∧ e.InRange) (start true ⟨[]⟩) lateRinging ∧
      ¬ ∀ a ∈ (lateRinging.foldl (step {}) (start true ⟨[]⟩)).attempts, a.Silent) ∧
    Run.AllAllowed (step {}) (fun s e => Allowed s e ∧ e.InRange) (start true ⟨[]⟩) closeContacts ∧
      ¬ ∀ a ∈ (closeContacts.foldl (step {}) (start true ⟨[]⟩)).attempts, a.Serial := by
  decide +kernel

end TransactionTree

end SipXRouter
