import SipXRouter.Net.ServerTransaction

/-!
# Serial forking

The order in which the children of a transaction are sent their requests: the contacts of
a redirection by their q values, those of one q value at the same time, and the servers of
a target one after the other.

## Design notes

The search asks `isRecursing` whether anything may be going on below a child, and looks
only at the children before an unsent one.  So the tree has to be such that a transaction
with a pending request below it is recursing, and that the unsent children come last.
-/

namespace SipXRouter

open List

namespace TransactionTree

open SipTransaction SipTransactionList

variable {cs : List Tree} {t : Transaction} {x y : Tree}

/-! ## Turns -/

/-- The transaction has sent a request that has no final response. -/
def Transaction.IsOut (t : Transaction) : Prop := t.isDnsSrvChild = true ∧ t.isCalling = true

/-- Somewhere below, a request is out that has neither a final response nor timed out. -/
def Waiting : Tree → Prop :=
  Rose.Via (fun t => t.hasExpired = false) Transaction.IsOut

/-- The q values count as equal. -/
def Close (p q : ℚ) : Prop := (p - q) * (p - q) < minQDeltaSquare

/-- In the order of the children, the q values from the sibling on to the child differ
from one to the next by less than counts. -/
def Linked (before : List Tree) (child sibling : Tree) : Prop :=
  ∃ l₁ l₂, before = l₁ ++ sibling :: l₂ ∧
    ((sibling :: l₂) ++ [child]).IsChain fun c d => Close c.label.qvalue d.label.qvalue

/-- A child is sent its request in its turn: no sibling with a higher q value is waiting,
and of the servers of a target no earlier one has a request out or got a response, except
those that have timed out. -/
structure Respects (a : Attempt) : Prop where
  serial : ∀ sibling ∈ a.before ++ a.after, a.child.label.qvalue < sibling.label.qvalue →
    Waiting sibling → Linked a.before a.child sibling
  failover : a.child.label.isDnsSrvChild = true → ∀ server ∈ a.before,
    server.label.hasExpired = true ∨
      server.label.isCalling = false ∧ server.label.hasResponse = false

/-! ## Trees -/

/-- Somewhere below, a request is out that has not been cancelled. -/
def Pending : Tree → Prop :=
  Rose.Via (fun _ => True) fun t => t.isDnsSrvChild = true ∧ t.isPursued = true

/-- The request of the transaction has been taken up. -/
def Transaction.IsSent (t : Transaction) : Prop := rank .calling ≤ rank t.state

theorem Transaction.IsSent.isUnsent (h : t.IsSent) : t.isUnsent = false := by
  rw [Transaction.isUnsent, beq_eq_false_iff_ne]
  intro hstate
  rw [Transaction.IsSent, hstate] at h
  revert h
  decide

/-- What holds of a transaction and its children, whether it is recursing or not. -/
structure Ordered (t : Transaction) (cs : List Tree) : Prop where
  known : t.isUnsent = false → t.IsSent
  /-- The children are sorted by q value. -/
  sorted : cs.Pairwise fun c d => d.label.qvalue ≤ c.label.qvalue
  /-- The unsent children come last. -/
  unsentLast : cs.Pairwise fun c d => c.label.isUnsent = true → d.label.isUnsent = true
  /-- An unsent transaction has no children and got no response. -/
  unsent : t.isUnsent = true → cs = [] ∧ t.hasResponse = false ∧ t.isRecursing = false
  /-- A child is cancelled because its timer expired, or after its parent. -/
  canceled : ∀ c ∈ cs, c.label.isCanceled = true →
    c.label.hasExpired = true ∨ t.isCanceled = true ∨ t.isServerTransaction = true
  client : ∀ c ∈ cs, c.label.isServerTransaction = false
  /-- The proxy sends all the requests of the server transaction at once. -/
  server : t.isServerTransaction = true →
    ∀ c ∈ cs, c.label.isUnsent = false ∧ c.label.qvalue = 1 ∧ c.label.isDnsSrvChild = false
  contact : t.lastFinalResponse ≠ none →
    ∀ c ∈ cs, 0 ≤ c.label.qvalue ∧ c.label.isDnsSrvChild = false
  contacts : ∀ m, t.lastFinalResponse = some m → ∀ target ∈ m.contacts, 0 ≤ target.qvalue
  /-- Only with a redirection does a server get children. -/
  leaf : t.isDnsSrvChild = true → t.lastFinalResponse = none → cs = []
  /-- A target leaves the responses to its servers. -/
  target : t.dnsDestinations ≠ none →
    t.isServerTransaction = false ∧ t.isDnsSrvChild = false ∧ t.lastFinalResponse = none

/-- What holds of every transaction and its children. -/
structure Good (t : Transaction) (cs : List Tree) : Prop extends Ordered t cs where
  recursing : (∃ c ∈ cs, Pending c) → t.isRecursing = true ∨ t.isServerTransaction = true

/-- Nothing is pending below the children. -/
def Idle (cs : List Tree) : Prop := ∀ c ∈ cs, ¬ Pending c

theorem pending_node :
    Pending (.node t cs) ↔ (t.isDnsSrvChild = true ∧ t.isPursued = true) ∨ ∃ c ∈ cs, Pending c := by
  rw [Pending, Rose.via_node, true_and]

theorem not_pending_of_idle (hpursued : x.label.isPursued = false)
    (hidle : Idle x.children) : ¬ Pending x := by
  obtain ⟨t, cs⟩ := x
  rw [pending_node]
  rintro (⟨-, h⟩ | ⟨c, hc, h⟩)
  · rw [show t.isPursued = false from hpursued] at h
    cases h
  · exact hidle c hc h

theorem isCalling_of_isUnsent (h : t.isUnsent = true) : t.isCalling = false := by
  rw [Transaction.isUnsent, beq_iff_eq] at h
  simp [Transaction.isCalling, h]

theorem isPursued_of_isUnsent (h : t.isUnsent = true) : t.isPursued = false := by
  rw [Transaction.isPursued, isCalling_of_isUnsent h, Bool.false_and]

theorem not_pending_of_isUnsent (hx : x.All Good) (h : x.label.isUnsent = true) : ¬ Pending x := by
  refine not_pending_of_idle (isPursued_of_isUnsent h) ?_
  rw [(hx.here.unsent h).1]
  exact fun _ hc => nomatch hc

theorem isUnsent_of_isRecursing (hx : x.All Good) (h : x.label.isRecursing = true) :
    x.label.isUnsent = false := by
  by_contra hunsent
  rw [Bool.not_eq_false] at hunsent
  rw [(hx.here.unsent hunsent).2.2] at h
  cases h

theorem idle_of_not_isRecursing (hx : x.All Good)
    (hclient : x.label.isServerTransaction = false) (h : x.label.isRecursing = false) :
    Idle x.children := by
  intro c hc hpending
  rcases hx.here.recursing ⟨c, hc, hpending⟩ with hrec | hserver
  · rw [h] at hrec
    cases hrec
  · rw [hclient] at hserver
    cases hserver

theorem Waiting.pending (h : Waiting x) (hx : x.All Good)
    (hcanceled : x.label.isCanceled = false) (hclient : x.label.isServerTransaction = false) :
    Pending x := by
  induction h with
  | here way goal =>
    refine .here trivial ⟨goal.1, ?_⟩
    simp only [Rose.label_node] at hcanceled
    simp [Transaction.isPursued, goal.2, hcanceled]
  | under way mem rest ih =>
    refine .under trivial mem (ih (hx.child mem) ?_ (hx.here.client _ mem))
    by_contra hc
    rw [Bool.not_eq_false] at hc
    rcases hx.here.canceled _ mem hc with hexpired | hparent | hserver
    · rw [rest.root] at hexpired
      cases hexpired
    · rw [hcanceled] at hparent
      cases hparent
    · rw [hclient] at hserver
      cases hserver

/-! ## New children -/

/-- The children of a transaction, as the loops over them need them. -/
structure Siblings (cs : List Tree) : Prop where
  good : ∀ c ∈ cs, c.All Good
  sorted : cs.Pairwise fun c d => d.label.qvalue ≤ c.label.qvalue
  unsentLast : cs.Pairwise fun c d => c.label.isUnsent = true → d.label.isUnsent = true
  client : ∀ c ∈ cs, c.label.isServerTransaction = false
  canceled : ∀ c ∈ cs, c.label.isCanceled = true → c.label.hasExpired = true

/-- A child that was just made. -/
structure New (c : Tree) : Prop where
  good : c.All Good
  unsent : c.label.isUnsent = true
  client : c.label.isServerTransaction = false
  canceled : c.label.isCanceled = false

theorem good_nil (hknown : t.isUnsent = false → t.IsSent)
    (hunsent : t.isUnsent = true → t.hasResponse = false ∧ t.isRecursing = false)
    (hcontacts : ∀ m, t.lastFinalResponse = some m → ∀ target ∈ m.contacts, 0 ≤ target.qvalue)
    (htarget : t.dnsDestinations ≠ none →
      t.isServerTransaction = false ∧ t.isDnsSrvChild = false ∧ t.lastFinalResponse = none) :
    (Rose.node t []).All Good := by
  refine .node ⟨⟨hknown, .nil, .nil, fun h => ⟨rfl, hunsent h⟩, ?_, ?_, ?_, ?_, hcontacts,
    fun _ _ => rfl, htarget⟩, ?_⟩ ?_
  · exact fun _ hc => nomatch hc
  · exact fun _ hc => nomatch hc
  · exact fun _ _ hc => nomatch hc
  · exact fun _ _ hc => nomatch hc
  · rintro ⟨c, hc, -⟩
    exact absurd hc not_mem_nil
  · exact fun _ hc => nomatch hc

theorem new_dnsChild (t : Transaction) (index : Nat) (server : Server) :
    New (dnsChild t index server) :=
  ⟨good_nil (fun h => nomatch h) (fun _ => ⟨rfl, rfl⟩) (fun _ hm => nomatch hm)
    fun h => absurd rfl h, rfl, rfl, rfl⟩

theorem new_targetTransaction (target : Target) : New (targetTransaction target) :=
  ⟨good_nil (fun h => nomatch h) (fun _ => ⟨rfl, rfl⟩) (fun _ hm => nomatch hm)
    fun h => absurd rfl h, rfl, rfl, rfl⟩

theorem sorted_linkChild {c : Tree} (h : cs.Pairwise fun c d => d.label.qvalue ≤ c.label.qvalue) :
    (linkChild cs c).Pairwise fun c d => d.label.qvalue ≤ c.label.qvalue := by
  have hcs : Preference.NonIncreasing (fun c : Tree => c.label.qvalue) cs :=
    h.imp fun hle => not_lt.mpr hle
  have hlinked : Preference.NonIncreasing (fun c : Tree => c.label.qvalue) (linkChild cs c) :=
    hcs.insertBelow
  exact hlinked.imp fun hnot => not_lt.mp hnot

theorem sorted_foldl_linkChild {new : List Tree}
    (h : cs.Pairwise fun c d => d.label.qvalue ≤ c.label.qvalue) :
    (new.foldl linkChild cs).Pairwise fun c d => d.label.qvalue ≤ c.label.qvalue := by
  induction new generalizing cs with
  | nil => exact h
  | cons c new ih => exact ih (sorted_linkChild h)

theorem siblings_of_new {new : List Tree} (h : ∀ c ∈ new, New c) :
    Siblings (new.foldl linkChild []) := by
  have hnew : ∀ c ∈ new.foldl linkChild [], New c := by
    intro c hc
    rcases mem_foldl_linkChild.mp hc with hc | hc
    · exact absurd hc not_mem_nil
    · exact h c hc
  refine ⟨fun c hc => (hnew c hc).good, sorted_foldl_linkChild .nil, ?_,
    fun c hc => (hnew c hc).client, fun c hc hcanceled => ?_⟩
  · exact pairwise_of_forall_mem_list fun c _ d hd _ => (hnew d hd).unsent
  · rw [(hnew c hc).canceled] at hcanceled
    cases hcanceled

theorem idle_of_unsent (hgood : ∀ c ∈ cs, c.All Good)
    (h : ∀ c ∈ cs, c.label.isUnsent = true) : Idle cs :=
  fun c hc => not_pending_of_isUnsent (hgood c hc) (h c hc)

/-- A child may change as long as it is good and its order is not disturbed. -/
theorem Siblings.replace {before after : List Tree} {c : Tree}
    (h : Siblings (before ++ c :: after)) (hy : y.All Good) (hkept : Kept c.label y.label)
    (hunsent : y.label.isUnsent = c.label.isUnsent ∨
      y.label.isUnsent = false ∧ ∀ b ∈ before, b.label.isUnsent = false) :
    Siblings (before ++ y :: after) := by
  have hgood := h.good
  have hsorted := h.sorted
  have hlast := h.unsentLast
  have hclient := h.client
  have hcanceled := h.canceled
  simp only [forall_mem_append, forall_mem_cons] at hgood hclient hcanceled
  simp only [pairwise_append, pairwise_cons, forall_mem_cons] at hsorted hlast
  constructor
  · simp only [forall_mem_append, forall_mem_cons]
    exact ⟨hgood.1, hy, hgood.2.2⟩
  · simp only [pairwise_append, pairwise_cons, forall_mem_cons, hkept.qvalue]
    exact hsorted
  · simp only [pairwise_append, pairwise_cons, forall_mem_cons]
    rcases hunsent with heq | ⟨hy, hbefore⟩
    · rw [heq]
      exact hlast
    · refine ⟨hlast.1, ⟨fun d _ hd => ?_, hlast.2.1.2⟩, fun b hb => ⟨fun hunsent => ?_, ?_⟩⟩
      · rw [hy] at hd
        cases hd
      · rw [hbefore b hb] at hunsent
        cases hunsent
      · exact (hlast.2.2 b hb).2
  · simp only [forall_mem_append, forall_mem_cons, hkept.isServerTransaction]
    exact hclient
  · simp only [forall_mem_append, forall_mem_cons, hkept.isCanceled, hkept.hasExpired]
    exact hcanceled

theorem Siblings.pending (h : Siblings cs) {c : Tree} (hc : c ∈ cs)
    (hwaiting : Waiting c) : Pending c := by
  refine hwaiting.pending (h.good c hc) ?_ (h.client c hc)
  by_contra hcanceled
  rw [Bool.not_eq_false] at hcanceled
  have hexpired := h.canceled c hc hcanceled
  rw [hwaiting.root] at hexpired
  cases hexpired

/-! ## Servers -/

theorem hasResponse_eq_false :
    t.hasResponse = false ↔ t.hasProvisionalResponse = false ∧ t.lastFinalResponse = none := by
  rw [Transaction.hasResponse, Bool.or_eq_false_iff, Option.isSome_eq_false_iff,
    Option.isNone_iff_eq_none]

theorem Kept.hasResponse {u : Transaction} (h : Kept t u) (ht : t.hasResponse = false) :
    u.hasResponse = false := by
  rw [hasResponse_eq_false] at ht ⊢
  refine ⟨h.hasProvisionalResponse.trans ht.1, ?_⟩
  rcases h.lastFinalResponse with heq | ⟨hne, -⟩
  · exact heq.trans ht.2
  · exact absurd ht.2 hne

theorem state_addRequest (h : t.isUnsent = true) (request : SipRequest) :
    (t.addRequest request).state = .calling := by
  rw [Transaction.isUnsent, beq_iff_eq] at h
  simp [Transaction.addRequest, advance, h, rank]

theorem state_doFirstSend {c : Tree} (h : c.label.isUnsent = true) (request : SipRequest) :
    (doFirstSend c request).label.state =
      if c.label.sendSucceeds then .calling else .terminated := by
  unfold doFirstSend
  dsimp only [Rose.label_node]
  rw [show (c.label.addRequest (Request.addVia request c.label.via)).sendSucceeds =
    c.label.sendSucceeds from rfl]
  split
  · exact state_addRequest h _
  · rfl

theorem isSent_doFirstSend {c : Tree} (h : c.label.isUnsent = true) (request : SipRequest) :
    (doFirstSend c request).label.IsSent := by
  rw [Transaction.IsSent, state_doFirstSend h]
  split <;> decide

theorem dnsDestinations_doFirstSend (c : Tree) (request : SipRequest) :
    (doFirstSend c request).label.dnsDestinations = c.label.dnsDestinations := by
  unfold doFirstSend
  dsimp only [Rose.label_node]
  split <;> rfl

theorem good_doFirstSend {c : Tree} (hc : c.All Good) (h : c.label.isUnsent = true)
    (request : SipRequest) : (doFirstSend c request).All Good := by
  obtain ⟨hnil, hresponse, -⟩ := hc.here.unsent h
  have hchildren : (doFirstSend c request).children = [] := hnil
  have hsent := isSent_doFirstSend h request
  have hnone := (hasResponse_eq_false.mp ((kept_doFirstSend c request).hasResponse hresponse)).2
  have htarget : (doFirstSend c request).label.dnsDestinations ≠ none →
      (doFirstSend c request).label.isServerTransaction = false ∧
        (doFirstSend c request).label.isDnsSrvChild = false ∧
        (doFirstSend c request).label.lastFinalResponse = none := by
    rw [dnsDestinations_doFirstSend, (kept_doFirstSend c request).isServerTransaction,
      (kept_doFirstSend c request).isDnsSrvChild]
    exact fun h => ⟨(hc.here.target h).1, (hc.here.target h).2.1, hnone⟩
  generalize doFirstSend c request = y at hchildren hsent hnone htarget
  obtain ⟨t, cs⟩ := y
  obtain rfl : cs = [] := hchildren
  refine good_nil (fun _ => hsent) (fun hunsent => ?_) (fun m hm => ?_) htarget
  · rw [show t.isUnsent = false from hsent.isUnsent] at hunsent
    cases hunsent
  · rw [show t.lastFinalResponse = none from hnone] at hm
    cases hm

theorem isCalling_doFirstSend {c : Tree} (h : c.label.isUnsent = true)
    (hsend : c.label.sendSucceeds = false) (request : SipRequest) :
    (doFirstSend c request).label.isCalling = false := by
  rw [Transaction.isCalling, state_doFirstSend h, hsend]
  rfl

/-- The children after sending to some of them. -/
structure SendSpec (sends : Sends) : Prop where
  siblings : Siblings sends.children
  attempts : ∀ a ∈ sends.attempts, Respects a
  idle : sends.started = false → Idle sends.children

theorem SendSpec.append {sends : Sends} (h : SendSpec sends) (attempts : List Attempt)
    (hattempts : ∀ a ∈ attempts, Respects a) :
    SendSpec ⟨sends.children, sends.started, attempts ++ sends.attempts⟩ :=
  ⟨h.siblings, forall_mem_append.mpr ⟨hattempts, h.attempts⟩, h.idle⟩

theorem Siblings.le_of_mem_after {before after : List Tree} {c d : Tree}
    (h : Siblings (before ++ c :: after)) (hd : d ∈ after) : d.label.qvalue ≤ c.label.qvalue := by
  have hsorted := h.sorted
  rw [pairwise_append, pairwise_cons] at hsorted
  exact hsorted.2.1.1 d hd

/-- The servers before the one whose turn it is have been tried in vain. -/
structure Tried (before : List Tree) : Prop where
  sent : ∀ c ∈ before, c.label.isUnsent = false
  idle : Idle before
  silent : ∀ c ∈ before, c.label.hasExpired = true ∨
    c.label.isCalling = false ∧ c.label.hasResponse = false

theorem Tried.concat {before : List Tree} (h : Tried before) {c : Tree}
    (hsent : c.label.isUnsent = false) (hidle : ¬ Pending c)
    (hsilent : c.label.hasExpired = true ∨
      c.label.isCalling = false ∧ c.label.hasResponse = false) :
    Tried (before ++ [c]) where
  sent := forall_mem_append.mpr ⟨h.sent, forall_mem_singleton.mpr hsent⟩
  idle := forall_mem_append.mpr ⟨h.idle, forall_mem_singleton.mpr hidle⟩
  silent := forall_mem_append.mpr ⟨h.silent, forall_mem_singleton.mpr hsilent⟩

theorem Tried.respects {before after : List Tree} (h : Tried before) {parent : Transaction}
    {c : Tree} (hcs : Siblings (before ++ c :: after)) : Respects ⟨parent, before, c, after⟩ := by
  refine ⟨fun d hd hlt hwaiting => ?_, fun _ => h.silent⟩
  rcases mem_append.mp hd with hd | hd
  · exact absurd (hcs.pending (mem_append_left _ hd) hwaiting) (h.idle d hd)
  · exact absurd hlt (not_lt.mpr (hcs.le_of_mem_after hd))

/-- The loop over the servers keeps the children in order. -/
theorem pursueServers_spec (parent : Transaction) (request : SipRequest) (before cs : List Tree)
    (hcs : Siblings (before ++ cs)) (hbefore : Tried before) (hidle : Idle cs) :
    SendSpec (pursueServers parent request before cs) := by
  induction cs generalizing before with
  | nil =>
    rw [append_nil] at hcs
    exact ⟨hcs, (fun _ ha => absurd ha not_mem_nil), fun _ => hbefore.idle⟩
  | cons c after ih =>
    have hc : c ∈ before ++ c :: after := mem_append_right _ mem_cons_self
    have hgood := hcs.good c hc
    have hnext : ∀ y, before ++ [y] ++ after = before ++ y :: after := fun y => by simp
    have hidle : ¬ Pending c ∧ Idle after := forall_mem_cons.mp hidle
    rw [pursueServers]
    dsimp only
    split
    · rename_i hunsent
      have hattempt : Respects ⟨parent, before, c, after⟩ := hbefore.respects hcs
      have hsent := (isSent_doFirstSend hunsent request).isUnsent
      have hreplace := hcs.replace (good_doFirstSend hgood hunsent request)
        (kept_doFirstSend c request) (Or.inr ⟨hsent, hbefore.sent⟩)
      split
      · exact ⟨hreplace, forall_mem_singleton.mpr hattempt, fun h => Bool.noConfusion h⟩
      · rename_i hfails
        rw [Bool.not_eq_true] at hfails
        obtain ⟨hnil, hresponse, -⟩ := hgood.here.unsent hunsent
        have hcalling := isCalling_doFirstSend hunsent hfails request
        have htried : Tried (before ++ [doFirstSend c request]) := by
          refine hbefore.concat hsent (not_pending_of_idle ?_ ?_) (Or.inr ⟨hcalling, ?_⟩)
          · rw [Transaction.isPursued, hcalling, Bool.false_and]
          · rw [show (doFirstSend c request).children = [] from hnil]
            exact fun _ hd => absurd hd not_mem_nil
          · exact (kept_doFirstSend c request).hasResponse hresponse
        have hrest := ih _ ((hnext _).symm ▸ hreplace) htried hidle.2
        exact hrest.append [_] (forall_mem_singleton.mpr hattempt)
    · rename_i hunsent
      rw [Bool.not_eq_true] at hunsent
      split
      · refine ⟨hcs, (fun _ ha => absurd ha not_mem_nil), fun _ => ?_⟩
        exact forall_mem_append.mpr ⟨hbefore.idle, forall_mem_cons.mpr hidle⟩
      · rename_i hgoesOn
        simp only [Bool.or_eq_true, Bool.and_eq_true, Bool.not_eq_true', not_or, not_and,
          Bool.not_eq_true] at hgoesOn
        refine ih _ ((hnext c).symm ▸ hcs) (hbefore.concat hunsent hidle.1 ?_) hidle.2
        cases hcanceled : c.label.isCanceled with
        | true => exact Or.inl (hcs.canceled c hc hcanceled)
        | false =>
          refine Or.inr ⟨?_, hgoesOn.2 hcanceled⟩
          have hpursued := hgoesOn.1
          rwa [Transaction.isPursued, hcanceled, Bool.not_false, Bool.and_true] at hpursued

/-- What sending or searching leaves of a transaction. -/
structure Spec (o : Outcome) : Prop where
  good : o.tree.All Good
  sent : o.tree.label.IsSent
  attempts : ∀ a ∈ o.attempts, Respects a
  idle : o.started = false → Idle o.tree.children

theorem good_target (hclient : t.isServerTransaction = false)
    (hdns : t.isDnsSrvChild = false) (hnone : t.lastFinalResponse = none)
    (hsent : t.IsSent) (hcs : Siblings cs)
    (hrecursing : (∃ c ∈ cs, Pending c) → t.isRecursing = true) : (Rose.node t cs).All Good := by
  refine .node ⟨⟨fun _ => hsent, hcs.sorted, hcs.unsentLast, fun h => ?_,
    fun c hc h => Or.inl (hcs.canceled c hc h), hcs.client, fun h => ?_, fun h => absurd hnone h,
    fun m hm => ?_, fun h => ?_, fun _ => ⟨hclient, hdns, hnone⟩⟩, fun h => Or.inl (hrecursing h)⟩
    hcs.good
  · rw [hsent.isUnsent] at h
    cases h
  · rw [hclient] at h
    cases h
  · rw [hnone] at hm
    cases hm
  · rw [hdns] at h
    cases h

theorem spec_recurseDnsSrvChildren (ua : UserAgent)
    (hclient : x.label.isServerTransaction = false) (hdns : x.label.isDnsSrvChild = false)
    (hnone : x.label.lastFinalResponse = none) (hsent : x.label.IsSent)
    (hcs : Siblings x.children) (hidle : Idle x.children) : Spec (recurseDnsSrvChildren ua x) := by
  -- the lookup does not change any of this
  have hlookup : (lookup ua x).label.IsSent ∧ Siblings (lookup ua x).children ∧
      Idle (lookup ua x).children := by
    unfold lookup
    dsimp only
    split
    · have hnew : ∀ c ∈ dnsChildren x.label 0 ua.maxSrvRecords x.label.servers, New c := by
        intro c hc
        obtain ⟨index, server, rfl⟩ := mem_dnsChildren hc
        exact new_dnsChild _ _ _
      have hsiblings := siblings_of_new hnew
      have hconfirmed : rank .calling ≤ rank .confirmed := by decide
      refine ⟨hconfirmed, hsiblings, idle_of_unsent hsiblings.good fun c hc => ?_⟩
      rcases mem_foldl_linkChild.mp hc with hc | hc
      · exact absurd hc not_mem_nil
      · exact (hnew c hc).unsent
    · exact ⟨hsent, hcs, hidle⟩
  have hkept := kept_lookup ua x
  have hclient := hkept.isServerTransaction.trans hclient
  have hdns := hkept.isDnsSrvChild.trans hdns
  have hnone : (lookup ua x).label.lastFinalResponse = none := by
    rcases hkept.lastFinalResponse with heq | ⟨hne, -⟩
    · exact heq.trans hnone
    · exact absurd hnone hne
  unfold recurseDnsSrvChildren
  dsimp only
  generalize lookup ua x = y at hlookup hclient hdns hnone
  obtain ⟨t, cs⟩ := y
  obtain ⟨hsent, hcs, hidle⟩ := hlookup
  have hstay : Spec ⟨.node t cs, false, []⟩ :=
    ⟨good_target hclient hdns hnone hsent hcs fun ⟨c, hc, h⟩ => absurd h (hidle c hc), hsent,
      (fun _ ha => nomatch ha), fun _ => hidle⟩
  split
  · rename_i request _ _
    split
    · exact hstay
    · have hsends := pursueServers_spec t request [] cs hcs
        ⟨(fun _ hc => nomatch hc), (fun _ hc => nomatch hc), (fun _ hc => nomatch hc)⟩ hidle
      refine ⟨good_target hclient hdns hnone hsent hsends.siblings ?_, hsent, hsends.attempts,
        hsends.idle⟩
      rintro ⟨c, hc, hpending⟩
      rw [Bool.or_eq_true]
      refine Or.inr ?_
      by_contra hstarted
      exact hsends.idle (by simpa using hstarted) c hc hpending
  · exact hstay

/-- Sending a request to a child: nothing is pending below it unless that succeeds. -/
theorem spec_handleOutgoing (ua : UserAgent) {c : Tree} (hc : c.All Good)
    (hclient : c.label.isServerTransaction = false) (hunsent : c.label.isUnsent = true)
    (request : SipRequest) : Spec (handleOutgoing ua c request) ∧
      ((handleOutgoing ua c request).started = false →
        ¬ Pending (handleOutgoing ua c request).tree) := by
  obtain ⟨hnil, hresponse, -⟩ := hc.here.unsent hunsent
  unfold handleOutgoing
  split
  · have hidle : Idle (doFirstSend c request).children := by
      rw [show (doFirstSend c request).children = [] from hnil]
      exact fun _ hd => nomatch hd
    refine ⟨⟨good_doFirstSend hc hunsent request, isSent_doFirstSend hunsent request,
      (fun _ ha => nomatch ha), fun _ => hidle⟩, fun hfails => not_pending_of_idle ?_ hidle⟩
    rw [Transaction.isPursued, isCalling_doFirstSend hunsent hfails, Bool.false_and]
  · rename_i hdns
    rw [Bool.not_eq_true] at hdns
    rw [hnil]
    have hspec := spec_recurseDnsSrvChildren ua (x := .node (c.label.addRequest request) [])
      hclient hdns (hasResponse_eq_false.mp hresponse).2
      (by rw [Rose.label_node, Transaction.IsSent, state_addRequest hunsent])
      ⟨(fun _ hd => nomatch hd), .nil, .nil, (fun _ hd => nomatch hd), (fun _ hd => nomatch hd)⟩
      (fun _ hd => nomatch hd)
    refine ⟨hspec, fun hfails => ?_⟩
    have hidle := hspec.idle hfails
    have hkept := (kept_recurseDnsSrvChildren ua (.node (c.label.addRequest request) [])).isDnsSrvChild
    generalize (recurseDnsSrvChildren ua (.node (c.label.addRequest request) [])).tree = y
      at hidle hkept
    obtain ⟨t, cs⟩ := y
    rw [pending_node]
    rintro (⟨h, -⟩ | ⟨d, hd, h⟩)
    · rw [show t.isDnsSrvChild = false from hkept.trans hdns] at h
      cases h
    · exact hidle d hd h

/-! ## Contacts -/

/-- How far the loop over the contacts has come. -/
inductive Turning (before : List Tree) (nextQvalue : ℚ) (numRecursed : Nat) (cs : List Tree) :
    Prop
  /-- No request has been sent. -/
  | none (hnum : numRecursed = 0) (hidle : Idle before)
      (hsent : ∀ c ∈ before, c.label.isUnsent = false)
  /-- Requests have been sent, the last of them with the q value `nextQvalue`. -/
  | some (last : Tree) (hlast : before.getLast? = .some last)
      (hnum : numRecursed ≠ 0) (hnext : last.label.qvalue = nextQvalue)
      (hsent : ∀ c ∈ before, c.label.isUnsent = false) (hunsent : ∀ c ∈ cs, c.label.isUnsent = true)
      (hchain : ∀ sibling ∈ before, Pending sibling → ∃ l₁ l₂, before = l₁ ++ sibling :: l₂ ∧
        (sibling :: l₂).IsChain fun c d => Close c.label.qvalue d.label.qvalue)
  /-- The children that are left have to wait. -/
  | done (hnum : numRecursed ≠ 0) (hpos : 0 < nextQvalue)
      (hunsent : ∀ c ∈ cs, c.label.isUnsent = true)
      (hfar : ∀ c ∈ cs,
        minQDeltaSquare ≤ (nextQvalue - c.label.qvalue) * (nextQvalue - c.label.qvalue))

theorem close_self (q : ℚ) : Close q q := by
  rw [Close, sub_self, zero_mul]
  norm_num [minQDeltaSquare]

theorem far_of_le {p q r : ℚ} (hqp : q ≤ p) (hrq : r ≤ q)
    (hfar : minQDeltaSquare ≤ (p - q) * (p - q)) : minQDeltaSquare ≤ (p - r) * (p - r) := by
  have hpq : 0 ≤ p - q := sub_nonneg.mpr hqp
  have hle : p - q ≤ p - r := sub_le_sub_left hrq p
  exact hfar.trans (mul_le_mul hle hle hpq (hpq.trans hle))

theorem Turning.chain_concat {before l₁ l₂ : List Tree} {sibling last : Tree}
    (hbefore : before = l₁ ++ sibling :: l₂) (hlast : before.getLast? = .some last)
    (hchain : (sibling :: l₂).IsChain fun c d => Close c.label.qvalue d.label.qvalue)
    (hclose : Close last.label.qvalue y.label.qvalue) :
    ((sibling :: l₂) ++ [y]).IsChain fun c d => Close c.label.qvalue d.label.qvalue := by
  rw [isChain_append]
  refine ⟨hchain, isChain_singleton _, fun d hd e he => ?_⟩
  rw [hbefore, getLast?_append, getLast?_cons, Option.some_or] at hlast
  rw [getLast?_cons] at hd
  obtain rfl := Option.some.inj (hlast.symm.trans hd)
  obtain rfl := Option.some.inj he
  exact hclose

/-- One round of the loop over the contacts. -/
structure TurnSpec (before : List Tree) (turn : Turn) (after : List Tree) : Prop where
  siblings : Siblings (before ++ [turn.child] ++ after)
  attempts : ∀ a ∈ turn.attempts, Respects a
  turning : Turning (before ++ [turn.child]) turn.nextQvalue turn.numRecursed after

section Turn

variable {ua : UserAgent} {parent : Transaction} {request : SipRequest} {before after : List Tree}
  {nextQvalue : ℚ} {numRecursed : Nat} {c : Tree}

theorem Siblings.unsent_after (h : Siblings (before ++ c :: after))
    (hunsent : c.label.isUnsent = true) : ∀ d ∈ after, d.label.isUnsent = true := by
  have hlast := h.unsentLast
  rw [pairwise_append, pairwise_cons] at hlast
  exact fun d hd => hlast.2.1.1 d hd hunsent

theorem Siblings.le_last (h : Siblings (before ++ c :: after)) {last : Tree}
    (hlast : before.getLast? = some last) : c.label.qvalue ≤ last.label.qvalue := by
  have hsorted := h.sorted
  rw [pairwise_append] at hsorted
  exact hsorted.2.2 last (mem_of_getLast? hlast) c mem_cons_self

/-- A request is only sent if its q value counts as that of the last one. -/
theorem Turning.close (h : Turning before nextQvalue numRecursed (c :: after))
    (hcs : Siblings (before ++ c :: after)) (hnonneg : 0 ≤ c.label.qvalue)
    (hnext : numRecursed = 0 ∨ nextQvalue ≤ 0 ∨
      (nextQvalue - c.label.qvalue) * (nextQvalue - c.label.qvalue) < minQDeltaSquare) :
    (∀ b ∈ before, b.label.isUnsent = false) ∧
      (numRecursed = 0 ∧ Idle before ∨
        ∀ sibling ∈ before, Pending sibling → Linked before c sibling) := by
  cases h with
  | none hnum hidle hsent => exact ⟨hsent, Or.inl ⟨hnum, hidle⟩⟩
  | some last hlast hnum hq hsent _ hchain =>
    refine ⟨hsent, Or.inr fun sibling hmem hpending => ?_⟩
    obtain ⟨l₁, l₂, hbefore, hl₂⟩ := hchain sibling hmem hpending
    refine ⟨l₁, l₂, hbefore, Turning.chain_concat hbefore hlast hl₂ ?_⟩
    have hle := hcs.le_last hlast
    rw [hq] at hle ⊢
    rcases hnext with hzero | hnonpos | hclose
    · exact absurd hzero hnum
    · rw [le_antisymm hle (hnonpos.trans hnonneg)]
      exact close_self _
    · exact hclose
  | done hnum hpos _ hfar =>
    rcases hnext with hzero | hnonpos | hclose
    · exact absurd hzero hnum
    · exact absurd hpos (not_lt.mpr hnonpos)
    · exact absurd hclose (not_lt.mpr (hfar c mem_cons_self))

theorem turnSpec_sent (h : Turning before nextQvalue numRecursed (c :: after))
    (hcs : Siblings (before ++ c :: after)) (hnonneg : 0 ≤ c.label.qvalue)
    (hdns : c.label.isDnsSrvChild = false) (hunsent : c.label.isUnsent = true)
    (hnext : numRecursed = 0 ∨ nextQvalue ≤ 0 ∨
      (nextQvalue - c.label.qvalue) * (nextQvalue - c.label.qvalue) < minQDeltaSquare)
    {sent : Outcome} (hsent : sent = handleOutgoing ua c (Request.removeTopVia request)) :
    TurnSpec before
      ⟨sent.tree, c.label.qvalue, if sent.started then numRecursed + 1 else numRecursed,
        ⟨parent, before, c, after⟩ :: sent.attempts⟩ after := by
  have hc : c ∈ before ++ c :: after := mem_append_right _ mem_cons_self
  obtain ⟨hbefore, hlinked⟩ := h.close hcs hnonneg hnext
  have hkept := kept_handleOutgoing ua c (Request.removeTopVia request)
  have hspec := spec_handleOutgoing ua (hcs.good c hc) (hcs.client c hc) hunsent
    (Request.removeTopVia request)
  rw [← hsent] at hkept hspec
  obtain ⟨hspec, hfails⟩ := hspec
  have hreplace := hcs.replace hspec.good hkept (Or.inr ⟨hspec.sent.isUnsent, hbefore⟩)
  have hbefore' : ∀ b ∈ before ++ [sent.tree], b.label.isUnsent = false :=
    forall_mem_append.mpr ⟨hbefore, forall_mem_singleton.mpr hspec.sent.isUnsent⟩
  refine ⟨by simpa using hreplace, ?_, ?_⟩
  · rw [forall_mem_cons]
    refine ⟨⟨fun sibling hmem hlt hwaiting => ?_, fun h => ?_⟩, hspec.attempts⟩
    · rcases mem_append.mp hmem with hmem | hmem
      · have hpending := hcs.pending (mem_append_left _ hmem) hwaiting
        rcases hlinked with ⟨-, hidle⟩ | hlinked
        · exact absurd hpending (hidle sibling hmem)
        · exact hlinked sibling hmem hpending
      · exact absurd hlt (not_lt.mpr (hcs.le_of_mem_after hmem))
    · rw [show c.label.isDnsSrvChild = true from h] at hdns
      cases hdns
  · by_cases hzero : (if sent.started then numRecursed + 1 else numRecursed) = 0
    · -- still nothing has been sent
      have hnum : numRecursed = 0 ∧ sent.started = false := by
        cases hstarted : sent.started with
        | true => simp [hstarted] at hzero
        | false => exact ⟨by simpa [hstarted] using hzero, rfl⟩
      refine .none hzero ?_ hbefore'
      refine forall_mem_append.mpr ⟨?_, forall_mem_singleton.mpr (hfails hnum.2)⟩
      cases h with
      | none _ hidle => exact hidle
      | some _ _ hne => exact absurd hnum.1 hne
      | done hne => exact absurd hnum.1 hne
    · refine .some sent.tree (by simp) hzero hkept.qvalue hbefore' (hcs.unsent_after hunsent) ?_
      rw [forall_mem_append, forall_mem_singleton]
      refine ⟨fun sibling hmem hpending => ?_, fun _ => ⟨before, [], rfl, isChain_singleton _⟩⟩
      rcases hlinked with ⟨-, hidle⟩ | hlinked
      · exact absurd hpending (hidle sibling hmem)
      · obtain ⟨l₁, l₂, rfl, hchain⟩ := hlinked sibling hmem hpending
        refine ⟨l₁, l₂ ++ [sent.tree], by simp, ?_⟩
        rw [isChain_append] at hchain
        rw [← cons_append, isChain_append]
        refine ⟨hchain.1, isChain_singleton _, fun d hd e he => ?_⟩
        obtain rfl := Option.some.inj he
        rw [hkept.qvalue]
        exact hchain.2.2 d hd c rfl

/-- What one turn of the loop over the contacts keeps. -/
theorem turnSpec (h : Turning before nextQvalue numRecursed (c :: after))
    (hcs : Siblings (before ++ c :: after)) (hidle : ¬ Pending c) (hnonneg : 0 ≤ c.label.qvalue)
    (hdns : c.label.isDnsSrvChild = false) {turn : Turn}
    (hturn : TurnStep ua parent request before nextQvalue numRecursed c after turn) :
    TurnSpec before turn after := by
  have hnextList : ∀ y, before ++ [y] ++ after = before ++ y :: after := fun y => by simp
  cases hturn with
  | sent sent hsent hunsent hnext =>
    exact turnSpec_sent h hcs hnonneg hdns hunsent hnext hsent
  | waits hunsent hnum hpos hfar =>
    refine ⟨hnextList c ▸ hcs, (fun _ ha => nomatch ha), .done hnum hpos ?_ ?_⟩
    · exact hcs.unsent_after hunsent
    · cases h with
      | none hzero => exact absurd hzero hnum
      | some last hlast _ hq =>
        intro d hd
        exact far_of_le (hq ▸ hcs.le_last hlast) (hcs.le_of_mem_after hd) hfar
      | done _ _ _ hfar => exact fun d hd => hfar d (mem_cons_of_mem _ hd)
  | passed nextQvalue' hunsent =>
    refine ⟨hnextList c ▸ hcs, (fun _ ha => nomatch ha), ?_⟩
    have hnot : ¬ ∀ d ∈ c :: after, d.label.isUnsent = true := by
      intro hall
      rw [hall c mem_cons_self] at hunsent
      cases hunsent
    cases h with
    | none hnum hbefore hsent =>
      refine .none hnum ?_ ?_
      · exact forall_mem_append.mpr ⟨hbefore, forall_mem_singleton.mpr hidle⟩
      · exact forall_mem_append.mpr ⟨hsent, forall_mem_singleton.mpr hunsent⟩
    | some _ _ _ _ _ hall => exact absurd hall hnot
    | done _ _ hall => exact absurd hall hnot

theorem Turning.idle (h : Turning before nextQvalue numRecursed after) (hnum : numRecursed = 0) :
    Idle before := by
  cases h with
  | none _ hidle => exact hidle
  | some _ _ hne => exact absurd hnum hne
  | done hne => exact absurd hnum hne

variable (ua parent request) in
/-- The loop over the contacts keeps the children in order. -/
theorem recurseLoop_spec (responseCode : Int)
    (h : Turning before nextQvalue numRecursed cs) (hcs : Siblings (before ++ cs)) (hidle : Idle cs)
    (hcontact : ∀ c ∈ cs, 0 ≤ c.label.qvalue ∧ c.label.isDnsSrvChild = false) :
    SendSpec (recurseLoop ua parent request responseCode before nextQvalue numRecursed cs) := by
  induction cs generalizing before nextQvalue numRecursed with
  | nil =>
    rw [append_nil] at hcs
    refine ⟨hcs, (fun _ ha => nomatch ha), fun hstarted => h.idle ?_⟩
    simpa [recurseLoop] using hstarted
  | cons c after ih =>
    have hidle : ¬ Pending c ∧ Idle after := forall_mem_cons.mp hidle
    rw [forall_mem_cons] at hcontact
    have hturn := turnSpec h hcs hidle.1 hcontact.1.1 hcontact.1.2
      (turnStep ua parent request before nextQvalue numRecursed c after)
    rw [recurseLoop]
    dsimp only
    split
    · refine ⟨?_, hturn.attempts, fun hstarted => ?_⟩
      · simpa using hturn.siblings
      · have hbefore := hturn.turning.idle (by simpa using hstarted)
        have hall := forall_mem_append.mpr ⟨hbefore, hidle.2⟩
        rwa [append_assoc] at hall
    · have hrest := ih hturn.turning hturn.siblings hidle.2 hcontact.2
      exact hrest.append _ hturn.attempts

end Turn

/-- The children stay what they are, whatever is sent to them. -/
abbrev KeptChildren : List Tree → List Tree → Prop :=
  Forall₂ fun c d => Kept c.label d.label

theorem keptChildren_refl (cs : List Tree) : KeptChildren cs cs :=
  forall₂_same.mpr fun c _ => .refl c.label

theorem keptChildren_concat {l before : List Tree} (h : KeptChildren l before) {c : Tree}
    (hy : Kept c.label y.label) : KeptChildren (l ++ [c]) (before ++ [y]) :=
  rel_append h (.cons hy .nil)

theorem keptChildren_put {l before : List Tree} (h : KeptChildren l before) {c : Tree}
    (hy : Kept c.label y.label) (after : List Tree) :
    KeptChildren (l ++ c :: after) (before ++ y :: after) :=
  rel_append h (.cons hy (keptChildren_refl after))

theorem keptChildren_pursueServers (parent : Transaction) (request : SipRequest)
    {l before : List Tree} (h : KeptChildren l before) :
    KeptChildren (l ++ cs) (pursueServers parent request before cs).children := by
  induction cs generalizing l before with
  | nil =>
    rw [append_nil]
    exact h
  | cons c after ih =>
    have hsent := kept_doFirstSend c request
    rw [pursueServers, append_cons]
    dsimp only
    split
    · split
      · rw [← append_cons]
        exact keptChildren_put h hsent after
      · exact ih (keptChildren_concat h hsent)
    · split
      · rw [← append_cons]
        exact keptChildren_put h (.refl _) after
      · exact ih (keptChildren_concat h (.refl _))

theorem keptChildren_recurseLoop (ua : UserAgent) (parent : Transaction) (request : SipRequest)
    (responseCode : Int) {l before : List Tree} (nextQvalue : ℚ) (numRecursed : Nat)
    (h : KeptChildren l before) : KeptChildren (l ++ cs)
      (recurseLoop ua parent request responseCode before nextQvalue numRecursed cs).children := by
  induction cs generalizing l before nextQvalue numRecursed with
  | nil =>
    rw [append_nil]
    exact h
  | cons c after ih =>
    have hturn : Kept c.label
        (recurseChild ua parent request before nextQvalue numRecursed c after).child.label := by
      have hstep := turnStep ua parent request before nextQvalue numRecursed c after
      generalize recurseChild ua parent request before nextQvalue numRecursed c after = turn
        at hstep
      cases hstep with
      | sent sent hsent => exact hsent ▸ kept_handleOutgoing ua c _
      | waits => exact .refl _
      | passed => exact .refl _
    rw [recurseLoop]
    dsimp only
    split
    · exact keptChildren_put h hturn after
    · rw [append_cons]
      exact ih _ _ (keptChildren_concat h hturn)

theorem isCalling_addFinal (t : Transaction) (m : Message) : (t.addFinal m).isCalling = false := by
  unfold Transaction.isCalling Transaction.addFinal
  dsimp only
  cases t.state <;> rfl

theorem isSent_addFinal (t : Transaction) (m : Message) : (t.addFinal m).IsSent := by
  unfold Transaction.IsSent Transaction.addFinal
  dsimp only
  cases t.state <;> decide

theorem siblings_of_good (hx : x.All Good)
    (hclient : x.label.isServerTransaction = false) (hcanceled : x.label.isCanceled = false) :
    Siblings x.children := by
  refine ⟨fun _ hc => hx.child hc, hx.here.sorted, hx.here.unsentLast, hx.here.client,
    fun c hc h => ?_⟩
  rcases hx.here.canceled c hc h with hexpired | hparent | hserver
  · exact hexpired
  · rw [hcanceled] at hparent
    cases hparent
  · rw [hclient] at hserver
    cases hserver

/-- A transaction that has been redirected, and its children. -/
structure Redirected (t : Transaction) (cs : List Tree) : Prop where
  client : t.isServerTransaction = false
  sent : t.IsSent
  final : t.lastFinalResponse ≠ none
  contacts : ∀ m, t.lastFinalResponse = some m → ∀ target ∈ m.contacts, 0 ≤ target.qvalue
  dnsDestinations : t.dnsDestinations = none
  siblings : Siblings cs
  contact : ∀ c ∈ cs, 0 ≤ c.label.qvalue ∧ c.label.isDnsSrvChild = false

theorem Redirected.good (h : Redirected t cs)
    (hrecursing : (∃ c ∈ cs, Pending c) → t.isRecursing = true) : (Rose.node t cs).All Good := by
  refine .node ⟨⟨fun _ => h.sent, h.siblings.sorted, h.siblings.unsentLast, fun hunsent => ?_,
    fun c hc hcanceled => Or.inl (h.siblings.canceled c hc hcanceled), h.siblings.client,
    fun hserver => ?_, fun _ => h.contact, h.contacts, fun _ hnone => absurd hnone h.final,
    fun hne => absurd h.dnsDestinations hne⟩, fun hpending => Or.inl (hrecursing hpending)⟩
    h.siblings.good
  · rw [h.sent.isUnsent] at hunsent
    cases hunsent
  · rw [h.client] at hserver
    cases hserver

theorem redirected_pursueContacts (ua : UserAgent) (hx : x.All Good)
    (hclient : x.label.isServerTransaction = false) (hcanceled : x.label.isCanceled = false)
    (hsent : x.label.IsSent) (hidle : Idle x.children) {response : Message}
    (hresponse : x.label.lastFinalResponse = some response) (request : SipRequest) :
    Redirected (pursueContacts ua x response request).label
        (pursueContacts ua x response request).children ∧
      Idle (pursueContacts ua x response request).children := by
  have hfinal : x.label.lastFinalResponse ≠ none := by
    rw [hresponse]
    exact Option.some_ne_none response
  have hdestinations : x.label.dnsDestinations = none := by
    by_contra hne
    exact hfinal (hx.here.target hne).2.2
  have hcontacts := hx.here.contacts
  unfold pursueContacts
  split
  · split
    · have hnew : ∀ c ∈ response.contacts.map targetTransaction,
          New c ∧ 0 ≤ c.label.qvalue ∧ c.label.isDnsSrvChild = false := by
        intro c hc
        obtain ⟨target, htarget, rfl⟩ := mem_map.mp hc
        exact ⟨new_targetTransaction target, hcontacts response hresponse target htarget, rfl⟩
      have hsiblings := siblings_of_new fun c hc => (hnew c hc).1
      have hmem : ∀ c ∈ (response.contacts.map targetTransaction).foldl linkChild [],
          New c ∧ 0 ≤ c.label.qvalue ∧ c.label.isDnsSrvChild = false := by
        intro c hc
        rcases mem_foldl_linkChild.mp hc with hc | hc
        · exact absurd hc not_mem_nil
        · exact hnew c hc
      exact ⟨⟨hclient, hsent, hfinal, hcontacts, hdestinations, hsiblings, fun c hc => (hmem c hc).2⟩,
        idle_of_unsent hsiblings.good fun c hc => (hmem c hc).1.unsent⟩
    · have hsiblings := siblings_of_good hx hclient hcanceled
      refine ⟨⟨hclient, isSent_addFinal _ _, Option.some_ne_none _, fun m hm => ?_, hdestinations,
        hsiblings, hx.here.contact hfinal⟩, hidle⟩
      obtain rfl := Option.some.inj hm
      exact fun _ htarget => nomatch htarget
  · exact ⟨⟨hclient, hsent, hfinal, hcontacts, hdestinations,
      siblings_of_good hx hclient hcanceled, hx.here.contact hfinal⟩, hidle⟩

/-- Going on to the next contacts keeps the tree good. -/
theorem spec_recurseChildren (ua : UserAgent) (hx : x.All Good)
    (hclient : x.label.isServerTransaction = false) (hcanceled : x.label.isCanceled = false)
    (hsent : x.label.IsSent) (hidle : Idle x.children) : Spec (recurseChildren ua x) := by
  unfold recurseChildren
  split
  · rename_i response request hresponse _
    obtain ⟨hy, hidle⟩ :=
      redirected_pursueContacts ua hx hclient hcanceled hsent hidle hresponse request
    dsimp only
    generalize pursueContacts ua x response request = y at hy hidle
    have hstart : Turning [] (-1) 0 y.children :=
      .none rfl (fun _ hc => absurd hc not_mem_nil) fun _ hc => absurd hc not_mem_nil
    have hsends := recurseLoop_spec ua y.label request response.response.statusCode hstart
      hy.siblings hidle hy.contact
    have hkept : KeptChildren ([] ++ y.children) _ :=
      keptChildren_recurseLoop ua y.label request response.response.statusCode (-1) 0
        (keptChildren_refl [])
    generalize recurseLoop ua y.label request response.response.statusCode [] (-1) 0 y.children =
      sends at hsends hkept
    have hredirected : Redirected { y.label with isRecursing := y.label.isRecursing || sends.started }
        sends.children := by
      refine ⟨hy.client, hy.sent, hy.final, hy.contacts, hy.dnsDestinations, hsends.siblings,
        fun d hd => ?_⟩
      obtain ⟨c, hc, hcd⟩ := Rose.exists_of_mem_right hkept hd
      rw [hcd.qvalue, hcd.isDnsSrvChild]
      exact hy.contact c hc
    refine ⟨hredirected.good ?_, hy.sent, hsends.attempts, hsends.idle⟩
    rintro ⟨c, hc, hpending⟩
    rw [Bool.or_eq_true]
    refine Or.inr ?_
    by_contra hstarted
    exact hsends.idle (by simpa using hstarted) c hc hpending
  · exact ⟨hx, hsent, (fun _ ha => nomatch ha), fun _ => hidle⟩

theorem isPursued_pursueContacts (ua : UserAgent) (h : x.label.isPursued = false)
    (response : Message) (request : SipRequest) :
    (pursueContacts ua x response request).label.isPursued = false := by
  unfold pursueContacts
  split
  · split
    · exact h
    · rw [Rose.label_node, Transaction.isPursued, isCalling_addFinal, Bool.false_and]
  · exact h

theorem isPursued_recurseChildren (ua : UserAgent) (h : x.label.isPursued = false) :
    (recurseChildren ua x).tree.label.isPursued = false := by
  unfold recurseChildren
  split
  · exact isPursued_pursueContacts ua h _ _
  · exact h

/-! ## The search -/

theorem spec_recurse (ua : UserAgent) (hx : x.All Good)
    (hclient : x.label.isServerTransaction = false) (hcanceled : x.label.isCanceled = false)
    (hsent : x.label.IsSent) (hidle : Idle x.children) : Spec (recurse ua x) := by
  unfold recurse
  split
  · rename_i hdestinations
    rw [Option.isSome_iff_ne_none] at hdestinations
    obtain ⟨-, hdns, hnone⟩ := hx.here.target hdestinations
    exact spec_recurseDnsSrvChildren ua hclient hdns hnone hsent
      (siblings_of_good hx hclient hcanceled) hidle
  · exact spec_recurseChildren ua hx hclient hcanceled hsent hidle

theorem lookup_of_ne_nil (ua : UserAgent) (hne : x.children ≠ []) : lookup ua x = x := by
  unfold lookup
  simp [hne]

theorem pursueContacts_of_ne_nil (ua : UserAgent) (hne : x.children ≠ [])
    (response : Message) (request : SipRequest) : pursueContacts ua x response request = x := by
  unfold pursueContacts
  simp [hne]

theorem keptChildren_recurse (ua : UserAgent) (hne : x.children ≠ []) :
    KeptChildren x.children (recurse ua x).tree.children := by
  unfold recurse
  split
  · unfold recurseDnsSrvChildren
    rw [lookup_of_ne_nil ua hne]
    dsimp only
    split
    · split
      · exact keptChildren_refl _
      · exact keptChildren_pursueServers _ _ (keptChildren_refl [])
    · exact keptChildren_refl _
  · unfold recurseChildren
    split
    · rw [pursueContacts_of_ne_nil ua hne]
      exact keptChildren_recurseLoop ua _ _ _ _ _ (keptChildren_refl [])
    · exact keptChildren_refl _

/-- Two transactions that are the same to the transaction above. -/
structure Alike (t u : Transaction) : Prop where
  isServerTransaction : u.isServerTransaction = t.isServerTransaction
  isDnsSrvChild : u.isDnsSrvChild = t.isDnsSrvChild
  qvalue : u.qvalue = t.qvalue
  isUnsent : u.isUnsent = t.isUnsent

/-- A transaction that is cancelled, if at all, because its timer expired. -/
structure Lasting (t u : Transaction) : Prop extends Alike t u where
  hasExpired : t.hasExpired = true → u.hasExpired = true
  isCanceled : u.isCanceled = true → t.isCanceled = true ∨ u.hasExpired = true

theorem Alike.refl (t : Transaction) : Alike t t := ⟨rfl, rfl, rfl, rfl⟩

theorem Lasting.refl (t : Transaction) : Lasting t t := ⟨.refl t, id, Or.inl⟩

theorem Lasting.of_kept {u : Transaction} (h : Kept t u) (hunsent : u.isUnsent = t.isUnsent) :
    Lasting t u where
  isServerTransaction := h.isServerTransaction
  isDnsSrvChild := h.isDnsSrvChild
  qvalue := h.qvalue
  isUnsent := hunsent
  hasExpired := fun ht => h.hasExpired.trans ht
  isCanceled := fun hu => Or.inl (h.isCanceled.symm.trans hu)

theorem Ordered.of_alike {cs' : List Tree} (h : Ordered t cs)
    (hcs : Forall₂ (fun c d : Tree => Alike c.label d.label) cs cs')
    (hcanceled : ∀ d ∈ cs', d.label.isCanceled = true →
      d.label.hasExpired = true ∨ t.isCanceled = true ∨ t.isServerTransaction = true) :
    Ordered t cs' where
  known := h.known
  sorted := by
    refine Rose.pairwise_of_forall₂ (fun c c' d d' hc hd hle => ?_) hcs h.sorted
    rwa [hc.qvalue, hd.qvalue]
  unsentLast := by
    refine Rose.pairwise_of_forall₂ (fun c c' d d' hc hd hlast => ?_) hcs h.unsentLast
    rwa [hc.isUnsent, hd.isUnsent]
  unsent := by
    intro hunsent
    obtain ⟨rfl, hrest⟩ := h.unsent hunsent
    exact ⟨forall₂_nil_left_iff.mp hcs, hrest⟩
  canceled := hcanceled
  client := by
    intro d hd
    obtain ⟨c, hc, halike⟩ := Rose.exists_of_mem_right hcs hd
    exact halike.isServerTransaction.trans (h.client c hc)
  server := by
    intro hserver d hd
    obtain ⟨c, hc, halike⟩ := Rose.exists_of_mem_right hcs hd
    rw [halike.isUnsent, halike.qvalue, halike.isDnsSrvChild]
    exact h.server hserver c hc
  contact := by
    intro hfinal d hd
    obtain ⟨c, hc, halike⟩ := Rose.exists_of_mem_right hcs hd
    rw [halike.qvalue, halike.isDnsSrvChild]
    exact h.contact hfinal c hc
  contacts := h.contacts
  leaf := by
    intro hdns hnone
    obtain rfl := h.leaf hdns hnone
    exact forall₂_nil_left_iff.mp hcs
  target := h.target

theorem Ordered.of_lasting {cs' : List Tree} (h : Ordered t cs)
    (hcs : Forall₂ (fun c d : Tree => Lasting c.label d.label) cs cs') : Ordered t cs' := by
  refine h.of_alike (hcs.imp fun _ _ hlasting => hlasting.toAlike) fun d hd hcanceled => ?_
  obtain ⟨c, hc, hlasting⟩ := Rose.exists_of_mem_right hcs hd
  rcases hlasting.isCanceled hcanceled with hcanceled | hexpired
  · rcases h.canceled c hc hcanceled with hexpired | hrest
    · exact Or.inl (hlasting.hasExpired hexpired)
    · exact Or.inr hrest
  · exact Or.inl hexpired

theorem Ordered.isRecursing (h : Ordered t cs) (hsent : t.IsSent)
    (isRecursing : Bool) : Ordered { t with isRecursing } cs := by
  refine ⟨h.known, h.sorted, h.unsentLast, fun hunsent => ?_, h.canceled, h.client, h.server,
    h.contact, h.contacts, h.leaf, h.target⟩
  have hfalse := hsent.isUnsent
  rw [show t.isUnsent = true from hunsent] at hfalse
  cases hfalse

theorem isPursued_recurse (ua : UserAgent) (h : x.label.isPursued = false) :
    (recurse ua x).tree.label.isPursued = false := by
  have hlookup : (lookup ua x).label.isPursued = false := by
    unfold lookup
    dsimp only
    split
    · rfl
    · exact h
  unfold recurse
  split
  · unfold recurseDnsSrvChildren
    dsimp only
    split
    · split
      · exact hlookup
      · exact hlookup
    · exact hlookup
  · exact isPursued_recurseChildren ua h

theorem isPursued_searchBelow (ua : UserAgent) (depth : Nat)
    (h : x.label.isPursued = false) : (searchBelow ua depth x).tree.label.isPursued = false := by
  cases depth with
  | zero => exact h
  | succ depth =>
    refine searchLoop_induct ua _ (I := fun s => s.parent.isPursued = false) ?_ _ h
    intro s c after next hafter hs hnext
    cases hnext with
    | unsent found hfound =>
      subst hfound
      exact isPursued_recurse ua hs
    | _ => exact hs

/-- What the search keeps, from child to child. -/
structure Searching (s : Progress) : Prop where
  sent : s.parent.IsSent
  ordered : Ordered s.parent (s.before ++ s.after)
  good : ∀ c ∈ s.before ++ s.after, c.All Good
  attempts : ∀ a ∈ s.attempts, Respects a
  idle : s.childStillProceeding = false → s.startingNewSearch = false → Idle s.before

theorem searching_start (hx : x.All Good) (hsent : x.label.IsSent) :
    Searching { parent := x.label, before := [], after := x.children } :=
  ⟨hsent, hx.here.toOrdered, fun _ hc => hx.child hc, (fun _ ha => nomatch ha),
    fun _ _ _ hc => nomatch hc⟩

section Search

variable {ua : UserAgent} {below : Tree → Outcome} {s : Progress} {c : Tree} {after : List Tree}

theorem Searching.put (hs : Searching s) (hafter : s.after = c :: after)
    (hy : y.All Good) (hkept : Kept c.label y.label) (hunsent : y.label.isUnsent = c.label.isUnsent)
    (childStillProceeding startingNewSearch : Bool) {attempts : List Attempt}
    (hattempts : ∀ a ∈ attempts, Respects a)
    (hidle : childStillProceeding = false → startingNewSearch = false →
      s.childStillProceeding = false ∧ s.startingNewSearch = false ∧ ¬ Pending y) :
    Searching ⟨s.parent, s.before ++ [y], after, childStillProceeding, startingNewSearch,
      s.attempts ++ attempts⟩ := by
  have hordered := hs.ordered
  have hgood := hs.good
  rw [hafter] at hordered hgood
  rw [forall_mem_append, forall_mem_cons] at hgood
  refine ⟨hs.sent, ?_, ?_, ?_, fun hproceeding hstarting => ?_⟩
  · rw [← append_cons]
    refine hordered.of_lasting (rel_append ?_ (.cons (.of_kept hkept hunsent) ?_))
    · exact forall₂_same.mpr fun c _ => .refl c.label
    · exact forall₂_same.mpr fun c _ => .refl c.label
  · rw [← append_cons, forall_mem_append, forall_mem_cons]
    exact ⟨hgood.1, hy, hgood.2.2⟩
  · exact forall_mem_append.mpr ⟨hs.attempts, hattempts⟩
  · obtain ⟨hproceeding, hstarting, hpending⟩ := hidle hproceeding hstarting
    exact forall_mem_append.mpr
      ⟨hs.idle hproceeding hstarting, forall_mem_singleton.mpr hpending⟩

theorem Searching.idle_of_unsent (hs : Searching s) (hafter : s.after = c :: after)
    (hproceeding : s.childStillProceeding = false) (hstarting : s.startingNewSearch = false)
    (hunsent : c.label.isUnsent = true) : Idle (s.before ++ c :: after) := by
  have hgood := hs.good
  have hlast := hs.ordered.unsentLast
  rw [hafter] at hgood hlast
  rw [forall_mem_append, forall_mem_cons] at hgood
  rw [pairwise_append, pairwise_cons] at hlast
  refine forall_mem_append.mpr ⟨hs.idle hproceeding hstarting, forall_mem_cons.mpr ⟨?_, ?_⟩⟩
  · exact not_pending_of_isUnsent hgood.2.1 hunsent
  · exact TransactionTree.idle_of_unsent hgood.2.2 fun d hd => hlast.2.1.1 d hd hunsent

theorem Searching.recurse (hs : Searching s) (hafter : s.after = c :: after)
    (hproceeding : s.childStillProceeding = false) (hstarting : s.startingNewSearch = false)
    (hparent : s.parent.isCanceled = false) (hunsent : c.label.isUnsent = true) :
    Spec (recurse ua (.node s.parent (s.before ++ c :: after))) := by
  have hidle := hs.idle_of_unsent hafter hproceeding hstarting hunsent
  have hordered := hs.ordered
  have hgood := hs.good
  rw [hafter] at hordered hgood
  -- the server transaction has no unsent children
  have hclient : s.parent.isServerTransaction = false := by
    by_contra hserver
    rw [Bool.not_eq_false] at hserver
    have hsent := (hordered.server hserver c (mem_append_right _ mem_cons_self)).1
    rw [hunsent] at hsent
    cases hsent
  refine spec_recurse ua (.node ⟨hordered, ?_⟩ hgood) hclient hparent hs.sent hidle
  rintro ⟨d, hd, hpending⟩
  exact absurd hpending (hidle d hd)

/-- One child searched keeps the invariant of the search. -/
theorem Searching.step (hbelow : ∀ x : Tree, x.All Good → x.label.IsSent → Spec (below x))
    (hkept : ∀ x, Kept x.label (below x).tree.label)
    (hpursued : ∀ x : Tree, x.label.isPursued = false → (below x).tree.label.isPursued = false)
    (hs : Searching s) (hafter : s.after = c :: after) {next : Progress × Bool}
    (hnext : SearchStep ua below s c after next) : Searching next.1 := by
  have hmem : c ∈ s.before ++ s.after := by
    rw [hafter]
    exact mem_append_right _ mem_cons_self
  have hgood := hs.good c hmem
  have hclient := hs.ordered.client c hmem
  cases hnext with
  | pursued _ =>
    have hput := hs.put hafter hgood (.refl _) rfl true s.startingNewSearch
      (fun _ ha => absurd ha not_mem_nil) fun h => nomatch h
    rwa [append_nil] at hput
  | recursing hnot hrecursing =>
    have hsent := isUnsent_of_isRecursing hgood hrecursing
    have hspec := hbelow c hgood (hgood.here.known hsent)
    refine hs.put hafter hspec.good (hkept c) (hspec.sent.isUnsent.trans hsent.symm) _ _
      hspec.attempts
      fun hproceeding hstarting => ?_
    rw [Bool.or_eq_false_iff] at hproceeding
    exact ⟨hproceeding.1, hstarting,
      not_pending_of_idle (hpursued c hnot) (hspec.idle hproceeding.2)⟩
  | completed hnot hrecursing _ hcanceled hunsent =>
    have hspec := spec_recurseChildren ua hgood hclient hcanceled (hgood.here.known hunsent)
      (idle_of_not_isRecursing hgood hclient hrecursing)
    refine hs.put hafter hspec.good (kept_recurseChildren ua c)
      (hspec.sent.isUnsent.trans hunsent.symm) _ _ hspec.attempts fun hproceeding hstarting => ?_
    rw [Bool.or_eq_false_iff] at hstarting
    exact ⟨hproceeding, hstarting.1,
      not_pending_of_idle (isPursued_recurseChildren ua hnot) (hspec.idle hstarting.2)⟩
  | unsent found hfound hproceeding hstarting hparent hunsent =>
    have hspec : Spec found := hfound ▸ hs.recurse hafter hproceeding hstarting hparent hunsent
    refine ⟨hspec.sent, ?_, ?_, ?_, fun _ hstarted => ?_⟩
    · rw [take_append_drop]
      exact hspec.good.here.toOrdered
    · rw [take_append_drop]
      exact fun d hd => hspec.good.child hd
    · exact forall_mem_append.mpr ⟨hs.attempts, hspec.attempts⟩
    · exact fun d hd => hspec.idle hstarted d (mem_of_mem_take hd)
  | skipped hnot hrecursing =>
    have hput := hs.put hafter hgood (.refl _) rfl s.childStillProceeding s.startingNewSearch
      (fun _ ha => absurd ha not_mem_nil) fun hproceeding hstarting => ⟨hproceeding, hstarting,
        not_pending_of_idle hnot (idle_of_not_isRecursing hgood hclient hrecursing)⟩
    rwa [append_nil] at hput

variable (ua below) in
theorem searchLoop_done (count : Nat) {s : Progress} (hcount : s.after.length ≤ count) :
    (searchLoop ua below count s).after = [] ∨
      (searchLoop ua below count s).startingNewSearch = true := by
  induction count generalizing s with
  | zero => exact Or.inl (eq_nil_of_length_eq_zero (Nat.le_zero.mp hcount))
  | succ count ih =>
    rw [searchLoop]
    split
    · rename_i hnil
      exact Or.inl hnil
    · rename_i c after hafter
      have hstep := searchStep ua below s c after
      rw [hafter, length_cons, Nat.add_le_add_iff_right] at hcount
      generalize searchChild ua below s c after = next at hstep
      dsimp only
      split
      · rename_i hends
        cases hstep with
        | unsent => exact Or.inr hends
        | _ => cases hends
      · refine ih ?_
        cases hstep with
        | unsent found hfound =>
          have hlength := (keptChildren_recurse ua
            (x := .node s.parent (s.before ++ c :: after)) (by simp)).length_eq
          rw [← hfound] at hlength
          simp only [Rose.children_node, length_append, length_cons] at hlength
          simp only [length_drop]
          omega
        | _ => exact hcount

end Search

/-- The search below a node keeps the tree good, at every depth. -/
theorem spec_searchBelow (ua : UserAgent) (depth : Nat) (hx : x.All Good)
    (hsent : x.label.IsSent) : Spec (searchBelow ua depth x) := by
  induction depth generalizing x with
  | zero => exact ⟨hx, hsent, (fun _ ha => nomatch ha), fun h => nomatch h⟩
  | succ depth ih =>
    have hloop := searchLoop_induct ua (searchBelow ua depth) (I := Searching)
      (fun s c after next hafter hs hnext =>
        hs.step (fun _ hx => ih hx) (kept_searchBelow ua depth)
          (fun _ => isPursued_searchBelow ua depth) hafter hnext)
      x.children.length (searching_start hx hsent)
    have hdone := searchLoop_done ua (searchBelow ua depth) x.children.length
      (s := { parent := x.label, before := [], after := x.children }) le_rfl
    rw [searchBelow]
    dsimp only
    generalize searchLoop ua (searchBelow ua depth) x.children.length
      { parent := x.label, before := [], after := x.children } = s at hloop hdone
    have hidle : (s.childStillProceeding || s.startingNewSearch) = false →
        Idle (s.before ++ s.after) := by
      intro hflags
      rw [Bool.or_eq_false_iff] at hflags
      rcases hdone with hnil | hstarting
      · rw [hnil, append_nil]
        exact hloop.idle hflags.1 hflags.2
      · rw [hflags.2] at hstarting
        cases hstarting
    refine ⟨.node ⟨hloop.ordered.isRecursing hloop.sent _, ?_⟩ hloop.good, hloop.sent,
      hloop.attempts, hidle⟩
    rintro ⟨c, hc, hpending⟩
    refine Or.inl ?_
    by_contra hflags
    exact hidle (by simpa using hflags) c hc hpending

end TransactionTree

end SipXRouter
