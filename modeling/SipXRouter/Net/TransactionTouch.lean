import SipXRouter.Bytes
import SipXRouter.Rose
import SipXRouter.Net.SipTransactionList

/-!
# The time stamps of a transaction tree

A transaction that is used touches the whole tree it belongs to, so that none of its
transactions is garbage collected before all of them are stale.

## Design notes

A member is the path that leads to it, so that the topmost parent is the root.

`mTimeStamp` is a `long`, the clock reading and the argument of `touchBelow` are `int`s.
A stamp is never anything but an earlier clock reading.
-/

namespace SipXRouter

open List

namespace TransactionTouch

open SipTransactionList

/-! ## Touching -/

/-- What `touch` and garbage collection look at in a `SipTransaction`. -/
structure SipTransaction where
  transactionState : TransactionState
  timeStamp : Int
deriving DecidableEq

abbrev Tree := Rose SipTransaction

/-- `if (getState() < TRANSACTION_COMPLETE) mTimeStamp = date`. -/
def SipTransaction.stamp (date : Int) (t : SipTransaction) : SipTransaction :=
  if t.transactionState.isComplete then t else { t with timeStamp := date }

mutual

def touchBelow (newDate : Int) : Tree → Tree
  | .node t children => .node (t.stamp newDate) (touchChildren newDate children)

/-- The loop of `touchBelow`. -/
def touchChildren (newDate : Int) : List Tree → List Tree
  | [] => []
  | child :: children => touchBelow newDate child :: touchChildren newDate children

end

/-- `touch` on a member of the tree, when the clock reads `now`. -/
def touch (now : Int32) (member : List Nat) (r : Tree) : Tree :=
  -- first on this transaction alone
  let r := r.alter id (Rose.setLabel (SipTransaction.stamp now.toInt)) member
  match r.label? member with
  | some this => touchBelow (toInt32 this.timeStamp) r
  | none => r

/-- The test of `removeOldTransactions`. -/
def SipTransaction.isOld (oldTransaction : Int) (t : SipTransaction) : Bool :=
  decide (t.timeStamp < oldTransaction)

/-! ## What a touch is for -/

/-- No time stamp of the tree moves backwards, and what is not complete yet has the
current one, so that it is not taken for older than that. -/
structure Touched (now : Int32) (r r' : Tree) : Prop where
  le : ∀ path t t', r.label? path = some t → r'.label? path = some t' → t.timeStamp ≤ t'.timeStamp
  current : ∀ path t', r'.label? path = some t' → t'.transactionState.isComplete = false →
    t'.timeStamp = now.toInt
  notOld : ∀ path t', r'.label? path = some t' → t'.transactionState.isComplete = false →
    ∀ oldTransaction ≤ now.toInt, t'.isOld oldTransaction = false

/-- Every transaction of the tree is complete, or the member is not, or it has been used
at this very second. -/
def StampIsNow (now : Int32) (member : List Nat) (r : Tree) : Prop :=
  (∀ path t, r.label? path = some t → t.transactionState.isComplete = true) ∨
    ∃ t, r.label? member = some t ∧
      (t.transactionState.isComplete = false ∨ t.timeStamp = now.toInt)

/-- The time stamps of the tree are earlier clock readings. -/
def Stamped (now : Int32) (r : Tree) : Prop :=
  ∀ path t, r.label? path = some t → ∃ earlier : Int32, t.timeStamp = earlier.toInt ∧ earlier ≤ now

variable {now : Int32} {member : List Nat} {r : Tree}

theorem SipTransaction.stamp_of_complete {t : SipTransaction} {date : Int}
    (h : t.transactionState.isComplete = true) : t.stamp date = t := if_pos h

theorem SipTransaction.stamp_of_not_complete {t : SipTransaction} {date : Int}
    (h : t.transactionState.isComplete = false) : t.stamp date = { t with timeStamp := date } := by
  rw [stamp, if_neg (by rw [h]; exact Bool.false_ne_true)]

@[simp] theorem SipTransaction.transactionState_stamp (t : SipTransaction) (date : Int) :
    (t.stamp date).transactionState = t.transactionState := by
  unfold stamp
  split
  · rfl
  · rfl

@[simp] theorem SipTransaction.stamp_stamp (t : SipTransaction) (date date' : Int) :
    (t.stamp date).stamp date' = t.stamp date' := by
  cases h : t.transactionState.isComplete with
  | true => rw [t.stamp_of_complete h]
  | false =>
    rw [t.stamp_of_not_complete h, t.stamp_of_not_complete h]
    exact SipTransaction.stamp_of_not_complete h

theorem touchChildren_eq_map (date : Int) (cs : List Tree) :
    touchChildren date cs = cs.map (touchBelow date) := by
  induction cs with
  | nil => rfl
  | cons c cs ih => rw [touchChildren, ih, map_cons]

theorem label?_touchBelow (date : Int) (r : Tree) (path : List Nat) :
    (touchBelow date r).label? path = (r.label? path).map (SipTransaction.stamp date) := by
  induction path generalizing r with
  | nil =>
    cases r
    simp [touchBelow]
  | cons i path ih =>
    obtain ⟨t, cs⟩ := r
    rw [touchBelow, touchChildren_eq_map, Rose.label?_cons, Rose.label?_cons, Rose.children_node,
      Rose.children_node, getElem?_map]
    cases cs[i]? with
    | none => rfl
    | some c => exact ih c

theorem toInt32_toInt (n : Int32) : toInt32 n.toInt = n.toInt := by
  have hle := n.le_toInt
  have hlt := n.toInt_lt
  unfold toInt32
  omega

/-- The date that the member hands to the tree. -/
def dateOf (now : Int32) (this : SipTransaction) : Int :=
  if this.transactionState.isComplete then this.timeStamp else now.toInt

theorem label?_touch (hstamped : Stamped now r) {this : SipTransaction}
    (hthis : r.label? member = some this) (path : List Nat) : (touch now member r).label? path =
      (r.label? path).map (SipTransaction.stamp (dateOf now this)) := by
  have hafter : (r.alter id (Rose.setLabel (SipTransaction.stamp now.toInt)) member).label? member =
      some (this.stamp now.toInt) := by
    rw [Rose.label?_alter_setLabel, hthis, if_pos rfl, Option.map_some]
  have hdate : toInt32 (this.stamp now.toInt).timeStamp = dateOf now this := by
    obtain ⟨earlier, hearlier, -⟩ := hstamped member this hthis
    cases hstate : this.transactionState.isComplete with
    | true => rw [this.stamp_of_complete hstate, dateOf, if_pos hstate, hearlier, toInt32_toInt]
    | false => rw [this.stamp_of_not_complete hstate, toInt32_toInt, dateOf, hstate]; rfl
  rw [touch, hafter]
  show (touchBelow (toInt32 (this.stamp now.toInt).timeStamp) _).label? path = _
  rw [label?_touchBelow, hdate, Rose.label?_alter_setLabel, Option.map_map]
  by_cases hpath : path = member
  · -- its own stamp is set twice
    rw [if_pos hpath, hpath, hthis, Option.map_some, Option.map_some, Function.comp_apply,
      SipTransaction.stamp_stamp]
  · rw [if_neg hpath, Function.comp_id]

theorem touch_stamped (hstamped : Stamped now r) (hmember : (r.label? member).isSome = true) :
    Stamped now (touch now member r) := by
  obtain ⟨this, hthis⟩ := Option.isSome_iff_exists.mp hmember
  intro path t' ht'
  rw [label?_touch hstamped hthis] at ht'
  obtain ⟨t, ht, rfl⟩ := Option.map_eq_some_iff.mp ht'
  cases hstate : t.transactionState.isComplete with
  | true =>
    rw [t.stamp_of_complete hstate]
    exact hstamped path t ht
  | false =>
    rw [t.stamp_of_not_complete hstate]
    show ∃ earlier : Int32, dateOf now this = earlier.toInt ∧ earlier ≤ now
    unfold dateOf
    split
    · exact hstamped member this hthis
    · exact ⟨now, rfl, Int32.le_refl now⟩

theorem dateOf_eq_now_iff {this : SipTransaction} : dateOf now this = now.toInt ↔
    this.transactionState.isComplete = false ∨ this.timeStamp = now.toInt := by
  unfold dateOf
  cases this.transactionState.isComplete with
  | true => simp
  | false => simp

/-- A touch reaches the whole tree exactly when the stamp handed on is the present time. -/
theorem touched_iff (hstamped : Stamped now r) (hmember : (r.label? member).isSome = true) :
    Touched now r (touch now member r) ↔ StampIsNow now member r := by
  obtain ⟨this, hthis⟩ := Option.isSome_iff_exists.mp hmember
  have hlabel := label?_touch hstamped hthis
  constructor
  · intro h
    by_cases hall : ∀ path t, r.label? path = some t → t.transactionState.isComplete = true
    · exact Or.inl hall
    · push Not at hall
      obtain ⟨path, t, ht, hstate⟩ := hall
      replace hstate := Bool.eq_false_of_not_eq_true hstate
      have hcurrent := h.current path (t.stamp (dateOf now this))
        (by rw [hlabel, ht, Option.map_some]) (by rw [t.transactionState_stamp]; exact hstate)
      rw [t.stamp_of_not_complete hstate] at hcurrent
      exact Or.inr ⟨this, hthis, dateOf_eq_now_iff.mp hcurrent⟩
  · intro h
    have hcurrent : ∀ path t', (touch now member r).label? path = some t' →
        t'.transactionState.isComplete = false → t'.timeStamp = now.toInt := by
      intro path t' ht' hstate
      rw [hlabel] at ht'
      obtain ⟨t, ht, rfl⟩ := Option.map_eq_some_iff.mp ht'
      rw [t.transactionState_stamp] at hstate
      rw [t.stamp_of_not_complete hstate]
      rcases h with hall | ⟨this', hthis', hnow⟩
      · exact absurd (hall path t ht) (by rw [hstate]; exact Bool.false_ne_true)
      · obtain rfl := Option.some.inj (hthis.symm.trans hthis')
        exact dateOf_eq_now_iff.mpr hnow
    refine ⟨fun path t t' ht ht' => ?_, hcurrent, fun path t' ht' hstate oldTransaction hle => ?_⟩
    · cases hstate : t.transactionState.isComplete with
      | true =>
        rw [hlabel, ht, Option.map_some, t.stamp_of_complete hstate] at ht'
        rw [Option.some.inj ht']
      | false =>
        have hsame : t'.transactionState.isComplete = false := by
          rw [hlabel, ht, Option.map_some] at ht'
          rw [← Option.some.inj ht', t.transactionState_stamp, hstate]
        obtain ⟨earlier, hearlier, hle⟩ := hstamped path t ht
        rw [hcurrent path t' ht' hsame, hearlier]
        exact Int32.le_iff_toInt_le.mp hle
    · rw [SipTransaction.isOld, hcurrent path t' ht' hstate]
      exact decide_eq_false (not_lt.mpr hle)

/-! ## Many touches -/

/-- A touch: the states of the transactions by then, the member and the clock. -/
structure Use where
  states : List Nat → TransactionState
  member : List Nat
  now : Int32

/-- Between two touches the states change in any way. -/
def restate (states : List Nat → TransactionState) (r : Tree) : Tree :=
  r.mapLabels fun path t => { t with transactionState := states path }

/-- A condition on the tree that holds before each touch. -/
def Throughout (P : Int32 → List Nat → Tree → Prop) : Tree → List Use → Prop
  | _, [] => True
  | r, u :: us =>
    P u.now u.member (restate u.states r) ∧
      Throughout P (touch u.now u.member (restate u.states r)) us

theorem label?_restate (states : List Nat → TransactionState) (r : Tree) (path : List Nat) :
    (restate states r).label? path =
      (r.label? path).map fun t => { t with transactionState := states path } :=
  Rose.label?_mapLabels _ r path

theorem isSome_label?_touch (now : Int32) (member : List Nat) (r : Tree) (path : List Nat) :
    ((touch now member r).label? path).isSome = (r.label? path).isSome := by
  unfold touch
  dsimp only
  split
  · rw [label?_touchBelow, Option.isSome_map, Rose.label?_alter_setLabel, Option.isSome_map]
  · rw [Rose.label?_alter_setLabel, Option.isSome_map]

theorem Stamped.restate (h : Stamped now r) (states : List Nat → TransactionState) :
    Stamped now (restate states r) := by
  intro path t' ht'
  rw [label?_restate] at ht'
  obtain ⟨t, ht, rfl⟩ := Option.map_eq_some_iff.mp ht'
  exact h path t ht

theorem Stamped.node {t : SipTransaction} {cs : List Tree}
    (ht : ∃ earlier : Int32, t.timeStamp = earlier.toInt ∧ earlier ≤ now)
    (hcs : ∀ c ∈ cs, Stamped now c) : Stamped now (.node t cs) := by
  intro path t' ht'
  cases path with
  | nil =>
    obtain rfl := Option.some.inj ht'
    exact ht
  | cons i path =>
    rw [Rose.label?_cons, Rose.children_node, Option.bind_eq_some_iff] at ht'
    obtain ⟨c, hc, hpath⟩ := ht'
    exact hcs c (mem_of_getElem? hc) path t' hpath

theorem Stamped.mono (h : Stamped now r) {later : Int32} (hle : now ≤ later) : Stamped later r := by
  intro path t ht
  obtain ⟨earlier, hearlier, hbefore⟩ := h path t ht
  exact ⟨earlier, hearlier, Int32.le_trans hbefore hle⟩

/-- Over any run with a clock that does not go backwards, the touches do what they are for
exactly if each of them has the date of the clock to hand on. -/
theorem touched_run_iff (us : List Use) (hstamped : Stamped now r)
    (hclock : (now :: us.map Use.now).Pairwise (· ≤ ·))
    (hmember : ∀ u ∈ us, (r.label? u.member).isSome = true) :
    Throughout (fun now member r => Touched now r (touch now member r)) r us ↔
      Throughout StampIsNow r us := by
  induction us generalizing now r with
  | nil => exact Iff.rfl
  | cons u us ih =>
    rw [map_cons, pairwise_cons] at hclock
    rw [forall_mem_cons] at hmember
    have hstamped' : Stamped u.now (restate u.states r) :=
      (hstamped.mono (hclock.1 u.now mem_cons_self)).restate u.states
    have hmember' (path : List Nat) : ((restate u.states r).label? path).isSome =
        (r.label? path).isSome := by
      rw [label?_restate, Option.isSome_map]
    have hthis : ((restate u.states r).label? u.member).isSome = true := by
      rw [hmember']
      exact hmember.1
    have hrest := ih (touch_stamped hstamped' hthis) hclock.2 fun v hv => by
      rw [isSome_label?_touch, hmember']
      exact hmember.2 v hv
    exact and_congr (touched_iff hstamped' hthis) hrest

theorem touched_run_proceedingParent :
    let r : Tree := .node ⟨.proceeding, 10⟩ [.node ⟨.proceeding, 20⟩ []]
    let us : List Use :=
      [⟨fun _ => .proceeding, [], 30⟩,
        ⟨fun path => if path = [] then .proceeding else .complete, [], 40⟩]
    Throughout (fun now member r => Touched now r (touch now member r)) r us := by
  intro r us
  have hstamped : Stamped 20 r := by
    refine .node ⟨10, rfl, by decide⟩ fun c hc => ?_
    rw [mem_singleton.mp hc]
    exact .node ⟨20, rfl, by decide⟩ fun c hc => absurd hc not_mem_nil
  have hiff := touched_run_iff us hstamped (by decide) (by decide)
  exact hiff.mpr ⟨.inr ⟨_, rfl, .inl rfl⟩, .inr ⟨_, rfl, .inl rfl⟩, trivial⟩

/-- A server transaction that is complete is released while a branch below it still
proceeds. -/
theorem not_touched_completeParent :
    let r : Tree := .node ⟨.complete, 10⟩ [.node ⟨.proceeding, 20⟩ []]
    Stamped 20 r ∧ touch 30 [] r = .node ⟨.complete, 10⟩ [.node ⟨.proceeding, 10⟩ []] ∧
      ¬Touched 30 r (touch 30 [] r) := by
  intro r
  have hstamped : Stamped 20 r := by
    refine .node ⟨10, rfl, by decide⟩ fun c hc => ?_
    rw [mem_singleton.mp hc]
    exact .node ⟨20, rfl, by decide⟩ fun c hc => absurd hc not_mem_nil
  have htouch : touch 30 [] r = .node ⟨.complete, 10⟩ [.node ⟨.proceeding, 10⟩ []] := by
    rfl
  refine ⟨hstamped, htouch, fun h => ?_⟩
  rw [htouch] at h
  exact absurd (h.le [0] ⟨.proceeding, 20⟩ ⟨.proceeding, 10⟩ rfl rfl) (by decide)

end TransactionTouch

end SipXRouter
