import Mathlib.Data.List.Count
import SipXRouter.Bytes
import SipXRouter.Run

/-!
# Rate limiting of a transport

`SipTransportRateLimitStrategy` counts the packets of each source.  When the
threshold number of packets has come in, the counting window closes; if it took
no longer than a second and some source has sent the violation rate, there is a
ban.  Bans are kept in a map from addresses to dates, and a ban is lifted when its
date lies far enough back.

Two things go wrong in it.  The loop finds out which source has sent most, and then
the source of the packet that happened to close the window is banned.  And a
permanent ban is an ordinary entry with a date far away: it is read from a static
stream that has only one date in it, and later entries for the address overwrite it.
-/

namespace SipXRouter.RateLimit

open List

variable {Address Range : Type} [DecidableEq Address]

/-- A `ptime`, in microseconds. -/
inductive Ptime where
  | at (time : Int)
  | notADateTime
deriving DecidableEq

/-- What a run is independent of: `cidr_verify`, the class's own test whether an address is in a
range (`quadLibrary` has it as it is), and of the library the date that a permanent ban is read
as and the milliseconds of a difference with a time that is none. -/
structure Library (Address Range : Type) where
  cidrVerify : Address → Range → Bool
  forever : Int
  specialMilliseconds : Int

/-- An entry of a configured list. -/
inductive Entry (Address Range : Type) where
  | address (a : Address)
  | range (r : Range)
deriving DecidableEq

def addresses (entries : List (Entry Address Range)) : List Address :=
  entries.filterMap fun
    | .address a => some a
    | .range _ => none

/-- The members of the class, and whether the static stream of `banAddress` has been
read. -/
structure Strategy (Address Range : Type) where
  packetsPerSecondThreshold : Nat := 100
  thresholdViolationRate : Nat := 50
  currentIterationCount : Nat := 0
  autoBanThresholdViolators : Bool := true
  banLifeTime : Int := 0
  packetCounter : List (Address × Nat) := []
  whiteList : List Address := []
  whiteListRange : List Range := []
  blackListRange : List Range := []
  blackList : Address → Option Ptime := fun _ => none
  lastTime : Int
  enabled : Bool := false
  streamRead : Bool := false

/-- `total_milliseconds`. -/
def totalMilliseconds (microseconds : Int) : Int := microseconds.tdiv 1000

namespace Strategy

variable (lib : Library Address Range) (s : Strategy Address Range)

/-! ## Lists -/

def isWhiteListedAddressRange (source : Address) : Bool :=
  s.whiteListRange.any (lib.cidrVerify source)

def isBannedAddressRange (source : Address) : Bool :=
  s.blackListRange.any (lib.cidrVerify source)

def whiteListed (source : Address) : Bool :=
  s.whiteList.contains source || s.isWhiteListedAddressRange lib source

/-- The test of a packet: what is white listed is never banned. -/
def isBannedAddress (source : Address) : Bool :=
  if !s.enabled then false
  else if s.isWhiteListedAddressRange lib source then false
  else if s.isBannedAddressRange lib source then true
  else if s.whiteList.contains source then false
  else (s.blackList source).isSome

def putBlackList (source : Address) (date : Ptime) : Strategy Address Range :=
  { s with blackList := Function.update s.blackList source (some date) }

/-- `banAddress`.  The first reader of the stream gets its date, and the later ones a
time that is none. -/
def banAddress (source : Address) (permanently : Bool) (now : Int) : Strategy Address Range :=
  if permanently then
    { s.putBlackList source (if s.streamRead then .notADateTime else .at lib.forever) with
      streamRead := true }
  else s.putBlackList source (.at now)

def clearAddress (source : Address) (addToWhiteList : Bool) : Strategy Address Range :=
  { s with
    blackList := Function.update s.blackList source none
    whiteList := if addToWhiteList then s.whiteList ++ [source] else s.whiteList }

/-- One entry of `setPermanentWhiteList`. -/
def whiteListEntry : Entry Address Range → Strategy Address Range
  | .address a => { s with whiteList := s.whiteList ++ [a] }
  | .range r => { s with whiteListRange := s.whiteListRange ++ [r] }

/-- One entry of `setPermanentBlackList`.  The time is not used. -/
def blackListEntry : Entry Address Range → Strategy Address Range
  | .address a => s.banAddress lib a true 0
  | .range r => { s with blackListRange := s.blackListRange ++ [r] }

/-- `setPermanentWhiteList`, on the entries of the list. -/
def setPermanentWhiteList (entries : List (Entry Address Range)) : Strategy Address Range :=
  entries.foldl whiteListEntry s

/-- `setPermanentBlackList`, on the entries of the list. -/
def setPermanentBlackList (entries : List (Entry Address Range)) : Strategy Address Range :=
  entries.foldl (blackListEntry lib) s

end Strategy

/-! ## Packets -/

/-- Count a packet.  A counter is an `unsigned int`. -/
def bump (source : Address) : List (Address × Nat) → List (Address × Nat)
  | [] => [(source, 1)]
  | (a, n) :: rest =>
    if a = source then (a, (n + 1) % 2 ^ 32) :: rest else (a, n) :: bump source rest

/-- The loop over the counters: the highest one, and whose it is. -/
def suspect (counters : List (Address × Nat)) : Nat × Option Address :=
  counters.foldl (fun best entry => if best.1 < entry.2 then (entry.2, some entry.1) else best)
    (0, none)

/-- How many packets of an address the window has counted. -/
def counterOf (counters : List (Address × Nat)) (a : Address) : Nat :=
  ((counters.find? fun entry => entry.1 = a).map Prod.snd).getD 0

namespace Strategy

variable (lib : Library Address Range) (s : Strategy Address Range)

/-- The counting of `logPacket`. -/
def countPacket (source : Address) : Strategy Address Range :=
  { s with
    packetCounter := bump source s.packetCounter
    currentIterationCount := s.currentIterationCount + 1 }

/-- Whether the window has counted as many packets as a second may have. -/
def windowComplete : Bool := decide (s.packetsPerSecondThreshold ≤ s.currentIterationCount)

/-- The packet of `source` that completes the window leads to a ban.  The suspect's
counter is what matters, and the source that is looked up. -/
def autoBans (source : Address) (now : Int) : Bool :=
  decide (totalMilliseconds (now - s.lastTime) ≤ 1000) &&
    decide (s.thresholdViolationRate ≤ (suspect s.packetCounter).1) &&
    s.autoBanThresholdViolators && !s.whiteList.contains source

/-- What happens when the window is complete. -/
def closeWindow (source : Address) (now : Int) : Strategy Address Range :=
  { (if s.autoBans source now then s.putBlackList source (.at now) else s) with
    currentIterationCount := 0
    packetCounter := []
    lastTime := now }

/-- How long ago a ban was, in milliseconds. -/
def banAge (now : Int) : Ptime → Int
  | .at time => totalMilliseconds (now - time)
  | .notADateTime => lib.specialMilliseconds

/-- A ban is old enough to be lifted. -/
def due (now : Int) (date : Ptime) : Bool :=
  decide (toInt32 (s.banLifeTime * 1000) < banAge lib now date)

/-- The parole at the end of `logPacket`. -/
def parole (now : Int) : Strategy Address Range :=
  if 0 < s.banLifeTime then
    { s with
      blackList := fun a => (s.blackList a).bind fun date =>
        if s.due lib now date then none else some date }
  else s

/-- `logPacket` at time `now`. -/
def logPacket (source : Address) (now : Int) : Strategy Address Range :=
  if !s.enabled then s
  else
    let counted := s.countPacket source
    let closed := if counted.windowComplete then counted.closeWindow source now else counted
    closed.parole lib now

end Strategy

/-! ## Runs -/

/-- The calls. -/
inductive Event (Address Range : Type) where
  | logPacket (source : Address) (now : Int)
  | banAddress (source : Address) (permanently : Bool) (now : Int)
  | clearAddress (source : Address) (addToWhiteList : Bool)
  | setPermanentWhiteList (entries : List (Entry Address Range))
  | setPermanentBlackList (entries : List (Entry Address Range))
  | setPacketsPerSecondThreshold (threshold : Nat)
  | setThresholdViolationRate (threshold : Nat)
  | setBanLifeTime (lifetime : Int)
  | setAutoBan (autoBan : Bool)
  | setEnabled (enabled : Bool)

/-- One call. -/
def Strategy.step (lib : Library Address Range) (s : Strategy Address Range) :
    Event Address Range → Strategy Address Range
  | .logPacket source now => s.logPacket lib source now
  | .banAddress source permanently now => s.banAddress lib source permanently now
  | .clearAddress source addToWhiteList => s.clearAddress source addToWhiteList
  | .setPermanentWhiteList entries => s.setPermanentWhiteList entries
  | .setPermanentBlackList entries => s.setPermanentBlackList lib entries
  | .setPacketsPerSecondThreshold threshold => { s with packetsPerSecondThreshold := threshold }
  | .setThresholdViolationRate threshold => { s with thresholdViolationRate := threshold }
  | .setBanLifeTime lifetime => { s with banLifeTime := lifetime }
  | .setAutoBan autoBan => { s with autoBanThresholdViolators := autoBan }
  | .setEnabled enabled => { s with enabled := enabled }

/-- An automatic ban: whom it hit, who had sent the packets of the counting window, the
violation rate at that time, and whether the address was white-listed. -/
structure AutoBan (Address : Type) where
  address : Address
  window : List Address
  rate : Nat
  whiteListed : Bool
deriving DecidableEq

/-- The state together with a record of the run: who sent the packets since the last
window was closed, the automatic bans, and the addresses that were banned permanently
and not cleared. -/
structure Monitor (Address Range : Type) where
  strategy : Strategy Address Range
  window : List Address := []
  autoBans : List (AutoBan Address) := []
  permanent : List Address := []

/-- A packet leads to a ban of its source. -/
def Triggers (s : Strategy Address Range) (source : Address) (now : Int) : Prop :=
  s.enabled = true ∧ (s.countPacket source).windowComplete = true ∧
    (s.countPacket source).autoBans source now = true

instance (s : Strategy Address Range) (source : Address) (now : Int) :
    Decidable (Triggers s source now) := by
  unfold Triggers
  infer_instance

namespace Monitor

variable (lib : Library Address Range) (m : Monitor Address Range)

/-- Who sent the packets of the window after a call. -/
def windowAfter : Event Address Range → List Address
  | .logPacket source _ =>
    if !m.strategy.enabled then m.window
    else if (m.strategy.countPacket source).windowComplete then []
    else source :: m.window
  | _ => m.window

/-- The automatic bans after a call. -/
def autoBansAfter : Event Address Range → List (AutoBan Address)
  | .logPacket source now =>
    if Triggers m.strategy source now then
      ⟨source, source :: m.window, m.strategy.thresholdViolationRate,
        m.strategy.whiteListed lib source⟩ :: m.autoBans
    else m.autoBans
  | _ => m.autoBans

/-- The permanent bans after a call. -/
def permanentAfter : Event Address Range → List Address
  | .banAddress source true _ => source :: m.permanent
  | .clearAddress source _ => m.permanent.filter (· ≠ source)
  | .setPermanentBlackList entries => addresses entries ++ m.permanent
  | _ => m.permanent

/-- One call, and its record. -/
def step (e : Event Address Range) : Monitor Address Range :=
  { strategy := m.strategy.step lib e
    window := m.windowAfter e
    autoBans := m.autoBansAfter lib e
    permanent := m.permanentAfter e }

end Monitor

/-- **Bans are just**: who is banned automatically has sent at least the violation rate
in the window, and is not white-listed. -/
def Just (m : Monitor Address Range) : Prop :=
  ∀ ban ∈ m.autoBans, ban.rate ≤ ban.window.count ban.address ∧ ban.whiteListed = false

/-- **Permanent bans stay**: the address is on the black list, and `isBannedAddress` says
so while the limit is enabled and the address not white-listed. -/
def Lasting (lib : Library Address Range) (m : Monitor Address Range) : Prop :=
  ∀ a ∈ m.permanent, (m.strategy.blackList a).isSome = true ∧
    (m.strategy.enabled = true → m.strategy.whiteListed lib a = false →
      m.strategy.isBannedAddress lib a = true)

/-! ## The conditions -/

/-- The packet that leads to a ban comes from a source whose own counter is at the
violation rate, and that is in no white-listed range. -/
def FromSuspect (lib : Library Address Range) (m : Monitor Address Range) :
    Event Address Range → Prop
  | .logPacket source now =>
    Triggers m.strategy source now →
      m.strategy.thresholdViolationRate ≤
          counterOf (bump source m.strategy.packetCounter) source ∧
        m.strategy.isWhiteListedAddressRange lib source = false
  | _ => True

/-- Bans are never given a life time. -/
def ParoleOff : Event Address Range → Prop
  | .setBanLifeTime lifetime => lifetime ≤ 0
  | _ => True

/-- There is one permanent ban, which gets the date of the stream, and no other ban for
its address; and no packet comes so late that even this date is due. -/
def Untouched (lib : Library Address Range) (m : Monitor Address Range) :
    Event Address Range → Prop
  | .logPacket source now =>
    (Triggers m.strategy source now → source ∉ m.permanent) ∧
      m.strategy.due lib now (.at lib.forever) = false
  | .banAddress source permanently _ =>
    if permanently then m.strategy.streamRead = false else source ∉ m.permanent
  | .setPermanentBlackList entries =>
    (addresses entries).length ≤ 1 ∧ (addresses entries ≠ [] → m.strategy.streamRead = false)
  | _ => True

/-! ## Counting -/

section Counting

theorem counterOf_le_count {counters : List (Address × Nat)} {window : List Address}
    (h : ∀ entry ∈ counters, entry.2 ≤ window.count entry.1) (a : Address) :
    counterOf counters a ≤ window.count a := by
  unfold counterOf
  cases hfind : counters.find? fun entry => entry.1 = a with
  | none => exact Nat.zero_le _
  | some entry =>
    have ha : entry.1 = a := by simpa using find?_some hfind
    rw [← ha]
    exact h entry (mem_of_find?_eq_some hfind)

theorem bump_le_count {counters : List (Address × Nat)} {window : List Address}
    (h : ∀ entry ∈ counters, entry.2 ≤ window.count entry.1) (source : Address) :
    ∀ entry ∈ bump source counters, entry.2 ≤ (source :: window).count entry.1 := by
  have hold {entry : Address × Nat} (hentry : entry.2 ≤ window.count entry.1) :
      entry.2 ≤ (source :: window).count entry.1 :=
    hentry.trans (count_le_count_cons)
  induction counters with
  | nil =>
    intro entry hentry
    obtain rfl := mem_singleton.mp hentry
    simp
  | cons first rest ih =>
    obtain ⟨a, n⟩ := first
    have hrest := fun entry hentry => h entry (mem_cons_of_mem _ hentry)
    intro entry hentry
    rw [bump] at hentry
    split at hentry
    · next heq =>
        rcases mem_cons.mp hentry with rfl | hentry
        · have hfirst := h (a, n) (mem_cons_self ..)
          have hmod := Nat.mod_le (n + 1) (2 ^ 32)
          subst heq
          simp only [count_cons_self] at hfirst ⊢
          omega
        · exact hold (hrest entry hentry)
    · rcases mem_cons.mp hentry with rfl | hentry
      · exact hold (h (a, n) (mem_cons_self ..))
      · exact ih hrest entry hentry

end Counting

/-! ## One call -/

namespace Strategy

variable (lib : Library Address Range) (s : Strategy Address Range)

section Parole

omit [DecidableEq Address] in
@[simp] theorem parole_packetCounter (now : Int) :
    (s.parole lib now).packetCounter = s.packetCounter := by
  unfold parole
  split <;> rfl

omit [DecidableEq Address] in

omit [DecidableEq Address] in
theorem parole_of_nonpos {now : Int} (h : s.banLifeTime ≤ 0) : s.parole lib now = s := by
  rw [parole, if_neg (by omega)]

omit [DecidableEq Address] in
theorem parole_blackList_of_not_due {now : Int} {a : Address} {date : Ptime}
    (ha : s.blackList a = some date) (hdue : s.due lib now date = false) :
    (s.parole lib now).blackList a = some date := by
  unfold parole
  split
  · simp only [ha, Option.bind_some, hdue, Bool.false_eq_true, if_false]
  · exact ha

end Parole

section Packet

variable (source : Address) (now : Int)

theorem logPacket_of_disabled (h : s.enabled = false) : s.logPacket lib source now = s := by
  simp [logPacket, h]

/-- The state that the parole of `logPacket` finds. -/
def beforeParole : Strategy Address Range :=
  let counted := s.countPacket source
  if counted.windowComplete then counted.closeWindow source now else counted

theorem logPacket_of_enabled (h : s.enabled = true) :
    s.logPacket lib source now = (s.beforeParole source now).parole lib now := by
  simp [logPacket, beforeParole, h]

theorem beforeParole_packetCounter : (s.beforeParole source now).packetCounter =
    if (s.countPacket source).windowComplete then [] else bump source s.packetCounter := by
  simp only [beforeParole]
  split <;> rfl

@[simp] theorem beforeParole_banLifeTime :
    (s.beforeParole source now).banLifeTime = s.banLifeTime := by
  simp only [beforeParole, closeWindow]
  split
  · split <;> rfl
  · rfl

theorem beforeParole_blackList (h : s.enabled = true) (a : Address) :
    (s.beforeParole source now).blackList a =
      if Triggers s source now ∧ a = source then some (.at now) else s.blackList a := by
  by_cases hcomplete : (s.countPacket source).windowComplete = true
  · by_cases hban : (s.countPacket source).autoBans source now = true
    · have htriggers : Triggers s source now := ⟨h, hcomplete, hban⟩
      simp only [beforeParole, hcomplete, closeWindow, hban, if_true, putBlackList, htriggers,
        true_and, Function.update_apply]
      rfl
    · have htriggers : ¬ Triggers s source now := fun htriggers => hban htriggers.2.2
      simp only [beforeParole, hcomplete, closeWindow, hban, if_true, htriggers, false_and,
        if_false]
      rfl
  · have htriggers : ¬ Triggers s source now := fun htriggers => hcomplete htriggers.2.1
    simp only [beforeParole, hcomplete, htriggers, false_and, if_false]
    rfl

end Packet

section Lists

omit [DecidableEq Address] in
theorem setPermanentWhiteList_blackList (entries : List (Entry Address Range)) :
    (s.setPermanentWhiteList entries).blackList = s.blackList ∧
      (s.setPermanentWhiteList entries).packetCounter = s.packetCounter ∧
      (s.setPermanentWhiteList entries).banLifeTime = s.banLifeTime := by
  induction entries generalizing s with
  | nil => exact ⟨rfl, rfl, rfl⟩
  | cons entry entries ih => cases entry <;> exact ih _

theorem setPermanentBlackList_packetCounter (entries : List (Entry Address Range)) :
    (s.setPermanentBlackList lib entries).packetCounter = s.packetCounter ∧
      (s.setPermanentBlackList lib entries).banLifeTime = s.banLifeTime := by
  induction entries generalizing s with
  | nil => exact ⟨rfl, rfl⟩
  | cons entry entries ih => cases entry <;> exact ih _

theorem setPermanentBlackList_blackList (entries : List (Entry Address Range)) (a : Address) :
    (a ∉ addresses entries → (s.setPermanentBlackList lib entries).blackList a = s.blackList a) ∧
      (a ∈ addresses entries ∨ (s.blackList a).isSome = true →
        ((s.setPermanentBlackList lib entries).blackList a).isSome = true) := by
  induction entries generalizing s with
  | nil => exact ⟨fun _ => rfl, fun h => h.resolve_left not_mem_nil⟩
  | cons entry entries ih =>
    cases entry with
    | range r => exact ih _
    | address b =>
      have hrest := ih (s.banAddress lib b true 0)
      have hlist : addresses (Entry.address b :: entries : List (Entry Address Range)) =
          b :: addresses entries := rfl
      have hb : (s.banAddress lib b true 0).blackList a =
          if a = b then some (if s.streamRead then .notADateTime else .at lib.forever)
          else s.blackList a := Function.update_apply ..
      rw [hlist]
      constructor
      · intro ha
        rw [mem_cons, not_or] at ha
        exact (hrest.1 ha.2).trans (hb.trans (if_neg ha.1))
      · intro ha
        refine hrest.2 ?_
        rw [hb]
        by_cases hab : a = b
        · exact Or.inr (by rw [if_pos hab]; rfl)
        · rw [if_neg hab]
          exact ha.imp (fun h => (mem_cons.mp h).resolve_left hab) id

theorem setPermanentBlackList_forever {entries : List (Entry Address Range)} {a : Address}
    (hunread : s.streamRead = false) (hlist : addresses entries = [a]) :
    (s.setPermanentBlackList lib entries).blackList a = some (.at lib.forever) := by
  induction entries generalizing s with
  | nil => exact absurd hlist (cons_ne_nil _ _).symm
  | cons entry entries ih =>
    cases entry with
    | range r => exact ih { s with blackListRange := s.blackListRange ++ [r] } hunread hlist
    | address b =>
      obtain ⟨rfl, hnil⟩ := cons_eq_cons.mp hlist
      have hrest : addresses entries = [] := hnil
      have hnone := (setPermanentBlackList_blackList lib (s.banAddress lib b true 0)
        entries b).1 (by
          rw [hrest]
          exact not_mem_nil)
      refine hnone.trans ?_
      simp [banAddress, putBlackList, hunread]

end Lists

end Strategy

/-! ## Runs that keep clear of the slips -/

/-- The counters are no higher than the packets of the window. -/
def Counted (m : Monitor Address Range) : Prop :=
  ∀ entry ∈ m.strategy.packetCounter, entry.2 ≤ m.window.count entry.1

section Steps

variable {lib : Library Address Range} {m : Monitor Address Range} {e : Event Address Range}

/-- Every event keeps the counters within the window. -/
theorem Counted.step (h : Counted m) (e : Event Address Range) : Counted (m.step lib e) := by
  cases e with
  | logPacket source now =>
    cases henabled : m.strategy.enabled with
    | false =>
      have hwindow : m.windowAfter (.logPacket source now) = m.window := by
        simp [Monitor.windowAfter, henabled]
      simpa only [Counted, Monitor.step, Strategy.step,
        Strategy.logPacket_of_disabled lib _ source now henabled, hwindow] using h
    | true =>
      simp only [Counted, Monitor.step, Strategy.step, Monitor.windowAfter,
        Strategy.logPacket_of_enabled lib _ source now henabled,
        Strategy.parole_packetCounter, Strategy.beforeParole_packetCounter, henabled,
        Bool.not_true, Bool.false_eq_true, if_false]
      split
      · exact fun entry hentry => absurd hentry not_mem_nil
      · exact bump_le_count h source
  | banAddress source permanently now =>
    cases permanently <;> exact h
  | setPermanentWhiteList entries =>
    simpa only [Counted, Monitor.step, Strategy.step, Monitor.windowAfter,
      (m.strategy.setPermanentWhiteList_blackList entries).2.1] using h
  | setPermanentBlackList entries =>
    simpa only [Counted, Monitor.step, Strategy.step, Monitor.windowAfter,
      (m.strategy.setPermanentBlackList_packetCounter lib entries).1] using h
  | _ => exact h

/-- Every event keeps the bans earned. -/
theorem Just.step (h : Just m) (hcounted : Counted m) (hsuspect : FromSuspect lib m e) :
    Just (m.step lib e) := by
  cases e with
  | logPacket source now =>
    simp only [Just, Monitor.step, Monitor.autoBansAfter]
    split
    · next htriggers =>
        intro ban hban
        rcases mem_cons.mp hban with rfl | hban
        · obtain ⟨hrate, hrange⟩ := hsuspect htriggers
          have hcount := counterOf_le_count (bump_le_count hcounted source) source
          have hwhite : m.strategy.whiteList.contains source = false := by
            have hbans := htriggers.2.2
            simp only [Strategy.autoBans, Bool.and_eq_true, Bool.not_eq_true'] at hbans
            exact hbans.2
          refine ⟨hrate.trans hcount, ?_⟩
          rw [Strategy.whiteListed, hwhite, hrange]
          rfl
        · exact h ban hban
    · exact h
  | _ => exact h

/-- Every permanently banned address has an entry, and no entry is lifted. -/
structure Standing (m : Monitor Address Range) : Prop where
  banLifeTime : m.strategy.banLifeTime ≤ 0
  listed : ∀ a ∈ m.permanent, (m.strategy.blackList a).isSome = true

/-- Every permanently banned address has the date of the stream. -/
def Dated (lib : Library Address Range) (m : Monitor Address Range) : Prop :=
  ∀ a ∈ m.permanent, m.strategy.blackList a = some (.at lib.forever)

theorem banAddress_blackList (s : Strategy Address Range) (source : Address) (permanently : Bool)
    (now : Int) (a : Address) :
    (s.banAddress lib source permanently now).blackList a =
      if a = source then
        some (if permanently then
          (if s.streamRead then .notADateTime else .at lib.forever) else .at now)
      else s.blackList a := by
  cases permanently <;> exact Function.update_apply ..

theorem clearAddress_blackList (s : Strategy Address Range) (source : Address)
    (addToWhiteList : Bool) {a : Address} (ha : a ≠ source) :
    (s.clearAddress source addToWhiteList).blackList a = s.blackList a :=
  Function.update_of_ne ha ..

theorem Standing.step (h : Standing m) (hoff : ParoleOff e) : Standing (m.step lib e) := by
  cases e with
  | logPacket source now =>
    cases henabled : m.strategy.enabled with
    | false =>
      simp only [Monitor.step, Strategy.step,
        Strategy.logPacket_of_disabled lib _ source now henabled]
      exact ⟨h.banLifeTime, h.listed⟩
    | true =>
      have hlife : (m.strategy.beforeParole source now).banLifeTime ≤ 0 := by
        rw [Strategy.beforeParole_banLifeTime]
        exact h.banLifeTime
      simp only [Monitor.step, Strategy.step,
        Strategy.logPacket_of_enabled lib _ source now henabled,
        Strategy.parole_of_nonpos lib _ hlife]
      refine ⟨hlife, fun a ha => ?_⟩
      simp only [Strategy.beforeParole_blackList _ source now henabled]
      split
      · rfl
      · exact h.listed a ha
  | banAddress source permanently now =>
    refine ⟨?_, fun a ha => ?_⟩
    · cases permanently <;> exact h.banLifeTime
    · simp only [Monitor.step, Strategy.step, banAddress_blackList]
      split
      · rfl
      · next hne =>
          cases permanently with
          | false => exact h.listed a ha
          | true => exact h.listed a ((mem_cons.mp ha).resolve_left hne)
  | clearAddress source addToWhiteList =>
    refine ⟨h.banLifeTime, fun a ha => ?_⟩
    obtain ⟨ha, hne⟩ := mem_filter.mp ha
    simp only [Monitor.step, Strategy.step,
      clearAddress_blackList _ _ _ (of_decide_eq_true hne)]
    exact h.listed a ha
  | setPermanentWhiteList entries =>
    obtain ⟨hblack, -, hlife⟩ := m.strategy.setPermanentWhiteList_blackList entries
    refine ⟨hlife.trans_le h.banLifeTime, fun a ha => ?_⟩
    simp only [Monitor.step, Strategy.step, hblack]
    exact h.listed a ha
  | setPermanentBlackList entries =>
    refine ⟨(m.strategy.setPermanentBlackList_packetCounter lib entries).2.trans_le
      h.banLifeTime, fun a ha => ?_⟩
    exact (m.strategy.setPermanentBlackList_blackList lib entries a).2
      ((mem_append.mp ha).imp id (h.listed a))
  | setBanLifeTime lifetime => exact ⟨hoff, h.listed⟩
  | _ => exact ⟨h.banLifeTime, h.listed⟩

theorem Dated.step (h : Dated lib m) (hkept : Untouched lib m e) : Dated lib (m.step lib e) := by
  cases e with
  | logPacket source now =>
    obtain ⟨hother, hdue⟩ := hkept
    cases henabled : m.strategy.enabled with
    | false =>
      simpa only [Dated, Monitor.step, Strategy.step, Monitor.permanentAfter,
        Strategy.logPacket_of_disabled lib _ source now henabled] using h
    | true =>
      intro a ha
      have hbefore : (m.strategy.beforeParole source now).blackList a =
          some (.at lib.forever) := by
        rw [Strategy.beforeParole_blackList _ source now henabled, if_neg]
        · exact h a ha
        · rintro ⟨htriggers, rfl⟩
          exact hother htriggers ha
      simp only [Monitor.step, Strategy.step,
        Strategy.logPacket_of_enabled lib _ source now henabled]
      refine Strategy.parole_blackList_of_not_due lib _ hbefore ?_
      rw [Strategy.due, Strategy.beforeParole_banLifeTime]
      exact hdue
  | banAddress source permanently now =>
    intro a ha
    simp only [Monitor.step, Strategy.step, banAddress_blackList]
    cases permanently with
    | false =>
      have hne : a ≠ source := by
        rintro rfl
        exact hkept ha
      rw [if_neg hne]
      exact h a ha
    | true =>
      have hunread : m.strategy.streamRead = false := hkept
      simp only [hunread, if_true, Bool.false_eq_true, if_false]
      split
      · rfl
      · next hne => exact h a ((mem_cons.mp ha).resolve_left hne)
  | clearAddress source addToWhiteList =>
    intro a ha
    obtain ⟨ha, hne⟩ := mem_filter.mp ha
    simp only [Monitor.step, Strategy.step,
      clearAddress_blackList _ _ _ (of_decide_eq_true hne)]
    exact h a ha
  | setPermanentWhiteList entries =>
    intro a ha
    simp only [Monitor.step, Strategy.step,
      (m.strategy.setPermanentWhiteList_blackList entries).1]
    exact h a ha
  | setPermanentBlackList entries =>
    obtain ⟨hone, hunread⟩ := hkept
    intro a ha
    by_cases hmem : a ∈ addresses entries
    · have hlist : addresses entries = [a] := by
        obtain ⟨b, hb⟩ := length_eq_one_iff.mp
          (le_antisymm hone (length_pos_of_mem hmem))
        rw [hb, mem_singleton] at hmem
        rw [hb, hmem]
      exact m.strategy.setPermanentBlackList_forever lib
        (hunread (ne_nil_of_mem hmem)) hlist
    · have hold := (m.strategy.setPermanentBlackList_blackList lib entries a).1 hmem
      exact hold.trans (h a ((mem_append.mp ha).resolve_left hmem))
  | _ => exact h

theorem lasting_of_listed (h : ∀ a ∈ m.permanent, (m.strategy.blackList a).isSome = true) :
    Lasting lib m := by
  intro a ha
  refine ⟨h a ha, fun henabled hwhite => ?_⟩
  simp only [Strategy.whiteListed, Bool.or_eq_false_iff] at hwhite
  simp only [Strategy.isBannedAddress, henabled, hwhite.1, hwhite.2, h a ha, Bool.not_true,
    Bool.false_eq_true, if_false, ite_self]

end Steps

/-- A strategy made at time `now`. -/
def start (now : Int) : Monitor Address Range := { strategy := { lastTime := now } }

/-- **Bans are just and lasting** in every run in which each packet that leads to a ban
comes from a source at the violation rate and in no white-listed range, and in which
either bans have no life time, or there is one permanent ban that no other ban
touches. -/
theorem just_and_lasting (lib : Library Address Range) (now : Int) (m : Monitor Address Range) :
    (Run.Reaches (Monitor.step lib)
        (fun m e => FromSuspect lib m e ∧ ParoleOff e) (start now) m →
      Just m ∧ Lasting lib m) ∧
    (Run.Reaches (Monitor.step lib)
        (fun m e => FromSuspect lib m e ∧ Untouched lib m e) (start now) m →
      Just m ∧ Lasting lib m) := by
  have hcounted : Counted (start now : Monitor Address Range) := by
    exact fun entry hentry => absurd hentry not_mem_nil
  have hjust : Just (start now : Monitor Address Range) := by
    exact fun ban hban => absurd hban not_mem_nil
  constructor
  · intro h
    have hstart : Standing (start now : Monitor Address Range) :=
      ⟨le_refl 0, fun a ha => absurd ha not_mem_nil⟩
    have hstep : ∀ (m : Monitor Address Range) e, (Counted m ∧ Just m ∧ Standing m) →
        (FromSuspect lib m e ∧ ParoleOff e) →
          (Counted (m.step lib e) ∧ Just (m.step lib e) ∧ Standing (m.step lib e)) := by
      rintro m e ⟨hc, hj, hs⟩ ⟨hsuspect, hoff⟩
      exact ⟨hc.step e, hj.step hc hsuspect, hs.step hoff⟩
    obtain ⟨-, hj, hs⟩ := h.invariant ⟨hcounted, hjust, hstart⟩ hstep
    exact ⟨hj, lasting_of_listed hs.listed⟩
  · intro h
    have hstart : Dated lib (start now) := fun a ha => absurd ha not_mem_nil
    have hstep : ∀ (m : Monitor Address Range) e, (Counted m ∧ Just m ∧ Dated lib m) →
        (FromSuspect lib m e ∧ Untouched lib m e) →
          (Counted (m.step lib e) ∧ Just (m.step lib e) ∧ Dated lib (m.step lib e)) := by
      rintro m e ⟨hc, hj, hd⟩ ⟨hsuspect, hkept⟩
      exact ⟨hc.step e, hj.step hc hsuspect, hd.step hkept⟩
    obtain ⟨-, hj, hd⟩ := h.invariant ⟨hcounted, hjust, hstart⟩ hstep
    refine ⟨hj, lasting_of_listed fun a ha => ?_⟩
    rw [hd a ha]
    rfl

/-- Addresses as numbers and ranges by their ends. -/
def numbered : Library Nat (Nat × Nat) where
  cidrVerify a r := decide (r.1 ≤ a) && decide (a ≤ r.2)
  forever := 32503680000000000
  specialMilliseconds := 9223372036854775

/-- A strategy that closes its window at three packets and bans from two packets on. -/
def threePackets : List (Event Nat (Nat × Nat)) :=
  [.setEnabled true, .setPacketsPerSecondThreshold 3, .setThresholdViolationRate 2]

/-- Address 9 is banned permanently, and address 1 floods. -/
def flood : List (Event Nat (Nat × Nat)) :=
  threePackets ++ [.setBanLifeTime 60, .banAddress 9 true 0, .logPacket 1 100, .logPacket 2 200,
    .logPacket 1 300]

theorem flood_just_and_lasting :
    (flood.foldl (Monitor.step numbered) (start 0)).autoBans ≠ [] ∧
      Just (flood.foldl (Monitor.step numbered) (start 0)) ∧
      Lasting numbered (flood.foldl (Monitor.step numbered) (start 0)) := by
  refine ⟨by decide, (just_and_lasting numbered 0 _).2 (Run.AllAllowed.reaches ?_)⟩
  exact ⟨⟨trivial, trivial⟩, ⟨trivial, trivial⟩, ⟨trivial, trivial⟩, ⟨trivial, trivial⟩,
    ⟨trivial, rfl⟩, ⟨fun h => absurd h (by decide), by decide, by decide⟩,
    ⟨fun h => absurd h (by decide), by decide, by decide⟩,
    ⟨fun _ => ⟨by decide, by decide⟩, by decide, by decide⟩, trivial⟩

/-- Address 1 floods, and the packet of address 2 closes the window. -/
def bystander : List (Event Nat (Nat × Nat)) :=
  threePackets ++ [.logPacket 1 100, .logPacket 1 200, .logPacket 2 300]

/-- Address 9 is banned permanently and floods all the same; a minute later another
packet comes in. -/
def persistent : List (Event Nat (Nat × Nat)) :=
  threePackets ++ [.setBanLifeTime 60, .banAddress 9 true 0, .logPacket 9 100, .logPacket 9 200,
    .logPacket 9 300, .logPacket 1 70000000]

/-- Address 2 is banned for what address 1 has sent, and the permanent ban of address 9
is lifted. -/
theorem bystander_banned_and_persistent_paroled :
    ¬ Just (bystander.foldl (Monitor.step numbered) (start 0)) ∧
      ¬ Lasting numbered (persistent.foldl (Monitor.step numbered) (start 0)) := by
  constructor
  · intro hjust
    exact absurd (hjust ⟨2, [2, 1, 1], 2, false⟩ (by decide)).1 (by decide)
  · intro hlasting
    exact absurd (hlasting 9 (by decide)).1 (by decide)

end SipXRouter.RateLimit
