import Mathlib.Tactic.NormNum
import Mathlib.Data.Int.Order.Basic

/-!
# Times

An `OsTime` is a pair of `int`s, the seconds and the microseconds.  Every constructor and
operator is to leave the microseconds between zero and a million, since the comparisons look at
the pairs.

## Design notes

`Built` has no time whose computation leaves the range of an `int`, so that nothing overflows.
The totals are right for all of them: it is only the pairs that go wrong.
-/

namespace SipXRouter

/-- `OsTime`: an interval. -/
structure OsTime where
  seconds : Int32
  usecs : Int32 := 0
deriving DecidableEq

/-- `OsTime::isNoWait`. -/
def OsTime.isNoWait (t : OsTime) : Bool := t.seconds == 0 && t.usecs == 0

variable {seconds usecs : Int64}

namespace OsTime

/-! ## Constructors and operators -/

/-- `OsTime(const long seconds, const long usecs)`. -/
def ofSeconds (seconds usecs : Int64) : OsTime :=
  if usecs < 0 ∨ 1000000 ≤ usecs then
    let mSeconds := (seconds.toInt32.toInt64 + usecs / 1000000).toInt32
    let mUsecs := (usecs % 1000000).toInt32
    -- whether the remainder is negative is not looked at
    if usecs < 0 then ⟨mSeconds - 1, mUsecs + 1000000⟩ else ⟨mSeconds, mUsecs⟩
  else ⟨seconds.toInt32, usecs.toInt32⟩

/-- `OsTime(const long msecs)`. -/
def ofMsecs (msecs : Int64) : OsTime :=
  let mSeconds := (msecs / 1000).toInt32
  let mUsecs := (msecs % 1000 * 1000).toInt32
  if mUsecs < 0 then ⟨mSeconds - 1, mUsecs + 1000000⟩ else ⟨mSeconds, mUsecs⟩

/-- `operator+`. -/
def add (t t' : OsTime) : OsTime :=
  let sum := ofSeconds (t.seconds + t'.seconds).toInt64 (t.usecs + t'.usecs).toInt64
  if 1000000 ≤ sum.usecs then ⟨sum.seconds + 1, sum.usecs - 1000000⟩ else sum

/-- `operator-`. -/
def sub (t t' : OsTime) : OsTime :=
  let diff := ofSeconds (t.seconds - t'.seconds).toInt64 (t.usecs - t'.usecs).toInt64
  if diff.usecs < 0 then ⟨diff.seconds - 1, diff.usecs + 1000000⟩ else diff

/-- `operator==`. -/
def eq (t t' : OsTime) : Bool := t.seconds == t'.seconds && t.usecs == t'.usecs

/-- `operator!=`. -/
def ne (t t' : OsTime) : Bool := t.seconds != t'.seconds || t.usecs != t'.usecs

/-- What the four ordering operators do: the seconds first, then the microseconds. -/
def compareBy (before : Int32 → Int32 → Bool) (usecsBefore : Int32 → Int32 → Bool)
    (t t' : OsTime) : Bool :=
  before t.seconds t'.seconds || (t.seconds == t'.seconds && usecsBefore t.usecs t'.usecs)

/-- `operator>`. -/
def gt : OsTime → OsTime → Bool := compareBy (fun a b => b < a) (fun a b => b < a)

/-- `operator>=`. -/
def ge : OsTime → OsTime → Bool := compareBy (fun a b => b < a) (fun a b => b ≤ a)

/-- `operator<`. -/
def lt : OsTime → OsTime → Bool := compareBy (fun a b => a < b) (fun a b => a < b)

/-- `operator<=`. -/
def le : OsTime → OsTime → Bool := compareBy (fun a b => a < b) (fun a b => a ≤ b)

/-! ## What times stand for -/

/-- The microseconds that a time stands for. -/
def total (t : OsTime) : Int := t.seconds.toInt * 1000000 + t.usecs.toInt

/-- The microseconds are less than a second. -/
def Normalised (t : OsTime) : Prop := 0 ≤ t.usecs.toInt ∧ t.usecs.toInt < 1000000

/-- A value of an `int`. -/
def FitsInt (i : Int) : Prop := -2 ^ 31 ≤ i ∧ i < 2 ^ 31

/-- No value that the constructor computes overflows. -/
structure InRange (seconds usecs : Int) : Prop where
  start : FitsInt seconds
  carried : FitsInt (seconds + usecs.tdiv 1000000)
  borrowed : usecs < 0 → FitsInt (seconds + usecs.tdiv 1000000 - 1)

/-- The times that a program makes out of the pairs that `P` allows, each with the microseconds
that it is to stand for. -/
inductive Built (P : Int64 → Int64 → Prop) : OsTime → Int → Prop where
  | ofSeconds {seconds usecs : Int64} (hallowed : P seconds usecs)
      (hrange : InRange seconds.toInt usecs.toInt) :
      Built P (OsTime.ofSeconds seconds usecs) (seconds.toInt * 1000000 + usecs.toInt)
  | ofMsecs {msecs : Int64} (hsecs : FitsInt (msecs.toInt.tdiv 1000))
      (hborrowed : msecs.toInt.tmod 1000 < 0 → FitsInt (msecs.toInt.tdiv 1000 - 1)) :
      Built P (OsTime.ofMsecs msecs) (msecs.toInt * 1000)
  | add {t t' : OsTime} {n n' : Int} (h : Built P t n) (h' : Built P t' n')
      (hrange : InRange (t.seconds.toInt + t'.seconds.toInt) (t.usecs.toInt + t'.usecs.toInt)) :
      Built P (t.add t') (n + n')
  | sub {t t' : OsTime} {n n' : Int} (h : Built P t n) (h' : Built P t' n')
      (hrange : InRange (t.seconds.toInt - t'.seconds.toInt) (t.usecs.toInt - t'.usecs.toInt)) :
      Built P (t.sub t') (n - n')

/-- Each operator says of two times what is so of two numbers. -/
structure Agrees (t t' : OsTime) (n n' : Int) : Prop where
  eq : t.eq t' = decide (n = n')
  ne : t.ne t' = decide (n ≠ n')
  lt : t.lt t' = decide (n < n')
  le : t.le t' = decide (n ≤ n')
  gt : t.gt t' = decide (n > n')
  ge : t.ge t' = decide (n ≥ n')

/-- Two times are normalised, stand for their numbers and compare as these do. -/
structure Exact (t t' : OsTime) (n n' : Int) : Prop where
  normalised : t.Normalised ∧ t'.Normalised
  total : t.total = n ∧ t'.total = n'
  agrees : Agrees t t' n n'

/-! ## The constructors -/

theorem bmod_eq_of_fitsInt {i : Int} (h : FitsInt i) : i.bmod (2 ^ 32) = i := by
  rw [Int.bmod_eq_of_le] <;> unfold FitsInt at h <;> omega

/-- Narrowing keeps a value that an `int` can hold. -/
theorem toInt_toInt32_of_fitsInt {i : Int64} (h : FitsInt i.toInt) : i.toInt32.toInt = i.toInt := by
  rw [Int64.toInt_toInt32, bmod_eq_of_fitsInt h]

theorem toInt_add_of_fitsInt {i j : Int32} (h : FitsInt (i.toInt + j.toInt)) :
    (i + j).toInt = i.toInt + j.toInt := by
  rw [Int32.toInt_add, bmod_eq_of_fitsInt h]

theorem toInt_sub_of_fitsInt {i j : Int32} (h : FitsInt (i.toInt - j.toInt)) :
    (i - j).toInt = i.toInt - j.toInt := by
  rw [Int32.toInt_sub, bmod_eq_of_fitsInt h]

/-- C division rounds towards zero, and the remainder has the sign of what is divided. -/
theorem tmod_million_bounds (i : Int) : (0 ≤ i → 0 ≤ i.tmod 1000000 ∧ i.tmod 1000000 < 1000000) ∧
    (i < 0 → -1000000 < i.tmod 1000000 ∧ i.tmod 1000000 ≤ 0) := by
  refine ⟨fun hi => ⟨Int.tmod_nonneg _ hi, Int.tmod_lt_of_pos i (by decide)⟩, fun hi => ?_⟩
  have hneg : (-i).tmod 1000000 = -i.tmod 1000000 := Int.neg_tmod i 1000000
  have hpos : 0 ≤ (-i).tmod 1000000 := Int.tmod_nonneg _ (by omega)
  have hlt : (-i).tmod 1000000 < 1000000 := Int.tmod_lt_of_pos _ (by decide)
  omega

/-- What the constructor makes of its arguments, as integers. -/
theorem toInt_ofSeconds (h : InRange seconds.toInt usecs.toInt) :
    (ofSeconds seconds usecs).seconds.toInt =
      seconds.toInt + usecs.toInt.tdiv 1000000 - (if usecs.toInt < 0 then 1 else 0) ∧
    (ofSeconds seconds usecs).usecs.toInt =
      usecs.toInt.tmod 1000000 + (if usecs.toInt < 0 then 1000000 else 0) := by
  have hbounds := tmod_million_bounds usecs.toInt
  have hparts := Int.tdiv_mul_add_tmod usecs.toInt 1000000
  have hneg : usecs < 0 ↔ usecs.toInt < 0 := Int64.lt_iff_toInt_lt
  have hlarge : 1000000 ≤ usecs ↔ 1000000 ≤ usecs.toInt := Int64.le_iff_toInt_le
  have hstart := toInt_toInt32_of_fitsInt h.start
  have hdiv : (usecs / 1000000).toInt = usecs.toInt.tdiv 1000000 :=
    Int64.toInt_div_of_ne_right usecs 1000000 (by decide)
  have hmod : (usecs % 1000000).toInt = usecs.toInt.tmod 1000000 := Int64.toInt_mod usecs 1000000
  have hcarried : (seconds.toInt32.toInt64 + usecs / 1000000).toInt32.toInt =
      seconds.toInt + usecs.toInt.tdiv 1000000 := by
    have hsum : (seconds.toInt32.toInt64 + usecs / 1000000).toInt =
        seconds.toInt + usecs.toInt.tdiv 1000000 := by
      rw [Int64.toInt_add, Int32.toInt_toInt64, hstart, hdiv]
      have hfits := h.carried
      rw [Int.bmod_eq_of_le] <;> unfold FitsInt at hfits <;> omega
    rw [toInt_toInt32_of_fitsInt (hsum ▸ h.carried), hsum]
  have hrest : (usecs % 1000000).toInt32.toInt = usecs.toInt.tmod 1000000 := by
    rw [toInt_toInt32_of_fitsInt] <;> rw [hmod]
    unfold FitsInt
    omega
  unfold ofSeconds
  by_cases hlt : usecs.toInt < 0
  · rw [if_pos (Or.inl (hneg.mpr hlt)), if_pos (hneg.mpr hlt), if_pos hlt, if_pos hlt]
    have hone : (1 : Int32).toInt = 1 := rfl
    have hmillion : (1000000 : Int32).toInt = 1000000 := rfl
    refine ⟨?_, ?_⟩
    · rw [toInt_sub_of_fitsInt] <;> rw [hcarried, hone]
      exact h.borrowed hlt
    · rw [toInt_add_of_fitsInt] <;> rw [hrest, hmillion]
      unfold FitsInt
      omega
  · rw [if_neg hlt, if_neg hlt]
    by_cases hge : 1000000 ≤ usecs.toInt
    · rw [if_pos (Or.inr (hlarge.mpr hge)), if_neg (mt hneg.mp hlt)]
      exact ⟨by rw [hcarried, sub_zero], by rw [hrest, add_zero]⟩
    · rw [if_neg fun h' => h'.elim (fun h' => hlt (hneg.mp h')) fun h' => hge (hlarge.mp h')]
      have hsmall : usecs.toInt.tdiv 1000000 = 0 ∧ usecs.toInt.tmod 1000000 = usecs.toInt := by
        omega
      refine ⟨?_, ?_⟩
      · rw [hstart]
        omega
      · rw [toInt_toInt32_of_fitsInt]
        · omega
        · unfold FitsInt
          omega

/-- A constructed time stands for what it was constructed from. -/
theorem total_ofSeconds (h : InRange seconds.toInt usecs.toInt) :
    (ofSeconds seconds usecs).total = seconds.toInt * 1000000 + usecs.toInt := by
  obtain ⟨hseconds, husecs⟩ := toInt_ofSeconds h
  have hparts := Int.tdiv_mul_add_tmod usecs.toInt 1000000
  rw [total, hseconds, husecs]
  split <;> omega

theorem normalised_ofSeconds_iff (h : InRange seconds.toInt usecs.toInt) :
    (ofSeconds seconds usecs).Normalised ↔ ¬ (usecs.toInt < 0 ∧ 1000000 ∣ usecs.toInt) := by
  obtain ⟨-, husecs⟩ := toInt_ofSeconds h
  have hbounds := tmod_million_bounds usecs.toInt
  rw [Normalised, husecs, Int.dvd_iff_tmod_eq_zero]
  split <;> omega

theorem normalised_ofSeconds_of_lt
    (h : InRange seconds.toInt usecs.toInt) (hlt : -1000000 < usecs.toInt) :
    (ofSeconds seconds usecs).Normalised := by
  rw [normalised_ofSeconds_iff h]
  omega

/-- The constructor from milliseconds looks at the remainder, and normalises. -/
theorem ofMsecs_spec {msecs : Int64} (hsecs : FitsInt (msecs.toInt.tdiv 1000))
    (hborrowed : msecs.toInt.tmod 1000 < 0 → FitsInt (msecs.toInt.tdiv 1000 - 1)) :
    (ofMsecs msecs).Normalised ∧ (ofMsecs msecs).total = msecs.toInt * 1000 := by
  have hparts := Int.tdiv_mul_add_tmod msecs.toInt 1000
  have hlt : msecs.toInt.tmod 1000 < 1000 := Int.tmod_lt_of_pos _ (by decide)
  have hgt : -1000 < msecs.toInt.tmod 1000 := by
    have hneg : (-msecs.toInt).tmod 1000 = -msecs.toInt.tmod 1000 := Int.neg_tmod _ 1000
    have hlt' : (-msecs.toInt).tmod 1000 < 1000 := Int.tmod_lt_of_pos _ (by decide)
    omega
  have hdiv : (msecs / 1000).toInt = msecs.toInt.tdiv 1000 :=
    Int64.toInt_div_of_ne_right msecs 1000 (by decide)
  have hmod : (msecs % 1000 * 1000).toInt = msecs.toInt.tmod 1000 * 1000 := by
    have hrest : (msecs % 1000).toInt = msecs.toInt.tmod 1000 := Int64.toInt_mod msecs 1000
    have hthousand : (1000 : Int64).toInt = 1000 := rfl
    rw [Int64.toInt_mul, hrest, hthousand]
    rw [Int.bmod_eq_of_le] <;> omega
  have hseconds : (msecs / 1000).toInt32.toInt = msecs.toInt.tdiv 1000 := by
    rw [toInt_toInt32_of_fitsInt (hdiv ▸ hsecs), hdiv]
  have husecs : (msecs % 1000 * 1000).toInt32.toInt = msecs.toInt.tmod 1000 * 1000 := by
    rw [toInt_toInt32_of_fitsInt] <;> rw [hmod]
    unfold FitsInt
    omega
  have hsign : (msecs % 1000 * 1000).toInt32 < 0 ↔ msecs.toInt.tmod 1000 * 1000 < 0 := by
    rw [Int32.lt_iff_toInt_lt, husecs]
    rfl
  rw [ofMsecs, Normalised, total]
  by_cases hneg : msecs.toInt.tmod 1000 * 1000 < 0
  · have hone : (1 : Int32).toInt = 1 := rfl
    have hmillion : (1000000 : Int32).toInt = 1000000 := rfl
    have hborrow : ((msecs / 1000).toInt32 - 1).toInt = msecs.toInt.tdiv 1000 - 1 := by
      rw [toInt_sub_of_fitsInt] <;> rw [hseconds, hone]
      exact hborrowed (by omega)
    have hraise : ((msecs % 1000 * 1000).toInt32 + 1000000).toInt =
        msecs.toInt.tmod 1000 * 1000 + 1000000 := by
      rw [toInt_add_of_fitsInt] <;> rw [husecs, hmillion]
      unfold FitsInt
      omega
    simp only [if_pos (hsign.mpr hneg), hborrow, hraise]
    omega
  · simp only [if_neg (mt hsign.mp hneg), hseconds, husecs]
    omega

/-! ## The operators -/

section Operators

variable {t t' : OsTime}

theorem toInt_usecs_add (h : t.Normalised) (h' : t'.Normalised) :
    (t.usecs + t'.usecs).toInt = t.usecs.toInt + t'.usecs.toInt := by
  refine toInt_add_of_fitsInt ?_
  unfold Normalised at h h'
  unfold FitsInt
  omega

theorem toInt_usecs_sub (h : t.Normalised) (h' : t'.Normalised) :
    (t.usecs - t'.usecs).toInt = t.usecs.toInt - t'.usecs.toInt := by
  refine toInt_sub_of_fitsInt ?_
  unfold Normalised at h h'
  unfold FitsInt
  omega

/-- What the operators construct of the sums or the differences of the parts. -/
theorem ofSeconds_spec {seconds usecs : Int32} {i j : Int} (hseconds : seconds.toInt = i)
    (husecs : usecs.toInt = j) (hrange : InRange i j) (hlt : -1000000 < j) :
    (ofSeconds seconds.toInt64 usecs.toInt64).Normalised ∧
      (ofSeconds seconds.toInt64 usecs.toInt64).total = i * 1000000 + j := by
  have hrange' : InRange seconds.toInt64.toInt usecs.toInt64.toInt := by
    rwa [Int32.toInt_toInt64, Int32.toInt_toInt64, hseconds, husecs]
  have htotal := total_ofSeconds hrange'
  rw [Int32.toInt_toInt64, Int32.toInt_toInt64, hseconds, husecs] at htotal
  refine ⟨normalised_ofSeconds_of_lt hrange' ?_, htotal⟩
  rwa [Int32.toInt_toInt64, husecs]

theorem add_spec (h : t.Normalised) (h' : t'.Normalised)
    (hrange : InRange (t.seconds.toInt + t'.seconds.toInt) (t.usecs.toInt + t'.usecs.toInt)) :
    (t.add t').Normalised ∧ (t.add t').total = t.total + t'.total := by
  obtain ⟨hnormal, htotal⟩ := ofSeconds_spec (toInt_add_of_fitsInt hrange.start)
    (toInt_usecs_add h h') hrange (by unfold Normalised at h h'; omega)
  have hsmall : ¬ (1000000 : Int32) ≤
      (ofSeconds (t.seconds + t'.seconds).toInt64 (t.usecs + t'.usecs).toInt64).usecs := by
    rw [Int32.le_iff_toInt_le]
    exact not_le.mpr hnormal.2
  rw [add, if_neg hsmall]
  refine ⟨hnormal, htotal.trans ?_⟩
  rw [total, total]
  omega

theorem sub_spec (h : t.Normalised) (h' : t'.Normalised)
    (hrange : InRange (t.seconds.toInt - t'.seconds.toInt) (t.usecs.toInt - t'.usecs.toInt)) :
    (t.sub t').Normalised ∧ (t.sub t').total = t.total - t'.total := by
  obtain ⟨hnormal, htotal⟩ := ofSeconds_spec (toInt_sub_of_fitsInt hrange.start)
    (toInt_usecs_sub h h') hrange (by unfold Normalised at h h'; omega)
  have hsmall : ¬ (ofSeconds (t.seconds - t'.seconds).toInt64
      (t.usecs - t'.usecs).toInt64).usecs < (0 : Int32) := by
    rw [Int32.lt_iff_toInt_lt]
    exact not_lt.mpr hnormal.1
  rw [sub, if_neg hsmall]
  refine ⟨hnormal, htotal.trans ?_⟩
  rw [total, total]
  omega

theorem agrees_of_normalised (h : t.Normalised) (h' : t'.Normalised) :
    Agrees t t' t.total t'.total := by
  have hseconds : (t.seconds = t'.seconds) ↔ t.seconds.toInt = t'.seconds.toInt :=
    Int32.toInt_inj.symm
  have husecs : (t.usecs = t'.usecs) ↔ t.usecs.toInt = t'.usecs.toInt := Int32.toInt_inj.symm
  unfold Normalised at h h'
  constructor
  · refine Bool.eq_iff_iff.mpr (Iff.trans ?_ decide_eq_true_iff.symm)
    simp only [eq, Bool.and_eq_true, beq_iff_eq, hseconds, husecs, total]
    omega
  · refine Bool.eq_iff_iff.mpr (Iff.trans ?_ decide_eq_true_iff.symm)
    simp only [ne, Bool.or_eq_true, bne_iff_ne, Ne, hseconds, husecs, total]
    omega
  all_goals
    refine Bool.eq_iff_iff.mpr (Iff.trans ?_ decide_eq_true_iff.symm)
    simp only [lt, le, gt, ge, compareBy, Bool.or_eq_true, Bool.and_eq_true, beq_iff_eq,
      decide_eq_true_eq, Int32.lt_iff_toInt_lt, Int32.le_iff_toInt_le, hseconds, total]
    omega

end Operators

/-! ## Programs -/

/-- Without a negative multiple of a million every time is normalised and right. -/
theorem Built.spec {P : Int64 → Int64 → Prop}
    (hP : ∀ seconds usecs, P seconds usecs → InRange seconds.toInt usecs.toInt →
      ¬ (usecs.toInt < 0 ∧ 1000000 ∣ usecs.toInt))
    {t : OsTime} {n : Int} (h : Built P t n) : t.Normalised ∧ t.total = n := by
  induction h with
  | ofSeconds hallowed hrange =>
    exact ⟨(normalised_ofSeconds_iff hrange).mpr (hP _ _ hallowed hrange), total_ofSeconds hrange⟩
  | ofMsecs hsecs hborrowed => exact ofMsecs_spec hsecs hborrowed
  | add _ _ hrange ih ih' =>
    rw [← ih.2, ← ih'.2]
    exact add_spec ih.1 ih'.1 hrange
  | sub _ _ hrange ih ih' =>
    rw [← ih.2, ← ih'.2]
    exact sub_spec ih.1 ih'.1 hrange

/-- **Times are exact** if and only if none is constructed from a negative multiple of a million
microseconds. -/
theorem exact_iff (P : Int64 → Int64 → Prop) :
    (∀ t t' n n', Built P t n → Built P t' n' → Exact t t' n n') ↔
      ∀ seconds usecs, P seconds usecs → InRange seconds.toInt usecs.toInt →
        ¬ (usecs.toInt < 0 ∧ 1000000 ∣ usecs.toInt) := by
  constructor
  · intro h seconds usecs hallowed hrange
    have hbuilt := Built.ofSeconds hallowed hrange
    exact (normalised_ofSeconds_iff hrange).mp (h _ _ _ _ hbuilt hbuilt).normalised.1
  · intro hP t t' n n' hbuilt hbuilt'
    obtain ⟨hnormal, rfl⟩ := hbuilt.spec hP
    obtain ⟨hnormal', rfl⟩ := hbuilt'.spec hP
    exact ⟨⟨hnormal, hnormal'⟩, ⟨rfl, rfl⟩, agrees_of_normalised hnormal hnormal'⟩

/-- Minus a second in microseconds is not normalised, and differs from minus a second. -/
theorem not_exact_minusMillion :
    ¬ (ofSeconds 0 (-1000000)).Normalised ∧
      (ofSeconds 0 (-1000000)).total = (ofSeconds (-1) 0).total ∧
      (ofSeconds 0 (-1000000)).eq (ofSeconds (-1) 0) = false :=
  ⟨fun h => absurd h.2 (by decide), by decide, by decide⟩

end OsTime

end SipXRouter
