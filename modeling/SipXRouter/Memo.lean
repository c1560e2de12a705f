import Mathlib.Data.List.Basic
import Mathlib.Tactic

/-!
# Memoized queries

A program asks queries of a store and goes on with the answers.  It is run once
against the store itself (`Prog.eval`) and once through a cache of the hits
(`Prog.run`), where a query is looked up under its key.  Keys need not tell
queries apart, so the two runs can differ.
-/

namespace SipXRouter

open List

namespace Memo

/-- A program that asks queries in `Q`, with answers in `A`, for a result in `R`. -/
inductive Prog (Q A R : Type*) where
  | done (r : R)
  | ask (q : Q) (next : Option A → Prog Q A R)

/-- The cache, latest entry first. -/
abbrev Cache (K A : Type*) := List (K × A)

variable {Q K A R : Type*} (key : Q → K) (answer : Q → Option A)

/-- One program after another. -/
def Prog.bind {S : Type*} : Prog Q A R → (R → Prog Q A S) → Prog Q A S
  | done r, f => f r
  | ask q next, f => ask q fun found => (next found).bind f

/-- The result of a program whose queries go to the store. -/
def Prog.eval : Prog Q A R → R
  | done r => r
  | ask q next => (next (answer q)).eval

/-- The queries a program asks of the store. -/
def Prog.asked : Prog Q A R → List Q
  | done _ => []
  | ask q next => q :: (next (answer q)).asked

/-- An earlier query does not spoil a later one: they have different keys, or the
earlier one was a miss, or their answers are the same. -/
def Agree (q q' : Q) : Prop := key q = key q' → answer q ≠ none → answer q' = answer q

instance [DecidableEq K] [DecidableEq A] (q q' : Q) : Decidable (Agree key answer q q') :=
  inferInstanceAs (Decidable (key q = key q' → answer q ≠ none → answer q' = answer q))

section Cached

variable [DecidableEq K]

/-- One query through the cache.  Only hits are kept. -/
def fetch (q : Q) (cache : Cache K A) : Option A × Cache K A :=
  match cache.lookup (key q) with
  | some a => (some a, cache)
  | none =>
    match answer q with
    | some a => (some a, (key q, a) :: cache)
    | none => (none, cache)

/-- A program whose queries go through the cache. -/
def Prog.run : Prog Q A R → Cache K A → R × Cache K A
  | done r, cache => (r, cache)
  | ask q next, cache =>
    let found := fetch key answer q cache
    (next found.1).run found.2

/-- A sequence of programs on one cache. -/
def runAll : List (Prog Q A R) → Cache K A → List R
  | [], _ => []
  | p :: ps, cache => (p.run key answer cache).1 :: runAll ps (p.run key answer cache).2

/-- A sequence of queries on one cache. -/
def fetchAll : List Q → Cache K A → List (Option A)
  | [], _ => []
  | q :: qs, cache => (fetch key answer q cache).1 :: fetchAll qs (fetch key answer q cache).2

/-! ## What the cache holds -/

/-- Every entry is the answer to one of the queries seen. -/
def Sound (seen : List Q) (cache : Cache K A) : Prop :=
  ∀ k a, cache.lookup k = some a → ∃ q ∈ seen, key q = k ∧ answer q = some a

/-- Every hit seen is still there. -/
def Kept (seen : List Q) (cache : Cache K A) : Prop :=
  ∀ q ∈ seen, answer q ≠ none → cache.lookup (key q) = answer q

variable {key answer}

omit [DecidableEq K] in
theorem Agree.eq_answer {q q' : Q} {a : A} (h : Agree key answer q q') (hkey : key q = key q')
    (hq : answer q = some a) : answer q' = some a := by
  rw [h hkey (by simp [hq]), hq]

variable (key answer) in
theorem fetch_cases (q : Q) (cache : Cache K A) :
    (∃ a, cache.lookup (key q) = some a ∧ fetch key answer q cache = (some a, cache)) ∨
    (∃ a, cache.lookup (key q) = none ∧ answer q = some a ∧
      fetch key answer q cache = (some a, (key q, a) :: cache)) ∨
    (cache.lookup (key q) = none ∧ answer q = none ∧
      fetch key answer q cache = (none, cache)) := by
  unfold fetch
  cases hlook : cache.lookup (key q) with
  | some a => exact Or.inl ⟨a, rfl, rfl⟩
  | none =>
    cases hans : answer q with
    | some a => exact Or.inr (Or.inl ⟨a, rfl, rfl, rfl⟩)
    | none => exact Or.inr (Or.inr ⟨rfl, rfl, rfl⟩)

theorem lookup_cons_of_miss {cache : Cache K A} {k k' : K} {a b : A}
    (hmiss : cache.lookup k = none) (hk : cache.lookup k' = some b) :
    lookup k' ((k, a) :: cache) = some b := by
  have hne : (k' == k) = false := by
    rw [beq_eq_false_iff_ne]
    rintro rfl
    rw [hmiss] at hk
    cases hk
  rw [lookup_cons, hne, hk]

/-- A query that agrees with all before it gets its own answer, and the cache stays sound. -/
theorem fetch_eq {seen : List Q} {cache : Cache K A} (hsound : Sound key answer seen cache) {q : Q}
    (hagree : ∀ q₀ ∈ seen, Agree key answer q₀ q) : (fetch key answer q cache).1 = answer q ∧
      Sound key answer (seen ++ [q]) (fetch key answer q cache).2 := by
  have hgrow : ∀ k a, cache.lookup k = some a →
      ∃ q' ∈ seen ++ [q], key q' = k ∧ answer q' = some a := by
    intro k a hk
    obtain ⟨q', hq', hkey⟩ := hsound k a hk
    exact ⟨q', mem_append_left _ hq', hkey⟩
  obtain ⟨a, hlook, heq⟩ | ⟨a, hlook, hans, heq⟩ | ⟨hlook, hans, heq⟩ :=
    fetch_cases key answer q cache
  · obtain ⟨q₀, hq₀, hkey, hans⟩ := hsound _ _ hlook
    rw [heq]
    exact ⟨((hagree q₀ hq₀).eq_answer hkey hans).symm, hgrow⟩
  · rw [heq]
    refine ⟨hans.symm, ?_⟩
    intro k b hk
    by_cases hkk : k = key q
    · subst hkk
      rw [lookup_cons, beq_self_eq_true] at hk
      exact ⟨q, by simp, rfl, by rw [hans]; exact hk⟩
    · rw [lookup_cons, beq_eq_false_iff_ne.mpr hkk] at hk
      exact hgrow k b hk
  · rw [heq]
    exact ⟨hans.symm, hgrow⟩

/-- A program whose queries agree with each other and with all before them
has the result it has on the store. -/
theorem Prog.run_eq (p : Prog Q A R) :
    ∀ {seen : List Q} {cache : Cache K A}, Sound key answer seen cache →
      (∀ q₀ ∈ seen, ∀ q ∈ p.asked answer, Agree key answer q₀ q) →
      (p.asked answer).Pairwise (Agree key answer) → (p.run key answer cache).1 = p.eval answer ∧
        Sound key answer (seen ++ p.asked answer) (p.run key answer cache).2 := by
  induction p with
  | done r =>
    intro seen cache hsound _ _
    exact ⟨rfl, by simpa [Prog.asked, Prog.run] using hsound⟩
  | ask q next ih =>
    intro seen cache hsound hseen hpair
    obtain ⟨hhead, htail⟩ := pairwise_cons.mp hpair
    obtain ⟨hans, hsound'⟩ := fetch_eq hsound fun q₀ hq₀ => hseen q₀ hq₀ q (by simp [Prog.asked])
    have hseen' : ∀ q₀ ∈ seen ++ [q], ∀ q' ∈ (next (answer q)).asked answer,
        Agree key answer q₀ q' := by
      intro q₀ hq₀ q' hq'
      rcases mem_append.mp hq₀ with hq₀ | hq₀
      · exact hseen q₀ hq₀ q' (mem_cons_of_mem _ hq')
      · rw [mem_singleton.mp hq₀]
        exact hhead q' hq'
    have hnext := ih (answer q) hsound' hseen' htail
    simp only [Prog.run, Prog.eval, Prog.asked, hans]
    simpa using hnext

/-- **Transparency.**  When every two queries of a run agree, each program of the
run has the result it has on the store. -/
theorem runAll_eq_of_sound (ps : List (Prog Q A R)) :
    ∀ {seen : List Q} {cache : Cache K A}, Sound key answer seen cache →
      (∀ q₀ ∈ seen, ∀ q ∈ ps.flatMap (Prog.asked answer), Agree key answer q₀ q) →
      (ps.flatMap (Prog.asked answer)).Pairwise (Agree key answer) →
      runAll key answer ps cache = ps.map (Prog.eval answer) := by
  induction ps with
  | nil => intros; rfl
  | cons p ps ih =>
    intro seen cache hsound hseen hpair
    rw [flatMap_cons, pairwise_append] at hpair
    obtain ⟨hp, hps, hcross⟩ := hpair
    obtain ⟨heval, hsound'⟩ := p.run_eq hsound
      (fun q₀ hq₀ q hq => hseen q₀ hq₀ q (by simp [hq])) hp
    have hrest := ih hsound' (fun q₀ hq₀ q hq => by
      rcases mem_append.mp hq₀ with hq₀ | hq₀
      · exact hseen q₀ hq₀ q (by rw [flatMap_cons]; exact mem_append_right _ hq)
      · exact hcross q₀ hq₀ q hq) hps
    rw [runAll, heval, hrest, map_cons]

theorem runAll_eq (ps : List (Prog Q A R))
    (hpair : (ps.flatMap (Prog.asked answer)).Pairwise (Agree key answer)) :
    runAll key answer ps [] = ps.map (Prog.eval answer) :=
  runAll_eq_of_sound ps (show Sound key answer [] [] by simp [Sound]) (by simp) hpair

/-! ## Necessity -/

theorem Kept.fetch {seen : List Q} {cache : Cache K A} (hkept : Kept key answer seen cache) {q : Q}
    (hans : (fetch key answer q cache).1 = answer q) :
    Kept key answer (seen ++ [q]) (Memo.fetch key answer q cache).2 := by
  obtain ⟨a, hlook, heq⟩ | ⟨a, hlook, ha, heq⟩ | ⟨hlook, ha, heq⟩ :=
    fetch_cases key answer q cache
  all_goals
    intro q' hq' hne
    rw [heq] at hans ⊢
    rcases mem_append.mp hq' with hq' | hq'
  · exact hkept q' hq' hne
  · rw [mem_singleton.mp hq', hlook]
    exact hans
  · obtain ⟨b, hb⟩ := Option.ne_none_iff_exists'.mp hne
    rw [hb]
    exact lookup_cons_of_miss hlook ((hkept q' hq' hne).trans hb)
  · rw [mem_singleton.mp hq', ha]
    simp
  · exact hkept q' hq' hne
  · rw [mem_singleton.mp hq'] at hne
    exact absurd ha hne

theorem agree_of_fetchAll (qs : List Q) :
    ∀ {seen : List Q} {cache : Cache K A}, Kept key answer seen cache →
      fetchAll key answer qs cache = qs.map answer →
      (∀ q₀ ∈ seen, ∀ q ∈ qs, Agree key answer q₀ q) ∧ qs.Pairwise (Agree key answer) := by
  induction qs with
  | nil => intros; simp
  | cons q qs ih =>
    intro seen cache hkept hall
    rw [fetchAll, map_cons, List.cons.injEq] at hall
    obtain ⟨hans, hrest⟩ := hall
    obtain ⟨hseen, hpair⟩ := ih (hkept.fetch hans) hrest
    refine ⟨?_, pairwise_cons.mpr ⟨fun q' hq' => hseen q (by simp) q' hq', hpair⟩⟩
    intro q₀ hq₀ q' hq'
    rcases mem_cons.mp hq' with rfl | hq'
    · intro hkey hne
      obtain ⟨a, ha⟩ := Option.ne_none_iff_exists'.mp hne
      have hlook : cache.lookup (key q') = some a := by rw [← hkey, hkept q₀ hq₀ hne, ha]
      rw [← hans, fetch, hlook, ha]
    · exact hseen q₀ (by simp [hq₀]) q' hq'

omit [DecidableEq K] in
theorem asked_asks (f : Option A → R) (qs : List Q) :
    (qs.map fun q => Prog.ask q fun found => .done (f found)).flatMap (Prog.asked answer) = qs := by
  induction qs with
  | nil => rfl
  | cons q qs ih => simp [Prog.asked, ih]

/-- Programs of one query each do what the sequence of their queries does. -/
theorem runAll_asks (f : Option A → R) (qs : List Q) : ∀ cache : Cache K A,
    runAll key answer (qs.map fun q => .ask q fun found => .done (f found)) cache =
      (fetchAll key answer qs cache).map f := by
  induction qs with
  | nil => intro cache; rfl
  | cons q qs ih => intro cache; simp [runAll, fetchAll, Prog.run, ih]

theorem fetchAll_eq_iff (qs : List Q) :
    fetchAll key answer qs [] = qs.map answer ↔ qs.Pairwise (Agree key answer) := by
  constructor
  · intro hall
    exact (agree_of_fetchAll qs (show Kept key answer [] [] by simp [Kept]) hall).2
  · intro hpair
    have hrun := runAll_eq (qs.map fun q => Prog.ask q fun found => .done (id found))
      (by rw [asked_asks]; exact hpair)
    rw [runAll_asks, map_id] at hrun
    rw [hrun, map_map]
    rfl

end Cached

end Memo

end SipXRouter
