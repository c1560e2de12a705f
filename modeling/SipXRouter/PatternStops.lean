import SipXRouter.Pattern

/-!
# What a pattern cannot see

A pattern whose classes leave out a byte does not see past it: what stands behind the first
such byte changes none of its matches.  So a match that was found in one subject is found
again in another that agrees up to there.
-/

namespace SipXRouter

open List

/-- The match in front of a longer rest. -/
def Match.before (tail : Text) (m : Match) : Match := ⟨m.text, m.rest ++ tail, m.caps⟩

variable {p : Pattern}

namespace Pattern

/-- No class of the pattern has a byte of `stop`, and it does not ask for the end. -/
def StopsAt (stop : Byte → Bool) : Pattern → Prop
  | eps | bol => True
  | cls p => ∀ c, stop c = true → p c = false
  | seq a b | alt a b => StopsAt stop a ∧ StopsAt stop b
  | star a | group _ a | atomic a | look a => StopsAt stop a
  | eol => False

instance decidableStopsAt (stop : Byte → Bool) : ∀ p, Decidable (StopsAt stop p)
  | eps | bol => isTrue trivial
  | cls p => inferInstanceAs (Decidable (∀ c, stop c = true → p c = false))
  | seq a b | alt a b =>
    have := decidableStopsAt stop a
    have := decidableStopsAt stop b
    inferInstanceAs (Decidable (StopsAt stop a ∧ StopsAt stop b))
  | star a | group _ a | atomic a | look a => decidableStopsAt stop a
  | eol => isFalse id

/-- The check for one byte, by the pattern alone. -/
def stopsAtByte (b : Byte) : Pattern → Bool
  | eps | bol => true
  | cls p => !p b
  | seq a c | alt a c => stopsAtByte b a && stopsAtByte b c
  | star a | group _ a | atomic a | look a => stopsAtByte b a
  | eol => false

theorem stopsAt_of_byte {b : Byte} (h : stopsAtByte b p = true) : StopsAt (· == b) p := by
  induction p with
  | eps | bol => trivial
  | eol => cases h
  | cls p =>
    intro c hc
    rw [eq_of_beq hc]
    exact (Bool.not_eq_true' _).mp h
  | seq a c iha ihc | alt a c iha ihc =>
    exact ⟨iha (Bool.and_eq_true_iff.mp h).1, ihc (Bool.and_eq_true_iff.mp h).2⟩
  | star a ih | group _ a ih | atomic a ih | look a ih => exact ih h

section

variable {stop : Byte → Bool} {tail : Text}

theorem iter_before {f : Nat → Text → List Match}
    (hf : ∀ n w, f n (w ++ tail) = (f n w).map (Match.before tail)) :
    ∀ k n w, iter f k n (w ++ tail) = (iter f k n w).map (Match.before tail) := by
  intro k
  induction k with
  | zero => intro n w; rfl
  | succ k ih =>
    intro n w
    rw [iter, iter, hf, map_append, map_flatMap, flatMap_map]
    congr 1
    refine flatMap_congr fun m _ => ?_
    show (if m.text = [] then [] else (iter f k _ (m.rest ++ tail)).map m.append) = _
    by_cases hm : m.text = []
    · rw [if_pos hm, if_pos hm, map_nil]
    · rw [if_neg hm, if_neg hm, ih, map_map, map_map]
      rfl

/-- **What stands behind a byte that the pattern stops at is not seen.** -/
theorem run_append (hp : StopsAt stop p) (htail : ∀ c ∈ tail.head?, stop c = true) :
    ∀ n w, run p n (w ++ tail) = (run p n w).map (Match.before tail) := by
  induction p with
  | eps => intro n w; rfl
  | cls q =>
    intro n w
    cases w with
    | nil =>
      rw [nil_append, run_cls_eq_nil fun c hc => hp c (htail c hc)]
      rfl
    | cons c w =>
      rw [cons_append, run, run]
      by_cases hc : q c = true
      · rw [if_pos hc, if_pos hc]
        rfl
      · rw [if_neg hc, if_neg hc]
        rfl
  | seq a b iha ihb =>
    intro n w
    rw [run, run, iha hp.1, flatMap_map, map_flatMap]
    refine flatMap_congr fun m _ => ?_
    show (run b _ (m.rest ++ tail)).map m.append = _
    rw [ihb hp.2, map_map, map_map]
    rfl
  | alt a b iha ihb =>
    intro n w
    rw [run, run, iha hp.1, ihb hp.2, map_append]
  | star a iha =>
    intro n w
    -- the text behind only adds rounds that are not needed
    have hfuel : run (star a) n w = iter (run a) (w ++ tail).length n w :=
      iter_eq_of_length_le (fun _ _ _ h => append_of_mem_run h) _ _ _ _ le_rfl
        (by rw [length_append]; exact Nat.le_add_right _ _)
    rw [hfuel, run]
    exact iter_before (iha hp) _ n w
  | group k a iha =>
    intro n w
    rw [run, run, iha hp, map_map, map_map]
    rfl
  | atomic a iha =>
    intro n w
    rw [run, run, iha hp, map_take]
  | look a iha =>
    intro n w
    rw [run, run, iha hp, ← map_take, map_map, map_map]
    rfl
  | bol =>
    intro n w
    rw [run, run]
    by_cases hn : n = 0
    · rw [if_pos hn, if_pos hn]
      rfl
    · rw [if_neg hn, if_neg hn]
      rfl
  | eol => exact hp.elim

theorem matchAt_append (hp : StopsAt stop p) (htail : ∀ c ∈ tail.head?, stop c = true)
    (w : Text) : matchAt p (w ++ tail) = (matchAt p w).map (Match.before tail) := by
  rw [matchAt, matchAt, run_append hp htail, head?_map]

theorem before_injective (tail : Text) : Function.Injective (Match.before tail) := by
  intro m m' h
  obtain ⟨htext, hrest, hcaps⟩ := Match.mk.inj h
  cases m
  cases m'
  rw [Match.mk.injEq]
  exact ⟨htext, append_cancel_right hrest, hcaps⟩

theorem matchAt_append_eq_some (hp : StopsAt stop p)
    (htail : ∀ c ∈ tail.head?, stop c = true) {w : Text} {m : Match} :
    matchAt p (w ++ tail) = some (m.before tail) ↔ matchAt p w = some m := by
  rw [matchAt_append hp htail]
  exact (Option.map_injective (before_injective tail)).eq_iff' rfl

theorem matchAt_append_eq_none (hp : StopsAt stop p)
    (htail : ∀ c ∈ tail.head?, stop c = true) {w : Text} :
    matchAt p (w ++ tail) = none ↔ matchAt p w = none := by
  rw [matchAt_append hp htail, Option.map_eq_none_iff]

end

/-! ## Captures -/

theorem iter_caps_subset {f : Nat → Text → List Match}
    (hsplit : ∀ n s m, m ∈ f n s → s = m.text ++ m.rest)
    (hf : ∀ n s m, m ∈ f n s → ∀ kt ∈ m.caps, kt.2 ⊆ s) :
    ∀ k n s m, m ∈ iter f k n s → ∀ kt ∈ m.caps, kt.2 ⊆ s := by
  refine iter_induction (fun _ _ kt hkt => absurd hkt not_mem_nil) fun n s m₁ m₂ hm₁ ih kt hkt => ?_
  rcases mem_append.mp hkt with hkt | hkt
  · rw [hsplit n s m₁ hm₁]
    exact fun c hc => subset_append_right _ _ (ih kt hkt hc)
  · exact hf n s m₁ hm₁ kt hkt

/-- **What is captured stands in the subject.** -/
theorem caps_subset :
    ∀ {n : Nat} {s : Text} {m : Match}, m ∈ run p n s → ∀ kt ∈ m.caps, kt.2 ⊆ s := by
  induction p with
  | eps | cls _ | bol | eol => intro n s m hm kt hkt; simp [caps_eq_nil rfl hm] at hkt
  | seq a b iha ihb =>
    intro n s m hm kt hkt
    obtain ⟨m₁, hm₁, m₂, hm₂, rfl⟩ := mem_run_seq.mp hm
    rcases mem_append.mp hkt with hkt | hkt
    · have hrest := ihb hm₂ kt hkt
      rw [append_of_mem_run hm₁]
      exact fun c hc => subset_append_right _ _ (hrest hc)
    · exact iha hm₁ kt hkt
  | alt a b iha ihb =>
    intro n s m hm
    rcases mem_append.mp hm with hm | hm
    · exact iha hm
    · exact ihb hm
  | star a iha =>
    intro n s m hm
    exact iter_caps_subset (fun _ _ _ h => append_of_mem_run h) (fun _ _ _ h => iha h) _ _ _ _ hm
  | group k a iha =>
    intro n s m hm kt hkt
    obtain ⟨m₁, hm₁, rfl⟩ := mem_run_group.mp hm
    rcases mem_cons.mp hkt with rfl | hkt
    · have happ := append_of_mem_run hm₁
      rw [happ]
      exact subset_append_left _ _
    · exact iha hm₁ kt hkt
  | atomic a iha => intro n s m hm; exact iha (mem_of_mem_take hm)
  | look a iha =>
    intro n s m hm kt hkt
    simp only [run, mem_map] at hm
    obtain ⟨m₁, hm₁, rfl⟩ := hm
    exact iha (mem_of_mem_take hm₁) kt hkt

theorem group_subset {n : Nat} {s : Text} {m : Match} (hm : m ∈ run p n s) {k : Nat}
    {t : Text} (ht : m.group k = some t) : t ⊆ s := by
  obtain ⟨front, back, hcaps, -⟩ := lookup_eq_some_iff.mp ht
  exact caps_subset hm (k, t) (by simp [hcaps])

end Pattern

end SipXRouter
