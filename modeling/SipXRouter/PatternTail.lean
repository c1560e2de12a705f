import SipXRouter.PatternStops

/-!
# Text added behind a subject

Some patterns do not see a text that is added behind their subject although their classes have its
bytes: those that end with a byte the added text does not have.  Up to there they may run over
anything, as long as a run that is cut short by the end of the subject comes to no match.
-/

namespace SipXRouter

open List

variable {m : Match} {n : Nat} {w : Text}

namespace Pattern

variable {stop : Byte → Bool} {tail : Text} {a b p : Pattern}

/-- A match that ends before the end of a text. -/
def EndsInside (w : Text) (m : Match) : Bool := decide (m.text.length < w.length)

/-- The added text changes no match. -/
def Blind (tail : Text) (p : Pattern) : Prop :=
  ∀ n w, run p n (w ++ tail) = (run p n w).map (Match.before tail)

/-- The added text changes no match that ends inside the subject. -/
def Local (tail : Text) (p : Pattern) : Prop :=
  ∀ n w, (run p n (w ++ tail)).filter (EndsInside w) =
    ((run p n w).filter (EndsInside w)).map (Match.before tail)

/-- The added text changes no match, and there is none in it. -/
structure Closed (tail : Text) (p : Pattern) : Prop where
  blind : Blind tail p
  run_eq_nil : ∀ n u, u <:+ tail → run p n u = []

/-! ### Lists of matches -/

/-- Only the elements that are kept contribute. -/
theorem flatMap_filter_of_eq_nil {α β : Type*} {q : α → Bool} {f : α → List β} :
    ∀ {l : List α}, (∀ x ∈ l, q x = false → f x = []) → (l.filter q).flatMap f = l.flatMap f := by
  intro l
  induction l with
  | nil => intro _; rfl
  | cons x l ih =>
    intro h
    have hrest := ih fun y hy => h y (mem_cons_of_mem x hy)
    rw [flatMap_cons]
    cases hx : q x with
    | true => rw [filter_cons_of_pos hx, flatMap_cons, hrest]
    | false =>
      rw [filter_cons_of_neg (ne_true_of_eq_false hx), hrest,
        h x mem_cons_self hx, nil_append]

theorem rest_length_of_endsInside (hm : m ∈ run p n w) : EndsInside w m = true ↔ m.rest ≠ [] := by
  have hlength := congrArg length (append_of_mem_run hm)
  rw [length_append] at hlength
  rw [EndsInside, decide_eq_true_iff, ← length_pos_iff]
  omega

theorem rest_suffix (hm : m ∈ run p n (w ++ tail))
    (hend : EndsInside w m = false) : m.rest <:+ tail := by
  have happ := append_of_mem_run hm
  have hlong : w.length ≤ m.text.length := Nat.not_lt.mp (of_decide_eq_false hend)
  refine ⟨m.text.drop w.length, ?_⟩
  have hdrop := congrArg (drop w.length) happ
  rwa [drop_left, drop_append_of_le_length hlong, eq_comm] at hdrop

/-! ### Blind patterns -/

theorem blind_of_stopsAt (hp : StopsAt stop p) (htail : ∀ c ∈ tail.head?, stop c = true) :
    Blind tail p := run_append hp htail

theorem Blind.seq (ha : Blind tail a) (hb : Blind tail b) : Blind tail (seq a b) := by
  intro n w
  rw [run, run, ha, flatMap_map, map_flatMap]
  refine flatMap_congr fun m _ => ?_
  show (run b _ (m.rest ++ tail)).map m.append = _
  rw [hb, map_map, map_map]
  rfl

theorem Blind.alt (ha : Blind tail a) (hb : Blind tail b) : Blind tail (alt a b) := by
  intro n w
  rw [run, run, ha, hb, map_append]

theorem Blind.group (k : Nat) (ha : Blind tail a) : Blind tail (group k a) := by
  intro n w
  rw [run, run, ha, map_map, map_map]
  rfl

theorem Blind.matchAt_append (hp : Blind tail p) (w : Text) :
    matchAt p (w ++ tail) = (matchAt p w).map (Match.before tail) := by
  rw [matchAt, matchAt, hp, head?_map]

/-- **A byte that the pattern stops at** hides all that stands behind it. -/
theorem matchAt_append_of_mem (hp : StopsAt stop p) (hw : ∃ c ∈ w, stop c = true) :
    matchAt p (w ++ tail) = (matchAt p w).map (Match.before tail) := by
  obtain ⟨c, hc, hstop⟩ := hw
  obtain ⟨u, v, rfl⟩ := append_of_mem hc
  have hhead : ∀ v : Text, ∀ d ∈ (c :: v).head?, stop d = true := by
    rintro v d hd
    rw [head?_cons, Option.mem_some_iff] at hd
    rwa [← hd]
  rw [append_assoc, cons_append, Pattern.matchAt_append hp (hhead (v ++ tail)),
    Pattern.matchAt_append hp (hhead v), Option.map_map]
  refine congrArg (Option.map · _) (funext fun m => ?_)
  show Match.mk m.text (m.rest ++ c :: (v ++ tail)) m.caps =
    Match.mk m.text (m.rest ++ c :: v ++ tail) m.caps
  rw [append_assoc, cons_append]

/-! ### Local patterns -/

theorem Blind.local (ha : Blind tail a) : Local tail a := by
  intro n w
  rw [ha, filter_map]
  rfl

theorem Local.alt (ha : Local tail a) (hb : Local tail b) : Local tail (alt a b) := by
  intro n w
  rw [run, run, filter_append, filter_append, ha, hb, map_append]

theorem Local.group (k : Nat) (ha : Local tail a) : Local tail (group k a) := by
  intro n w
  rw [run, run, filter_map, filter_map]
  have hinside : (EndsInside w ∘ fun m : Match => { m with caps := (k, m.text) :: m.caps }) =
      EndsInside w := rfl
  rw [hinside, ha, map_map, map_map]
  rfl

theorem local_flatMap {f g : Match → List Match} (ha : Local tail a)
    (hf : ∀ m m' : Match, m' ∈ f m → m.text.length ≤ m'.text.length)
    (hg : ∀ m m' : Match, m' ∈ g m → m.text.length ≤ m'.text.length)
    (hfg : ∀ m ∈ run a n w, m.rest ≠ [] → (f (m.before tail)).filter (EndsInside w) =
      ((g m).filter (EndsInside w)).map (Match.before tail)) :
    ((run a n (w ++ tail)).flatMap f).filter (EndsInside w) =
      (((run a n w).flatMap g).filter (EndsInside w)).map (Match.before tail) := by
  have hkept : ∀ {h : Match → List Match} (l : List Match),
      (∀ m m' : Match, m' ∈ h m → m.text.length ≤ m'.text.length) →
      (l.flatMap h).filter (EndsInside w) =
        (l.filter (EndsInside w)).flatMap fun m => (h m).filter (EndsInside w) := by
    intro h l hlong
    rw [filter_flatMap]
    refine (flatMap_filter_of_eq_nil fun m _ hm => filter_eq_nil_iff.mpr fun m' hm' => ?_).symm
    have hle := hlong m m' hm'
    have hend : w.length ≤ m.text.length := Nat.not_lt.mp (of_decide_eq_false hm)
    exact fun h => Nat.not_lt.mpr (hend.trans hle) (of_decide_eq_true h)
  rw [hkept _ hf, hkept _ hg, ha, flatMap_map, map_flatMap]
  refine flatMap_congr fun m hm => ?_
  obtain ⟨hm, hend⟩ := mem_filter.mp hm
  exact hfg m hm ((rest_length_of_endsInside hm).mp hend)

theorem filter_map_append (hw : w = m.text ++ m.rest) (l : List Match) :
    (l.map m.append).filter (EndsInside w) = (l.filter (EndsInside m.rest)).map m.append := by
  rw [filter_map]
  refine congrArg (map m.append) (filter_congr fun m' _ => ?_)
  show decide ((m.text ++ m'.text).length < w.length) = decide (m'.text.length < m.rest.length)
  rw [hw, length_append, length_append, decide_eq_decide]
  exact Nat.add_lt_add_iff_left

theorem length_le_of_mem_map_append {m' : Match} {l : List Match} (h : m' ∈ l.map m.append) :
    m.text.length ≤ m'.text.length := by
  obtain ⟨m₁, -, rfl⟩ := mem_map.mp h
  rw [Match.append_text, length_append]
  exact Nat.le_add_right _ _

theorem Local.seq (ha : Local tail a) (hb : Local tail b) : Local tail (seq a b) := by
  intro n w
  rw [run, run]
  refine local_flatMap ha (fun m m' h => length_le_of_mem_map_append h)
    (fun m m' h => length_le_of_mem_map_append h) fun m hm _ => ?_
  have hw := append_of_mem_run hm
  show ((run b _ (m.rest ++ tail)).map (m.before tail).append).filter (EndsInside w) = _
  rw [filter_map_append hw]
  have hmap : ∀ l : List Match, (l.map (m.before tail).append).filter (EndsInside w) =
      (l.filter (EndsInside m.rest)).map m.append := fun l => filter_map_append hw l
  rw [hmap, hb, map_map, map_map]
  rfl

theorem Local.star (ha : Local tail a) : Local tail (star a) := by
  have hiter : ∀ k n w, (iter (run a) k n (w ++ tail)).filter (EndsInside w) =
      ((iter (run a) k n w).filter (EndsInside w)).map (Match.before tail) := by
    intro k
    induction k with
    | zero =>
      intro n w
      rw [iter, iter]
      cases w <;> rfl
    | succ k ih =>
      intro n w
      rw [iter, iter, filter_append, filter_append, map_append]
      refine congrArg₂ (· ++ ·) (local_flatMap ha ?_ ?_ fun m hm _ => ?_) (by cases w <;> rfl)
      · intro m m' h
        split at h
        · exact absurd h not_mem_nil
        · exact length_le_of_mem_map_append h
      · intro m m' h
        split at h
        · exact absurd h not_mem_nil
        · exact length_le_of_mem_map_append h
      · show (if m.text = [] then []
          else (iter (run a) k _ (m.rest ++ tail)).map m.append).filter (EndsInside w) = _
        by_cases hempty : m.text = []
        · rw [if_pos hempty, if_pos hempty]
          rfl
        · have hw := append_of_mem_run hm
          rw [if_neg hempty, if_neg hempty, filter_map_append hw, filter_map_append hw, ih,
            map_map, map_map]
          rfl
  intro n w
  -- the added text only adds rounds that are not needed
  have hfuel : run (Pattern.star a) n w = iter (run a) (w ++ tail).length n w :=
    iter_eq_of_length_le (fun _ _ _ h => append_of_mem_run h) _ _ _ _ le_rfl
      (by rw [length_append]; exact Nat.le_add_right _ _)
  rw [hfuel, run]
  exact hiter _ n w

theorem local_cls (q : Byte → Bool) : Local tail (cls q) := by
  intro n w
  cases w with
  | nil =>
    rw [nil_append, run, filter_nil, map_nil]
    exact filter_eq_nil_iff.mpr fun m _ h => Nat.not_lt_zero _ (of_decide_eq_true h)
  | cons c w =>
    rw [cons_append, run, run]
    by_cases hc : q c = true
    · rw [if_pos hc, if_pos hc]
      cases w <;> rfl
    · rw [if_neg hc, if_neg hc]
      rfl

theorem local_possessive (q : Byte → Bool) : Local tail (possessive q) := by
  intro n w
  obtain ⟨u, v, rfl, hu, hv⟩ := exists_span q w
  cases v with
  | nil =>
    -- the run may go on in the added text
    have hlong : ∀ s, ∀ m ∈ run (possessive q) n (u ++ s), EndsInside u m = false := by
      intro s m hm
      refine decide_eq_false (Nat.not_lt.mpr ?_)
      obtain ⟨u', v, rfl, hu', hv⟩ := exists_span q s
      by_cases hempty : u ++ u' = []
      · rw [(append_eq_nil_iff.mp hempty).1]
        exact Nat.zero_le _
      · have hall : ∀ c ∈ u ++ u', q c = true := fun c hc =>
          (mem_append.mp hc).elim (hu c) (hu' c)
        rw [← append_assoc, run_possessive hempty hall hv, mem_singleton] at hm
        rw [hm, length_append]
        exact Nat.le_add_right _ _
    have hsame := hlong []
    rw [append_nil] at hsame ⊢
    rw [filter_eq_nil_iff.mpr fun m hm => ne_true_of_eq_false (hlong tail m hm),
      filter_eq_nil_iff.mpr fun m hm => ne_true_of_eq_false (hsame m hm)]
    rfl
  | cons c v =>
    have hc : ∀ v : Text, ∀ d ∈ (c :: v).head?, q d = false := fun _ => hv
    rw [append_assoc, cons_append]
    by_cases hempty : u = []
    · rw [hempty, nil_append, nil_append, run_possessive_eq_nil (hc (v ++ tail)),
        run_possessive_eq_nil hv]
      rfl
    · have hinside : ∀ rest, EndsInside (u ++ c :: v) ⟨u, rest, []⟩ = true := fun rest =>
        decide_eq_true (by
          rw [length_append]
          exact Nat.lt_add_of_pos_right (Nat.zero_lt_succ _))
      rw [run_possessive hempty hu (hc (v ++ tail)), run_possessive hempty hu hv,
        filter_cons_of_pos (hinside _), filter_cons_of_pos (hinside _)]
      rfl

/-! ### Bytes to pass over -/

theorem run_byte_seq (c d : Byte) (n : Nat) (w : Text) :
    run (seq (seq (cls (· == c)) eps) b) n (d :: w) =
      if d = c then (run b (n + 1) w).map (Match.append ⟨[d], w, []⟩) else [] := by
  by_cases hd : d = c
  · have hone : run (cls (· == c)) n (d :: w) = [⟨[d], w, []⟩] := run_cls_cons (beq_iff_eq.mpr hd)
    rw [if_pos hd, run, run, hone]
    exact append_nil _
  · rw [if_neg hd]
    exact run_seq_eq_nil (run_seq_eq_nil
      (run_cls_eq_nil fun e he => by
        rw [head?_cons, Option.mem_some_iff] at he
        exact beq_eq_false_iff_ne.mpr fun h => hd (he.trans h)))

theorem run_star_cls_seq {q : Byte → Bool} (hb : ∀ n c w, q c = true → run b n (c :: w) = [])
    {u v : Text} (hu : ∀ c ∈ u, q c = true) (hv : ∀ c ∈ v.head?, q c = false) (n : Nat) :
    run (seq (star (cls q)) b) n (u ++ v) =
      (run b (n + u.length) v).map (Match.append ⟨u, v, []⟩) := by
  induction u generalizing n with
  | nil =>
    rw [nil_append, run, run_star_eq_nil (run_cls_eq_nil hv)]
    exact append_nil _
  | cons c u ih =>
    have hc := hu c mem_cons_self
    have hrest := ih (fun d hd => hu d (mem_cons_of_mem c hd)) (n + 1)
    have hassoc : Match.append ⟨[c], u ++ v, []⟩ ∘ Match.append ⟨u, v, []⟩ =
        Match.append ⟨c :: u, v, []⟩ := by
      funext m
      simp [Match.append]
    rw [cons_append, run_star_seq, hb n c (u ++ v) hc, append_nil, run_cls_cons hc,
      flatMap_cons, flatMap_nil, append_nil, if_neg (cons_ne_nil c [])]
    show (run (seq (star (cls q)) b) (n + 1) (u ++ v)).map _ = _
    rw [hrest, map_map, hassoc, length_cons, Nat.add_assoc, Nat.add_comm 1]

/-! ### Closed patterns -/

theorem closed_lit {c : Byte} (hc : c ∉ tail) : Closed tail (cls (· == c)) := by
  have hnone : ∀ n u, u <:+ tail → run (cls (· == c)) n u = [] := by
    intro n u hu
    refine run_cls_eq_nil fun d hd => beq_eq_false_iff_ne.mpr ?_
    rintro rfl
    exact hc (hu.mem (mem_of_head? hd))
  refine ⟨fun n w => ?_, hnone⟩
  cases w with
  | nil =>
    rw [nil_append, hnone n tail (suffix_refl tail)]
    rfl
  | cons d w =>
    rw [cons_append, run, run]
    by_cases hd : (d == c) = true
    · rw [if_pos hd, if_pos hd]
      rfl
    · rw [if_neg hd, if_neg hd]
      rfl

theorem Closed.then (ha : Closed tail a) (hb : Blind tail b) : Closed tail (seq a b) :=
  ⟨ha.blind.seq hb, fun n u hu => run_seq_eq_nil (ha.run_eq_nil n u hu)⟩

/-- **A closed pattern behind a local one**: a match of the first that runs to the end of the
subject leaves nothing for the second. -/
theorem Closed.seq (ha : Local tail a) (hb : Closed tail b) : Closed tail (seq a b) := by
  have hnone : ∀ n u, u <:+ tail → run (Pattern.seq a b) n u = [] := by
    intro n u hu
    rw [run, flatMap_eq_nil_iff]
    intro m hm
    have hsuffix : m.rest <:+ u := ⟨m.text, (append_of_mem_run hm).symm⟩
    rw [hb.run_eq_nil _ _ (hsuffix.trans hu), map_nil]
  refine ⟨fun n w => ?_, hnone⟩
  have hkept : ∀ (w' : Text), (∀ m ∈ run a n w', EndsInside w m = false → m.rest <:+ tail) →
      run (Pattern.seq a b) n w' = ((run a n w').filter (EndsInside w)).flatMap fun m =>
        (run b (n + m.text.length) m.rest).map m.append := by
    intro w' hrest
    rw [run]
    refine (flatMap_filter_of_eq_nil fun m hm hend => ?_).symm
    rw [hb.run_eq_nil _ _ (hrest m hm hend), map_nil]
  rw [hkept (w ++ tail) fun m hm hend => rest_suffix hm hend, hkept w fun m hm hend => ?_, ha,
    flatMap_map, map_flatMap]
  · refine flatMap_congr fun m _ => ?_
    show (run b _ (m.rest ++ tail)).map m.append = _
    rw [hb.blind, map_map, map_map]
    rfl
  · have hnil : m.rest = [] := by
      by_contra h
      rw [(rest_length_of_endsInside hm).mpr h] at hend
      exact Bool.noConfusion hend
    rw [hnil]
    exact nil_suffix

end Pattern

end SipXRouter
